import Mathlib
import Descent.Proofs.Evaluation.Sparsity
import Descent.Proofs.Newton.OneStep

namespace Descent

open Matrix

namespace Objective

open Registry

section

variable {α : Type} [ExactReal α] (f : Objective α) (m : Memory α)

def OfDistances [Numeral α] : Prop :=
  ∀ b ∈ f.terms, (∃ center, b.term = Sample.quadratic center) ∨ ∃ offset, b.term = Sample.pair offset

def Definite : Prop := ∃ x sparse a g h,
  (f.ask m (.hessian x sparse)).1 = .ok (.hessian a g h) ∧ PositiveDefinite (Matrix.of h.get)

def HoldsMinimizer : Prop := ∃ x least, f.readPoint m = .ok x ∧
  (f.ask m (.value (some x))).1 = .ok (.number least) ∧
  ∀ y : List α, y.length = f.scalars → y ≠ x →
    ∃ a, (f.ask m (.value (some y))).1 = .ok (.number a) ∧ least < a

end

theorem exists_toList {α : Type} {n : Nat} {x : List α} (size : x.length = n) :
    ∃ y : Vector α n, y.toList = x := ⟨⟨x.toArray, size⟩, rfl⟩

variable {α : Type} [ExactReal α] {f : Objective α} {m m' : Memory α} {iterations : Int}
  {value : (Fin f.scalars → α) → α} {gradient : (Fin f.scalars → α) → Fin f.scalars → α}
  {h : Matrix (Fin f.scalars) (Fin f.scalars) α} (reached : Reachable f)

include reached

theorem Reachable.exists_isQuadratic [Numeral α] (distances : f.OfDistances) (definite : f.Definite m) :
    f.checkHessian = .ok () ∧
      ∃ value gradient h, f.IsQuadratic m value gradient h ∧ PositiveDefinite h := by
  obtain ⟨x, sparse, a, g, hessian, evaluated, positive⟩ := definite
  obtain ⟨able, size, ⟨report⟩⟩ := reached.report_of_hessian evaluated
  have : Nonempty (Jet α) := ⟨⟨0, fun _ _ => 0, fun _ _ _ _ => 0⟩⟩
  have each : ∀ b ∈ f.terms, ∃ jet sign offset, Sample.Distance b.term jet sign offset := by
    intro b member
    obtain ⟨center, same⟩ | ⟨offset, same⟩ := distances b member
    · exact same ▸ (Sample.distance_quadratic center).imp fun jet distance => ⟨_, _, distance⟩
    · exact same ▸ (Sample.distance_pair offset).imp fun jet distance => ⟨_, _, distance⟩
  choose! jet sign offset distance using each
  have smooth : f.Smooth m jet := by
    refine ⟨fun b member => (distance b member).evaluates, fun v member free =>
      plain_of_checkHessian able member free, fun v member constant => ⟨report.point v, ?_⟩⟩
    rw [← localValue_of_constant constant]
    exact report.seen v member
  obtain ⟨value, gradient, h, evaluates⟩ :=
    Registry.exists_isQuadratic smooth reached.wellFormed fun b member => ⟨_, _, distance b member⟩
  obtain ⟨y, rfl⟩ := exists_toList size
  obtain ⟨_, meaning, entries, -⟩ := evaluates.hessian_eq able y sparse
  cases meaning.symm.trans (reached.ask_hessian_iff.1 evaluated)
  exact ⟨able, value, gradient, h, evaluates, entries ▸ positive⟩

theorem Reachable.holdsMinimizer (evaluates : f.IsQuadratic m value gradient h) (positive : PositiveDefinite h)
    (separate : f.Separate m) (unchanged : ∀ v ∈ f.vars, v.isConstant = false → v.change = none) {x₀ : List α}
    (read : f.readPoint m = .ok x₀) {x : Vector α f.scalars} (flat : gradient x.get = 0)
    (wrote : StateT.run (ExceptT.run (f.writePoint x.toList)) m = (.ok (), m')) : f.HoldsMinimizer m' := by
  have wf := reached.wellFormed
  have written := run_writePoint wf separate wrote
  have asked (y : Vector α f.scalars) :
      (f.ask m' (.value (some y.toList))).1 = .ok (.number (value y.get)) := by
    rw [reached.ask_eq, Query.meaning, written.valueMeaning_some_eq wf, evaluates.value_eq, map_ok]
  refine ⟨x.toList, value x.get, readPoint_of_written wf separate unchanged Vector.length_toList read wrote,
    asked x, fun y size other => ?_⟩
  obtain ⟨y, rfl⟩ := exists_toList size
  refine ⟨value y.get, asked y, evaluates.quadratic.least positive flat fun same => other ?_⟩
  rw [Vec.ext_get same]

/-- From wherever the arrays stand, Newton's method minimizes distances in one step: it ends with a gradient
that is zero, after no iteration if it was so at the start and after one otherwise, whose search evaluates
the function once. The arrays then hold the only minimizer. -/
theorem Reachable.minimizes_distances [Numeral α] (separate : f.Separate m)
    (lengths : ∀ v ∈ f.vars, v.isConstant = false → (m.load v.storage).length = v.userDimension)
    (distances : f.OfDistances) (definite : f.Definite m) {setup : RunSetup α f.scalars}
    (full : setup.FullSteps) (shifts : setup.config.factorizationMethod = .shifts ∨
      ∃ w, (f.useSparse setup.config).run f.workspace = (.ok true, w))
    (left : iterations < setup.config.maximumIterations) : ∃ start a g solution f' m',
    f.readPoint m = .ok start ∧ (f.ask m (.gradient start)).1 = .ok (.gradient a g) ∧
      f.minimize m setup .newton iterations = (.ok solution, f', m') ∧
      solution.exit = .gradientTolerance ∧
      OneStep g iterations solution.iterations f.workspace f'.workspace ∧ f.HoldsMinimizer m' ∧
      ∀ v ∈ f.vars, v.isConstant = true → m'.load v.storage = m.load v.storage := by
  have wf := reached.wellFormed
  obtain ⟨able, value, gradient, h, evaluates, positive⟩ := reached.exists_isQuadratic distances definite
  have unchanged : ∀ v ∈ f.vars, v.isConstant = false → v.change = none := fun v member free =>
    plain_of_checkHessian able member free
  obtain ⟨x, read⟩ := readPoint_of_parts fun v member free => by
    refine ⟨m.load v.storage, ?_⟩
    rw [readPart, unchanged v member free, ← lengths v member free]
    exact fit_self _
  obtain ⟨start, started⟩ := Minimization.started_of_read (s := ⟨f.workspace, m⟩) read
  have from_start := Minimization.read_of_started wf started
  obtain ⟨sparse, w, chosen, coherent⟩ := run_useSparse reached.coherent setup.config
  have stored : setup.config.factorizationMethod = .shifts ∨ sparse = true := by
    refine shifts.imp id ?_
    rintro ⟨w', sparsely⟩
    cases chosen.symm.trans sparsely
    rfl
  -- one full step leads to a zero gradient, which ends the run
  obtain ⟨state, w', journal, ran, flat, one⟩ :=
    Newton.run_quadratic evaluates coherent able positive full stored left start
  obtain ⟨m', wrote⟩ := writePoint_of_parts Vector.length_toList lengths fun v member free =>
    ⟨_, wf.localValue_eq Vector.length_toList member free (unchanged v member free)⟩
  obtain ⟨solution, solved, exit, counted, -⟩ :=
    Minimization.run_newtonOn started chosen ran wrote
  refine ⟨start.toList, value start.get, Vector.ofFn (gradient start.get), solution,
    { f with workspace := w' }, m', from_start, ?_, ?_, exit, ?_,
    reached.holdsMinimizer evaluates positive separate unchanged from_start flat wrote,
    fun v member constant => (run_writePoint wf separate wrote).load_constant wf member constant⟩
  · rw [reached.ask_gradient_iff, evaluates.gradient_eq]
  · rw [minimize, Minimization.solve, Minimization.newton, solved]
  · exact counted ▸ one.of_grew (grew_useSparse chosen)

omit reached

@[reducible]
def reals : Numeral ℝ := ⟨fun _ => "", fun _ => none⟩

noncomputable def threeReals : Memory ℝ where
  objects := [.array .double [1] 0 0, .array .double [1] 1 0, .array .double [1] 2 0]
  blocks := [[1], [1], [0]]

noncomputable def chain : Objective ℝ :=
  let apply (f : Objective ℝ) (c : Mutation ℝ) := (c.edit.run threeReals f).2
  [.addTerm (.term (@Sample.quadratic ℝ _ reals [1])) [⟨0⟩],
    .addTerm (.term (@Sample.pair ℝ _ reals [1])) [⟨0⟩, ⟨1⟩],
    .addTerm (.term (@Sample.pair ℝ _ reals [0])) [⟨1⟩, ⟨2⟩],
    .setConstant ⟨2⟩ true].foldl apply (ofThreads 2)

theorem reachable_chain : Reachable chain :=
  .step (.step (.step (.step (.new (show new? 2 = .ok (ofThreads 2) from rfl))
    (.mutate (c := .addTerm (.term (@Sample.quadratic ℝ _ reals [1])) [⟨0⟩]) trivial threeReals))
    (.mutate (c := .addTerm (.term (@Sample.pair ℝ _ reals [1])) [⟨0⟩, ⟨1⟩]) trivial threeReals))
    (.mutate (c := .addTerm (.term (@Sample.pair ℝ _ reals [0])) [⟨1⟩, ⟨2⟩]) trivial threeReals))
    (.mutate (c := .setConstant ⟨2⟩ true) trivial threeReals)

theorem chain_gradient : ∃ a g, (chain.ask threeReals (.gradient [1, 1])).1 = .ok (.gradient a g) ∧
    g.get = (![-1, 2] : Fin 2 → ℝ) := by
  refine ⟨_, _, rfl, funext fun i => ?_⟩
  fin_cases i
  · show (0 : ℝ) + (0 + (1 - 1)) + (0 + (1 - 1 - 1)) = -1
    norm_num
  · show (0 : ℝ) + 0 + (0 + -(1 - 1 - 1) + (1 - 0 - 0)) = 2
    norm_num

theorem chain_hessian : ∃ a g h, (chain.ask threeReals (.hessian [0, 0] false)).1 = .ok (.hessian a g h) ∧
    Matrix.of h.get = (!![2, -1; -1, 2] : Matrix (Fin 2) (Fin 2) ℝ) := by
  refine ⟨_, _, _, rfl, Matrix.ext fun i j => ?_⟩
  fin_cases i <;> fin_cases j
  · show (0 : ℝ) + 1 + 1 = 2
    norm_num
  · show (0 : ℝ) + -1 = -1
    norm_num
  · show (0 : ℝ) + -1 = -1
    norm_num
  · show (0 : ℝ) + 1 + 1 = 2
    norm_num

theorem positiveDefinite_coupled : PositiveDefinite (!![2, -1; -1, 2] : Matrix (Fin 2) (Fin 2) ℝ) := by
  intro v nonzero
  have squares : v ⬝ᵥ !![2, -1; -1, 2] *ᵥ v = v 0 ^ 2 + (v 0 - v 1) ^ 2 + v 1 ^ 2 := by
    simp [dotProduct, mulVec, Fin.sum_univ_two]
    ring
  rw [squares]
  refine lt_of_le_of_ne (by positivity) fun none => nonzero ?_
  have first : v 0 ^ 2 = 0 := by linarith [sq_nonneg (v 0), sq_nonneg (v 0 - v 1), sq_nonneg (v 1)]
  have second : v 1 ^ 2 = 0 := by linarith [sq_nonneg (v 0), sq_nonneg (v 0 - v 1), sq_nonneg (v 1)]
  ext i
  fin_cases i
  exacts [pow_eq_zero_iff two_ne_zero |>.1 first, pow_eq_zero_iff two_ne_zero |>.1 second]

theorem chain_definite : chain.Definite threeReals := by
  obtain ⟨a, g, h, evaluated, entries⟩ := chain_hessian
  refine ⟨[0, 0], false, a, g, h, evaluated, ?_⟩
  rw [entries]
  exact positiveDefinite_coupled

noncomputable def fullSteps (n : Nat) : RunSetup ℝ n where
  config := {
    maximumIterations := 1
    gradientTolerance := 1
    functionImprovementTolerance := 0
    argumentImprovementTolerance := 0
    historySize := 1
    restartTolerance := 0
    sufficientDecrease := 1 / 2
    contraction := 1 / 2
    startStep := 1
    sparsityMode := .auto
    factorizationMethod := .shifts
    autoSparseMinSize := 0
    autoSparseMaxDensity := 0 }
  searchBudget := 1
  proceed _ _ := true

theorem fullSteps_full (n : Nat) : (fullSteps n).FullSteps :=
  ⟨le_rfl, rfl, ⟨one_pos, le_rfl⟩, fun _ _ => rfl, Nat.one_pos⟩

theorem chain_minimized : ∃ solution f' m',
    chain.minimize threeReals (fullSteps chain.scalars) .newton 0 = (.ok solution, f', m') ∧
      solution.exit = .gradientTolerance ∧ solution.iterations = 1 ∧
      chain.workspace.Grew 2 1 f'.workspace ∧ chain.HoldsMinimizer m' ∧ m'.load ⟨2⟩ = [0] := by
  have vars : chain.vars = [⟨⟨0⟩, 1, 1, 0, false, none⟩, ⟨⟨1⟩, 1, 1, 1, false, none⟩,
    ⟨⟨2⟩, 1, 1, 2, true, none⟩] := rfl
  have each {P : Variable ℝ → Prop} : (∀ v ∈ chain.vars, P v) ↔ P ⟨⟨0⟩, 1, 1, 0, false, none⟩ ∧
      P ⟨⟨1⟩, 1, 1, 1, false, none⟩ ∧ P ⟨⟨2⟩, 1, 1, 2, true, none⟩ := by
    rw [vars, List.forall_mem_cons, List.forall_mem_cons, List.forall_mem_singleton]
  have spans : ∀ v ∈ chain.vars, threeReals.Spans v.storage ⟨v.storage.id, 0, 1⟩ :=
    each.2 ⟨⟨rfl, _, rfl, Nat.le_refl 1⟩, ⟨rfl, _, rfl, Nat.le_refl 1⟩, ⟨rfl, _, rfl, Nat.le_refl 1⟩⟩
  have separate : chain.Separate threeReals := by
    refine ⟨fun v member => ⟨_, spans v member⟩, fun v member _ w other differs a b at_v at_w => ?_⟩
    rw [at_v.unique (spans v member), at_w.unique (spans w other)]
    exact .inl fun same => differs (congrArg Handle.mk same.symm)
  have terms : chain.terms = [⟨@Sample.quadratic ℝ _ reals [1], [0]⟩, ⟨@Sample.pair ℝ _ reals [1], [0, 1]⟩,
    ⟨@Sample.pair ℝ _ reals [0], [1, 2]⟩] := rfl
  have distances : @OfDistances ℝ _ chain reals := by
    rw [OfDistances, terms, List.forall_mem_cons, List.forall_mem_cons, List.forall_mem_singleton]
    exact ⟨.inl ⟨_, rfl⟩, .inr ⟨_, rfl⟩, .inr ⟨_, rfl⟩⟩
  obtain ⟨start, a, g, solution, f', m', read, evaluated, ran, exit, one, holds, kept⟩ :=
    @Reachable.minimizes_distances ℝ _ chain threeReals 0 reachable_chain reals separate
      (each.2 ⟨fun _ => rfl, fun _ => rfl, fun _ => rfl⟩) distances chain_definite (fullSteps chain.scalars)
      (fullSteps_full _) (.inl rfl) Int.one_pos
  have start_eq : chain.readPoint threeReals = .ok [1, 1] := rfl
  cases start_eq.symm.trans read
  obtain ⟨a', g', evaluated', entries⟩ := chain_gradient
  cases evaluated.symm.trans evaluated'
  have steep : g.get ≠ 0 := by
    rw [entries]
    intro flat
    exact two_ne_zero (congrFun flat (1 : Fin 2))
  cases one with
  | stays flat => exact absurd flat steep
  | moves _ counted evaluations =>
      exact ⟨solution, f', m', ran, exit, counted, evaluations, holds, (each.1 kept).2.2 rfl⟩

noncomputable def twoReals : Memory ℝ where
  objects := [.array .double [2] 0 0]
  blocks := [[1, 1]]

noncomputable def shrunkReals : Memory ℝ where
  objects := [.array .double [1] 1 0]
  blocks := [[1, 1], [1]]

noncomputable def bowl : Objective ℝ :=
  ((Mutation.addTerm (.term (@Sample.quadratic ℝ _ reals [0, 0])) [⟨0⟩]).edit.run twoReals (ofThreads 1)).2

theorem bowl_definite : bowl.Definite shrunkReals := by
  have hessian : ∃ a g h, (bowl.ask shrunkReals (.hessian [0, 0] false)).1 = .ok (.hessian a g h) ∧
      Matrix.of h.get = ((1 : ℝ) • 1 : Matrix (Fin 2) (Fin 2) ℝ) := by
    refine ⟨_, _, _, rfl, Matrix.ext fun i j => ?_⟩
    fin_cases i <;> fin_cases j
    · show (0 : ℝ) + 1 = 1 * 1
      norm_num
    · show (0 : ℝ) + 0 = 1 * 0
      norm_num
    · show (0 : ℝ) + 0 = 1 * 0
      norm_num
    · show (0 : ℝ) + 1 = 1 * 1
      norm_num
  obtain ⟨a, g, h, evaluated, entries⟩ := hessian
  refine ⟨[0, 0], false, a, g, h, evaluated, ?_⟩
  rw [entries]
  exact .smul_one one_pos

/-- Where the array of a free variable has become shorter, what it holds may still be read as a point, but no
point can be written to it. -/
theorem shrunk_not_minimized : twoReals.resize ⟨0⟩ 1 = .ok shrunkReals ∧ Reachable bowl ∧
    bowl.Separate shrunkReals ∧ (∀ v ∈ bowl.vars, v.change = none) ∧ @OfDistances ℝ _ bowl reals ∧
    bowl.Definite shrunkReals ∧ bowl.readPoint shrunkReals = .ok [1, 1] ∧
    (fullSteps bowl.scalars).FullSteps ∧ (fullSteps bowl.scalars).config.factorizationMethod = .shifts ∧
    ∀ solution f' m',
      bowl.minimize shrunkReals (fullSteps bowl.scalars) .newton 0 ≠ (.ok solution, f', m') := by
  have reached : Reachable bowl := .step (.new (show new? 1 = .ok (ofThreads 1) from rfl))
    (.mutate (c := .addTerm (.term (@Sample.quadratic ℝ _ reals [0, 0])) [⟨0⟩]) trivial twoReals)
  have each {P : Variable ℝ → Prop} : (∀ v ∈ bowl.vars, P v) ↔ P ⟨⟨0⟩, 2, 2, 0, false, none⟩ :=
    List.forall_mem_singleton
  have spans : ∀ v ∈ bowl.vars, shrunkReals.Spans v.storage ⟨1, 0, 1⟩ := each.2 ⟨rfl, _, rfl, Nat.le_refl 1⟩
  refine ⟨rfl, reached, ⟨fun v member => ⟨_, spans v member⟩, ?_⟩, each.2 rfl,
    List.forall_mem_singleton.2 (.inl ⟨_, rfl⟩), bowl_definite, rfl, fullSteps_full _, rfl, ?_⟩
  · exact each.2 fun _ => each.2 fun differs => absurd rfl differs
  · intro solution f' m' ran
    rcases solved : StateT.run (ExceptT.run (Minimization.solve bowl.toRegistry (fullSteps bowl.scalars) .newton 0))
      ⟨bowl.workspace, shrunkReals⟩ with ⟨result, after⟩
    rw [minimize, solved] at ran
    cases ran
    obtain ⟨sparse, w, start, state, -, course⟩ := Minimization.newton_course reached.coherent solved
    have wrote := course.wrote
    obtain ⟨a, b, point⟩ := List.length_eq_two.1
      (show state.iterate.point.toList.length = 2 from Vector.length_toList)
    rw [point] at wrote
    cases (Prod.mk.inj wrote).1

end Objective

end Descent
