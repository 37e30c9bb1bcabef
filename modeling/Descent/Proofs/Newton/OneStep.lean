import Mathlib
import Descent.Proofs.Curvature.Descending
import Descent.Proofs.Newton.Shifts
import Descent.Proofs.Quadratic.Distances
import Descent.Proofs.Run.Accounts
import Descent.Proofs.Search.Trials

namespace Descent

open Matrix

namespace Regularizer

section

variable {α φ : Type} [ExactField α] {n : Nat} {a : Dense α n n} {g : Vector α n}
  {factor? : α → Except (Fault α) (Option φ)} {solve : φ → Except (Fault α) (Vector α n)}

theorem Exact.unshifted (exact : Exact a.toMatrix g factor? solve) (positive : PositiveDefinite a.toMatrix) :
    ∃ p, shiftedStep factor? solve a.diagonal = .ok ⟨p, .shifts, 0, 0, 1⟩ ∧ a.toMatrix *ᵥ p.get = -g.get := by
  have none : shifts (firstShift a.diagonal) 0 = 0 := (shiftSequence a).unshifted positive.diagonal
  have same : a.toMatrix + shifts (firstShift a.diagonal) 0 • (1 : Matrix (Fin n) (Fin n) α) = a.toMatrix := by
    rw [none, zero_smul, add_zero]
  have positive' := same.symm ▸ positive
  obtain ⟨-, p, -, -, solves⟩ := exact.succeeds _ positive'
  have stepped := exact.shiftedStep_eq positive' (fun j below => absurd below (Nat.not_lt_zero j)) solves
  rw [none] at stepped
  rw [same] at solves
  exact ⟨p, stepped, solves⟩

theorem symmetrized_eq (symmetric : a.toMatrix.IsSymm) : a.symmetrized = a := by
  refine Vec.ext_get (funext fun i => Vec.ext_get (funext fun j => ?_))
  have swapped : a.get j i = a.get i j := symmetric.apply i j
  have entry : a.symmetrized.get i j = a.get i j := by
    rw [Dense.symmetrized, Dense.get_ofFn, swapped, Scalar.ratio_eq]
    push_cast
    ring
  exact entry

end

theorem step_of_positive {α : Type} [ExactReal α] {n : Nat} {method : FactorizationMethod} {a : Hessian α n}
    (symmetric : (Matrix.of a.get).IsSymm) (positive : PositiveDefinite (Matrix.of a.get))
    (shifts : method = .shifts ∨ ∃ s, a = .sparse s) (g : Vector α n) :
    ∃ p, step method a g = .ok ⟨p, .shifts, 0, 0, 1⟩ ∧ Matrix.of a.get *ᵥ p.get = -g.get := by
  cases a with
  | dense d =>
      obtain rfl : method = .shifts := shifts.resolve_right (by rintro ⟨s, same⟩; cases same)
      have whole := symmetrized_eq (a := d) symmetric
      obtain ⟨p, stepped, solves⟩ := (denseExact (a := d) symmetric g).unshifted positive
      exact ⟨p, by rw [step, shiftedDense, whole, stepped], solves⟩
  | sparse s =>
      have entries : Matrix.of (Hessian.sparse s).get = s.toDense.toMatrix := by
        ext i j
        simp [Hessian.get, Sparse.toDense]
      rw [entries] at symmetric positive ⊢
      obtain ⟨p, stepped, solves⟩ := (sparseExact symmetric g).unshifted positive
      exact ⟨p, by rw [step, shiftedSparse, symmetrized_eq symmetric, stepped], solves⟩

end Regularizer

section

variable {α σ : Type} [ExactField α] {n : Nat}

theorem Vec.maxAbs_eq_zero_iff {x : Vector α n} : Vec.maxAbs x = 0 ↔ x.get = 0 := by
  have above : 0 ≤ Vec.maxAbs x := (Vec.maxAbs_le_iff.1 le_rfl).1
  rw [← above.ge_iff_eq', Vec.maxAbs_le_iff, funext_iff]
  simp

theorem Vec.maxAbs_pos {x : Vector α n} (nonzero : x.get ≠ 0) : 0 < Vec.maxAbs x :=
  lt_of_le_of_ne (Vec.maxAbs_le_iff.1 le_rfl).1 fun zero => nonzero (Vec.maxAbs_eq_zero_iff.1 zero.symm)

theorem LineSearch.search_first {c : Config α} {budget : Nat} {evaluate : Vector α n → Eval σ α α}
    {x g p : Vector α n} {value start reached : α} {o o' : σ} (some : 0 < budget) (positive : 0 < start)
    (descends : Vec.dot g p < 0) (evaluated : (evaluate (x + (start * p : Vector α n))).run o = (.ok reached, o'))
    (low : reached ≤ bound c value (Vec.dot g p) start) :
    (search c budget evaluate x value g p start).run o = (.ok (.accepted start 1), o') := by
  have moving : Moving c x p start 0 := by
    refine ⟨positive, fun same => descends.ne ?_⟩
    have still : p.get = 0 := by
      ext i
      have entry : (x + (start * p : Vector α n)).get i = x.get i := Scalar.same_iff.1 (Vec.same_iff.1 same i)
      rw [Vec.get_add, Vec.get_smul, Pi.add_apply, Pi.smul_apply, smul_eq_mul, add_eq_left] at entry
      exact (mul_eq_zero.1 entry).resolve_left positive.ne'
    rw [Vec.dot_eq_dotProduct, still, dotProduct_zero]
  obtain ⟨budget, rfl⟩ := Nat.exists_eq_add_one_of_ne_zero some.ne'
  rw [search, if_pos descends]
  refine (run_backtrack_moving moving budget 0).trans ?_
  rw [show trial c x p start 0 = x + (start * p : Vector α n) from rfl, evaluated]
  exact if_pos low

end

section

variable {α : Type} [ExactField α] {n : Nat} {c : Config α}

theorem Config.exit?_of_small {s : Standing α}
    (small : s.startNorm = 0 ∨ s.gradientNorm < c.gradientTolerance * s.startNorm) :
    c.exit? s = some .gradientTolerance := by
  have test : c.smallGradient s = true := by
    rw [Config.smallGradient, Bool.or_eq_true, Scalar.same_iff, decide_eq_true_iff]
    exact small
  simp [Config.exit?, ExactField.isNaN_eq, ExactField.isInfinite_eq, test]

theorem Config.exit?_start {x g : Vector α n} {value : α} {iterations : Int} (steep : g.get ≠ 0)
    (most : c.gradientTolerance ≤ 1) : c.exit? ((Iterate.start x iterations).standing value g false) = none := by
  have norm := Vec.maxAbs_pos steep
  have test : c.smallGradient ((Iterate.start x iterations).standing value g false) = false := by
    have scaled : c.gradientTolerance * Vec.maxAbs g ≤ Vec.maxAbs g :=
      mul_le_of_le_one_left norm.le most
    rw [Config.smallGradient, Bool.or_eq_false_iff, Bool.eq_false_iff, ne_eq, Scalar.same_iff,
      decide_eq_false_iff_not]
    exact ⟨norm.ne', not_lt.2 scaled⟩
  have before : ((Iterate.start x iterations).standing value g false).before = none := if_neg (lt_irrefl 0)
  have moved : ((Iterate.start x iterations).standing value g false).stepNorm = none := rfl
  have exhausted : ((Iterate.start x iterations).standing value g false).exhausted = false := rfl
  simp [Config.exit?, ExactField.isNaN_eq, ExactField.isInfinite_eq, test, Config.smallImprovement,
    Config.shortStep, before, moved, exhausted]

end

namespace Newton

variable {σ α : Type} [Scalar α] {n : Nat} {setup : RunSetup α n} {oracle : Oracle σ α n} {rule : StepRule α n}
  {exhausted : Bool} {s : State α n} {o o₁ o₂ : σ} {j : Journal α n} {value : α} {g : Vector α n}
  {a : Hessian α n}

theorem run_turn_tested {exit : ExitCondition}
    (evaluated : (oracle.hessian s.iterate.point).run o = (.ok (value, g, a), o₁))
    (test : setup.config.exit? (s.iterate.standing value g exhausted) = some exit) :
    ∃ j', (turn setup oracle rule exhausted s).run (o, j) = (.stop exit s, o₁, j') := by
  rw [turn, Run.run_bind, Run.run_attempt, evaluated]
  simp only [Run.run_bind, Run.run_row, test]
  exact ⟨_, rfl⟩

theorem run_turn_completed {step : NewtonStep α n} {result : SearchResult α}
    (evaluated : (oracle.hessian s.iterate.point).run o = (.ok (value, g, a), o₁))
    (untested : setup.config.exit? (s.iterate.standing value g exhausted) = none)
    (proceeds : ∀ k sight, setup.proceed k sight = true) (directed : rule a g = .ok step)
    (searched : (LineSearch.search setup.config setup.searchBudget oracle.value s.iterate.point value g
      step.direction setup.config.startStep).run o₁ = (.ok result, o₂)) (finished : result.isFinished = true) :
    ∃ j', (turn setup oracle rule exhausted s).run (o, j) =
      (.next ⟨s.iterate.advance value g step.direction result.step, s.shifts ++ [step.shift]⟩, o₂, j') := by
  rw [turn, Run.run_bind, Run.run_attempt, evaluated]
  simp only [Run.run_bind, Run.run_row]
  simp only [untested]
  rw [Run.run_asked, if_pos (proceeds _ _)]
  simp only [directed, follow, Run.run_bind, Run.run_log, Run.run_attempt, searched, finished, if_true]
  exact ⟨_, rfl⟩

end Newton

structure RunSetup.FullSteps {α : Type} [ExactField α] {n : Nat} (setup : RunSetup α n) : Prop where
  decrease : setup.config.sufficientDecrease ≤ 1 / 2
  start : setup.config.startStep = 1
  tolerance : 0 < setup.config.gradientTolerance ∧ setup.config.gradientTolerance ≤ 1
  proceeds : ∀ k sight, setup.proceed k sight = true
  budget : 0 < setup.searchBudget

/-- From a zero gradient no iteration is completed, and from any other one, with one trial; so many iterations
there are then, counted from a start. -/
inductive OneStep {α : Type} [Zero α] {n : Nat} (g : Vector α n) (start iterations : Int)
    (before after : Workspace α) : Prop
  | stays (flat : g.get = 0) (counted : iterations = start) (evaluations : before.Grew 1 0 after)
  | moves (steep : g.get ≠ 0) (counted : iterations = start + 1) (evaluations : before.Grew 2 1 after)

theorem OneStep.of_grew {α : Type} [Zero α] {n : Nat} {g : Vector α n} {start iterations : Int}
    {before after w : Workspace α} (one : OneStep g start iterations w after) (none : before.Grew 0 0 w) :
    OneStep g start iterations before after := by
  cases one with
  | stays flat counted evaluations => exact .stays flat counted (none.trans evaluations)
  | moves steep counted evaluations => exact .moves steep counted (none.trans evaluations)

section

variable {α : Type} [ExactReal α] {r : Registry α} {m : Memory α} {value : (Fin r.scalars → α) → α}
  {gradient : (Fin r.scalars → α) → Fin r.scalars → α} {h : Matrix (Fin r.scalars) (Fin r.scalars) α}
  {setup : RunSetup α r.scalars} {sparse : Bool} {w : Workspace α} {iterations : Int}
  {j : Journal α r.scalars} (evaluates : r.IsQuadratic m value gradient h) (coherent : w.Coherent r)

include evaluates coherent

theorem Registry.IsQuadratic.run_value (sparse : Bool) (x : Vector α r.scalars) :
    ∃ w', ((r.oracle m sparse).value x).run w = (.ok (value x.get), w') ∧ w'.Coherent r ∧ w.Grew 0 1 w' := by
  obtain ⟨w', ran, coherent'⟩ := means_value r m sparse x w coherent
  simp only [evaluates.value_eq] at ran
  exact ⟨w', ran, coherent', ((counts_oracle m sparse).value x w w' _ coherent ran).2.grew_value⟩

theorem Registry.IsQuadratic.run_hessian (able : r.checkHessian = .ok ()) (sparse : Bool) (x : Vector α r.scalars) :
    ∃ a w', ((r.oracle m sparse).hessian x).run w = (.ok (value x.get, Vector.ofFn (gradient x.get), a), w') ∧
      w'.Coherent r ∧ w.Grew 1 0 w' ∧ Matrix.of a.get = h ∧ (sparse = true → ∃ matrix, a = .sparse matrix) := by
  obtain ⟨a, meaning, entries, stored⟩ := evaluates.hessian_eq able x sparse
  obtain ⟨w', ran, coherent'⟩ := means_hessian r m sparse x w coherent
  simp only [meaning] at ran
  exact ⟨a, w', ran, coherent',
    ((counts_oracle m sparse).hessian x w w' _ coherent ran).2.grew_gradient (by decide), entries, stored⟩

variable (able : r.checkHessian = .ok ())

include able

namespace Newton

theorem run_turn_flat (setup : RunSetup α r.scalars) (sparse : Bool) (rule : StepRule α r.scalars)
    (exhausted : Bool) {s : State α r.scalars} (j : Journal α r.scalars)
    (flat : gradient s.iterate.point.get = 0)
    (start : ∀ norm ∈ s.iterate.startNorm, 0 < setup.config.gradientTolerance * norm) :
    ∃ w' j', (turn setup (r.oracle m sparse) rule exhausted s).run (w, j) = (.stop .gradientTolerance s, w', j') ∧
      w.Grew 1 0 w' := by
  obtain ⟨a, w', evaluated, -, grew, -⟩ := evaluates.run_hessian coherent able sparse s.iterate.point
  have none : Vec.maxAbs (Vector.ofFn (gradient s.iterate.point.get)) = 0 := by
    rw [Vec.maxAbs_eq_zero_iff, Vec.get_ofFn, flat]
  have test : setup.config.exit? (s.iterate.standing (value s.iterate.point.get)
      (Vector.ofFn (gradient s.iterate.point.get)) exhausted) = some .gradientTolerance := by
    apply Config.exit?_of_small
    rw [Iterate.standing, none]
    cases known : s.iterate.startNorm with
    | none => exact .inl rfl
    | some norm => exact .inr (start norm known)
  obtain ⟨j', stops⟩ := run_turn_tested evaluated test
  exact ⟨w', j', stops, grew⟩

theorem run_turn_steep (positive : PositiveDefinite h) (full : setup.FullSteps)
    (shifts : setup.config.factorizationMethod = .shifts ∨ sparse = true) (iterations : Int)
    (j : Journal α r.scalars) {x : Vector α r.scalars} (steep : gradient x.get ≠ 0) : ∃ p shift w' j',
    (turn setup (r.oracle m sparse) (Regularizer.step setup.config.factorizationMethod) false
      ⟨.start x iterations, []⟩).run (w, j) = (.next ⟨(Iterate.start x iterations).advance (value x.get)
        (Vector.ofFn (gradient x.get)) p 1, [shift]⟩, w', j') ∧
      gradient (x.get + p.get) = 0 ∧ w'.Coherent r ∧ w.Grew 1 1 w' := by
  obtain ⟨a, w₁, evaluated, coherent₁, grew₁, entries, stored⟩ := evaluates.run_hessian coherent able sparse x
  obtain ⟨p, directed, solves⟩ := Regularizer.step_of_positive (entries.symm ▸ evaluates.quadratic.symmetric)
    (entries.symm ▸ positive) (shifts.imp id stored) (Vector.ofFn (gradient x.get))
  rw [entries, Vec.get_ofFn] at solves
  have slope : Vec.dot (Vector.ofFn (gradient x.get)) p = gradient x.get ⬝ᵥ p.get := by
    rw [Vec.dot_eq_dotProduct, Vec.get_ofFn]
  have descends := positive.descends solves steep
  obtain ⟨w₂, reached, coherent₂, grew₂⟩ :=
    evaluates.run_value coherent₁ sparse (x + ((1 : α) * p : Vector α r.scalars))
  rw [Vec.get_add, Vec.get_smul, one_smul, evaluates.quadratic.value_step solves] at reached
  have low : value x.get + gradient x.get ⬝ᵥ p.get / 2 ≤ LineSearch.bound setup.config (value x.get)
      (Vec.dot (Vector.ofFn (gradient x.get)) p) 1 := by
    have demanded := mul_le_mul_of_nonpos_right full.decrease descends.le
    rw [LineSearch.bound, slope, mul_one]
    linarith
  have searched := LineSearch.search_first full.budget one_pos (slope.symm ▸ descends) reached low
  rw [← full.start] at searched
  have untested : setup.config.exit? ((Iterate.start x iterations).standing (value x.get)
      (Vector.ofFn (gradient x.get)) false) = none :=
    Config.exit?_start (by rwa [Vec.get_ofFn]) full.tolerance.2
  obtain ⟨j', completed⟩ := run_turn_completed (s := ⟨.start x iterations, []⟩) evaluated untested full.proceeds
    directed searched rfl
  rw [full.start] at completed
  exact ⟨p, 0, w₂, j', completed, evaluates.quadratic.gradient_step solves, coherent₂, grew₁.trans grew₂⟩

theorem run_quadratic (positive : PositiveDefinite h) (full : setup.FullSteps)
    (shifts : setup.config.factorizationMethod = .shifts ∨ sparse = true)
    (left : iterations < setup.config.maximumIterations) (x : Vector α r.scalars) : ∃ state w' journal,
    (run setup (r.oracle m sparse) (Regularizer.step setup.config.factorizationMethod) x iterations).run
        (w, ⟨[], []⟩) = (.ok (.gradientTolerance, state), w', journal) ∧
      gradient state.iterate.point.get = 0 ∧
      OneStep (Vector.ofFn (gradient x.get)) iterations state.iterate.iterations w w' := by
  by_cases flat : gradient x.get = 0
  · obtain ⟨w', journal, stops, grew⟩ := run_turn_flat evaluates coherent able setup sparse
      (Regularizer.step setup.config.factorizationMethod) (Run.remaining setup.config iterations = 0)
      (s := ⟨.start x iterations, []⟩) ⟨[], []⟩ flat fun _ known => by cases known
    exact ⟨_, w', journal, repeatTurn_of_stop stops, flat, .stays (by rw [Vec.get_ofFn, flat]) rfl grew⟩
  · obtain ⟨p, shift, w₁, j₁, completed, flat', coherent₁, grew₁⟩ := run_turn_steep evaluates coherent able
      positive full shifts iterations ⟨[], []⟩ flat
    have next : gradient (x + ((1 : α) * p : Vector α r.scalars)).get = 0 := by
      rwa [Vec.get_add, Vec.get_smul, one_smul]
    have norm : 0 < Vec.maxAbs (Vector.ofFn (gradient x.get)) := Vec.maxAbs_pos (by rwa [Vec.get_ofFn])
    obtain ⟨k, remaining⟩ : ∃ k, Run.remaining setup.config iterations = 1 + k :=
      ⟨Run.remaining setup.config iterations - 1, by rw [Run.remaining]; omega⟩
    obtain ⟨w', journal, stops, grew⟩ := run_turn_flat evaluates coherent₁ able setup sparse
      (Regularizer.step setup.config.factorizationMethod) (k = 0)
      (s := ⟨(Iterate.start x iterations).advance (value x.get) (Vector.ofFn (gradient x.get)) p 1, [shift]⟩) j₁
      next (by rintro _ ⟨⟩; exact mul_pos full.tolerance.1 norm)
    have goes : Goes (turn setup (r.oracle m sparse) (Regularizer.step setup.config.factorizationMethod))
        (⟨.start x iterations, []⟩, w, ⟨[], []⟩) 1
        (⟨(Iterate.start x iterations).advance (value x.get) (Vector.ofFn (gradient x.get)) p 1, [shift]⟩, w₁, j₁) :=
      .next .start completed
    have ran := (goes.repeatTurn_eq k).trans (repeatTurn_of_stop stops)
    rw [← remaining] at ran
    exact ⟨_, w', journal, ran, next, .moves (by rwa [Vec.get_ofFn]) rfl (grew₁.trans grew)⟩

end Newton

end

end Descent
