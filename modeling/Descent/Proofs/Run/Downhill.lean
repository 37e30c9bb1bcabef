import Mathlib
import Descent.Proofs.Config
import Descent.Proofs.Evaluation.Hessians
import Descent.Proofs.Evaluation.Storage
import Descent.Proofs.Evaluation.Values
import Descent.Proofs.ExactField
import Descent.Proofs.Run.Solutions

namespace Descent

/-! ## Iterations -/

structure Downhill {α : Type} [Scalar α] {n : Nat} (c : Config α) (HasValue : Vector α n → α → Prop)
    (x x' g p : Vector α n) (a step : α) : Prop where
  next : x' = x + (step * p : Vector α n)
  nonnegative : 0 ≤ step
  down : 0 < step → ∃ reached, HasValue x' reached ∧
    reached ≤ a + c.sufficientDecrease * step * Vec.dot g p ∧
    a + c.sufficientDecrease * step * Vec.dot g p < a
  still : step = 0 → x' = x

section

variable {σ α ι β : Type} [ExactField α] {n : Nat} {setup : RunSetup α n} {oracle : Oracle σ α n}
  {m : Scheme σ α n ι β} {exhausted : Bool} {s s' : ι} {o o' : σ} {seen seen' : List (Sight α n)}
  {Good : σ → Prop} {value : Vector α n → Except (Fault α) α}
  {derivatives : Vector α n → Except (Fault α) β}

theorem add_zero_mul (x p : Vector α n) : x + ((0 : α) * p : Vector α n) = x := by
  ext i inside
  simp

theorem downhill_of_admissible {c : Config α} (accepted : c.Accepted) {x g p : Vector α n} {a step : α}
    (admissible : step = 0 ∨ Vec.dot g p < 0 ∧
      LineSearch.Admissible c value x p a (Vec.dot g p) step) :
    Downhill c (value · = .ok ·) x (x + (step * p : Vector α n)) g p a step := by
  have still (none : step = 0) :
      Downhill c (value · = .ok ·) x (x + (step * p : Vector α n)) g p a step := by
    subst none
    exact ⟨rfl, le_rfl, fun positive => absurd positive (lt_irrefl _), fun _ => add_zero_mul x p⟩
  rcases admissible with none | ⟨descends, none | ⟨positive, reached, evaluated, low⟩⟩
  · exact still none
  · exact still none
  · have decrease : c.sufficientDecrease * step * Vec.dot g p < 0 :=
      mul_neg_of_pos_of_neg (mul_pos accepted.sufficientDecrease.1 positive) descends
    exact ⟨rfl, positive.le, fun _ => ⟨reached, evaluated, low, by linarith⟩,
      fun none => absurd none positive.ne'⟩

theorem Passage.downhill (accepted : setup.config.Accepted)
    (evaluates : Eval.Means m.evaluate Good derivatives) (means : Eval.Means oracle.value Good value)
    (good : Good o) (passage : Passage setup oracle m exhausted s o seen (.next s', o', seen')) :
    Good o' ∧ ∃ b p, derivatives (m.point s) = .ok b ∧
      Downhill setup.config (value · = .ok ·) (m.point s) (m.point s') (m.gradient b) p (m.value b)
        (m.iterate s').step := by
  obtain ⟨good', b, p, step, evaluated, moved, admissible⟩ := passage.moves evaluates means good
  have next : m.point s' = m.point s + (step * p : Vector α n) := by rw [Scheme.point, moved]; rfl
  have taken : (m.iterate s').step = step := by rw [moved]; rfl
  rw [next, taken]
  exact ⟨good', b, p, evaluated, downhill_of_admissible accepted admissible⟩

/-! ## Runs -/

variable {turn : Bool → ι → Run σ α n (Turn α ι)} {c c' : Station ι σ α n} {k : Nat}

/-- Where all ways to evaluate agree on the values, a run that has left a point is below its value. -/
theorem Goes.downhill (turning : Turning setup oracle m turn) (accepted : setup.config.Accepted)
    (evaluates : Eval.Means m.evaluate Good derivatives) (means : Eval.Means oracle.value Good value)
    {HasValue : Vector α n → α → Prop} (of_value : ∀ x a, value x = .ok a → HasValue x a)
    (of_derivatives : ∀ x b, derivatives x = .ok b → HasValue x (m.value b))
    (same : ∀ x a a', HasValue x a → HasValue x a' → a = a') (good : Good c.2.1)
    (goes : Goes turn c k c') :
    Good c'.2.1 ∧ (m.point c'.1 = m.point c.1 ∨ ∃ reached, value (m.point c'.1) = .ok reached ∧
      ∀ a, HasValue (m.point c.1) a → reached < a) := by
  induction goes with
  | start => exact ⟨good, .inl rfl⟩
  | @next k c₁ c' goes completed ih =>
      obtain ⟨good₁, before⟩ := ih
      have passage := turning false c₁.1 c₁.2.1 c₁.2.2
      rw [completed] at passage
      obtain ⟨good', b, p, evaluated, down⟩ := passage.downhill accepted evaluates means good₁
      have here := of_derivatives _ b evaluated
      refine ⟨good', ?_⟩
      rcases down.nonnegative.eq_or_lt with none | positive
      · rw [down.still none.symm]
        exact before
      · obtain ⟨reached, found, low, lower⟩ := down.down positive
        refine .inr ⟨reached, found, fun a has => (low.trans_lt lower).trans_le ?_⟩
        rcases before with stayed | ⟨reached₁, found₁, above⟩
        · exact (same _ _ _ (stayed ▸ here) has).le
        · exact (same _ _ _ here (of_value _ _ found₁)).trans_le (above a has).le

end

/-! ## Objectives -/

namespace Minimization

variable {α ι β : Type} [ExactField α] {r : Registry α} {setup : RunSetup α r.scalars}
  {oracle : Oracle (Workspace α) α r.scalars} {m : Scheme (Workspace α) α r.scalars ι β}
  {turn : Bool → ι → Run (Workspace α) α r.scalars (Turn α ι)} {initial : Vector α r.scalars → ι}
  {left : Nat} {before after : Surroundings α} {solution : Solution α r.scalars} {w : Workspace α}
  {start : Vector α r.scalars} {state : ι} {value : Vector α r.scalars → Except (Fault α) α}
  {derivatives : Vector α r.scalars → Except (Fault α) β}

theorem Course.downhill
    (course : Course r turn initial m.iterate left before after solution w start state)
    (starts : ∀ x, m.point (initial x) = x) (turning : Turning setup oracle m turn)
    (accepted : setup.config.Accepted)
    (evaluates : Eval.Means m.evaluate (·.Coherent r) derivatives)
    (means : Eval.Means oracle.value (·.Coherent r) value)
    {HasValue : Vector α r.scalars → α → Prop} (of_value : ∀ x a, value x = .ok a → HasValue x a)
    (of_derivatives : ∀ x b, derivatives x = .ok b → HasValue x (m.value b))
    (same : ∀ x a a', HasValue x a → HasValue x a' → a = a') :
    after.workspace.Coherent r ∧ (m.point state = start ∨
      ∃ reached, value (m.point state) = .ok reached ∧ ∀ a, HasValue start a → reached < a) := by
  obtain ⟨journal, ran, -⟩ := course.ran
  obtain ⟨k, s, c, goes, -, last⟩ := repeatTurn_ends turning ran
  obtain ⟨coherent', descended⟩ :=
    goes.downhill turning accepted evaluates means of_value of_derivatives same course.coherent
  have passage := turning (decide (k = left)) s c.1 c.2
  rw [last] at passage
  obtain ⟨coherent'', stays⟩ := passage.stays evaluates means coherent'
  have point : m.point state = m.point s := by rw [Scheme.point, stays, Scheme.point]
  rw [point, ← starts start]
  exact ⟨coherent'', descended⟩

end Minimization

namespace Objective

open Registry

variable {α : Type}

section

variable [Scalar α] (f : Objective α) (m : Memory α)

structure Descends {ι : Type} (c : Config α) (iterate : ι → Iterate α f.scalars)
    (turn : Bool → ι → Run (Workspace α) α f.scalars (Turn α ι))
    (start : Station ι (Workspace α) α f.scalars) : Prop where
  iteration : ∀ {k} {c₁ c₂ : Station ι (Workspace α) α f.scalars}, Goes turn start k c₁ →
    (turn false c₁.1).run c₁.2 = (.next c₂.1, c₂.2) →
      ∃ a g p, f.HasGradient m (iterate c₁.1).point a g ∧
        Downhill c (fun x a => (f.ask m (.value (some x.toList))).1 = .ok (.number a))
          (iterate c₁.1).point (iterate c₂.1).point g p a (iterate c₂.1).step
  values : ∀ {k l} {c₁ c₂ : Station ι (Workspace α) α f.scalars} {a b}, Goes turn start k c₁ →
    Goes turn c₁ l c₂ → f.HasValue m (iterate c₁.1).point a → f.HasValue m (iterate c₂.1).point b →
      b ≤ a

def ValueAfter (after : Surroundings α) (b : α) : Prop :=
  (({ f with workspace := after.workspace } : Objective α).ask after.memory (.value none)).1 =
    .ok (.number b)

inductive Solves (setup : RunSetup α f.scalars) (iterations : Int) :
    Minimization α (Solution α f.scalars) → Prop
  | newton (rule : Newton.StepRule α f.scalars) :
      Solves setup iterations (Minimization.newton f.toRegistry setup rule iterations)
  | lbfgs : Solves setup iterations (Minimization.lbfgs f.toRegistry setup iterations)

variable {f m}

theorem valueAfter_iff {after : Surroundings α} (coherent : after.workspace.Coherent f.toRegistry)
    {b : α} : f.ValueAfter after b ↔ f.valueMeaning after.memory none = .ok b := by
  have asked : (({ f with workspace := after.workspace } : Objective α).ask after.memory
      (.value none)).1 = .number <$> f.valueMeaning after.memory none := by
    rw [ask_eq_meaning coherent]
    rfl
  rw [ValueAfter, asked, map_eq_ok]
  constructor
  · rintro ⟨a, value, same⟩
    cases same
    exact value
  · exact fun value => ⟨b, value, rfl⟩

theorem Reachable.hasValue_of_valueAfter (reached : Reachable f) (separate : f.Separate m)
    {after : Surroundings α} (coherent : after.workspace.Coherent f.toRegistry) {x : Vector α f.scalars}
    (wrote : StateT.run (ExceptT.run (f.writePoint x.toList)) m = (.ok (), after.memory)) {b : α}
    (found : f.ValueAfter after b) : f.HasValue m x b :=
  .inl (reached.ask_value_of_meaning ((Registry.run_writePoint reached.wellFormed separate
    wrote).valueMeaning_of_stored reached.wellFormed Vector.length_toList
      ((valueAfter_iff coherent).1 found)))

end

variable [ExactField α] {f : Objective α} {m : Memory α} {ι β : Type} {setup : RunSetup α f.scalars}
  {sparse : Bool} {S : Scheme (Workspace α) α f.scalars ι β}
  {turn : Bool → ι → Run (Workspace α) α f.scalars (Turn α ι)}
  {derivatives : Vector α f.scalars → Except (Fault α) β}

theorem Reachable.descends (reached : Reachable f)
    (same : ∀ x a b, f.HasValue m x a → f.HasValue m x b → a = b) (accepted : setup.config.Accepted)
    (turning : Turning setup (f.oracle m sparse) S turn)
    (evaluates : Eval.Means S.evaluate (·.Coherent f.toRegistry) derivatives)
    (reads : ∀ x b, derivatives x = .ok b → f.HasGradient m x (S.value b) (S.gradient b))
    {start : Station ι (Workspace α) α f.scalars} (coherent : start.2.1.Coherent f.toRegistry) :
    f.Descends m setup.config S.iterate turn start := by
  have means := Registry.means_value f.toRegistry m sparse
  have of_value (x : Vector α f.scalars) (a : α) (value : f.valueMeaning m (some x.toList) = .ok a) :
      f.HasValue m x a := .inl (reached.ask_value_of_meaning value)
  have of_derivatives (x : Vector α f.scalars) (b : β) (here : derivatives x = .ok b) :
      f.HasValue m x (S.value b) := .inr ⟨_, reads x b here⟩
  constructor
  · intro k c₁ c₂ goes completed
    obtain ⟨coherent₁, -⟩ :=
      goes.downhill turning accepted evaluates means of_value of_derivatives same coherent
    have passage := turning false c₁.1 c₁.2.1 c₁.2.2
    rw [completed] at passage
    obtain ⟨-, b, p, evaluated, down⟩ := passage.downhill accepted evaluates means coherent₁
    refine ⟨S.value b, S.gradient b, p, reads _ b evaluated, down.next, down.nonnegative, ?_,
      down.still⟩
    intro positive
    obtain ⟨r, found, low, lower⟩ := down.down positive
    exact ⟨r, reached.ask_value_of_meaning found, low, lower⟩
  · intro k l c₁ c₂ a b goes goes' here there
    obtain ⟨coherent₁, -⟩ :=
      goes.downhill turning accepted evaluates means of_value of_derivatives same coherent
    obtain ⟨-, stayed | ⟨r, found, above⟩⟩ :=
      goes'.downhill turning accepted evaluates means of_value of_derivatives same coherent₁
    · have stayed : (S.iterate c₂.1).point = (S.iterate c₁.1).point := stayed
      rw [stayed] at there
      exact (same _ _ _ there here).le
    · exact (same _ _ _ there (of_value _ _ found)).trans_le (above a here).le

theorem Reachable.written_downhill (reached : Reachable f)
    (same : ∀ x a b, f.HasValue m x a → f.HasValue m x b → a = b) (accepted : setup.config.Accepted)
    (turning : Turning setup (f.oracle m sparse) S turn)
    (evaluates : Eval.Means S.evaluate (·.Coherent f.toRegistry) derivatives)
    (reads : ∀ x b, derivatives x = .ok b → f.HasGradient m x (S.value b) (S.gradient b))
    {initial : Vector α f.scalars → ι} (starts : ∀ x, S.point (initial x) = x) {left : Nat}
    {w w' : Workspace α} {after : Surroundings α} {solution : Solution α f.scalars}
    {start : Vector α f.scalars} {state : ι} (separate : f.Separate m)
    (course : Minimization.Course f.toRegistry turn initial S.iterate left ⟨w, m⟩ after solution w'
      start state) :
    (∀ a b, f.HasValue m start a → f.ValueAfter after b → b ≤ a) ∧
    (f.StoredIn m → ∀ a, (f.ask m (.value (some start.toList))).1 = .ok (.number a) →
      ∃ b, f.ValueAfter after b) := by
  have of_value (x : Vector α f.scalars) (a : α) (value : f.valueMeaning m (some x.toList) = .ok a) :
      f.HasValue m x a := .inl (reached.ask_value_of_meaning value)
  obtain ⟨coherent, moved⟩ := course.downhill starts turning accepted evaluates
    (Registry.means_value f.toRegistry m sparse) of_value
    (fun x b here => .inr ⟨_, reads x b here⟩) same
  constructor
  · intro a b has found
    have there : f.HasValue m (S.point state) b :=
      reached.hasValue_of_valueAfter separate coherent course.wrote found
    rcases moved with stayed | ⟨r, value, below⟩
    · rw [stayed] at there
      exact (same _ _ _ there has).le
    · exact (same _ _ _ there (of_value _ _ value)).trans_le (below a has).le
  · intro stored a has
    -- the point is the start or one that a search accepted, and both have a value
    have found : ∃ b, f.valueMeaning m (some (S.point state).toList) = .ok b := by
      rcases moved with stayed | ⟨r, value, -⟩
      · rw [reached.ask_eq, Query.meaning] at has
        cases meant : f.valueMeaning m (some start.toList) with
        | error fault =>
            rw [meant] at has
            cases has
        | ok b => exact ⟨b, stayed ▸ meant⟩
      · exact ⟨r, value⟩
    obtain ⟨b, found⟩ := found
    have wrote := Registry.run_writePoint reached.wellFormed separate course.wrote
    exact ⟨b, (valueAfter_iff coherent).2 (wrote.stored_of_valueMeaning reached.wellFormed separate stored
      Vector.length_toList found)⟩

/-- Where all ways to evaluate give the same values, no solver goes uphill, with any accepted configuration
and any answers of the caller: neither from one iteration to a later one nor, however it ends, from the start
to what is in the arrays then. -/
theorem Reachable.never_uphill (reached : Reachable f)
    (same : ∀ x a b, f.HasValue m x a → f.HasValue m x b → a = b) {settings : Settings α}
    (accepted : settings.check = .ok setup.config) (iterations : Int) :
    (∀ (rule : Newton.StepRule α f.scalars) (sparse : Bool) (x : Vector α f.scalars)
      (w : Workspace α), w.Coherent f.toRegistry →
        f.Descends m setup.config Newton.State.iterate
          (Newton.turn setup (f.oracle m sparse) rule) (⟨.start x iterations, []⟩, w, ⟨[], []⟩)) ∧
    (∀ (x : Vector α f.scalars) (w : Workspace α), w.Coherent f.toRegistry →
      f.Descends m setup.config Lbfgs.State.iterate (Lbfgs.turn setup (f.oracle m false))
        (⟨.start x iterations, .empty setup.config.historySize, none⟩, w, ⟨[], []⟩)) ∧
    (f.Separate m → ∀ work, f.Solves setup iterations work → ∀ solution after,
      StateT.run (ExceptT.run work) ⟨f.workspace, m⟩ = (.ok solution, after) →
        ∃ start, StateT.run (ExceptT.run (Minimization.startPoint f.toRegistry)) ⟨f.workspace, m⟩ =
            (.ok start, ⟨f.workspace, m⟩) ∧
          (∀ a b, f.HasValue m start a → f.ValueAfter after b → b ≤ a) ∧
          (f.StoredIn m → ∀ a, (f.ask m (.value (some start.toList))).1 = .ok (.number a) →
            ∃ b, f.ValueAfter after b)) := by
  have accepted := Settings.accepted_of_check accepted
  have newton (rule : Newton.StepRule α f.scalars) (sparse : Bool) :=
    Newton.turning setup (f.oracle m sparse) rule
  have lbfgs := Lbfgs.turning setup (f.oracle m false)
  refine ⟨fun rule sparse x w coherent => ?_, fun x w coherent => ?_, ?_⟩
  · exact reached.descends same accepted (newton rule sparse)
      (Registry.means_hessian f.toRegistry m sparse) reached.hasGradient_of_hessian coherent
  · exact reached.descends same accepted lbfgs (Registry.means_gradient f.toRegistry m false)
      reached.hasGradient_of_gradient coherent
  · intro separate work solves solution after ran
    cases solves with
    | newton rule =>
        obtain ⟨sparse, w, start, state, -, course⟩ :=
          Minimization.newton_course reached.coherent ran
        exact ⟨start, course.started, reached.written_downhill same accepted (newton rule sparse)
          (Registry.means_hessian f.toRegistry m sparse) reached.hasGradient_of_hessian
          (fun _ => rfl) separate course⟩
    | lbfgs =>
        obtain ⟨start, state, course⟩ := Minimization.lbfgs_course reached.coherent ran
        exact ⟨start, course.started, reached.written_downhill same accepted lbfgs
          (Registry.means_gradient f.toRegistry m false) reached.hasGradient_of_gradient
          (fun _ => rfl) separate course⟩

def three : Memory ℚ where
  objects := [.array .double [1] 0 0]
  blocks := [[3]]

def square : Objective ℚ :=
  ((Mutation.addTerm (.term (Sample.polynomial [1, 1] [(1, [(0, 0), (1, 0)])]))
    [⟨0⟩, ⟨0⟩]).edit.run three (ofThreads 2)).2

theorem reachable_square : Reachable square :=
  .step (.new (show new? 2 = .ok (ofThreads 2) from rfl)) (.mutate (c := .addTerm (.term _) _) trivial three)

theorem vars_square : square.vars = [⟨⟨0⟩, 1, 1, 0, false, none⟩] := rfl

theorem plain_square : ∀ v ∈ square.vars, v.isConstant = false → v.change = none := by
  rw [vars_square, List.forall_mem_singleton]
  exact fun _ => rfl

theorem terms_square : square.terms = [⟨Sample.polynomial [1, 1] [(1, [(0, 0), (1, 0)])], [0, 0]⟩] := rfl

theorem separate_square : square.Separate three :=
  Registry.separate_of_single vars_square (a := ⟨0, 0, 1⟩) ⟨rfl, [3], rfl, by decide⟩

def squareReports (x : ℚ) (request : Request) : Report square.toRegistry three [x] request where
  point _ := [x]
  value _ := 0 + 1 * x * x
  derivatives b := ((b.term.evaluate request [[x], [x]]).run .zero).2
  carry _ part := part
  seen := by
    rw [vars_square, List.forall_mem_singleton]
    rfl
  evaluated := by
    rw [terms_square, List.forall_mem_singleton]
    rfl
  carried _ := by
    rw [terms_square, List.forall_mem_singleton]
    exact List.forall_mem_cons.2 ⟨fun _ => rfl, List.forall_mem_singleton.2 fun _ => rfl⟩

theorem square_value_unique (x : Vector ℚ square.scalars) (a b : ℚ) (here : square.HasValue three x a)
    (there : square.HasValue three x b) : a = b := by
  refine reachable_square.value_unique ?_ x a b here there
  rw [terms_square, List.forall_mem_singleton]
  exact Term.sameValues_of_blind fun _ _ _ => rfl

def defaultConfig : Config ℚ :=
  (Settings.default : Settings ℚ).check.toOption.get (by decide +kernel)

def squareSetup : RunSetup ℚ square.scalars := ⟨defaultConfig, 60, fun _ _ => true⟩

theorem check_default : (Settings.default : Settings ℚ).check = .ok squareSetup.config := eq_ok_get _

def outcome? {n : Nat} :
    Except (Fault ℚ) (Solution ℚ n) × Surroundings ℚ → Option (ExitCondition × Int × List ℚ)
  | (.ok solution, after) => some (solution.exit, solution.iterations, after.memory.load ⟨0⟩)
  | (.error _, _) => none

theorem square_never_uphill : ∃ solution after b,
    StateT.run (ExceptT.run (Minimization.lbfgs square.toRegistry squareSetup 0))
        ⟨square.workspace, three⟩ = (.ok solution, after) ∧
      square.ValueAfter after b ∧ b ≤ 9 := by
  obtain ⟨-, -, solved⟩ := Reachable.never_uphill (m := three) reachable_square square_value_unique
    check_default 0
  have stored : square.StoredIn three := by
    rw [Registry.StoredIn, vars_square, List.forall_mem_singleton]
    exact ⟨0, 0, rfl⟩
  rcases ran : StateT.run (ExceptT.run (Minimization.lbfgs square.toRegistry squareSetup 0))
    ⟨square.workspace, three⟩ with ⟨fault | solution, after⟩
  · have succeeds : (StateT.run (ExceptT.run (Minimization.lbfgs square.toRegistry squareSetup 0))
        ⟨square.workspace, three⟩).1.isOk = true := by decide +kernel
    rw [ran] at succeeds
    cases succeeds
  · obtain ⟨start, started, below, known⟩ := solved separate_square _ .lbfgs solution after ran
    have read : square.readPoint three = .ok [3] := rfl
    rw [Minimization.run_startPoint, read] at started
    obtain rfl := Except.ok.inj (Prod.mk.inj started).1
    have total : (squareReports 3 .value).total = 9 := by decide +kernel
    have nine := reachable_square.ask_value rfl (squareReports 3 .value)
    rw [total] at nine
    obtain ⟨b, value⟩ := known stored 9 nine
    exact ⟨solution, after, b, rfl, value, below 9 b (.inl nine) value⟩

end Objective

end Descent
