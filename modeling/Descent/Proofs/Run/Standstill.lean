import Mathlib
import Descent.Proofs.Evaluation.Points
import Descent.Proofs.Evaluation.Values
import Descent.Proofs.Numbers.Zero
import Descent.Proofs.Run.Downhill

namespace Descent

/-! ## Completed iterations -/

section

variable {σ α ι β : Type} [Scalar α] {n : Nat}

inductive Moves (setup : RunSetup α n) (oracle : Oracle σ α n) (m : Scheme σ α n ι β)
    (turn : Bool → ι → Run σ α n (Turn α ι)) (start : Station ι σ α n) :
    (x p : Vector α n) → (a : α) → (x' : Vector α n) → Prop
  | iteration {k : Nat} {c c' : Station ι σ α n} {b : β} {p : Vector α n} {s' : ι}
      {result : SearchResult α} (goes : Goes turn start k c)
      (searches : Searches setup oracle m false c.1 c.2.1 c.2.2.sights b p s' (.ok result) c'.2.1)
      (completed : (turn false c.1).run c.2 = (.next c'.1, c'.2)) :
      Moves setup oracle m turn start (m.point c.1) p result.step (m.point c'.1)

variable {setup : RunSetup α n} {oracle : Oracle σ α n} {m : Scheme σ α n ι β}
  {turn : Bool → ι → Run σ α n (Turn α ι)} {start c c' : Station ι σ α n} {k : Nat}

def Scheme.search? (setup : RunSetup α n) (oracle : Oracle σ α n) (m : Scheme σ α n ι β) (s : ι) (o : σ) :
    Option (Vector α n × α) :=
  match (m.evaluate (m.point s)).run o with
  | (.ok b, o) =>
      match m.direct s b with
      | .ok (p, start, _) =>
          match (LineSearch.search setup.config setup.searchBudget oracle.value (m.point s) (m.value b)
              (m.gradient b) p start).run o with
          | (.ok result, _) => some (p, result.step)
          | _ => none
      | _ => none
  | _ => none

theorem Searches.search_eq {exhausted : Bool} {s s' : ι} {o o' : σ} {seen : List (Sight α n)} {b : β}
    {p : Vector α n} {result : SearchResult α}
    (searches : Searches setup oracle m exhausted s o seen b p s' (.ok result) o') :
    m.search? setup oracle s o = some (p, result.step) := by
  obtain ⟨o₁, first, ⟨evaluated, -, -⟩, directed, searched⟩ := searches
  simp only [Scheme.search?, evaluated, directed, searched]

theorem Passage.point_of_next {s s' : ι} {o o' : σ} {seen seen' : List (Sight α n)}
    (passage : Passage setup oracle m false s o seen (.next s', o', seen')) :
    ∃ b p s₁ result, Searches setup oracle m false s o seen b p s₁ (.ok result) o' ∧
      m.point s' = m.point s + (result.step * p : Vector α n) := by
  obtain ⟨b, p, s₁, result, searches, advanced⟩ := passage.advance_of_next
  refine ⟨b, p, s₁, result, searches, ?_⟩
  rw [Scheme.point, advanced]
  rfl

theorem Moves.first {x p x' : Vector α n} {a : α}
    (ends : ∀ c c' : Station ι σ α n, (turn false start.1).run start.2 = (.next c.1, c.2) →
      (turn false c.1).run c.2 ≠ (.next c'.1, c'.2))
    (moves : Moves setup oracle m turn start x p a x') :
    x = m.point start.1 ∧ m.search? setup oracle start.1 start.2.1 = some (p, a) := by
  obtain ⟨goes, searches, completed⟩ := moves
  have at_start {k : Nat} {c c' : Station ι σ α n} (goes : Goes turn start k c)
      (completed : (turn false c.1).run c.2 = (.next c'.1, c'.2)) : c = start := by
    induction goes generalizing c' with
    | start => rfl
    | next _ before ih =>
        obtain rfl := ih before
        exact absurd completed (ends _ _ before)
  obtain rfl := at_start goes completed
  exact ⟨rfl, searches.search_eq⟩

variable (turning : Turning setup oracle m turn)

include turning

theorem Moves.next {x p x' : Vector α n} {a : α} (moves : Moves setup oracle m turn start x p a x') :
    x' = x + (a * p : Vector α n) := by
  obtain ⟨goes, searches, completed⟩ := moves
  rename_i c c' b s' result
  have passage := turning false c.1 c.2.1 c.2.2
  rw [completed] at passage
  obtain ⟨b', p', s₁, result', searches', next⟩ := passage.point_of_next
  obtain ⟨rfl, step⟩ := Prod.mk.inj (Option.some.inj (searches.search_eq.symm.trans searches'.search_eq))
  rw [step]
  exact next

theorem Moves.of_first {p : Vector α n} {a : α}
    (completed : (turn false start.1).run start.2 = (.next c.1, c.2))
    (searched : m.search? setup oracle start.1 start.2.1 = some (p, a)) :
    Moves setup oracle m turn start (m.point start.1) p a (m.point c.1) := by
  have passage := turning false start.1 start.2.1 start.2.2
  rw [completed] at passage
  obtain ⟨b, p', s₁, result, searches, -⟩ := passage.point_of_next
  obtain ⟨rfl, rfl⟩ := Prod.mk.inj (Option.some.inj (searched.symm.trans searches.search_eq))
  exact .iteration .start searches completed

/-- A completed iteration moves, and where evaluations have a meaning its step is zero or reaches a value
that the search accepts. -/
theorem Goes.moves {Good : σ → Prop} {value : Vector α n → Except (Fault α) α}
    {derivatives : Vector α n → Except (Fault α) β} (evaluates : Eval.Means m.evaluate Good derivatives)
    (means : Eval.Means oracle.value Good value) (good : Good c.2.1) (goes : Goes turn start k c)
    (completed : (turn false c.1).run c.2 = (.next c'.1, c'.2)) :
    Good c'.2.1 ∧ ∃ p a, Moves setup oracle m turn start (m.point c.1) p a (m.point c'.1) ∧
      (a = 0 ∨ ∃ reached bound : α, value (m.point c'.1) = .ok reached ∧ reached ≤ bound) := by
  have passage := turning false c.1 c.2.1 c.2.2
  rw [completed] at passage
  obtain ⟨b, p, s₁, result, searches, next⟩ := passage.point_of_next
  obtain ⟨-, -, good', admissible⟩ := searches.admissible evaluates means good
  refine ⟨good', p, result.step, .iteration goes searches completed, ?_⟩
  rcases admissible result rfl with none | ⟨-, none | ⟨-, reached, found, low⟩⟩
  · exact .inl none
  · exact .inl none
  · exact .inr ⟨reached, _, next ▸ found, low⟩

end

/-! ## Zero times a direction -/

section

variable {n : Nat}

/-- Zero times the direction is zero, and no zero of the point can change its sign. -/
structure Harmless (x p : Vector Float n) : Prop where
  finite : ∀ i (inside : i < n), p[i].isFinite = true
  signed : ∀ i (inside : i < n), x[i] ≠ -0.0

theorem harmless_iff {x p : Vector Float n} :
    ((∀ i, (p.get i).isFinite = true) ∧ ∀ i, x.get i ≠ -0.0) ↔ Harmless x p := by
  constructor
  · rintro ⟨finite, signed⟩
    exact ⟨fun i inside => finite ⟨i, inside⟩, fun i inside => signed ⟨i, inside⟩⟩
  · intro harmless
    exact ⟨fun i => harmless.finite i i.isLt, fun i => harmless.signed i i.isLt⟩

instance (x p : Vector Float n) : Decidable (Harmless x p) := decidable_of_iff _ harmless_iff

structure Left (x p x' : Vector Float n) : Prop where
  finite : ∀ i (inside : i < n), p[i].isFinite = true → x'[i] = x[i] ∨ x[i] = -0.0 ∧ x'[i] = 0.0
  other : ∀ i (inside : i < n), p[i].isFinite = false → x'[i].isNaN = true

theorem left_add_zero_mul (x p : Vector Float n) : Left x p (x + ((0 : Float) * p : Vector Float n)) := by
  constructor
  · intro i inside finite
    simp only [Vector.getElem_add, Vector.getElem_hmul]
    exact Binary64.add_zero_mul x[i] p[i] finite
  · intro i inside infinite
    simp only [Vector.getElem_add, Vector.getElem_hmul]
    exact Binary64.nan_of_not_finite x[i] p[i] infinite

theorem Left.eq {x p x' : Vector Float n} (left : Left x p x') (harmless : Harmless x p) : x' = x := by
  ext i inside
  rcases left.finite i inside (harmless.finite i inside) with same | ⟨zero, -⟩
  · exact same
  · exact absurd zero (harmless.signed i inside)

theorem Left.ne {x p x' : Vector Float n} (left : Left x p x') {i : Nat} {inside : i < n}
    (infinite : p[i].isFinite = false) (number : x[i].isNaN = false) : x' ≠ x := by
  intro same
  have nan := left.other i inside infinite
  rw [same, number] at nan
  cases nan

end

/-! ## Runs -/

theorem Config.isNaN_of_exit? {α : Type} [Scalar α] {c : Config α} {s : Standing α}
    (exit : c.exit? s = some .functionNaN) : Scalar.isNaN s.value = true := by
  unfold Config.exit? at exit
  split_ifs at exit with nan
  all_goals first | exact nan | cases exit

theorem Passage.nan_of_exit {σ α ι β : Type} [Scalar α] {n : Nat} {setup : RunSetup α n}
    {oracle : Oracle σ α n} {m : Scheme σ α n ι β} {exhausted : Bool} {s s' : ι} {o o' : σ}
    {seen seen' : List (Sight α n)}
    (passage : Passage setup oracle m exhausted s o seen (.stop .functionNaN s', o', seen')) :
    ∃ b, (m.evaluate (m.point s)).run o = (.ok b, o') ∧ Scalar.isNaN (m.value b) = true := by
  generalize ended : (Turn.stop ExitCondition.functionNaN s', o', seen') = outcome at passage
  cases passage with
  | tested evaluated test =>
      cases ended
      exact ⟨_, evaluated, Config.isNaN_of_exit? test⟩
  | @undirected _ _ fault _ _ =>
      rcases m.refused_eq fault s with refused | refused <;> rw [refused] at ended <;> cases ended
  | _ => cases ended

section

variable {σ ι β : Type} {n : Nat} {setup : RunSetup Float n} {oracle : Oracle σ Float n}
  {m : Scheme σ Float n ι β} {turn : Bool → ι → Run σ Float n (Turn Float ι)}
  {start c : Station ι σ Float n} {k : Nat} {Good : σ → Prop}
  {value : Vector Float n → Except (Fault Float) Float}
  {derivatives : Vector Float n → Except (Fault Float) β}
  (turning : Turning setup oracle m turn) (evaluates : Eval.Means m.evaluate Good derivatives)
  (means : Eval.Means oracle.value Good value) (good : Good start.2.1)

theorem Moves.left (turning : Turning setup oracle m turn) {x p x' : Vector Float n}
    (moves : Moves setup oracle m turn start x p 0 x') : Left x p x' := by
  rw [moves.next turning]
  exact left_add_zero_mul x p

variable (harmless : ∀ x p x', Moves setup oracle m turn start x p 0 x' → Harmless x p)

include turning evaluates means good harmless

theorem Goes.still (idle : ∀ x p a x', Moves setup oracle m turn start x p a x' → a = 0)
    (goes : Goes turn start k c) : Good c.2.1 ∧ m.point c.1 = m.point start.1 := by
  induction goes with
  | start => exact ⟨good, rfl⟩
  | @next k c₁ c goes completed ih =>
      obtain ⟨good', p, a, moves, -⟩ := goes.moves turning evaluates means ih.1 completed
      obtain rfl := idle _ _ _ _ moves
      exact ⟨good', ((moves.left turning).eq (harmless _ _ _ moves)).trans ih.2⟩

/-- No value along a run is NaN, since a search accepts none and otherwise the point stays. -/
theorem Goes.not_nan {HasValue : Vector Float n → Float → Prop}
    (of_value : ∀ x a, value x = .ok a → HasValue x a)
    (same : ∀ x a b, HasValue x a → HasValue x b → a = b)
    (number : ∀ a, HasValue (m.point start.1) a → a.isNaN = false) (goes : Goes turn start k c) :
    Good c.2.1 ∧ ∀ a, HasValue (m.point c.1) a → a.isNaN = false := by
  induction goes with
  | start => exact ⟨good, number⟩
  | @next k c₁ c goes completed ih =>
      obtain ⟨good', p, a, moves, step⟩ := goes.moves turning evaluates means ih.1 completed
      refine ⟨good', fun b has => ?_⟩
      rcases step with rfl | ⟨reached, bound, found, low⟩
      · rw [(moves.left turning).eq (harmless _ _ _ moves)] at has
        exact ih.2 b has
      · rw [same _ _ _ has (of_value _ _ found)]
        exact Binary64.not_nan_of_le low

end

/-! ## Objectives -/

namespace Minimization

variable {ι β : Type} {r : Registry Float} {setup : RunSetup Float r.scalars}
  {oracle : Oracle (Workspace Float) Float r.scalars}
  {m : Scheme (Workspace Float) Float r.scalars ι β}
  {turn : Bool → ι → Run (Workspace Float) Float r.scalars (Turn Float ι)}
  {initial : Vector Float r.scalars → ι} {left : Nat} {before after : Surroundings Float}
  {solution : Solution Float r.scalars} {w : Workspace Float} {start : Vector Float r.scalars} {state : ι}
  {value : Vector Float r.scalars → Except (Fault Float) Float}
  {derivatives : Vector Float r.scalars → Except (Fault Float) β}
  (course : Course r turn initial m.iterate left before after solution w start state)
  (starts : ∀ x, m.point (initial x) = x) (turning : Turning setup oracle m turn)
  (evaluates : Eval.Means m.evaluate (·.Coherent r) derivatives)
  (means : Eval.Means oracle.value (·.Coherent r) value)
  (harmless : ∀ x p x', Moves setup oracle m turn (initial start, w, ⟨[], []⟩) x p 0 x' → Harmless x p)

include course starts turning evaluates means harmless

theorem Course.still
    (idle : ∀ x p a x', Moves setup oracle m turn (initial start, w, ⟨[], []⟩) x p a x' → a = 0) :
    m.point state = start := by
  obtain ⟨journal, ran, -⟩ := course.ran
  obtain ⟨k, s, c, goes, -, last⟩ := repeatTurn_ends turning ran
  obtain ⟨coherent, stayed⟩ := goes.still turning evaluates means course.coherent harmless idle
  have passage := turning (decide (k = left)) s c.1 c.2
  rw [last] at passage
  rw [Scheme.point, (passage.stays evaluates means coherent).2]
  exact stayed.trans (starts start)

theorem Course.not_nan {HasValue : Vector Float r.scalars → Float → Prop}
    (of_value : ∀ x a, value x = .ok a → HasValue x a)
    (of_derivatives : ∀ x b, derivatives x = .ok b → HasValue x (m.value b))
    (same : ∀ x a b, HasValue x a → HasValue x b → a = b)
    (number : ∀ a, HasValue start a → a.isNaN = false) : solution.exit ≠ .functionNaN := by
  intro exit
  obtain ⟨journal, ran, -⟩ := course.ran
  obtain ⟨k, s, c, goes, -, last⟩ := repeatTurn_ends turning ran
  obtain ⟨coherent, numbers⟩ := goes.not_nan turning evaluates means course.coherent harmless of_value
    same (by rwa [starts start])
  have passage := turning (decide (k = left)) s c.1 c.2
  rw [last, exit] at passage
  obtain ⟨b, evaluated, nan⟩ := passage.nan_of_exit
  have here := of_derivatives _ b (evaluates.unique coherent evaluated).1
  exact absurd (nan.symm.trans (numbers _ here)) (by decide)

end Minimization

namespace Objective

open Registry

section

variable {α : Type} [Scalar α] (f : Objective α) (m : Memory α) (setup : RunSetup α f.scalars)
  (iterations : Int)

inductive Steps : Algorithm α f.scalars → (x p : Vector α f.scalars) → (a : α) →
    (x' : Vector α f.scalars) → Prop
  | newton {rule : Newton.StepRule α f.scalars} {sparse : Bool} {w : Workspace α}
      {start x p x' : Vector α f.scalars} {a : α} (starts : f.StartsAt m start)
      (chosen : (f.useSparse setup.config).run f.workspace = (.ok sparse, w))
      (moves : Moves setup (f.oracle m sparse) (Newton.scheme setup (f.oracle m sparse) rule)
        (Newton.turn setup (f.oracle m sparse) rule) (⟨.start start iterations, []⟩, w, ⟨[], []⟩)
        x p a x') : Steps (.newton rule) x p a x'
  | lbfgs {start x p x' : Vector α f.scalars} {a : α} (starts : f.StartsAt m start)
      (moves : Moves setup (f.oracle m false) (Lbfgs.scheme setup (f.oracle m false))
        (Lbfgs.turn setup (f.oracle m false))
        (⟨.start start iterations, .empty setup.config.historySize, none⟩, f.workspace, ⟨[], []⟩)
        x p a x') : Steps .lbfgs x p a x'

end

variable {f : Objective Float} {m : Memory Float} {setup : RunSetup Float f.scalars} {iterations : Int}

theorem Reachable.written_unmoved {ι β : Type} {S : Scheme (Workspace Float) Float f.scalars ι β}
    {turn : Bool → ι → Run (Workspace Float) Float f.scalars (Turn Float ι)} {sparse : Bool}
    {initial : Vector Float f.scalars → ι} {left : Nat} {w : Workspace Float}
    {after : Surroundings Float} {solution : Solution Float f.scalars} {start : Vector Float f.scalars}
    {state : ι} {derivatives : Vector Float f.scalars → Except (Fault Float) β} (reached : Reachable f)
    (turning : Turning setup (f.oracle m sparse) S turn)
    (evaluates : Eval.Means S.evaluate (·.Coherent f.toRegistry) derivatives)
    (reads : ∀ x b, derivatives x = .ok b → f.HasGradient m x (S.value b) (S.gradient b))
    (starts : ∀ x, S.point (initial x) = x)
    (course : Minimization.Course f.toRegistry turn initial S.iterate left ⟨f.workspace, m⟩ after
      solution w start state)
    (harmless : ∀ x p x', Moves setup (f.oracle m sparse) S turn (initial start, w, ⟨[], []⟩) x p 0 x' →
      Harmless x p) :
    (f.Separate m → (∀ v ∈ f.vars, v.isConstant = false → v.change = none) →
      (∀ x p a x', Moves setup (f.oracle m sparse) S turn (initial start, w, ⟨[], []⟩) x p a x' → a = 0) →
        ∀ v ∈ f.vars, after.memory.load v.storage = m.load v.storage) ∧
    ((∀ x a b, f.HasValue m x a → f.HasValue m x b → a = b) →
      (∀ a, f.HasValue m start a → a.isNaN = false) → solution.exit ≠ .functionNaN) := by
  have means := Registry.means_value f.toRegistry m sparse
  constructor
  · intro separate unchanged idle
    have read := Minimization.read_of_started reached.wellFormed course.started
    have wrote := course.wrote
    rw [show (S.iterate state).point = start from
      course.still starts turning evaluates means harmless idle] at wrote
    exact load_of_written reached.wellFormed separate unchanged read wrote
  · intro same number
    exact course.not_nan starts turning evaluates means harmless
      (fun _ _ value => .inl (reached.ask_value_of_meaning value))
      (fun x b here => .inr ⟨_, reads x b here⟩) same number

theorem Steps.left {algorithm : Algorithm Float f.scalars} {x p x' : Vector Float f.scalars}
    (step : f.Steps m setup iterations algorithm x p 0 x') : Left x p x' := by
  cases step with
  | newton _ _ moves => exact moves.left (Newton.turning _ _ _)
  | lbfgs _ moves => exact moves.left (Lbfgs.turning _ _)

/-- An iteration whose search gives no step adds zero times the direction to the point. Where that is
harmless, a run without any step leaves every registered array as it was, and a run from a value that is not
NaN does not end at NaN. -/
theorem Reachable.unsuccessful_searches (reached : Reachable f) (setup : RunSetup Float f.scalars)
    (iterations : Int) (algorithm : Algorithm Float f.scalars) :
    (∀ x p x', f.Steps m setup iterations algorithm x p 0 x' → Left x p x' ∧ (Harmless x p → x' = x)) ∧
    ((∀ x p x', f.Steps m setup iterations algorithm x p 0 x' → Harmless x p) →
      ∀ solution after, StateT.run (ExceptT.run (f.minimization setup iterations algorithm))
          ⟨f.workspace, m⟩ = (.ok solution, after) →
        (f.Separate m → (∀ v ∈ f.vars, v.isConstant = false → v.change = none) →
          (∀ x p a x', f.Steps m setup iterations algorithm x p a x' → a = 0) →
            ∀ v ∈ f.vars, after.memory.load v.storage = m.load v.storage) ∧
        ((∀ x a b, f.HasValue m x a → f.HasValue m x b → a = b) →
          (∀ start a, f.StartsAt m start → f.HasValue m start a → a.isNaN = false) →
          solution.exit ≠ .functionNaN)) := by
  refine ⟨fun x p x' step => ⟨step.left, step.left.eq⟩, fun harmless solution after ran => ?_⟩
  cases algorithm with
  | newton rule =>
      obtain ⟨sparse, w, start, state, chosen, course⟩ :=
        Minimization.newton_course reached.coherent ran
      obtain ⟨kept, number⟩ := reached.written_unmoved (Newton.turning _ _ _)
        (Registry.means_hessian f.toRegistry m sparse) reached.hasGradient_of_hessian
        (fun _ => rfl) course fun x p x' moves => harmless x p x' (.newton course.started chosen moves)
      exact ⟨fun separate unchanged idle => kept separate unchanged fun x p a x' moves =>
          idle x p a x' (.newton course.started chosen moves),
        fun same starts => number same fun a => starts start a course.started⟩
  | lbfgs =>
      obtain ⟨start, state, course⟩ := Minimization.lbfgs_course reached.coherent ran
      obtain ⟨kept, number⟩ := reached.written_unmoved (Lbfgs.turning _ _)
        (Registry.means_gradient f.toRegistry m false) reached.hasGradient_of_gradient
        (fun _ => rfl) course fun x p x' moves => harmless x p x' (.lbfgs course.started moves)
      exact ⟨fun separate unchanged idle => kept separate unchanged fun x p a x' moves =>
          idle x p a x' (.lbfgs course.started moves),
        fun same starts => number same fun a => starts start a course.started⟩

def one : Memory Float where
  objects := [.array .double [1] 0 0]
  blocks := [[1]]

def ofNumber (t : Term Float) : Objective Float :=
  ((Mutation.addTerm (.term t) [⟨0⟩]).edit.run one (ofThreads 1)).2

theorem reachable_ofNumber (t : Term Float) : Reachable (ofNumber t) :=
  .step (.new (show new? 1 = .ok (ofThreads 1) from rfl))
    (.mutate (c := .addTerm (.term _) _) trivial one)

theorem separate_one {f : Objective Float} (vars : f.vars = [⟨⟨0⟩, 1, 1, 0, false, none⟩]) :
    f.Separate one :=
  Registry.separate_of_single vars (a := ⟨0, 0, 1⟩) ⟨rfl, [1], rfl, by decide⟩

theorem startsAt_one {f : Objective Float} (read : f.readPoint one = .ok [1])
    (x : Vector Float f.scalars) :
    f.StartsAt one x ↔ x = Vector.ofFn fun i => [1].getD i.val 0 := by
  rw [StartsAt, Minimization.run_startPoint, read, map_ok]
  exact ⟨fun starts => (Except.ok.inj (Prod.mk.inj starts).1).symm, fun same => by rw [same]⟩

def floatSetup (n : Nat) : RunSetup Float n where
  config := (Settings.default : Settings Float).check.toOption.get (by decide +kernel)
  searchBudget := 100
  proceed _ _ := true

def lbfgsStart (f : Objective Float) :
    Station (Lbfgs.State Float f.scalars) (Workspace Float) Float f.scalars :=
  (⟨.start (Vector.ofFn fun i => [1].getD i.val 0) 0,
    .empty (floatSetup f.scalars).config.historySize, none⟩, f.workspace, ⟨[], []⟩)

def lbfgsSearch? (f : Objective Float) : Option (Vector Float f.scalars × Float) :=
  (Lbfgs.scheme (floatSetup f.scalars) (f.oracle one false)).search? (floatSetup f.scalars)
    (f.oracle one false) (lbfgsStart f).1 (lbfgsStart f).2.1

def lbfgsTurn (f : Objective Float) :
    Lbfgs.State Float f.scalars → Run (Workspace Float) Float f.scalars
      (Turn Float (Lbfgs.State Float f.scalars)) :=
  Lbfgs.turn (floatSetup f.scalars) (f.oracle one false) false

def lbfgsEnds (f : Objective Float) : Bool :=
  match (lbfgsTurn f (lbfgsStart f).1).run (lbfgsStart f).2 with
  | (.next s, c) => match (lbfgsTurn f s).run c with
    | (.next _, _) => false
    | _ => true
  | _ => false

def lbfgsRun (f : Objective Float) : Except (Fault Float) (Solution Float f.scalars) × Surroundings Float :=
  StateT.run (ExceptT.run (f.minimization (floatSetup f.scalars) 0 .lbfgs)) ⟨f.workspace, one⟩

theorem steps_of_ends {f : Objective Float} (read : f.readPoint one = .ok [1]) (ends : lbfgsEnds f = true)
    {x p x' : Vector Float f.scalars} {a : Float}
    (step : f.Steps one (floatSetup f.scalars) 0 .lbfgs x p a x') :
    x = (lbfgsStart f).1.iterate.point ∧ lbfgsSearch? f = some (p, a) := by
  have last (c c' : Station (Lbfgs.State Float f.scalars) (Workspace Float) Float f.scalars)
      (first : (lbfgsTurn f (lbfgsStart f).1).run (lbfgsStart f).2 = (.next c.1, c.2)) :
      (lbfgsTurn f c.1).run c.2 ≠ (.next c'.1, c'.2) := by
    intro second
    simp only [lbfgsEnds, first, second, Bool.false_eq_true] at ends
  cases step with
  | lbfgs starts moves =>
      obtain rfl := (startsAt_one read _).1 starts
      exact moves.first last

theorem exists_step_of_ends {f : Objective Float} (read : f.readPoint one = .ok [1])
    (ends : lbfgsEnds f = true) {p : Vector Float f.scalars} {a : Float}
    (searched : lbfgsSearch? f = some (p, a)) :
    ∃ x', f.Steps one (floatSetup f.scalars) 0 .lbfgs (lbfgsStart f).1.iterate.point p a x' := by
  rcases first : (lbfgsTurn f (lbfgsStart f).1).run (lbfgsStart f).2 with ⟨_ | s | _, c⟩
  · simp only [lbfgsEnds, first, Bool.false_eq_true] at ends
  · exact ⟨_, .lbfgs ((startsAt_one read _).2 rfl)
      (Moves.of_first (c := (s, c)) (Lbfgs.turning _ _) first searched)⟩
  · simp only [lbfgsEnds, first, Bool.false_eq_true] at ends

def misled : Objective Float := ofNumber (Sample.skewed (-1e-15) 1)

theorem misled_value_unique (x : Vector Float misled.scalars) (a b : Float)
    (here : misled.HasValue one x a) (there : misled.HasValue one x b) : a = b := by
  have reached : Reachable misled := reachable_ofNumber _
  refine reached.value_unique ?_ x a b here there
  have terms : misled.terms = [⟨Sample.skewed (-1e-15) 1, [0]⟩] := rfl
  rw [terms, List.forall_mem_singleton]
  exact Term.sameValues_of_blind fun _ _ _ => rfl

theorem misled_unmoved : ∃ solution after, lbfgsRun misled = (.ok solution, after) ∧
    after.memory.load ⟨0⟩ = [1] ∧ solution.exit ≠ .functionNaN := by
  have vars : misled.vars = [⟨⟨0⟩, 1, 1, 0, false, none⟩] := rfl
  have steps {x p x' : Vector Float misled.scalars} {a : Float}
      (step : misled.Steps one (floatSetup misled.scalars) 0 .lbfgs x p a x') :
      a = 0 ∧ Harmless x p := by
    obtain ⟨rfl, searched⟩ := steps_of_ends rfl (by decide +kernel) step
    have found : (lbfgsSearch? misled).all (fun (p, a) =>
        a = 0 ∧ Harmless (lbfgsStart misled).1.iterate.point p) = true := by decide +kernel
    rw [searched] at found
    simpa using found
  have reached : Reachable misled := reachable_ofNumber _
  obtain ⟨-, settled⟩ := Reachable.unsuccessful_searches (m := one) reached
    (floatSetup misled.scalars) 0 .lbfgs
  rcases ran : lbfgsRun misled with ⟨fault | solution, after⟩
  · have succeeds : (lbfgsRun misled).1.isOk = true := by decide +kernel
    rw [ran] at succeeds
    cases succeeds
  · obtain ⟨kept, number⟩ := settled (fun x p x' step => (steps step).2) solution after ran
    refine ⟨solution, after, rfl, ?_, number misled_value_unique ?_⟩
    · refine kept (separate_one vars) ?_ (fun x p a x' step => (steps step).1) ⟨⟨0⟩, 1, 1, 0, false, none⟩
        (vars ▸ List.mem_singleton_self _)
      rw [vars, List.forall_mem_singleton]
      exact fun _ => rfl
    · intro start a starts has
      obtain rfl := (startsAt_one rfl _).1 starts
      have number : (misled.valueMeaning one (some (lbfgsStart misled).1.iterate.point.toList)).toOption.any
          (!·.isNaN) = true := by decide +kernel
      cases value : misled.valueMeaning one (some (lbfgsStart misled).1.iterate.point.toList) with
      | error fault =>
          rw [value] at number
          cases number
      | ok b =>
          rw [value] at number
          have here := reached.ask_value_of_meaning value
          rw [misled_value_unique _ _ _ has (.inl here)]
          simpa [Except.toOption] using number

def steep : Objective Float := ofNumber (Sample.polynomial [1] [(1e308, [(0, 0), (0, 0)])])

theorem steep_moved :
    Reachable steep ∧ steep.Separate one ∧ (∀ v ∈ steep.vars, v.change = none) ∧
      (∀ x p a x', steep.Steps one (floatSetup steep.scalars) 0 .lbfgs x p a x' → a = 0) ∧
      (∃ x p x', steep.Steps one (floatSetup steep.scalars) 0 .lbfgs x p 0 x' ∧
        (∃ a, steep.HasValue one x a ∧ a.isFinite = true) ∧ x' ≠ x) ∧
      ∃ solution after, lbfgsRun steep = (.ok solution, after) ∧ solution.exit = .functionNaN ∧
        after.memory.load ⟨0⟩ ≠ one.load ⟨0⟩ := by
  have vars : steep.vars = [⟨⟨0⟩, 1, 1, 0, false, none⟩] := rfl
  have reached : Reachable steep := reachable_ofNumber _
  have ends : lbfgsEnds steep = true := by decide +kernel
  have stops : (lbfgsSearch? steep).any (fun (p, a) => a = 0 ∧ p[0].isFinite = false) = true := by
    decide +kernel
  obtain ⟨⟨p, a⟩, searched, found⟩ := Option.any_eq_true .. |>.1 stops
  obtain ⟨rfl, infinite⟩ := of_decide_eq_true found
  refine ⟨reached, separate_one vars, ?_, ?_, ?_, ?_⟩
  · rw [vars, List.forall_mem_singleton]
  · intro x p' a x' step
    obtain ⟨-, again⟩ := steps_of_ends rfl ends step
    exact congrArg Prod.snd (Option.some.inj (again.symm.trans searched))
  · obtain ⟨x', step⟩ := exists_step_of_ends rfl ends searched
    refine ⟨_, p, x', step, ?_, step.left.ne infinite (by decide +kernel)⟩
    have finite : (steep.valueMeaning one (some (lbfgsStart steep).1.iterate.point.toList)).toOption.any
        (·.isFinite) = true := by decide +kernel
    cases value : steep.valueMeaning one (some (lbfgsStart steep).1.iterate.point.toList) with
    | error fault =>
        rw [value] at finite
        cases finite
    | ok a =>
        rw [value] at finite
        exact ⟨a, .inl (reached.ask_value_of_meaning value), finite⟩
  · have spoiled : (match lbfgsRun steep with
        | (.ok solution, after) => decide (solution.exit = .functionNaN ∧
          after.memory.load ⟨0⟩ ≠ one.load ⟨0⟩)
        | _ => false) = true := by decide +kernel
    generalize lbfgsRun steep = result at spoiled
    rcases result with ⟨fault | solution, after⟩
    · cases spoiled
    · exact ⟨solution, after, rfl, of_decide_eq_true spoiled⟩

end Objective

end Descent
