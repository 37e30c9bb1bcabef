import Mathlib
import Descent.Proofs.Run.Downhill

namespace Descent

/-! ## Tests -/

namespace Config

variable {α : Type} [Scalar α] {c : Config α} {s : Standing α} {exit : ExitCondition}

structure Passes (c : Config α) (s : Standing α) : Prop where
  number : Scalar.isNaN s.value = false
  finite : Scalar.isInfinite s.value = false
  gradient : c.smallGradient s = false
  improvement : c.smallImprovement s = false
  step : c.shortStep s = false

inductive Applies (c : Config α) (s : Standing α) : ExitCondition → Prop
  | functionNaN (nan : Scalar.isNaN s.value = true) : Applies c s .functionNaN
  | functionInfinity (infinite : Scalar.isInfinite s.value = true) : Applies c s .functionInfinity
  | gradientTolerance (small : c.smallGradient s = true) : Applies c s .gradientTolerance
  | functionTolerance (small : c.smallImprovement s = true) : Applies c s .functionTolerance
  | argumentTolerance (short : c.shortStep s = true) : Applies c s .argumentTolerance
  | noConvergence (passes : c.Passes s) (exhausted : s.exhausted = true) : Applies c s .noConvergence

theorem applies_of_exit? (test : c.exit? s = some exit) : c.Applies s exit := by
  unfold exit? at test
  split_ifs at test with nan infinite gradient improvement step exhausted <;> cases test
  · exact .functionNaN nan
  · exact .functionInfinity infinite
  · exact .gradientTolerance gradient
  · exact .functionTolerance improvement
  · exact .argumentTolerance step
  · simp only [Bool.not_eq_true] at nan infinite gradient improvement step
    exact .noConvergence ⟨nan, infinite, gradient, improvement, step⟩ exhausted

theorem passes_of_exit?_none (untested : c.exit? s = none) : c.Passes s ∧ s.exhausted = false := by
  unfold exit? at untested
  split_ifs at untested with nan infinite gradient improvement step exhausted
  simp only [Bool.not_eq_true] at nan infinite gradient improvement step exhausted
  exact ⟨⟨nan, infinite, gradient, improvement, step⟩, exhausted⟩

end Config

/-! ## What a run carries along -/

structure LastSearch (α : Type) (n : Nat) where
  before : α
  direction : Vector α n
  result : SearchResult α

namespace LastSearch

variable {α : Type} [Scalar α] {n : Nat}

def move (l : LastSearch α n) : Vector α n := l.result.step * l.direction

def Accepted (l : LastSearch α n) : Prop := 0 < l.result.step ∧
  ∃ step evaluations, l.result = .accepted step evaluations

def improved (l : LastSearch α n) : Option α := if 0 < l.result.step then some l.before else none

theorem accepted_of_improved (strict : ¬(0 : α) < 0) {l : LastSearch α n} {before : α}
    (improved : l.improved = some before) : l.Accepted ∧ l.before = before := by
  rw [LastSearch.improved] at improved
  split at improved
  · rename_i positive
    refine ⟨⟨positive, ?_⟩, Option.some.inj improved⟩
    cases result : l.result with
    | accepted step evaluations => exact ⟨step, evaluations, rfl⟩
    | _ =>
        rw [result] at positive
        exact absurd positive strict
  · cases improved

end LastSearch

section

variable {σ α ι β : Type} [Scalar α] {n : Nat}

/-- The stations of a run with the first gradient, once there was an evaluation, and the last search, once
there was one. -/
inductive Trail (setup : RunSetup α n) (oracle : Oracle σ α n) (m : Scheme σ α n ι β)
    (turn : Bool → ι → Run σ α n (Turn α ι)) (start : Station ι σ α n) :
    Nat → Station ι σ α n → Option (Vector α n) → Option (LastSearch α n) → Prop
  | start : Trail setup oracle m turn start 0 start none none
  | next {k : Nat} {c c' : Station ι σ α n} {first : Option (Vector α n)}
      {last : Option (LastSearch α n)} {b : β} {p : Vector α n} {s' : ι} {result : SearchResult α}
      (trail : Trail setup oracle m turn start k c first last)
      (searches : Searches setup oracle m false c.1 c.2.1 c.2.2.sights b p s' (.ok result) c'.2.1)
      (completed : (turn false c.1).run c.2 = (.next c'.1, c'.2)) :
      Trail setup oracle m turn start (k + 1) c' (some (first.getD (m.gradient b)))
        (some ⟨m.value b, p, result⟩)

variable {setup : RunSetup α n} {oracle : Oracle σ α n} {m : Scheme σ α n ι β}
  {turn : Bool → ι → Run σ α n (Turn α ι)} {start c : Station ι σ α n} {k : Nat}
  {first : Option (Vector α n)} {last : Option (LastSearch α n)}

theorem Goes.trail (turning : Turning setup oracle m turn) (goes : Goes turn start k c) :
    ∃ first last, Trail setup oracle m turn start k c first last := by
  induction goes with
  | start => exact ⟨none, none, .start⟩
  | @next k c₁ c goes completed ih =>
      obtain ⟨first, last, trail⟩ := ih
      have passage := turning false c₁.1 c₁.2.1 c₁.2.2
      rw [completed] at passage
      obtain ⟨b, p, s', result, searches, -⟩ := passage.of_next
      exact ⟨_, _, trail.next searches completed⟩

theorem Trail.last_eq_none_iff (trail : Trail setup oracle m turn start k c first last) :
    last = none ↔ k = 0 := by
  cases trail <;> simp

structure Iterate.Knows (i : Iterate α n) (iterations : Int) (first : Option (Vector α n))
    (last : Option (LastSearch α n)) : Prop where
  counted : i.iterations = iterations
  startNorm : i.startNorm = first.map Vec.maxAbs
  stepNorm : i.stepNorm = last.map fun l => Vec.norm l.move
  accepted : i.accepted = last.bind LastSearch.improved

theorem Trail.knows (turning : Turning setup oracle m turn) {x : Vector α n} {iterations : Int}
    (from_start : m.iterate start.1 = .start x iterations)
    (trail : Trail setup oracle m turn start k c first last) :
    (m.iterate c.1).Knows (iterations + k) first last := by
  induction trail with
  | start =>
      rw [from_start]
      exact ⟨(add_zero _).symm, rfl, rfl, ite_self _⟩
  | @next k c c' first last b p s' result trail searches completed ih =>
      have passage := turning false c.1 c.2.1 c.2.2
      rw [completed] at passage
      obtain ⟨b', p', s₁, result', searches', advanced⟩ := passage.advance_of_next
      obtain ⟨rfl, rfl, same⟩ := searches.unique searches'
      cases same
      rw [advanced]
      refine ⟨?_, ?_, rfl, rfl⟩
      · simp only [Iterate.advance, ih.counted]
        push_cast
        ring
      · simp only [Iterate.advance, ih.startNorm, Option.getD_map, Option.map_some]

variable {Good : σ → Prop} {value : Vector α n → Except (Fault α) α}
  {derivatives : Vector α n → Except (Fault α) β}

/-- Where evaluations have a meaning, the first gradient is that of the start, and the last search began at
the iterate before, which it moved. -/
theorem Trail.means (turning : Turning setup oracle m turn)
    (evaluates : Eval.Means m.evaluate Good derivatives) (means : Eval.Means oracle.value Good value)
    (good : Good start.2.1) (trail : Trail setup oracle m turn start k c first last) :
    Good c.2.1 ∧ (first = none → c = start) ∧
      (∀ g ∈ first, ∃ b, derivatives (m.point start.1) = .ok b ∧ m.gradient b = g) ∧
      ∀ l ∈ last, ∃ x b, derivatives x = .ok b ∧ m.value b = l.before ∧ m.point c.1 = x + l.move := by
  induction trail with
  | start => exact ⟨good, fun _ => rfl, nofun, nofun⟩
  | @next k c c' first last b p s' result trail searches completed ih =>
      obtain ⟨good₁, at_start, begins, -⟩ := ih
      have passage := turning false c.1 c.2.1 c.2.2
      rw [completed] at passage
      obtain ⟨b', p', s₁, result', searches', advanced⟩ := passage.advance_of_next
      obtain ⟨rfl, rfl, same⟩ := searches.unique searches'
      cases same
      obtain ⟨evaluated, -, good', -⟩ := searches.admissible evaluates means good₁
      refine ⟨good', nofun, ?_, ?_⟩
      · rintro g ⟨⟩
        cases first with
        | none => exact ⟨b, at_start rfl ▸ evaluated, rfl⟩
        | some g => exact begins g rfl
      · rintro l ⟨⟩
        exact ⟨m.point c.1, b, evaluated, rfl, by rw [Scheme.point, advanced]; rfl⟩

theorem Trail.first_evaluation (turning : Turning setup oracle m turn)
    (evaluates : Eval.Means m.evaluate Good derivatives) (means : Eval.Means oracle.value Good value)
    (good : Good start.2.1) (trail : Trail setup oracle m turn start k c first last) {b : β}
    (here : derivatives (m.point c.1) = .ok b) :
    ∃ b₀, derivatives (m.point start.1) = .ok b₀ ∧ m.gradient b₀ = first.getD (m.gradient b) := by
  obtain ⟨-, at_start, begins, -⟩ := trail.means turning evaluates means good
  cases first with
  -- without an earlier evaluation, the last one is that of the start
  | none => exact ⟨b, at_start rfl ▸ here, rfl⟩
  | some g => exact begins g rfl

/-! ## Where a run ends -/

structure Finish (α : Type) (n : Nat) where
  sight : Sight α n
  first : Vector α n
  last : Option (LastSearch α n)

namespace Finish

variable (e : Finish α n) (c : Config α)

def GradientTest : Prop :=
  Vec.maxAbs e.sight.gradient < c.gradientTolerance * Vec.maxAbs e.first ∨
    Scalar.same (Vec.maxAbs e.first) 0 = true

def FunctionTest : Prop := ∃ l ∈ e.last, l.Accepted ∧
  Scalar.abs (e.sight.value - l.before) <
    c.functionImprovementTolerance * (Scalar.abs e.sight.value + c.functionImprovementTolerance)

def ArgumentTest : Prop := ∃ l ∈ e.last, Vec.norm l.move <
  c.argumentImprovementTolerance * (Vec.norm e.sight.point + c.argumentImprovementTolerance)

structure Untested : Prop where
  number : Scalar.isNaN e.sight.value = false
  finite : Scalar.isInfinite e.sight.value = false
  gradient : ¬e.GradientTest c
  function : ¬e.FunctionTest c
  argument : ¬e.ArgumentTest c

/-- What an exit condition says of the last evaluation, with the number of iterations and what the caller was
shown. -/
inductive Certified (setup : RunSetup α n) (iterations : Int) (sights : List (Sight α n)) :
    ExitCondition → Prop
  | functionNaN (nan : Scalar.isNaN e.sight.value = true) : Certified setup iterations sights .functionNaN
  | functionInfinity (infinite : Scalar.isInfinite e.sight.value = true) :
      Certified setup iterations sights .functionInfinity
  | gradientTolerance (small : e.GradientTest setup.config) :
      Certified setup iterations sights .gradientTolerance
  | functionTolerance (small : e.FunctionTest setup.config) :
      Certified setup iterations sights .functionTolerance
  | argumentTolerance (short : e.ArgumentTest setup.config) :
      Certified setup iterations sights .argumentTolerance
  | noConvergence (limit : setup.config.maximumIterations ≤ iterations)
      (untested : e.Untested setup.config) : Certified setup iterations sights .noConvergence
  | userAbort (seen : sights.getLast? = some e.sight)
      (halted : setup.proceed sights.length e.sight = false)
      (below : iterations < setup.config.maximumIterations) (untested : e.Untested setup.config) :
      Certified setup iterations sights .userAbort

end Finish

inductive Finishes (setup : RunSetup α n) (oracle : Oracle σ α n) (m : Scheme σ α n ι β)
    (turn : Bool → ι → Run σ α n (Turn α ι)) (start : Station ι σ α n) :
    Nat → Finish α n → σ → Prop
  | evaluated {k : Nat} {c : Station ι σ α n} {first : Option (Vector α n)}
      {last : Option (LastSearch α n)} {b : β} {o' : σ}
      (trail : Trail setup oracle m turn start k c first last)
      (evaluated : (m.evaluate (m.point c.1)).run c.2.1 = (.ok b, o')) :
      Finishes setup oracle m turn start k ⟨m.sight c.1 b, first.getD (m.gradient b), last⟩ o'

def Finish.standing (e : Finish α n) (exhausted : Bool) : Standing α where
  value := e.sight.value
  gradientNorm := Vec.maxAbs e.sight.gradient
  startNorm := Vec.maxAbs e.first
  pointNorm := Vec.norm e.sight.point
  stepNorm := e.last.map fun l => Vec.norm l.move
  before := e.last.bind LastSearch.improved
  exhausted

theorem Iterate.Knows.standing_eq {s : ι} {iterations : Int}
    (knows : (m.iterate s).Knows iterations first last) (b : β) (exhausted : Bool) :
    (m.iterate s).standing (m.value b) (m.gradient b) exhausted =
      Finish.standing ⟨m.sight s b, first.getD (m.gradient b), last⟩ exhausted := by
  simp only [Iterate.standing, Finish.standing, Scheme.sight, Scheme.point, knows.startNorm, knows.stepNorm,
    knows.accepted, Option.getD_map]

section

variable {e : Finish α n} {config : Config α} (exhausted : Bool)

theorem Finish.gradientTest_iff :
    config.smallGradient (e.standing exhausted) = true ↔ e.GradientTest config := by
  rw [Config.smallGradient, Bool.or_eq_true, decide_eq_true_iff, or_comm]
  rfl

theorem Finish.functionTest_iff (strict : ¬(0 : α) < 0) :
    config.smallImprovement (e.standing exhausted) = true ↔ e.FunctionTest config := by
  simp only [Config.smallImprovement, Option.any_eq_true, Finish.standing, Option.bind_eq_some_iff,
    Finish.FunctionTest]
  constructor
  · rintro ⟨before, ⟨l, last, improved⟩, small⟩
    obtain ⟨accepted, rfl⟩ := LastSearch.accepted_of_improved strict improved
    exact ⟨l, last, accepted, of_decide_eq_true small⟩
  · rintro ⟨l, last, ⟨positive, -⟩, small⟩
    exact ⟨l.before, ⟨l, last, if_pos positive⟩, decide_eq_true small⟩

theorem Finish.argumentTest_iff :
    config.shortStep (e.standing exhausted) = true ↔ e.ArgumentTest config := by
  simp only [Config.shortStep, Option.any_eq_true, Finish.standing, Option.map_eq_some_iff,
    Finish.ArgumentTest]
  constructor
  · rintro ⟨length, ⟨l, last, rfl⟩, short⟩
    exact ⟨l, last, of_decide_eq_true short⟩
  · rintro ⟨l, last, short⟩
    exact ⟨_, ⟨l, last, rfl⟩, decide_eq_true short⟩

variable {exhausted} in
theorem Finish.untested_of_passes (strict : ¬(0 : α) < 0) (passes : config.Passes (e.standing exhausted)) :
    e.Untested config where
  number := passes.number
  finite := passes.finite
  gradient small := by
    rw [← Finish.gradientTest_iff exhausted, passes.gradient] at small
    cases small
  function small := by
    rw [← Finish.functionTest_iff exhausted strict, passes.improvement] at small
    cases small
  argument short := by
    rw [← Finish.argumentTest_iff exhausted, passes.step] at short
    cases short

end

theorem Passage.certified (strict : ¬(0 : α) < 0) {s s' : ι} {o o' : σ} {seen seen' : List (Sight α n)}
    {exit : ExitCondition} {left : Nat} {start : Int}
    (knows : (m.iterate s).Knows (start + k) first last) (within : k ≤ left)
    (limit : left = (setup.config.maximumIterations - start).toNat)
    (passage : Passage setup oracle m (k = left) s o seen (.stop exit s', o', seen'))
    (contained : exit ≠ .internalError) (finished : exit ≠ .na) :
    ∃ b, (m.evaluate (m.point s)).run o = (.ok b, o') ∧ m.iterate s' = m.iterate s ∧
      Finish.Certified ⟨m.sight s b, first.getD (m.gradient b), last⟩ setup (start + k) seen' exit := by
  generalize ended : (Turn.stop exit s', o', seen') = outcome at passage
  cases passage with
  | @tested b o' exit evaluated test =>
      cases ended
      refine ⟨b, evaluated, rfl, ?_⟩
      rw [knows.standing_eq] at test
      cases Config.applies_of_exit? test with
      | functionNaN nan => exact .functionNaN nan
      | functionInfinity infinite => exact .functionInfinity infinite
      | gradientTolerance small => exact .gradientTolerance ((Finish.gradientTest_iff _).1 small)
      | functionTolerance small => exact .functionTolerance ((Finish.functionTest_iff _ strict).1 small)
      | argumentTolerance short => exact .argumentTolerance ((Finish.argumentTest_iff _).1 short)
      | noConvergence passes exhausted =>
          have all : k = left := of_decide_eq_true exhausted
          exact .noConvergence (by omega) (Finish.untested_of_passes strict passes)
  | @aborted b o' evaluated untested halted =>
      cases ended
      refine ⟨b, evaluated, rfl, ?_⟩
      rw [knows.standing_eq] at untested
      obtain ⟨passes, more⟩ := Config.passes_of_exit?_none untested
      have some_left : k ≠ left := of_decide_eq_false more
      refine .userAbort (List.getLast?_concat ..) ?_ (by omega) (Finish.untested_of_passes strict passes)
      rw [List.length_append, List.length_singleton]
      exact halted
  | unevaluated failed =>
      cases ended
      exact absurd rfl contained
  | @undirected b o' fault continues failed =>
      rcases m.refused_eq fault s with refused | refused <;> rw [refused] at ended <;> cases ended
      exact absurd rfl contained
  | interrupted searches =>
      cases ended
      exact absurd rfl contained
  | unfinished searches pending =>
      cases ended
      exact absurd rfl finished
  | completed searches finished => cases ended

end

/-! ## Objectives -/

namespace Objective

open Registry

section

variable {α : Type} [Scalar α] (f : Objective α) (m : Memory α) (setup : RunSetup α f.scalars)
  (iterations : Int)

/-- A solve ends after `k` completed iterations with an evaluation that leaves the workspace `w'`. -/
inductive EndsWith : Algorithm α f.scalars → (k : Nat) → Finish α f.scalars → (w' : Workspace α) → Prop
  | newton {rule : Newton.StepRule α f.scalars} {sparse : Bool} {w w' : Workspace α}
      {start : Vector α f.scalars} {k : Nat} {e : Finish α f.scalars} (starts : f.StartsAt m start)
      (chosen : (f.useSparse setup.config).run f.workspace = (.ok sparse, w))
      (finishes : Finishes setup (f.oracle m sparse) (Newton.scheme setup (f.oracle m sparse) rule)
        (Newton.turn setup (f.oracle m sparse) rule) (⟨.start start iterations, []⟩, w, ⟨[], []⟩) k e w') :
      EndsWith (.newton rule) k e w'
  | lbfgs {w' : Workspace α} {start : Vector α f.scalars} {k : Nat} {e : Finish α f.scalars}
      (starts : f.StartsAt m start)
      (finishes : Finishes setup (f.oracle m false) (Lbfgs.scheme setup (f.oracle m false))
        (Lbfgs.turn setup (f.oracle m false))
        (⟨.start start iterations, .empty setup.config.historySize, none⟩, f.workspace, ⟨[], []⟩) k e w') :
      EndsWith .lbfgs k e w'

/-- What is known after a solve that ended with this evaluation: the arrays hold its point, the data of the
tests are those of the objective at the iterates that they belong to, and the exit condition is certified. -/
structure Attested (k : Nat) (e : Finish α f.scalars) (solution : Solution α f.scalars)
    (after : Surroundings α) : Prop where
  counted : solution.iterations = iterations + k
  searched : e.last = none ↔ k = 0
  stored : ∀ v ∈ f.vars, v.isConstant = false →
    after.memory.load v.storage = solverPart v e.sight.point.toList
  here : f.HasGradient m e.sight.point e.sight.value e.sight.gradient
  value : ∀ b, f.HasValue m e.sight.point b ∨ f.ValueAfter after b → b = e.sight.value
  first : ∃ start a, f.StartsAt m start ∧ f.HasGradient m start a e.first
  last : ∀ l ∈ e.last, ∃ x g, f.HasGradient m x l.before g ∧ (∀ b, f.HasValue m x b → b = l.before) ∧
    e.sight.point = x + l.move
  exit : e.Certified setup solution.iterations solution.journal.sights solution.exit

end

variable {α : Type} [Scalar α] {f : Objective α} {m : Memory α} {setup : RunSetup α f.scalars}
  {iterations : Int} {algorithm : Algorithm α f.scalars} {solution : Solution α f.scalars}
  {after : Surroundings α}

section

variable {ι β : Type} {sparse : Bool} {S : Scheme (Workspace α) α f.scalars ι β}
  {turn : Bool → ι → Run (Workspace α) α f.scalars (Turn α ι)}
  {derivatives : Vector α f.scalars → Except (Fault α) β} {initial : Vector α f.scalars → ι} {w : Workspace α}
  {start : Vector α f.scalars} {state : ι}

/-- The last iteration moves nowhere: the point of the state that is returned is the one that it evaluates. -/
theorem certified_of_course (strict : ¬(0 : α) < 0) (turning : Turning setup (f.oracle m sparse) S turn)
    (from_start : S.iterate (initial start) = .start start iterations)
    (course : Minimization.Course f.toRegistry turn initial S.iterate
      (Run.remaining setup.config iterations) ⟨f.workspace, m⟩ after solution w start state)
    (contained : solution.exit ≠ .internalError) (finished : solution.exit ≠ .na) :
    ∃ k c first last b, Trail setup (f.oracle m sparse) S turn (initial start, w, ⟨[], []⟩) k c first last ∧
      (S.evaluate (S.point c.1)).run c.2.1 = (.ok b, after.workspace) ∧
      (S.iterate state).point = S.point c.1 ∧ solution.iterations = iterations + k ∧
      Finish.Certified ⟨S.sight c.1 b, first.getD (S.gradient b), last⟩ setup solution.iterations
        solution.journal.sights solution.exit := by
  obtain ⟨journal, ran, sights⟩ := course.ran
  obtain ⟨k, s, c, goes, within, ended⟩ := repeatTurn_ends turning ran
  obtain ⟨first, last, trail⟩ := goes.trail turning
  have knows := trail.knows turning from_start
  have passage := turning (k = Run.remaining setup.config iterations) s c.1 c.2
  rw [ended] at passage
  obtain ⟨b, evaluated, kept, certified⟩ := passage.certified strict knows within rfl contained finished
  have counted : solution.iterations = iterations + k := by rw [course.counted, kept, knows.counted]
  refine ⟨k, _, first, last, b, trail, evaluated, by rw [kept, Scheme.point], counted, ?_⟩
  rw [counted, ← sights]
  exact certified

theorem Reachable.attested_of_course (reached : Reachable f)
    (same : ∀ x a b, f.HasValue m x a → f.HasValue m x b → a = b) (separate : f.Separate m)
    (unchanged : ∀ v ∈ f.vars, v.isConstant = false → v.change = none) (strict : ¬(0 : α) < 0)
    (turning : Turning setup (f.oracle m sparse) S turn)
    (evaluates : Eval.Means S.evaluate (·.Coherent f.toRegistry) derivatives)
    (reads : ∀ x b, derivatives x = .ok b → f.HasGradient m x (S.value b) (S.gradient b))
    (from_start : S.iterate (initial start) = .start start iterations)
    (course : Minimization.Course f.toRegistry turn initial S.iterate
      (Run.remaining setup.config iterations) ⟨f.workspace, m⟩ after solution w start state)
    (contained : solution.exit ≠ .internalError) (finished : solution.exit ≠ .na) :
    ∃ k e, Finishes setup (f.oracle m sparse) S turn (initial start, w, ⟨[], []⟩) k e after.workspace ∧
      f.Attested m setup iterations k e solution after := by
  have wf := reached.wellFormed
  obtain ⟨k, c, first, last, b, trail, evaluated, point, counted, certified⟩ :=
    certified_of_course strict turning from_start course contained finished
  have means := Registry.means_value f.toRegistry m sparse
  obtain ⟨coherent, -, -, moved⟩ := trail.means turning evaluates means course.coherent
  obtain ⟨here, coherent'⟩ := evaluates.unique coherent evaluated
  obtain ⟨b₀, evaluated₀, gradient₀⟩ := trail.first_evaluation turning evaluates means course.coherent here
  have at_start : S.point (initial start) = start := by rw [Scheme.point, from_start, Iterate.start]
  have unique (x : Vector α f.scalars) (b : β) (evaluated : derivatives x = .ok b) (a : α)
      (has : f.HasValue m x a) : a = S.value b :=
    same x _ _ has (.inr ⟨_, reads x b evaluated⟩)
  have wrote := course.wrote
  rw [point] at wrote
  refine ⟨k, _, .evaluated trail evaluated, ?_⟩
  constructor
  case counted => exact counted
  case searched => exact trail.last_eq_none_iff
  case stored =>
    exact load_written wf separate unchanged Vector.length_toList
      (Minimization.read_of_started wf course.started) wrote
  case here => exact reads _ b here
  case value =>
    rintro a (has | found)
    · exact unique _ b here a has
    · exact unique _ b here a (reached.hasValue_of_valueAfter separate coherent' wrote found)
  case first => exact ⟨start, _, course.started, gradient₀ ▸ reads _ b₀ (at_start ▸ evaluated₀)⟩
  case last =>
    intro l member
    obtain ⟨x, b₁, evaluated₁, before, next⟩ := moved l member
    exact ⟨x, _, before ▸ reads x b₁ evaluated₁, fun a has => before ▸ unique x b₁ evaluated₁ a has, next⟩
  case exit => exact certified

end

/-- A solve that ends without an internal error, and whose searches all end, writes back the point of its last
evaluation, and its exit condition tells which test applies to the value and the gradient there. -/
theorem Reachable.exit_certified (reached : Reachable f)
    (same : ∀ x a b, f.HasValue m x a → f.HasValue m x b → a = b) (separate : f.Separate m)
    (unchanged : ∀ v ∈ f.vars, v.isConstant = false → v.change = none) (strict : ¬(0 : α) < 0)
    (ran : StateT.run (ExceptT.run (f.minimization setup iterations algorithm)) ⟨f.workspace, m⟩ =
      (.ok solution, after))
    (contained : solution.exit ≠ .internalError) (finished : solution.exit ≠ .na) :
    ∃ k e, f.EndsWith m setup iterations algorithm k e after.workspace ∧
      f.Attested m setup iterations k e solution after := by
  cases algorithm with
  | newton rule =>
      obtain ⟨sparse, w, start, state, chosen, course⟩ :=
        Minimization.newton_course reached.coherent ran
      obtain ⟨k, e, finishes, attested⟩ := reached.attested_of_course same separate unchanged strict
        (Newton.turning _ _ _) (Registry.means_hessian f.toRegistry m sparse)
        reached.hasGradient_of_hessian rfl course contained finished
      exact ⟨k, e, .newton course.started chosen finishes, attested⟩
  | lbfgs =>
      obtain ⟨start, state, course⟩ := Minimization.lbfgs_course reached.coherent ran
      obtain ⟨k, e, finishes, attested⟩ := reached.attested_of_course same separate unchanged strict
        (Lbfgs.turning _ _) (Registry.means_gradient f.toRegistry m false)
        reached.hasGradient_of_gradient rfl course contained finished
      exact ⟨k, e, .lbfgs course.started finishes, attested⟩

def haltingSetup : RunSetup ℚ square.scalars := ⟨defaultConfig, 60, fun k _ => decide (k < 2)⟩

theorem square_halted : ∃ solution after e,
    StateT.run (ExceptT.run (square.minimization haltingSetup 0 .lbfgs)) ⟨square.workspace, three⟩ =
        (.ok solution, after) ∧
      square.EndsWith three haltingSetup 0 .lbfgs 1 e after.workspace ∧
      e.Certified haltingSetup 1 solution.journal.sights .userAbort ∧
      after.memory.load ⟨0⟩ = [2] ∧ e.sight.point.toList = [2] := by
  have reports : outcome? (StateT.run (ExceptT.run (square.minimization haltingSetup 0 .lbfgs))
      ⟨square.workspace, three⟩) = some (.userAbort, 1, [2]) := by decide +kernel
  rcases ran : StateT.run (ExceptT.run (square.minimization haltingSetup 0 .lbfgs))
    ⟨square.workspace, three⟩ with ⟨fault | solution, after⟩ <;> rw [ran] at reports
  · cases reports
  · rw [outcome?, Option.some.injEq, Prod.mk.injEq, Prod.mk.injEq] at reports
    obtain ⟨halted, one, two⟩ := reports
    obtain ⟨k, e, ends, attested⟩ := Reachable.exit_certified (m := three) reachable_square
      square_value_unique separate_square plain_square (lt_irrefl 0) ran (by rw [halted]; decide)
      (by rw [halted]; decide)
    have completed : k = 1 := by
      have counted := attested.counted
      omega
    subst completed
    have certified := attested.exit
    rw [halted, one] at certified
    have stored := attested.stored ⟨⟨0⟩, 1, 1, 0, false, none⟩ (vars_square ▸ List.mem_singleton_self _) rfl
    have whole : solverPart ⟨⟨0⟩, 1, 1, 0, false, none⟩ e.sight.point.toList = e.sight.point.toList :=
      solverPart_whole rfl Vector.length_toList.le
    exact ⟨solution, after, e, rfl, ends, certified, two, whole.symm.trans (stored.symm.trans two)⟩

end Objective

end Descent
