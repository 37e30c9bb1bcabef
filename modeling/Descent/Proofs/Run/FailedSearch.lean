import Mathlib
import Descent.Proofs.Linear.Basic
import Descent.Proofs.Run.Certificates

namespace Descent

abbrev Searcher (σ α : Type) (n : Nat) :=
  (x : Vector α n) → (value : α) → (g p : Vector α n) → (start : α) → Eval σ α (SearchResult α)

def Searcher.Keeps {σ α : Type} {n : Nat} (search : Searcher σ α n) (Good : σ → Prop) : Prop :=
  ∀ {x value g p start o outcome o'}, Good o → (search x value g p start).run o = (outcome, o') → Good o'

section

variable {σ α : Type} [Scalar α] {n : Nat} (search : Searcher σ α n) (setup : RunSetup α n)
  (oracle : Oracle σ α n)

def RunSetup.searcher : Searcher σ α n := LineSearch.search setup.config setup.searchBudget oracle.value

def searchingBy {ι β : Type} (m : Scheme σ α n ι β) (solver : Solver) (s : ι) (b : β) (p : Vector α n)
    (start : α) (s' : ι) (entries : List (Entry α)) : Run σ α n (Turn α ι) := do
  Run.log entries
  match ← Run.attempt (search (m.point s) (m.value b) (m.gradient b) p start) with
  | .error fault => Run.failed solver .lineSearch fault s'
  | .ok result =>
      Run.log result.entries
      if result.isFinished then
        return .next
          (m.moved s' b ((m.iterate s').advance (m.value b) (m.gradient b) p result.step))
      else return .stop .na s'

def Newton.turnBy (rule : StepRule α n) (exhausted : Bool) (s : State α n) :
    Run σ α n (Turn α (State α n)) := do
  match ← Run.attempt (oracle.hessian s.iterate.point) with
  | .error fault => Run.failed .newton .evaluation fault s
  | .ok (value, g, h) =>
      let exit := setup.config.exit? (s.iterate.standing value g exhausted)
      Run.row (.columns .newton)
        (.newtonRow s.iterate.iterations value (Vec.maxAbs g) s.iterate.step s.shift) s.iterate.rows
      match exit with
      | some exit => return .stop exit s
      | none =>
          if ← Run.shown setup ⟨value, s.iterate.point, g, some h⟩ then
            match rule h g with
            | .error fault => Run.failed .newton .factorization fault s
            | .ok step =>
                searchingBy search (scheme setup oracle rule) .newton s (value, g, h) step.direction
                  setup.config.startStep { s with shifts := s.shifts ++ [step.shift] } step.entries
          else return .stop .userAbort s

def Lbfgs.turnBy (exhausted : Bool) (s : State α n) : Run σ α n (Turn α (State α n)) := do
  match ← Run.attempt (oracle.gradient s.iterate.point) with
  | .error fault => Run.failed .lbfgs .evaluation fault s
  | .ok (value, g) =>
      let exit := setup.config.exit? (s.iterate.standing value g exhausted)
      Run.row (.columns .lbfgs) (.lbfgsRow s.iterate.iterations value (Vec.maxAbs g) s.iterate.step
        s.history.pairs.length) s.iterate.rows
      match exit with
      | some exit => return .stop exit s
      | none =>
          if ← Run.shown setup ⟨value, s.iterate.point, g, none⟩ then
            match direction setup.config s value g with
            | .error fault => return .abandon fault
            | .ok found =>
                searchingBy search (scheme setup oracle) .lbfgs s (value, g) found.direction found.start
                  { s with history := found.history } found.entries
          else return .stop .userAbort s

theorem Newton.turnBy_searcher (rule : StepRule α n) :
    turnBy (setup.searcher oracle) setup oracle rule = turn setup oracle rule := rfl

theorem Lbfgs.turnBy_searcher : turnBy (setup.searcher oracle) setup oracle = turn setup oracle := rfl

end

def Turn.next? {α ι : Type} : Turn α ι → Option ι
  | .next s => some s
  | .stop _ _ | .abandon _ => none

section

variable {σ α ι β : Type} [Scalar α] {n : Nat}

inductive Finds (setup : RunSetup α n) (m : Scheme σ α n ι β) (search : Searcher σ α n) (exhausted : Bool)
    (s : ι) (o : σ) (result : SearchResult α) : ι → σ → Prop
  | moved {b : β} {p : Vector α n} {start : α} {s₁ : ι} {o₁ o' : σ}
      (evaluated : (m.evaluate (m.point s)).run o = (.ok b, o₁))
      (untested : setup.config.exit? ((m.iterate s).standing (m.value b) (m.gradient b) exhausted) = none)
      (directed : m.direct s b = .ok (p, start, s₁))
      (searched : (search (m.point s) (m.value b) (m.gradient b) p start).run o₁ = (.ok result, o')) :
      Finds setup m search exhausted s o result
        (m.moved s₁ b ((m.iterate s₁).advance (m.value b) (m.gradient b) p result.step)) o'

structure TurningBy (setup : RunSetup α n) (m : Scheme σ α n ι β) (search : Searcher σ α n)
    (turn : Bool → ι → Run σ α n (Turn α ι)) : Prop where
  next : ∀ {exhausted s s' o o'} {j j' : Journal α n}, (turn exhausted s).run (o, j) = (.next s', o', j') →
    ∃ result, Finds setup m search exhausted s o result s' o'
  tested : ∀ {exhausted s b o o' exit} (j : Journal α n), (m.evaluate (m.point s)).run o = (.ok b, o') →
    setup.config.exit? ((m.iterate s).standing (m.value b) (m.gradient b) exhausted) = some exit →
      ∃ j', (turn exhausted s).run (o, j) = (.stop exit s, o', j')

variable {search : Searcher σ α n} {setup : RunSetup α n} {oracle : Oracle σ α n}

theorem finds_of_searchingBy {m : Scheme σ α n ι β} {solver : Solver} {exhausted : Bool} {s s₁ s' : ι} {b : β}
    {p : Vector α n} {start : α} {entries : List (Entry α)} {o o₁ o' : σ} {j j' : Journal α n}
    (evaluated : (m.evaluate (m.point s)).run o = (.ok b, o₁))
    (untested : setup.config.exit? ((m.iterate s).standing (m.value b) (m.gradient b) exhausted) = none)
    (directed : m.direct s b = .ok (p, start, s₁))
    (completed : (searchingBy search m solver s b p start s₁ entries).run (o₁, j) = (.next s', o', j')) :
    ∃ result, Finds setup m search exhausted s o result s' o' := by
  rw [searchingBy, Run.run_bind, Run.run_log] at completed
  simp only [Run.run_bind, Run.run_attempt] at completed
  rcases searched : (search (m.point s) (m.value b) (m.gradient b) p start).run o₁ with ⟨fault | result, o₂⟩ <;>
    rw [searched] at completed
  · cases completed
  · simp only [Run.run_bind, Run.run_log] at completed
    split at completed <;> cases completed
    exact ⟨result, .moved evaluated untested directed searched⟩

theorem Newton.turningBy (rule : StepRule α n) :
    TurningBy setup (scheme setup oracle rule) search (turnBy search setup oracle rule) where
  tested {exhausted s b o o' exit} j evaluated test := by
    rw [turnBy, Run.run_bind, Run.run_attempt,
      show (oracle.hessian s.iterate.point).run o = (.ok b, o') from evaluated]
    simp only [Run.run_bind, Run.run_row,
      show setup.config.exit? (s.iterate.standing b.1 b.2.1 exhausted) = some exit from test]
    exact ⟨_, rfl⟩
  next {exhausted s s' o o' j j'} completed := by
    rw [turnBy, Run.run_bind, Run.run_attempt] at completed
    rcases evaluated : (oracle.hessian s.iterate.point).run o with ⟨fault | ⟨value, g, h⟩, o₁⟩ <;>
      rw [evaluated] at completed
    · cases completed
    simp only [Run.run_bind, Run.run_row] at completed
    cases test : setup.config.exit? (s.iterate.standing value g exhausted) with
    | some exit =>
        rw [test] at completed
        cases completed
    | none =>
    rw [test] at completed
    simp only [Run.run_asked] at completed
    split at completed
    · cases directed : rule h g with
      | error fault =>
          rw [directed] at completed
          cases completed
      | ok step =>
          rw [directed] at completed
          exact finds_of_searchingBy (m := scheme setup oracle rule) evaluated test
            (bind_eq_ok.2 ⟨step, directed, rfl⟩) completed
    · cases completed

theorem Lbfgs.turningBy : TurningBy setup (scheme setup oracle) search (turnBy search setup oracle) where
  tested {exhausted s b o o' exit} j evaluated test := by
    rw [turnBy, Run.run_bind, Run.run_attempt,
      show (oracle.gradient s.iterate.point).run o = (.ok b, o') from evaluated]
    simp only [Run.run_bind, Run.run_row,
      show setup.config.exit? (s.iterate.standing b.1 b.2 exhausted) = some exit from test]
    exact ⟨_, rfl⟩
  next {exhausted s s' o o' j j'} completed := by
    rw [turnBy, Run.run_bind, Run.run_attempt] at completed
    rcases evaluated : (oracle.gradient s.iterate.point).run o with ⟨fault | ⟨value, g⟩, o₁⟩ <;>
      rw [evaluated] at completed
    · cases completed
    simp only [Run.run_bind, Run.run_row] at completed
    cases test : setup.config.exit? (s.iterate.standing value g exhausted) with
    | some exit =>
        rw [test] at completed
        cases completed
    | none =>
    rw [test] at completed
    simp only [Run.run_asked] at completed
    split at completed
    · cases directed : direction setup.config s value g with
      | error fault =>
          rw [directed] at completed
          cases completed
      | ok found =>
          rw [directed] at completed
          exact finds_of_searchingBy (m := scheme setup oracle) evaluated test
            (bind_eq_ok.2 ⟨found, directed, rfl⟩) completed
    · cases completed

end

section

variable {α : Type} [ExactField α] {n : Nat} (roots : ∀ a : α, 0 ≤ a → 0 ≤ Scalar.sqrt a)
  (root : Scalar.sqrt (0 : α) = 0)

include roots root

theorem Iterate.exit?_advance_zero {c : Config α} (positive : 0 < c.argumentImprovementTolerance)
    {i : Iterate α n} {value : α} {g : Vector α n} {exhausted : Bool}
    (untested : c.exit? (i.standing value g exhausted) = none) (p : Vector α n) (exhausted' : Bool) :
    c.exit? ((i.advance value g p 0).standing value g exhausted') = some .argumentTolerance := by
  obtain ⟨passes, -⟩ := Config.passes_of_exit?_none untested
  have gradient : c.smallGradient ((i.advance value g p 0).standing value g exhausted') = false := passes.gradient
  have improvement : c.smallImprovement ((i.advance value g p 0).standing value g exhausted') = false := by
    simp only [Config.smallImprovement, standing, accepted, advance, lt_irrefl, ↓reduceIte, Option.any_none]
  have short : c.shortStep ((i.advance value g p 0).standing value g exhausted') = true := by
    have length : Vec.norm ((0 : α) * p : Vector α n) = 0 := by
      rw [Vec.norm, Vec.dot_eq_dotProduct, Vec.get_smul, zero_smul, zero_dotProduct, root]
    have room : 0 < c.argumentImprovementTolerance * (Vec.norm (i.advance value g p 0).point +
        c.argumentImprovementTolerance) :=
      mul_pos positive (add_pos_of_nonneg_of_pos (roots _ (Vec.dot_self_nonneg _)) positive)
    simp only [Config.shortStep, standing, advance, Option.any_some, length]
    exact decide_eq_true room
  rw [Config.exit?, if_neg (by rw [ExactField.isNaN_eq]; decide), if_neg (by rw [ExactField.isInfinite_eq]; decide),
    gradient, if_neg (by decide), improvement, if_neg (by decide), short, if_pos rfl]

end

section

variable {σ α ι β : Type} {n : Nat} {Good : σ → Prop} {search : Searcher σ α n} (keeps : search.Keeps Good)

include keeps

theorem Finds.good [Scalar α] {setup : RunSetup α n} {m : Scheme σ α n ι β} {exhausted : Bool} {s s' : ι}
    {o o' : σ} {result : SearchResult α} {derivatives : Vector α n → Except (Fault α) β}
    (evaluates : Eval.Means m.evaluate Good derivatives) (good : Good o)
    (finds : Finds setup m search exhausted s o result s' o') : Good o' := by
  cases finds with
  | moved evaluated _ _ searched => exact keeps (evaluates.unique good evaluated).2 searched

variable [ExactField α] {setup : RunSetup α n} {m : Scheme σ α n ι β} {s s' : ι} {o o' : σ}
  {derivatives : Vector α n → Except (Fault α) β} {exhausted : Bool} {result : SearchResult α}

theorem Finds.stops (roots : ∀ a : α, 0 ≤ a → 0 ≤ Scalar.sqrt a) (root : Scalar.sqrt (0 : α) = 0)
    (positive : 0 < setup.config.argumentImprovementTolerance)
    (evaluates : Eval.Means m.evaluate Good derivatives) (good : Good o)
    (finds : Finds setup m search exhausted s o result s' o') (failed : result.step = 0) :
    m.point s' = m.point s ∧ ∃ b o'', (m.evaluate (m.point s')).run o' = (.ok b, o'') ∧ ∀ exhausted',
      setup.config.exit? ((m.iterate s').standing (m.value b) (m.gradient b) exhausted') =
        some .argumentTolerance := by
  have good' := finds.good keeps evaluates good
  cases finds with
  | @moved b p start s₁ o₁ o' evaluated untested directed searched =>
      have stays : m.point (m.moved s₁ b
          ((m.iterate s₁).advance (m.value b) (m.gradient b) p result.step)) = m.point s := by
        rw [Scheme.point, m.iterate_moved, failed, m.iterate_of_direct directed]
        exact add_zero_mul _ p
      obtain ⟨o'', again, -⟩ := evaluates (m.point s) o' good'
      rw [(evaluates.unique good evaluated).1] at again
      refine ⟨stays, b, o'', stays.symm ▸ again, fun exhausted' => ?_⟩
      rw [m.iterate_moved, m.iterate_of_direct directed, failed]
      exact Iterate.exit?_advance_zero roots root positive untested p exhausted'

end

section

variable {σ α ι β : Type} {n : Nat}

inductive SearchedBy [Scalar α] (setup : RunSetup α n) (m : Scheme σ α n ι β) (search : Searcher σ α n)
    (turn : Bool → ι → Run σ α n (Turn α ι)) (start : Station ι σ α n) :
    List (Vector α n × α) → Station ι σ α n → Prop
  | start : SearchedBy setup m search turn start [] start
  | next {searches : List (Vector α n × α)} {c c' : Station ι σ α n} {result : SearchResult α}
      (before : SearchedBy setup m search turn start searches c)
      (finds : Finds setup m search false c.1 c.2.1 result c'.1 c'.2.1)
      (completed : (turn false c.1).run c.2 = (.next c'.1, c'.2)) :
      SearchedBy setup m search turn start (searches ++ [(m.point c.1, result.step)]) c'

variable {setup : RunSetup α n} {search : Searcher σ α n} {turn : Bool → ι → Run σ α n (Turn α ι)}
  {start c : Station ι σ α n} {searches : List (Vector α n × α)}

theorem TurningBy.searchedBy [Scalar α] {m : Scheme σ α n ι β} (turning : TurningBy setup m search turn)
    {k : Nat} (goes : Goes turn start k c) :
    ∃ searches, SearchedBy setup m search turn start searches c ∧ searches.length = k := by
  induction goes with
  | start => exact ⟨[], .start, rfl⟩
  | next _ completed ih =>
      obtain ⟨searches, before, count⟩ := ih
      obtain ⟨result, finds⟩ := turning.next completed
      exact ⟨_, before.next finds completed, by rw [List.length_append, count, List.length_singleton]⟩

theorem TurningBy.ends [Scalar α] {m : Scheme σ α n ι β} (turning : TurningBy setup m search turn) (s : ι)
    (c : σ × Journal α n) (s' : ι) (c' : σ × Journal α n) : (turn true s).run c ≠ (.next s', c') := by
  intro next
  obtain ⟨result, finds⟩ := turning.next next
  cases finds with
  | moved _ untested _ _ => exact Config.exit?_exhausted _ _ rfl untested

theorem SearchedBy.goes [Scalar α] {m : Scheme σ α n ι β}
    (searched : SearchedBy setup m search turn start searches c) :
    Goes turn start searches.length c := by
  induction searched with
  | start => exact .start
  | next _ _ completed ih =>
      rw [List.length_append]
      exact ih.next completed

theorem SearchedBy.iterations [Scalar α] {m : Scheme σ α n ι β}
    (searched : SearchedBy setup m search turn start searches c) :
    (m.iterate c.1).iterations = (m.iterate start.1).iterations + searches.length := by
  induction searched with
  | start => simp
  | @next searches c c' result _ finds _ ih =>
      generalize c'.1 = s', c'.2.1 = o' at finds
      cases finds with
      | moved _ _ directed _ =>
          rw [m.iterate_moved, m.iterate_of_direct directed, Iterate.advance, ih]
          simp [add_assoc]

variable [ExactField α] {m : Scheme σ α n ι β} {Good : σ → Prop}
  {derivatives : Vector α n → Except (Fault α) β} (roots : ∀ a : α, 0 ≤ a → 0 ≤ Scalar.sqrt a)
  (root : Scalar.sqrt (0 : α) = 0) (positive : 0 < setup.config.argumentImprovementTolerance)
  (keeps : search.Keeps Good) (turning : TurningBy setup m search turn)
  (evaluates : Eval.Means m.evaluate Good derivatives) (good : Good start.2.1)

include roots root positive keeps turning evaluates good

theorem SearchedBy.failed_last (searched : SearchedBy setup m search turn start searches c) :
    Good c.2.1 ∧ ∀ i x, searches[i]? = some (x, 0) → i + 1 = searches.length ∧ m.point c.1 = x ∧
      ∀ exhausted, ∃ c', (turn exhausted c.1).run c.2 = (.stop .argumentTolerance c.1, c') := by
  induction searched with
  | start => exact ⟨good, fun _ _ failed => by cases failed⟩
  | @next searches c c' result before finds completed ih =>
      obtain ⟨good₁, last⟩ := ih
      refine ⟨finds.good keeps evaluates good₁, fun i x failed => ?_⟩
      obtain earlier | ⟨rfl, same⟩ := getElem?_concat_eq_some.1 failed
      · obtain ⟨-, -, stops⟩ := last i x earlier
        obtain ⟨c'', stopped⟩ := stops false
        cases stopped.symm.trans completed
      · obtain ⟨rfl, zero⟩ := Prod.mk.inj same
        obtain ⟨stays, b, o'', evaluated, tests⟩ :=
          finds.stops keeps roots root positive evaluates good₁ zero
        refine ⟨by rw [List.length_append, List.length_singleton], stays, fun exhausted => ?_⟩
        obtain ⟨j', stopped⟩ := turning.tested c'.2.2 evaluated (tests exhausted)
        exact ⟨(o'', j'), stopped⟩

theorem SearchedBy.ends {i : Nat} {x : Vector α n} (searched : SearchedBy setup m search turn start searches c)
    (failed : searches[i]? = some (x, 0)) {left : Nat} (within : searches.length ≤ left) :
    ∃ c', (Run.repeatTurn turn left start.1).run start.2 = (.ok (.argumentTolerance, c.1), c') := by
  obtain ⟨-, -, stops⟩ :=
    (searched.failed_last roots root positive keeps turning evaluates good).2 i x failed
  obtain ⟨rest, rfl⟩ := Nat.exists_eq_add_of_le within
  obtain ⟨c', stopped⟩ := stops (rest = 0)
  exact ⟨c', (searched.goes.repeatTurn_eq rest).trans (repeatTurn_of_stop stopped)⟩

end

theorem RunSetup.keeps_searcher {σ α : Type} [Scalar α] {n : Nat} {setup : RunSetup α n} {oracle : Oracle σ α n}
    {Good : σ → Prop} {value : Vector α n → Except (Fault α) α} (means : Eval.Means oracle.value Good value) :
    (setup.searcher oracle).Keeps Good :=
  fun good searched => (LineSearch.run_search means good searched).1

namespace Objective

open Registry

/-- A solver with these iterations has at most one search that fails: it is the last one, and the run ends with
the next test, at the same point. So does a solve, which counts that search. -/
structure FailsOnce {α : Type} [Scalar α] (f : Objective α) (m : Memory α) {ι β : Type}
    (setup : RunSetup α f.scalars) (S : Scheme (Workspace α) α f.scalars ι β)
    (search : Searcher (Workspace α) α f.scalars)
    (turn : Bool → ι → Run (Workspace α) α f.scalars (Turn α ι)) (initial : Vector α f.scalars → ι)
    (iterations : Int) : Prop where
  run : ∀ {x w searches c}, w.Coherent f.toRegistry →
    SearchedBy setup S search turn (initial x, w, ⟨[], []⟩) searches c →
    searches.length ≤ Run.remaining setup.config iterations → ∀ i y, searches[i]? = some (y, 0) →
      i + 1 = searches.length ∧ S.point c.1 = y ∧
        (S.iterate c.1).iterations = iterations + searches.length ∧
        ∃ c', (Run.repeatTurn turn (Run.remaining setup.config iterations) (initial x)).run (w, ⟨[], []⟩) =
          (.ok (.argumentTolerance, c.1), c')
  solve : ∀ {after solution w start state},
    Minimization.Course f.toRegistry turn initial S.iterate (Run.remaining setup.config iterations)
      ⟨f.workspace, m⟩ after solution w start state →
    ∃ searches c, SearchedBy setup S search turn (initial start, w, ⟨[], []⟩) searches c ∧
      (∃ c', (turn (searches.length = Run.remaining setup.config iterations) c.1).run c.2 =
        (.stop solution.exit state, c')) ∧
      ∀ i y, searches[i]? = some (y, 0) → i + 1 = searches.length ∧ S.point state = y ∧
        solution.iterations = iterations + searches.length ∧ solution.exit = .argumentTolerance

section

variable {α : Type} [ExactField α] {f : Objective α} {m : Memory α} {ι β : Type}
  {setup : RunSetup α f.scalars} {S : Scheme (Workspace α) α f.scalars ι β}
  {search : Searcher (Workspace α) α f.scalars}
  {turn : Bool → ι → Run (Workspace α) α f.scalars (Turn α ι)} {initial : Vector α f.scalars → ι}
  {iterations : Int} {derivatives : Vector α f.scalars → Except (Fault α) β}

theorem failsOnce_of_turningBy (roots : ∀ a : α, 0 ≤ a → 0 ≤ Scalar.sqrt a) (root : Scalar.sqrt (0 : α) = 0)
    (positive : 0 < setup.config.argumentImprovementTolerance)
    (keeps : search.Keeps (·.Coherent f.toRegistry)) (turning : TurningBy setup S search turn)
    (evaluates : Eval.Means S.evaluate (·.Coherent f.toRegistry) derivatives)
    (counts : ∀ x, (S.iterate (initial x)).iterations = iterations) :
    f.FailsOnce m setup S search turn initial iterations where
  run {x w searches c} coherent searched within i y failed := by
    have start : (initial x, w, (⟨[], []⟩ : Journal α f.scalars)).2.1.Coherent f.toRegistry := coherent
    obtain ⟨last, stays, -⟩ :=
      (searched.failed_last roots root positive keeps turning evaluates start).2 i y failed
    refine ⟨last, stays, ?_, searched.ends roots root positive keeps turning evaluates start failed within⟩
    rw [searched.iterations, counts]
  solve {after solution w start state} course := by
    obtain ⟨journal, ran, -⟩ := course.ran
    obtain ⟨k, s, c, goes, within, last⟩ := repeatTurn_goes turning.ends ran
    obtain ⟨searches, searched, rfl⟩ := turning.searchedBy goes
    refine ⟨searches, (s, c), searched, ⟨_, last⟩, fun i y failed => ?_⟩
    obtain ⟨behind, stays, stops⟩ := (searched.failed_last roots root positive keeps turning evaluates
      course.coherent).2 i y failed
    obtain ⟨c', stopped⟩ := stops (searches.length = Run.remaining setup.config iterations)
    have ended : lastTurn (.ok (solution.exit, state)) = Turn.stop .argumentTolerance s :=
      congrArg Prod.fst (last.symm.trans stopped)
    obtain ⟨exit, rfl⟩ := Turn.stop.inj ended
    refine ⟨behind, stays, ?_, exit⟩
    rw [course.counted, searched.iterations, counts]

end

/-- In exact arithmetic, with any search that gives zero wherever it likes and along any direction: where the
tolerance of the argument is positive, neither solver has a search that fails before its last one. What the
solvers search with is such a search. -/
theorem Reachable.failed_search_last {α : Type} [ExactField α] {f : Objective α} (reached : Reachable f)
    (roots : ∀ a : α, 0 ≤ a → 0 ≤ Scalar.sqrt a) (root : Scalar.sqrt (0 : α) = 0)
    {setup : RunSetup α f.scalars} (positive : 0 < setup.config.argumentImprovementTolerance) (iterations : Int)
    (m : Memory α) :
    (∀ search : Searcher (Workspace α) α f.scalars, search.Keeps (·.Coherent f.toRegistry) →
      (∀ rule sparse, f.FailsOnce m setup (Newton.scheme setup (f.oracle m sparse) rule) search
        (Newton.turnBy search setup (f.oracle m sparse) rule) (fun x => ⟨.start x iterations, []⟩) iterations) ∧
      f.FailsOnce m setup (Lbfgs.scheme setup (f.oracle m false)) search
        (Lbfgs.turnBy search setup (f.oracle m false))
        (fun x => ⟨.start x iterations, .empty setup.config.historySize, none⟩) iterations) ∧
    (∀ sparse, (setup.searcher (f.oracle m sparse)).Keeps (·.Coherent f.toRegistry)) ∧
    ∀ solution after,
      (∀ rule, StateT.run (ExceptT.run (f.minimization setup iterations (.newton rule))) ⟨f.workspace, m⟩ =
        (.ok solution, after) → ∃ sparse w start state, Minimization.Course f.toRegistry
          (Newton.turnBy (setup.searcher (f.oracle m sparse)) setup (f.oracle m sparse) rule)
          (fun x => ⟨.start x iterations, []⟩) Newton.State.iterate (Run.remaining setup.config iterations)
          ⟨f.workspace, m⟩ after solution w start state) ∧
      (StateT.run (ExceptT.run (f.minimization setup iterations .lbfgs)) ⟨f.workspace, m⟩ =
        (.ok solution, after) → ∃ w start state, Minimization.Course f.toRegistry
          (Lbfgs.turnBy (setup.searcher (f.oracle m false)) setup (f.oracle m false))
          (fun x => ⟨.start x iterations, .empty setup.config.historySize, none⟩) Lbfgs.State.iterate
          (Run.remaining setup.config iterations) ⟨f.workspace, m⟩ after solution w start state) := by
  refine ⟨fun search keeps => ⟨fun rule sparse => ?_, ?_⟩, fun sparse => ?_, fun solution after => ⟨?_, ?_⟩⟩
  · exact failsOnce_of_turningBy roots root positive keeps (Newton.turningBy rule)
      (means_hessian f.toRegistry m sparse) fun _ => rfl
  · exact failsOnce_of_turningBy roots root positive keeps Lbfgs.turningBy
      (means_gradient f.toRegistry m false) fun _ => rfl
  · exact RunSetup.keeps_searcher (means_value f.toRegistry m sparse)
  · intro rule ran
    obtain ⟨sparse, w, start, state, -, course⟩ := Minimization.newton_course reached.coherent ran
    exact ⟨sparse, w, start, state, Newton.turnBy_searcher setup (f.oracle m sparse) rule ▸ course⟩
  · intro ran
    obtain ⟨start, state, course⟩ := Minimization.lbfgs_course reached.coherent ran
    exact ⟨_, start, state, Lbfgs.turnBy_searcher setup (f.oracle m false) ▸ course⟩

def idle {σ : Type} {n : Nat} : Searcher σ ℚ n := fun _ _ _ _ _ => return .notDescent 0

def squareTurn : Bool → Lbfgs.State ℚ square.scalars →
    Run (Workspace ℚ) ℚ square.scalars (Turn ℚ (Lbfgs.State ℚ square.scalars)) :=
  Lbfgs.turnBy idle squareSetup (square.oracle three false)

def squareStart : Lbfgs.State ℚ square.scalars :=
  ⟨.start ⟨#[3], rfl⟩ 0, .empty squareSetup.config.historySize, none⟩

theorem square_idle : ∃ s c', (Run.repeatTurn squareTurn (Run.remaining squareSetup.config 0) squareStart).run
    (square.workspace, ⟨[], []⟩) = (.ok (.argumentTolerance, s), c') ∧ s.iterate.point.toList = [3] ∧
      s.iterate.iterations = 1 := by
  have keeps : (idle : Searcher (Workspace ℚ) ℚ square.scalars).Keeps (·.Coherent square.toRegistry) := by
    intro x value g p start o outcome o' good searched
    cases searched
    exact good
  have positive : 0 < squareSetup.config.argumentImprovementTolerance := by decide +kernel
  have within : 1 ≤ Run.remaining squareSetup.config 0 := by decide +kernel
  have goes : ((squareTurn false squareStart).run (square.workspace, ⟨[], []⟩)).1.next?.isSome = true := by
    decide +kernel
  obtain ⟨fails, -⟩ := Reachable.failed_search_last reachable_square (fun a _ => Rat.sqrt_nonneg a)
    (by decide +kernel) positive 0 three
  rcases completed : (squareTurn false squareStart).run (square.workspace, ⟨[], []⟩) with ⟨turn, o', j'⟩
  rw [completed] at goes
  cases turn with
  | stop _ _ | abandon _ => cases goes
  | next s' =>
      obtain ⟨result, finds⟩ := Lbfgs.turningBy.next completed
      have zero : result.step = 0 := by
        cases finds with
        | moved _ _ _ searched =>
            cases searched
            rfl
      have searched : SearchedBy squareSetup _ idle squareTurn (squareStart, square.workspace, ⟨[], []⟩)
          ([] ++ [(_, result.step)]) (s', o', j') := .next .start finds completed
      obtain ⟨-, stays, counted, c', ran⟩ := (fails idle keeps).2.run reachable_square.coherent searched within 0 _
        (congrArg some (Prod.ext rfl zero))
      exact ⟨s', c', ran, congrArg Vector.toList stays, counted⟩

end Objective

end Descent
