import Mathlib
import Descent.Run.Lbfgs
import Descent.Run.Newton
import Descent.Proofs.Computation

/-!
# Iterations

An iteration of either solver evaluates the function, tests whether to stop, asks the caller, finds a
direction and searches along it. What a solver does in its own way is its `Scheme`; what an iteration can
come to is `Passage`, for all schemes (`Newton.passage`, `Lbfgs.passage`). A run is a chain of completed
iterations and one that ends it (`Run.repeatTurn_ends`).
-/

namespace Descent

def Eval.run {σ α β : Type} (e : Eval σ α β) (o : σ) : Except (Fault α) β × σ :=
  StateT.run (ExceptT.run e) o

/-! ## What one iteration does -/

/-- What the solvers do each in its own way: `ι` is the state between iterations, `β` what an evaluation
gives. -/
structure Scheme (σ α : Type) [Scalar α] (n : Nat) (ι β : Type) where
  evaluate : Vector α n → Eval σ α β
  value : β → α
  gradient : β → Vector α n
  hessian : β → Option (Hessian α n)
  iterate : ι → Iterate α n
  direct : ι → β → Except (Fault α) (Vector α n × α × ι)
  refused : Fault α → ι → Turn α ι
  moved : ι → β → Iterate α n → ι
  iterate_of_direct : ∀ {s b p start s'}, direct s b = .ok (p, start, s') → iterate s' = iterate s
  refused_eq : ∀ fault s, refused fault s = .stop .internalError s ∨ refused fault s = .abandon fault
  iterate_moved : ∀ s b i, iterate (moved s b i) = i

namespace Scheme

variable {σ α ι β : Type} [Scalar α] {n : Nat}

def point (m : Scheme σ α n ι β) (s : ι) : Vector α n := (m.iterate s).point

def sight (m : Scheme σ α n ι β) (s : ι) (b : β) : Sight α n :=
  ⟨m.value b, m.point s, m.gradient b, m.hessian b⟩

end Scheme

section

variable {σ α ι β : Type} [Scalar α] {n : Nat} (setup : RunSetup α n) (oracle : Oracle σ α n)
  (m : Scheme σ α n ι β) (exhausted : Bool) (s : ι) (o : σ) (seen : List (Sight α n))

structure Continues (b : β) (o₁ : σ) : Prop where
  evaluated : (m.evaluate (m.point s)).run o = (.ok b, o₁)
  untested : setup.config.exit? ((m.iterate s).standing (m.value b) (m.gradient b) exhausted) = none
  proceeds : setup.proceed (seen.length + 1) (m.sight s b) = true

structure Searches (b : β) (p : Vector α n) (s' : ι)
    (outcome : Except (Fault α) (SearchResult α)) (o' : σ) : Prop where
  directed : ∃ o₁ start, Continues setup m exhausted s o seen b o₁ ∧
    m.direct s b = .ok (p, start, s') ∧
    (LineSearch.search setup.config setup.searchBudget oracle.value (m.point s) (m.value b)
      (m.gradient b) p start).run o₁ = (outcome, o')

/-- What an iteration comes to: how it ends, the state of the oracle then, and what the caller has seen. -/
inductive Passage : Turn α ι × σ × List (Sight α n) → Prop
  | unevaluated {fault : Fault α} {o' : σ} (failed : (m.evaluate (m.point s)).run o = (.error fault, o')) :
      Passage (.stop .internalError s, o', seen)
  | tested {b : β} {o' : σ} {exit : ExitCondition}
      (evaluated : (m.evaluate (m.point s)).run o = (.ok b, o'))
      (test : setup.config.exit? ((m.iterate s).standing (m.value b) (m.gradient b) exhausted) =
        some exit) :
      Passage (.stop exit s, o', seen)
  | aborted {b : β} {o' : σ} (evaluated : (m.evaluate (m.point s)).run o = (.ok b, o'))
      (untested : setup.config.exit? ((m.iterate s).standing (m.value b) (m.gradient b) exhausted) =
        none)
      (halted : setup.proceed (seen.length + 1) (m.sight s b) = false) :
      Passage (.stop .userAbort s, o', seen ++ [m.sight s b])
  | undirected {b : β} {o' : σ} {fault : Fault α}
      (continues : Continues setup m exhausted s o seen b o') (failed : m.direct s b = .error fault) :
      Passage (m.refused fault s, o', seen ++ [m.sight s b])
  | interrupted {b : β} {p : Vector α n} {s' : ι} {fault : Fault α} {o' : σ}
      (searches : Searches setup oracle m exhausted s o seen b p s' (.error fault) o') :
      Passage (.stop .internalError s', o', seen ++ [m.sight s b])
  | unfinished {b : β} {p : Vector α n} {s' : ι} {result : SearchResult α} {o' : σ}
      (searches : Searches setup oracle m exhausted s o seen b p s' (.ok result) o')
      (pending : result.isFinished = false) :
      Passage (.stop .na s', o', seen ++ [m.sight s b])
  | completed {b : β} {p : Vector α n} {s' : ι} {result : SearchResult α} {o' : σ}
      (searches : Searches setup oracle m exhausted s o seen b p s' (.ok result) o')
      (finished : result.isFinished = true) :
      Passage
        (.next (m.moved s' b ((m.iterate s').advance (m.value b) (m.gradient b) p result.step)),
          o', seen ++ [m.sight s b])

end

def observed {σ α ι : Type} {n : Nat} : Turn α ι × σ × Journal α n → Turn α ι × σ × List (Sight α n)
  | (turn, o, j) => (turn, o, j.sights)

/-! ## Both solvers -/

namespace Run

variable {σ α : Type} {n : Nat}

def run {γ : Type} (r : Run σ α n γ) (c : σ × Journal α n) : γ × σ × Journal α n :=
  Id.run (StateT.run r c)

theorem run_bind {γ δ : Type} (x : Run σ α n γ) (next : γ → Run σ α n δ) (c : σ × Journal α n) :
    run (x >>= next) c = (next (x.run c).1).run (x.run c).2 := rfl

theorem run_pure {γ : Type} (a : γ) (c : σ × Journal α n) : run (pure a) c = (a, c) := rfl

variable {o : σ} {j : Journal α n}

theorem run_log (entries : List (Entry α)) :
    run (log entries) (o, j) = ((), o, { j with entries := j.entries ++ entries }) := rfl

theorem run_attempt {γ : Type} (e : Eval σ α γ) :
    run (attempt e) (o, j) = ((e.run o).1, (e.run o).2, j) := rfl

theorem run_row (header line : Message α) (index : Nat) :
    run (row header line index) (o, j) = ((), o, ⟨j.entries ++
      (Table.row header line index).map (fun message => ⟨.progress, message⟩), j.sights⟩) := rfl

theorem run_asked {γ : Type} (setup : RunSetup α n) (sight : Sight α n) (go halt : Run σ α n γ) :
    run (do if ← shown setup sight then go else halt) (o, j) =
      run (if setup.proceed (j.sights.length + 1) sight = true then go else halt)
        (o, { j with sights := j.sights ++ [sight] }) := rfl

end Run

section

variable {σ α : Type} [Scalar α] {n : Nat} (setup : RunSetup α n) (oracle : Oracle σ α n)

def Newton.scheme (rule : Newton.StepRule α n) :
    Scheme σ α n (Newton.State α n) (α × Vector α n × Hessian α n) where
  evaluate := oracle.hessian
  value b := b.1
  gradient b := b.2.1
  hessian b := some b.2.2
  iterate := Newton.State.iterate
  direct s b := do
    let step ← rule b.2.2 b.2.1
    return (step.direction, setup.config.startStep, { s with shifts := s.shifts ++ [step.shift] })
  refused _ s := .stop .internalError s
  moved s _ iterate := { s with iterate }
  iterate_of_direct directed := by
    obtain ⟨step, -, directed⟩ := bind_eq_ok.1 directed
    cases directed
    rfl
  refused_eq _ _ := .inl rfl
  iterate_moved _ _ _ := rfl

def Lbfgs.scheme : Scheme σ α n (Lbfgs.State α n) (α × Vector α n) where
  evaluate := oracle.gradient
  value b := b.1
  gradient b := b.2
  hessian _ := none
  iterate := Lbfgs.State.iterate
  direct s b := do
    let search ← Lbfgs.direction setup.config s b.1 b.2
    return (search.direction, search.start, { s with history := search.history })
  refused fault _ := .abandon fault
  moved s b iterate := { s with iterate, last := some (s.iterate.point, b.2) }
  iterate_of_direct directed := by
    obtain ⟨search, -, directed⟩ := bind_eq_ok.1 directed
    cases directed
    rfl
  refused_eq _ _ := .inr rfl
  iterate_moved _ _ _ := rfl

def searching {ι β : Type} (m : Scheme σ α n ι β) (solver : Solver) (s : ι) (b : β) (p : Vector α n)
    (start : α) (s' : ι) (entries : List (Entry α)) : Run σ α n (Turn α ι) := do
  Run.log entries
  match ← Run.attempt (LineSearch.search setup.config setup.searchBudget oracle.value (m.point s)
      (m.value b) (m.gradient b) p start) with
  | .error fault => Run.failed solver .lineSearch fault s'
  | .ok result =>
      Run.log result.entries
      if result.isFinished then
        return .next
          (m.moved s' b ((m.iterate s').advance (m.value b) (m.gradient b) p result.step))
      else return .stop .na s'

variable {setup oracle} {exhausted : Bool} {o : σ} {j : Journal α n}

theorem passage_searching {ι β : Type} {m : Scheme σ α n ι β} {solver : Solver} {s s' : ι} {b : β}
    {p : Vector α n} {start : α} {o₁ : σ} {seen : List (Sight α n)} {entries : List (Entry α)}
    (continues : Continues setup m exhausted s o seen b o₁)
    (directed : m.direct s b = .ok (p, start, s')) {written : List (Entry α)} :
    Passage setup oracle m exhausted s o seen (observed
      ((searching setup oracle m solver s b p start s' entries).run
        (o₁, ⟨written, seen ++ [m.sight s b]⟩))) := by
  rw [searching, Run.run_bind, Run.run_log]
  simp only [Run.run_bind, Run.run_attempt]
  rcases searched : (LineSearch.search setup.config setup.searchBudget oracle.value (m.point s)
      (m.value b) (m.gradient b) p start).run o₁ with ⟨outcome, o₂⟩
  have searches : Searches setup oracle m exhausted s o seen b p s' outcome o₂ :=
    ⟨o₁, start, continues, directed, searched⟩
  cases outcome with
  | error fault => exact .interrupted searches
  | ok result =>
      by_cases finished : result.isFinished = true
      · simp only [Run.run_bind, Run.run_log, if_pos finished]
        exact .completed searches finished
      · simp only [Run.run_bind, Run.run_log, if_neg finished]
        exact .unfinished searches (Bool.eq_false_of_not_eq_true finished)

theorem Newton.passage {rule : Newton.StepRule α n} {s : Newton.State α n} :
    Passage setup oracle (Newton.scheme setup oracle rule) exhausted s o j.sights
      (observed ((Newton.turn setup oracle rule exhausted s).run (o, j))) := by
  rw [Newton.turn, Run.run_bind, Run.run_attempt]
  rcases evaluated : (oracle.hessian s.iterate.point).run o with ⟨fault | ⟨value, g, h⟩, o₁⟩
  · exact .unevaluated evaluated
  simp only [Run.run_bind, Run.run_row]
  cases test : setup.config.exit? (s.iterate.standing value g exhausted) with
  | some exit => exact .tested evaluated test
  | none =>
  rw [Run.run_asked]
  cases answer : setup.proceed (j.sights.length + 1) ⟨value, s.iterate.point, g, some h⟩ with
  | false => exact .aborted (m := Newton.scheme setup oracle rule) (b := (value, g, h)) evaluated test answer
  | true =>
  have continues : Continues setup (Newton.scheme setup oracle rule) exhausted s o j.sights
      (value, g, h) o₁ := ⟨evaluated, test, answer⟩
  cases directed : rule h g with
  | error fault => exact .undirected continues (by simp only [Newton.scheme, directed]; rfl)
  | ok step => exact passage_searching continues (bind_eq_ok.2 ⟨step, directed, rfl⟩)

theorem Lbfgs.passage {s : Lbfgs.State α n} :
    Passage setup oracle (Lbfgs.scheme setup oracle) exhausted s o j.sights
      (observed ((Lbfgs.turn setup oracle exhausted s).run (o, j))) := by
  rw [Lbfgs.turn, Run.run_bind, Run.run_attempt]
  rcases evaluated : (oracle.gradient s.iterate.point).run o with ⟨fault | ⟨value, g⟩, o₁⟩
  · exact .unevaluated evaluated
  simp only [Run.run_bind, Run.run_row]
  cases test : setup.config.exit? (s.iterate.standing value g exhausted) with
  | some exit => exact .tested evaluated test
  | none =>
  rw [Run.run_asked]
  cases answer : setup.proceed (j.sights.length + 1) ⟨value, s.iterate.point, g, none⟩ with
  | false => exact .aborted (m := Lbfgs.scheme setup oracle) (b := (value, g)) evaluated test answer
  | true =>
  have continues : Continues setup (Lbfgs.scheme setup oracle) exhausted s o j.sights
      (value, g) o₁ := ⟨evaluated, test, answer⟩
  cases directed : Lbfgs.direction setup.config s value g with
  | error fault => exact .undirected continues (by simp only [Lbfgs.scheme, directed]; rfl)
  | ok search => exact passage_searching continues (bind_eq_ok.2 ⟨search, directed, rfl⟩)

end

/-! ## Runs -/

section

variable {σ α ι β : Type} [Scalar α] {n : Nat}

abbrev Station (ι σ α : Type) (n : Nat) := ι × σ × Journal α n

/-- The stations that a run goes through, with the number of iterations that were completed. -/
inductive Goes (turn : Bool → ι → Run σ α n (Turn α ι)) (start : Station ι σ α n) :
    Nat → Station ι σ α n → Prop
  | start : Goes turn start 0 start
  | next {k : Nat} {c c' : Station ι σ α n} (goes : Goes turn start k c)
      (completed : (turn false c.1).run c.2 = (.next c'.1, c'.2)) : Goes turn start (k + 1) c'

def Turning (setup : RunSetup α n) (oracle : Oracle σ α n) (m : Scheme σ α n ι β)
    (turn : Bool → ι → Run σ α n (Turn α ι)) : Prop :=
  ∀ exhausted s o (j : Journal α n),
    Passage setup oracle m exhausted s o j.sights (observed ((turn exhausted s).run (o, j)))

theorem Newton.turning (setup : RunSetup α n) (oracle : Oracle σ α n) (rule : Newton.StepRule α n) :
    Turning setup oracle (Newton.scheme setup oracle rule) (Newton.turn setup oracle rule) :=
  fun _ _ _ _ => Newton.passage

theorem Lbfgs.turning (setup : RunSetup α n) (oracle : Oracle σ α n) :
    Turning setup oracle (Lbfgs.scheme setup oracle) (Lbfgs.turn setup oracle) :=
  fun _ _ _ _ => Lbfgs.passage

variable {setup : RunSetup α n} {oracle : Oracle σ α n} {m : Scheme σ α n ι β}
  {turn : Bool → ι → Run σ α n (Turn α ι)}

omit [Scalar α] in
theorem Goes.head {s : ι} {c : σ × Journal α n} {c₁ c' : Station ι σ α n} {k : Nat}
    (completed : (turn false s).run c = (.next c₁.1, c₁.2)) (goes : Goes turn c₁ k c') :
    Goes turn (s, c) (k + 1) c' := by
  induction goes with
  | start => exact .next .start completed
  | next _ last ih => exact .next ih last

theorem Config.exit?_exhausted (c : Config α) (s : Standing α) (exhausted : s.exhausted = true) :
    c.exit? s ≠ none := by
  unfold Config.exit?
  split_ifs <;> nofun

theorem Passage.of_next {exhausted : Bool} {s s' : ι} {o o' : σ} {seen seen' : List (Sight α n)}
    (passage : Passage setup oracle m exhausted s o seen (.next s', o', seen')) :
    ∃ b p s₁ result, Searches setup oracle m exhausted s o seen b p s₁ (.ok result) o' ∧
      result.isFinished = true ∧ seen' = seen ++ [m.sight s b] ∧
      s' = m.moved s₁ b ((m.iterate s₁).advance (m.value b) (m.gradient b) p result.step) := by
  generalize ended : (Turn.next s', o', seen') = outcome at passage
  cases passage with
  | completed searches finished =>
      cases ended
      exact ⟨_, _, _, _, searches, finished, rfl, rfl⟩
  | @undirected _ _ fault _ _ =>
      rcases m.refused_eq fault s with refused | refused <;> rw [refused] at ended <;> cases ended
  | _ => cases ended

theorem Searches.unique {exhausted : Bool} {s s₁ s₂ : ι} {o o₁ o₂ : σ} {seen : List (Sight α n)} {b b' : β}
    {p p' : Vector α n} {outcome outcome' : Except (Fault α) (SearchResult α)}
    (first : Searches setup oracle m exhausted s o seen b p s₁ outcome o₁)
    (second : Searches setup oracle m exhausted s o seen b' p' s₂ outcome' o₂) :
    b = b' ∧ p = p' ∧ outcome = outcome' := by
  obtain ⟨o₃, start, continues, directed, searched⟩ := first
  obtain ⟨o₄, start', continues', directed', searched'⟩ := second
  cases continues.evaluated.symm.trans continues'.evaluated
  cases directed.symm.trans directed'
  exact ⟨rfl, rfl, (Prod.mk.inj (searched.symm.trans searched')).1⟩

theorem Passage.advance_of_next {exhausted : Bool} {s s' : ι} {o o' : σ} {seen seen' : List (Sight α n)}
    (passage : Passage setup oracle m exhausted s o seen (.next s', o', seen')) :
    ∃ b p s₁ result, Searches setup oracle m exhausted s o seen b p s₁ (.ok result) o' ∧
      m.iterate s' = (m.iterate s).advance (m.value b) (m.gradient b) p result.step := by
  obtain ⟨b, p, s₁, result, searches, -, -, rfl⟩ := passage.of_next
  obtain ⟨o₁, start, -, directed, -⟩ := id searches
  exact ⟨b, p, s₁, result, searches, by rw [m.iterate_moved, m.iterate_of_direct directed]⟩

theorem Goes.iterations (turning : Turning setup oracle m turn) {start c : Station ι σ α n} {k : Nat}
    (goes : Goes turn start k c) : (m.iterate c.1).iterations = (m.iterate start.1).iterations + k := by
  induction goes with
  | start => simp
  | @next k c₁ c goes completed ih =>
      have passage := turning false c₁.1 c₁.2.1 c₁.2.2
      rw [completed] at passage
      obtain ⟨b, p, s₁, result, -, advanced⟩ := passage.advance_of_next
      rw [advanced, Iterate.advance, ih]
      push_cast
      ring

theorem Passage.iterate_of_stop {exhausted : Bool} {exit : ExitCondition} {s s' : ι} {o o' : σ}
    {seen seen' : List (Sight α n)}
    (passage : Passage setup oracle m exhausted s o seen (.stop exit s', o', seen')) :
    m.iterate s' = m.iterate s := by
  generalize ended : (Turn.stop exit s', o', seen') = outcome at passage
  cases passage with
  | @undirected _ _ fault _ _ =>
      rcases m.refused_eq fault s with refused | refused <;> rw [refused] at ended <;> cases ended
      rfl
  | interrupted searches | unfinished searches _ =>
      cases ended
      obtain ⟨o₁, start, -, directed, -⟩ := searches
      exact m.iterate_of_direct directed
  | completed _ _ => cases ended
  | _ =>
      cases ended
      rfl

theorem Passage.not_exhausted {s s' : ι} {o o' : σ} {seen seen' : List (Sight α n)}
    (passage : Passage setup oracle m true s o seen (.next s', o', seen')) : False := by
  obtain ⟨b, p, s₁, result, ⟨o₁, start, continues, -⟩, -⟩ := passage.of_next
  exact Config.exit?_exhausted _ _ rfl continues.untested

def lastTurn : Except (Fault α) (ExitCondition × ι) → Turn α ι
  | .ok (exit, s) => .stop exit s
  | .error fault => .abandon fault

omit [Scalar α] in
/-- Where the last iteration that is left always ends the run, a run completes some iterations and ends with one
that gives its result. It is the last that is left exactly if no more than those were. -/
theorem repeatTurn_goes (ends : ∀ s c s' c', (turn true s).run c ≠ (.next s', c')) {left : Nat} {s : ι}
    {c c' : σ × Journal α n} {result : Except (Fault α) (ExitCondition × ι)}
    (ran : (Run.repeatTurn turn left s).run c = (result, c')) :
    ∃ k s₁ c₁, Goes turn (s, c) k (s₁, c₁) ∧ k ≤ left ∧
      (turn (k = left) s₁).run c₁ = (lastTurn result, c') := by
  induction left generalizing s c with
  | zero =>
      refine ⟨0, s, c, .start, le_rfl, ?_⟩
      rcases last : (turn true s).run c with ⟨⟨exit, s'⟩ | s' | fault, c₁⟩
      · rw [Run.repeatTurn, Run.run_bind, last] at ran
        cases ran
        exact last
      · exact absurd last (ends s c s' c₁)
      · rw [Run.repeatTurn, Run.run_bind, last] at ran
        cases ran
        exact last
  | succ left ih =>
      rcases first : (turn false s).run c with ⟨⟨exit, s'⟩ | s' | fault, c₁⟩
      · rw [Run.repeatTurn, Run.run_bind, first] at ran
        cases ran
        exact ⟨0, s, c, .start, Nat.zero_le _, first⟩
      · rw [Run.repeatTurn, Run.run_bind, first] at ran
        obtain ⟨k, s₁, c₂, goes, within, last⟩ := ih ran
        refine ⟨k + 1, s₁, c₂, .head first goes, Nat.succ_le_succ within, ?_⟩
        rw [decide_eq_decide.2 Nat.succ_inj]
        exact last
      · rw [Run.repeatTurn, Run.run_bind, first] at ran
        cases ran
        exact ⟨0, s, c, .start, Nat.zero_le _, first⟩

theorem repeatTurn_ends (turning : Turning setup oracle m turn) {left : Nat} {s : ι}
    {c c' : σ × Journal α n} {result : Except (Fault α) (ExitCondition × ι)}
    (ran : (Run.repeatTurn turn left s).run c = (result, c')) :
    ∃ k s₁ c₁, Goes turn (s, c) k (s₁, c₁) ∧ k ≤ left ∧
      (turn (k = left) s₁).run c₁ = (lastTurn result, c') := by
  refine repeatTurn_goes (fun s c s' c' next => ?_) ran
  have passage := turning true s c.1 c.2
  rw [next] at passage
  exact passage.not_exhausted

omit [Scalar α] in
theorem Goes.repeatTurn_eq {c c' : Station ι σ α n} {k : Nat} (goes : Goes turn c k c') (left : Nat) :
    (Run.repeatTurn turn (k + left) c.1).run c.2 = (Run.repeatTurn turn left c'.1).run c'.2 := by
  induction goes generalizing left with
  | start => rw [Nat.zero_add]
  | @next k c₁ c' _ completed ih =>
      rw [Nat.succ_add_eq_add_succ, ih, Run.repeatTurn, Run.run_bind, completed]

omit [Scalar α] in
theorem repeatTurn_of_last {left : Nat} {s : ι} {c c' : σ × Journal α n}
    {result : Except (Fault α) (ExitCondition × ι)}
    (last : (turn (left = 0) s).run c = (lastTurn result, c')) :
    (Run.repeatTurn turn left s).run c = (result, c') := by
  cases left with
  | zero =>
      rw [Run.repeatTurn, Run.run_bind, show (turn true s).run c = _ from last]
      cases result <;> rfl
  | succ left =>
      rw [Run.repeatTurn, Run.run_bind, show (turn false s).run c = _ from last]
      cases result <;> rfl

omit [Scalar α] in
theorem repeatTurn_of_stop {left : Nat} {s s' : ι} {c c' : σ × Journal α n} {exit : ExitCondition}
    (stops : (turn (left = 0) s).run c = (.stop exit s', c')) :
    (Run.repeatTurn turn left s).run c = (.ok (exit, s'), c') :=
  have last : (turn (left = 0) s).run c = (lastTurn (.ok (exit, s')), c') := stops
  repeatTurn_of_last last

end

end Descent
