import Mathlib
import Descent.Proofs.Evaluation.Faults
import Descent.Proofs.Run.Certificates
import Descent.Proofs.Run.Containment

/-!
# The accounts of a run

A completed iteration evaluates once with a gradient, asks the caller once, and evaluates without a gradient
at the points that its search tries (`Explores`). The iteration that ends the run may ask the caller once
more, which depends on how it ends (`Calls`). So the number of iterations tells how often the caller was asked
and how often the function was evaluated (`Reachable.accounts_settled`).
-/

namespace Descent

/-! ## Counting evaluations -/

section

variable {α : Type} {n : Nat}

structure Workspace.Grew (gradients values : Nat) (w w' : Workspace α) : Prop where
  withGradient : w'.evaluationsWithGradient = w.evaluationsWithGradient + gradients
  withoutGradient : w'.evaluationsWithoutGradient = w.evaluationsWithoutGradient + values

def Eval.Counts {β : Type} (evaluate : Vector α n → Eval (Workspace α) α β) (Good : Workspace α → Prop)
    (request : Request) : Prop :=
  ∀ x w w' b, Good w → (evaluate x).run w = (.ok b, w') → Good w' ∧ w.Counted request w'

structure Oracle.Counts (oracle : Oracle (Workspace α) α n) (Good : Workspace α → Prop) : Prop where
  value : Eval.Counts oracle.value Good .value
  gradient : Eval.Counts oracle.gradient Good .gradient
  hessian : Eval.Counts oracle.hessian Good .hessian

namespace Workspace

variable {w w₁ w' : Workspace α} {request : Request} {g g' v v' : Nat}

theorem Grew.refl (w : Workspace α) : w.Grew 0 0 w := ⟨rfl, rfl⟩

theorem Grew.trans (first : w.Grew g v w₁) (then_ : w₁.Grew g' v' w') : w.Grew (g + g') (v + v') w' where
  withGradient := by rw [then_.withGradient, first.withGradient, Nat.add_assoc]
  withoutGradient := by rw [then_.withoutGradient, first.withoutGradient, Nat.add_assoc]

theorem Counted.grew_value (counted : w.Counted .value w') : w.Grew 0 1 w' :=
  ⟨counted.withGradient, counted.withoutGradient⟩

theorem Counted.grew_gradient (derived : request ≠ .value) (counted : w.Counted request w') :
    w.Grew 1 0 w' where
  withGradient := by rw [counted.withGradient, if_neg derived]
  withoutGradient := by rw [counted.withoutGradient, if_neg derived]

end Workspace

namespace Registry

variable [Scalar α] {r : Registry α} {m : Memory α}

theorem counts_oracle (m : Memory α) (sparse : Bool) : (r.oracle m sparse).Counts (·.Coherent r) where
  value x w w' a coherent ran := by
    obtain ⟨w₁, known, coherent'⟩ := run_value (m := m) coherent (some x.toList)
    obtain ⟨value, rfl⟩ := Prod.mk.inj (known.symm.trans ran)
    obtain ⟨_, checked, value⟩ := bind_eq_ok.1 value
    obtain ⟨locals, seen, -⟩ := bind_eq_ok.1 value
    refine ⟨coherent', ?_⟩
    have counted := counted_value coherent (fun y given => by cases given; exact checked) seen
    rwa [known] at counted
  gradient x w w' b coherent ran := by
    obtain ⟨w₁, known, coherent'⟩ := run_gradient (m := m) coherent x.toList
    obtain ⟨value, rfl⟩ := Prod.mk.inj (known.symm.trans ran)
    obtain ⟨_, checked, value⟩ := bind_eq_ok.1 value
    obtain ⟨locals, seen, -⟩ := bind_eq_ok.1 value
    refine ⟨coherent', ?_⟩
    have counted := counted_gradient coherent checked seen
    rwa [known] at counted
  hessian x w w' b coherent ran := by
    obtain ⟨w₁, known, coherent'⟩ := run_hessian (m := m) coherent x.toList sparse
    obtain ⟨value, rfl⟩ := Prod.mk.inj (known.symm.trans ran)
    obtain ⟨_, able, value⟩ := bind_eq_ok.1 value
    obtain ⟨_, checked, value⟩ := bind_eq_ok.1 value
    obtain ⟨locals, seen, -⟩ := bind_eq_ok.1 value
    refine ⟨coherent', ?_⟩
    have counted := counted_hessian coherent checked seen able sparse
    rwa [known] at counted

theorem keepsCounts_useSparse (r : Registry α) (c : Config α) : KeepsCounts (r.useSparse c) := by
  intro values gradients
  unfold useSparse
  cases c.sparsityMode with
  | sparse | dense => exact keeps_pure _
  | auto =>
      by_cases small : (r.scalars : Int) < c.autoSparseMinSize
      · simp only [small, ↓reduceIte]
        exact keeps_pure _
      · simp only [small, ↓reduceIte]
        refine Keeps.bind ?_ fun density => keeps_pure _
        refine (keepsCounts_prepare r values gradients).bind fun storage => ?_
        split
        · exact keeps_pure _
        · exact keeps_get.bind fun w => keeps_pure _

theorem grew_useSparse {c : Config α} {sparse : Bool} {w w' : Workspace α}
    (chosen : (r.useSparse c).run w = (.ok sparse, w')) : w.Grew 0 0 w' := by
  obtain ⟨values, gradients⟩ := keepsCounts_useSparse r c _ _ w ⟨rfl, rfl⟩
  rw [show StateT.run (ExceptT.run (r.useSparse c)) w = _ from chosen] at values gradients
  exact ⟨gradients, values⟩

end Registry

end

/-! ## Searches -/

namespace LineSearch

variable {σ α : Type} [Scalar α] {n : Nat}

def backtrackTrials (c : Config α) (evaluate : Vector α n → Eval σ α α) (x p : Vector α n)
    (value slope : α) : (budget : Nat) → (step : α) → σ → List (Vector α n)
  | 0, _, _ => []
  | budget + 1, step, o =>
      let trial := x + step * p
      if 0 < step then
        if Vec.same trial x then []
        else trial :: match (evaluate trial).run o with
          | (.error _, _) => []
          | (.ok reached, o') =>
              if reached ≤ bound c value slope step then []
              else backtrackTrials c evaluate x p value slope budget (step * c.contraction) o'
      else []

def trials (c : Config α) (budget : Nat) (evaluate : Vector α n → Eval σ α α) (x : Vector α n) (value : α)
    (g p : Vector α n) (start : α) (o : σ) : List (Vector α n) :=
  let slope := Vec.dot g p
  if slope < 0 then backtrackTrials c evaluate x p value slope budget start o else []

variable {c : Config α} {evaluate : Vector α n → Eval (Workspace α) α α} {Good : Workspace α → Prop}
  {x p g : Vector α n} {w w' : Workspace α} {result : SearchResult α}

theorem Backtracks.grew (counts : Eval.Counts evaluate Good .value) {value slope : α} {budget tried : Nat}
    {step : α} (good : Good w)
    (backtracks : Backtracks c evaluate x p value slope budget tried step w (.ok result) w') :
    Good w' ∧ w.Grew 0 (backtrackTrials c evaluate x p value slope budget step w).length w' := by
  generalize ended : Except.ok result = outcome at backtracks
  induction backtracks with
  | unfinished => exact ⟨good, .refl _⟩
  | @underflow budget tried step w still =>
      have none : backtrackTrials c evaluate x p value slope (budget + 1) step w = [] := by
        rw [backtrackTrials]
        by_cases positive : 0 < step
        · simp only [if_pos positive, if_pos (still positive)]
        · simp only [if_neg positive]
      rw [none]
      exact ⟨good, .refl _⟩
  | raised => cases ended
  | accepted positive apart evaluated low =>
      obtain ⟨good', counted⟩ := counts _ _ _ _ good evaluated
      simp only [backtrackTrials, if_pos positive, if_neg apart, evaluated, if_pos low]
      exact ⟨good', counted.grew_value⟩
  | rejected positive apart evaluated high _ ih =>
      obtain ⟨good₁, counted⟩ := counts _ _ _ _ good evaluated
      obtain ⟨good', rest⟩ := ih good₁ ended
      simp only [backtrackTrials, if_pos positive, if_neg apart, evaluated, if_neg high, List.length_cons,
        Nat.add_comm _ 1]
      exact ⟨good', counted.grew_value.trans rest⟩

theorem grew_search (counts : Eval.Counts evaluate Good .value) {value start : α} {budget : Nat}
    (good : Good w) (ran : (search c budget evaluate x value g p start).run w = (.ok result, w')) :
    Good w' ∧ w.Grew 0 (trials c budget evaluate x value g p start w).length w' := by
  rw [search] at ran
  rw [trials]
  split at ran
  · rename_i descends
    simp only [if_pos descends]
    exact (run_backtrack_iff.1 ran).grew counts good
  · rename_i level
    cases ran
    simp only [if_neg level]
    exact ⟨good, .refl _⟩

end LineSearch

/-! ## Completed iterations -/

section

variable {σ α ι β : Type} [Scalar α] {n : Nat}

inductive Explores (setup : RunSetup α n) (oracle : Oracle σ α n) (m : Scheme σ α n ι β)
    (turn : Bool → ι → Run σ α n (Turn α ι)) (start : Station ι σ α n) :
    Nat → Station ι σ α n → List (Vector α n) → Prop
  | start : Explores setup oracle m turn start 0 start []
  | next {k : Nat} {c c' : Station ι σ α n} {points : List (Vector α n)} {b : β} {p : Vector α n}
      {step : α} {s' : ι} {o₁ : σ} {result : SearchResult α}
      (explores : Explores setup oracle m turn start k c points)
      (continues : Continues setup m false c.1 c.2.1 c.2.2.sights b o₁)
      (directed : m.direct c.1 b = .ok (p, step, s'))
      (searched : (LineSearch.search setup.config setup.searchBudget oracle.value (m.point c.1) (m.value b)
        (m.gradient b) p step).run o₁ = (.ok result, c'.2.1))
      (completed : (turn false c.1).run c.2 = (.next c'.1, c'.2)) :
      Explores setup oracle m turn start (k + 1) c' (points ++
        LineSearch.trials setup.config setup.searchBudget oracle.value (m.point c.1) (m.value b)
          (m.gradient b) p step o₁)

structure Proceeds (setup : RunSetup α n) (k : Nat) (sights : List (Sight α n)) : Prop where
  length : sights.length = k
  answered : ∀ i sight, sights[i]? = some sight → setup.proceed (i + 1) sight = true

variable {setup : RunSetup α n} {oracle : Oracle σ α n} {m : Scheme σ α n ι β}
  {turn : Bool → ι → Run σ α n (Turn α ι)} {start c : Station ι σ α n} {k : Nat}
  {points : List (Vector α n)}

theorem Goes.explores (turning : Turning setup oracle m turn) (goes : Goes turn start k c) :
    ∃ points, Explores setup oracle m turn start k c points := by
  induction goes with
  | start => exact ⟨[], .start⟩
  | @next k c₁ c goes completed ih =>
      obtain ⟨points, explores⟩ := ih
      have passage := turning false c₁.1 c₁.2.1 c₁.2.2
      rw [completed] at passage
      obtain ⟨b, p, s', result, ⟨o₁, step, continues, directed, searched⟩, -⟩ := passage.of_next
      exact ⟨_, explores.next continues directed searched completed⟩

omit [Scalar α] in
theorem Proceeds.concat {sights : List (Sight α n)} {sight : Sight α n} (proceeds : Proceeds setup k sights)
    (go : setup.proceed (sights.length + 1) sight = true) :
    Proceeds setup (k + 1) (sights ++ [sight]) where
  length := by rw [List.length_append, proceeds.length, List.length_singleton]
  answered i other shown := by
    obtain before | ⟨rfl, rfl⟩ := getElem?_concat_eq_some.1 shown
    · exact proceeds.answered i other before
    · exact go

theorem Goes.proceeds (turning : Turning setup oracle m turn) (unasked : start.2.2.sights = [])
    (goes : Goes turn start k c) : Proceeds setup k c.2.2.sights := by
  induction goes with
  | start => exact ⟨by rw [unasked]; rfl, by rw [unasked]; nofun⟩
  | @next k c₁ c goes completed ih =>
      have passage := turning false c₁.1 c₁.2.1 c₁.2.2
      rw [completed] at passage
      obtain ⟨b, p, s₁, result, ⟨o₁, step, continues, -⟩, -, shown, -⟩ := passage.of_next
      exact shown ▸ ih.concat continues.proceeds

end

section

variable {α ι β : Type} [Scalar α] {n : Nat} {setup : RunSetup α n} {oracle : Oracle (Workspace α) α n}
  {m : Scheme (Workspace α) α n ι β} {turn : Bool → ι → Run (Workspace α) α n (Turn α ι)}
  {start c : Station ι (Workspace α) α n} {k : Nat} {points : List (Vector α n)}
  {Good : Workspace α → Prop} {request : Request}

theorem Explores.grew (evaluates : Eval.Counts m.evaluate Good request) (derived : request ≠ .value)
    (values : Eval.Counts oracle.value Good .value) (good : Good start.2.1)
    (explores : Explores setup oracle m turn start k c points) :
    Good c.2.1 ∧ start.2.1.Grew k points.length c.2.1 := by
  induction explores with
  | start => exact ⟨good, .refl _⟩
  | next explores continues directed searched completed ih =>
      obtain ⟨good₁, before⟩ := ih
      obtain ⟨good₂, counted⟩ := evaluates _ _ _ _ good₁ continues.evaluated
      obtain ⟨good', tried⟩ := LineSearch.grew_search values good₂ searched
      have grown := before.trans ((counted.grew_gradient derived).trans tried)
      rw [Nat.add_zero, Nat.zero_add, ← List.length_append] at grown
      exact ⟨good', grown⟩

end

/-! ## The last iteration -/

section

variable {σ α ι β : Type} [Scalar α] {n : Nat}

inductive RaisesIn (setup : RunSetup α n) (oracle : Oracle σ α n) (m : Scheme σ α n ι β) (exhausted : Bool)
    (s : ι) (o : σ) (seen : List (Sight α n)) : Option Stage → Prop
  | nowhere (calm : ¬Raises setup oracle m exhausted s o seen) : RaisesIn setup oracle m exhausted s o seen none
  | evaluation {fault : Fault α} {o' : σ} (failed : (m.evaluate (m.point s)).run o = (.error fault, o')) :
      RaisesIn setup oracle m exhausted s o seen (some .evaluation)
  | direction {b : β} {fault : Fault α} {o' : σ} (continues : Continues setup m exhausted s o seen b o')
      (failed : m.direct s b = .error fault) :
      RaisesIn setup oracle m exhausted s o seen (some .factorization)
  | search {b : β} {p : Vector α n} {s' : ι} {fault : Fault α} {o' : σ}
      (searches : Searches setup oracle m exhausted s o seen b p s' (.error fault) o') :
      RaisesIn setup oracle m exhausted s o seen (some .lineSearch)

/-- How often the caller was asked in a run that ended after `k` completed iterations, the next of which
raised in this stage, if in any; only the last answer can be no, and it ends the run. -/
structure Calls (setup : RunSetup α n) (k : Nat) (exit : ExitCondition) (stage : Option Stage)
    (sights : List (Sight α n)) : Prop where
  raised : exit = .internalError ↔ stage ≠ none
  tested : exit ≠ .userAbort → exit ≠ .internalError → sights.length = k
  aborted : exit = .userAbort → sights.length = k + 1
  unevaluated : stage = some .evaluation → sights.length = k
  interrupted : stage = some .factorization ∨ stage = some .lineSearch → sights.length = k + 1
  answered : ∀ i sight, sights[i]? = some sight →
    (setup.proceed (i + 1) sight = false ↔ exit = .userAbort ∧ i = k)

variable {setup : RunSetup α n} {oracle : Oracle σ α n} {m : Scheme σ α n ι β} {exhausted : Bool}
  {s s' : ι} {o o' : σ} {seen seen' : List (Sight α n)} {k : Nat} {exit : ExitCondition}

theorem Config.ne_of_exit? {c : Config α} {standing : Standing α} (test : c.exit? standing = some exit) :
    exit ≠ .userAbort ∧ exit ≠ .internalError ∧ exit ≠ .na := by
  cases Config.applies_of_exit? test <;> decide

section

variable {sights : List (Sight α n)} {stage : Option Stage}

omit [Scalar α] in
theorem Proceeds.calls_unasked (proceeds : Proceeds setup k sights) (unhalted : exit ≠ .userAbort)
    (raised : exit = .internalError ↔ stage ≠ none) (early : stage = none ∨ stage = some .evaluation) :
    Calls setup k exit stage sights where
  raised := raised
  tested _ _ := proceeds.length
  aborted halted := absurd halted unhalted
  unevaluated _ := proceeds.length
  interrupted late := by rcases early with rfl | rfl <;> rcases late with late | late <;> cases late
  answered i sight shown := by simp [proceeds.answered i sight shown, unhalted]

omit [Scalar α] in
theorem Proceeds.calls_asked (proceeds : Proceeds setup (k + 1) sights)
    (late : stage = some .factorization ∨ stage = some .lineSearch) :
    Calls setup k .internalError stage sights where
  raised := by rcases late with rfl | rfl <;> simp
  tested _ contained := absurd rfl contained
  aborted := nofun
  unevaluated early := by rcases late with rfl | rfl <;> cases early
  interrupted _ := proceeds.length
  answered i sight shown := by simp [proceeds.answered i sight shown]

omit [Scalar α] in
theorem Proceeds.calls_halted {sight : Sight α n} (proceeds : Proceeds setup k sights)
    (halted : setup.proceed (sights.length + 1) sight = false) :
    Calls setup k .userAbort none (sights ++ [sight]) where
  raised := by simp
  tested unhalted := absurd rfl unhalted
  aborted _ := by rw [List.length_append, proceeds.length, List.length_singleton]
  unevaluated := nofun
  interrupted late := by rcases late with late | late <;> cases late
  answered i other shown := by
    obtain before | ⟨rfl, rfl⟩ := getElem?_concat_eq_some.1 shown
    · have earlier : i < k := proceeds.length ▸ (List.getElem?_eq_some_iff.1 before).1
      simp [proceeds.answered i other before, earlier.ne]
    · exact ⟨fun _ => ⟨rfl, proceeds.length⟩, fun _ => halted⟩

end

theorem Passage.calls (proceeds : Proceeds setup k seen) (ended : exit ≠ .na)
    (passage : Passage setup oracle m exhausted s o seen (.stop exit s', o', seen')) :
    ∃ stage, RaisesIn setup oracle m exhausted s o seen stage ∧ Calls setup k exit stage seen' := by
  generalize same : (Turn.stop exit s', o', seen') = outcome at passage
  cases passage with
  | unevaluated failed =>
      cases same
      exact ⟨_, .evaluation failed, proceeds.calls_unasked (by decide) (by simp) (.inr rfl)⟩
  | tested evaluated test =>
      cases same
      obtain ⟨unhalted, contained, -⟩ := Config.ne_of_exit? test
      refine ⟨none, .nowhere fun raises => ?_,
        proceeds.calls_unasked unhalted (by simp [contained]) (.inl rfl)⟩
      cases test.symm.trans (raises.continues evaluated).untested
  | aborted evaluated untested halted =>
      cases same
      refine ⟨none, .nowhere fun raises => ?_, proceeds.calls_halted halted⟩
      cases halted.symm.trans (raises.continues evaluated).proceeds
  | @undirected b _ fault continues failed =>
      rcases m.refused_eq fault s with refused | refused <;> rw [refused] at same <;> cases same
      exact ⟨_, .direction continues failed,
        (proceeds.concat continues.proceeds).calls_asked (.inl rfl)⟩
  | interrupted searches =>
      cases same
      obtain ⟨o₁, step, continues, -⟩ := id searches
      exact ⟨_, .search searches, (proceeds.concat continues.proceeds).calls_asked (.inr rfl)⟩
  | unfinished searches _ =>
      cases same
      exact absurd rfl ended
  | completed _ _ => cases same

theorem Passage.grew {oracle : Oracle (Workspace α) α n} {m : Scheme (Workspace α) α n ι β}
    {w w' : Workspace α} {Good : Workspace α → Prop} {request : Request}
    (evaluates : Eval.Counts m.evaluate Good request) (derived : request ≠ .value) (good : Good w)
    (passage : Passage setup oracle m exhausted s w seen (.stop exit s', w', seen'))
    (ended : exit ≠ .na) (contained : exit ≠ .internalError) : w.Grew 1 0 w' := by
  generalize same : (Turn.stop exit s', w', seen') = outcome at passage
  cases passage with
  | tested evaluated _ | aborted evaluated _ _ =>
      cases same
      exact (evaluates _ _ _ _ good evaluated).2.grew_gradient derived
  | @undirected _ _ fault _ _ =>
      rcases m.refused_eq fault s with refused | refused <;> rw [refused] at same <;> cases same
      exact absurd rfl contained
  | unevaluated _ | interrupted _ =>
      cases same
      exact absurd rfl contained
  | unfinished _ _ =>
      cases same
      exact absurd rfl ended
  | completed _ _ => cases same

end

/-! ## Runs -/

section

variable {σ α ι β : Type} [Scalar α] {n : Nat}

/-- In a run with at most `left` iterations each search ends, no failure of a direction is left uncontained,
and all points that it comes to have the property `Carries`. -/
structure Undisturbed (setup : RunSetup α n) (oracle : Oracle σ α n) (m : Scheme σ α n ι β)
    (turn : Bool → ι → Run σ α n (Turn α ι)) (left : Nat) (start : Station ι σ α n)
    (Carries : Vector α n → Prop) : Prop where
  ends : ∀ {k c}, Goes turn start k c → k ≤ left → ∀ {b p s' result o'},
    Searches setup oracle m (k = left) c.1 c.2.1 c.2.2.sights b p s' (.ok result) o' →
      result.isFinished = true
  directed : ∀ {k c}, Goes turn start k c → k ≤ left → ∀ {b fault o'},
    Continues setup m (k = left) c.1 c.2.1 c.2.2.sights b o' → m.direct c.1 b = .error fault →
      m.refused fault c.1 = .stop .internalError c.1
  carried : ∀ {k c}, Goes turn start k c → k ≤ left → Carries (m.point c.1)

variable {setup : RunSetup α n} {oracle : Oracle σ α n} {m : Scheme σ α n ι β} {exhausted : Bool}
  {s s' : ι} {o o' : σ} {seen seen' : List (Sight α n)} {exit : ExitCondition}

theorem Passage.ne_na
    (ends : ∀ {b p s' result o'}, Searches setup oracle m exhausted s o seen b p s' (.ok result) o' →
      result.isFinished = true)
    (passage : Passage setup oracle m exhausted s o seen (.stop exit s', o', seen')) : exit ≠ .na := by
  generalize same : (Turn.stop exit s', o', seen') = outcome at passage
  cases passage with
  | tested evaluated test =>
      cases same
      exact (Config.ne_of_exit? test).2.2
  | @undirected _ _ fault _ _ =>
      rcases m.refused_eq fault s with refused | refused <;> rw [refused] at same <;> cases same
      nofun
  | unfinished searches pending => cases pending.symm.trans (ends searches)
  | completed _ _ => cases same
  | _ =>
      cases same
      nofun

end

section

variable {α ι β : Type} [Scalar α] {n : Nat}

/-- A run ends after `k` completed iterations, whose searches tried the points, at this station; the next
iteration raises in this stage, if in any. -/
structure Concludes (setup : RunSetup α n) (oracle : Oracle (Workspace α) α n)
    (m : Scheme (Workspace α) α n ι β) (turn : Bool → ι → Run (Workspace α) α n (Turn α ι)) (left : Nat)
    (start : Station ι (Workspace α) α n) (k : Nat) (c : Station ι (Workspace α) α n)
    (points : List (Vector α n)) (stage : Option Stage) : Prop where
  explores : Explores setup oracle m turn start k c points
  within : k ≤ left
  raises : RaisesIn setup oracle m (k = left) c.1 c.2.1 c.2.2.sights stage

variable {setup : RunSetup α n} {oracle : Oracle (Workspace α) α n} {m : Scheme (Workspace α) α n ι β}
  {turn : Bool → ι → Run (Workspace α) α n (Turn α ι)} {left : Nat}
  {start : Station ι (Workspace α) α n} {Carries : Vector α n → Prop} {Good : Workspace α → Prop}
  {request : Request}

theorem Undisturbed.concludes (undisturbed : Undisturbed setup oracle m turn left start Carries)
    (turning : Turning setup oracle m turn) (evaluates : Eval.Counts m.evaluate Good request)
    (derived : request ≠ .value) (values : Eval.Counts oracle.value Good .value) (good : Good start.2.1)
    (unasked : start.2.2.sights = []) :
    ∃ exit s' w' journal, (Run.repeatTurn turn left start.1).run start.2 = (.ok (exit, s'), w', journal) ∧
      ∃ k c points stage, Concludes setup oracle m turn left start k c points stage ∧ exit ≠ .na ∧
        Carries (m.point s') ∧ (m.iterate s').iterations = (m.iterate start.1).iterations + k ∧
        Calls setup k exit stage journal.sights ∧
        (exit ≠ .internalError → start.2.1.Grew (k + 1) points.length w') := by
  rcases ran : (Run.repeatTurn turn left start.1).run start.2 with ⟨result, w', journal⟩
  obtain ⟨k, s, c, goes, within, last⟩ := repeatTurn_ends turning ran
  have passage := turning (k = left) s c.1 c.2
  rw [last] at passage
  cases result with
  | error fault => exact (passage.not_abandoned (undisturbed.directed goes within)).elim
  | ok concluded =>
      obtain ⟨exit, s'⟩ := concluded
      obtain ⟨points, explores⟩ := goes.explores turning
      obtain ⟨good', before⟩ := explores.grew evaluates derived values good
      have proceeds := goes.proceeds turning unasked
      have ended := passage.ne_na (undisturbed.ends goes within)
      obtain ⟨stage, raises, calls⟩ := passage.calls proceeds ended
      have stays := passage.iterate_of_stop
      refine ⟨exit, s', w', journal, rfl, k, (s, c), points, stage, ⟨explores, within, raises⟩, ended, ?_, ?_,
        calls, fun contained => ?_⟩
      · rw [Scheme.point, stays]
        exact undisturbed.carried goes within
      · rw [stays, goes.iterations turning]
      · exact before.trans (passage.grew evaluates derived good' ended contained)

end

/-! ## Objectives -/

/-- What a solution tells of a solve that completed `k` iterations, whose searches tried the points, and the
next of which raised in this stage, if in any. -/
structure Accounts {α : Type} {n : Nat} (setup : RunSetup α n) (iterations : Int) (k : Nat)
    (points : List (Vector α n)) (stage : Option Stage) (solution : Solution α n)
    (before after : Workspace α) : Prop where
  ended : solution.exit ≠ .na
  completed : solution.iterations = iterations + k
  bounded : solution.iterations ≤ max iterations setup.config.maximumIterations
  calls : Calls setup k solution.exit stage solution.journal.sights
  evaluations : solution.exit ≠ .internalError → before.Grew (k + 1) points.length after

namespace Objective

open Registry

section

variable {α : Type} [Scalar α] (f : Objective α) (m : Memory α)
  (oracle : Memory α → Bool → Oracle (Workspace α) α f.scalars) (setup : RunSetup α f.scalars)
  (iterations : Int)

structure Loadable : Prop where
  lengths : ∀ v ∈ f.vars, v.isConstant = false → (m.load v.storage).length = v.userDimension
  parts : ∀ v ∈ f.vars, v.isConstant = false → ∃ part, readPart m v = .ok part

def Carries (x : Vector α f.scalars) : Prop :=
  ∀ v ∈ f.vars, v.isConstant = false → ∃ values, localValue m x.toList v = .ok values

def Unhindered : Algorithm α f.scalars → Prop
  | .newton rule => ∀ sparse w start, f.StartsAt m start →
      (f.useSparse setup.config).run f.workspace = (.ok sparse, w) →
      Undisturbed setup (oracle m sparse) (Newton.scheme setup (oracle m sparse) rule)
        (Newton.turn setup (oracle m sparse) rule) (Run.remaining setup.config iterations)
        (⟨.start start iterations, []⟩, w, ⟨[], []⟩) (f.Carries m)
  | .lbfgs => ∀ start, f.StartsAt m start →
      Undisturbed setup (oracle m false) (Lbfgs.scheme setup (oracle m false))
        (Lbfgs.turn setup (oracle m false)) (Run.remaining setup.config iterations)
        (⟨.start start iterations, .empty setup.config.historySize, none⟩, f.workspace, ⟨[], []⟩) (f.Carries m)

/-- A solve completes `k` iterations, whose searches try the points, and in this stage of the next one
something raises, if in any. -/
inductive Itinerary : Algorithm α f.scalars → (k : Nat) → (points : List (Vector α f.scalars)) →
    (stage : Option Stage) → Prop
  | newton {rule : Newton.StepRule α f.scalars} {sparse : Bool} {w : Workspace α}
      {start : Vector α f.scalars} {k : Nat} {points : List (Vector α f.scalars)} {stage : Option Stage}
      {c : Station (Newton.State α f.scalars) (Workspace α) α f.scalars} (starts : f.StartsAt m start)
      (chosen : (f.useSparse setup.config).run f.workspace = (.ok sparse, w))
      (concludes : Concludes setup (oracle m sparse) (Newton.scheme setup (oracle m sparse) rule)
        (Newton.turn setup (oracle m sparse) rule) (Run.remaining setup.config iterations)
        (⟨.start start iterations, []⟩, w, ⟨[], []⟩) k c points stage) :
      Itinerary (.newton rule) k points stage
  | lbfgs {start : Vector α f.scalars} {k : Nat} {points : List (Vector α f.scalars)} {stage : Option Stage}
      {c : Station (Lbfgs.State α f.scalars) (Workspace α) α f.scalars} (starts : f.StartsAt m start)
      (concludes : Concludes setup (oracle m false) (Lbfgs.scheme setup (oracle m false))
        (Lbfgs.turn setup (oracle m false)) (Run.remaining setup.config iterations)
        (⟨.start start iterations, .empty setup.config.historySize, none⟩, f.workspace, ⟨[], []⟩) k c
        points stage) :
      Itinerary .lbfgs k points stage

def Settles (algorithm : Algorithm α f.scalars) (solve : Minimization α (Solution α f.scalars)) : Prop :=
  ∃ solution after, StateT.run (ExceptT.run solve) ⟨f.workspace, m⟩ = (.ok solution, after) ∧
    ∃ k points stage, f.Itinerary m oracle setup iterations algorithm k points stage ∧
      Accounts setup iterations k points stage solution f.workspace after.workspace

end

variable {α : Type} [Scalar α] {f : Objective α} {m : Memory α}
  {oracle : Memory α → Bool → Oracle (Workspace α) α f.scalars} {setup : RunSetup α f.scalars}
  {iterations : Int} {algorithm : Algorithm α f.scalars}

theorem settles_of_undisturbed {ι β : Type} {O : Oracle (Workspace α) α f.scalars}
    {S : Scheme (Workspace α) α f.scalars ι β} {turn : Bool → ι → Run (Workspace α) α f.scalars (Turn α ι)}
    {initial : ι} {w : Workspace α} {start : Vector α f.scalars} {request : Request}
    {solve : Minimization α (Solution α f.scalars)} (loadable : f.Loadable m)
    (undisturbed : Undisturbed setup O S turn (Run.remaining setup.config iterations)
      (initial, w, ⟨[], []⟩) (f.Carries m))
    (turning : Turning setup O S turn) (evaluates : Eval.Counts S.evaluate (·.Coherent f.toRegistry) request)
    (derived : request ≠ .value) (values : Eval.Counts O.value (·.Coherent f.toRegistry) .value)
    (coherent : w.Coherent f.toRegistry) (chosen : f.workspace.Grew 0 0 w)
    (from_start : S.iterate initial = .start start iterations)
    (itinerary : ∀ {k c points stage}, Concludes setup O S turn (Run.remaining setup.config iterations)
      (initial, w, ⟨[], []⟩) k c points stage → f.Itinerary m oracle setup iterations algorithm k points stage)
    (solves : ∀ {exit state w' journal memory},
      (Run.repeatTurn turn (Run.remaining setup.config iterations) initial).run (w, ⟨[], []⟩) =
        (.ok (exit, state), w', journal) →
      StateT.run (ExceptT.run (f.writePoint (S.point state).toList)) m = (.ok (), memory) →
      ∃ solution, StateT.run (ExceptT.run solve) ⟨f.workspace, m⟩ = (.ok solution, ⟨w', memory⟩) ∧
        solution.exit = exit ∧ solution.iterations = (S.iterate state).iterations ∧
          solution.journal.sights = journal.sights) :
    f.Settles m oracle setup iterations algorithm solve := by
  obtain ⟨exit, state, w', journal, ran, k, c, points, stage, concludes, ended, carried, counted, calls,
    grew⟩ := undisturbed.concludes turning evaluates derived values coherent rfl
  obtain ⟨memory, wrote⟩ := writePoint_of_parts Vector.length_toList loadable.lengths carried
  obtain ⟨solution, solved, exit_eq, iterations_eq, sights_eq⟩ := solves ran wrote
  have completed : solution.iterations = iterations + k := by
    rw [iterations_eq, counted, from_start, Iterate.start]
  refine ⟨solution, _, solved, k, points, stage, itinerary concludes, {
    ended := exit_eq ▸ ended
    completed
    bounded := ?_
    calls := by rwa [exit_eq, sights_eq]
    evaluations := fun contained => ?_ }⟩
  · have within := concludes.within
    rw [Run.remaining] at within
    omega
  · have all := chosen.trans (grew (exit_eq ▸ contained))
    rwa [Nat.zero_add, Nat.zero_add] at all

/-- Where the arrays of the free variables have their registered lengths, every search ends, and no change of
variables and no quasi-Newton direction fails, both solvers give a solution. It counts the iterations, at most
as many as are left, and with them the calls of the caller and the evaluations. -/
theorem Reachable.accounts_settled (reached : Reachable f) (loadable : f.Loadable m)
    (setup : RunSetup α f.scalars) (iterations : Int) (algorithm : Algorithm α f.scalars) :
    (f.Unhindered m f.oracle setup iterations algorithm →
      f.Settles m f.oracle setup iterations algorithm (f.minimization setup iterations algorithm)) ∧
    ∀ oracle, (∀ sparse, (oracle m sparse).Counts (·.Coherent f.toRegistry)) →
      f.Unhindered m oracle setup iterations algorithm →
      f.Settles m oracle setup iterations algorithm
        (f.minimizationOn oracle setup iterations algorithm) := by
  rw [← minimizationOn_oracle]
  suffices general : ∀ oracle, (∀ sparse, (oracle m sparse).Counts (·.Coherent f.toRegistry)) →
      f.Unhindered m oracle setup iterations algorithm →
      f.Settles m oracle setup iterations algorithm
        (f.minimizationOn oracle setup iterations algorithm) from
    ⟨general _ (counts_oracle m), general⟩
  intro oracle counts unhindered
  obtain ⟨x, read⟩ := readPoint_of_parts loadable.parts
  obtain ⟨start, starts⟩ := Minimization.started_of_read (s := ⟨f.workspace, m⟩) read
  cases algorithm with
  | newton rule =>
      obtain ⟨sparse, w, chosen, coherent⟩ := run_useSparse reached.coherent setup.config
      exact settles_of_undisturbed loadable (unhindered sparse w start starts chosen)
        (Newton.turning _ _ _) (counts sparse).hessian (by decide) (counts sparse).value coherent
        (grew_useSparse chosen) rfl (.newton starts chosen) (Minimization.run_newtonOn starts chosen)
  | lbfgs =>
      exact settles_of_undisturbed loadable (unhindered start starts)
        (Lbfgs.turning _ _) (counts false).gradient (by decide) (counts false).value
        reached.coherent (.refl _) rfl (.lbfgs starts) (Minimization.run_lbfgsOn starts)

def goesOn {ι : Type} : Turn α ι → Bool
  | .next _ => true
  | _ => false

theorem undisturbed_of_next {ι β : Type} {O : Oracle (Workspace α) α f.scalars}
    {S : Scheme (Workspace α) α f.scalars ι β} {turn : Bool → ι → Run (Workspace α) α f.scalars (Turn α ι)}
    {start : Station ι (Workspace α) α f.scalars} (turning : Turning setup O S turn)
    (carries : ∀ x, f.Carries m x)
    (completes : goesOn ((turn false start.1).run start.2).1 = true) :
    Undisturbed setup O S turn 1 start (f.Carries m) := by
  obtain ⟨s', c', completed⟩ : ∃ s' c', (turn false start.1).run start.2 = (.next s', c') := by
    rcases ran : (turn false start.1).run start.2 with ⟨_ | s' | _, c'⟩ <;> rw [ran] at completes
    · cases completes
    · exact ⟨s', c', rfl⟩
    · cases completes
  have passage := turning false start.1 start.2.1 start.2.2
  rw [completed] at passage
  obtain ⟨b, p, s₁, result, searches, finished, -⟩ := passage.of_next
  -- with no iteration left a test applies
  have stays {k : Nat} {c : Station ι (Workspace α) α f.scalars} (goes : Goes turn start k c) (within : k ≤ 1)
      {b : β} {o' : Workspace α} (continues : Continues setup S (k = 1) c.1 c.2.1 c.2.2.sights b o') :
      k = 0 ∧ c = start := by
    obtain rfl | rfl : k = 0 ∨ k = 1 := by omega
    · cases goes
      exact ⟨rfl, rfl⟩
    · exact absurd continues.untested (Config.exit?_exhausted _ _ rfl)
  refine ⟨?_, ?_, fun _ _ => carries _⟩
  · intro k c goes within b' p' s₂ result' o' searches'
    obtain ⟨o₁, step, continues, -⟩ := id searches'
    obtain ⟨rfl, rfl⟩ := stays goes within continues
    obtain ⟨-, -, same⟩ := searches.unique searches'
    cases same
    exact finished
  · intro k c goes within b' fault o' continues failed
    obtain ⟨rfl, rfl⟩ := stays goes within continues
    obtain ⟨o₁, step, continues', directed, -⟩ := searches
    cases continues.evaluated.symm.trans continues'.evaluated
    cases directed.symm.trans failed

theorem square_settled : ∃ solution after points,
    StateT.run (ExceptT.run (square.minimization squareSetup 99 .lbfgs)) ⟨square.workspace, three⟩ =
        (.ok solution, after) ∧
      solution.exit = .noConvergence ∧ solution.iterations = 100 ∧ solution.journal.sights.length = 1 ∧
      square.Itinerary three square.oracle squareSetup 99 .lbfgs 1 points none ∧
      square.workspace.Grew 2 points.length after.workspace := by
  have loadable : square.Loadable three := by
    constructor <;> rw [vars_square, List.forall_mem_singleton]
    · exact fun _ => rfl
    · exact fun _ => ⟨[3], rfl⟩
  have carries (x : Vector ℚ square.scalars) : square.Carries three x := fun v member free =>
    ⟨_, reachable_square.wellFormed.localValue_eq Vector.length_toList member free
      (plain_square v member free)⟩
  have unhindered : square.Unhindered three square.oracle squareSetup 99 .lbfgs := by
    intro start starts
    have here : square.StartsAt three (Vector.ofFn fun _ => 3) := rfl
    obtain rfl := here.unique starts
    have left : Run.remaining squareSetup.config 99 = 1 := by decide +kernel
    rw [left]
    refine undisturbed_of_next (Lbfgs.turning _ _) carries ?_
    decide +kernel
  obtain ⟨settles, -⟩ := Reachable.accounts_settled reachable_square loadable squareSetup 99 .lbfgs
  obtain ⟨solution, after, ran, k, points, stage, itinerary, accounts⟩ := settles unhindered
  have reports : outcome? (StateT.run (ExceptT.run (square.minimization squareSetup 99 .lbfgs))
      ⟨square.workspace, three⟩) = some (.noConvergence, 100, [2]) := by decide +kernel
  rw [ran, outcome?, Option.some.injEq, Prod.mk.injEq, Prod.mk.injEq] at reports
  obtain ⟨limit, hundred, -⟩ := reports
  have completed : k = 1 := by
    have counted := accounts.completed
    omega
  subst completed
  have contained : solution.exit ≠ .internalError := by rw [limit]; decide
  obtain rfl : stage = none := not_not.1 (mt accounts.calls.raised.2 contained)
  exact ⟨solution, after, points, ran, limit, hundred,
    accounts.calls.tested (by rw [limit]; decide) contained, itinerary, accounts.evaluations contained⟩

def stretched : Memory ℚ := ⟨[.array .double [2] 1 0], [[3], [3, 0]]⟩

/-- Where the array of a free variable has another length than it was registered with, the solver raises before
its first iteration, and so before any search, call or direction. -/
theorem stretched_not_settled : three.resize ⟨0⟩ 2 = .ok stretched ∧
    (∀ v ∈ square.vars, v.change = none) ∧
    square.Unhindered stretched square.oracle squareSetup 0 .lbfgs ∧
    (StateT.run (ExceptT.run (square.minimization squareSetup 0 .lbfgs)) ⟨square.workspace, stretched⟩).1 =
        .error (.broadcast [2] [1]) ∧
    ¬square.Settles stretched square.oracle squareSetup 0 .lbfgs
      (square.minimization squareSetup 0 .lbfgs) := by
  have raises : (StateT.run (ExceptT.run (square.minimization squareSetup 0 .lbfgs))
      ⟨square.workspace, stretched⟩).1 = .error (.broadcast [2] [1]) := rfl
  refine ⟨rfl, List.forall_mem_singleton.2 rfl, ?_, raises, ?_⟩
  · intro start starts
    cases starts
  · rintro ⟨solution, after, ran, -⟩
    rw [ran] at raises
    cases raises

end Objective

end Descent
