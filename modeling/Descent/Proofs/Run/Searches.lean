import Mathlib
import Descent.Proofs.Run.Turns

namespace Descent

def Eval.Means {σ α β : Type} {n : Nat} (evaluate : Vector α n → Eval σ α β) (Good : σ → Prop)
    (meaning : Vector α n → Except (Fault α) β) : Prop :=
  ∀ x o, Good o → ∃ o', (evaluate x).run o = (meaning x, o') ∧ Good o'

theorem Eval.Means.unique {σ α β : Type} {n : Nat} {evaluate : Vector α n → Eval σ α β} {Good : σ → Prop}
    {meaning : Vector α n → Except (Fault α) β} (means : Eval.Means evaluate Good meaning) {x : Vector α n}
    {o o' : σ} (good : Good o) {outcome : Except (Fault α) β} (ran : (evaluate x).run o = (outcome, o')) :
    meaning x = outcome ∧ Good o' := by
  obtain ⟨o₁, known, good'⟩ := means x o good
  obtain ⟨rfl, rfl⟩ := Prod.mk.inj (known.symm.trans ran)
  exact ⟨rfl, good'⟩

theorem Eval.run_bind {σ α β γ : Type} (e : Eval σ α β) (next : β → Eval σ α γ) (o : σ) :
    Eval.run (e >>= next) o = match e.run o with
      | (.ok b, o') => (next b).run o'
      | (.error fault, o') => (.error fault, o') := by
  rw [Eval.run, run_run_bind, Eval.run]
  rcases StateT.run (ExceptT.run e) o with ⟨fault | b, o'⟩ <;> rfl

namespace LineSearch

variable {σ α : Type} [Scalar α] {n : Nat} {c : Config α} {evaluate : Vector α n → Eval σ α α}
  {Good : σ → Prop} {value : Vector α n → Except (Fault α) α} {x p g : Vector α n} {o o' : σ}
  {outcome : Except (Fault α) (SearchResult α)}

/-- What backtracking comes to, trial by trial, and how it leaves the oracle. -/
inductive Backtracks (c : Config α) (evaluate : Vector α n → Eval σ α α) (x p : Vector α n) (value slope : α) :
    (budget tried : Nat) → (step : α) → σ → Except (Fault α) (SearchResult α) → σ → Prop
  | unfinished {tried : Nat} {step : α} {o : σ} :
      Backtracks c evaluate x p value slope 0 tried step o (.ok (.unfinished step tried)) o
  | underflow {budget tried : Nat} {step : α} {o : σ} (still : 0 < step → Vec.same (x + (step * p : Vector α n)) x) :
      Backtracks c evaluate x p value slope (budget + 1) tried step o (.ok (.underflow step tried)) o
  | raised {budget tried : Nat} {step : α} {o o' : σ} {fault : Fault α} (positive : 0 < step)
      (apart : ¬Vec.same (x + (step * p : Vector α n)) x)
      (evaluated : (evaluate (x + (step * p : Vector α n))).run o = (.error fault, o')) :
      Backtracks c evaluate x p value slope (budget + 1) tried step o (.error fault) o'
  | accepted {budget tried : Nat} {step reached : α} {o o' : σ} (positive : 0 < step)
      (apart : ¬Vec.same (x + (step * p : Vector α n)) x)
      (evaluated : (evaluate (x + (step * p : Vector α n))).run o = (.ok reached, o'))
      (low : reached ≤ bound c value slope step) :
      Backtracks c evaluate x p value slope (budget + 1) tried step o (.ok (.accepted step (tried + 1))) o'
  | rejected {budget tried : Nat} {step reached : α} {o o₁ o' : σ} {outcome : Except (Fault α) (SearchResult α)}
      (positive : 0 < step) (apart : ¬Vec.same (x + (step * p : Vector α n)) x)
      (evaluated : (evaluate (x + (step * p : Vector α n))).run o = (.ok reached, o₁))
      (high : ¬reached ≤ bound c value slope step)
      (later : Backtracks c evaluate x p value slope budget (tried + 1) (step * c.contraction) o₁ outcome o') :
      Backtracks c evaluate x p value slope (budget + 1) tried step o outcome o'

def Admissible (c : Config α) (value : Vector α n → Except (Fault α) α) (x p : Vector α n)
    (start slope step : α) : Prop :=
  step = 0 ∨ 0 < step ∧ ∃ reached, value (x + (step * p : Vector α n)) = .ok reached ∧
    reached ≤ bound c start slope step

theorem run_backtrack_succ (start slope : α) (budget tried : Nat) (step : α) (o : σ) :
    (backtrack c evaluate x p start slope (budget + 1) tried step).run o =
      if 0 < step then
        if Vec.same (x + (step * p : Vector α n)) x then (.ok (.underflow step tried), o)
        else match (evaluate (x + (step * p : Vector α n))).run o with
          | (.error fault, o') => (.error fault, o')
          | (.ok reached, o') =>
              if reached ≤ bound c start slope step then (.ok (.accepted step (tried + 1)), o')
              else (backtrack c evaluate x p start slope budget (tried + 1)
                (step * c.contraction)).run o'
      else (.ok (.underflow step tried), o) := by
  rw [backtrack]
  split
  · dsimp only
    split
    · rfl
    · rw [Eval.run_bind]
      rcases (evaluate (x + (step * p : Vector α n))).run o with ⟨fault | reached, o'⟩
      · rfl
      · simp only
        split <;> rfl
  · rfl

theorem run_backtrack_iff {start slope : α} {budget tried : Nat} {step : α} :
    (backtrack c evaluate x p start slope budget tried step).run o = (outcome, o') ↔
      Backtracks c evaluate x p start slope budget tried step o outcome o' := by
  constructor
  · intro ran
    induction budget generalizing tried step o with
    | zero =>
        cases ran
        exact .unfinished
    | succ budget ih =>
        rw [run_backtrack_succ] at ran
        split at ran
        case isTrue positive =>
          split at ran
          case isTrue same =>
            cases ran
            exact .underflow fun _ => same
          case isFalse apart =>
            rcases evaluated : (evaluate (x + (step * p : Vector α n))).run o with ⟨fault | reached, o₁⟩ <;>
              rw [evaluated] at ran
            · cases ran
              exact .raised positive apart evaluated
            · simp only at ran
              split at ran
              case isTrue low =>
                cases ran
                exact .accepted positive apart evaluated low
              case isFalse high => exact .rejected positive apart evaluated high (ih ran)
        case isFalse none =>
          cases ran
          exact .underflow fun positive => absurd positive none
  · intro backtracks
    induction backtracks with
    | unfinished => rfl
    | @underflow budget tried step o still =>
        rw [run_backtrack_succ]
        by_cases positive : 0 < step
        · rw [if_pos positive, if_pos (still positive)]
        · rw [if_neg positive]
    | raised positive apart evaluated => rw [run_backtrack_succ, if_pos positive, if_neg apart, evaluated]
    | accepted positive apart evaluated low =>
        rw [run_backtrack_succ, if_pos positive, if_neg apart, evaluated]
        exact if_pos low
    | rejected positive apart evaluated high _ ih =>
        rw [run_backtrack_succ, if_pos positive, if_neg apart, evaluated]
        exact (if_neg high).trans ih

theorem Backtracks.admissible (means : Eval.Means evaluate Good value) {start slope : α} {budget tried : Nat}
    {step : α} (good : Good o) (backtracks : Backtracks c evaluate x p start slope budget tried step o outcome o') :
    Good o' ∧ ∀ result, outcome = .ok result → Admissible c value x p start slope result.step := by
  induction backtracks with
  | unfinished | underflow =>
      refine ⟨good, ?_⟩
      rintro _ ⟨⟩
      exact .inl rfl
  | raised _ _ evaluated => exact ⟨(means.unique good evaluated).2, nofun⟩
  | accepted positive _ evaluated low =>
      obtain ⟨reached, good'⟩ := means.unique good evaluated
      refine ⟨good', ?_⟩
      rintro _ ⟨⟩
      exact .inr ⟨positive, _, reached, low⟩
  | rejected _ _ evaluated _ _ ih => exact ih (means.unique good evaluated).2

theorem run_search (means : Eval.Means evaluate Good value) {a start : α} {budget : Nat} (good : Good o)
    (ran : (search c budget evaluate x a g p start).run o = (outcome, o')) :
    Good o' ∧ ∀ result, outcome = .ok result →
      result.step = 0 ∨ Vec.dot g p < 0 ∧ Admissible c value x p a (Vec.dot g p) result.step := by
  rw [search] at ran
  split at ran
  · rename_i descends
    obtain ⟨good', admissible⟩ := (run_backtrack_iff.1 ran).admissible means good
    exact ⟨good', fun result same => .inr ⟨descends, admissible result same⟩⟩
  · cases ran
    exact ⟨good, fun result same => by cases same; exact .inl rfl⟩

end LineSearch

section

variable {σ α ι β : Type} [Scalar α] {n : Nat} {setup : RunSetup α n} {oracle : Oracle σ α n}
  {m : Scheme σ α n ι β} {exhausted : Bool} {s s' : ι} {o o' : σ} {seen seen' : List (Sight α n)}
  {Good : σ → Prop} {value : Vector α n → Except (Fault α) α}
  {derivatives : Vector α n → Except (Fault α) β}

variable (evaluates : Eval.Means m.evaluate Good derivatives) (means : Eval.Means oracle.value Good value)
  (good : Good o)

include evaluates means good

theorem Searches.admissible {b : β} {p : Vector α n} {outcome : Except (Fault α) (SearchResult α)}
    (searches : Searches setup oracle m exhausted s o seen b p s' outcome o') :
    derivatives (m.point s) = .ok b ∧ m.iterate s' = m.iterate s ∧ Good o' ∧
      ∀ result, outcome = .ok result → result.step = 0 ∨ Vec.dot (m.gradient b) p < 0 ∧
        LineSearch.Admissible setup.config value (m.point s) p (m.value b)
          (Vec.dot (m.gradient b) p) result.step := by
  obtain ⟨o₁, start, continues, directed, searched⟩ := searches
  obtain ⟨evaluated, good₁⟩ := evaluates.unique good continues.evaluated
  obtain ⟨good', admissible⟩ := LineSearch.run_search means good₁ searched
  exact ⟨evaluated, m.iterate_of_direct directed, good', admissible⟩

theorem Passage.moves
    (passage : Passage setup oracle m exhausted s o seen (.next s', o', seen')) :
    Good o' ∧ ∃ b p step, derivatives (m.point s) = .ok b ∧
      m.iterate s' = (m.iterate s).advance (m.value b) (m.gradient b) p step ∧
      (step = 0 ∨ Vec.dot (m.gradient b) p < 0 ∧ LineSearch.Admissible setup.config value (m.point s) p
        (m.value b) (Vec.dot (m.gradient b) p) step) := by
  obtain ⟨b, p, s₁, result, searches, advanced⟩ := passage.advance_of_next
  obtain ⟨evaluated, -, good', admissible⟩ := searches.admissible evaluates means good
  exact ⟨good', b, p, result.step, evaluated, advanced, admissible result rfl⟩

theorem Passage.stays {exit : ExitCondition}
    (passage : Passage setup oracle m exhausted s o seen (.stop exit s', o', seen')) :
    Good o' ∧ m.iterate s' = m.iterate s := by
  refine ⟨?_, passage.iterate_of_stop⟩
  generalize ended : (Turn.stop exit s', o', seen') = outcome at passage
  cases passage with
  | unevaluated failed =>
      cases ended
      exact (evaluates.unique good failed).2
  | tested evaluated _ | aborted evaluated _ _ =>
      cases ended
      exact (evaluates.unique good evaluated).2
  | @undirected _ _ fault continues _ =>
      rcases m.refused_eq fault s with refused | refused <;> rw [refused] at ended <;> cases ended
      exact (evaluates.unique good continues.evaluated).2
  | interrupted searches | unfinished searches _ =>
      cases ended
      exact (searches.admissible evaluates means good).2.2.1
  | completed _ _ => cases ended

end

end Descent
