import Mathlib
import Descent.Proofs.Config
import Descent.Proofs.ExactField
import Descent.Proofs.Run.Downhill
import Descent.Proofs.Run.Searches

namespace Descent

theorem Vec.same_iff {α : Type} [Scalar α] {n : Nat} {x y : Vector α n} :
    Vec.same x y = true ↔ ∀ i, Scalar.same (x.get i) (y.get i) = true := by
  simp only [Vec.same, Vector.all_eq_true, Vector.getElem_zipWith, id_eq]
  exact ⟨fun all i => all i.val i.isLt, fun all i inside => all ⟨i, inside⟩⟩

namespace LineSearch

section

variable {σ α : Type} [Scalar α] {n : Nat}

def steps (c : Config α) (start : α) : Nat → α
  | 0 => start
  | k + 1 => steps c start k * c.contraction

def trial (c : Config α) (x p : Vector α n) (start : α) (k : Nat) : Vector α n :=
  x + (steps c start k * p : Vector α n)

structure Moving (c : Config α) (x p : Vector α n) (start : α) (k : Nat) : Prop where
  positive : 0 < steps c start k
  apart : ¬Vec.same (trial c x p start k) x

inductive Rejects (c : Config α) (evaluate : Vector α n → Eval σ α α) (x p : Vector α n)
    (value slope start : α) (o : σ) : Nat → σ → Prop
  | none : Rejects c evaluate x p value slope start o 0 o
  | next {k : Nat} {o₁ o₂ : σ} {reached : α} (before : Rejects c evaluate x p value slope start o k o₁)
      (moving : Moving c x p start k) (evaluated : (evaluate (trial c x p start k)).run o₁ = (.ok reached, o₂))
      (high : ¬reached ≤ bound c value slope (steps c start k)) :
      Rejects c evaluate x p value slope start o (k + 1) o₂

/-- What a search ends with, after so many evaluations, and how it leaves the oracle. -/
inductive Ends (c : Config α) (evaluate : Vector α n → Eval σ α α) (x : Vector α n) (value : α)
    (g p : Vector α n) (start : α) (o : σ) : Except (Fault α) (SearchResult α) → Nat → σ → Prop
  | notDescent (level : ¬Vec.dot g p < 0) :
      Ends c evaluate x value g p start o (.ok (.notDescent (Vec.dot g p))) 0 o
  | accepted {k : Nat} {o₁ o' : σ} {reached : α} (descends : Vec.dot g p < 0)
      (before : Rejects c evaluate x p value (Vec.dot g p) start o k o₁) (moving : Moving c x p start k)
      (evaluated : (evaluate (trial c x p start k)).run o₁ = (.ok reached, o'))
      (low : reached ≤ bound c value (Vec.dot g p) (steps c start k)) :
      Ends c evaluate x value g p start o (.ok (.accepted (steps c start k) (k + 1))) (k + 1) o'
  | underflow {k : Nat} {o' : σ} (descends : Vec.dot g p < 0)
      (before : Rejects c evaluate x p value (Vec.dot g p) start o k o') (still : ¬Moving c x p start k) :
      Ends c evaluate x value g p start o (.ok (.underflow (steps c start k) k)) k o'
  | raised {k : Nat} {o₁ o' : σ} {fault : Fault α} (descends : Vec.dot g p < 0)
      (before : Rejects c evaluate x p value (Vec.dot g p) start o k o₁) (moving : Moving c x p start k)
      (evaluated : (evaluate (trial c x p start k)).run o₁ = (.error fault, o')) :
      Ends c evaluate x value g p start o (.error fault) (k + 1) o'

def Finished (outcome : Except (Fault α) (SearchResult α)) : Prop :=
  ∀ result, outcome = .ok result → result.isFinished = true

variable {c : Config α} {evaluate : Vector α n → Eval σ α α} {x p g : Vector α n} {value slope start : α}
  {o o₁ o' : σ} {k : Nat} {outcome : Except (Fault α) (SearchResult α)}

theorem run_backtrack_still (still : ¬Moving c x p start k) (budget tried : Nat) :
    (backtrack c evaluate x p value slope (budget + 1) tried (steps c start k)).run o =
      (.ok (.underflow (steps c start k) tried), o) := by
  rw [run_backtrack_succ]
  split
  · rename_i positive
    split
    · rfl
    · rename_i apart
      exact absurd ⟨positive, apart⟩ still
  · rfl

theorem run_backtrack_moving (moving : Moving c x p start k) (budget tried : Nat) :
    (backtrack c evaluate x p value slope (budget + 1) tried (steps c start k)).run o =
      match (evaluate (trial c x p start k)).run o with
      | (.error fault, o') => (.error fault, o')
      | (.ok reached, o') =>
          if reached ≤ bound c value slope (steps c start k) then
            (.ok (.accepted (steps c start k) (tried + 1)), o')
          else (backtrack c evaluate x p value slope budget (tried + 1) (steps c start (k + 1))).run o' := by
  rw [run_backtrack_succ, if_pos moving.positive]
  exact if_neg moving.apart

theorem Rejects.run_backtrack (rejects : Rejects c evaluate x p value slope start o k o₁) (budget : Nat) :
    (backtrack c evaluate x p value slope (k + budget) 0 start).run o =
      (backtrack c evaluate x p value slope budget k (steps c start k)).run o₁ := by
  induction rejects generalizing budget with
  | none => rw [Nat.zero_add]; rfl
  | next before moving evaluated high ih =>
      rw [Nat.succ_add_eq_add_succ, ih, run_backtrack_moving moving, evaluated]
      exact if_neg high

theorem Ends.run_search {count : Nat} (ends : Ends c evaluate x value g p start o outcome count o')
    {budget : Nat} (enough : count < budget) :
    (search c budget evaluate x value g p start).run o = (outcome, o') := by
  have backtracks {k : Nat} {o₁ : σ} (descends : Vec.dot g p < 0)
      (before : Rejects c evaluate x p value (Vec.dot g p) start o k o₁) (room : k < budget) :
      ∃ left, (search c budget evaluate x value g p start).run o =
        (backtrack c evaluate x p value (Vec.dot g p) (left + 1) k (steps c start k)).run o₁ := by
    obtain ⟨left, rfl⟩ := Nat.exists_eq_add_of_lt room
    refine ⟨left, ?_⟩
    rw [search, if_pos descends, Nat.add_assoc]
    exact before.run_backtrack (left + 1)
  cases ends with
  | notDescent level =>
      rw [search, if_neg level]
      rfl
  | accepted descends before moving evaluated low =>
      obtain ⟨left, same⟩ := backtracks descends before (Nat.lt_of_succ_lt enough)
      rw [same, run_backtrack_moving moving, evaluated]
      exact if_pos low
  | underflow descends before still =>
      obtain ⟨left, same⟩ := backtracks descends before enough
      rw [same, run_backtrack_still still]
  | raised descends before moving evaluated =>
      obtain ⟨left, same⟩ := backtracks descends before (Nat.lt_of_succ_lt enough)
      rw [same, run_backtrack_moving moving, evaluated]

theorem Rejects.ends {budget : Nat} (descends : Vec.dot g p < 0)
    (before : Rejects c evaluate x p value (Vec.dot g p) start o k o₁)
    (backtracks : Backtracks c evaluate x p value (Vec.dot g p) budget k (steps c start k) o₁ outcome o')
    (finished : Finished outcome) : ∃ count, Ends c evaluate x value g p start o outcome count o' := by
  generalize next : steps c start k = step at backtracks
  induction backtracks with
  | unfinished => exact absurd (finished _ rfl) Bool.false_ne_true
  | underflow still =>
      subst next
      exact ⟨_, .underflow descends before fun moving => moving.apart (still moving.positive)⟩
  | raised positive apart evaluated =>
      subst next
      exact ⟨_, .raised descends before ⟨positive, apart⟩ evaluated⟩
  | accepted positive apart evaluated low =>
      subst next
      exact ⟨_, .accepted descends before ⟨positive, apart⟩ evaluated low⟩
  | rejected positive apart evaluated high _ ih =>
      subst next
      exact ih (before.next ⟨positive, apart⟩ evaluated high) finished rfl

theorem ends_of_run_search {budget : Nat}
    (ran : (search c budget evaluate x value g p start).run o = (outcome, o')) (finished : Finished outcome) :
    ∃ count, Ends c evaluate x value g p start o outcome count o' := by
  rw [search] at ran
  split at ran
  · rename_i descends
    exact Rejects.none.ends descends (run_backtrack_iff.1 ran) finished
  · rename_i level
    cases ran
    exact ⟨0, .notDescent level⟩

theorem Ends.finished {count : Nat} (ends : Ends c evaluate x value g p start o outcome count o') :
    Finished outcome := by
  cases ends <;> rintro result ⟨⟩ <;> rfl

def watched (evaluate : Vector α n → Eval σ α α) (x : Vector α n) : Eval (σ × List (Vector α n)) α α :=
  ExceptT.mk fun s => (((evaluate x).run s.1).1, ((evaluate x).run s.1).2, s.2 ++ [x])

omit [Scalar α] in
theorem run_watched {reached : Except (Fault α) α} (evaluated : (evaluate x).run o = (reached, o'))
    (noted : List (Vector α n)) : (watched evaluate x).run (o, noted) = (reached, o', noted ++ [x]) := by
  have ran : (watched evaluate x).run (o, noted) =
      (((evaluate x).run o).1, ((evaluate x).run o).2, noted ++ [x]) := rfl
  rw [ran, evaluated]

theorem Rejects.watched (rejects : Rejects c evaluate x p value slope start o k o₁)
    (noted : List (Vector α n)) : Rejects c (watched evaluate) x p value slope start (o, noted) k
      (o₁, noted ++ (List.range k).map (trial c x p start)) := by
  induction rejects with
  | none =>
      rw [List.range_zero, List.map_nil, List.append_nil]
      exact .none
  | next before moving evaluated high ih =>
      rw [List.range_succ, List.map_append, ← List.append_assoc]
      exact .next ih moving (run_watched evaluated _) high

theorem Ends.watched {count : Nat} (ends : Ends c evaluate x value g p start o outcome count o')
    (noted : List (Vector α n)) : Ends c (watched evaluate) x value g p start (o, noted) outcome count
      (o', noted ++ (List.range count).map (trial c x p start)) := by
  cases ends with
  | notDescent level =>
      rw [List.range_zero, List.map_nil, List.append_nil]
      exact .notDescent level
  | accepted descends before moving evaluated low =>
      rw [List.range_succ, List.map_append, ← List.append_assoc]
      exact .accepted descends (before.watched noted) moving (run_watched evaluated _) low
  | underflow descends before still => exact .underflow descends (before.watched noted) still
  | raised descends before moving evaluated =>
      rw [List.range_succ, List.map_append, ← List.append_assoc]
      exact .raised descends (before.watched noted) moving (run_watched evaluated _)

theorem Ends.evaluations {count : Nat} {result : SearchResult α}
    (ends : Ends c evaluate x value g p start o (.ok result) count o') : result.evaluations = count := by
  cases ends <;> rfl

end

section

variable {σ α : Type} [ExactField α] {n : Nat} {c : Config α} {evaluate : Vector α n → Eval σ α α}
  {x p g : Vector α n} {value start : α} {o o' : σ}

theorem bound_lt (accepted : c.Accepted) {value slope step : α} (descends : slope < 0) (positive : 0 < step) :
    bound c value slope step < value := by
  have decrease : c.sufficientDecrease * step * slope < 0 :=
    mul_neg_of_pos_of_neg (mul_pos accepted.sufficientDecrease.1 positive) descends
  rw [bound]
  linarith

theorem Ends.decreases (accepted : c.Accepted) {result : SearchResult α} {count : Nat}
    (ends : Ends c evaluate x value g p start o (.ok result) count o') (moves : result.step ≠ 0) :
    ∃ o₁ reached, (evaluate (x + (result.step * p : Vector α n))).run o₁ = (.ok reached, o') ∧
      reached < value := by
  cases ends with
  | accepted descends _ moving evaluated low =>
      exact ⟨_, _, evaluated, low.trans_lt (bound_lt accepted descends moving.positive)⟩
  | notDescent | underflow => exact absurd rfl moves

end

/-- A search that ends does so in one of the ways of `Ends`, and each of these is how a search ends that has the
budget for it. In exact arithmetic the function decreases along a step that is not zero. -/
theorem first_admissible_step :
    (∀ {σ α : Type} [Scalar α] {n : Nat} (c : Config α) (evaluate : Vector α n → Eval σ α α)
      (x : Vector α n) (value : α) (g p : Vector α n) (start : α) (o : σ)
      (outcome : Except (Fault α) (SearchResult α)) (o' : σ),
      ((∃ budget, (search c budget evaluate x value g p start).run o = (outcome, o') ∧ Finished outcome) ↔
        ∃ count, Ends c evaluate x value g p start o outcome count o') ∧
      ∀ count, Ends c evaluate x value g p start o outcome count o' →
        (∀ result, outcome = .ok result → result.evaluations = count) ∧
        ∀ budget, count < budget → ∀ noted,
          (search c budget evaluate x value g p start).run o = (outcome, o') ∧
            (search c budget (watched evaluate) x value g p start).run (o, noted) =
              (outcome, o', noted ++ (List.range count).map (trial c x p start))) ∧
    ∀ {σ α : Type} [ExactField α] {n : Nat} (settings : Settings α) (c : Config α)
      (evaluate : Vector α n → Eval σ α α) (x : Vector α n) (value : α) (g p : Vector α n) (start : α)
      (o : σ) (budget : Nat) (result : SearchResult α) (o' : σ), settings.check = .ok c →
      (search c budget evaluate x value g p start).run o = (.ok result, o') → result.step ≠ 0 →
        ∃ o₁ reached, (evaluate (x + (result.step * p : Vector α n))).run o₁ = (.ok reached, o') ∧
          reached < value := by
  refine ⟨fun c evaluate x value g p start o outcome o' => ⟨⟨?_, ?_⟩, ?_⟩, ?_⟩
  · rintro ⟨budget, ran, finished⟩
    exact ends_of_run_search ran finished
  · rintro ⟨count, ends⟩
    exact ⟨count + 1, ends.run_search (Nat.lt_succ_self count), ends.finished⟩
  · intro count ends
    refine ⟨?_, fun budget enough noted => ⟨ends.run_search enough, (ends.watched noted).run_search enough⟩⟩
    rintro result rfl
    exact ends.evaluations
  · intro σ α _ n settings c evaluate x value g p start o budget result o' checked ran moves
    have finished : Finished (.ok result) := by
      rintro _ ⟨⟩
      cases result with
      | unfinished => exact absurd rfl moves
      | accepted | notDescent | underflow => rfl
    obtain ⟨count, ends⟩ := ends_of_run_search ran finished
    exact ends.decreases (Settings.accepted_of_check checked) moves

def squareOf (x : Vector ℚ 1) : Eval Unit ℚ ℚ :=
  return x.get 0 * x.get 0

theorem overlong_first_admissible_step :
    (search Objective.squareSetup.config 4 (watched squareOf) (.replicate 1 1) 1 (.replicate 1 2)
        (.replicate 1 (-4)) 1).run ((), []) =
      (.ok (.accepted (1 / 4) 3), (), [.replicate 1 (-3), .replicate 1 (-1), .replicate 1 0]) ∧
      ∃ reached, (squareOf (.replicate 1 0)).run () = (.ok reached, ()) ∧ reached < 1 := by
  let c := Objective.squareSetup.config
  let x : Vector ℚ 1 := .replicate 1 1
  let g : Vector ℚ 1 := .replicate 1 2
  let p : Vector ℚ 1 := .replicate 1 (-4)
  have rejects : Rejects c squareOf x p 1 (Vec.dot g p) 1 () 2 () :=
    .next (.next .none ⟨by decide +kernel, by decide +kernel⟩ rfl (by decide +kernel))
      ⟨by decide +kernel, by decide +kernel⟩ rfl (by decide +kernel)
  have ends : Ends c squareOf x 1 g p 1 () (.ok (.accepted (steps c 1 2) 3)) 3 () :=
    .accepted (by decide +kernel) rejects ⟨by decide +kernel, by decide +kernel⟩ rfl (by decide +kernel)
  have quarter : steps c 1 2 = 1 / 4 := by decide +kernel
  have tried : (List.range 3).map (trial c x p 1) =
      [.replicate 1 (-3), .replicate 1 (-1), .replicate 1 0] := by decide +kernel
  obtain ⟨ran, noted⟩ :=
    ((first_admissible_step.1 c squareOf x 1 g p 1 () _ ()).2 3 ends).2 4 (by decide) []
  obtain ⟨_, reached, evaluated, below⟩ := first_admissible_step.2 Settings.default c squareOf x 1 g p 1 () 4 _ ()
    Objective.check_default ran (by decide +kernel)
  rw [List.nil_append, tried, quarter] at noted
  refine ⟨noted, reached, ?_, below⟩
  have zero : x + (steps c 1 2 * p : Vector ℚ 1) = .replicate 1 0 := by decide +kernel
  exact zero ▸ evaluated

end LineSearch

end Descent
