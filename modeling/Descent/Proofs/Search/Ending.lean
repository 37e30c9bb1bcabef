import Mathlib
import Descent.Proofs.Numbers.Infinite
import Descent.Proofs.Run.Standstill
import Descent.Proofs.Search.Trials

namespace Descent.LineSearch

section

variable {α : Type} [Scalar α] {n : Nat} {c : Config α} {x p g : Vector α n} {value start : α}

/-- The search ends for every function that has a value at every point, be it NaN. -/
def AlwaysEnds (c : Config α) (x : Vector α n) (value : α) (g p : Vector α n) (start : α) : Prop :=
  ∀ {σ : Type} (evaluate : Vector α n → Eval σ α α),
    (∀ y o, ∃ reached o', (evaluate y).run o = (.ok reached, o')) →
      ∀ o, ∃ budget, Finished ((search c budget evaluate x value g p start).run o).1

theorem rejects_or_ends {σ : Type} {evaluate : Vector α n → Eval σ α α} (value : α)
    (returns : ∀ y o, ∃ reached o', (evaluate y).run o = (.ok reached, o')) (descends : Vec.dot g p < 0) (o : σ)
    {k : Nat} (moving : ∀ j < k, Moving c x p start j) :
    (∃ o', Rejects c evaluate x p value (Vec.dot g p) start o k o') ∨
      ∃ outcome count o', Ends c evaluate x value g p start o outcome count o' := by
  induction k with
  | zero => exact .inl ⟨o, .none⟩
  | succ k ih =>
      rcases ih fun j below => moving j (Nat.lt_succ_of_lt below) with ⟨o₁, before⟩ | ends
      · have moves := moving k (Nat.lt_succ_self k)
        obtain ⟨reached, o', evaluated⟩ := returns (trial c x p start k) o₁
        by_cases low : reached ≤ bound c value (Vec.dot g p) (steps c start k)
        · exact .inr ⟨_, _, o', .accepted descends before moves evaluated low⟩
        · exact .inl ⟨o', before.next moves evaluated low⟩
      · exact .inr ends

theorem alwaysEnds_of_still (still : Vec.dot g p < 0 → ∃ k, ¬Moving c x p start k) :
    AlwaysEnds c x value g p start := by
  classical
  intro σ evaluate returns o
  have ends : ∃ outcome count o', Ends c evaluate x value g p start o outcome count o' := by
    by_cases descends : Vec.dot g p < 0
    -- the first step that does not move the point ends the search, if nothing else did before
    · have stops := still descends
      rcases rejects_or_ends value returns descends o (k := Nat.find stops)
        fun j below => not_not.1 (Nat.find_min stops below) with ⟨o', before⟩ | ends
      · exact ⟨_, _, o', .underflow descends before (Nat.find_spec stops)⟩
      · exact ends
    · exact ⟨_, _, o, .notDescent descends⟩
  obtain ⟨outcome, count, o', ends⟩ := ends
  refine ⟨count + 1, ?_⟩
  rw [ends.run_search (Nat.lt_succ_self count)]
  exact ends.finished

end

section

variable {n : Nat} {c : Config Float} {x p g : Vector Float n} {value start : Float}

def nowhere (_ : Vector Float n) : Eval Unit Float Float :=
  return 0 / 0

theorem rejects_nowhere (value slope : Float) {k : Nat} (moving : ∀ j < k, Moving c x p start j) :
    Rejects c nowhere x p value slope start () k () := by
  induction k with
  | zero => exact .none
  | succ k ih =>
      refine .next (ih fun j below => moving j (Nat.lt_succ_of_lt below)) (moving k (Nat.lt_succ_self k)) rfl ?_
      intro low
      have nan : (0 / 0 : Float).isNaN = true := by decide +kernel
      rw [Binary64.not_nan_of_le low] at nan
      cases nan

theorem nowhere_unfinished (descends : Vec.dot g p < 0) (moving : ∀ k, Moving c x p start k) (budget : Nat) :
    ¬Finished ((search c budget nowhere x value g p start).run ()).1 := by
  intro finished
  have ran := (rejects_nowhere value (Vec.dot g p) (k := budget) fun j _ => moving j).run_backtrack 0
  rw [search, if_pos descends, ← Nat.add_zero budget, ran] at finished
  exact Bool.false_ne_true (finished _ rfl)

theorem alwaysEnds_iff :
    AlwaysEnds c x value g p start ↔ (Vec.dot g p < 0 → ∃ k, ¬Moving c x p start k) := by
  refine ⟨fun ends descends => ?_, alwaysEnds_of_still⟩
  by_contra! moving
  obtain ⟨budget, finished⟩ := ends nowhere (fun _ _ => ⟨_, (), rfl⟩) ()
  exact nowhere_unfinished descends moving budget finished

open Binary64

variable {part : Nat} (fraction : Counts c.contraction part) (below : part < unity)

include fraction

theorem steps_infinite (infinite : start.toModel.unpack = .infinity .positive) (k : Nat) :
    (steps c start k).toModel.unpack = .infinity .positive := by
  induction k with
  | zero => exact infinite
  | succ k ih => exact infinite_mul ih fraction

include below

theorem counts_succ {count k : Nat} (counts : Counts (steps c start k) count) :
    ∃ next, ((steps c start (k + 1)).toModel.unpack = .zero .positive ∧ next = 0 ∨
        Counts (steps c start (k + 1)) next) ∧
      next ≤ count ∧ (2 * part ≤ unity → next < count) ∧ (unity < 2 * part → 0 < next) :=
  counts.mul fraction below

theorem exists_not_positive (half : 2 * part ≤ unity) {count k : Nat} (counts : Counts (steps c start k) count) :
    ∃ j, ¬0 < steps c start j := by
  induction count using Nat.strong_induction_on generalizing k with
  | _ count ih =>
      obtain ⟨next, ⟨zero, -⟩ | counts', -, less, -⟩ := counts_succ fraction below counts
      · refine ⟨k + 1, fun positive => ?_⟩
        rcases positive_iff.1 positive with infinite | ⟨_, m, e, some, taken, -⟩
        · cases zero.symm.trans infinite
        · cases zero.symm.trans taken
      · exact ih next (less half) counts'

theorem counts_next (half : unity < 2 * part) {count k : Nat} (counts : Counts (steps c start k) count) :
    ∃ next, Counts (steps c start (k + 1)) next ∧ next ≤ count := by
  obtain ⟨next, ⟨-, rfl⟩ | counted, most, -, some⟩ := counts_succ fraction below counts
  · exact absurd (some half) (lt_irrefl 0)
  · exact ⟨next, counted, most⟩

theorem counts_steps (half : unity < 2 * part) {count : Nat} (counts : Counts start count) (k : Nat) :
    ∃ count', Counts (steps c start k) count' := by
  induction k with
  | zero => exact ⟨count, counts⟩
  | succ k ih =>
      obtain ⟨count', counts'⟩ := ih
      exact (counts_next fraction below half counts').imp fun _ => And.left

theorem exists_stuck (half : unity < 2 * part) {count k : Nat} (counts : Counts (steps c start k) count) :
    ∃ j, steps c start (j + 1) = steps c start j := by
  induction count using Nat.strong_induction_on generalizing k with
  | _ count ih =>
      obtain ⟨next, counted, most⟩ := counts_next fraction below half counts
      rcases most.lt_or_eq with less | rfl
      · exact ih next less counted
      · exact ⟨k, counted.unique counts⟩

omit fraction below in
theorem steps_of_stuck {last : Nat} (stuck : steps c start (last + 1) = steps c start last) {k : Nat}
    (later : last ≤ k) : steps c start k = steps c start last := by
  induction k, later using Nat.le_induction with
  | base => rfl
  | succ k _ ih =>
      rw [steps] at stuck
      rw [steps, ih, stuck]

end

section

open Binary64

variable {n : Nat} {c : Config Float} {x p g : Vector Float n} {value start : Float}

theorem get_trial (k : Nat) (i : Fin n) :
    (trial c x p start k).get i = x.get i + steps c start k * p.get i := by
  simp only [trial, Vec.get_eq_getElem, Vector.getElem_add, Vector.getElem_hmul]

theorem moving_of_infinite {part : Nat} (fraction : Counts c.contraction part)
    (finite : ∀ i, (x.get i).isFinite = true) (descends : Vec.dot g p < 0)
    (infinite : start.toModel.unpack = .infinity .positive) (k : Nat) : Moving c x p start k := by
  have endless := steps_infinite fraction infinite k
  refine ⟨positive_iff.2 (.inl endless), fun same => ?_⟩
  have level (empty : n = 0) : Vec.dot g p = 0 := by
    have none : (Vector.zipWith (· * ·) g p).toList = [] :=
      List.length_eq_zero_iff.1 (by rw [Vector.length_toList, empty])
    rw [Vec.dot, ← Vector.foldl_toList, none]
    rfl
  rcases n.eq_zero_or_pos with empty | some
  · rw [level empty] at descends
    exact absurd descends (by decide)
  · have entry := Vec.same_iff.1 same ⟨0, some⟩
    have other := not_same_of_not_finite (finite ⟨0, some⟩)
      (not_finite_of_add (finite ⟨0, some⟩) (not_finite_of_mul (y := p.get ⟨0, some⟩) endless))
    rw [get_trial] at entry
    exact Bool.false_ne_true (other.symm.trans entry)

/-- Whether a search ends for every function. The steps have to be finite, and if they are not at least halved,
one of them must not move the point; only finitely many of these steps differ. -/
theorem search_ends_iff {settings : Settings Float} (checked : settings.check = .ok c)
    (x g p : Vector Float n) (value start : Float) (finite : ∀ i, (x.get i).isFinite = true) :
    (AlwaysEnds c x value g p start ↔ (0 < start → Vec.dot g p < 0 →
      start.isInf = false ∧ (c.contraction ≤ 0.5 ∨ ∃ k, ¬Moving c x p start k))) ∧
    (0 < start → start.isInf = false → 0.5 < c.contraction →
      (∀ k, 0 < steps c start k) ∧ ∃ last, ∀ k, last ≤ k → steps c start k = steps c start last) := by
  obtain ⟨some, less⟩ := (Settings.accepted_of_check checked).contraction
  obtain ⟨part, fraction, below, most, more⟩ := counts_fraction some less
  constructor
  · rw [alwaysEnds_iff]
    constructor
    · intro ends positive descends
      obtain ⟨k, still⟩ := ends descends
      rcases infinite_or_counts positive with ⟨-, infinite⟩ | ⟨number, -⟩
      · exact absurd (moving_of_infinite fraction finite descends infinite k) still
      · exact ⟨number, .inr ⟨k, still⟩⟩
    · intro stops descends
      by_cases positive : 0 < start
      · obtain ⟨number, halving | still⟩ := stops positive descends
        -- steps that are at least halved run out of units
        · obtain ⟨infinite, -⟩ | ⟨-, count, counts⟩ := infinite_or_counts positive
          · cases number.symm.trans infinite
          obtain ⟨j, none⟩ := exists_not_positive fraction below (most halving) (k := 0) counts
          exact ⟨j, fun moving => none moving.positive⟩
        · exact still
      · exact ⟨0, fun moving => positive moving.positive⟩
  · intro positive number slow
    obtain ⟨infinite, -⟩ | ⟨-, count, counts⟩ := infinite_or_counts positive
    · cases number.symm.trans infinite
    refine ⟨fun k => ?_, ?_⟩
    · obtain ⟨count', counts'⟩ := counts_steps fraction below (more slow) counts k
      exact counts'.zero_lt
    · obtain ⟨last, stuck⟩ := exists_stuck fraction below (more slow) (k := 0) counts
      exact ⟨last, fun k later => steps_of_stuck stuck later⟩

end

def shortening (part : Float) : Config Float :=
  { (Objective.floatSetup 0).config with contraction := part }

theorem halved_search_ends :
    AlwaysEnds (shortening 0.5) (.replicate 1 0) 0 (.replicate 1 (-1)) (.replicate 1 0.75) 1 ∧
      (∀ k, 0 < steps (shortening 0.75) 1 k) ∧
      ∃ last, ∀ k, last ≤ k → steps (shortening 0.75) 1 k = steps (shortening 0.75) 1 last := by
  have finite : ∀ i, ((Vector.replicate 1 0 : Vector Float 1).get i).isFinite = true := by decide +kernel
  obtain ⟨halved, -⟩ := search_ends_iff (show (shortening 0.5).toSettings.check = .ok _ from rfl)
    (.replicate 1 0) (.replicate 1 (-1)) (.replicate 1 0.75) 0 1 finite
  obtain ⟨-, slow⟩ := search_ends_iff (show (shortening 0.75).toSettings.check = .ok _ from rfl)
    (.replicate 1 0) (.replicate 1 (-1)) (.replicate 1 0.75) 0 1 finite
  exact ⟨halved.2 fun _ _ => ⟨by decide +kernel, .inl (by decide +kernel)⟩,
    slow (by decide +kernel) (by decide +kernel) (by decide +kernel)⟩

open Binary64 in
/-- With steps of three quarters from one, the search of the function that is NaN everywhere does not end. -/
theorem slow_search_endless :
    (shortening 0.75).toSettings.check = .ok (shortening 0.75) ∧
      ∀ budget, ¬Finished ((search (shortening 0.75) budget nowhere (.replicate 1 0) 0 (.replicate 1 (-1))
        (.replicate 1 0.75) (shortening 0.75).startStep).run ()).1 := by
  obtain ⟨part, fraction, below, -, more⟩ := counts_fraction (r := 0.75) (by decide +kernel) (by decide +kernel)
  have large := more (by decide +kernel)
  refine ⟨rfl, nowhere_unfinished (by decide +kernel) fun k => ?_⟩
  obtain ⟨count, counts⟩ := counts_steps (c := shortening 0.75) fraction below large counts_one k
  obtain ⟨next, counts', -⟩ := counts_next (c := shortening 0.75) fraction below large counts
  refine ⟨counts.zero_lt, fun same => ?_⟩
  have entry := Vec.same_iff.1 same 0
  -- the direction is as long as the steps shrink, so that each trial is at the next step
  have along : (Vector.replicate 1 0.75 : Vector Float 1).get 0 = (shortening 0.75).contraction := rfl
  rw [get_trial, along, ← steps] at entry
  exact Bool.false_ne_true (counts'.not_same_zero_add.symm.trans entry)

end Descent.LineSearch
