import Mathlib
import Descent.Run.Lbfgs
import Descent.Proofs.Computation
import Descent.Proofs.Linear.Basic

namespace Descent

variable {α : Type} [ExactField α] {n : Nat}

namespace History

theorem divide_ok {a b : α} (nonzero : b ≠ 0) : divide a b = .ok (a / b) := by
  have apart : Scalar.same b 0 = false := by
    rw [Scalar.same, Bool.and_eq_false_iff, decide_eq_false_iff_not, decide_eq_false_iff_not, not_le,
      not_le]
    exact nonzero.lt_or_gt.symm
  rw [divide, apart, if_neg Bool.false_ne_true]

def Curved (h : History α n) : Prop := ∀ pair ∈ h.pairs, 0 < Vec.dot pair.step pair.change

theorem curved_empty (limit : Nat) : (empty limit : History α n).Curved := nofun

theorem curved_clear (h : History α n) : h.clear.Curved := nofun

theorem Curved.push {h : History α n} (curved : h.Curved) {pair : CurvaturePair α n}
    (positive : 0 < Vec.dot pair.step pair.change) : (h.push pair).Curved := by
  intro other member
  rcases List.mem_append.1 (List.mem_of_mem_drop member) with known | new
  · exact curved other known
  · rwa [List.mem_singleton.1 new]

theorem curvatureBound_nonneg (roots : ∀ a : α, 0 ≤ a → 0 ≤ Scalar.sqrt a) (s y : Vector α n) :
    0 ≤ curvatureBound s y := by
  have length (x : Vector α n) : 0 ≤ Vec.norm x := roots _ (Vec.dot_self_nonneg x)
  rw [curvatureBound, Scalar.ratio, ExactField.ofNat_eq, ExactField.ofNat_eq]
  exact mul_nonneg (mul_nonneg (div_nonneg (Nat.cast_nonneg _) (Nat.cast_nonneg _)) (length s)) (length y)

theorem update_ok (roots : ∀ a : α, 0 ≤ a → 0 ≤ Scalar.sqrt a) {h : History α n} (curved : h.Curved)
    (s y : Vector α n) : ∃ added h' entries, h.update s y = .ok (added, h', entries) ∧ h'.Curved := by
  rw [update]
  split
  · exact ⟨_, _, _, rfl, curved⟩
  · rename_i above
    have positive : 0 < Vec.dot s y := (curvatureBound_nonneg roots s y).trans_lt (not_le.1 above)
    rw [divide_ok positive.ne', ok_bind]
    exact ⟨_, _, _, rfl, curved.push positive⟩

theorem scale_ok {h : History α n} (curved : h.Curved) : ∃ factor, h.scale = .ok factor := by
  rw [scale]
  cases newest : h.pairs.getLast? with
  | none => exact ⟨1, rfl⟩
  | some pair =>
      have positive := curved pair (List.mem_of_getLast? newest)
      exact ⟨_, divide_ok fun zero => positive.ne' (Vec.dot_eq_zero_of_self zero)⟩

theorem searchDirection_ok (start : α) {h : History α n} (curved : h.Curved) (g : Vector α n) :
    ∃ search, h.searchDirection start g = .ok search ∧ search.history.Curved := by
  obtain ⟨factor, scaled⟩ := scale_ok curved
  obtain ⟨p, found⟩ : ∃ p, h.direction g = .ok p := by
    simp only [direction, scaled, ok_bind]
    exact ⟨_, rfl⟩
  simp only [searchDirection, found, ok_bind]
  by_cases none : h.pairs.isEmpty
  · rw [if_pos none]
    exact ⟨_, rfl, curved⟩
  · rw [if_neg none]
    by_cases descends : Vec.dot g p < 0
    · rw [if_pos descends]
      exact ⟨_, rfl, curved⟩
    · rw [if_neg descends]
      exact ⟨_, rfl, curved_clear h⟩

end History

namespace Lbfgs

variable (roots : ∀ a : α, 0 ≤ a → 0 ≤ Scalar.sqrt a) {c : Config α} {s : State α n}

include roots

theorem refresh_ok (curved : s.history.Curved) (value : α) (g : Vector α n) :
    ∃ h entries, refresh c s value g = .ok (h, entries) ∧ h.Curved := by
  rw [refresh]
  split
  · rename_i point gradient before _ _
    obtain ⟨added, h, entries, updated, curved'⟩ :=
      History.update_ok roots curved (s.iterate.point - point) (g - gradient)
    rw [updated, ok_bind]
    simp only
    split
    · exact ⟨_, _, rfl, h.curved_clear⟩
    · exact ⟨_, _, rfl, curved'⟩
  · exact ⟨_, _, rfl, curved⟩

theorem direction_ok (curved : s.history.Curved) (value : α) (g : Vector α n) :
    ∃ search, direction c s value g = .ok search ∧ search.history.Curved := by
  obtain ⟨h, entries, refreshed, curved'⟩ := refresh_ok roots (c := c) curved value g
  obtain ⟨search, searched, curved''⟩ := History.searchDirection_ok c.startStep curved' g
  rw [direction, refreshed, ok_bind]
  simp only [searched, ok_bind]
  exact ⟨_, rfl, curved''⟩

end Lbfgs

end Descent
