import Mathlib
import Descent.Proofs.Linear.Definite
import Descent.Proofs.Run.Curvature

namespace Descent

open Matrix

variable {α : Type} [ExactField α] {n : Nat}

namespace CurvaturePair

structure Genuine (pair : CurvaturePair α n) : Prop where
  positive : 0 < Vec.dot pair.step pair.change
  weight : pair.weight = 1 / Vec.dot pair.step pair.change

def updated (pair : CurvaturePair α n) (b : Matrix (Fin n) (Fin n) α) : Matrix (Fin n) (Fin n) α :=
  (1 - pair.weight • vecMulVec pair.step.get pair.change.get) * b *
      (1 - pair.weight • vecMulVec pair.change.get pair.step.get) +
    pair.weight • vecMulVec pair.step.get pair.step.get

variable {pair : CurvaturePair α n} {b : Matrix (Fin n) (Fin n) α}

theorem Genuine.change_ne_zero (genuine : pair.Genuine) : Vec.dot pair.change pair.change ≠ 0 := fun zero =>
  genuine.positive.ne' (Vec.dot_eq_zero_of_self zero)

theorem one_sub_mulVec (c : α) (u v x : Fin n → α) :
    (1 - c • vecMulVec u v) *ᵥ x = x - (c * (v ⬝ᵥ x)) • u := by
  rw [sub_mulVec, one_mulVec, smul_mulVec, vecMulVec_mulVec, op_smul_eq_smul, smul_smul]

theorem updated_mulVec (x : Fin n → α) {z : Fin n → α}
    (reduced : z = b *ᵥ (x - (pair.weight * (pair.step.get ⬝ᵥ x)) • pair.change.get)) :
    pair.updated b *ᵥ x =
      z + (pair.weight * (pair.step.get ⬝ᵥ x) - pair.weight * (pair.change.get ⬝ᵥ z)) • pair.step.get := by
  rw [updated, add_mulVec, ← mulVec_mulVec, ← mulVec_mulVec, one_sub_mulVec, one_sub_mulVec, ← reduced,
    smul_mulVec, vecMulVec_mulVec, op_smul_eq_smul, smul_smul, sub_smul]
  abel

theorem isSymm_updated (symmetric : b.IsSymm) : (pair.updated b).IsSymm := by
  unfold IsSymm updated
  simp [transpose_mul, transpose_vecMulVec, symmetric.eq, Matrix.mul_assoc]

theorem updated_mulVec_change (genuine : pair.Genuine) :
    pair.updated b *ᵥ pair.change.get = pair.step.get := by
  have unit : pair.weight * (pair.step.get ⬝ᵥ pair.change.get) = 1 := by
    rw [genuine.weight, Vec.dot_eq_dotProduct, one_div, inv_mul_cancel₀]
    rw [← Vec.dot_eq_dotProduct]
    exact genuine.positive.ne'
  have reduced : (0 : Fin n → α) =
      b *ᵥ (pair.change.get - (pair.weight * (pair.step.get ⬝ᵥ pair.change.get)) • pair.change.get) := by
    rw [unit, one_smul, sub_self, mulVec_zero]
  rw [updated_mulVec _ reduced, unit, dotProduct_zero, mul_zero, sub_zero, one_smul, zero_add]

theorem positiveDefinite_updated (genuine : pair.Genuine) (positive : PositiveDefinite b) :
    PositiveDefinite (pair.updated b) := by
  intro x nonzero
  have above : 0 < pair.weight := by
    rw [genuine.weight]
    exact one_div_pos.2 genuine.positive
  let rest : Fin n → α := x - (pair.weight * (pair.step.get ⬝ᵥ x)) • pair.change.get
  have form : x ⬝ᵥ pair.updated b *ᵥ x =
      rest ⬝ᵥ b *ᵥ rest + pair.weight * (pair.step.get ⬝ᵥ x) ^ 2 := by
    rw [updated_mulVec x (z := b *ᵥ rest) rfl, dotProduct_add, dotProduct_smul, sub_dotProduct,
      smul_dotProduct, dotProduct_comm x pair.step.get]
    simp only [smul_eq_mul]
    ring
  rw [form]
  by_cases flat : pair.step.get ⬝ᵥ x = 0
  · have same : rest = x := by simp [rest, flat]
    rw [same, flat]
    simpa using positive x nonzero
  · have square : 0 < pair.weight * (pair.step.get ⬝ᵥ x) ^ 2 := by positivity
    have least : 0 ≤ rest ⬝ᵥ b *ᵥ rest := by
      by_cases zero : rest = 0
      · simp [zero]
      · exact (positive rest zero).le
    exact add_pos_of_nonneg_of_pos least square

end CurvaturePair

namespace History

def refined (pairs : List (CurvaturePair α n)) (b : Matrix (Fin n) (Fin n) α) : Matrix (Fin n) (Fin n) α :=
  pairs.foldl (fun b pair => pair.updated b) b

/-- The inverse Hessian that a history stands for. It starts from a multiple of the identity, which has the
size of the newest pair. -/
def inverseHessian (h : History α n) : Matrix (Fin n) (Fin n) α :=
  match h.pairs.getLast? with
  | none => 1
  | some newest => refined h.pairs
      ((Vec.dot newest.step newest.change / Vec.dot newest.change newest.change) • 1)

def Genuine (h : History α n) : Prop := ∀ pair ∈ h.pairs, pair.Genuine

theorem Genuine.curved {h : History α n} (genuine : h.Genuine) : h.Curved :=
  fun pair member => (genuine pair member).positive

theorem inverseHessian_eq_one {h : History α n} (none : h.pairs = []) : h.inverseHessian = 1 := by
  rw [inverseHessian, none]
  rfl

theorem inverseHessian_eq_refined {h : History α n} {newest : CurvaturePair α n}
    (last : h.pairs.getLast? = some newest) : h.inverseHessian = refined h.pairs
      ((Vec.dot newest.step newest.change / Vec.dot newest.change newest.change) • 1) := by
  rw [inverseHessian, last]

theorem isSymm_refined (pairs : List (CurvaturePair α n)) {b : Matrix (Fin n) (Fin n) α}
    (symmetric : b.IsSymm) : (refined pairs b).IsSymm := by
  induction pairs generalizing b with
  | nil => exact symmetric
  | cons pair rest ih => exact ih (CurvaturePair.isSymm_updated symmetric)

theorem isSymm_inverseHessian (h : History α n) : h.inverseHessian.IsSymm := by
  cases last : h.pairs.getLast? with
  | none =>
      rw [inverseHessian_eq_one (List.getLast?_eq_none_iff.1 last)]
      exact isSymm_one
  | some newest =>
      rw [inverseHessian_eq_refined last]
      exact isSymm_refined _ (isSymm_one.smul _)

/-! ## The two loops -/

theorem reduce_cons (pair : CurvaturePair α n) (rest : List (CurvaturePair α n)) (q : Vector α n) :
    reduce (pair :: rest) q =
      ((reduce rest q).1 - (pair.weight * Vec.dot pair.step (reduce rest q).1 * pair.change : Vector α n),
        pair.weight * Vec.dot pair.step (reduce rest q).1 :: (reduce rest q).2) := rfl

theorem get_restore (pairs : List (CurvaturePair α n)) (q : Vector α n) {z : Vector α n}
    {b : Matrix (Fin n) (Fin n) α} (between : z.get = b *ᵥ (reduce pairs q).1.get) :
    (restore (pairs.zip (reduce pairs q).2) z).get = refined pairs b *ᵥ q.get := by
  induction pairs generalizing z b with
  | nil => exact between
  | cons pair rest ih =>
      rw [reduce_cons] at between ⊢
      apply ih
      simp only [Vec.get_sub, Vec.get_smul, Vec.dot_eq_dotProduct] at between
      simp only [Vec.get_add, Vec.get_smul, Vec.dot_eq_dotProduct]
      -- the pair finds the coefficient that the first loop has left for it
      rw [CurvaturePair.updated_mulVec _ between]

theorem direction_of_scale {h : History α n} {factor : α} (scaled : h.scale = .ok factor) (g : Vector α n) :
    h.direction g = .ok (Vector.ofFn (-(refined h.pairs (factor • 1) *ᵥ g.get))) := by
  simp only [direction, scaled, ok_bind]
  congr 1
  apply Vec.ext_get
  have between : (factor * (reduce h.pairs (-g)).1 : Vector α n).get =
      (factor • (1 : Matrix (Fin n) (Fin n) α)) *ᵥ (reduce h.pairs (-g)).1.get := by
    rw [Vec.get_smul, smul_mulVec, one_mulVec]
  rw [get_restore h.pairs (-g) between, Vec.get_ofFn, Vec.get_neg, mulVec_neg]

theorem scale_eq_ok {h : History α n} {newest : CurvaturePair α n} (last : h.pairs.getLast? = some newest)
    (long : Vec.dot newest.change newest.change ≠ 0) :
    h.scale = .ok (Vec.dot newest.step newest.change / Vec.dot newest.change newest.change) := by
  rw [scale, last]
  exact divide_ok long

theorem direction_eq {h : History α n} (genuine : h.Genuine) (g : Vector α n) :
    h.direction g = .ok (Vector.ofFn (-(h.inverseHessian *ᵥ g.get))) := by
  cases last : h.pairs.getLast? with
  | none =>
      have none := List.getLast?_eq_none_iff.1 last
      have scaled : h.scale = .ok 1 := by rw [scale, last]
      rw [direction_of_scale scaled, inverseHessian_eq_one none, none, one_smul]
      rfl
  | some newest =>
      have long := (genuine newest (List.mem_of_getLast? last)).change_ne_zero
      rw [direction_of_scale (scale_eq_ok last long), inverseHessian_eq_refined last]

theorem inverseHessian_mulVec_change {h : History α n} (genuine : h.Genuine) {newest : CurvaturePair α n}
    (last : h.pairs.getLast? = some newest) : h.inverseHessian *ᵥ newest.change.get = newest.step.get := by
  obtain ⟨older, split⟩ := List.getLast?_eq_some_iff.1 last
  rw [inverseHessian_eq_refined last, refined, split, List.foldl_append]
  exact CurvaturePair.updated_mulVec_change (genuine newest (List.mem_of_getLast? last))

theorem positiveDefinite_refined {pairs : List (CurvaturePair α n)} {b : Matrix (Fin n) (Fin n) α}
    (genuine : ∀ pair ∈ pairs, pair.Genuine) (positive : PositiveDefinite b) :
    PositiveDefinite (refined pairs b) := by
  induction pairs generalizing b with
  | nil => exact positive
  | cons pair rest ih =>
      apply ih fun other member => genuine other (List.mem_cons_of_mem _ member)
      exact CurvaturePair.positiveDefinite_updated (genuine pair List.mem_cons_self) positive

theorem Genuine.positiveDefinite {h : History α n} (genuine : h.Genuine) :
    PositiveDefinite h.inverseHessian := by
  cases last : h.pairs.getLast? with
  | none =>
      rw [inverseHessian_eq_one (List.getLast?_eq_none_iff.1 last), ← one_smul α 1]
      exact .smul_one one_pos
  | some newest =>
      have new := genuine newest (List.mem_of_getLast? last)
      rw [inverseHessian_eq_refined last]
      apply positiveDefinite_refined genuine
      exact .smul_one (div_pos new.positive ((Vec.dot_self_nonneg _).lt_of_ne' new.change_ne_zero))

/-- The direction is minus the gradient, transformed by the inverse Hessian that the history stands for. -/
theorem direction_by_updates {h : History α n} (genuine : h.Genuine) :
    (∀ g, h.direction g = .ok (Vector.ofFn (-(h.inverseHessian *ᵥ g.get)))) ∧
    h.inverseHessian.IsSymm ∧
    (∀ (a b : α) (g g' p p' : Vector α n), h.direction g = .ok p → h.direction g' = .ok p' →
      h.direction (a * g + b * g' : Vector α n) = .ok (a * p + b * p' : Vector α n)) ∧
    (∀ newest, h.pairs.getLast? = some newest → h.direction newest.change = .ok (-newest.step)) ∧
    (h.pairs = [] → ∀ g, h.direction g = .ok (-g)) := by
  refine ⟨direction_eq genuine, isSymm_inverseHessian h, ?_, ?_, ?_⟩
  · intro a b g g' p p' down down'
    rw [direction_eq genuine] at down down'
    obtain rfl := Except.ok.inj down
    obtain rfl := Except.ok.inj down'
    rw [direction_eq genuine]
    congr 1
    apply Vec.ext_get
    simp [mulVec_add, mulVec_smul, add_comm]
  · intro newest last
    rw [direction_eq genuine, inverseHessian_mulVec_change genuine last]
    congr 1
    apply Vec.ext_get
    simp
  · intro none g
    rw [direction_eq genuine, inverseHessian_eq_one none, one_mulVec]
    congr 1
    apply Vec.ext_get
    simp

def bent : History ℚ 2 := ⟨5, [⟨#v[1, 0], #v[2, 1], 1 / 2⟩, ⟨#v[1, 1], #v[1, 3], 1 / 4⟩]⟩

theorem bent_genuine : bent.Genuine := by
  intro pair member
  simp only [bent, List.mem_cons, List.not_mem_nil, or_false] at member
  rcases member with rfl | rfl
  · exact ⟨by decide +kernel, by decide +kernel⟩
  · exact ⟨by decide +kernel, by decide +kernel⟩

theorem bent_by_updates : bent.Genuine ∧ bent.direction #v[1, 3] = .ok #v[-1, -1] ∧
    bent.direction #v[2, 0] = .ok #v[-83 / 40, 1 / 40] ∧ bent.inverseHessian.IsSymm := by
  obtain ⟨updates, symmetric, -, secant, -⟩ := direction_by_updates bent_genuine
  have newest : bent.direction #v[1, 3] = .ok #v[-1, -1] := by
    have opposite : (-#v[1, 1] : Vector ℚ 2) = #v[-1, -1] := by decide +kernel
    rw [← opposite]
    exact secant ⟨#v[1, 1], #v[1, 3], 1 / 4⟩ rfl
  have other : bent.direction #v[2, 0] = .ok #v[-83 / 40, 1 / 40] := by
    have product : Vector.ofFn (-(bent.inverseHessian *ᵥ (#v[2, 0] : Vector ℚ 2).get)) =
        #v[-83 / 40, 1 / 40] := by decide +kernel
    rw [← product]
    exact updates #v[2, 0]
  exact ⟨bent_genuine, newest, other, symmetric⟩

end History

end Descent
