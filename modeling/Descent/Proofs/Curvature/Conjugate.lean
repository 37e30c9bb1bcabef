import Mathlib
import Descent.Proofs.Curvature.InverseHessian

namespace Descent

open Matrix

variable {α : Type} [ExactField α] {n : Nat}

namespace CurvaturePair

def along (a : Matrix (Fin n) (Fin n) α) (s : Vector α n) : CurvaturePair α n :=
  ⟨s, Vector.ofFn (a *ᵥ s.get), 1 / Vec.dot s (Vector.ofFn (a *ᵥ s.get))⟩

def Conjugate (pair other : CurvaturePair α n) : Prop :=
  pair.step.get ⬝ᵥ other.change.get = 0 ∧ other.step.get ⬝ᵥ pair.change.get = 0

theorem Conjugate.symm {pair other : CurvaturePair α n} (conjugate : pair.Conjugate other) :
    other.Conjugate pair := ⟨conjugate.2, conjugate.1⟩

theorem get_change_along (a : Matrix (Fin n) (Fin n) α) (s : Vector α n) :
    (along a s).change.get = a *ᵥ s.get := Vec.get_ofFn _

theorem genuine_along {a : Matrix (Fin n) (Fin n) α} (positive : PositiveDefinite a) {s : Vector α n}
    (nonzero : s.get ≠ 0) : (along a s).Genuine where
  positive := by
    rw [Vec.dot_eq_dotProduct, get_change_along]
    exact positive s.get nonzero
  weight := rfl

theorem conjugate_along {a : Matrix (Fin n) (Fin n) α} (symmetric : a.IsSymm) {s t : Vector α n}
    (across : s.get ⬝ᵥ a *ᵥ t.get = 0) : (along a s).Conjugate (along a t) := by
  rw [Conjugate, get_change_along, get_change_along]
  refine ⟨across, ?_⟩
  have exchanged : t.get ⬝ᵥ a *ᵥ s.get = s.get ⬝ᵥ a *ᵥ t.get := by
    rw [dotProduct_mulVec, ← mulVec_transpose, symmetric.eq, dotProduct_comm]
  exact exchanged.trans across

theorem updated_mulVec_across {pair : CurvaturePair α n} {b : Matrix (Fin n) (Fin n) α} {x z : Fin n → α}
    (image : b *ᵥ x = z) (across : pair.step.get ⬝ᵥ x = 0) (across' : pair.change.get ⬝ᵥ z = 0) :
    pair.updated b *ᵥ x = z := by
  have reduced : z = b *ᵥ (x - (pair.weight * (pair.step.get ⬝ᵥ x)) • pair.change.get) := by
    rw [across, mul_zero, zero_smul, sub_zero, image]
  rw [updated_mulVec x reduced, across, across', sub_self, zero_smul, add_zero]

end CurvaturePair

namespace History

open CurvaturePair

theorem refined_mulVec_across {pairs : List (CurvaturePair α n)} {b : Matrix (Fin n) (Fin n) α}
    {x z : Fin n → α} (image : b *ᵥ x = z)
    (across : ∀ pair ∈ pairs, pair.step.get ⬝ᵥ x = 0 ∧ pair.change.get ⬝ᵥ z = 0) :
    refined pairs b *ᵥ x = z := by
  induction pairs generalizing b with
  | nil => exact image
  | cons pair rest ih =>
      obtain ⟨here, later⟩ := List.forall_mem_cons.1 across
      exact ih (updated_mulVec_across image here.1 here.2) later

/-- Whatever the approximation starts from, mutually conjugate pairs make it map each change to its step: a
pair does so itself, and none of the later ones disturbs it. -/
theorem refined_mulVec_change {pairs : List (CurvaturePair α n)} (genuine : ∀ pair ∈ pairs, pair.Genuine)
    (conjugate : pairs.Pairwise CurvaturePair.Conjugate) (b : Matrix (Fin n) (Fin n) α)
    {pair : CurvaturePair α n} (member : pair ∈ pairs) :
    refined pairs b *ᵥ pair.change.get = pair.step.get := by
  induction pairs generalizing b with
  | nil => cases member
  | cons first rest ih =>
      obtain ⟨apart, conjugate⟩ := List.pairwise_cons.1 conjugate
      obtain ⟨here, genuine⟩ := List.forall_mem_cons.1 genuine
      rcases List.mem_cons.1 member with rfl | later
      · apply refined_mulVec_across (updated_mulVec_change here)
        intro other behind
        obtain ⟨forth, back⟩ := apart other behind
        exact ⟨back, (dotProduct_comm _ _).trans forth⟩
      · exact ih genuine conjugate (first.updated b) later

theorem Genuine.inverseHessian_mulVec {h : History α n} (genuine : h.Genuine)
    (conjugate : h.pairs.Pairwise CurvaturePair.Conjugate) {pair : CurvaturePair α n}
    (member : pair ∈ h.pairs) : h.inverseHessian *ᵥ pair.change.get = pair.step.get := by
  cases last : h.pairs.getLast? with
  | none =>
      rw [List.getLast?_eq_none_iff.1 last] at member
      cases member
  | some newest =>
      rw [inverseHessian_eq_refined last]
      exact refined_mulVec_change genuine conjugate _ member

/-! ## The span of the changes -/

section

variable {a : Matrix (Fin n) (Fin n) α} {steps : List (Vector α n)}

def changeSpan (a : Matrix (Fin n) (Fin n) α) (steps : List (Vector α n)) : Submodule α (Fin n → α) :=
  .span α {y | ∃ s ∈ steps, a *ᵥ s.get = y}

theorem inv_mulVec_mulVec (positive : PositiveDefinite a) (x : Fin n → α) : a⁻¹ *ᵥ a *ᵥ x = x := by
  have injective : Function.Injective a.mulVec := fun _ _ => positive.eq_of_mulVec_eq
  have regular : IsUnit a.det := (isUnit_iff_isUnit_det a).1 (mulVec_injective_iff_isUnit.1 injective)
  rw [mulVec_mulVec, nonsing_inv_mul a regular, one_mulVec]

theorem mulVec_of_mem_changeSpan (positive : PositiveDefinite a) {b : Matrix (Fin n) (Fin n) α}
    (reproduces : ∀ s ∈ steps, b *ᵥ a *ᵥ s.get = s.get) {g : Fin n → α} (member : g ∈ changeSpan a steps) :
    b *ᵥ g = a⁻¹ *ᵥ g := by
  have same : Set.EqOn b.mulVecLin a⁻¹.mulVecLin {y | ∃ s ∈ steps, a *ᵥ s.get = y} := by
    rintro _ ⟨s, inside, rfl⟩
    exact (reproduces s inside).trans (inv_mulVec_mulVec positive s.get).symm
  exact LinearMap.eqOn_span same member

theorem changeSpan_eq_top (positive : PositiveDefinite a) (nonzero : ∀ s ∈ steps, s.get ≠ 0)
    (apart : steps.Pairwise fun s t => s.get ⬝ᵥ a *ᵥ t.get = 0 ∧ t.get ⬝ᵥ a *ᵥ s.get = 0)
    (full : steps.length = n) : changeSpan a steps = ⊤ := by
  let step (i : Fin steps.length) : Fin n → α := (steps.get i).get
  have independent : LinearIndependent α step := by
    refine LinearMap.linearIndependent_of_isOrthoᵢ (B := toLinearMap₂' α a) ?_ fun i self => ?_
    · intro i j different
      have across : step i ⬝ᵥ a *ᵥ step j = 0 := by
        rcases lt_or_gt_of_ne different with before | behind
        · exact (List.pairwise_iff_get.1 apart i j before).1
        · exact (List.pairwise_iff_get.1 apart j i behind).2
      exact (toLinearMap₂'_apply' a _ _).trans across
    · have form : step i ⬝ᵥ a *ᵥ step i = 0 := (toLinearMap₂'_apply' a _ _).symm.trans self
      exact (positive _ (nonzero _ (List.get_mem steps i))).ne' form
  have images : LinearIndependent α (a.mulVecLin ∘ step) := by
    refine independent.map' a.mulVecLin (LinearMap.ker_eq_bot_of_injective fun x y same => ?_)
    exact positive.eq_of_mulVec_eq same
  have count : Fintype.card (Fin steps.length) = Module.finrank α (Fin n → α) := by
    rw [Fintype.card_fin, Module.finrank_fin_fun, full]
  have range : {y | ∃ s ∈ steps, a *ᵥ s.get = y} = Set.range (a.mulVecLin ∘ step) := by
    ext y
    constructor
    · rintro ⟨s, member, rfl⟩
      obtain ⟨i, rfl⟩ := List.mem_iff_get.1 member
      exact ⟨i, rfl⟩
    · rintro ⟨i, rfl⟩
      exact ⟨steps.get i, List.get_mem steps i, rfl⟩
  rw [changeSpan, range]
  exact images.span_eq_top_of_card_eq_finrank' count

end

/-! ## Directions -/

omit [ExactField α] in
theorem pairs_foldl_push (h : History α n) (pairs : List (CurvaturePair α n))
    (room : h.pairs.length + pairs.length ≤ h.limit) : (pairs.foldl push h).pairs = h.pairs ++ pairs := by
  induction pairs generalizing h with
  | nil => simp
  | cons pair rest ih =>
      rw [List.length_cons] at room
      have kept : (h.push pair).pairs = h.pairs ++ [pair] := by
        have none : (h.pairs ++ [pair]).length - h.limit = 0 := by
          rw [List.length_append, List.length_singleton]
          omega
        simp only [push, none, List.drop_zero]
      have limit : (h.push pair).limit = h.limit := rfl
      rw [List.foldl_cons, ih, kept, List.append_assoc, List.singleton_append]
      rw [kept, limit, List.length_append, List.length_singleton]
      omega

/-- A history of the pairs of conjugate steps gives back each step for its change, minus the inverse of the
matrix on all that the changes span, and everywhere if there are as many steps as dimensions. -/
theorem conjugate_pairs {a : Matrix (Fin n) (Fin n) α} (symmetric : a.IsSymm) (positive : PositiveDefinite a)
    {steps : List (Vector α n)} (nonzero : ∀ s ∈ steps, s.get ≠ 0)
    (conjugate : steps.Pairwise fun s t => s.get ⬝ᵥ a *ᵥ t.get = 0) :
    (∀ h : History α n, h.pairs.Perm (steps.map (along a)) →
      (∀ s ∈ steps, h.direction (Vector.ofFn (a *ᵥ s.get)) = .ok (-s)) ∧
      (∀ g : Vector α n, g.get ∈ changeSpan a steps →
        h.direction g = .ok (Vector.ofFn (-(a⁻¹ *ᵥ g.get)))) ∧
      (steps.length = n → ∀ g : Vector α n, h.direction g = .ok (Vector.ofFn (-(a⁻¹ *ᵥ g.get))))) ∧
    ∀ limit, steps.length ≤ limit →
      ((steps.map (along a)).foldl push (.empty limit)).pairs = steps.map (along a) := by
  have pairwise : (steps.map (along a)).Pairwise CurvaturePair.Conjugate :=
    List.pairwise_map.2 (conjugate.imp fun across => conjugate_along symmetric across)
  have apart : steps.Pairwise fun s t => s.get ⬝ᵥ a *ᵥ t.get = 0 ∧ t.get ⬝ᵥ a *ᵥ s.get = 0 := by
    refine (List.pairwise_map.1 pairwise).imp fun {s t} across => ?_
    rwa [Conjugate, get_change_along, get_change_along] at across
  refine ⟨fun h holds => ?_, fun limit room => ?_⟩
  · have genuine : h.Genuine := by
      intro pair member
      obtain ⟨s, inside, rfl⟩ := List.mem_map.1 (holds.mem_iff.1 member)
      exact genuine_along positive (nonzero s inside)
    have together : h.pairs.Pairwise CurvaturePair.Conjugate :=
      (holds.pairwise_iff CurvaturePair.Conjugate.symm).2 pairwise
    -- what is right for each change is right for all that they span
    have reproduces : ∀ s ∈ steps, h.inverseHessian *ᵥ a *ᵥ s.get = s.get := by
      intro s inside
      rw [← get_change_along]
      exact genuine.inverseHessian_mulVec together (holds.mem_iff.2 (List.mem_map_of_mem inside))
    have spanned (g : Vector α n) (member : g.get ∈ changeSpan a steps) :
        h.direction g = .ok (Vector.ofFn (-(a⁻¹ *ᵥ g.get))) := by
      rw [direction_eq genuine, mulVec_of_mem_changeSpan positive reproduces member]
    refine ⟨fun s inside => ?_, spanned, fun full g => spanned g ?_⟩
    · rw [direction_eq genuine, Vec.get_ofFn, reproduces s inside]
      congr 1
      apply Vec.ext_get
      simp
    · rw [changeSpan_eq_top positive nonzero apart full]
      exact Submodule.mem_top
  · rw [pairs_foldl_push _ _ (by simpa [empty] using room)]
    rfl

def slanted : Matrix (Fin 2) (Fin 2) ℚ := !![2, 1; 1, 3]

def slantedSteps : List (Vector ℚ 2) := [.ofFn ![1, 0], .ofFn ![1, -2]]

def slantedHistory : History ℚ 2 := ⟨2, slantedSteps.reverse.map (along slanted)⟩

theorem positiveDefinite_slanted : PositiveDefinite slanted := by
  intro x nonzero
  have form : x ⬝ᵥ slanted *ᵥ x = (x 0 + x 1) ^ 2 + x 0 ^ 2 + 2 * x 1 ^ 2 := by
    simp only [slanted, dotProduct, mulVec, Fin.sum_univ_two, of_apply, cons_val_zero, cons_val_one]
    ring
  refine lt_of_lt_of_eq ?_ form.symm
  by_cases first : x 0 = 0
  · have second : x 1 ≠ 0 := by
      intro zero
      apply nonzero
      ext i
      fin_cases i
      · exact first
      · exact zero
    positivity
  · positivity

theorem slanted_conjugate_pairs : slanted.IsSymm ∧ PositiveDefinite slanted ∧
    (slantedSteps.Pairwise fun s t => s.get ⬝ᵥ slanted *ᵥ t.get = 0) ∧
    slantedHistory.direction (.ofFn ![2, 1]) = .ok (.ofFn ![-1, 0]) ∧
    slantedHistory.direction (.ofFn ![1, 2]) = .ok (.ofFn ![-1 / 5, -3 / 5]) := by
  have symmetric : slanted.IsSymm := by decide +kernel
  have nonzero : ∀ s ∈ slantedSteps, s.get ≠ 0 := by decide +kernel
  have conjugate : slantedSteps.Pairwise fun s t => s.get ⬝ᵥ slanted *ᵥ t.get = 0 := by decide +kernel
  obtain ⟨holds, -⟩ := conjugate_pairs symmetric positiveDefinite_slanted nonzero conjugate
  obtain ⟨reproduces, -, everywhere⟩ := holds slantedHistory (slantedSteps.reverse_perm.map (along slanted))
  have first : slantedHistory.direction (.ofFn ![2, 1]) = .ok (.ofFn ![-1, 0]) := by
    have change : Vector.ofFn ![2, 1] = Vector.ofFn (slanted *ᵥ (Vector.ofFn ![1, 0]).get) := by decide +kernel
    have step : (Vector.ofFn ![-1, 0] : Vector ℚ 2) = -Vector.ofFn ![1, 0] := by decide +kernel
    rw [change, step]
    exact reproduces _ List.mem_cons_self
  have other : slantedHistory.direction (.ofFn ![1, 2]) = .ok (.ofFn ![-1 / 5, -3 / 5]) := by
    have solved : (Vector.ofFn ![1, 2]).get = slanted *ᵥ ![1 / 5, 3 / 5] := by decide +kernel
    have opposite : (Vector.ofFn ![-1 / 5, -3 / 5] : Vector ℚ 2) = Vector.ofFn (-![1 / 5, 3 / 5]) := by
      decide +kernel
    have inverse : slanted⁻¹ *ᵥ (Vector.ofFn ![1, 2]).get = ![1 / 5, 3 / 5] := by
      rw [solved]
      exact inv_mulVec_mulVec positiveDefinite_slanted _
    rw [opposite, ← inverse]
    exact everywhere rfl _
  exact ⟨symmetric, positiveDefinite_slanted, conjugate, first, other⟩

end History

end Descent
