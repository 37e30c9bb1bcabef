import Mathlib
import Descent.Factor.BunchKaufman
import Descent.Proofs.Linear.Blocks

/-!
# Factorization into pivot blocks

In exact arithmetic each pivot that is chosen can be divided by (`BlockFactor.choosePivot_usable`), and what is left
after its rows and columns is the rest of the matrix. So every symmetric matrix, its rows taken in some order, is the
product of a unit lower triangular matrix, a block diagonal one and the transpose of the first
(`BlockFactor.ofSymmetric_factors`).
-/

namespace Descent.BlockFactor

open Matrix

variable {α : Type} {n : Nat}

/-! ## The choice of a pivot -/

section

variable [ExactReal α] {a : Dense α n n} {k : Fin n}

def Pivot.Usable (a : Dense α n n) (k : Fin n) : Pivot n → Prop
  | .zero => ∀ i, k ≤ i → a.get i k = 0
  | .single r => k ≤ r ∧ a.get r r ≠ 0
  | .double r => k < r ∧ a.get r k ≠ 0 ∧ a.get k k * a.get r r ≠ a.get r k * a.get r k

theorem largestAt?_eq_some {value : Fin n → α} {l : List (Fin n)} {r : Fin n}
    (found : largestAt? value l = some r) : r ∈ l ∧ ∀ i ∈ l, value i ≤ value r := by
  cases l with
  | nil => cases found
  | cons first rest =>
      obtain rfl := Option.some.inj found
      clear found
      induction rest generalizing first with
      | nil => simp
      | cons next rest ih =>
          rw [List.foldl_cons]
          obtain ⟨member, most⟩ := ih (if value first < value next then next else first)
          rw [List.forall_mem_cons] at most
          split at member <;> rename_i order <;> simp only [order, if_true, if_false] at most ⊢
          · refine ⟨List.mem_cons_of_mem first member, List.forall_mem_cons.2 ⟨order.le.trans most.1, ?_⟩⟩
            exact List.forall_mem_cons.2 most
          · refine ⟨?_, List.forall_mem_cons.2 ⟨most.1, ?_⟩⟩
            · exact List.mem_cons.2 ((List.mem_cons.1 member).imp_right (List.mem_cons_of_mem next))
            · exact List.forall_mem_cons.2 ⟨(not_lt.1 order).trans most.1, most.2⟩

theorem mem_behind {i : Fin n} : i ∈ behind k ↔ k < i := by
  simp [behind]

theorem eq_of_largestAt?_eq_none {value : Fin n → α} (none : largestAt? value (behind k) = none) {i : Fin n}
    (after : k ≤ i) : i = k := by
  by_contra other
  have later : i ∈ behind k := mem_behind.2 (lt_of_le_of_ne after (Ne.symm other))
  cases some : behind k with
  | nil =>
      rw [some] at later
      cases later
  | cons first rest =>
      rw [some] at none
      cases none

theorem column_eq_zero {r : Fin n} (found : largestAt? (fun i => |a.get i k|) (behind k) = some r)
    (zero : max |a.get k k| |a.get r k| = 0) {i : Fin n} (after : k ≤ i) : a.get i k = 0 := by
  have small := max_le_iff.1 zero.le
  rcases after.eq_or_lt with rfl | later
  · exact abs_nonpos_iff.1 small.1
  · have below := (largestAt?_eq_some found).2 i (mem_behind.2 later)
    exact abs_nonpos_iff.1 (below.trans small.2)

theorem le_largest_of_row {r : Fin n} (after : k < r) : |a.get r k| ≤
    ((k :: behind k).filter (· ≠ r)).foldl (fun largest j => max largest |a.get r j|) 0 := by
  have other : k ∈ (k :: behind k).filter (· ≠ r) :=
    List.mem_filter.2 ⟨List.mem_cons_self, decide_eq_true after.ne⟩
  exact (foldl_max_isGreatest (fun j => |a.get r j|) _ 0).2 (.inr ⟨k, other, rfl⟩)

theorem threshold_pos : 0 < (threshold : α) := by
  rw [threshold, ExactField.ofNat_eq, ExactField.ofNat_eq]
  have root := ExactReal.sqrt_nonneg ((17 : Nat) : α)
  positivity

theorem threshold_le_one : (threshold : α) ≤ 1 := by
  rw [threshold, ExactField.ofNat_eq, ExactField.ofNat_eq, div_le_one (by positivity)]
  have root := ExactReal.sqrt_mul_self ((17 : Nat) : α) (by positivity)
  have least := ExactReal.sqrt_nonneg ((17 : Nat) : α)
  push_cast at root least ⊢
  nlinarith

/-- Two diagonal entries too small to be pivots, `x` beside the column's largest entry `z` and `y` beside its
row's, leave a determinant that does not vanish. -/
theorem mul_ne_mul_self_of_small {x y z row : α} (corner : 0 < |z|) (positive : 0 < row)
    (small : |x| < threshold * |z| * (|z| / row)) (small' : |y| < threshold * row) : x * y ≠ z * z := by
  intro singular
  have t := threshold_pos (α := α)
  have t' := threshold_le_one (α := α)
  have below : |z| * |z| < |z| * |z| := calc
    |z| * |z| = |x| * |y| := by rw [← abs_mul, ← abs_mul, singular]
    _ < threshold * |z| * (|z| / row) * (threshold * row) :=
      mul_lt_mul'' small small' (abs_nonneg _) (abs_nonneg _)
    _ = threshold * threshold * (|z| * |z|) := by
      field_simp
    _ ≤ |z| * |z| :=
      mul_le_of_le_one_left (by positivity) (mul_le_one₀ t' t.le t')
  exact below.false

theorem choosePivot_usable (a : Dense α n n) (k : Fin n) : (choosePivot a k).Usable a k := by
  have t := threshold_pos (α := α)
  simp only [choosePivot, ExactField.isNaN_eq, Bool.or_false, Scalar.same_iff, ExactField.abs_eq]
  cases found : largestAt? (fun i => |a.get i k|) (behind k) with
  | none =>
      simp only
      split
      · rename_i zero
        intro i after
        rw [eq_of_largestAt?_eq_none found after]
        exact abs_eq_zero.1 zero
      · rename_i nonzero
        exact ⟨le_rfl, fun zero => nonzero (abs_eq_zero.2 zero)⟩
  | some r =>
      have after : k < r := mem_behind.1 (largestAt?_eq_some found).1
      simp only [Scalar.larger_eq]
      split
      · rename_i zero
        exact fun i inside => column_eq_zero found zero inside
      · rename_i nonzero
        split
        · rename_i large
          refine ⟨le_rfl, fun zero => nonzero ?_⟩
          rw [zero, abs_zero] at large ⊢
          have least : |a.get r k| ≤ 0 := nonpos_of_mul_nonpos_right large t
          exact max_eq_left least
        · rename_i small
          -- a diagonal entry that is too small has a larger entry in its column
          have corner : 0 < |a.get r k| := by
            by_contra none
            have zero : |a.get r k| = 0 := le_antisymm (not_lt.1 none) (abs_nonneg _)
            rw [zero, mul_zero] at small
            exact small (abs_nonneg _)
          have positive := corner.trans_le (le_largest_of_row (a := a) after)
          split
          · rename_i large
            exact ⟨le_rfl, abs_pos.1 (lt_of_lt_of_le (by positivity) large)⟩
          · rename_i small'
            split
            · rename_i large
              exact ⟨after.le, abs_pos.1 (lt_of_lt_of_le (by positivity) large)⟩
            · rename_i small''
              exact ⟨after, abs_pos.1 corner,
                mul_ne_mul_self_of_small corner positive (not_le.1 small') (not_le.1 small'')⟩

end

/-! ## What is found so far -/

variable [ExactField α] {a : Dense α n n} {p : Progress α n} {k : Nat}

def Progress.unitLower (p : Progress α n) : Matrix (Fin n) (Fin n) α := 1 + p.lower.toMatrix

def Progress.remaining (p : Progress α n) (k : Nat) : Matrix (Fin n) (Fin n) α :=
  .of fun i j => if k ≤ i.val ∧ k ≤ j.val then p.rest.get i j else 0

structure Progress.Found (a : Dense α n n) (k : Nat) (p : Progress α n) : Prop where
  order : Function.Injective p.order.get
  symmetric : p.rest.toMatrix.IsSymm
  lower : ∀ i j, p.lower.get i j ≠ 0 → j < i ∧ j.val < k
  middle : BlockDiagonal p.middle
  inside : ∀ i j, p.middle.get i j ≠ 0 → i.val < k
  product : a.toMatrix.submatrix p.order.get p.order.get =
    p.unitLower * p.middle.toMatrix * p.unitLowerᵀ + p.remaining k

theorem congruence_eq {l l' d : Matrix (Fin n) (Fin n) α} (symmetric : d.IsSymm) (same : l * d = l' * d) :
    l * d * lᵀ = l' * d * l'ᵀ := by
  have flipped : d * lᵀ = d * l'ᵀ := by
    have turned := congrArg transpose same
    rwa [transpose_mul, transpose_mul, symmetric.eq] at turned
  rw [same, Matrix.mul_assoc, flipped, Matrix.mul_assoc]

theorem Progress.Found.isSymm_middle (found : p.Found a k) : p.middle.toMatrix.IsSymm := by
  ext i j
  exact found.middle.symmetric j i

theorem Progress.Found.mul_eq (found : p.Found a k) {l l' : Matrix (Fin n) (Fin n) α}
    (same : ∀ i j : Fin n, j.val < k → l i j = l' i j) :
    l * p.middle.toMatrix * lᵀ = l' * p.middle.toMatrix * l'ᵀ := by
  apply congruence_eq found.isSymm_middle
  ext i j
  rw [mul_apply, mul_apply]
  refine Finset.sum_congr rfl fun m _ => ?_
  by_cases inside : p.middle.get m j = 0
  · exact (mul_eq_zero_of_right _ inside).trans (mul_eq_zero_of_right _ inside).symm
  · rw [same i m (found.inside m j inside)]

/-! ## Exchanges -/

def Progress.reorder (p : Progress α n) (σ : Equiv.Perm (Fin n)) : Progress α n :=
  { p with
    rest := .ofFn fun i j => p.rest.get (σ i) (σ j)
    order := .ofFn fun i => p.order.get (σ i)
    lower := .ofFn fun i j => p.lower.get (σ i) j }

omit [ExactField α] in
theorem Progress.exchange_eq (p : Progress α n) (r s : Fin n) : p.exchange r s = p.reorder (Equiv.swap r s) := by
  have same : transposition r s = Equiv.swap r s := by
    ext i
    rw [transposition, Equiv.swap_apply_def]
  rw [exchange, same, reorder]

theorem Progress.Found.reorder (found : p.Found a k) {σ : Equiv.Perm (Fin n)}
    (fixed : ∀ i : Fin n, i.val < k → σ i = i) : (p.reorder σ).Found a k := by
  have behind (i : Fin n) : k ≤ (σ i).val ↔ k ≤ i.val := by
    rw [← not_iff_not, not_le, not_le]
    constructor
    · intro before
      rwa [σ.injective (fixed _ before)] at before
    · intro before
      rwa [fixed i before]
  have order : (p.reorder σ).order.get = p.order.get ∘ σ := Vec.get_ofFn _
  constructor
  case order =>
    rw [order]
    exact found.order.comp σ.injective
  case symmetric =>
    ext i j
    simp only [Progress.reorder, Dense.toMatrix_apply, Dense.get_ofFn, transpose_apply]
    exact found.symmetric.apply _ _
  case lower =>
    intro i j nonzero
    rw [Progress.reorder, Dense.get_ofFn] at nonzero
    obtain ⟨below, inside⟩ := found.lower _ _ nonzero
    by_cases before : i.val < k
    · exact ⟨fixed i before ▸ below, inside⟩
    · exact ⟨Fin.lt_def.2 (by omega), inside⟩
  case middle => exact found.middle
  case inside => exact found.inside
  case product =>
    have columns (i j : Fin n) (before : j.val < k) :
        p.unitLower (σ i) j = (p.reorder σ).unitLower i j := by
      have turned : σ i = j ↔ i = j := by
        conv_lhs => rw [← fixed j before]
        exact σ.injective.eq_iff
      simp [Progress.unitLower, Progress.reorder, one_apply, turned]
    have product : (p.unitLower * p.middle.toMatrix * p.unitLowerᵀ).submatrix σ σ =
        (p.reorder σ).unitLower * p.middle.toMatrix * (p.reorder σ).unitLowerᵀ :=
      found.mul_eq (l := p.unitLower.submatrix σ id) columns
    have remaining : (p.remaining k).submatrix σ σ = (p.reorder σ).remaining k := by
      ext i j
      simp [Progress.remaining, Progress.reorder, behind]
    have moved := congrArg (submatrix · σ σ) found.product
    simp only [submatrix_add, submatrix_submatrix, Pi.add_apply, product, remaining, ← order] at moved
    exact moved

/-! ## Eliminations -/

theorem Progress.Found.unitLower_apply (found : p.Found a k) {i j : Fin n} (behind : k ≤ j.val) :
    p.unitLower i j = if i = j then 1 else 0 := by
  have none : p.lower.get i j = 0 := by
    by_contra nonzero
    exact behind.not_gt (found.lower i j nonzero).2
  simp [Progress.unitLower, one_apply, none]

structure Progress.Eliminates (p p' : Progress α n) (k m : Nat) (S : Fin n → Prop) [DecidablePred S]
    (x : Fin n → Fin n → α) : Prop where
  rows : ∀ i, S i ↔ k ≤ i.val ∧ i.val < m
  later : k ≤ m
  few : m ≤ k + 2
  order : p'.order = p.order
  symmetric : p'.rest.toMatrix.IsSymm
  lower : ∀ i j, p'.lower.get i j = if S j ∧ m ≤ i.val then x i j else p.lower.get i j
  middle : ∀ i j, p'.middle.get i j = if S i ∧ S j then p.rest.get i j else p.middle.get i j
  solves : ∀ i t : Fin n, m ≤ i.val → S t → (∑ s, if S s then x i s * p.rest.get s t else 0) = p.rest.get i t
  rest : ∀ i j : Fin n, m ≤ i.val → m ≤ j.val → p'.rest.get i j =
    p.rest.get i j - ∑ t, if S t then p.rest.get i t * x j t else 0

namespace Progress

variable {p' : Progress α n} {m : Nat} {S : Fin n → Prop} [DecidablePred S] {x : Fin n → Fin n → α}

def pivotBlock (p : Progress α n) (S : Fin n → Prop) [DecidablePred S] : Matrix (Fin n) (Fin n) α :=
  .of fun i j => if S i ∧ S j then p.rest.get i j else 0

theorem Eliminates.column (eliminates : p.Eliminates p' k m S x) (found : p.Found a k) (i : Fin n) {t : Fin n}
    (pivot : S t) : p'.unitLower i t = if i.val < m then if i = t then 1 else 0 else x i t := by
  obtain ⟨behind, before⟩ := (eliminates.rows t).1 pivot
  have old := found.unitLower_apply (i := i) behind
  rw [unitLower, Matrix.add_apply, Dense.toMatrix_apply] at old ⊢
  rw [eliminates.lower]
  by_cases inside : i.val < m
  · rw [if_neg fun new => inside.not_ge new.2, old, if_pos inside]
  · have other : i ≠ t := by
      rintro rfl
      exact inside before
    rw [if_pos ⟨pivot, not_lt.1 inside⟩, one_apply_ne other, zero_add, if_neg inside]

theorem Eliminates.mul_pivotBlock (eliminates : p.Eliminates p' k m S x) (found : p.Found a k) (i t : Fin n) :
    (p'.unitLower * p.pivotBlock S) i t = if k ≤ i.val ∧ S t then p.rest.get i t else 0 := by
  have term (s : Fin n) : p'.unitLower i s * p.pivotBlock S s t =
      if S s ∧ S t then (if i.val < m then if i = s then 1 else 0 else x i s) * p.rest.get s t else 0 := by
    rw [pivotBlock, of_apply, mul_ite, mul_zero]
    split
    · rename_i pivots
      rw [eliminates.column found i pivots.1]
    · rfl
  simp only [mul_apply, term]
  by_cases pivot : S t
  · simp only [pivot, and_true]
    by_cases inside : i.val < m
    · have row : S i ↔ k ≤ i.val := (eliminates.rows i).trans (and_iff_left inside)
      have diagonal (s : Fin n) : (if S s then (if i = s then 1 else 0) * p.rest.get s t else 0) =
          if i = s then if S i then p.rest.get i t else 0 else 0 := by
        by_cases here : i = s
        · simp [← here]
        · simp [here]
      simp only [inside, if_true, diagonal, Finset.sum_ite_eq, Finset.mem_univ, row]
    · simp only [inside, if_false]
      rw [eliminates.solves i t (not_lt.1 inside) pivot, if_pos (eliminates.later.trans (not_lt.1 inside))]
  · simp [pivot]

theorem Eliminates.taken (eliminates : p.Eliminates p' k m S x) (found : p.Found a k) :
    p'.unitLower * p.pivotBlock S * p'.unitLowerᵀ + p'.remaining m = p.remaining k := by
  have symmetric (i j : Fin n) : p.rest.get i j = p.rest.get j i := found.symmetric.apply j i
  have entry (i j : Fin n) : (p'.unitLower * p.pivotBlock S * p'.unitLowerᵀ) i j =
      ∑ t, if k ≤ i.val ∧ S t then p.rest.get i t * p'.unitLower j t else 0 := by
    rw [Matrix.mul_apply]
    refine Finset.sum_congr rfl fun t _ => ?_
    rw [eliminates.mul_pivotBlock found, transpose_apply, ite_mul, zero_mul]
  have flipped : (p'.unitLower * p.pivotBlock S * p'.unitLowerᵀ).IsSymm := by
    have same : (p.pivotBlock S)ᵀ = p.pivotBlock S := by
      ext i j
      simp only [pivotBlock, transpose_apply, of_apply, and_comm, symmetric j i]
    rw [IsSymm, transpose_mul, transpose_mul, transpose_transpose, same, Matrix.mul_assoc]
  -- the rows that are moved take their part of the rest with them
  have early (i j : Fin n) (before : j.val < m) : (p'.unitLower * p.pivotBlock S * p'.unitLowerᵀ) i j =
      if k ≤ i.val ∧ k ≤ j.val then p.rest.get i j else 0 := by
    have row : S j ↔ k ≤ j.val := (eliminates.rows j).trans (and_iff_left before)
    rw [entry, Finset.sum_eq_single j]
    · by_cases pivot : S j
      · rw [eliminates.column found j pivot, if_pos before, if_pos rfl, mul_one]
        simp only [row]
      · rw [if_neg fun both => pivot both.2, if_neg fun both => pivot (row.2 both.2)]
    · intro t _ other
      split
      · rename_i both
        rw [eliminates.column found j both.2, if_pos before, if_neg other.symm, mul_zero]
      · rfl
    · exact fun absent => absurd (Finset.mem_univ j) absent
  ext i j
  rw [Matrix.add_apply, remaining, remaining, of_apply, of_apply]
  by_cases before : j.val < m
  · have past : ¬(m ≤ i.val ∧ m ≤ j.val) := fun both => before.not_ge both.2
    rw [early i j before, if_neg past, add_zero]
  · by_cases before' : i.val < m
    · have past : ¬(m ≤ i.val ∧ m ≤ j.val) := fun both => before'.not_ge both.1
      rw [← flipped.apply, early j i before', if_neg past, add_zero, symmetric]
      simp only [and_comm]
    · have behind : m ≤ i.val ∧ m ≤ j.val := ⟨not_lt.1 before', not_lt.1 before⟩
      have later := eliminates.later
      have columns (t : Fin n) : (if k ≤ i.val ∧ S t then p.rest.get i t * p'.unitLower j t else 0) =
          if S t then p.rest.get i t * x j t else 0 := by
        by_cases pivot : S t
        · rw [if_pos ⟨later.trans behind.1, pivot⟩, if_pos pivot, eliminates.column found j pivot, if_neg before]
        · rw [if_neg fun both => pivot both.2, if_neg pivot]
      simp only [entry, columns, if_pos behind, eliminates.rest i j behind.1 behind.2]
      rw [if_pos ⟨later.trans behind.1, later.trans behind.2⟩, add_sub_cancel]

theorem Eliminates.blockDiagonal (eliminates : p.Eliminates p' k m S x) (found : p.Found a k) :
    BlockDiagonal p'.middle := by
  have few := eliminates.few
  have entry {i j : Fin n} (nonzero : p'.middle.get i j ≠ 0) :
      (k ≤ i.val ∧ i.val < m ∧ k ≤ j.val ∧ j.val < m) ∨ p.middle.get i j ≠ 0 ∧ i.val < k := by
    rw [eliminates.middle] at nonzero
    split at nonzero
    · rename_i pivots
      have row := (eliminates.rows i).1 pivots.1
      have column := (eliminates.rows j).1 pivots.2
      exact .inl ⟨row.1, row.2, column⟩
    · exact .inr ⟨nonzero, found.inside i j nonzero⟩
  constructor
  · intro i j
    have same : p.rest.get i j = p.rest.get j i := found.symmetric.apply j i
    rw [eliminates.middle, eliminates.middle, found.middle.symmetric i j, same]
    simp only [and_comm]
  · intro i j apart
    by_contra nonzero
    rcases entry nonzero with new | ⟨old, -⟩
    · omega
    · exact old (found.middle.near i j apart)
  · rintro i j l ⟨next, joined⟩ ⟨next', joined'⟩
    rcases entry joined with new | ⟨old, before⟩
    · rcases entry joined' with new' | ⟨old', before'⟩
      · omega
      · omega
    · rcases entry joined' with new' | ⟨old', before'⟩
      · omega
      · exact found.middle.apart i j l ⟨next, old⟩ ⟨next', old'⟩

end Progress

theorem Progress.Found.next (found : p.Found a k) {p' : Progress α n} {m : Nat} {S : Fin n → Prop}
    [DecidablePred S] {x : Fin n → Fin n → α} (eliminates : p.Eliminates p' k m S x) : p'.Found a m := by
  have inside {i : Fin n} (pivot : S i) := (eliminates.rows i).1 pivot
  have outside {i : Fin n} (before : i.val < k) : ¬S i := fun pivot => before.not_ge (inside pivot).1
  have grown : p'.middle.toMatrix = p.middle.toMatrix + p.pivotBlock S := by
    ext i j
    rw [Matrix.add_apply, Progress.pivotBlock, of_apply, Dense.toMatrix_apply, Dense.toMatrix_apply, eliminates.middle]
    split
    · rename_i pivots
      have none : p.middle.get i j = 0 := by
        by_contra nonzero
        exact (found.inside i j nonzero).not_ge (inside pivots.1).1
      rw [none, zero_add]
    · rw [add_zero]
  constructor
  case order => exact eliminates.order ▸ found.order
  case symmetric => exact eliminates.symmetric
  case lower =>
    intro i j nonzero
    rw [eliminates.lower] at nonzero
    split at nonzero
    · rename_i new
      have before := (inside new.1).2
      exact ⟨Fin.lt_def.2 (before.trans_le new.2), before⟩
    · obtain ⟨below, before⟩ := found.lower i j nonzero
      exact ⟨below, before.trans_le eliminates.later⟩
  case middle => exact eliminates.blockDiagonal found
  case inside =>
    intro i j nonzero
    rw [eliminates.middle] at nonzero
    split at nonzero
    · rename_i pivots
      exact (inside pivots.1).2
    · exact (found.inside i j nonzero).trans_le eliminates.later
  case product =>
    have same : p.unitLower * p.middle.toMatrix * p.unitLowerᵀ =
        p'.unitLower * p.middle.toMatrix * p'.unitLowerᵀ := by
      refine found.mul_eq fun i j before => ?_
      have old : p'.lower.get i j = p.lower.get i j :=
        (eliminates.lower i j).trans (if_neg fun new => outside before new.1)
      simp [Progress.unitLower, old]
    rw [eliminates.order, found.product, same, grown, Matrix.mul_add, Matrix.add_mul, add_assoc,
      eliminates.taken found]

/-! ## The three kinds of pivots -/

omit [ExactField α] in
theorem isSymm_ofLower (entry : Fin n → Fin n → α) : (Dense.ofLower entry).toMatrix.IsSymm := by
  ext i j
  simp only [transpose_apply, Dense.toMatrix_apply, Dense.ofLower, Dense.get_ofFn]
  rcases lt_trichotomy i j with before | rfl | behind
  · rw [if_pos before.le, if_neg before.not_ge]
  · rfl
  · rw [if_neg behind.not_ge, if_pos behind.le]

namespace Progress

theorem keep_eliminates {k : Fin n} (found : p.Found a k.val) (zero : ∀ i, k ≤ i → p.rest.get i k = 0) :
    p.Eliminates (p.keep k) k.val (k.val + 1) (· = k) fun _ _ => 0 where
  rows i := by
    rw [Fin.ext_iff]
    omega
  later := Nat.le_succ _
  few := Nat.le_succ _
  order := rfl
  symmetric := found.symmetric
  lower i j := by
    split
    · rename_i below
      by_contra nonzero
      exact (found.lower i j nonzero).2.ne (congrArg Fin.val below.1)
    · rfl
  middle i j := by
    simp only [keep, Dense.get_ofFn]
    split
    · rename_i pivot
      rw [pivot.1, pivot.2]
    · rfl
  solves i t behind pivot := by
    rw [pivot, zero i (Fin.le_def.2 (Nat.le_of_succ_le behind))]
    simp
  rest i j _ _ := by simp [keep]

theorem eliminateSingle_eliminates {k : Fin n} (found : p.Found a k.val) (nonzero : p.rest.get k k ≠ 0) :
    p.Eliminates (p.eliminateSingle k) k.val (k.val + 1) (· = k)
      fun i _ => p.rest.get i k / p.rest.get k k where
  rows i := by
    rw [Fin.ext_iff]
    omega
  later := Nat.le_succ _
  few := Nat.le_succ _
  order := rfl
  symmetric := isSymm_ofLower _
  lower i j := by
    simp only [eliminateSingle, Dense.get_ofFn, mul_one_div]
    rfl
  middle i j := by
    simp only [eliminateSingle, Dense.get_ofFn]
    split
    · rename_i pivot
      rw [pivot.1, pivot.2]
    · rfl
  solves i t _ pivot := by
    rw [Finset.sum_ite_eq', if_pos (Finset.mem_univ k), pivot, div_mul_cancel₀ _ nonzero]
  rest i j behind behind' := by
    have symmetric : p.rest.get i j = p.rest.get j i := found.symmetric.apply j i
    simp only [eliminateSingle, Dense.ofLower, Dense.get_ofFn, if_pos (Fin.lt_def.2 behind),
      if_pos (Fin.lt_def.2 behind'), Finset.sum_ite_eq', Finset.mem_univ, if_true]
    split
    · ring
    · rw [symmetric]
      ring

theorem pair_solves {a b c r s : α} (joined : b ≠ 0) (regular : a * c ≠ b * b) :
    1 / (c / b * (a / b) - 1) / b * (c / b * r - s) = (c * r - b * s) / (a * c - b * b) ∧
    1 / (c / b * (a / b) - 1) / b * (a / b * s - r) = (a * s - b * r) / (a * c - b * b) := by
  have nonzero : a * c - b * b ≠ 0 := sub_ne_zero.2 regular
  have factor : 1 / (c / b * (a / b) - 1) / b = b / (a * c - b * b) := by
    have squared : c / b * (a / b) - 1 = (a * c - b * b) / (b * b) := by
      field_simp
    rw [squared]
    field_simp
  rw [factor]
  constructor <;> field_simp

theorem sum_pair {k l : Fin n} (apart : k ≠ l) (f : Fin n → α) :
    (∑ s, if s = k ∨ s = l then f s else 0) = f k + f l := by
  rw [Fintype.sum_eq_add k l apart fun s other => if_neg (not_or.2 other), if_pos (.inl rfl), if_pos (.inr rfl)]

theorem eliminateDouble_eliminates {k l : Fin n} (next : l.val = k.val + 1) (found : p.Found a k.val)
    (joined : p.rest.get l k ≠ 0)
    (regular : p.rest.get k k * p.rest.get l l ≠ p.rest.get l k * p.rest.get l k) :
    p.Eliminates (p.eliminateDouble k l) k.val (k.val + 2) (fun i => i = k ∨ i = l) fun i t =>
      if t = k then (p.rest.get l l * p.rest.get i k - p.rest.get l k * p.rest.get i l) /
        (p.rest.get k k * p.rest.get l l - p.rest.get l k * p.rest.get l k)
      else (p.rest.get k k * p.rest.get i l - p.rest.get l k * p.rest.get i k) /
        (p.rest.get k k * p.rest.get l l - p.rest.get l k * p.rest.get l k) := by
  have apart : k ≠ l := by
    rintro rfl
    omega
  have symmetric (i j : Fin n) : p.rest.get i j = p.rest.get j i := found.symmetric.apply j i
  have nonzero := sub_ne_zero.2 regular
  have below (i : Fin n) : k.val + 2 ≤ i.val ↔ l < i := by
    rw [Fin.lt_def]
    omega
  constructor
  case rows =>
    intro i
    rw [Fin.ext_iff, Fin.ext_iff]
    omega
  case later => omega
  case few => exact le_rfl
  case order => rfl
  case symmetric => exact isSymm_ofLower _
  case lower =>
    intro i j
    simp only [eliminateDouble, Dense.get_ofFn, (pair_solves joined regular).1, (pair_solves joined regular).2,
      below]
    by_cases inside : l < i
    · by_cases left : j = k
      · simp [inside, left]
      · simp [inside, left]
    · simp [inside]
  case middle =>
    intro i j
    simp only [eliminateDouble, Dense.get_ofFn]
  case solves =>
    intro i t _ pivot
    rw [sum_pair apart, if_pos rfl, if_neg apart.symm]
    rw [div_mul_eq_mul_div, div_mul_eq_mul_div, ← add_div, div_eq_iff nonzero]
    rcases pivot with rfl | rfl
    · ring
    · rw [symmetric k t]
      ring
  case rest =>
    intro i j behind behind'
    simp only [eliminateDouble, Dense.ofLower, Dense.get_ofFn, if_pos ((below i).1 behind),
      if_pos ((below j).1 behind'), (pair_solves joined regular).1, (pair_solves joined regular).2, sum_pair apart,
      if_true, if_neg apart.symm]
    split
    · ring
    · rw [symmetric i j]
      ring

end Progress

/-! ## The whole factorization -/

/-- `a` is `lu * middle * luᵀ`, and the rows of `lu`, taken in the order of the factorization, are unit lower
triangular. -/
structure Factors (f : BlockFactor α n) (lu a : Matrix (Fin n) (Fin n) α) : Prop where
  order : Function.Injective f.order.get
  rows : ∀ i j, lu (f.order.get i) j = f.lower.get i j
  unit : ∀ i, f.lower.get i i = 1
  lower : ∀ i j, i < j → f.lower.get i j = 0
  middle : BlockDiagonal f.middle
  product : lu * f.middle.toMatrix * luᵀ = a

theorem Progress.Found.exchange (found : p.Found a k) {r s : Fin n} (first : k ≤ r.val) (second : k ≤ s.val) :
    (p.exchange r s).Found a k := by
  rw [exchange_eq]
  refine found.reorder fun i before => Equiv.swap_apply_of_ne_of_ne ?_ ?_
  · rintro rfl
    exact before.not_ge first
  · rintro rfl
    exact before.not_ge second

omit [ExactField α] in
theorem Progress.exchange_rest (p : Progress α n) (r s i j : Fin n) :
    (p.exchange r s).rest.get i j = p.rest.get (Equiv.swap r s i) (Equiv.swap r s j) := by
  rw [exchange_eq]
  exact Dense.get_ofFn _ i j

section

variable {α : Type} [ExactReal α] {a : Dense α n n} {p : Progress α n} {k : Nat}

theorem eliminateFrom_found (found : p.Found a k) : ∃ m ≥ n, (eliminateFrom p k).Found a m := by
  fun_induction eliminateFrom p k with
  | case1 p k inside column chosen ih =>
      have usable := choosePivot_usable p.rest column
      rw [chosen] at usable
      exact ih (found.next (Progress.keep_eliminates (k := column) found usable))
  | case2 p k inside column r chosen ih =>
      have usable := choosePivot_usable p.rest column
      rw [chosen] at usable
      have moved := found.exchange (le_refl column.val) (Fin.le_def.1 usable.1)
      have pivot : (p.exchange column r).rest.get column column = p.rest.get r r := by
        rw [Progress.exchange_rest, Equiv.swap_apply_left]
      exact ih (moved.next (Progress.eliminateSingle_eliminates moved (pivot ▸ usable.2)))
  | case3 p k inside column r chosen pair next ih =>
      have usable := choosePivot_usable p.rest column
      rw [chosen] at usable
      obtain ⟨after, joined, regular⟩ := usable
      have moved := found.exchange (r := next) (Nat.le_succ k) (Fin.lt_def.1 after).le
      have kept : Equiv.swap next r column = column :=
        Equiv.swap_apply_of_ne_of_ne (fun same => k.lt_succ_self.ne (congrArg Fin.val same)) after.ne
      have entries : (p.exchange next r).rest.get column column = p.rest.get column column ∧
          (p.exchange next r).rest.get next column = p.rest.get r column ∧
          (p.exchange next r).rest.get next next = p.rest.get r r := by
        simp only [Progress.exchange_rest, kept, Equiv.swap_apply_left, and_self]
      refine ih (moved.next (Progress.eliminateDouble_eliminates (k := column) rfl moved ?_ ?_))
      · rwa [entries.2.1]
      · rwa [entries.1, entries.2.1, entries.2.2]
  | case4 p k inside column r chosen last =>
      have usable := choosePivot_usable p.rest column
      rw [chosen] at usable
      have after : k < r.val := Fin.lt_def.1 usable.1
      omega
  | case5 p k past => exact ⟨k, not_lt.1 past, found⟩

theorem found_first (symmetric : a.toMatrix.IsSymm) :
    Progress.Found a 0 ⟨a, Vector.ofFn id, Dense.zero, Dense.zero⟩ := by
  have none : (Dense.zero : Dense α n n).toMatrix = 0 := by
    ext i j
    exact Dense.get_zero i j
  have all : (Vector.ofFn (id : Fin n → Fin n)).get = id := Vec.get_ofFn id
  constructor
  case order =>
    rw [all]
    exact Function.injective_id
  case symmetric => exact symmetric
  case lower => exact fun i j nonzero => absurd (Dense.get_zero i j) nonzero
  case middle =>
    refine ⟨fun i j => ?_, fun i j _ => Dense.get_zero i j, fun i j _ pair => ?_⟩
    · rw [Dense.get_zero, Dense.get_zero]
    · exact absurd (Dense.get_zero j i) pair.2
  case inside => exact fun i j nonzero => absurd (Dense.get_zero i j) nonzero
  case product =>
    rw [none, Matrix.mul_zero, Matrix.zero_mul, zero_add, all, submatrix_id_id]
    ext i j
    simp [Progress.remaining]

theorem Progress.Found.factors (found : p.Found a k) (past : n ≤ k) : ∃ lu,
    Factors ⟨p.order, .ofFn fun i j => if i = j then 1 else p.lower.get i j, p.middle⟩ lu a.toMatrix := by
  obtain ⟨e, order⟩ := Vec.exists_perm found.order
  have lower (i j : Fin n) : p.unitLower i j = if i = j then 1 else p.lower.get i j := by
    rw [unitLower, Matrix.add_apply, one_apply, Dense.toMatrix_apply]
    split
    · rename_i here
      have none : p.lower.get i j = 0 := by
        by_contra nonzero
        exact (found.lower i j nonzero).1.ne here.symm
      rw [none, add_zero]
    · rw [zero_add]
  have nothing : p.remaining k = 0 := by
    ext i j
    exact if_neg fun both => (i.isLt.trans_le past).not_ge both.1
  refine ⟨p.unitLower.submatrix e.symm id, found.order, fun i j => ?_, fun i => ?_, fun i j above => ?_,
    found.middle, ?_⟩
  · rw [submatrix_apply, ← order, e.symm_apply_apply, Dense.get_ofFn]
    exact lower i j
  · rw [Dense.get_ofFn, if_pos rfl]
  · rw [Dense.get_ofFn, if_neg above.ne]
    by_contra nonzero
    exact (found.lower i j nonzero).1.not_gt above
  · have product := congrArg (submatrix · e.symm e.symm) found.product
    rw [nothing, add_zero, ← order] at product
    simp only [submatrix_submatrix, Equiv.self_comp_symm, submatrix_id_id] at product
    exact product.symm

theorem ofSymmetric_factors (symmetric : a.toMatrix.IsSymm) : ∃ lu, (ofSymmetric a).Factors lu a.toMatrix := by
  obtain ⟨m, past, found⟩ := eliminateFrom_found (found_first symmetric)
  exact found.factors past

end

end Descent.BlockFactor
