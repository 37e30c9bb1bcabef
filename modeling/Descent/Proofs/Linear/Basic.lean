import Mathlib
import Descent.Dense
import Descent.Proofs.ExactField

namespace Descent

open Matrix

variable {α : Type} {n : Nat}

namespace Vec

theorem ext_get {x y : Vector α n} (same : x.get = y.get) : x = y := by
  ext i inside
  exact congrFun same ⟨i, inside⟩

@[simp] theorem get_ofFn (entry : Fin n → α) : (Vector.ofFn entry).get = entry := by
  ext i
  simp [get_eq_getElem]

variable [ExactField α]

@[simp] theorem get_add (x y : Vector α n) : (x + y).get = x.get + y.get := by
  ext i
  simp [get_eq_getElem]

@[simp] theorem get_sub (x y : Vector α n) : (x - y).get = x.get - y.get := by
  ext i
  simp [get_eq_getElem]

@[simp] theorem get_neg (x : Vector α n) : (-x).get = -x.get := by
  ext i
  simp [get_eq_getElem]

@[simp] theorem get_smul (a : α) (x : Vector α n) : (a * x : Vector α n).get = a • x.get := by
  ext i
  simp [get_eq_getElem]

theorem dot_eq_sum (x y : Vector α n) : dot x y = ∑ i, x.get i * y.get i := by
  have entries : (Vector.zipWith (· * ·) x y).toList = List.ofFn fun i => x.get i * y.get i := by
    rw [← Vector.toList_ofFn]
    congr 1
    ext i inside
    simp [get_eq_getElem]
  rw [dot, ← Vector.foldl_toList, ← List.sum_eq_foldl, entries, List.sum_ofFn]

theorem dot_eq_dotProduct (x y : Vector α n) : dot x y = x.get ⬝ᵥ y.get := dot_eq_sum x y

theorem dot_self_nonneg (x : Vector α n) : 0 ≤ dot x x := by
  rw [dot_eq_sum]
  exact Finset.sum_nonneg fun i _ => mul_self_nonneg (x.get i)

theorem dot_eq_zero_of_self {x y : Vector α n} (zero : dot y y = 0) : dot x y = 0 := by
  rw [dot_eq_sum, Finset.sum_eq_zero_iff_of_nonneg fun i _ => mul_self_nonneg (y.get i)] at zero
  rw [dot_eq_sum]
  refine Finset.sum_eq_zero fun i member => ?_
  rw [mul_self_eq_zero.1 (zero i member), mul_zero]

end Vec

theorem foldl_sub_filter {ι : Type} [ExactField α] (l : List ι) (p : ι → Bool) (f : ι → α) (start : α) :
    (l.filter p).foldl (fun rest i => rest - f i) start = start - (l.map fun i => if p i then f i else 0).sum := by
  induction l generalizing start with
  | nil => simp
  | cons i rest ih => cases chosen : p i <;> simp [chosen, ih, sub_sub]

theorem foldl_sub_finRange [ExactField α] (p : Fin n → Prop) [DecidablePred p] (f : Fin n → α) (start : α) :
    ((List.finRange n).filter (p ·)).foldl (fun rest i => rest - f i) start =
      start - ∑ i, if p i then f i else 0 := by
  rw [foldl_sub_filter, Fin.sum_univ_def]
  simp only [decide_eq_true_eq]

theorem foldl_max_isGreatest {ι : Type} [LinearOrder α] (f : ι → α) (l : List ι) (start : α) :
    IsGreatest (insert start {x | ∃ i ∈ l, f i = x}) (l.foldl (fun most i => max most (f i)) start) := by
  induction l generalizing start with
  | nil => simp [IsGreatest, upperBounds]
  | cons i rest ih =>
      obtain ⟨member, bound⟩ := ih (max start (f i))
      rw [List.foldl_cons]
      have both := max_le_iff.1 (bound (Set.mem_insert _ _))
      constructor
      · rcases member with here | ⟨j, inside, same⟩
        · rw [here]
          rcases max_choice start (f i) with first | next
          · exact .inl first
          · exact .inr ⟨i, List.mem_cons_self, next.symm⟩
        · exact .inr ⟨j, List.mem_cons_of_mem i inside, same⟩
      · rintro x (rfl | ⟨j, inside, rfl⟩)
        · exact both.1
        · rcases List.mem_cons.1 inside with rfl | later
          · exact both.2
          · exact bound (.inr ⟨j, later, rfl⟩)

theorem foldl_invariant {β : Type} {step : β → Fin n → β} (P : Nat → β → Prop) {start : β} (first : P 0 start)
    (next : ∀ (i : Fin n) b, P i.val b → P (i.val + 1) (step b i)) : P n (Fin.foldl n step start) := by
  induction n with
  | zero => exact first
  | succ n ih =>
      rw [Fin.foldl_succ_last]
      exact next (Fin.last n) _ (ih fun i b => next i.castSucc b)

theorem foldr_invariant {β : Type} {step : Fin n → β → β} (P : Nat → β → Prop) {start : β} (last : P n start)
    (next : ∀ (i : Fin n) b, P (i.val + 1) b → P i.val (step i b)) : P 0 (Fin.foldr n step start) := by
  induction n generalizing start with
  | zero => exact last
  | succ n ih =>
      rw [Fin.foldr_succ_last]
      exact ih (next (Fin.last n) start last) fun i b => next i.castSucc b

theorem foldlM_finRange {β : Type} {step : β → Fin n → Option β} (P : Nat → β → Prop) (passes : Fin n → Prop)
    {start : β} (first : P 0 start) (next : ∀ (k : Fin n) b, P k.val b →
      (passes k → ∃ b', step b k = some b' ∧ P (k.val + 1) b') ∧ (¬passes k → step b k = none)) :
    ((∀ k, passes k) → ∃ b, (List.finRange n).foldlM step start = some b ∧ P n b) ∧
      (¬(∀ k, passes k) → (List.finRange n).foldlM step start = none) := by
  induction n with
  | zero => exact ⟨fun _ => ⟨start, rfl, first⟩, fun failed => absurd (fun k => k.elim0) failed⟩
  | succ n ih =>
      obtain ⟨passed, failed⟩ := @ih (fun b k => step b k.castSucc) (passes ·.castSucc)
        fun k b holds => next k.castSucc b holds
      rw [List.finRange_succ_last, List.foldlM_append, List.foldlM_map]
      by_cases all : ∀ k : Fin n, passes k.castSucc
      · obtain ⟨b, folded, holds⟩ := passed all
        obtain ⟨passed', failed'⟩ := next (Fin.last n) b holds
        simp only [folded, Option.bind_eq_bind, Option.bind_some, List.foldlM_cons, List.foldlM_nil]
        constructor
        · intro every
          obtain ⟨b', stepped, holds'⟩ := passed' (every (Fin.last n))
          exact ⟨b', by rw [stepped]; rfl, holds'⟩
        · intro some
          rw [failed' fun last => some (Fin.lastCases last all)]
          rfl
      · rw [failed all]
        exact ⟨fun every => absurd (fun k : Fin n => every k.castSucc) all, fun _ => rfl⟩

namespace Vec

variable (value : Fin n → Vector α n → α) (start : Vector α n)

theorem get_foldl_put
    (behind : ∀ i (y y' : Vector α n), (∀ j < i, y.get j = y'.get j) → value i y = value i y') (i : Fin n) :
    (Fin.foldl n (fun y i => put y i (value i y)) start).get i =
      value i (Fin.foldl n (fun y i => put y i (value i y)) start) := by
  refine foldl_invariant (fun k y => ∀ j : Fin n, j.val < k → y.get j = value j y)
    (fun j inside => absurd inside (Nat.not_lt_zero _)) (fun i y known j inside => ?_) i i.isLt
  have kept (m : Fin n) (before : m < i) : y.get m = (put y i (value i y)).get m := by
    rw [get_put, if_neg before.ne']
  rcases (Nat.lt_succ_iff.1 inside).eq_or_lt with here | before
  · obtain rfl : j = i := Fin.ext here
    rw [get_put, if_pos rfl]
    exact behind j _ _ kept
  · rw [← kept j before, known j before]
    exact behind j _ _ fun m below => kept m (below.trans before)

theorem get_foldr_put
    (ahead : ∀ i (y y' : Vector α n), (∀ j, i < j → y.get j = y'.get j) → value i y = value i y')
    (i : Fin n) : (Fin.foldr n (fun i y => put y i (value i y)) start).get i =
      value i (Fin.foldr n (fun i y => put y i (value i y)) start) := by
  refine foldr_invariant (fun k y => ∀ j : Fin n, k ≤ j.val → y.get j = value j y)
    (fun j inside => absurd inside (Nat.not_le.2 j.isLt)) (fun i y known j inside => ?_) i (Nat.zero_le _)
  have kept (m : Fin n) (behind : i < m) : y.get m = (put y i (value i y)).get m := by
    rw [get_put, if_neg behind.ne]
  rcases inside.eq_or_lt with here | behind
  · obtain rfl : i = j := Fin.ext here
    rw [get_put, if_pos rfl]
    exact ahead i _ _ kept
  · rw [← kept j behind, known j behind]
    exact ahead j _ _ fun m above => kept m (behind.trans above)

theorem get_foldl_target {ι : Type} {step : Vector α n → ι → Vector α n} {positions : ι → List (Fin n)}
    {target : Fin n → α} {l : List ι} (next : ∀ b ∈ l, ∀ z k, (step z b).get k =
      if k ∈ positions b then target k else z.get k) (z : Vector α n) (k : Fin n) :
    (l.foldl step z).get k = if k ∈ l.flatMap positions then target k else z.get k := by
  induction l generalizing z with
  | nil => rfl
  | cons b rest ih =>
      rw [List.forall_mem_cons] at next
      rw [List.foldl_cons, ih next.2, next.1, List.flatMap_cons]
      by_cases later : k ∈ rest.flatMap positions <;> simp [later]

theorem exists_perm {order : Vector (Fin n) n} (injective : Function.Injective order.get) :
    ∃ e : Equiv.Perm (Fin n), ⇑e = order.get :=
  ⟨.ofBijective _ (Finite.injective_iff_bijective.1 injective), rfl⟩

theorem get_scatter [Scalar α] {order : Vector (Fin n) n} (injective : Function.Injective order.get)
    (x : Vector α n) (i : Fin n) : (scatter order x).get (order.get i) = x.get i := by
  obtain ⟨e, same⟩ := exists_perm injective
  have next : ∀ b ∈ List.finRange n, ∀ (z : Vector α n) k, (put z (order.get b) (x.get b)).get k =
      if k ∈ [order.get b] then x.get (e.symm k) else z.get k := by
    intro b _ z k
    simp only [get_put, List.mem_singleton, ← same]
    by_cases here : k = e b
    · rw [if_pos here.symm, if_pos here, here, e.symm_apply_apply]
    · rw [if_neg (Ne.symm here), if_neg here]
  have covered : order.get i ∈ (List.finRange n).flatMap fun b => [order.get b] :=
    List.mem_flatMap.2 ⟨i, List.mem_finRange i, List.mem_singleton_self _⟩
  rw [scatter, get_foldl_target next, if_pos covered, ← same, e.symm_apply_apply]

end Vec

namespace Dense

def toMatrix {m : Nat} (a : Dense α m n) : Matrix (Fin m) (Fin n) α := Matrix.of a.get

@[simp] theorem toMatrix_apply {m : Nat} (a : Dense α m n) (i : Fin m) (j : Fin n) :
    a.toMatrix i j = a.get i j := rfl

variable [ExactField α]

@[simp] theorem get_identity (i j : Fin n) : (identity : Dense α n n).get i j = if i = j then 1 else 0 :=
  get_ofFn _ i j

theorem toMatrix_identity : (identity : Dense α n n).toMatrix = 1 := by
  ext i j
  rw [toMatrix_apply, get_identity, one_apply]

theorem toMatrix_shifted (a : Dense α n n) (shift : α) :
    (a.shifted shift).toMatrix = a.toMatrix + shift • (1 : Matrix (Fin n) (Fin n) α) := by
  ext i j
  simp [shifted, one_apply]

theorem isSymm_symmetrized (a : Dense α n n) : a.symmetrized.toMatrix.IsSymm := by
  ext i j
  simp [symmetrized, add_comm]

theorem isFinite_eq_true {m : Nat} (a : Dense α m n) : a.isFinite = true := by
  simp [isFinite, Scalar.isFinite_eq_true]

end Dense

end Descent
