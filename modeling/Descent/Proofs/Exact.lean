import Mathlib
import Descent.Sparse

namespace Descent

/-- Scalars that are added without rounding. -/
class ExactSums (α : Type) extends Scalar α, AddCommMonoid α

instance : Scalar ℚ where
  decideLT := inferInstance
  decideLE := inferInstance
  ofNat n := n
  abs a := |a|
  sqrt := Rat.sqrt
  isNaN _ := false
  isInfinite _ := false

instance : ExactSums ℚ where
  add_assoc := add_assoc
  zero_add := zero_add
  add_zero := add_zero
  add_comm := add_comm
  nsmul := nsmulRec

variable {α : Type} [ExactSums α]

theorem read_foldl {β γ : Type} {step : γ → β → γ} {part : β → α} (read : γ → α)
    (adds : ∀ c b, read (step c b) = read c + part b) (l : List β) (c : γ) :
    read (l.foldl step c) = read c + (l.map part).sum := by
  induction l generalizing c with
  | nil => simp
  | cons b rest ih => rw [List.foldl_cons, ih, adds, List.map_cons, List.sum_cons, add_assoc]

theorem sum_flatMap {β γ : Type} (f : γ → α) (g : β → List γ) (l : List β) :
    ((l.flatMap g).map f).sum = (l.map fun b => ((g b).map f).sum).sum := by
  induction l with
  | nil => rfl
  | cons b rest ih => simp [ih]

theorem sum_range_offset (offset size i : Nat) (f : Nat → α) :
    ((List.range size).map fun k => if offset + k = i then f k else 0).sum =
      if offset ≤ i ∧ i < offset + size then f (i - offset) else 0 := by
  induction size with
  | zero => simp
  | succ size ih =>
      rw [List.range_succ, List.map_append, List.sum_append, ih, List.map_singleton,
        List.sum_singleton]
      by_cases last : offset + size = i
      · rw [if_neg (by omega), if_pos last, if_pos (by omega), zero_add, ← last,
          Nat.add_sub_cancel_left]
      · rw [if_neg last, add_zero]
        congr 1
        rw [eq_iff_iff]
        omega

def blockPart (top left : Nat) (block : List (List α)) (i j : Nat) : α :=
  if top ≤ i ∧ left ≤ j then (block.getD (i - top) []).getD (j - left) 0 else 0

namespace Dense

variable {m n : Nat}

theorem get_zero (i : Fin m) (j : Fin n) : (zero : Dense α m n).get i j = 0 := get_ofFn _ i j

theorem get_addBlock (a : Dense α m n) (top left : Nat) (block : List (List α)) (i : Fin m)
    (j : Fin n) : (a.addBlock top left block).get i j =
      a.get i j + blockPart top left block i.val j.val := by
  rw [addBlock, get_ofFn, blockPart]
  by_cases inside : top ≤ i.val ∧ left ≤ j.val
  · rw [if_neg (by omega), if_pos inside]
    cases row : block[i.val - top]? with
    | none => simp [List.getD_eq_getElem?_getD, row]
    | some row' => cases entry : row'[j.val - left]? <;> simp [List.getD_eq_getElem?_getD, row, entry]
  · rw [if_pos (by omega), if_neg inside, add_zero]

end Dense

namespace Sparse

variable {m n : Nat}

def rowEntry (row : List (Fin n × α)) (j : Fin n) : α :=
  match row.find? (·.1 = j) with
  | some (_, v) => v
  | none => 0

theorem rowEntry_cons (c : Fin n) (v : α) (row : List (Fin n × α)) (j : Fin n) :
    rowEntry ((c, v) :: row) j = if c = j then v else rowEntry row j := by
  by_cases here : c = j <;> simp [rowEntry, here]

theorem rowEntry_eq_zero {row : List (Fin n × α)} {j : Fin n} (behind : ∀ e ∈ row, j < e.1) :
    rowEntry row j = 0 := by
  have none : row.find? (·.1 = j) = none := by
    rw [List.find?_eq_none]
    intro e member
    simpa using (behind e member).ne'
  rw [rowEntry, none]

def Ordered (row : List (Fin n × α)) : Prop := row.Pairwise (·.1 < ·.1)

theorem mem_addToRow {c : Fin n} {v : α} {row : List (Fin n × α)} {e : Fin n × α}
    (member : e ∈ addToRow c v row) : e.1 = c ∨ ∃ e' ∈ row, e'.1 = e.1 := by
  induction row with
  | nil => simp_all [addToRow]
  | cons first rest ih =>
      obtain ⟨c', v'⟩ := first
      simp only [addToRow] at member
      split_ifs at member with before same
      · rcases List.mem_cons.1 member with rfl | member
        · exact .inl rfl
        · exact .inr ⟨e, member, rfl⟩
      · rcases List.mem_cons.1 member with rfl | member
        · exact .inl same.symm
        · exact .inr ⟨e, List.mem_cons_of_mem _ member, rfl⟩
      · rcases List.mem_cons.1 member with rfl | member
        · exact .inr ⟨_, List.mem_cons_self, rfl⟩
        · rcases ih member with here | ⟨e', member', same'⟩
          · exact .inl here
          · exact .inr ⟨e', List.mem_cons_of_mem _ member', same'⟩

theorem Ordered.addToRow {row : List (Fin n × α)} (ordered : Ordered row) (c : Fin n) (v : α) :
    Ordered (addToRow c v row) := by
  induction row with
  | nil => exact List.pairwise_singleton _ _
  | cons first rest ih =>
      obtain ⟨c', v'⟩ := first
      obtain ⟨behind, ordered⟩ := List.pairwise_cons.1 ordered
      simp only [Sparse.addToRow]
      split_ifs with before same
      · refine List.pairwise_cons.2 ⟨fun e member => ?_, List.pairwise_cons.2 ⟨behind, ordered⟩⟩
        rcases List.mem_cons.1 member with rfl | member
        · exact before
        · exact before.trans (behind e member)
      · exact List.pairwise_cons.2 ⟨behind, ordered⟩
      · refine List.pairwise_cons.2 ⟨fun e member => ?_, ih ordered⟩
        rcases mem_addToRow member with here | ⟨e', member', same'⟩
        · exact here ▸ lt_of_le_of_ne (not_lt.1 before) (Ne.symm same)
        · exact same' ▸ behind e' member'

theorem rowEntry_addToRow {row : List (Fin n × α)} (ordered : Ordered row) (c : Fin n) (v : α)
    (j : Fin n) : rowEntry (addToRow c v row) j = rowEntry row j + if c = j then v else 0 := by
  induction row with
  | nil => rw [addToRow, rowEntry_cons, rowEntry, List.find?_nil, zero_add]
  | cons first rest ih =>
      obtain ⟨c', v'⟩ := first
      obtain ⟨behind, ordered'⟩ := List.pairwise_cons.1 ordered
      rcases lt_trichotomy c c' with before | rfl | after
      · rw [addToRow, if_pos before, rowEntry_cons]
        by_cases here : c = j
        · -- an ordered row has no entry for `j` behind the place where one is inserted
          have none : rowEntry ((c', v') :: rest) j = 0 := by
            apply rowEntry_eq_zero
            intro e member
            rcases List.mem_cons.1 member with rfl | member
            · exact here ▸ before
            · exact here ▸ before.trans (behind e member)
          rw [if_pos here, if_pos here, none, zero_add]
        · rw [if_neg here, if_neg here, add_zero]
      · rw [addToRow, if_neg (lt_irrefl c), if_pos rfl, rowEntry_cons, rowEntry_cons]
        by_cases here : c = j
        · rw [if_pos here, if_pos here, if_pos here]
        · rw [if_neg here, if_neg here, if_neg here, add_zero]
      · rw [addToRow, if_neg (not_lt_of_gt after), if_neg after.ne', rowEntry_cons, rowEntry_cons]
        by_cases there : c' = j
        · have other : c ≠ j := there ▸ after.ne'
          rw [if_pos there, if_pos there, if_neg other, add_zero]
        · rw [if_neg there, if_neg there, ih ordered']

def tripletPart (i j : Nat) (t : Triplet α) : α := if t.row = i ∧ t.column = j then t.value else 0

theorem get_eq_rowEntry (a : Sparse α m n) (i : Fin m) (j : Fin n) :
    a.get i j = rowEntry (a.rows.get i) j := rfl

theorem get_add {a : Sparse α m n} (ordered : ∀ i, Ordered (a.rows.get i)) (row : Fin m)
    (column : Fin n) (v : α) (i : Fin m) (j : Fin n) : (a.add row column v).get i j =
      a.get i j + tripletPart i.val j.val ⟨row.val, column.val, v⟩ := by
  rw [get_eq_rowEntry, get_eq_rowEntry, add, Vec.get_put, tripletPart]
  by_cases same : row = i
  · subst same
    simp only [↓reduceIte, rowEntry_addToRow (ordered row), true_and, Fin.ext_iff]
  · rw [if_neg same, if_neg fun both => same (Fin.ext both.1), add_zero]

theorem ordered_add {a : Sparse α m n} (ordered : ∀ i, Ordered (a.rows.get i)) (row : Fin m)
    (column : Fin n) (v : α) (i : Fin m) : Ordered ((a.add row column v).rows.get i) := by
  rw [add, Vec.get_put]
  split
  · exact (ordered row).addToRow column v
  · exact ordered i

theorem get_empty (i : Fin m) (j : Fin n) : (empty : Sparse α m n).get i j = 0 := by
  rw [get_eq_rowEntry, empty, Vec.get_eq_getElem, Vector.getElem_replicate]
  rfl

theorem get_ofTriplets (triplets : List (Triplet α)) (i : Fin m) (j : Fin n) :
    (ofTriplets triplets : Sparse α m n).get i j = (triplets.map (tripletPart i.val j.val)).sum := by
  suffices general : ∀ a : Sparse α m n, (∀ i, Ordered (a.rows.get i)) →
      (triplets.foldl (fun a t => if h : t.row < m ∧ t.column < n then
        a.add ⟨t.row, h.1⟩ ⟨t.column, h.2⟩ t.value else a) a).get i j =
        a.get i j + (triplets.map (tripletPart i.val j.val)).sum by
    rw [ofTriplets, general empty fun i => ?_, get_empty, zero_add]
    rw [empty, Vec.get_eq_getElem, Vector.getElem_replicate]
    exact List.Pairwise.nil
  induction triplets with
  | nil => simp
  | cons t rest ih =>
      intro a ordered
      rw [List.foldl_cons, List.map_cons, List.sum_cons]
      by_cases inside : t.row < m ∧ t.column < n
      · rw [dif_pos inside, ih _ (ordered_add ordered _ _ _), get_add ordered, add_assoc]
      · have outside : tripletPart i.val j.val t = 0 := by
          rw [tripletPart, if_neg]
          rintro ⟨row, column⟩
          exact inside ⟨row ▸ i.isLt, column ▸ j.isLt⟩
        rw [dif_neg inside, ih a ordered, outside, zero_add]

end Sparse

end Descent
