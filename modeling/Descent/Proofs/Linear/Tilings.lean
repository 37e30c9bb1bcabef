import Mathlib
import Descent.Factor.Blocks

namespace Descent.Block

variable {α : Type} {n : Nat}

def positions : Block n → List (Fin n)
  | .single i => [i]
  | .double i j => [i, j]

def Tiles : (first : Nat) → List (Block n) → Prop
  | first, [] => first = n
  | first, .single i :: rest => i.val = first ∧ Tiles (first + 1) rest
  | first, .double i j :: rest => i.val = first ∧ j.val = first + 1 ∧ Tiles (first + 2) rest

def decideTiles : (first : Nat) → (blocks : List (Block n)) → Decidable (Tiles first blocks)
  | first, [] => inferInstanceAs (Decidable (first = n))
  | first, .single i :: rest =>
      have := decideTiles (first + 1) rest
      inferInstanceAs (Decidable (i.val = first ∧ Tiles (first + 1) rest))
  | first, .double i j :: rest =>
      have := decideTiles (first + 2) rest
      inferInstanceAs (Decidable (i.val = first ∧ j.val = first + 1 ∧ Tiles (first + 2) rest))

instance (first : Nat) (blocks : List (Block n)) : Decidable (Tiles first blocks) := decideTiles first blocks

theorem finRange_drop {i : Nat} (inside : i < n) :
    (List.finRange n).drop i = ⟨i, inside⟩ :: (List.finRange n).drop (i + 1) := by
  rw [List.drop_eq_getElem_cons (by rwa [List.length_finRange]), List.getElem_finRange]
  rfl

theorem Tiles.flatMap_positions {first : Nat} {blocks : List (Block n)} (tiles : Tiles first blocks) :
    blocks.flatMap positions = (List.finRange n).drop first := by
  induction blocks generalizing first with
  | nil => rw [List.drop_eq_nil_of_le (List.length_finRange.trans_le tiles.ge), List.flatMap_nil]
  | cons b rest ih =>
      cases b with
      | single i =>
          obtain ⟨rfl, tiles⟩ := tiles
          rw [List.flatMap_cons, ih tiles, finRange_drop i.isLt]
          rfl
      | double i j =>
          obtain ⟨rfl, next, tiles⟩ := tiles
          have pair : i.val + 1 < n := next ▸ j.isLt
          obtain rfl : j = ⟨i.val + 1, pair⟩ := Fin.ext next
          rw [List.flatMap_cons, ih tiles, finRange_drop i.isLt, finRange_drop pair]
          rfl

theorem Tiles.nodup {first : Nat} {blocks : List (Block n)} (tiles : Tiles first blocks) :
    (blocks.flatMap positions).Nodup := by
  rw [tiles.flatMap_positions]
  exact (List.nodup_finRange n).sublist (List.drop_sublist _ _)

section

variable {blocks : List (Block n)} (tiles : Tiles 0 blocks)

include tiles

theorem Tiles.exists_mem (i : Fin n) : ∃ b ∈ blocks, i ∈ b.positions := by
  have covered : i ∈ blocks.flatMap positions := by
    rw [tiles.flatMap_positions]
    exact List.mem_finRange i
  exact List.mem_flatMap.1 covered

theorem Tiles.unique {b b' : Block n} (member : b ∈ blocks) (member' : b' ∈ blocks) {i : Fin n}
    (inside : i ∈ b.positions) (inside' : i ∈ b'.positions) : b = b' := by
  by_contra other
  have apart := (List.nodup_flatMap.1 tiles.nodup).2
  have : Std.Symm (Function.onFun List.Disjoint (positions (n := n))) := ⟨fun _ _ disjoint => disjoint.symm⟩
  exact apart.forall member member' other inside inside'

theorem Tiles.nodup_positions {b : Block n} (member : b ∈ blocks) : b.positions.Nodup :=
  (List.nodup_flatMap.1 tiles.nodup).1 b member

end

variable [Scalar α] {d : Dense α n n}

theorem tiles_scanFrom (d : Dense α n n) {i : Nat} (within : i ≤ n) : Tiles i (scanFrom d i) := by
  fun_induction scanFrom d i with
  | case1 i pair _ ih => exact ⟨rfl, ih pair.le⟩
  | case2 i pair _ ih => exact ⟨rfl, rfl, ih pair⟩
  | case3 i none last => exact ⟨rfl, Nat.le_antisymm last (not_lt.1 none)⟩
  | case4 i none past => exact Nat.le_antisymm within (not_lt.1 past)

theorem tiles_scan (d : Dense α n n) : Tiles 0 (scan d) := tiles_scanFrom d n.zero_le

theorem flatMap_positions (d : Dense α n n) : (scan d).flatMap positions = List.finRange n :=
  (tiles_scan d).flatMap_positions

structure Makes (d : Dense α n n) (blocks : List (Block n)) : Prop where
  tiles : Tiles 0 blocks
  joined : ∀ i j, .double i j ∈ blocks → Scalar.same (d.get j i) 0 = false
  apart : ∀ i j, (∀ b ∈ blocks, i ∈ b.positions → j ∉ b.positions) → Scalar.same (d.get i j) 0 = true

namespace Makes

variable {blocks : List (Block n)} (makes : Makes d blocks)

include makes

theorem below_single {i j : Fin n} (member : .single i ∈ blocks) (other : j ≠ i) :
    Scalar.same (d.get j i) 0 = true := by
  refine makes.apart j i fun b member' inside inside' => ?_
  obtain rfl : .single i = b := makes.tiles.unique member member' (List.mem_singleton_self i) inside'
  exact other (List.mem_singleton.1 inside)

theorem scanFrom_eq {first : Nat} {rest : List (Block n)} (part : rest ⊆ blocks) (tiles : Tiles first rest) :
    scanFrom d first = rest := by
  induction rest generalizing first with
  | nil =>
      obtain rfl : first = n := tiles
      rw [scanFrom, dif_neg (by omega), dif_neg (lt_irrefl first)]
  | cons b rest ih =>
      have part' := List.cons_subset.1 part
      cases b with
      | single i =>
          obtain ⟨rfl, tiles⟩ := tiles
          have behind := ih part'.2 tiles
          rw [scanFrom]
          by_cases pair : i.val + 1 < n
          · have zero := makes.below_single part'.1 (j := ⟨i.val + 1, pair⟩) (Fin.ne_of_gt (Nat.lt_succ_self i.val))
            rw [dif_pos pair, if_pos zero, behind]
          · rw [scanFrom, dif_neg (by omega), dif_neg pair] at behind
            rw [dif_neg pair, dif_pos i.isLt, ← behind]
      | double i j =>
          obtain ⟨rfl, next, tiles⟩ := tiles
          have behind := ih part'.2 tiles
          have pair : i.val + 1 < n := next ▸ j.isLt
          obtain rfl : j = ⟨i.val + 1, pair⟩ := Fin.ext next
          have nonzero := makes.joined _ _ part'.1
          rw [scanFrom, dif_pos pair, if_neg (Bool.eq_false_iff.1 nonzero), behind]

theorem scan_eq : scan d = blocks := makes.scanFrom_eq (List.Subset.refl blocks) makes.tiles

end Makes

def first : Block n → Fin n
  | .single i => i
  | .double i _ => i

theorem first_mem (b : Block n) : b.first ∈ b.positions := by
  cases b <;> exact List.mem_cons_self

def part {R : Type} (m : Matrix (Fin n) (Fin n) R) (b : Block n) :
    Matrix (Fin b.positions.length) (Fin b.positions.length) R :=
  m.submatrix b.positions.get b.positions.get

theorem Tiles.charpoly_eq {R : Type} [CommRing R] {blocks : List (Block n)} (tiles : Tiles 0 blocks)
    {m : Matrix (Fin n) (Fin n) R}
    (apart : ∀ i j, (∀ b ∈ blocks, i ∈ b.positions → j ∉ b.positions) → m i j = 0) :
    m.charpoly = (blocks.map fun b => (part m b).charpoly).prod := by
  -- sorted by the blocks of its rows, the matrix is block triangular
  choose home member inside using tiles.exists_mem
  have home_eq {b : Block n} (here : b ∈ blocks) {i : Fin n} : i ∈ b.positions ↔ (home i).first = b.first := by
    constructor
    · intro row
      rw [tiles.unique (member i) here (inside i) row]
    · intro same
      have row : b.first ∈ (home i).positions := same ▸ (home i).first_mem
      exact tiles.unique (member i) here row b.first_mem ▸ inside i
  have triangular : m.BlockTriangular fun i => (home i).first := by
    intro i j below
    refine apart i j fun b here row row' => below.ne ?_
    show (home j).first = (home i).first
    rw [(home_eq here).1 row, (home_eq here).1 row']
  have distinct : (blocks.map first).Nodup := by
    refine List.pairwise_map.2 ((List.nodup_flatMap.1 tiles.nodup).2.imp ?_)
    intro b b' disjoint same
    exact disjoint b.first_mem (same ▸ b'.first_mem)
  have image : Finset.univ.image (fun i => (home i).first) = (blocks.map first).toFinset := by
    ext i
    simp only [Finset.mem_image, Finset.mem_univ, true_and, List.mem_toFinset, List.mem_map]
    constructor
    · rintro ⟨j, rfl⟩
      exact ⟨home j, member j, rfl⟩
    · rintro ⟨b, here, rfl⟩
      exact ⟨b.first, (home_eq here).1 b.first_mem⟩
  rw [triangular.charpoly, image, List.prod_toFinset _ distinct, List.map_map]
  congr 1
  refine List.map_congr_left fun b here => ?_
  let rows : Fin b.positions.length ≃ {i // (home i).first = b.first} :=
    ((tiles.nodup_positions here).getEquiv).trans (Equiv.subtypeEquivRight fun i => home_eq here)
  have : m.toSquareBlock (fun i => (home i).first) b.first = Matrix.reindex rows rows (part m b) := by
    ext i j
    obtain ⟨k, rfl⟩ := rows.surjective i
    obtain ⟨l, rfl⟩ := rows.surjective j
    rw [Matrix.reindex_apply, Matrix.submatrix_apply, rows.symm_apply_apply, rows.symm_apply_apply]
    rfl
  rw [Function.comp_apply, this, Matrix.charpoly_reindex]

end Descent.Block
