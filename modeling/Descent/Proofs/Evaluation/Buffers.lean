import Descent.Objective.Evaluate

namespace Descent.Buffer

variable {α : Type}

theorem length_writeEntries (count : Nat) (entry : Nat → α) (buffer : List α) :
    (writeEntries count entry buffer).length = buffer.length :=
  List.length_mapIdx

theorem lengths_writeRows (counts : List Nat) (entry : Nat → Nat → α) (buffers : List (List α)) :
    (writeRows counts entry buffers).map List.length = buffers.map List.length := by
  apply List.ext_getElem <;> simp [writeRows, length_writeEntries]

theorem take_writeEntries {count : Nat} {buffer : List α} (room : count ≤ buffer.length)
    (entry : Nat → α) : (writeEntries count entry buffer).take count = (List.range count).map entry := by
  apply List.ext_getElem
  · simp [writeEntries, room]
  · intro i inside _
    rw [List.length_take] at inside
    simp [writeEntries, show i < count by omega]

theorem readRows_writeRows {counts : List Nat} {buffers : List (List α)}
    (enough : counts.length ≤ buffers.length)
    (room : ∀ count ∈ counts, ∀ buffer ∈ buffers, count ≤ buffer.length) (entry : Nat → Nat → α) :
    readRows counts (writeRows counts entry buffers) =
      counts.mapIdx fun k count => (List.range count).map (entry k) := by
  apply List.ext_getElem
  · simp [readRows, writeRows, enough]
  · intro k inside _
    have here : k < counts.length := by simp [readRows] at inside; omega
    have row : k < buffers.length := by omega
    have fits := room counts[k] (List.getElem_mem here) buffers[k] (List.getElem_mem row)
    simp [readRows, writeRows, List.getElem?_eq_getElem here, take_writeEntries fits]

theorem forall_mem_getD {β : Type} {p : β → Prop} {lists : List (List β)}
    (all : ∀ l ∈ lists, ∀ b ∈ l, p b) (k : Nat) : ∀ b ∈ lists.getD k [], p b := by
  intro b member
  rw [List.getD_eq_getElem?_getD] at member
  cases found : lists[k]? with
  | none => simp [found] at member
  | some l =>
      rw [found] at member
      exact all l (List.mem_of_getElem? found) b member

theorem getD_eq_zero [Zero α] {entries : List α} (zeros : ∀ a ∈ entries, a = 0) (i : Nat) :
    entries.getD i 0 = 0 := by
  rw [List.getD_eq_getElem?_getD]
  cases found : entries[i]? with
  | none => rfl
  | some a => exact zeros a (List.mem_of_getElem? found)

theorem entry_zeroed [Zero α] (counts : List Nat) (buffers : List (List α)) :
    entry (readRows counts (writeRows counts (fun _ _ => 0) buffers)) = fun _ _ => 0 := by
  have zeros : ∀ row ∈ readRows counts (writeRows counts (fun _ _ => 0) buffers), ∀ a ∈ row,
      a = 0 := by
    intro row member a inside
    obtain ⟨k, bound, rfl⟩ := List.mem_iff_getElem.1 member
    have here : k < counts.length := by
      simp only [readRows, List.length_zipWith] at bound
      omega
    simp only [readRows, writeRows, List.getElem_zipWith, List.getElem_mapIdx,
      List.getD_eq_getElem?_getD, List.getElem?_eq_getElem here, Option.getD_some] at inside
    obtain ⟨i, below, rfl⟩ := List.mem_take_iff_getElem.1 inside
    have first : i < counts[k] := by omega
    simp [writeEntries, first]
  funext k i
  exact getD_eq_zero (forall_mem_getD zeros k) i

def extents (blocks : TermBlocks α) : List (List (List Nat)) :=
  blocks.map fun row => row.map fun block => block.map List.length

theorem mapIdx_const (entry : Nat → α) (entries : List α) :
    (entries.mapIdx fun i _ => entry i) = (List.range entries.length).map entry := by
  apply List.ext_getElem <;> simp

theorem mapIdx_map {β γ : Type} (f : α → β) (g : Nat → β → γ) (l : List α) :
    (l.map f).mapIdx g = l.mapIdx fun i a => g i (f a) := by
  apply List.ext_getElem <;> simp

theorem writeBlocks_extents (entry : Nat → Nat → Nat → Nat → α) (blocks : TermBlocks α) :
    writeBlocks entry blocks = (extents blocks).mapIdx fun k row => row.mapIdx fun l block =>
      block.mapIdx fun i extent => (List.range extent).map (entry k l i) := by
  simp only [writeBlocks, extents, mapIdx_const, mapIdx_map]

theorem extents_writeBlocks (entry : Nat → Nat → Nat → Nat → α) (blocks : TermBlocks α) :
    extents (writeBlocks entry blocks) = extents blocks := by
  apply List.ext_getElem (by simp [writeBlocks, extents])
  intro k _ _
  apply List.ext_getElem (by simp [writeBlocks, extents])
  intro l _ _
  apply List.ext_getElem <;> simp [writeBlocks, extents]

def blockExtents (dimensions : List Nat) : List (List (List Nat)) :=
  dimensions.map fun d => dimensions.map fun e => List.replicate d e

theorem extents_zeroBlocks [Zero α] (dimensions : List Nat) :
    extents (zeroBlocks dimensions : TermBlocks α) = blockExtents dimensions := by
  simp [extents, zeroBlocks, blockExtents, zeros, Function.comp_def]

theorem writeBlocks_eq {dimensions : List Nat} {blocks : TermBlocks α}
    (fits : extents blocks = blockExtents dimensions) (entry : Nat → Nat → Nat → Nat → α) :
    writeBlocks entry blocks = dimensions.mapIdx fun k d => dimensions.mapIdx fun l e =>
      (List.range d).map fun i => (List.range e).map (entry k l i) := by
  have block (k l d e : Nat) :
      ((List.replicate d e).mapIdx fun i extent => (List.range extent).map (entry k l i)) =
        (List.range d).map fun i => (List.range e).map (entry k l i) := by
    apply List.ext_getElem <;> simp
  simp only [writeBlocks_extents, fits, blockExtents, mapIdx_map, block]

theorem writeBlocks_zero [Zero α] (blocks : TermBlocks α) :
    ∀ row ∈ writeBlocks (fun _ _ _ _ => 0) blocks, ∀ block ∈ row, ∀ entries ∈ block, ∀ a ∈ entries,
      a = 0 := by
  intro row member block member' entries member'' a inside
  obtain ⟨k, _, rfl⟩ := List.mem_mapIdx.1 member
  obtain ⟨l, _, rfl⟩ := List.mem_mapIdx.1 member'
  obtain ⟨i, _, rfl⟩ := List.mem_mapIdx.1 member''
  obtain ⟨j, _, rfl⟩ := List.mem_mapIdx.1 inside
  rfl

theorem blockEntry_zeroed [Scalar α] (request : Request) (s : TermStorage α) :
    Registry.blockEntry request (Registry.writeTermBlocks request (fun _ _ _ _ => 0) s) =
      fun _ _ _ _ => 0 := by
  funext k l i j
  unfold Registry.blockEntry Registry.writeTermBlocks
  split
  · cases s.blocks with
    | none => simp [entry]
    | some blocks =>
        have rows := forall_mem_getD (writeBlocks_zero blocks) k
        exact getD_eq_zero (forall_mem_getD (forall_mem_getD rows l) i) j
  · rfl

end Descent.Buffer
