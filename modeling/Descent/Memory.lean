import Descent.Element
import Descent.Shape

/-!
# Shared memory

Variables live in arrays that the caller owns. A handle is the identity of an array: two arrays may
share memory, as a view shares that of the array it was taken from, and yet be different handles. A
variable takes a one-dimensional array of double precision; a handle may also stand for another
object.
-/

namespace Descent

structure Handle where
  id : Nat
  deriving DecidableEq

inductive Object where
  | array (type : ElementType) (shape : Shape) (block offset : Nat)
  | list (shape : Shape) (block : Nat)
  | other (typeName : String)

structure Memory (α : Type) where
  objects : List Object
  blocks : List (List α)

def fit {α : Type} (size : Nat) (values : List α) : Except (Fault α) (List α) :=
  if values.length = size then .ok values
  else match values with
    | [value] => .ok (List.replicate size value)
    | _ => .error (.broadcast [values.length] [size])

theorem fit_self {α : Type} (values : List α) : fit values.length values = .ok values := by
  simp [fit]

theorem length_of_fit {α : Type} {size : Nat} {values filled : List α}
    (h : fit size values = .ok filled) : filled.length = size := by
  unfold fit at h
  split at h
  · cases h; assumption
  · split at h
    · cases h; simp
    · cases h

def overwrite {α : Type} (offset : Nat) (values entries : List α) : List α :=
  entries.take offset ++ values ++ entries.drop (offset + values.length)

theorem length_overwrite {α : Type} {offset : Nat} {values entries : List α}
    (fits : offset + values.length ≤ entries.length) :
    (overwrite offset values entries).length = entries.length := by
  simp only [overwrite, List.length_append, List.length_take, List.length_drop]
  omega

def sliceBound (size : Nat) (bound : Int) : Nat :=
  if bound < 0 then (size + bound).toNat else min size bound.toNat

namespace Memory

variable {α : Type}

def empty : Memory α := ⟨[], []⟩

def object? (m : Memory α) (h : Handle) : Option Object := m.objects[h.id]?

def allocate (m : Memory α) (o : Object) : Handle × Memory α :=
  (⟨m.objects.length⟩, { m with objects := m.objects ++ [o] })

def allocateArray (m : Memory α) (type : ElementType) (shape : Shape) (values : List α) :
    Handle × Memory α :=
  { m with blocks := m.blocks ++ [values] }.allocate (.array type shape m.blocks.length 0)

def allocateVector (m : Memory α) (values : List α) : Handle × Memory α :=
  m.allocateArray .double [values.length] values

def allocateList (m : Memory α) (shape : Shape) (values : List α) : Handle × Memory α :=
  { m with blocks := m.blocks ++ [values] }.allocate (.list shape m.blocks.length)

def cells (m : Memory α) (block offset size : Nat) : List α :=
  (((m.blocks[block]?).getD []).drop offset).take size

def shape (m : Memory α) (h : Handle) : Shape :=
  match m.object? h with
  | some (.array _ shape _ _) | some (.list shape _) => shape
  | _ => [0]

def load (m : Memory α) (h : Handle) : List α :=
  match m.object? h with
  | some (.array _ shape block offset) => m.cells block offset shape.size
  | some (.list shape block) => m.cells block 0 shape.size
  | _ => []

def view (m : Memory α) (h : Handle) (start stop : Int) : Handle × Memory α :=
  match m.object? h with
  | some (.array type (extent :: inner) block offset) =>
      let first := sliceBound extent start
      m.allocate
        (.array type ((sliceBound extent stop - first) :: inner) block
          (offset + first * Shape.size inner))
  | some (.list (extent :: inner) block) =>
      let first := sliceBound extent start
      let shape : Shape := (sliceBound extent stop - first) :: inner
      m.allocateList shape (m.cells block (first * Shape.size inner) shape.size)
  | _ => m.allocateVector []

def checkAxis (m : Memory α) (h : Handle) : Except (Fault α) Unit :=
  match m.object? h with
  | some (.array _ [] _ _) => .error .noAxis
  | _ => .ok ()

def store (m : Memory α) (h : Handle) (values : List α) : Memory α :=
  match m.object? h with
  | some (.array _ _ block offset) =>
      { m with blocks := m.blocks.modify block (overwrite offset values) }
  | _ => m

def assign (m : Memory α) (h : Handle) (values : List α) : Except (Fault α) (Memory α) := do
  return m.store h (← fit (m.load h).length values)

def assignShaped (m : Memory α) (h : Handle) (shape : Shape) (values : List α) :
    Except (Fault α) (Memory α) :=
  match m.object? h with
  | some (.array _ wanted _ _) =>
      let given := shape.withAxes wanted.length
      if given.fills wanted then .ok (m.store h (given.fill wanted values))
      else .error (.broadcast shape wanted)
  | some (.list _ block) =>
      if shape.isEmpty then .error .notEntries
      else .ok ⟨m.objects.set h.id (.list shape block), m.blocks.set block values⟩
  | _ => .ok m

def isView (m : Memory α) (h : Handle) : Bool :=
  match m.object? h with
  -- a view has the block of an array that was there before it
  | some (.array _ _ block _) => (m.objects.take h.id).any fun o =>
      match o with
      | .array _ _ other _ => other == block
      | _ => false
  | _ => false

/-- Gives an array one axis of another length: its first values stay, and further cells are zero. An
array that shares the memory of another one cannot change its length, and a list has no cells to
change. -/
def resize [Zero α] (m : Memory α) (h : Handle) (size : Nat) : Except (Fault α) (Memory α) :=
  match m.object? h with
  | some (.array type _ _ _) =>
      if m.isView h then .error .sharedCells
      else
        let values := (m.load h).take size
        let values := values ++ List.replicate (size - values.length) 0
        .ok {
          objects := m.objects.set h.id (.array type [size] m.blocks.length 0)
          blocks := m.blocks ++ [values] }
  | some (.list _ _) => .error (.notResizable "list")
  | _ => .ok m

end Memory

end Descent
