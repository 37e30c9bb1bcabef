import Mathlib
import Descent.Objective.Basic

namespace Descent

variable {α : Type}

def Variable.unplaced (v : Variable α) : Variable α := { v with globalIndex := 0 }

def Tiles : (start : Nat) → List (Variable α) → (stop : Nat) → Prop
  | start, [], stop => start = stop
  | start, v :: rest, stop => v.globalIndex = start ∧ Tiles (start + v.solverDimension) rest stop

theorem Tiles.start_le {start stop : Nat} {vars : List (Variable α)} (tiles : Tiles start vars stop)
    {v : Variable α} (member : v ∈ vars) : start ≤ v.globalIndex := by
  induction vars generalizing start with
  | nil => cases member
  | cons u rest ih =>
      obtain ⟨first, tiles⟩ := tiles
      rcases List.mem_cons.1 member with rfl | member
      · exact Nat.le_of_eq first.symm
      · exact Nat.le_trans (Nat.le_add_right ..) (ih tiles member)

theorem Tiles.pairwise {start stop : Nat} {vars : List (Variable α)} (tiles : Tiles start vars stop) :
    vars.Pairwise fun v w => v.globalIndex + v.solverDimension ≤ w.globalIndex := by
  induction vars generalizing start with
  | nil => exact .nil
  | cons v rest ih =>
      obtain ⟨first, tiles⟩ := tiles
      exact List.pairwise_cons.2 ⟨fun w member => first ▸ tiles.start_le member, ih tiles⟩

theorem Tiles.le {start stop : Nat} {vars : List (Variable α)} (tiles : Tiles start vars stop) :
    start ≤ stop := by
  induction vars generalizing start with
  | nil => exact Nat.le_of_eq tiles
  | cons v rest ih => exact Nat.le_trans (Nat.le_add_right ..) (ih tiles.2)

theorem Tiles.le_stop {start stop : Nat} {vars : List (Variable α)} (tiles : Tiles start vars stop)
    {v : Variable α} (member : v ∈ vars) : v.globalIndex + v.solverDimension ≤ stop := by
  induction vars generalizing start with
  | nil => cases member
  | cons u rest ih =>
      obtain ⟨first, tiles⟩ := tiles
      rcases List.mem_cons.1 member with rfl | member
      · exact first ▸ tiles.le
      · exact ih tiles member

namespace Registry

def extent (constant : Bool) (vars : List (Variable α)) : Nat :=
  ((vars.filter (·.isConstant = constant)).map Variable.solverDimension).sum

def placed : (free constant : Nat) → List (Variable α) → List (Variable α)
  | _, _, [] => []
  | free, constant, v :: rest =>
      if v.isConstant then
        { v with globalIndex := constant } :: placed free (constant + v.solverDimension) rest
      else { v with globalIndex := free } :: placed (free + v.solverDimension) constant rest

theorem place_snd (constant : Bool) (next : Nat) (vars : List (Variable α)) :
    (place constant next vars).2 = next + extent constant vars := by
  induction vars generalizing next with
  | nil => rfl
  | cons v rest ih =>
      by_cases same : v.isConstant = constant
      · simp [place, extent, same, ih, Nat.add_assoc]
      · simp [place, extent, same, ih]

theorem extent_place (constant : Bool) (next : Nat) (vars : List (Variable α)) (other : Bool) :
    extent other (place constant next vars).1 = extent other vars := by
  induction vars generalizing next with
  | nil => rfl
  | cons v rest ih =>
      unfold extent at ih ⊢
      by_cases same : v.isConstant = constant <;> by_cases wanted : v.isConstant = other <;>
        simp_all [place]

theorem place_place (free constant : Nat) (vars : List (Variable α)) :
    (place true constant (place false free vars).1).1 = placed free constant vars := by
  induction vars generalizing free constant with
  | nil => rfl
  | cons v rest ih => cases kind : v.isConstant <;> simp [place, placed, kind, ih]

theorem relayout_eq (r : Registry α) : r.relayout = { r with
    vars := placed 0 (extent false r.vars) r.vars
    scalars := extent false r.vars
    constants := extent true r.vars } := by
  have free := place_snd false 0 r.vars
  rw [Nat.zero_add] at free
  simp only [relayout, free, place_place, place_snd, extent_place, Nat.add_sub_cancel_left]

theorem map_unplaced_placed (free constant : Nat) (vars : List (Variable α)) :
    (placed free constant vars).map Variable.unplaced = vars.map Variable.unplaced := by
  induction vars generalizing free constant with
  | nil => rfl
  | cons v rest ih => cases kind : v.isConstant <;> simp [placed, kind, ih, Variable.unplaced]

theorem placed_unplaced (free constant : Nat) (vars : List (Variable α)) :
    placed free constant (vars.map Variable.unplaced) = placed free constant vars := by
  induction vars generalizing free constant with
  | nil => rfl
  | cons v rest ih => cases kind : v.isConstant <;> simp [placed, kind, ih, Variable.unplaced]

theorem extent_unplaced (constant : Bool) (vars : List (Variable α)) :
    extent constant (vars.map Variable.unplaced) = extent constant vars := by
  simp only [extent, List.filter_map, List.map_map]
  rfl

theorem placed_append (free constant : Nat) (vars others : List (Variable α)) :
    placed free constant (vars ++ others) = placed free constant vars ++
      placed (free + extent false vars) (constant + extent true vars) others := by
  induction vars generalizing free constant with
  | nil => rfl
  | cons v rest ih =>
      cases kind : v.isConstant <;> simp [placed, extent, kind, ih, Nat.add_assoc]

theorem placed_set {free constant i : Nat} {vars : List (Variable α)} {v w : Variable α}
    (at_i : vars[i]? = some v) (kind : w.isConstant = v.isConstant)
    (size : w.solverDimension = v.solverDimension) (index : w.globalIndex = v.globalIndex)
    (laidOut : placed free constant vars = vars) :
    placed free constant (vars.set i w) = vars.set i w := by
  induction vars generalizing free constant i with
  | nil => rfl
  | cons u rest ih =>
      cases i with
      | zero =>
          cases at_i
          cases constancy : v.isConstant with
          | false =>
              simp only [placed, constancy, Bool.false_eq_true, ↓reduceIte, List.cons.injEq, ← size]
                at laidOut
              have here : w.globalIndex = free :=
                index.trans (congrArg Variable.globalIndex laidOut.1).symm
              rw [List.set_cons_zero, placed, if_neg (by simp [kind, constancy]), laidOut.2, ← here]
          | true =>
              simp only [placed, constancy, ↓reduceIte, List.cons.injEq, ← size] at laidOut
              have here : w.globalIndex = constant :=
                index.trans (congrArg Variable.globalIndex laidOut.1).symm
              rw [List.set_cons_zero, placed, if_pos (by simp [kind, constancy]), laidOut.2, ← here]
      | succ i =>
          cases constancy : u.isConstant <;>
            simp only [placed, constancy, Bool.false_eq_true, ↓reduceIte, List.cons.injEq] at laidOut <;>
            simp only [List.set_cons_succ, placed, constancy, Bool.false_eq_true, ↓reduceIte,
              laidOut.1, ih at_i laidOut.2]

theorem tiles_free (free constant : Nat) (vars : List (Variable α)) :
    Tiles free ((placed free constant vars).filter (!·.isConstant)) (free + extent false vars) := by
  induction vars generalizing free constant with
  | nil => rfl
  | cons v rest ih =>
      cases kind : v.isConstant
      · simpa [placed, extent, kind, Tiles, Nat.add_assoc] using ih (free + v.solverDimension) constant
      · simpa [placed, extent, kind] using ih free (constant + v.solverDimension)

theorem tiles_constant (free constant : Nat) (vars : List (Variable α)) :
    Tiles constant ((placed free constant vars).filter (·.isConstant))
      (constant + extent true vars) := by
  induction vars generalizing free constant with
  | nil => rfl
  | cons v rest ih =>
      cases kind : v.isConstant
      · simpa [placed, extent, kind] using ih (free + v.solverDimension) constant
      · simpa [placed, extent, kind, Tiles, Nat.add_assoc] using ih free (constant + v.solverDimension)

end Registry

end Descent
