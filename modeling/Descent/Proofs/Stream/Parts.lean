import Mathlib
import Descent.Proofs.Evaluation.Likeness
import Descent.Proofs.Registry.Copy
import Descent.Proofs.Stream.Lines

namespace Descent

variable {α : Type}

/-! ## New arrays -/

def Registry.rehomed : (next : Nat) → List (Variable α) → List (Variable α)
  | _, [] => []
  | next, v :: rest => { v with storage := ⟨next⟩ } :: rehomed (next + 1) rest

namespace Registry

theorem map_rehomed {β : Type} {f : Variable α → β} (ignores : ∀ v h, f { v with storage := h } = f v)
    (next : Nat) (vs : List (Variable α)) : (rehomed next vs).map f = vs.map f := by
  induction vs generalizing next with
  | nil => rfl
  | cons v rest ih => rw [rehomed, List.map_cons, List.map_cons, ih, ignores]

theorem length_rehomed (next : Nat) (vs : List (Variable α)) : (rehomed next vs).length = vs.length := by
  have lengths := congrArg List.length (map_rehomed (f := fun _ => ()) (fun _ _ => rfl) next vs)
  rwa [List.length_map, List.length_map] at lengths

theorem storages_rehomed (next : Nat) (vs : List (Variable α)) :
    (rehomed next vs).map Variable.storage = (List.range' next vs.length).map Handle.mk := by
  induction vs generalizing next with
  | nil => rfl
  | cons v rest ih => rw [rehomed, List.map_cons, ih, List.length_cons, List.range'_succ, List.map_cons]

theorem unplaced_rehomed {vs us : List (Variable α)}
    (like : vs.map (fun v => { v.unplaced with storage := ⟨0⟩ }) =
      us.map fun u => { u.unplaced with storage := ⟨0⟩ }) (next : Nat) :
    (rehomed next vs).map Variable.unplaced = (rehomed next us).map Variable.unplaced := by
  induction vs generalizing us next with
  | nil =>
      obtain rfl := List.map_eq_nil_iff.1 like.symm
      rfl
  | cons v rest ih =>
      cases us with
      | nil => cases like
      | cons u others =>
          rw [List.map_cons, List.map_cons, List.cons.injEq] at like
          obtain ⟨here, like⟩ := like
          rw [rehomed, rehomed, List.map_cons, List.map_cons, ih like]
          exact congrArg (· :: _) (congrArg (fun w : Variable α => { w with storage := ⟨next⟩ }) here)

theorem mem_rehomed {next : Nat} {vs : List (Variable α)} {w : Variable α}
    (member : w ∈ rehomed next vs) : next ≤ w.storage.id ∧ ∃ v ∈ vs, w = { v with storage := w.storage } := by
  induction vs generalizing next with
  | nil => cases member
  | cons v rest ih =>
      rcases List.mem_cons.1 member with rfl | member
      · exact ⟨Nat.le_refl _, v, List.mem_cons_self, rfl⟩
      · obtain ⟨later, u, known, same⟩ := ih member
        exact ⟨by omega, u, List.mem_cons_of_mem _ known, same⟩

theorem nodup_rehomed (next : Nat) (vs : List (Variable α)) :
    ((rehomed next vs).map Variable.storage).Nodup := by
  induction vs generalizing next with
  | nil => exact .nil
  | cons v rest ih =>
      rw [rehomed, List.map_cons, List.nodup_cons]
      refine ⟨fun again => ?_, ih (next + 1)⟩
      obtain ⟨w, member, same⟩ := List.mem_map.1 again
      have later := (mem_rehomed member).1
      rw [same] at later
      exact absurd later (by simp)

theorem fits_rehomed {next : Nat} {vs : List (Variable α)} (fits : ∀ v ∈ vs, v.Fits) :
    ∀ w ∈ rehomed next vs, w.Fits := by
  intro w member
  obtain ⟨-, v, known, same⟩ := mem_rehomed member
  have fit := fits v known
  rw [same]
  exact ⟨fit.user_pos, fit.solver_pos, fit.unchanged, fit.changed⟩

theorem placed_rehomed (next free constant : Nat) (vs : List (Variable α)) :
    placed free constant (rehomed next vs) = rehomed next (placed free constant vs) := by
  induction vs generalizing next free constant with
  | nil => rfl
  | cons v rest ih => cases kind : v.isConstant <;> simp [placed, rehomed, kind, ih]

theorem extent_rehomed (constant : Bool) (next : Nat) (vs : List (Variable α)) :
    extent constant (rehomed next vs) = extent constant vs := by
  rw [extent_eq_kinds, map_rehomed fun _ _ => rfl, ← extent_eq_kinds]

end Registry

namespace Memory

def parts (block : Nat) : (offset : Nat) → List Nat → List Object
  | _, [] => []
  | offset, d :: rest => .array .double [d] block offset :: parts block (offset + d) rest

def withPart (m : Memory α) (block offset d : Nat) : Memory α :=
  { m with objects := m.objects ++ [.array .double [d] block offset] }

theorem object?_withPart {m : Memory α} {h : Handle} {o : Object} (found : m.object? h = some o)
    {block offset d : Nat} : (m.withPart block offset d).object? h = some o := by
  obtain ⟨inside, -⟩ := List.getElem?_eq_some_iff.1 (show m.objects[h.id]? = _ from found)
  rw [← found, object?, object?, withPart, List.getElem?_append_left inside]

theorem matches_parts {m m' : Memory α} {block : Nat} {cells : List α}
    (found : m'.blocks[block]? = some cells) {vs : List (Variable α)}
    (lengths : ∀ v ∈ vs, (m.load v.storage).length = v.userDimension) {older : List Object} {offset : Nat}
    (objects : m'.objects = older ++ parts block offset (vs.map Variable.userDimension))
    (stored : cells.drop offset = vs.flatMap fun v => m.load v.storage) :
    List.Forall₂ (Variable.Matches m m') vs (Registry.rehomed older.length vs) := by
  induction vs generalizing older offset with
  | nil => exact .nil
  | cons v rest ih =>
      obtain ⟨size, lengths⟩ := List.forall_mem_cons.1 lengths
      rw [List.flatMap_cons] at stored
      rw [List.map_cons, parts] at objects
      have later := ih lengths (objects.trans (List.append_cons ..)) (by
        rw [← List.drop_drop, stored, ← size, List.drop_left])
      rw [List.length_append, List.length_singleton] at later
      refine .cons ⟨rfl, size, ?_⟩ later
      have here : m'.object? ⟨older.length⟩ = some (.array .double [v.userDimension] block offset) := by
        rw [object?, objects, List.getElem?_append_right (Nat.le_refl _), Nat.sub_self]
        rfl
      rw [load, here]
      simp only [Memory.cells, found, Option.getD_some, stored, Shape.size, List.foldr_cons,
        List.foldr_nil, Nat.mul_one, ← size, List.take_left]

end Memory

namespace Reading

open Objective Registry

variable {m : Memory α} {g : Objective α} {w : Workspace α} {o : Registry α} (text : List Char)
  {whole : Handle} {block size : Nat}

theorem older_withPart {v : Variable α} (older : ∀ u ∈ o.vars, u.storage.id < m.objects.length)
    (block offset d : Nat) :
    ∀ u ∈ o.vars ++ [({ v with storage := ⟨m.objects.length⟩ } : Variable α).renewed],
      u.storage.id < (m.withPart block offset d).objects.length := by
  rw [Memory.withPart, List.length_append, List.length_singleton, List.forall_mem_append,
    List.forall_mem_singleton]
  exact ⟨fun u member => (older u member).trans (Nat.lt_succ_self _), Nat.lt_succ_self _⟩

theorem run_view (array : m.object? whole = some (.array .double [size] block 0)) {offset : Nat}
    (inside : offset ≤ size) (stop : Int) :
    run (view whole offset stop) ⟨text, m, g⟩ = (.ok ⟨m.objects.length⟩,
      ⟨text, m.withPart block offset (sliceBound size stop - offset), g⟩) := by
  have first : sliceBound size offset = offset := by
    rw [sliceBound, if_neg (by omega)]
    omega
  have made : m.view whole offset stop =
      (⟨m.objects.length⟩, m.withPart block offset (sliceBound size stop - offset)) := by
    simp only [Memory.view, array, first, Memory.allocate, Memory.withPart, Shape.size,
      List.foldr_nil, Nat.mul_one, Nat.zero_add]
  rw [view, run_bind_ok run_get]
  simp only [made]
  rfl

theorem sliceBound_add {offset d : Nat} (room : offset + d ≤ size) :
    sliceBound size (offset + d) - offset = d := by
  rw [sliceBound, if_neg (by omega)]
  omega

theorem fresh_of_older (older : ∀ u ∈ o.vars, u.storage.id < m.objects.length) :
    (⟨m.objects.length⟩ : Handle) ∉ o.vars.map Variable.storage := fun again => by
  obtain ⟨u, member, same⟩ := List.mem_map.1 again
  have before := older u member
  rw [same] at before
  exact Nat.lt_irrefl _ before

theorem run_registerParts_cons (array : m.object? whole = some (.array .double [size] block 0))
    {v : Variable α} (fits : v.Fits) (plain : v.change = none) {offset : Nat}
    (room : offset + v.userDimension ≤ size) (drafts : g.Drafts w o)
    (older : ∀ u ∈ o.vars, u.storage.id < m.objects.length) (rest : List Int) :
    ∃ g', run (registerParts whole offset (v.userDimension :: rest)) ⟨text, m, g⟩ =
        run (do return ⟨m.objects.length⟩ :: (← registerParts whole (offset + v.userDimension : Nat) rest))
          ⟨text, m.withPart block offset v.userDimension, g'⟩ ∧
      g'.Drafts w { o with
        vars := o.vars ++ [({ v with storage := ⟨m.objects.length⟩ } : Variable α).renewed] } := by
  have here : (m.withPart block offset v.userDimension).object? ⟨m.objects.length⟩ =
      some (.array .double [v.userDimension] block offset) := by
    simp [Memory.object?, Memory.withPart]
  obtain ⟨g', added, drafts'⟩ := drafts.addVariable (v := { v with storage := ⟨m.objects.length⟩ })
    ⟨fits.user_pos, fits.solver_pos, fits.unchanged, fits.changed⟩ (fresh_of_older older)
    here
  simp only [plain] at added
  refine ⟨g', ?_, drafts'⟩
  rw [registerParts, run_bind_ok (run_view text array (by omega) _), sliceBound_add room,
    run_bind_ok (run_edit _ added), Nat.cast_add]

theorem run_registerParts (array : m.object? whole = some (.array .double [size] block 0))
    {vs : List (Variable α)} (fits : ∀ v ∈ vs, v.Fits) (plain : ∀ v ∈ vs, v.change = none)
    {offset : Nat} (room : offset + (vs.map Variable.userDimension).sum ≤ size)
    (drafts : g.Drafts w o) (older : ∀ v ∈ o.vars, v.storage.id < m.objects.length) :
    ∃ g', run (registerParts whole offset ((vs.map Variable.userDimension).map Nat.cast)) ⟨text, m, g⟩ =
        (.ok ((rehomed m.objects.length vs).map Variable.storage), ⟨text, { m with
          objects := m.objects ++ Memory.parts block offset (vs.map Variable.userDimension) }, g'⟩) ∧
      g'.Drafts w { o with vars := o.vars ++ (rehomed m.objects.length vs).map Variable.renewed } := by
  induction vs generalizing m g o offset with
  | nil => exact ⟨g, by simp [registerParts, rehomed, Memory.parts, run_pure], by simpa [rehomed] using drafts⟩
  | cons v rest ih =>
      obtain ⟨fit, fits⟩ := List.forall_mem_cons.1 fits
      obtain ⟨unchanged, plain⟩ := List.forall_mem_cons.1 plain
      rw [List.map_cons, List.sum_cons] at room
      have first : offset + v.userDimension ≤ size := by omega
      obtain ⟨g₁, added, drafts₁⟩ := run_registerParts_cons text array fit unchanged first drafts older
        ((rest.map Variable.userDimension).map Nat.cast)
      have room' : offset + v.userDimension + (rest.map Variable.userDimension).sum ≤ size := by omega
      obtain ⟨g', run, drafts'⟩ := ih (Memory.object?_withPart array) fits plain room' drafts₁
        (older_withPart older block offset v.userDimension)
      refine ⟨g', ?_, ?_⟩
      · rw [List.map_cons, List.map_cons, added, run_bind_ok run]
        simp [rehomed, Memory.parts, Memory.withPart, run_pure]
      · simpa [rehomed, Memory.withPart, List.append_assoc] using drafts'

inductive Misfits : (room : Nat) → (dimensions : List Int) → Fault α → Prop
  | notPositive {room : Nat} {d : Int} (notPositive : d ≤ 0) (rest : List Int) :
      Misfits room (d :: rest) (.dimensionNotPositive d)
  | tooLarge {room : Nat} {d : Int} (tooLarge : (room : Int) < d) (rest : List Int) :
      Misfits room (d :: rest) (.storageSize room d)
  | later {room d : Nat} {rest : List Int} {fault : Fault α} (positive : 0 < d) (fits : d ≤ room)
      (misfits : Misfits (room - d) rest fault) : Misfits room (d :: rest) fault

theorem positive_or_misfits {room : Nat} {dimensions : List Int} (sum : dimensions.sum = room) :
    (∀ d ∈ dimensions, 0 < d) ∨ ∃ fault : Fault α, Misfits room dimensions fault := by
  induction dimensions generalizing room with
  | nil => exact .inl nofun
  | cons d rest ih =>
      rw [List.sum_cons] at sum
      by_cases notPositive : d ≤ 0
      · exact .inr ⟨_, .notPositive notPositive rest⟩
      by_cases tooLarge : (room : Int) < d
      · exact .inr ⟨_, .tooLarge tooLarge rest⟩
      lift d to Nat using by omega
      have left : rest.sum = ((room - d : Nat) : Int) := by omega
      rcases ih left with positive | ⟨fault, misfits⟩
      · exact .inl (List.forall_mem_cons.2 ⟨by omega, positive⟩)
      · exact .inr ⟨fault, .later (by omega) (by omega) misfits⟩

theorem run_registerParts_refused (array : m.object? whole = some (.array .double [size] block 0))
    {offset : Nat} (inside : offset ≤ size) (drafts : g.Drafts w o)
    (older : ∀ v ∈ o.vars, v.storage.id < m.objects.length) {d : Int} {fault : Fault α}
    (refused : checkStorage (m.withPart block offset (sliceBound size (offset + d) - offset))
      ⟨m.objects.length⟩ d = .error fault) (rest : List Int) :
    ∃ reader, run (registerParts whole offset (d :: rest)) ⟨text, m, g⟩ = (.error fault, reader) := by
  have fresh := fresh_of_older older
  rw [drafts.storages] at fresh
  have edited := run_addVariable drafts.wellFormed
    (m.withPart block offset (sliceBound size (offset + d) - offset)) ⟨m.objects.length⟩ d none
  simp only [drafts.wellFormed.find?_of_fresh fresh, newVariable, refused] at edited
  exact ⟨_, by rw [registerParts, run_bind_ok (run_view text array inside _),
    run_bind_error (run_edit_error _ edited)]⟩

theorem run_registerParts_misfit (array : m.object? whole = some (.array .double [size] block 0))
    {offset : Nat} (inside : offset ≤ size) {dimensions : List Int} {fault : Fault α}
    (misfits : Misfits (size - offset) dimensions fault) (drafts : g.Drafts w o)
    (older : ∀ v ∈ o.vars, v.storage.id < m.objects.length) :
    ∃ reader, run (registerParts whole offset dimensions) ⟨text, m, g⟩ = (.error fault, reader) := by
  have part (m : Memory α) (offset d : Nat) : (m.withPart block offset d).object? ⟨m.objects.length⟩ =
      some (.array .double [d] block offset) := by
    simp [Memory.object?, Memory.withPart]
  generalize left : size - offset = room at misfits
  induction misfits generalizing m g o offset with
  | notPositive notPositive rest =>
      refine run_registerParts_refused text array inside drafts older ?_ rest
      simp only [checkStorage, part, notPositive, ↓reduceIte]
  | @tooLarge room d tooLarge rest =>
      have all : sliceBound size (offset + d) - offset = room := by
        rw [sliceBound, if_neg (by omega)]
        omega
      refine run_registerParts_refused text array inside drafts older ?_ rest
      rw [all]
      simp only [checkStorage, part, if_neg (show ¬d ≤ 0 by omega),
        if_pos (show (room : Int) ≠ d by omega)]
  | @later room d rest fault positive fits misfits ih =>
      let v : Variable α := ⟨⟨0⟩, d, d, 0, false, none⟩
      obtain ⟨g', added, drafts'⟩ := run_registerParts_cons text array (v := v)
        ⟨positive, positive, fun _ => rfl, fun c given => by cases given⟩ rfl
        (show offset + d ≤ size by omega) drafts older rest
      obtain ⟨reader, failed⟩ := ih (Memory.object?_withPart array) (by omega) drafts'
        (older_withPart older block offset d) (show size - (offset + d) = room - d by omega)
      exact ⟨reader, added.trans (run_bind_error failed)⟩

def Flagged (flags : List Int) (vs : List (Variable α)) : Prop :=
  List.Forall₂ (fun flag v => v.isConstant = decide (flag ≠ 0)) flags vs

theorem Flagged.rehomed {flags : List Int} {vs : List (Variable α)} (flagged : Flagged flags vs)
    (next : Nat) : Flagged flags (Registry.rehomed next vs) := by
  induction flagged generalizing next with
  | nil => exact .nil
  | cons here _ ih => exact .cons here (ih (next + 1))

theorem Flagged.map_isConstant {flags : List Int} {vs : List (Variable α)} (flagged : Flagged flags vs) :
    vs.map (·.isConstant) = flags.map fun flag => decide (flag ≠ 0) := by
  induction flagged with
  | nil => rfl
  | cons here _ ih => rw [List.map_cons, List.map_cons, here, ih]

theorem filter_flags {flags : List Int} {vs : List (Variable α)} (flagged : Flagged flags vs) :
    (((vs.map Variable.storage).zip flags).filter (·.2 ≠ 0)).map (·.1) =
      (vs.filter (·.isConstant)).map Variable.storage := by
  induction flagged with
  | nil => rfl
  | @cons flag v flags vs here _ ih =>
      rw [List.map_cons, List.zip_cons_cons]
      by_cases zero : flag = 0
      · rw [List.filter_cons_of_neg (by simp [zero]), List.filter_cons_of_neg (by simp [here, zero]), ih]
      · rw [List.filter_cons_of_pos (by simp [zero]), List.filter_cons_of_pos (by simp [here, zero]),
          List.map_cons, List.map_cons, ih]

theorem run_setConstants (drafts : g.Drafts w o) {vs : List (Variable α)}
    (vars : o.vars = vs.map Variable.renewed) (distinct : (vs.map Variable.storage).Nodup)
    {flags : List Int} (flagged : Flagged flags vs) :
    ∃ g', run ((((vs.map Variable.storage).zip flags).filter (·.2 ≠ (0 : Int))).forM
        fun (handle, _) => edit (setConstant handle true)) ⟨text, m, g⟩ = (.ok ⟨⟩, ⟨text, m, g'⟩) ∧
      g'.Drafts w { o with vars := vs.map Variable.unplaced } := by
  obtain ⟨g', edited, drafts'⟩ := drafts.setConstants (m := m) (vs.filter (·.isConstant))
    fun v member => by
      rw [vars, List.map_map]
      exact List.mem_map.2 ⟨v, (List.mem_filter.1 member).1, rfl⟩
  rw [vars, map_held_renewed distinct] at drafts'
  refine ⟨g', ?_, drafts'⟩
  have through {β : Type} (l : List β) (h : β → Handle) :
      l.forM (fun b => edit (Objective.setConstant (h b) true)) =
        (l.map h).forM fun h => (edit (Objective.setConstant h true) : Reading α PUnit) := by
    induction l with
    | nil => rfl
    | cons b rest ih => rw [List.map_cons, List.forM, List.forM, ih]
  have constants := run_edit_forM ⟨text, m, g⟩ _ edited
  rw [through, ← filter_flags flagged, ← through] at constants
  exact constants

end Reading

end Descent
