import Mathlib
import Descent.Proofs.Computation
import Descent.Proofs.Evaluation.Caches

namespace Descent

variable {α : Type}

/-! ## Arrays -/

structure Span where
  block : Nat
  offset : Nat
  size : Nat

def Span.Apart (a b : Span) : Prop :=
  a.block ≠ b.block ∨ a.offset + a.size ≤ b.offset ∨ b.offset + b.size ≤ a.offset

namespace Memory

variable {m : Memory α} {h h' : Handle} {a b : Span} {values : List α}

structure Spans (m : Memory α) (h : Handle) (a : Span) : Prop where
  array : m.object? h = some (.array .double [a.size] a.block a.offset)
  inside : ∃ cells, m.blocks[a.block]? = some cells ∧ a.offset + a.size ≤ cells.length

theorem Spans.unique (spans : m.Spans h a) (spans' : m.Spans h b) : a = b := by
  have same := spans.array.symm.trans spans'.array
  simp only [Option.some.injEq, Object.array.injEq, List.cons.injEq, and_true, true_and] at same
  obtain ⟨size, block, offset⟩ := same
  cases a
  cases b
  simp_all

theorem Spans.load_eq (spans : m.Spans h a) : m.load h = m.cells a.block a.offset a.size := by
  simp [load, spans.array, Shape.size]

theorem Spans.length_load (spans : m.Spans h a) : (m.load h).length = a.size := by
  obtain ⟨cells, block, inside⟩ := spans.inside
  simp only [spans.load_eq, Memory.cells, block, Option.getD_some, List.length_take,
    List.length_drop]
  omega

theorem Spans.store_eq (spans : m.Spans h a) (values : List α) :
    m.store h values = { m with blocks := m.blocks.modify a.block (overwrite a.offset values) } := by
  simp [store, spans.array]

theorem Spans.store (spans : m.Spans h a) (spans' : m.Spans h' b) (size : values.length = a.size) :
    (m.store h values).Spans h' b := by
  rw [spans.store_eq]
  refine ⟨spans'.array, ?_⟩
  obtain ⟨cells, block, inside⟩ := spans'.inside
  by_cases same : a.block = b.block
  · obtain ⟨cells', block', inside'⟩ := spans.inside
    obtain rfl : cells = cells' := Option.some.inj (block.symm.trans (same ▸ block'))
    refine ⟨overwrite a.offset values cells, ?_, ?_⟩
    · simp [same, block]
    · rw [length_overwrite (size ▸ inside')]
      exact inside
  · exact ⟨cells, by simp [same, block], inside⟩

theorem Spans.load_store_self (spans : m.Spans h a) (size : values.length = a.size) :
    (m.store h values).load h = values := by
  obtain ⟨cells, block, inside⟩ := spans.inside
  have front : (cells.take a.offset).length = a.offset := by
    rw [List.length_take]
    omega
  rw [(spans.store spans size).load_eq, spans.store_eq, Memory.cells, List.getElem?_modify, block]
  simp only [↓reduceIte, Option.map_eq_map, Option.map_some, Option.getD_some, overwrite]
  rw [List.append_assoc, List.drop_append_of_le_length front.ge, List.drop_of_length_le front.le,
    List.nil_append, ← size, List.take_left]

theorem getElem?_overwrite {offset i : Nat} {entries : List α} (room : offset ≤ entries.length)
    (outside : i < offset ∨ offset + values.length ≤ i) :
    (overwrite offset values entries)[i]? = entries[i]? := by
  have front : (entries.take offset).length = offset := by
    rw [List.length_take]
    omega
  rw [overwrite, List.append_assoc, List.getElem?_append, front]
  rcases outside with before | behind
  · rw [if_pos before, List.getElem?_take, if_pos before]
  · rw [if_neg (by omega), List.getElem?_append_right (by omega), List.getElem?_drop]
    congr 1
    omega

theorem Spans.load_store_apart (spans : m.Spans h a) (spans' : m.Spans h' b) (apart : a.Apart b)
    (size : values.length = a.size) : (m.store h values).load h' = m.load h' := by
  obtain ⟨cells, block, inside⟩ := spans.inside
  rw [(spans.store spans' size).load_eq, spans'.load_eq, spans.store_eq, Memory.cells, Memory.cells,
    List.getElem?_modify]
  by_cases same : a.block = b.block
  · have order := apart.resolve_left (not_not_intro same)
    rw [← same, block]
    simp only [↓reduceIte, Option.map_eq_map, Option.map_some, Option.getD_some]
    refine List.ext_getElem? fun i => ?_
    simp only [List.getElem?_take, List.getElem?_drop]
    split
    · exact getElem?_overwrite (by omega) (by omega)
    · rfl
  · simp [same]

theorem length_cells (block offset size : Nat) : (m.cells block offset size).length =
    min size (((m.blocks[block]?).getD []).length - offset) := by
  rw [cells, List.length_take, List.length_drop]

theorem length_load_store (size : values.length = (m.load h).length) :
    ((m.store h values).load h').length = (m.load h').length := by
  unfold store
  split
  · rename_i type shape block offset array
    rw [load, array, length_cells] at size
    have kept (other : Nat) : (((m.blocks.modify block (overwrite offset values))[other]?).getD []).length =
        ((m.blocks[other]?).getD []).length := by
      rw [List.getElem?_modify]
      split
      · rename_i same
        subst same
        cases cells : m.blocks[block]? with
        | none => rfl
        | some cells =>
            rw [cells, Option.getD_some] at size
            simp only [Option.map_eq_map, Option.map_some, Option.getD_some, overwrite, List.length_append,
              List.length_take, List.length_drop]
            omega
      · rw [id_map']
    simp only [load, object?]
    split <;> simp only [length_cells, kept]
  · rfl

end Memory

/-! ## Writing a point -/

namespace Registry

/-- The arrays of free variables overlap no other registered array. -/
structure Separate (r : Registry α) (m : Memory α) : Prop where
  spans : ∀ v ∈ r.vars, ∃ a, m.Spans v.storage a
  apart : ∀ v ∈ r.vars, v.isConstant = false → ∀ w ∈ r.vars, w.storage ≠ v.storage →
    ∀ a b, m.Spans v.storage a → m.Spans w.storage b → a.Apart b

variable {r : Registry α} {m m' : Memory α} {x : List α}

def writeVariable (x : List α) (v : Variable α) : ExceptT (Fault α) (StateM (Memory α)) Unit := do
  let values ← userPart v x
  let m ← (← get).assign v.storage values
  set m

theorem run_writeVariable {v : Variable α}
    (ran : StateT.run (ExceptT.run (writeVariable x v)) m = (.ok (), m')) :
    ∃ values filled, userPart v x = .ok values ∧ fit (m.load v.storage).length values = .ok filled ∧
      m' = m.store v.storage filled := by
  obtain ⟨values, m₁, started, ran⟩ := run_run_bind_ok.1 ran
  rw [run_run_lift] at started
  obtain ⟨found, rfl⟩ := Prod.mk.inj started
  obtain ⟨m₂, m₃, got, ran⟩ := run_run_bind_ok.1 ran
  rw [run_run_get] at got
  cases got
  obtain ⟨m₄, m₅, assigned, ran⟩ := run_run_bind_ok.1 ran
  rw [run_run_lift] at assigned
  obtain ⟨stored, rfl⟩ := Prod.mk.inj assigned
  cases ran
  obtain ⟨filled, fits, rest⟩ := bind_eq_ok.1 stored
  cases rest
  exact ⟨values, filled, found, fits, rfl⟩

theorem writeVariable_ok {v : Variable α} {values filled : List α} (found : userPart v x = .ok values)
    (fits : fit (m.load v.storage).length values = .ok filled) :
    StateT.run (ExceptT.run (writeVariable x v)) m = (.ok (), m.store v.storage filled) := by
  have assigned : m.assign v.storage values = .ok (m.store v.storage filled) :=
    bind_eq_ok.2 ⟨filled, fits, rfl⟩
  simp only [writeVariable, run_run_bind, run_run_lift, run_run_get, found, assigned]
  rfl

structure Wrote (r : Registry α) (x : List α) (written : List (Variable α)) (m m' : Memory α) :
    Prop where
  spans : ∀ v ∈ r.vars, ∀ a, m.Spans v.storage a → m'.Spans v.storage a
  others : ∀ v ∈ r.vars, v.storage ∉ written.map Variable.storage →
    m'.load v.storage = m.load v.storage
  read_back : ∀ v ∈ written, ∃ values, userPart v x = .ok values ∧
    fit (m.load v.storage).length values = .ok (m'.load v.storage)

theorem Separate.store (separate : r.Separate m) {v : Variable α} (member : v ∈ r.vars)
    {values : List α} (size : values.length = (m.load v.storage).length) :
    r.Separate (m.store v.storage values) := by
  obtain ⟨a, spans⟩ := separate.spans v member
  have same {w : Variable α} (other : w ∈ r.vars) {b : Span}
      (spans' : (m.store v.storage values).Spans w.storage b) : m.Spans w.storage b := by
    obtain ⟨b', known⟩ := separate.spans w other
    rwa [spans'.unique (spans.store known (size.trans spans.length_load))]
  constructor
  · intro w other
    obtain ⟨b, spans'⟩ := separate.spans w other
    exact ⟨b, spans.store spans' (size.trans spans.length_load)⟩
  · intro u free constant w other distinct b c at_u at_w
    exact separate.apart u free constant w other distinct b c (same free at_u) (same other at_w)

theorem separate_of_single {v : Variable α} {a : Span} (vars : r.vars = [v])
    (spans : m.Spans v.storage a) : r.Separate m := by
  constructor
  · rw [vars, List.forall_mem_singleton]
    exact ⟨a, spans⟩
  · rw [vars, List.forall_mem_singleton]
    intro _ w member other
    exact absurd (congrArg Variable.storage (List.mem_singleton.1 member)) other

theorem Separate.length_load (separate : r.Separate m) (stored : r.StoredIn m) {v : Variable α}
    (member : v ∈ r.vars) : (m.load v.storage).length = v.userDimension := by
  obtain ⟨block, offset, array⟩ := stored v member
  obtain ⟨span, spans⟩ := separate.spans v member
  have same := array.symm.trans spans.array
  simp only [Option.some.injEq, Object.array.injEq, List.cons.injEq, and_true, true_and] at same
  rw [spans.length_load, same.1]

theorem run_writeVariables (separate : r.Separate m) {written : List (Variable α)}
    (free : ∀ v ∈ written, v ∈ r.vars ∧ v.isConstant = false)
    (distinct : (written.map Variable.storage).Nodup)
    (ran : StateT.run (ExceptT.run (written.forM (writeVariable x))) m = (.ok (), m')) :
    r.Wrote x written m m' := by
  induction written generalizing m with
  | nil =>
      cases ran
      exact ⟨fun _ _ _ spans => spans, fun _ _ _ => rfl, nofun⟩
  | cons v rest ih =>
      obtain ⟨_, m₁, first, ran⟩ := run_run_bind_ok.1 ran
      obtain ⟨values, filled, found, fits, rfl⟩ := run_writeVariable first
      obtain ⟨⟨member, constant⟩, free⟩ := List.forall_mem_cons.1 free
      obtain ⟨fresh, distinct⟩ := List.nodup_cons.1 distinct
      have size := length_of_fit fits
      obtain ⟨a, spans⟩ := separate.spans v member
      have size' := size.trans spans.length_load
      have wrote := ih (separate.store member size) free distinct ran
      -- the array of `v` overlaps no other one
      have untouched {w : Variable α} (other : w ∈ r.vars) (differs : w.storage ≠ v.storage) :
          (m.store v.storage filled).load w.storage = m.load w.storage := by
        obtain ⟨b, spans'⟩ := separate.spans w other
        exact spans.load_store_apart spans'
          (separate.apart v member constant w other differs a b spans spans') size'
      constructor
      · exact fun w other b spans' => wrote.spans w other b (spans.store spans' size')
      · intro w other unwritten
        obtain ⟨differs, unwritten⟩ := not_or.1 (mt List.mem_cons.2 unwritten)
        rw [wrote.others w other unwritten, untouched other differs]
      · refine List.forall_mem_cons.2 ⟨⟨values, found, ?_⟩, fun w later => ?_⟩
        · rw [wrote.others v member fresh, spans.load_store_self size']
          exact fits
        · obtain ⟨values', found', fits'⟩ := wrote.read_back w later
          have differs : w.storage ≠ v.storage := fun same =>
            fresh (same ▸ List.mem_map_of_mem later)
          rw [untouched (free w later).1 differs] at fits'
          exact ⟨values', found', fits'⟩

theorem run_writePoint (wf : r.WellFormed) (separate : r.Separate m)
    (ran : StateT.run (ExceptT.run (r.writePoint x)) m = (.ok (), m')) :
    r.Wrote x (r.vars.filter (!·.isConstant)) m m' := by
  obtain ⟨_, m₁, checked, ran⟩ := run_run_bind_ok.1 ran
  rw [run_run_lift] at checked
  obtain ⟨-, rfl⟩ := Prod.mk.inj checked
  refine run_writeVariables separate (fun v member => ?_) ?_ ran
  · simpa using List.mem_filter.1 member
  · exact wf.distinct.sublist (List.filter_sublist.map _)

/-! ## Reading it back -/

theorem fit_fit {values filled result : List α} {size size' : Nat} (fits : fit size values = .ok filled)
    (fits' : fit size' filled = .ok result) : fit size' values = .ok result := by
  unfold fit at fits
  split at fits
  · cases fits
    exact fits'
  · rename_i differs
    split at fits
    · rename_i value
      cases fits
      by_cases same : size' = size
      · subst same
        have whole : fit size' (List.replicate size' value) = .ok (List.replicate size' value) := by
          simp [fit]
        rw [fit, if_neg differs, ← fits', whole]
      · -- a list of several equal values is not repeated, and fits no other size
        obtain _ | _ | size := size
        · have other : ¬0 = size' := fun none => same none.symm
          simp [fit, other] at fits'
        · exact absurd rfl differs
        · have other : ¬size + 1 + 1 = size' := fun none => same none.symm
          simp [fit, List.replicate_succ, other] at fits'
    · cases fits

theorem mapM_ok_imp {β γ : Type} {f g : β → Except (Fault α) γ} {l : List β} {results : List γ}
    (each : ∀ b ∈ l, ∀ c, f b = .ok c → g b = .ok c) (all : l.mapM f = .ok results) :
    l.mapM g = .ok results := by
  induction l generalizing results with
  | nil => exact all
  | cons b rest ih =>
      rw [List.mapM_cons] at all ⊢
      obtain ⟨c, here, all⟩ := bind_eq_ok.1 all
      obtain ⟨others, there, all⟩ := bind_eq_ok.1 all
      rw [each b List.mem_cons_self c here, ok_bind,
        ih (fun b' member => each b' (List.mem_cons_of_mem _ member)) there, ok_bind]
      exact all

section

variable {v : Variable α} (wf : r.WellFormed)
  (wrote : r.Wrote x (r.vars.filter (!·.isConstant)) m m')

include wf wrote

theorem Wrote.load_constant (member : v ∈ r.vars) (constant : v.isConstant = true) :
    m'.load v.storage = m.load v.storage := by
  refine wrote.others v member fun written => ?_
  obtain ⟨w, free, same⟩ := List.mem_map.1 written
  obtain ⟨other, free⟩ := List.mem_filter.1 free
  rw [List.inj_on_of_nodup_map wf.distinct other member same, constant] at free
  cases free

theorem Wrote.localValue_of_stored (member : v ∈ r.vars) {values : List α}
    (stored : storedValue m' v = .ok values) : localValue m x v = .ok values := by
  cases constant : v.isConstant with
  | true =>
      rw [localValue, constant, if_pos rfl, ← wrote.load_constant wf member constant]
      exact stored
  | false =>
      obtain ⟨values', found, fits⟩ :=
        wrote.read_back v (List.mem_filter.2 ⟨member, by simp [constant]⟩)
      rw [localValue, constant, if_neg (by decide), found, ok_bind]
      exact fit_fit fits stored

theorem Wrote.stored_of_localValue (member : v ∈ r.vars)
    (size : (m.load v.storage).length = v.userDimension) {values : List α}
    (seen : localValue m x v = .ok values) : storedValue m' v = .ok values := by
  cases constant : v.isConstant with
  | true =>
      rw [localValue, constant, if_pos rfl, ← wrote.load_constant wf member constant] at seen
      exact seen
  | false =>
      obtain ⟨values', found, fits⟩ :=
        wrote.read_back v (List.mem_filter.2 ⟨member, by simp [constant]⟩)
      rw [localValue, constant, if_neg (by decide), found, ok_bind, ← size] at seen
      obtain rfl := Except.ok.inj (fits.symm.trans seen)
      rw [storedValue, ← size, ← length_of_fit fits]
      exact fit_self _

variable [Scalar α]

omit wf wrote in
theorem valueMeaning_some (size : x.length = r.scalars) : r.valueMeaning m (some x) = (do
    let locals ← r.pointLocals m (some x)
    r.totalValue <$> r.chunks.mapM fun chunk => chunkTotal locals (slice r.terms chunk)) := by
  have checked : r.checkPoint x = .ok () := by simp [checkPoint, size]
  simp only [valueMeaning, checked, ok_bind]

theorem Wrote.valueMeaning_of_stored (size : x.length = r.scalars) {a : α}
    (value : r.valueMeaning m' none = .ok a) : r.valueMeaning m (some x) = .ok a := by
  obtain ⟨locals, stored, value⟩ := bind_eq_ok.1 value
  have seen : r.pointLocals m (some x) = .ok locals :=
    mapM_ok_imp (fun v member _ => wrote.localValue_of_stored wf member) stored
  rw [valueMeaning_some size, seen]
  exact value

theorem Wrote.stored_of_valueMeaning (separate : r.Separate m) (stored : r.StoredIn m)
    (size : x.length = r.scalars) {a : α} (value : r.valueMeaning m (some x) = .ok a) :
    r.valueMeaning m' none = .ok a := by
  rw [valueMeaning_some size] at value
  obtain ⟨locals, seen, value⟩ := bind_eq_ok.1 value
  have shown : r.pointLocals m' none = .ok locals :=
    mapM_ok_imp (fun v member _ => wrote.stored_of_localValue wf member (separate.length_load stored member))
      seen
  exact bind_eq_ok.2 ⟨locals, shown, value⟩

end

end Registry

end Descent
