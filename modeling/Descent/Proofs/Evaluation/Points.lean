import Mathlib
import Descent.Proofs.Evaluation.Storage

namespace Descent

variable {α : Type}

namespace Memory

theorem take_overwrite {offset : Nat} {values entries : List α} (room : offset ≤ entries.length) :
    (overwrite offset values entries).take offset = entries.take offset := by
  have front : (entries.take offset).length = offset := by
    rw [List.length_take]
    omega
  rw [overwrite, List.append_assoc, List.take_append_of_le_length front.ge,
    List.take_of_length_le front.le]

theorem slice_overwrite {offset : Nat} {values entries : List α} (room : offset ≤ entries.length) :
    ((overwrite offset values entries).drop offset).take values.length = values := by
  have front : (entries.take offset).length = offset := by
    rw [List.length_take]
    omega
  rw [overwrite, List.append_assoc, List.drop_append_of_le_length front.ge,
    List.drop_of_length_le front.le, List.nil_append, List.take_left]

end Memory

namespace Registry

variable {r : Registry α} {m m' : Memory α} {x x' : List α}

def readPart (m : Memory α) (v : Variable α) : Except (Fault α) (List α) :=
  match v.change with
  | none => fit v.userDimension (m.load v.storage)
  | some c => do fit v.solverDimension (← c.toSolver (m.load v.storage))

theorem length_readPart {v : Variable α} (fits : v.Fits) {part : List α}
    (read : readPart m v = .ok part) : part.length = v.solverDimension := by
  rw [readPart] at read
  cases change : v.change with
  | none =>
      rw [change] at read
      rw [length_of_fit read, fits.unchanged change]
  | some c =>
      rw [change] at read
      obtain ⟨values, -, read⟩ := bind_eq_ok.1 read
      exact length_of_fit read

def readInto (m : Memory α) (x : List α) (v : Variable α) : Except (Fault α) (List α) := do
  if v.isConstant then return x
  let part ← readPart m v
  return overwrite v.globalIndex part x

theorem foldlM_readInto {vars : List (Variable α)} {start stop : Nat}
    (tiles : Tiles start (vars.filter (!·.isConstant)) stop) (room : stop ≤ x.length)
    (fits : ∀ v ∈ vars, v.Fits) (read : vars.foldlM (readInto m) x = .ok x') :
    x'.length = x.length ∧ x'.take start = x.take start ∧
      ∀ v ∈ vars, v.isConstant = false → readPart m v = .ok (solverPart v x') := by
  induction vars generalizing start x with
  | nil =>
      cases read
      exact ⟨rfl, rfl, nofun⟩
  | cons v rest ih =>
      obtain ⟨fit, fits⟩ := List.forall_mem_cons.1 fits
      rw [List.foldlM_cons] at read
      obtain ⟨x₁, first, read⟩ := bind_eq_ok.1 read
      cases constant : v.isConstant with
      | true =>
          rw [List.filter_cons_of_neg (by simp [constant])] at tiles
          rw [readInto, constant, if_pos rfl] at first
          cases first
          obtain ⟨size, front, parts⟩ := ih tiles room fits read
          exact ⟨size, front, List.forall_mem_cons.2
            ⟨fun free => absurd (constant.symm.trans free) (by decide), parts⟩⟩
      | false =>
          rw [List.filter_cons_of_pos (by simp [constant])] at tiles
          obtain ⟨place, tiles⟩ := tiles
          rw [readInto, constant, if_neg (by decide)] at first
          obtain ⟨part, here, first⟩ := bind_eq_ok.1 first
          cases first
          have long := length_readPart fit here
          have below := tiles.le
          have size₁ : (overwrite v.globalIndex part x).length = x.length :=
            length_overwrite (by omega)
          obtain ⟨size, front, parts⟩ := ih tiles (size₁ ▸ room) fits read
          -- later parts are put behind this one
          have front₁ : x'.take start = x.take start := by
            have shorter := congrArg (List.take start) front
            rw [List.take_take, List.take_take, Nat.min_eq_left (Nat.le_add_right ..), ← place,
              Memory.take_overwrite (by omega)] at shorter
            rwa [← place]
          refine ⟨size.trans size₁, front₁, List.forall_mem_cons.2 ⟨fun _ => ?_, parts⟩⟩
          have kept : solverPart v x' = part := by
            have inside : v.globalIndex + v.solverDimension = start + v.solverDimension := by
              rw [place]
            rw [solverPart, List.take_drop, inside, front, ← inside, ← List.take_drop, ← long,
              Memory.slice_overwrite (by omega)]
          rw [kept]
          exact here

variable [Scalar α]

theorem readPoint_eq : r.readPoint m = r.vars.foldlM (readInto m) (List.replicate r.scalars 0) := by
  rw [readPoint]
  congr 1
  funext x v
  rw [readInto, readPart]
  cases v.change with
  | none => rfl
  | some c => simp only [bind_assoc]

theorem run_readPoint (wf : r.WellFormed) (read : r.readPoint m = .ok x) :
    x.length = r.scalars ∧
      ∀ v ∈ r.vars, v.isConstant = false → readPart m v = .ok (solverPart v x) := by
  rw [readPoint_eq] at read
  have all := foldlM_readInto wf.tiles_free (by rw [List.length_replicate]) wf.vars read
  exact ⟨by rw [all.1, List.length_replicate], all.2.2⟩

theorem readPoint_of_parts
    (parts : ∀ v ∈ r.vars, v.isConstant = false → ∃ part, readPart m v = .ok part) :
    ∃ x, r.readPoint m = .ok x := by
  have all (vars : List (Variable α)) (x : List α)
      (parts : ∀ v ∈ vars, v.isConstant = false → ∃ part, readPart m v = .ok part) :
      ∃ x', vars.foldlM (readInto m) x = .ok x' := by
    induction vars generalizing x with
    | nil => exact ⟨x, rfl⟩
    | cons v rest ih =>
        obtain ⟨part, parts⟩ := List.forall_mem_cons.1 parts
        rw [List.foldlM_cons]
        cases constant : v.isConstant with
        | true =>
            rw [readInto, constant, if_pos rfl]
            exact ih x parts
        | false =>
            obtain ⟨values, read⟩ := part constant
            rw [readInto, constant, if_neg Bool.false_ne_true, read]
            exact ih _ parts
  rw [readPoint_eq]
  exact all r.vars _ parts

omit [Scalar α] in
theorem writePoint_of_parts (size : x.length = r.scalars)
    (lengths : ∀ v ∈ r.vars, v.isConstant = false → (m.load v.storage).length = v.userDimension)
    (parts : ∀ v ∈ r.vars, v.isConstant = false → ∃ values, localValue m x v = .ok values) :
    ∃ m', StateT.run (ExceptT.run (r.writePoint x)) m = (.ok (), m') := by
  have all (vars : List (Variable α)) (m₁ : Memory α)
      (lengths : ∀ v ∈ vars, (m₁.load v.storage).length = v.userDimension)
      (parts : ∀ v ∈ vars, v.isConstant = false ∧ ∃ values, localValue m x v = .ok values) :
      ∃ m', StateT.run (ExceptT.run (vars.forM (writeVariable x))) m₁ = (.ok (), m') := by
    induction vars generalizing m₁ with
    | nil => exact ⟨m₁, rfl⟩
    | cons v rest ih =>
        obtain ⟨⟨free, filled, part⟩, parts⟩ := List.forall_mem_cons.1 parts
        obtain ⟨long, lengths⟩ := List.forall_mem_cons.1 lengths
        rw [localValue, free, if_neg Bool.false_ne_true] at part
        obtain ⟨values, found, fits⟩ := bind_eq_ok.1 part
        have wrote := writeVariable_ok found (long.symm ▸ fits)
        obtain ⟨m', rest⟩ := ih (m₁.store v.storage filled) (fun w member => by
          rw [Memory.length_load_store ((length_of_fit fits).trans long.symm), lengths w member]) parts
        exact ⟨m', run_run_bind_ok.2 ⟨(), _, wrote, rest⟩⟩
  have checked : r.checkPoint x = .ok () := by simp [checkPoint, size]
  have free {v : Variable α} (member : v ∈ r.vars.filter (!·.isConstant)) :
      v ∈ r.vars ∧ v.isConstant = false := by simpa using List.mem_filter.1 member
  obtain ⟨m', wrote⟩ := all (r.vars.filter (!·.isConstant)) m
    (fun v member => lengths v (free member).1 (free member).2)
    (fun v member => ⟨(free member).2, parts v (free member).1 (free member).2⟩)
  exact ⟨m', run_run_bind_ok.2 ⟨(), m, by rw [run_run_lift, checked], wrote⟩⟩

omit [Scalar α] in
theorem refit {size : Nat} {values filled result : List α} (fits : fit size values = .ok filled)
    (fits' : fit values.length filled = .ok result) : result = values :=
  Except.ok.inj ((fit_fit fits fits').symm.trans (fit_self values))

theorem load_of_written (wf : r.WellFormed) (separate : r.Separate m)
    (unchanged : ∀ v ∈ r.vars, v.isConstant = false → v.change = none)
    (read : r.readPoint m = .ok x)
    (ran : StateT.run (ExceptT.run (r.writePoint x)) m = (.ok (), m')) :
    ∀ v ∈ r.vars, m'.load v.storage = m.load v.storage := by
  intro v member
  have wrote := run_writePoint wf separate ran
  cases constant : v.isConstant with
  | true => exact wrote.load_constant wf member constant
  | false =>
      have change := unchanged v member constant
      have part := (run_readPoint wf read).2 v member constant
      obtain ⟨values, found, fits⟩ :=
        wrote.read_back v (List.mem_filter.2 ⟨member, by simp [constant]⟩)
      rw [userPart, change] at found
      cases found
      rw [readPart, change, solverPart, (wf.vars v member).unchanged change] at part
      exact refit part fits

omit [Scalar α] in
theorem length_eq_one_of_fit {size : Nat} {values filled : List α} (fits : fit size values = .ok filled)
    (differs : values.length ≠ size) : values.length = 1 := by
  unfold fit at fits
  rw [if_neg differs] at fits
  split at fits
  · rfl
  · cases fits

omit [Scalar α] in
theorem fit_exact {values loaded filled part : List α} (fits : fit loaded.length values = .ok filled)
    (fits' : fit values.length loaded = .ok part) : filled = values := by
  have same : values.length = loaded.length := by
    by_contra differs
    exact differs ((length_eq_one_of_fit fits differs).trans
      (length_eq_one_of_fit fits' (Ne.symm differs)).symm)
  rw [← same, fit_self] at fits
  exact (Except.ok.inj fits).symm

omit [Scalar α] in
theorem length_solverPart (wf : r.WellFormed) (size : x.length = r.scalars) {v : Variable α}
    (member : v ∈ r.vars) (free : v.isConstant = false) :
    (solverPart v x).length = v.solverDimension := by
  have inside := wf.tiles_free.le_stop (List.mem_filter.2 ⟨member, by simp [free]⟩)
  rw [solverPart, List.length_take, List.length_drop]
  omega

omit [Scalar α] in
theorem solverPart_whole {v : Variable α} (first : v.globalIndex = 0) (all : x.length ≤ v.solverDimension) :
    solverPart v x = x := by
  rw [solverPart, first, List.drop_zero, List.take_of_length_le all]

omit [Scalar α] in
theorem WellFormed.userPart_eq (wf : r.WellFormed) {v : Variable α} (member : v ∈ r.vars)
    (change : v.change = none) : userPart v x = .ok (solverPart v x) := by
  rw [userPart, change, solverPart, (wf.vars v member).unchanged change]

omit [Scalar α] in
theorem WellFormed.localValue_eq (wf : r.WellFormed) (size : x.length = r.scalars) {v : Variable α}
    (member : v ∈ r.vars) (free : v.isConstant = false) (change : v.change = none) :
    localValue m x v = .ok (solverPart v x) := by
  rw [localValue, free, if_neg Bool.false_ne_true, wf.userPart_eq member change, ok_bind,
    ← (wf.vars v member).unchanged change, ← length_solverPart wf size member free]
  exact fit_self _

section

variable {x₀ : List α} (wf : r.WellFormed) (separate : r.Separate m)
  (unchanged : ∀ v ∈ r.vars, v.isConstant = false → v.change = none)

include wf separate unchanged

theorem load_written (size : x.length = r.scalars) (read : r.readPoint m = .ok x₀)
    (ran : StateT.run (ExceptT.run (r.writePoint x)) m = (.ok (), m')) :
    ∀ v ∈ r.vars, v.isConstant = false → m'.load v.storage = solverPart v x := by
  intro v member free
  have change := unchanged v member free
  have part := (run_readPoint wf read).2 v member free
  obtain ⟨values, found, fits⟩ :=
    (run_writePoint wf separate ran).read_back v (List.mem_filter.2 ⟨member, by simp [free]⟩)
  rw [wf.userPart_eq member change] at found
  cases found
  rw [readPart, change] at part
  rw [← (wf.vars v member).unchanged change, ← length_solverPart wf size member free] at part
  exact fit_exact fits part

variable (stored : r.StoredIn m)

include stored

omit wf in
theorem readPoint_ok : ∃ x, r.readPoint m = .ok x := by
  refine readPoint_of_parts fun v member free => ⟨m.load v.storage, ?_⟩
  rw [readPart, unchanged v member free, ← separate.length_load stored member]
  exact fit_self _

omit [Scalar α] in
theorem writePoint_ok (size : x.length = r.scalars) :
    ∃ m', StateT.run (ExceptT.run (r.writePoint x)) m = (.ok (), m') :=
  writePoint_of_parts size (fun _ member _ => separate.length_load stored member) fun v member free =>
    ⟨solverPart v x, wf.localValue_eq size member free (unchanged v member free)⟩

end

end Registry

end Descent
