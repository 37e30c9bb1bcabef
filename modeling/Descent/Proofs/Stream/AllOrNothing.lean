import Mathlib
import Descent.Proofs.Calls
import Descent.Proofs.Stream.Refusals

namespace Descent

variable {α : Type}

namespace Objective

variable [Scalar α] {f g : Objective α}

theorem clear_become {r : Registry α} (threads : r.threads = f.threads)
    (hessianEnabled : r.hessianEnabled = f.hessianEnabled) : (f.become r.canonical).clear = f.clear := by
  simp only [clear, become, Registry.canonical_eq, threads, hessianEnabled, Workspace.invalidate]

theorem Grows.clear_eq (grows : f.Grows g) : g.clear = f.clear := by
  simp only [clear, grows.grown.threads, grows.grown.hessianEnabled, grows.forgotten]

theorem keptByReading_clear (f : Objective α) :
    KeptByReading fun g : Objective α => g.WellFormed ∧ g.clear = f.clear where
  addVariable {g} h dimension m := by
    rintro ⟨wf, same⟩
    refine ⟨invariant_wellFormed.keptByReading.addVariable h dimension m wf, ?_⟩
    rw [run_addVariable wf, ← same]
    split
    · split
      · exact clear_become rfl rfl
      · rfl
    · split
      · exact clear_become rfl rfl
      · rfl
  setConstant {g} h m := by
    rintro ⟨wf, same⟩
    refine ⟨invariant_wellFormed.keptByReading.setConstant h m wf, ?_⟩
    rw [run_setConstant wf, ← same]
    split
    · exact clear_become rfl rfl
    · rfl
  addTerm {g} t handles m := by
    rintro ⟨wf, same⟩
    exact ⟨invariant_wellFormed.keptByReading.addTerm t handles m wf, (addTerm_grows wf rfl).1.clear_eq.trans same⟩
  constant {g} constant := by
    rintro ⟨wf, same⟩
    exact ⟨wf.setConstant constant, same⟩

theorem alike_clear (threads : 0 < f.threads) :
    ({ ofThreads f.threads with hessianEnabled := f.hessianEnabled } : Objective α).Alike f.clear :=
  ⟨rfl, Registry.wellFormed_empty threads, Workspace.coherent_unused _, nofun, nofun⟩

end Objective

namespace Reading

variable [Numeral α] [Scalar α] {f : Objective α} {factory : Factory α} {text : List Char} {m : Memory α}

theorem objective_of_failed (threads : 0 < f.threads) {fault : Fault α} {reader : Reader α}
    (failed : run (objective factory) ⟨text, m, f⟩ = (.error fault, reader)) : reader.objective = f.clear := by
  have kept := keeps_body (Objective.keptByReading_clear f.clear) factory ⟨text, m, f.clear⟩
    ⟨Registry.wellFormed_empty threads, rfl⟩
  rcases outcome : run (body factory) ⟨text, m, f.clear⟩ with ⟨other | read, left⟩
  · rw [run_objective_error outcome] at failed
    cases failed
    rw [show StateT.run (ExceptT.run (body factory)) _ = _ from outcome] at kept
    exact kept.2
  · rw [run_objective_ok outcome] at failed
    cases failed

end Reading

def Memory.Slices (m : Memory α) (block : Nat) : (start : Nat) → List (Variable α) → (stop : Nat) → Prop
  | start, [], stop => start = stop
  | start, v :: rest, stop => m.object? v.storage = some (.array .double [v.userDimension] block start) ∧
      m.Slices block (start + v.userDimension) rest stop

theorem Memory.slices_parts {m : Memory α} {block start : Nat} {vs : List (Variable α)} {older : List Object}
    (objects : m.objects = older ++ parts block start (vs.map Variable.userDimension)) :
    m.Slices block start (Registry.rehomed older.length vs) (start + (vs.map Variable.userDimension).sum) := by
  induction vs generalizing older start with
  | nil => rfl
  | cons v rest ih =>
      rw [List.map_cons, parts] at objects
      have others := ih (objects.trans (List.append_cons ..))
      rw [List.length_append, List.length_singleton] at others
      refine ⟨?_, ?_⟩
      · rw [object?, objects, List.getElem?_append_right (Nat.le_refl _), Nat.sub_self]
        rfl
      · rw [List.map_cons, List.sum_cons, ← Nat.add_assoc]
        exact others

theorem Memory.Slices.le {m : Memory α} {block start stop : Nat} {vs : List (Variable α)}
    (slices : m.Slices block start vs stop) : start ≤ stop := by
  induction vs generalizing start with
  | nil => exact Nat.le_of_eq slices
  | cons v rest ih => exact (Nat.le_add_right ..).trans (ih slices.2)

theorem Memory.Slices.load {m : Memory α} {block start stop : Nat} {vs : List (Variable α)} {cells : List α}
    (slices : m.Slices block start vs stop) (found : m.blocks[block]? = some cells)
    (room : stop ≤ cells.length) :
    (∀ v ∈ vs, (m.load v.storage).length = v.userDimension) ∧
      cells.drop start = (vs.flatMap fun v => m.load v.storage) ++ cells.drop stop := by
  induction vs generalizing start with
  | nil => exact ⟨nofun, by rw [show start = stop from slices]; rfl⟩
  | cons v rest ih =>
      obtain ⟨array, slices⟩ := slices
      obtain ⟨lengths, contents⟩ := ih slices
      have inside := slices.le
      have here : m.load v.storage = (cells.drop start).take v.userDimension := by
        simp only [Memory.load, array, Memory.cells, found, Option.getD_some, Shape.size, List.foldr_cons,
          List.foldr_nil, Nat.mul_one]
      refine ⟨List.forall_mem_cons.2 ⟨?_, lengths⟩, ?_⟩
      · rw [here, List.length_take, List.length_drop]
        omega
      · rw [List.flatMap_cons, List.append_assoc, ← contents, ← List.drop_drop, here, List.take_append_drop]

/-- What was read, and nothing else: the head, the terms and what is behind them are those of the text, and the
numbers are in a new array, which the variables share. -/
structure Factory.Delivers [Numeral α] [Scalar α] (factory : Factory α) (text : List Char) (m : Memory α)
    (f : Objective α) (head : Head α) (whole : Handle) (handles : List Handle) (reader : Reader α) : Prop where
  states : factory.States text head reader.objective.terms reader.text
  constant : reader.objective.constant = head.constant
  dimensions : reader.objective.vars.map (fun v => (v.userDimension : Int)) = head.dimensions
  flags : reader.objective.vars.map (·.isConstant) = head.flags.map (decide <| · ≠ 0)
  unchanged : ∀ v ∈ reader.objective.vars, v.change = none
  views : handles = reader.objective.vars.map Variable.storage
  array : reader.memory.object? whole = some (.array .double [head.values.length] m.blocks.length 0)
  values : reader.memory.blocks = m.blocks ++ [head.values]
  slices : reader.memory.Slices m.blocks.length 0 reader.objective.vars head.values.length
  fresh : ∀ h ∈ whole :: handles, m.object? h = none
  older : ∀ h o, m.object? h = some o → reader.memory.object? h = some o
  threads : reader.objective.threads = f.threads
  hessianEnabled : reader.objective.hessianEnabled = f.hessianEnabled
  workspace : reader.objective.workspace = f.clear.workspace
  consistent : reader.objective.Consistent

namespace Reading

open Registry

variable {text rest : List Char} {m : Memory α} {head : Head α} {bs : List (Binding α)}

theorem slices_taken {next : Nat} (next_eq : next = m.objects.length + 1) {threads : Nat} {hessianEnabled : Bool}
    (positive : ∀ d ∈ head.dimensions, 0 < d) :
    (m.taken head.values (head.dimensions.map Int.toNat)).Slices m.blocks.length 0
      (head.registry next bs threads hessianEnabled).vars head.values.length := by
  have dimensions : (placed 0 (extent false head.vars) head.vars).map Variable.userDimension =
      head.vars.map Variable.userDimension := map_congr_unplaced (fun _ => rfl) (map_unplaced_placed ..)
  have vars : (head.registry next bs threads hessianEnabled).vars =
      rehomed next (placed 0 (extent false head.vars) head.vars) := by
    rw [Head.registry, canonical_eq, Head.draft]
    simp only [extent_rehomed, placed_rehomed]
  have objects : (m.taken head.values (head.dimensions.map Int.toNat)).objects =
      (m.objects ++ [.array .double [head.values.length] m.blocks.length 0]) ++
        Memory.parts m.blocks.length 0
          ((placed 0 (extent false head.vars) head.vars).map Variable.userDimension) := by
    rw [dimensions, Head.map_userDimension_vars]
    simp [Memory.taken]
  have slices := Memory.slices_parts objects
  rwa [dimensions, Head.sum_vars positive, Nat.zero_add, List.length_append, List.length_singleton, ← next_eq,
    ← vars] at slices

theorem object?_taken_of_some {values : List α} {dimensions : List Nat} {h : Handle} {o : Object}
    (found : m.object? h = some o) : (m.taken values dimensions).object? h = some o := by
  obtain ⟨inside, -⟩ := List.getElem?_eq_some_iff.1 (show m.objects[h.id]? = _ from found)
  rw [← found, Memory.object?, Memory.object?, Memory.taken, List.getElem?_append_left inside]

theorem object?_eq_none_of_new {vs : List (Variable α)} {h : Handle}
    (member : h ∈ (⟨m.objects.length⟩ : Handle) :: (rehomed (m.objects.length + 1) vs).map Variable.storage) :
    m.object? h = none := by
  rw [storages_rehomed] at member
  rw [Memory.object?, List.getElem?_eq_none_iff]
  rcases List.mem_cons.1 member with rfl | member
  · exact Nat.le_refl _
  · obtain ⟨id, inside, rfl⟩ := List.mem_map.1 member
    exact Nat.le_of_succ_le (List.mem_range'_1.1 inside).1

theorem map_vars_registry {β : Type} {g : Variable α → β} (unplaced : ∀ v, g v.unplaced = g v) (head : Head α)
    (next : Nat) (bs : List (Binding α)) (threads : Nat) (hessianEnabled : Bool) :
    (head.registry next bs threads hessianEnabled).vars.map g = (rehomed next head.vars).map g := by
  rw [Head.registry, map_canonical unplaced, Head.draft]

theorem plain_registry (head : Head α) (next : Nat) (bs : List (Binding α)) (threads : Nat)
    (hessianEnabled : Bool) : ∀ v ∈ (head.registry next bs threads hessianEnabled).vars, v.change = none := by
  have changes := map_vars_registry (g := Variable.change) (fun _ => rfl) head next bs threads hessianEnabled
  rw [map_rehomed fun _ _ => rfl] at changes
  intro v member
  obtain ⟨u, known, same⟩ := List.mem_map.1 (changes ▸ List.mem_map_of_mem member)
  rw [← same, Head.plain_vars u known]

variable [Numeral α] [Scalar α] {f : Objective α} {factory : Factory α}

theorem delivers_of_states (threads : 0 < f.threads) (states : factory.States text head bs rest) :
    factory.Delivers text m f head ⟨m.objects.length⟩
      ((rehomed (m.objects.length + 1) head.vars).map Variable.storage)
      ⟨rest, m.taken head.values (head.dimensions.map Int.toNat),
        ⟨head.registry (m.objects.length + 1) bs f.threads f.hessianEnabled, f.clear.workspace⟩⟩ := by
  have fits : ∀ b ∈ bs, b.Fits (head.dimensions.map Int.toNat) := by
    obtain ⟨behind, -, fitting⟩ := states.lines
    exact fitting.fits
  have wf := wellFormed_registry f.hessianEnabled states.positive threads fits (m.objects.length + 1)
  refine {
    states := ?states
    constant := by rw [Head.registry, canonical_eq, Head.draft]
    dimensions := ?dimensions
    flags := ?flags
    unchanged := plain_registry head _ bs _ _
    views := (map_vars_registry (fun _ => rfl) ..).symm
    array := by simp [Memory.object?, Memory.taken]
    values := rfl
    slices := slices_taken rfl states.positive
    fresh := fun h member => object?_eq_none_of_new member
    older := fun h o found => object?_taken_of_some found
    threads := by rw [Head.registry, canonical_eq, Head.draft]
    hessianEnabled := by rw [Head.registry, canonical_eq, Head.draft]
    workspace := rfl
    consistent := wf.consistent_layout }
  case states =>
    rw [Head.registry, canonical_eq]
    exact states
  case dimensions =>
    rw [map_vars_registry fun _ => rfl, map_rehomed fun _ _ => rfl, ← Head.dimensions_vars states.positive,
      List.map_map]
    rfl
  case flags =>
    rw [map_vars_registry fun _ => rfl, map_rehomed fun _ _ => rfl]
    exact head.flagged_vars.map_isConstant

theorem delivers_of_ok (threads : 0 < f.threads) {whole : Handle} {handles : List Handle} {reader : Reader α}
    (read : run (objective factory) ⟨text, m, f⟩ = (.ok (whole, handles), reader)) :
    ∃ head, factory.Delivers text m f head whole handles reader := by
  rcases objective_cases threads factory text m with ⟨head, bs, rest, states⟩ | ⟨fault, left, failed, -⟩
  · rw [run_objective_states threads states] at read
    cases read
    exact ⟨head, delivers_of_states threads states⟩
  · rw [run_objective_error failed] at read
    cases read

omit [Numeral α] [Scalar α] in
theorem ends_term_shorter (factory : Factory α) (handles : List Handle) (reader : Reader α) :
    Ends (term factory handles) reader (fun _ left => left.text.length < reader.text.length) fun _ => True := by
  rw [← bind_pure (term factory handles)]
  refine ends_term (fun _ _ => trivial) (fun _ _ => trivial) fun b rest states => ?_
  obtain ⟨lines, -⟩ := states
  have shorter := lines.length_le
  simp only [List.length_cons, List.length_nil] at shorter
  rw [bind_pure, bindStated]
  rcases outcome : (Objective.addTerm b.term (b.positions.filterMap (handles[·]?))).run reader.memory
    reader.objective with ⟨fault | ⟨⟩, g⟩
  · exact ends_of_error (run_edit_error _ outcome) trivial
  · exact ends_of_ok (run_edit _ outcome) (by simp only; omega)

omit [Numeral α] [Scalar α] in
theorem run_terms_beyond (factory : Factory α) (handles : List Handle) (reader : Reader α) :
    ∃ fault left, ∀ count, reader.text.length < count →
      run (terms factory handles count) reader = (.error fault, left) := by
  induction size : reader.text.length using Nat.strong_induction_on generalizing reader with
  | _ size ih =>
      have next := ends_term_shorter factory handles reader
      rcases outcome : run (term factory handles) reader with ⟨fault | ⟨⟩, reader'⟩ <;>
        rw [Ends, outcome] at next
      · refine ⟨fault, reader', fun count beyond => ?_⟩
        obtain ⟨left, rfl⟩ := Nat.exists_eq_succ_of_ne_zero (Nat.ne_zero_of_lt beyond)
        rw [terms, run_bind_error outcome]
      · obtain ⟨fault, left, ended⟩ := ih _ (size ▸ next) reader' rfl
        refine ⟨fault, left, fun count beyond => ?_⟩
        obtain ⟨count, rfl⟩ := Nat.exists_eq_succ_of_ne_zero (Nat.ne_zero_of_lt beyond)
        rw [terms, run_bind_ok outcome]
        exact ended count (by omega)

end Reading

namespace Objective

variable [Numeral α] [Scalar α] {f : Objective α}

/-- A reading that fails leaves the objective cleared, as good as new; one that succeeds leaves what the text
states; and it does not look for terms behind the end of the text. -/
theorem Reachable.all_or_nothing (reached : Reachable f) (factory : Factory α) (text : List Char) (m : Memory α) :
    (∀ fault reader, (Reading.objective factory).run ⟨text, m, f⟩ = (.error fault, reader) →
      reader.objective = ⟨⟨0, [], [], .empty, 0, 0, f.threads, f.hessianEnabled⟩,
        ⟨none, none, 0, f.workspace.pool, f.workspace.evaluationsWithoutGradient,
          f.workspace.evaluationsWithGradient⟩⟩ ∧
      ∃ g, new? f.threads = .ok g ∧ ∀ calls, reader.objective.runCalls calls =
        ({ g with hessianEnabled := f.hessianEnabled } : Objective α).runCalls calls) ∧
    (∀ whole handles reader, (Reading.objective factory).run ⟨text, m, f⟩ = (.ok (whole, handles), reader) →
      ∃ head, factory.Delivers text m f head whole handles reader) ∧
    ∀ handles reader, ∃ fault left, ∀ count, reader.text.length < count →
      (Reading.terms factory handles count).run reader = (.error fault, left) := by
  have threads := reached.wellFormed.threads
  refine ⟨fun fault reader failed => ?_, fun whole handles reader => Reading.delivers_of_ok threads,
    Reading.run_terms_beyond factory⟩
  have cleared := Reading.objective_of_failed threads failed
  refine ⟨cleared, ofThreads f.threads, ?_, fun calls => ?_⟩
  · rw [new?, if_neg (by omega), Int.toNat_natCast]
  · rw [cleared, (alike_clear threads).runCalls]

def oneConstant : List Char :=
  (Registry.unlines [streamMagic, "1", typeFormat, "1", "2", "3", "0.5", "1 2", "0 -7", "0.5 1.0 2.0", "Constant",
    "1", "0", "", "rest"]).toList

def readInto (text : List Char) : Except (Fault Float) (Handle × List Handle) × Reader Float :=
  (Reading.objective onlyConstants).run ⟨text, threeArrays, angleAndConstant⟩

theorem angleAndConstant_read :
    (∃ whole handles reader head, readInto oneConstant = (.ok (whole, handles), reader) ∧
      onlyConstants.Delivers oneConstant threeArrays angleAndConstant head whole handles reader) ∧
    ∃ fault reader, readInto secondArgument = (.error fault, reader) ∧
      reader.objective = ⟨⟨0, [], [], .empty, 0, 0, 2, true⟩, ⟨none, none, 0, none, 0, 0⟩⟩ := by
  have first : (readInto oneConstant).1.isOk = true := by decide +kernel
  have second : (readInto secondArgument).1.isOk = false := by decide +kernel
  rcases outcome : readInto oneConstant with ⟨fault | ⟨whole, handles⟩, reader⟩ <;> rw [outcome] at first
  · cases first
  rcases outcome' : readInto secondArgument with ⟨fault | read, reader'⟩ <;> rw [outcome'] at second
  · obtain ⟨head, restores⟩ := (Reachable.all_or_nothing reachable_angleAndConstant onlyConstants oneConstant
      threeArrays).2.1 whole handles reader outcome
    obtain ⟨cleared, -⟩ := (Reachable.all_or_nothing reachable_angleAndConstant onlyConstants secondArgument
      threeArrays).1 fault reader' outcome'
    exact ⟨⟨whole, handles, reader, head, rfl, restores⟩, fault, reader', rfl, cleared⟩
  · cases second

end Objective

end Descent
