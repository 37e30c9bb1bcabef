import Mathlib
import Descent.Proofs.Evaluation.Faults
import Descent.Proofs.Evaluation.Points
import Descent.Proofs.Registry.Reachable

namespace Descent

variable {α : Type}

def Change.Restores (c : Change α) (values : List α) : Prop :=
  ∃ t, c.toSolver values = .ok t ∧ t.length = c.solverDimension ∧ c.toUser t = .ok values

namespace Registry

variable {r : Registry α} {m m' : Memory α} {x : List α} {v : Variable α}

def writtenValue (x : List α) (v : Variable α) : Except (Fault α) (List α) := do
  fit v.userDimension (← userPart v x)

theorem localValue_of_free (free : v.isConstant = false) :
    localValue m x v = writtenValue x v := by
  rw [localValue, free, if_neg Bool.false_ne_true, writtenValue]

theorem localValue_of_constant (constant : v.isConstant = true) :
    localValue m x v = storedValue m v := by
  rw [localValue, constant, if_pos rfl, storedValue]
  rfl

theorem run_writeVariable_error {fault : Fault α}
    (long : (m.load v.storage).length = v.userDimension) (failed : writtenValue x v = .error fault) :
    StateT.run (ExceptT.run (writeVariable x v)) m = (.error fault, m) := by
  rw [writtenValue] at failed
  simp only [writeVariable, run_run_bind, run_run_lift, run_run_get]
  cases found : userPart v x with
  | error other =>
      rw [found] at failed
      cases failed
      rfl
  | ok values =>
      have refused : m.assign v.storage values = .error fault := by
        rw [found, ok_bind] at failed
        rw [Memory.assign, long, failed]
        rfl
      simp only [refused]

theorem forM_writeVariable_cons {rest : List (Variable α)} :
    (v :: rest).forM (writeVariable x) = (do writeVariable x v; rest.forM (writeVariable x)) := rfl

theorem run_writeVariables_prefix {vars : List (Variable α)}
    (lengths : ∀ v ∈ vars, (m.load v.storage).length = v.userDimension) :
    ∃ before after m', vars = before ++ after ∧
      StateT.run (ExceptT.run (before.forM (writeVariable x))) m = (.ok (), m') ∧
      StateT.run (ExceptT.run (vars.forM (writeVariable x))) m =
        ((fun _ => ()) <$> vars.mapM (writtenValue x), m') := by
  induction vars generalizing m with
  | nil => exact ⟨[], [], m, rfl, rfl, rfl⟩
  | cons v rest ih =>
      obtain ⟨long, lengths⟩ := List.forall_mem_cons.1 lengths
      cases written : writtenValue x v with
      | error fault =>
          refine ⟨[], v :: rest, m, rfl, rfl, ?_⟩
          rw [forM_writeVariable_cons, run_run_bind, run_writeVariable_error long written, List.mapM_cons, written]
          rfl
      | ok filled =>
          obtain ⟨values, found, fits⟩ := bind_eq_ok.1 written
          have wrote := writeVariable_ok found (long.symm ▸ fits)
          obtain ⟨before, after, m', split, ran, all⟩ := ih (m := m.store v.storage filled) fun w member => by
            rw [Memory.length_load_store ((length_of_fit fits).trans long.symm), lengths w member]
          refine ⟨v :: before, after, m', by rw [split, List.cons_append], ?_, ?_⟩
          · rw [forM_writeVariable_cons, run_run_bind, wrote]
            exact ran
          · rw [forM_writeVariable_cons, run_run_bind, wrote, List.mapM_cons, written, ok_bind]
            refine all.trans ?_
            cases rest.mapM (writtenValue x) <;> rfl

theorem run_writePoint_eq (size : x.length = r.scalars) :
    StateT.run (ExceptT.run (r.writePoint x)) m =
      StateT.run (ExceptT.run ((r.vars.filter (!·.isConstant)).forM (writeVariable x))) m := by
  have checked : r.checkPoint x = .ok () := by simp [checkPoint, size]
  rw [writePoint, run_run_bind, run_run_lift, checked]
  rfl

theorem run_writePoint_size (size : x.length ≠ r.scalars) :
    StateT.run (ExceptT.run (r.writePoint x)) m = (.error (.pointSize x.length r.scalars), m) := by
  rw [writePoint, run_run_bind, run_run_lift, checkPoint, if_pos size]

theorem forall_mem_free {P : Variable α → Prop} :
    (∀ v ∈ r.vars.filter (!·.isConstant), P v) ↔ ∀ v ∈ r.vars, v.isConstant = false → P v := by
  simp only [List.mem_filter, Bool.not_eq_true', and_imp]

section

variable (lengths : ∀ v ∈ r.vars, (m.load v.storage).length = v.userDimension)

include lengths

theorem fault?_writePoint (size : x.length = r.scalars) :
    fault? (StateT.run (ExceptT.run (r.writePoint x)) m).1 = fault? (r.pointLocals m (some x)) := by
  obtain ⟨-, -, m', -, -, ran⟩ := run_writeVariables_prefix (x := x)
    (forall_mem_free.2 fun v member _ => lengths v member)
  rw [run_writePoint_eq size, ran, fault?_map, fault?_mapM, pointLocals, fault?_mapM]
  -- constant variables have no fault, since their arrays have their lengths
  generalize r.vars = vars at lengths
  induction vars with
  | nil => rfl
  | cons v rest ih =>
      obtain ⟨long, lengths⟩ := List.forall_mem_cons.1 lengths
      rw [List.findSome?_cons]
      cases constant : v.isConstant with
      | true =>
          have seen : localValue m x v = .ok (m.load v.storage) := by
            rw [localValue_of_constant constant, storedValue, ← long, fit_self]
          rw [List.filter_cons_of_neg (by simp [constant]), seen]
          exact ih lengths
      | false =>
          rw [List.filter_cons_of_pos (by simp [constant]), List.findSome?_cons, ih lengths,
            localValue_of_free constant]

theorem load_constant_writePoint (wf : r.WellFormed) (separate : r.Separate m) (size : x.length = r.scalars) :
    ∀ v ∈ r.vars, v.isConstant = true →
      (StateT.run (ExceptT.run (r.writePoint x)) m).2.load v.storage = m.load v.storage := by
  intro v member constant
  obtain ⟨before, after, m', split, ran, all⟩ := run_writeVariables_prefix (x := x)
    (forall_mem_free.2 fun v member _ => lengths v member)
  have free : ∀ w ∈ before, w ∈ r.vars ∧ w.isConstant = false := fun w early => by
    have member : w ∈ r.vars.filter (!·.isConstant) := split ▸ List.mem_append_left after early
    simpa using List.mem_filter.1 member
  have distinct : (before.map Variable.storage).Nodup := by
    have all := wf.distinct.sublist ((List.filter_sublist (p := (!·.isConstant))).map Variable.storage)
    rw [split, List.map_append] at all
    exact (List.nodup_append.1 all).1
  rw [run_writePoint_eq size, all]
  refine (run_writeVariables separate free distinct ran).others v member fun written => ?_
  obtain ⟨w, early, same⟩ := List.mem_map.1 written
  obtain ⟨other, free⟩ := free w early
  rw [List.inj_on_of_nodup_map wf.distinct other member same, constant] at free
  cases free

end

theorem Wrote.storedValue_eq (wf : r.WellFormed) (wrote : r.Wrote x (r.vars.filter (!·.isConstant)) m m')
    (member : v ∈ r.vars) (long : (m.load v.storage).length = v.userDimension) :
    storedValue m' v = localValue m x v := by
  cases constant : v.isConstant with
  | true => rw [localValue_of_constant constant, storedValue, wrote.load_constant wf member constant]; rfl
  | false =>
      obtain ⟨values, found, fits⟩ :=
        wrote.read_back v (List.mem_filter.2 ⟨member, by simp [constant]⟩)
      rw [long] at fits
      rw [localValue_of_free constant, writtenValue, found, ok_bind, fits, storedValue,
        ← length_of_fit fits, fit_self]

theorem eq_of_solverParts {x' : List α} {vars : List (Variable α)} {start stop : Nat}
    (tiles : Tiles start vars stop) (size : x.length = stop) (size' : x'.length = stop)
    (parts : ∀ v ∈ vars, solverPart v x = solverPart v x') : x.drop start = x'.drop start := by
  induction vars generalizing start with
  | nil =>
      obtain rfl : start = stop := tiles
      rw [List.drop_of_length_le size.le, List.drop_of_length_le size'.le]
  | cons v rest ih =>
      obtain ⟨rfl, tiles⟩ := tiles
      obtain ⟨here, parts⟩ := List.forall_mem_cons.1 parts
      rw [← List.take_append_drop v.solverDimension (x.drop v.globalIndex),
        ← List.take_append_drop v.solverDimension (x'.drop v.globalIndex), List.drop_drop, List.drop_drop,
        ih tiles parts]
      exact congrArg (· ++ _) here

variable [Scalar α]

theorem valueMeaning_of_pointLocals (size : x.length = r.scalars)
    (same : r.pointLocals m' none = r.pointLocals m (some x)) :
    r.valueMeaning m' none = r.valueMeaning m (some x) := by
  rw [valueMeaning_some size, ← same]
  rfl

theorem Wrote.valueMeaning_eq (wf : r.WellFormed) (wrote : r.Wrote x (r.vars.filter (!·.isConstant)) m m')
    (lengths : ∀ v ∈ r.vars, (m.load v.storage).length = v.userDimension) (size : x.length = r.scalars) :
    r.valueMeaning m' none = r.valueMeaning m (some x) :=
  valueMeaning_of_pointLocals size
    (mapM_congr (List.forall₂_same.2 fun v member => wrote.storedValue_eq wf member (lengths v member)))

theorem Wrote.valueMeaning_some_eq {y : List α} (wf : r.WellFormed)
    (wrote : r.Wrote x (r.vars.filter (!·.isConstant)) m m') :
    r.valueMeaning m' (some y) = r.valueMeaning m (some y) := by
  have same : r.pointLocals m' (some y) = r.pointLocals m (some y) :=
    mapM_congr (List.forall₂_same.2 fun v member => by
      cases constant : v.isConstant with
      | true =>
          rw [localValue_of_constant constant, localValue_of_constant constant, storedValue, storedValue,
            wrote.load_constant wf member constant]
      | false => rw [localValue_of_free constant, localValue_of_free constant])
  rw [valueMeaning, valueMeaning, same]

theorem readPoint_of_written {x₀ : List α} (wf : r.WellFormed) (separate : r.Separate m)
    (unchanged : ∀ v ∈ r.vars, v.isConstant = false → v.change = none) (size : x.length = r.scalars)
    (read : r.readPoint m = .ok x₀) (ran : StateT.run (ExceptT.run (r.writePoint x)) m = (.ok (), m')) :
    r.readPoint m' = .ok x := by
  have parts : ∀ v ∈ r.vars, v.isConstant = false → readPart m' v = .ok (solverPart v x) := by
    intro v member free
    have change := unchanged v member free
    rw [readPart, change, load_written wf separate unchanged size read ran v member free,
      ← (wf.vars v member).unchanged change, ← length_solverPart wf size member free]
    exact fit_self _
  obtain ⟨x', read'⟩ := readPoint_of_parts fun v member free => ⟨_, parts v member free⟩
  obtain ⟨size', parts'⟩ := run_readPoint wf read'
  have same := eq_of_solverParts wf.tiles_free size' size (forall_mem_free.2 fun v member free =>
    Except.ok.inj ((parts' v member free).symm.trans (parts v member free)))
  rw [read']
  exact congrArg Except.ok same

theorem readPoint_written (wf : r.WellFormed) (separate : r.Separate m) (stored : r.StoredIn m)
    (unchanged : ∀ v ∈ r.vars, v.isConstant = false → v.change = none) (size : x.length = r.scalars)
    (ran : StateT.run (ExceptT.run (r.writePoint x)) m = (.ok (), m')) : r.readPoint m' = .ok x := by
  obtain ⟨x₀, read⟩ := readPoint_ok separate unchanged stored
  exact readPoint_of_written wf separate unchanged size read ran

section

variable (wf : r.WellFormed) (lengths : ∀ v ∈ r.vars, (m.load v.storage).length = v.userDimension)
  (restores : ∀ v ∈ r.vars, v.isConstant = false → ∀ c, v.change = some c → c.Restores (m.load v.storage))

include wf lengths restores

omit [Scalar α] in
theorem userPart_of_read (member : v ∈ r.vars) (free : v.isConstant = false) :
    ∃ part, readPart m v = .ok part ∧
      ∀ x, solverPart v x = part → userPart v x = .ok (m.load v.storage) := by
  cases change : v.change with
  | none =>
      refine ⟨m.load v.storage, ?_, fun x same => ?_⟩
      · rw [readPart, change, ← lengths v member]
        exact fit_self _
      · rw [wf.userPart_eq member change, same]
  | some c =>
      obtain ⟨t, given, long, back⟩ := restores v member free c change
      have dimension := ((wf.vars v member).changed c change).2
      refine ⟨t, ?_, fun x same => ?_⟩
      · rw [readPart, change]
        simp only [given, ok_bind]
        rw [dimension, ← long, fit_self]
      · rw [userPart, change]
        exact same ▸ back

theorem valueMeaning_of_readPoint : ∃ x, r.readPoint m = .ok x ∧ x.length = r.scalars ∧
    r.valueMeaning m none = r.valueMeaning m (some x) := by
  obtain ⟨x, read⟩ := readPoint_of_parts fun v member free =>
    (userPart_of_read wf lengths restores member free).imp fun part given => given.1
  obtain ⟨size, parts⟩ := run_readPoint wf read
  refine ⟨x, read, size, valueMeaning_of_pointLocals size (mapM_congr (List.forall₂_same.2 fun v member => ?_))⟩
  cases constant : v.isConstant with
  | true => rw [localValue_of_constant constant]
  | false =>
      obtain ⟨part, given, back⟩ := userPart_of_read wf lengths restores member constant
      have here := back x (Except.ok.inj ((parts v member constant).symm.trans given))
      rw [localValue_of_free constant, writtenValue, here, storedValue]
      rfl

end

end Registry

namespace Objective

variable [Scalar α] {f : Objective α} {m : Memory α}

/-- A point that is written evaluates to what the arrays then do, and a point that can not be written fails
the evaluation too; what is read from the arrays evaluates to what they do. -/
theorem Reachable.storage_and_point (reached : Reachable f) :
    (f.StoredIn m → f.Separate m → ∀ x : List α, x.length = f.scalars → ∀ result m',
      StateT.run (ExceptT.run (f.writePoint x)) m = (result, m') →
        (∀ v ∈ f.vars, v.isConstant = true → m'.load v.storage = m.load v.storage) ∧
        (result = .ok () →
          ((f.ask m (.value (some x))).2.ask m' (.value none)).1 = (f.ask m (.value (some x))).1 ∧
          ((∀ v ∈ f.vars, v.isConstant = false → v.change = none) → f.readPoint m' = .ok x)) ∧
        ∀ fault, result = .error fault → (f.ask m (.value (some x))).1 = .error fault) ∧
    ((∀ v ∈ f.vars, (m.load v.storage).length = v.userDimension) →
      (∀ v ∈ f.vars, v.isConstant = false → ∀ c, v.change = some c → c.Restores (m.load v.storage)) →
      ∃ x, f.readPoint m = .ok x ∧ x.length = f.scalars ∧
        (f.ask m (.value none)).1 = (f.ask m (.value (some x))).1) ∧
    ∀ x : List α, x.length ≠ f.scalars →
      StateT.run (ExceptT.run (f.writePoint x)) m = (.error (.pointSize x.length f.scalars), m) := by
  have wf := reached.wellFormed
  refine ⟨fun stored separate x size result m' ran => ?written, fun lengths restores => ?read,
    fun x size => Registry.run_writePoint_size size⟩
  case written =>
    have lengths : ∀ v ∈ f.vars, (m.load v.storage).length = v.userDimension := fun v member =>
      separate.length_load stored member
    refine ⟨fun v member constant => ?_, fun ok => ⟨?_, fun unchanged => ?_⟩, fun fault failed => ?_⟩
    · have kept := Registry.load_constant_writePoint lengths wf separate size v member constant
      rwa [ran] at kept
    · subst ok
      have asked : Reachable (f.ask m (.value (some x))).2 := .step reached (.ask m _)
      rw [asked.ask_eq, reached.ask_eq]
      exact congrArg (Answer.number <$> ·)
        ((Registry.run_writePoint wf separate ran).valueMeaning_eq wf lengths size)
    · subst ok
      exact Registry.readPoint_written wf separate stored unchanged size ran
    · have unseen := Registry.fault?_writePoint (x := x) lengths size
      rw [ran, failed, eq_comm, show fault? (.error fault : Except (Fault α) Unit) = some fault from rfl,
        fault?_eq_some] at unseen
      rw [reached.ask_eq, Query.meaning, Registry.valueMeaning_some size, unseen]
      rfl
  case read =>
    obtain ⟨x, read, size, same⟩ := Registry.valueMeaning_of_readPoint wf lengths restores
    refine ⟨x, read, size, ?_⟩
    rw [reached.ask_eq, reached.ask_eq, Query.meaning, Query.meaning, same]

def threeNumbers : Memory ℚ where
  objects := [.array .double [1] 0 0, .array .double [1] 1 0, .array .double [1] 2 0]
  blocks := [[3], [4], [5]]

def splitProduct : Objective ℚ :=
  let apply (f : Objective ℚ) (c : Mutation ℚ) := (c.edit.run threeNumbers f).2
  [.addVariable ⟨0⟩ 1 (some Sample.splitChange),
    .addTerm (.term (Sample.polynomial [1, 1, 1] [(1, [(0, 0), (1, 0), (2, 0)])])) [⟨0⟩, ⟨1⟩, ⟨2⟩],
    .setConstant ⟨1⟩ true].foldl apply (ofThreads 2)

theorem reachable_splitProduct : Reachable splitProduct :=
  .step (.step (.step (.new (show new? 2 = .ok (ofThreads 2) from rfl))
    (.mutate (c := .addVariable ⟨0⟩ 1 (some Sample.splitChange)) Nat.two_pos threeNumbers))
    (.mutate (c := .addTerm (.term _) _) trivial threeNumbers))
    (.mutate (c := .setConstant ⟨1⟩ true) trivial threeNumbers)

def afterPoint : Memory ℚ := { threeNumbers with blocks := [[1 + 2], [4], [7]] }

theorem splitProduct_transfers :
    StateT.run (ExceptT.run (splitProduct.writePoint [1, 2, 7])) threeNumbers = (.ok (), afterPoint) ∧
      ((splitProduct.ask threeNumbers (.value (some [1, 2, 7]))).2.ask afterPoint (.value none)).1 =
        (splitProduct.ask threeNumbers (.value (some [1, 2, 7]))).1 ∧
      afterPoint.load ⟨1⟩ = threeNumbers.load ⟨1⟩ ∧
      (∃ x, splitProduct.readPoint threeNumbers = .ok x ∧ x.length = 3 ∧
        (splitProduct.ask threeNumbers (.value none)).1 =
          (splitProduct.ask threeNumbers (.value (some x))).1) ∧
      StateT.run (ExceptT.run (splitProduct.writePoint [1, 2])) threeNumbers =
        (.error (.pointSize 2 3), threeNumbers) := by
  have vars : splitProduct.vars = [⟨⟨0⟩, 1, 2, 0, false, some Sample.splitChange⟩,
    ⟨⟨1⟩, 1, 1, 3, true, none⟩, ⟨⟨2⟩, 1, 1, 2, false, none⟩] := rfl
  have each {P : Variable ℚ → Prop} : (∀ v ∈ splitProduct.vars, P v) ↔
      P ⟨⟨0⟩, 1, 2, 0, false, some Sample.splitChange⟩ ∧ P ⟨⟨1⟩, 1, 1, 3, true, none⟩ ∧
        P ⟨⟨2⟩, 1, 1, 2, false, none⟩ := by
    rw [vars, List.forall_mem_cons, List.forall_mem_cons, List.forall_mem_singleton]
  have stored : splitProduct.StoredIn threeNumbers := each.2 ⟨⟨0, 0, rfl⟩, ⟨1, 0, rfl⟩, ⟨2, 0, rfl⟩⟩
  have spans : ∀ v ∈ splitProduct.vars, threeNumbers.Spans v.storage ⟨v.storage.id, 0, 1⟩ :=
    each.2 ⟨⟨rfl, _, rfl, Nat.le_refl 1⟩, ⟨rfl, _, rfl, Nat.le_refl 1⟩, ⟨rfl, _, rfl, Nat.le_refl 1⟩⟩
  have separate : splitProduct.Separate threeNumbers := by
    refine ⟨fun v member => ⟨_, spans v member⟩, fun v member _ w other differs a b at_v at_w => ?_⟩
    rw [at_v.unique (spans v member), at_w.unique (spans w other)]
    exact .inl fun same => differs (congrArg Handle.mk same.symm)
  obtain ⟨written, read, unfit⟩ := Reachable.storage_and_point reachable_splitProduct (m := threeNumbers)
  obtain ⟨constants, transferred, -⟩ := written stored separate [1, 2, 7] rfl _ afterPoint rfl
  have halves : Sample.splitChange.Restores (threeNumbers.load ⟨0⟩) := by
    have sum : (3 : ℚ) / 2 + 3 / 2 = 3 := by norm_num
    exact ⟨[3 / 2, 3 / 2], rfl, rfl, congrArg (fun a => Except.ok [a]) sum⟩
  refine ⟨rfl, (transferred rfl).1, (each.1 constants).2.1 rfl, read (each.2 ⟨rfl, rfl, rfl⟩) ?_,
    unfit [1, 2] (by decide)⟩
  refine each.2 ⟨fun _ c change => ?_, fun _ c change => ?_, fun _ c change => ?_⟩
  · cases change
    exact halves
  · cases change
  · cases change

end Objective

end Descent
