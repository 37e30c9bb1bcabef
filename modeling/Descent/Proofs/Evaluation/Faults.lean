import Mathlib
import Descent.Proofs.Evaluation.Hessians

namespace Descent

variable {α : Type}

/-! ## The first fault of several computations -/

section

variable {ε β γ : Type}

def fault? : Except ε β → Option ε
  | .error fault => some fault
  | .ok _ => none

theorem fault?_eq_some {result : Except ε β} {fault : ε} :
    fault? result = some fault ↔ result = .error fault := by
  cases result with
  | error other => simp [fault?]
  | ok b => exact ⟨nofun, nofun⟩

theorem fault?_eq_none {result : Except ε β} : fault? result = none ↔ ∃ b, result = .ok b := by
  cases result with
  | error fault => exact ⟨nofun, nofun⟩
  | ok b => simp [fault?]

theorem fault?_map (f : β → γ) (result : Except ε β) : fault? (f <$> result) = fault? result := by
  cases result <;> rfl

theorem fault?_bind {next : β → Except ε γ} (succeeds : ∀ b, ∃ c, next b = .ok c)
    (result : Except ε β) : fault? (result >>= next) = fault? result := by
  cases result with
  | error fault => rfl
  | ok b => exact fault?_eq_none.2 (succeeds b)

theorem fault?_mapM (f : β → Except ε γ) (l : List β) :
    fault? (l.mapM f) = l.findSome? fun b => fault? (f b) := by
  induction l with
  | nil => rfl
  | cons b rest ih =>
      rw [List.mapM_cons, List.findSome?_cons, ← ih]
      cases f b with
      | error fault => rfl
      | ok c => exact fault?_bind (fun others => ⟨c :: others, rfl⟩) _

theorem findSome?_flatMap (p : γ → Option ε) (f : β → List γ) (l : List β) :
    (l.flatMap f).findSome? p = l.findSome? fun b => (f b).findSome? p := by
  induction l with
  | nil => rfl
  | cons b rest ih =>
      rw [List.flatMap_cons, List.findSome?_append, ih, List.findSome?_cons]
      cases (f b).findSome? p <;> rfl

end

/-! ## Bindings -/

namespace Registry

section

variable [Scalar α] (r : Registry α) (request : Request) (locals : List (List α)) (x : List α)

def pullFault? : Variable α × List α → Option (Fault α)
  | (v, part) => if v.isConstant then none else fault? (solverGradient x v part)

def bindingFault? (b : Binding α) : Option (Fault α) :=
  match jet request locals b with
  | (.error fault, _) => some fault
  | (.ok _, filled) =>
      if request = .value then none else (r.reported b filled).findSome? (pullFault? x)

/-- How the evaluation of a binding fails: in its term or, where the gradient is asked for, in the change of
a free variable, the first of the arguments with one that fails. -/
inductive Fails (b : Binding α) (fault : Fault α) : Prop
  | term (failed : (jet request locals b).1 = .error fault)
  | change {value : α} {filled : Derivatives α} {before after : List (Variable α × List α)}
      {v : Variable α} {part : List α} (evaluated : jet request locals b = (.ok value, filled))
      (asked : request ≠ .value) (split : r.reported b filled = before ++ (v, part) :: after)
      (free : v.isConstant = false) (failed : solverGradient x v part = .error fault)
      (first : ∀ p ∈ before, p.1.isConstant = false →
        ∃ values, solverGradient x p.1 p.2 = .ok values)

variable {r request locals x}

omit [Scalar α] in
theorem pullFault?_eq_some {v : Variable α} {part : List α} {fault : Fault α} :
    pullFault? x (v, part) = some fault ↔
      v.isConstant = false ∧ solverGradient x v part = .error fault := by
  simp only [pullFault?]
  cases v.isConstant <;> simp [fault?_eq_some]

omit [Scalar α] in
theorem pullFault?_eq_none {p : Variable α × List α} :
    pullFault? x p = none ↔
      (p.1.isConstant = false → ∃ values, solverGradient x p.1 p.2 = .ok values) := by
  simp only [pullFault?]
  cases p.1.isConstant <;> simp [fault?_eq_none]

theorem bindingFault?_eq_some {b : Binding α} {fault : Fault α} :
    r.bindingFault? request locals x b = some fault ↔ r.Fails request locals x b fault := by
  rw [bindingFault?]
  constructor
  · intro found
    rcases evaluated : jet request locals b with ⟨other | value, filled⟩ <;>
      simp only [evaluated] at found
    · cases found
      exact .term (by rw [evaluated])
    · split at found
      · cases found
      · rename_i asked
        obtain ⟨before, ⟨v, part⟩, after, split, failed, first⟩ :=
          List.findSome?_eq_some_iff.1 found
        obtain ⟨free, failed⟩ := pullFault?_eq_some.1 failed
        exact .change evaluated asked split free failed fun p member =>
          pullFault?_eq_none.1 (first p member)
  · rintro (failed | ⟨evaluated, asked, split, free, failed, first⟩)
    · rcases evaluated : jet request locals b with ⟨other | value, filled⟩ <;> rw [evaluated] at failed
      · cases failed
        rfl
      · cases failed
    · simp only [evaluated, if_neg asked, split]
      exact List.findSome?_eq_some_iff.2 ⟨_, _, _, rfl, pullFault?_eq_some.2 ⟨free, failed⟩,
        fun p member => pullFault?_eq_none.2 (first p member)⟩

theorem bindingFault?_eq_none {b : Binding α} :
    r.bindingFault? request locals x b = none ↔ ∀ fault, ¬r.Fails request locals x b fault := by
  rw [Option.eq_none_iff_forall_ne_some]
  exact forall_congr' fun fault => not_congr bindingFault?_eq_some

theorem fault?_chunkTotal (bs : List (Binding α)) :
    fault? (chunkTotal locals bs) = bs.findSome? (r.bindingFault? .value locals x) := by
  have value (b : Binding α) : r.bindingFault? .value locals x b = fault? (jet .value locals b).1 := by
    rw [bindingFault?]
    rcases jet .value locals b with ⟨fault | a, filled⟩ <;> rfl
  unfold chunkTotal
  generalize (0 : α) = start
  induction bs generalizing start with
  | nil => rfl
  | cons b rest ih =>
      rw [List.foldlM_cons, List.findSome?_cons, value]
      cases (jet .value locals b).1 with
      | error fault => rfl
      | ok a => exact ih (start + a)

theorem fault?_addGradients (parts : List (Variable α × List α)) (gradient : List α) :
    fault? (addGradients x parts gradient).1 = parts.findSome? (pullFault? x) := by
  induction parts generalizing gradient with
  | nil => rfl
  | cons part rest ih =>
      obtain ⟨v, part⟩ := part
      rw [addGradients, List.findSome?_cons, pullFault?]
      cases v.isConstant with
      | true => exact ih gradient
      | false =>
          simp only [Bool.false_eq_true, ↓reduceIte]
          cases solverGradient x v part with
          | error fault => rfl
          | ok values => exact ih _

theorem fault?_chunkSum (derived : request ≠ .value) (bs : List (Binding α)) (total : α)
    (gradient : List α) : fault? (r.chunkSum request locals x bs total gradient).1 =
      bs.findSome? (r.bindingFault? request locals x) := by
  have term (b : Binding α) (gradient : List α) :
      fault? (r.termSum request locals x b gradient).1 = r.bindingFault? request locals x b := by
    rw [termSum, bindingFault?]
    rcases jet request locals b with ⟨fault | value, filled⟩
    · rfl
    · simp only [if_neg derived]
      rw [← fault?_addGradients (r.reported b filled) gradient]
      exact fault?_map (fun _ => value) (addGradients x (r.reported b filled) gradient).1
  induction bs generalizing total gradient with
  | nil => rfl
  | cons b rest ih =>
      rw [chunkSum, List.findSome?_cons, ← term b gradient]
      rcases r.termSum request locals x b gradient with ⟨fault | value, g⟩
      · rfl
      · exact ih (total + value) g

omit [Scalar α] in
theorem findSome?_chunks {β : Type} (p : Binding α → Option β) :
    (r.chunks.findSome? fun chunk => (slice r.terms chunk).findSome? p) = r.terms.findSome? p := by
  rw [← findSome?_flatMap, flatMap_chunks]

theorem fault?_workerSums (derived : request ≠ .value) :
    fault? (((r.workerSums request locals x).map (·.1)).mapM id) =
      r.terms.findSome? (r.bindingFault? request locals x) := by
  rw [fault?_mapM, workerSums, List.map_map, List.findSome?_map, ← findSome?_chunks]
  congr 1
  funext chunk
  exact fault?_chunkSum derived (slice r.terms chunk) 0 _

end

end Registry

/-! ## Evaluations -/

/-- An evaluation of the terms whose checks are passed, and what the terms see there. Where there is no point,
no gradient is pulled back. -/
inductive Query.Ready [Scalar α] (r : Registry α) (m : Memory α) :
    Query α → Request → (locals : List (List α)) → (x : List α) → Prop
  | stored {locals : List (List α)} (seen : r.pointLocals m none = .ok locals) :
      Ready r m (.value none) .value locals []
  | value {locals : List (List α)} {x : List α} (checked : r.checkPoint x = .ok ())
      (seen : r.pointLocals m (some x) = .ok locals) : Ready r m (.value (some x)) .value locals x
  | gradient {locals : List (List α)} {x : List α} (checked : r.checkPoint x = .ok ())
      (seen : r.pointLocals m (some x) = .ok locals) : Ready r m (.gradient x) .gradient locals x
  | hessian {locals : List (List α)} {x : List α} (able : r.checkHessian = .ok ())
      (checked : r.checkPoint x = .ok ()) (seen : r.pointLocals m (some x) = .ok locals)
      (sparse : Bool) : Ready r m (.hessian x sparse) .hessian locals x

structure Workspace.Counted (request : Request) (w w' : Workspace α) : Prop where
  withoutGradient : w'.evaluationsWithoutGradient =
    w.evaluationsWithoutGradient + if request = .value then 1 else 0
  withGradient : w'.evaluationsWithGradient =
    w.evaluationsWithGradient + if request = .value then 0 else 1

section

variable [Scalar α] {r : Registry α} {m : Memory α} {q : Query α} {request : Request}
  {locals : List (List α)} {x : List α} {w : Workspace α}

theorem Query.fault?_meaning (wf : r.WellFormed) (ready : q.Ready r m request locals x) :
    fault? (q.meaning r m) = r.terms.findSome? (r.bindingFault? request locals x) := by
  have values : fault? (r.totalValue <$> r.chunks.mapM fun chunk =>
      Registry.chunkTotal locals (Registry.slice r.terms chunk)) =
        r.terms.findSome? (r.bindingFault? .value locals x) := by
    rw [fault?_map, fault?_mapM, ← Registry.findSome?_chunks]
    simp only [Registry.fault?_chunkTotal (r := r) (x := x)]
  have derivatives (derived : request ≠ .value) : fault? (r.totalValue <$>
      ((r.workerSums request locals x).map (·.1)).mapM id) =
        r.terms.findSome? (r.bindingFault? request locals x) := by
    rw [fault?_map, Registry.fault?_workerSums derived]
  cases ready with
  | stored seen =>
      rw [Query.meaning, fault?_map, Registry.valueMeaning, ← values]
      simp only [seen, ok_bind]
  | value checked seen =>
      rw [Query.meaning, fault?_map, Registry.valueMeaning, ← values]
      simp only [checked, seen, ok_bind]
  | gradient checked seen =>
      rw [Query.meaning, fault?_map, Registry.gradientMeaning, ← derivatives (by decide)]
      simp only [checked, seen, ok_bind]
      exact fault?_bind (fun value => ⟨_, rfl⟩) _
  | hessian able checked seen sparse =>
      rw [Query.meaning, fault?_map, Registry.hessianMeaning, ← derivatives (by decide)]
      simp only [able, checked, seen, ok_bind]
      refine fault?_bind (fun value => ?_) _
      cases sparse with
      | false => exact ⟨_, rfl⟩
      | true =>
          rw [if_pos rfl, Registry.sparseMatrix_eq (Registry.entryPositions_lt wf able)]
          exact ⟨_, rfl⟩

/-! ## Counts -/

namespace Registry

abbrev KeepsCounts {β : Type} (e : Evaluation α β) : Prop :=
  ∀ values gradients : Nat, Keeps (fun w =>
    w.evaluationsWithoutGradient = values ∧ w.evaluationsWithGradient = gradients) e

theorem keepsCounts_prepare (r : Registry α) : KeepsCounts r.prepare := by
  intro values gradients
  refine keeps_get.bind fun w => ?_
  cases w.storage with
  | some storage => exact keeps_pure _
  | none =>
      refine Keeps.bind (keeps_modify ?_) fun _ => keeps_pure _
      exact fun _ holds => holds

theorem keepsCounts_inStorage {β : Type} (r : Registry α)
    (work : LocalStorage α → Except (Fault α) β × LocalStorage α) :
    KeepsCounts (r.inStorage work) := by
  intro values gradients
  refine (keepsCounts_prepare r values gradients).bind fun storage => ?_
  refine Keeps.bind (keeps_modify ?_) fun _ => keeps_lift _
  exact fun _ holds => holds

omit [Scalar α] in
theorem keepsCounts_pattern (r : Registry α) : KeepsCounts r.pattern := by
  intro values gradients
  refine keeps_get.bind fun w => ?_
  cases w.pattern with
  | some pattern => exact keeps_pure _
  | none =>
      refine Keeps.bind (keeps_modify ?_) fun _ => keeps_pure _
      exact fun _ holds => holds

def count : Request → Evaluation α Unit
  | .value => countValue
  | .gradient | .hessian => countGradient

theorem counted_of_spread {β : Type} (coherent : w.Coherent r) {x : Option (List α)}
    (seen : r.pointLocals m x = .ok locals) (request : Request) {rest : Evaluation α β}
    (keeps : KeepsCounts rest) :
    w.Counted request ((do r.spread m x; count request; rest : Evaluation α β).run w).2 := by
  obtain ⟨w', spread, -, -⟩ := run_spread (m := m) coherent x
  have kept : w'.evaluationsWithoutGradient = w.evaluationsWithoutGradient ∧
      w'.evaluationsWithGradient = w.evaluationsWithGradient := by
    have kept : KeepsCounts (r.spread m x) := keepsCounts_inStorage r _
    have kept := kept _ _ w ⟨rfl, rfl⟩
    rwa [show StateT.run (ExceptT.run (r.spread m x)) w = _ from spread] at kept
  rw [Evaluation.run_bind, spread, seen, map_ok]
  cases request with
  | value =>
      obtain ⟨values, gradients⟩ := keeps (w'.evaluationsWithoutGradient + 1)
        w'.evaluationsWithGradient
        { w' with evaluationsWithoutGradient := w'.evaluationsWithoutGradient + 1 } ⟨rfl, rfl⟩
      exact ⟨values.trans (by rw [kept.1]; rfl), gradients.trans kept.2⟩
  | gradient | hessian =>
      obtain ⟨values, gradients⟩ := keeps w'.evaluationsWithoutGradient
        (w'.evaluationsWithGradient + 1)
        { w' with evaluationsWithGradient := w'.evaluationsWithGradient + 1 } ⟨rfl, rfl⟩
      exact ⟨values.trans kept.1, gradients.trans (by rw [kept.2]; rfl)⟩

theorem counted_value (coherent : w.Coherent r) {x : Option (List α)}
    (checked : ∀ y ∈ x, r.checkPoint y = .ok ()) (seen : r.pointLocals m x = .ok locals) :
    w.Counted .value ((r.value m x).run w).2 := by
  obtain ⟨s, w₁, prepared, holds⟩ := run_prepare coherent
  obtain ⟨values, gradients⟩ := keepsCounts_prepare r _ _ w ⟨rfl, rfl⟩
  rw [show StateT.run (ExceptT.run r.prepare) w = _ from prepared] at values gradients
  have run : (r.value m x).run w = (do r.spread m x; countValue; r.sumValues :
      Evaluation α α).run w₁ := by
    cases x with
    | none =>
        rw [value, Evaluation.run_bind, prepared]
    | some y =>
        rw [value, Evaluation.run_bind, prepared]
        simp only
        rw [Evaluation.run_bind, Evaluation.run_lift, checked y rfl]
  obtain ⟨counted, others⟩ :=
    counted_of_spread holds.coherent seen .value (keepsCounts_inStorage r _)
  rw [run]
  exact ⟨counted.trans (by rw [values]), others.trans (by rw [gradients])⟩

section

variable (coherent : w.Coherent r) (checked : r.checkPoint x = .ok ())
  (seen : r.pointLocals m (some x) = .ok locals)

include coherent checked seen

theorem counted_gradient : w.Counted .gradient ((r.gradient m x).run w).2 := by
  rw [gradient, Evaluation.run_bind, Evaluation.run_lift, checked]
  refine counted_of_spread coherent seen .gradient fun values gradients => ?_
  refine (keepsCounts_inStorage r _ values gradients).bind fun value => ?_
  exact (keepsCounts_prepare r values gradients).bind fun storage => keeps_pure _

theorem counted_hessian (able : r.checkHessian = .ok ()) (sparse : Bool) :
    w.Counted .hessian ((r.hessian m x sparse).run w).2 := by
  rw [hessian, Evaluation.run_bind, Evaluation.run_lift, able]
  simp only
  rw [Evaluation.run_bind, Evaluation.run_lift, checked]
  refine counted_of_spread coherent seen .hessian fun values gradients => ?_
  refine (keepsCounts_inStorage r _ values gradients).bind fun value => ?_
  refine (keepsCounts_prepare r values gradients).bind fun storage => ?_
  cases sparse with
  | false => exact keeps_pure _
  | true =>
      refine (keepsCounts_pattern r values gradients).bind fun positions => ?_
      exact (keeps_lift _).bind fun matrix => keeps_pure _

end

end Registry

open Registry in
theorem Query.counted (coherent : w.Coherent r) (ready : q.Ready r m request locals x) :
    w.Counted request ((q.evaluation r m).run w).2 := by
  have same {β γ : Type} (e : Evaluation α β) (wrap : β → γ) :
      ((do return wrap (← e) : Evaluation α γ).run w).2 = (e.run w).2 := by
    rw [Evaluation.run_bind]
    rcases e.run w with ⟨fault | b, w'⟩ <;> rfl
  cases ready with
  | stored seen =>
      rw [Query.evaluation, same]
      exact counted_value coherent (fun _ given => by cases given) seen
  | value checked seen =>
      rw [Query.evaluation, same]
      exact counted_value coherent (fun _ given => by cases given; exact checked) seen
  | gradient checked seen =>
      rw [Query.evaluation, same]
      exact counted_gradient coherent checked seen
  | hessian able checked seen sparse =>
      rw [Query.evaluation, same]
      exact counted_hessian coherent checked seen able sparse

end

namespace Objective

open Registry

variable [Scalar α] {f : Objective α}

theorem Reachable.fault?_ask (reached : Reachable f) {m : Memory α} {q : Query α} {request : Request}
    {locals : List (List α)} {x : List α} (ready : q.Ready f.toRegistry m request locals x) :
    fault? (f.ask m q).1 = f.terms.findSome? (f.bindingFault? request locals x) := by
  rw [reached.ask_eq, Query.fault?_meaning reached.wellFormed ready]

/-- An evaluation that is ready fails if and only if the evaluation of a binding does, with the fault of the
first such binding. Neither depends on the number of threads. The evaluation is counted in any case, and later
ones give what they would have given without it. -/
theorem Reachable.first_fault (reached : Reachable f) {m : Memory α} {q : Query α} {request : Request}
    {locals : List (List α)} {x : List α} (ready : q.Ready f.toRegistry m request locals x) :
    ((∃ fault, (f.ask m q).1 = .error fault) ↔
      ∃ b ∈ f.terms, ∃ fault, f.Fails request locals x b fault) ∧
    (∀ fault, (f.ask m q).1 = .error fault ↔ ∃ before b after, f.terms = before ++ b :: after ∧
      f.Fails request locals x b fault ∧
      ∀ c ∈ before, ∀ other, ¬f.Fails request locals x c other) ∧
    (∀ threads, 0 < threads → ∀ fault,
      ((f.withThreads threads).ask m q).1 = .error fault ↔ (f.ask m q).1 = .error fault) ∧
    f.workspace.Counted request (f.ask m q).2.workspace ∧
    ∀ (m' : Memory α) (q' : Query α), ((f.ask m q).2.ask m' q').1 = (f.ask m' q').1 := by
  have search := reached.fault?_ask ready
  refine ⟨?_, fun fault => ?_, fun threads positive fault => ?_, ?_, fun m' q' => ?_⟩
  · simp only [← fault?_eq_some, search, ← bindingFault?_eq_some]
    constructor
    · rintro ⟨fault, found⟩
      obtain ⟨before, b, after, split, failed, -⟩ := List.findSome?_eq_some_iff.1 found
      exact ⟨b, by simp [split], fault, failed⟩
    · rintro ⟨b, member, fault, failed⟩
      by_contra none
      have all := List.findSome?_eq_none_iff.1 (Option.eq_none_iff_forall_ne_some.2
        fun fault found => none ⟨fault, found⟩) b member
      rw [all] at failed
      cases failed
  · rw [← fault?_eq_some, search, List.findSome?_eq_some_iff]
    simp only [bindingFault?_eq_some, bindingFault?_eq_none]
  · have shared : q.Ready (f.withThreads threads).toRegistry m request locals x := by
      cases ready with
      | stored seen => exact .stored seen
      | value checked seen => exact .value checked seen
      | gradient checked seen => exact .gradient checked seen
      | hessian able checked seen sparse =>
          exact .hessian (r := (f.withThreads threads).toRegistry) able checked seen sparse
    rw [← fault?_eq_some, ← fault?_eq_some, search, (reached.withThreads positive).fault?_ask shared]
    rfl
  · exact Query.counted reached.coherent ready
  · rw [reached.ask_eq, Reachable.ask_eq (reached.step (.ask m q))]
    rfl

def oneNumber : Memory ℚ where
  objects := [.array .double [1] 0 0]
  blocks := [[0]]

def twoFaults : Objective ℚ :=
  [Sample.constant 1, Sample.failing "second", Sample.constant 2, Sample.failing "last"].foldl
    (fun f t => ((Mutation.addTerm (.term t) [⟨0⟩]).edit.run oneNumber f).2) (ofThreads 2)

theorem reachable_twoFaults : Reachable twoFaults :=
  .step (.step (.step (.step (.new (show new? 2 = .ok (ofThreads 2) from rfl))
    (.mutate (c := .addTerm (.term (Sample.constant 1)) _) trivial oneNumber))
    (.mutate (c := .addTerm (.term (Sample.failing "second")) _) trivial oneNumber))
    (.mutate (c := .addTerm (.term (Sample.constant 2)) _) trivial oneNumber))
    (.mutate (c := .addTerm (.term (Sample.failing "last")) _) trivial oneNumber)

set_option maxRecDepth 2000 in
theorem twoFaults_second :
    twoFaults.chunks = [(0, 2), (2, 4)] ∧
      (twoFaults.ask oneNumber (.gradient [3])).1 = .error (.reported "RuntimeError" "second") ∧
      ((twoFaults.withThreads 3).ask oneNumber (.gradient [3])).1 =
        .error (.reported "RuntimeError" "second") ∧
      (twoFaults.ask oneNumber (.gradient [3])).2.workspace.evaluationsWithGradient = 1 := by
  have scalars : twoFaults.scalars = 1 := by decide +kernel
  have vars : twoFaults.vars = [⟨⟨0⟩, 1, 1, 0, false, none⟩] := rfl
  have terms : twoFaults.terms = [⟨Sample.constant 1, [0]⟩, ⟨Sample.failing "second", [0]⟩,
    ⟨Sample.constant 2, [0]⟩, ⟨Sample.failing "last", [0]⟩] := rfl
  have ready : Query.Ready twoFaults.toRegistry oneNumber (.gradient [3]) .gradient [[3]] [3] := by
    refine .gradient ?_ ?_
    · simp [checkPoint, scalars]
    · rw [pointLocals, vars]
      rfl
  obtain ⟨-, first, shared, counted, -⟩ := Reachable.first_fault reachable_twoFaults ready
  have fails : (twoFaults.ask oneNumber (.gradient [3])).1 =
      .error (.reported "RuntimeError" "second") := by
    refine (first _).2 ⟨[⟨Sample.constant 1, [0]⟩], ⟨Sample.failing "second", [0]⟩, _, terms,
      .term rfl, List.forall_mem_singleton.2 (bindingFault?_eq_none.1 ?_)⟩
    simp only [bindingFault?, reported, arguments, vars]
    rfl
  exact ⟨by decide +kernel, fails, (shared 3 (by decide) _).2 fails, counted.withGradient⟩

end Objective

end Descent
