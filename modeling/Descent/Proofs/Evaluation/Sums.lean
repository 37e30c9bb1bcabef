import Descent.Proofs.Evaluation.Caches
import Descent.Proofs.Exact

namespace Descent

variable {α : Type}

section

variable {β : Type} {offset : Nat} {values : List β} {s : Nat}

def entryAt {β : Type} (offset : Nat) (values : List β) (s : Nat) : Option β :=
  if offset ≤ s then values[s - offset]? else none

theorem entryAt_eq_none (beyond : offset ≤ s → values.length ≤ s - offset) : entryAt offset values s = none := by
  rw [entryAt]
  split
  case isTrue above => exact List.getElem?_eq_none (beyond above)
  case isFalse => rfl

theorem mem_of_entryAt {b : β} (found : entryAt offset values s = some b) : b ∈ values := by
  rw [entryAt, Option.ite_none_right_eq_some] at found
  exact List.mem_of_getElem? found.2

end

namespace Registry

theorem getElem?_addAt [Scalar α] (offset : Nat) (values entries : List α) (s : Nat) :
    (addAt offset values entries)[s]? =
      entries[s]?.map fun e => (entryAt offset values s).elim e (e + ·) := by
  induction entries generalizing offset values s with
  | nil => cases offset <;> cases values <;> rfl
  | cons e rest ih =>
      cases offset with
      | zero =>
          cases values with
          | nil => simp [addAt, entryAt]
          | cons first values =>
              cases s with
              | zero => simp [addAt, entryAt]
              | succ s => simpa [addAt, entryAt] using ih 0 values s
      | succ offset =>
          cases s with
          | zero => simp [addAt, entryAt]
          | succ s => simpa [addAt, entryAt] using ih offset values s

/-- What the terms report at a point where neither a term nor a change of variables fails. -/
structure Report [Scalar α] (r : Registry α) (m : Memory α) (x : List α) (request : Request) where
  point : Variable α → List α
  value : Binding α → α
  derivatives : Binding α → Derivatives α
  carry : Variable α → List α → List α
  seen : ∀ v ∈ r.vars, localValue m x v = .ok (point v)
  evaluated : ∀ b ∈ r.terms, (b.term.evaluate request ((r.arguments b).map point)).run .zero =
    (.ok (value b), derivatives b)
  carried : request ≠ .value → ∀ b ∈ r.terms, ∀ part ∈ r.reported b (derivatives b),
    part.1.isConstant = false → solverGradient x part.1 part.2 = .ok (carry part.1 part.2)

theorem length_of_solverGradient [Scalar α] {v : Variable α} (fits : v.Fits)
    {x part values : List α} (size : part.length = v.userDimension)
    (carried : solverGradient x v part = .ok values) : values.length = v.solverDimension := by
  unfold solverGradient at carried
  cases change : v.change with
  | none =>
      rw [change] at carried
      cases carried
      rw [size, fits.unchanged change]
  | some c =>
      rw [change] at carried
      obtain ⟨pulled, -, filled⟩ := bind_eq_ok.1 carried
      exact length_of_fit filled

def offsetPart [Zero α] (offset : Nat) (values : List α) (s : Nat) : α :=
  if offset ≤ s then values.getD (s - offset) 0 else 0

variable [ExactSums α] {r : Registry α} {m : Memory α} {x : List α} {request : Request}

namespace Report

variable (report : Report r m x request)

def total : α := r.constant + (r.terms.map report.value).sum

def component (b : Binding α) (s : Nat) : α :=
  ((r.reported b (report.derivatives b)).map fun (v, part) =>
    if v.isConstant then 0 else offsetPart v.globalIndex (report.carry v part) s).sum

def slope (i : Nat) (v : Variable α) (c : Nat) : α :=
  (r.terms.map fun b => (b.positions.mapIdx fun k j => if j = i then
    (report.carry v ((List.range v.userDimension).map ((report.derivatives b).gradient k))).getD c 0
    else 0).sum).sum

def gradient : Vector α r.scalars :=
  Vector.ofFn fun s => (r.terms.map fun b => report.component b s.val).sum

end Report

theorem sum_chunks (r : Registry α) (f : Binding α → α) :
    (r.chunks.map fun chunk => ((slice r.terms chunk).map f).sum).sum = (r.terms.map f).sum := by
  rw [← sum_flatMap, flatMap_chunks]

theorem totalValue_eq (r : Registry α) (values : List α) :
    r.totalValue values = r.constant + values.sum := by
  have sum : values.foldl (· + ·) r.constant = r.constant + (values.map id).sum :=
    read_foldl id (fun _ _ => rfl) values r.constant
  rw [totalValue, sum, List.map_id]

namespace Report

variable (report : Report r m x request)

theorem pointLocals_eq : r.pointLocals m (some x) = .ok (r.vars.map report.point) :=
  mapM_eq_ok report.seen

theorem jet_eq {b : Binding α} (member : b ∈ r.terms) :
    jet request (r.vars.map report.point) b = (.ok (report.value b), report.derivatives b) := by
  have arguments : Registry.seen (r.vars.map report.point) b.positions =
      (r.arguments b).map report.point := by
    simp [Registry.seen, Registry.arguments, List.map_filterMap]
  rw [jet, arguments, report.evaluated b member]

end Report

theorem chunkTotal_eq (report : Report r m x .value) {bs : List (Binding α)}
    (members : ∀ b ∈ bs, b ∈ r.terms) :
    chunkTotal (r.vars.map report.point) bs = .ok (bs.map report.value).sum := by
  suffices general : ∀ start, bs.foldlM (fun total b => do
      return total + (← (jet .value (r.vars.map report.point) b).1)) start =
        (.ok (start + (bs.map report.value).sum) : Except (Fault α) α) by
    rw [chunkTotal, general, zero_add]
  induction bs with
  | nil => intro start; simp; rfl
  | cons b rest ih =>
      intro start
      rw [List.foldlM_cons, report.jet_eq (members b List.mem_cons_self)]
      refine (ih (fun c member => members c (List.mem_cons_of_mem _ member)) _).trans ?_
      rw [List.map_cons, List.sum_cons, add_assoc]

theorem valueMeaning_eq (report : Report r m x .value) (size : x.length = r.scalars) :
    r.valueMeaning m (some x) = .ok report.total := by
  have sums : (r.chunks.mapM fun chunk =>
      chunkTotal (r.vars.map report.point) (slice r.terms chunk)) =
        .ok (r.chunks.map fun chunk => ((slice r.terms chunk).map report.value).sum) :=
    mapM_eq_ok fun chunk _ => chunkTotal_eq report fun _ => mem_of_mem_slice
  have checked : r.checkPoint x = .ok () := by simp [checkPoint, size]
  rw [valueMeaning]
  simp only [checked, ok_bind, report.pointLocals_eq, sums, map_ok, totalValue_eq, sum_chunks]
  rfl

theorem getD_addAt (offset : Nat) (values : List α) {entries : List α} {s : Nat}
    (inside : s < entries.length) :
    (addAt offset values entries).getD s 0 = entries.getD s 0 + offsetPart offset values s := by
  have part : offsetPart offset values s = (entryAt offset values s).getD 0 := by
    rw [offsetPart, entryAt, List.getD_eq_getElem?_getD]
    split <;> rfl
  rw [part, List.getD_eq_getElem?_getD, List.getD_eq_getElem?_getD, getElem?_addAt, List.getElem?_eq_getElem inside]
  cases entryAt offset values s <;> simp

theorem addGradients_eq {carry : Variable α → List α → List α} {parts : List (Variable α × List α)}
    (carried : ∀ part ∈ parts, part.1.isConstant = false →
      solverGradient x part.1 part.2 = .ok (carry part.1 part.2)) (gradient : List α) :
    (addGradients x parts gradient).1 = .ok () ∧ ∀ s < gradient.length,
      (addGradients x parts gradient).2.getD s 0 = gradient.getD s 0 + (parts.map fun (v, part) =>
        if v.isConstant then 0 else offsetPart v.globalIndex (carry v part) s).sum := by
  induction parts generalizing gradient with
  | nil => exact ⟨rfl, fun s _ => by simp [addGradients]⟩
  | cons part rest ih =>
      obtain ⟨v, part⟩ := part
      have others := ih fun p member => carried p (List.mem_cons_of_mem _ member)
      cases constant : v.isConstant with
      | true => simpa [addGradients, constant] using others gradient
      | false =>
          have here := carried (v, part) List.mem_cons_self constant
          obtain ⟨added, entries⟩ := others (addAt v.globalIndex (carry v part) gradient)
          rw [length_addAt] at entries
          simp only [addGradients, constant, Bool.false_eq_true, ↓reduceIte, here]
          refine ⟨added, fun s inside => ?_⟩
          rw [entries s inside, getD_addAt _ _ inside, List.map_cons, List.sum_cons, constant]
          simp only [Bool.false_eq_true, ↓reduceIte, add_assoc]

theorem chunkSum_eq (report : Report r m x request) (derived : request ≠ .value)
    {bs : List (Binding α)} (members : ∀ b ∈ bs, b ∈ r.terms) (total : α) (gradient : List α) :
    (r.chunkSum request (r.vars.map report.point) x bs total gradient).1 =
        .ok (total + (bs.map report.value).sum) ∧
      ∀ s < gradient.length,
        (r.chunkSum request (r.vars.map report.point) x bs total gradient).2.getD s 0 =
          gradient.getD s 0 + (bs.map fun b => report.component b s).sum := by
  induction bs generalizing total gradient with
  | nil => exact ⟨by simp [chunkSum], fun s _ => by simp [chunkSum]⟩
  | cons b rest ih =>
      have member := members b List.mem_cons_self
      obtain ⟨added, entries⟩ := addGradients_eq (report.carried derived b member) gradient
      have others := ih fun c later => members c (List.mem_cons_of_mem _ later)
      obtain ⟨value, entries'⟩ := others (total + report.value b)
        (addGradients x (r.reported b (report.derivatives b)) gradient).2
      rw [length_addGradients] at entries'
      have here : r.termSum request (r.vars.map report.point) x b gradient =
          (.ok (report.value b),
            (addGradients x (r.reported b (report.derivatives b)) gradient).2) := by
        simp only [termSum, report.jet_eq member, added]
        rfl
      simp only [chunkSum, here, value, List.map_cons, List.sum_cons, add_assoc, true_and]
      intro s inside
      rw [entries' s inside, entries s inside, add_assoc]
      rfl

theorem workerSum_eq (report : Report r m x request) (derived : request ≠ .value)
    (chunk : Nat × Nat) :
    (r.workerSum request (r.vars.map report.point) x chunk).1 =
        .ok ((slice r.terms chunk).map report.value).sum ∧
      ∀ s < r.scalars, (r.workerSum request (r.vars.map report.point) x chunk).2.getD s 0 =
        ((slice r.terms chunk).map fun b => report.component b s).sum := by
  obtain ⟨value, entries⟩ := chunkSum_eq report derived (fun _ => mem_of_mem_slice) 0
    (Buffer.zeros (r.scalars + r.constants))
  refine ⟨by rw [workerSum, value, zero_add], fun s inside => ?_⟩
  have room : s < (Buffer.zeros (r.scalars + r.constants) : List α).length := by
    rw [Buffer.zeros, List.length_replicate]
    omega
  have zero : (Buffer.zeros (r.scalars + r.constants) : List α).getD s 0 = 0 := by
    rw [Buffer.zeros, List.getD_eq_getElem?_getD, List.getElem?_replicate]
    split <;> rfl
  rw [workerSum, entries s room, zero, zero_add]

theorem totalValue_workerSums (report : Report r m x request) (derived : request ≠ .value) :
    r.totalValue <$> ((r.workerSums request (r.vars.map report.point) x).map (·.1)).mapM id =
      (.ok report.total : Except (Fault α) α) := by
  have sums : ((r.workerSums request (r.vars.map report.point) x).map (·.1)).mapM id =
      .ok (r.chunks.map fun chunk => ((slice r.terms chunk).map report.value).sum) := by
    rw [workerSums, List.map_map, List.mapM_map]
    exact mapM_eq_ok fun chunk _ => (workerSum_eq report derived chunk).1
  rw [sums, map_ok, totalValue_eq, sum_chunks]
  rfl

theorem totalGradient_workerSums (report : Report r m x request) (derived : request ≠ .value) :
    r.totalGradient ((r.workerSums request (r.vars.map report.point) x).map (·.2)) =
      report.gradient := by
  rw [totalGradient, Report.gradient]
  congr 1
  funext s
  have added (gradients : List (List α)) :
      gradients.foldl (fun sum gradient => sum + gradient.getD s.val 0) 0 =
        0 + (gradients.map fun gradient => gradient.getD s.val 0).sum :=
    read_foldl id (fun _ _ => rfl) gradients 0
  rw [added, zero_add, workerSums, List.map_map, List.map_map, ← sum_chunks]
  congr 2
  funext chunk
  exact (workerSum_eq report derived chunk).2 s.val s.isLt

theorem gradientMeaning_eq (report : Report r m x .gradient) (size : x.length = r.scalars) :
    r.gradientMeaning m x = .ok (report.total, report.gradient) := by
  have checked : r.checkPoint x = .ok () := by simp [checkPoint, size]
  have derived : Request.gradient ≠ .value := by decide
  rw [gradientMeaning]
  simp only [checked, ok_bind, report.pointLocals_eq, totalValue_workerSums report derived,
    totalGradient_workerSums report derived]
  rfl

theorem sum_component_eq (wf : r.WellFormed) (report : Report r m x request)
    (derived : request ≠ .value) {i : Nat} {v : Variable α} (at_i : r.vars[i]? = some v)
    (free : v.isConstant = false) {c : Nat} (inside : c < v.solverDimension) :
    (r.terms.map fun b => report.component b (v.globalIndex + c)).sum = report.slope i v c := by
  rw [Report.slope]
  congr 1
  apply List.map_congr_left
  intro b member
  rw [Report.component]
  congr 1
  apply List.ext_getElem?
  intro k
  rw [List.getElem?_map, reported, List.getElem?_mapIdx, List.getElem?_mapIdx,
    (wf.terms b member).getElem?_arguments]
  cases found : b.positions[k]? with
  | none => rfl
  | some j =>
      obtain ⟨w, at_j, -⟩ := (wf.terms b member).registered found
      simp only [Option.bind_some, at_j, Option.map_some, Option.some.injEq]
      by_cases same : j = i
      · subst same
        cases at_i.symm.trans at_j
        simp [free, offsetPart]
      · rw [if_neg same]
        cases free' : w.isConstant with
        | true => simp
        | false =>
            have argument : (r.arguments b)[k]? = some w := by
              rw [(wf.terms b member).getElem?_arguments, found, Option.bind_some, at_j]
            have carried := report.carried derived b member _ (mem_reported argument _) free'
            have size := length_of_solverGradient (wf.vars w (List.mem_of_getElem? at_j))
              (by simp) carried
            simp only [Bool.false_eq_true, ↓reduceIte, offsetPart]
            -- the slice of another variable does not reach this scalar
            split
            · have := wf.apart at_i at_j free free' (Ne.symm same)
              simp only at size
              rw [List.getD_eq_getElem?_getD, List.getElem?_eq_none (by omega), Option.getD_none]
            · rfl

theorem getElem?_gradient (wf : r.WellFormed) (report : Report r m x request)
    (derived : request ≠ .value) {i : Nat} {v : Variable α} (at_i : r.vars[i]? = some v)
    (free : v.isConstant = false) {c : Nat} (inside : c < v.solverDimension) :
    report.gradient[v.globalIndex + c]? = some (report.slope i v c) := by
  have last := wf.tiles_free.le_stop
    (List.mem_filter.2 ⟨List.mem_of_getElem? at_i, by simp [free]⟩)
  rw [Vector.getElem?_eq_getElem (by omega), Report.gradient, Vector.getElem_ofFn,
    sum_component_eq wf report derived at_i free inside]

end Registry

end Descent
