import Mathlib
import Descent.Proofs.Evaluation.Sums

namespace Descent.Registry

variable {α : Type} [Scalar α] {r : Registry α} {m : Memory α} {x : List α} {request : Request}

def outcome {β : Type} : Except (Fault α) (List β) → List β
  | .ok values => values
  | .error _ => []

omit [Scalar α] in
theorem mapM_ok_each {β γ : Type} {f : β → Except (Fault α) γ} {l : List β} {results : List γ}
    (all : l.mapM f = .ok results) {b : β} (member : b ∈ l) : ∃ c, f b = .ok c := by
  have each : (l.map f).mapM id = .ok results := by
    rw [List.mapM_map]
    exact all
  exact mapM_id_ok each (List.mem_map_of_mem member)

omit [Scalar α] in
theorem mapM_ok_outcome {β γ : Type} {f : β → Except (Fault α) (List γ)} {l : List β}
    {results : List (List γ)} (all : l.mapM f = .ok results) :
    results = l.map fun b => outcome (f b) := by
  have each := mapM_eq_ok (f := f) (g := fun b => outcome (f b)) (l := l) fun b member => by
    obtain ⟨c, here⟩ := mapM_ok_each all member
    rw [here, outcome]
  exact Except.ok.inj (all.symm.trans each)

theorem addGradients_ok {parts : List (Variable α × List α)} {gradient : List α}
    (added : (addGradients x parts gradient).1 = .ok ()) :
    ∀ part ∈ parts, part.1.isConstant = false →
      ∃ values, solverGradient x part.1 part.2 = .ok values := by
  induction parts generalizing gradient with
  | nil => exact fun part member => absurd member List.not_mem_nil
  | cons first rest ih =>
      obtain ⟨v, part⟩ := first
      rw [List.forall_mem_cons]
      cases constant : v.isConstant with
      | true =>
          simp only [addGradients, constant, ↓reduceIte] at added
          exact ⟨fun free => (by cases free), ih added⟩
      | false =>
          simp only [addGradients, constant, Bool.false_eq_true, ↓reduceIte] at added
          cases here : solverGradient x v part with
          | error fault =>
              rw [here] at added
              cases added
          | ok values =>
              rw [here] at added
              exact ⟨fun _ => ⟨values, rfl⟩, ih added⟩

theorem termSum_ok {locals : List (List α)} {b : Binding α} {gradient : List α} {value : α}
    (summed : (r.termSum request locals x b gradient).1 = .ok value) :
    ∃ filled, jet request locals b = (.ok value, filled) ∧
      (addGradients x (r.reported b filled) gradient).1 = .ok () := by
  unfold termSum at summed
  rcases evaluated : jet request locals b with ⟨fault | value', filled⟩
  · rw [evaluated] at summed
    cases summed
  · simp only [evaluated] at summed
    cases added : (addGradients x (r.reported b filled) gradient).1 with
    | error fault =>
        rw [added] at summed
        cases summed
    | ok _ =>
        rw [added] at summed
        cases summed
        exact ⟨filled, rfl, added⟩

theorem chunkSum_ok {locals : List (List α)} {bs : List (Binding α)} {total value : α}
    {gradient : List α} (summed : (r.chunkSum request locals x bs total gradient).1 = .ok value) :
    ∀ b ∈ bs, ∃ value gradient, (r.termSum request locals x b gradient).1 = .ok value := by
  induction bs generalizing total gradient with
  | nil => nofun
  | cons b rest ih =>
      rw [chunkSum] at summed
      rcases here : r.termSum request locals x b gradient with ⟨fault | value', gradient'⟩
      · rw [here] at summed
        cases summed
      · rw [here] at summed
        exact List.forall_mem_cons.2 ⟨⟨value', gradient, by rw [here]⟩, ih summed⟩

theorem workerSums_ok {locals : List (List α)} {values : List α}
    (summed : ((r.workerSums request locals x).map (·.1)).mapM id = .ok values) {b : Binding α}
    (member : b ∈ r.terms) : ∃ value filled gradient, jet request locals b = (.ok value, filled) ∧
      (addGradients x (r.reported b filled) gradient).1 = .ok () := by
  rw [← flatMap_chunks r, List.mem_flatMap] at member
  obtain ⟨chunk, chosen, member⟩ := member
  rw [workerSums, List.map_map] at summed
  obtain ⟨total, worker⟩ := mapM_id_ok summed (List.mem_map_of_mem chosen)
  obtain ⟨value, gradient, here⟩ := chunkSum_ok worker b member
  obtain ⟨filled, evaluated, added⟩ := termSum_ok here
  exact ⟨value, filled, gradient, evaluated, added⟩

omit [Scalar α] in
theorem eq_ok_outcome {β : Type} {result : Except (Fault α) (List β)} (ok : result.isOk = true) :
    result = .ok (outcome result) := by
  cases result with
  | ok values => rfl
  | error fault => cases ok

def attempted (r : Registry α) (m : Memory α) (x : List α) (request : Request) (b : Binding α) :
    Except (Fault α) α × Derivatives α :=
  (b.term.evaluate request ((r.arguments b).map fun v => outcome (localValue m x v))).run .zero

def Report.ofOk (seen : ∀ v ∈ r.vars, (localValue m x v).isOk = true)
    (evaluated : ∀ b ∈ r.terms, (r.attempted m x request b).1.isOk = true)
    (carried : ∀ b ∈ r.terms, ∀ part ∈ r.reported b (r.attempted m x request b).2,
      part.1.isConstant = false → (solverGradient x part.1 part.2).isOk = true) : Report r m x request where
  point v := outcome (localValue m x v)
  value b := (r.attempted m x request b).1.toOption.getD 0
  derivatives b := (r.attempted m x request b).2
  carry v part := outcome (solverGradient x v part)
  seen v member := eq_ok_outcome (seen v member)
  evaluated b member := by
    obtain ⟨value, ok⟩ := exists_of_isOk (evaluated b member)
    rw [ok]
    exact Prod.ext ok rfl
  carried _ b member part reported free := eq_ok_outcome (carried b member part reported free)

theorem exists_report {locals : List (List α)} {values : List α}
    (seen : r.pointLocals m (some x) = .ok locals)
    (summed : ((r.workerSums request locals x).map (·.1)).mapM id = .ok values) :
    Nonempty (Report r m x request) := by
  have spread : locals = r.vars.map fun v => outcome (localValue m x v) := mapM_ok_outcome seen
  have arguments (b : Binding α) : Registry.seen locals b.positions =
      (r.arguments b).map fun v => outcome (localValue m x v) := by
    simp [spread, Registry.seen, Registry.arguments, List.map_filterMap]
  have same (b : Binding α) : r.attempted m x request b = jet request locals b := by
    rw [attempted, jet, arguments b]
  refine ⟨.ofOk (fun v member => ?seen) (fun b member => ?evaluated) fun b member part reported free => ?carried⟩
  case seen =>
    obtain ⟨values, here⟩ := mapM_ok_each seen member
    rw [here]
    rfl
  case evaluated =>
    obtain ⟨value, filled, -, evaluated, -⟩ := workerSums_ok summed member
    rw [same, evaluated]
    rfl
  case carried =>
    obtain ⟨value, filled, gradient, evaluated, added⟩ := workerSums_ok summed member
    rw [same, evaluated] at reported
    obtain ⟨values, here⟩ := addGradients_ok added part reported free
    rw [here]
    rfl

end Descent.Registry
