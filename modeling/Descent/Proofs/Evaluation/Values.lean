import Mathlib
import Descent.Proofs.Evaluation.Reports

namespace Descent

variable {α : Type} [Scalar α]

def Term.SameValues (t : Term α) : Prop :=
  ∀ request request' x a b, ((t.evaluate request x).run .zero).1 = .ok a →
    ((t.evaluate request' x).run .zero).1 = .ok b → a = b

theorem Term.sameValues_of_blind {t : Term α}
    (blind : ∀ request request' x, t.evaluate request x = t.evaluate request' x) : t.SameValues := by
  intro request request' x a b here there
  rw [blind request request'] at here
  exact Except.ok.inj (here.symm.trans there)

namespace Registry

variable {r : Registry α} {m : Memory α} {request request' : Request} {locals : List (List α)}
  {x : List α}

def Gives (request : Request) (locals : List (List α)) (bs : List (Binding α)) (values : List α) :
    Prop :=
  List.Forall₂ (fun b value => (jet request locals b).1 = .ok value) bs values

theorem Gives.unique {bs : List (Binding α)} (same : ∀ b ∈ bs, b.term.SameValues)
    {values values' : List α} (given : Gives request locals bs values)
    (given' : Gives request' locals bs values') : values = values' := by
  induction given generalizing values' with
  | nil =>
      cases given'
      rfl
  | cons here _ ih =>
      obtain ⟨agree, same⟩ := List.forall_mem_cons.1 same
      cases given' with
      | cons there rest => rw [agree _ _ _ _ _ here there, ih same rest]

theorem gives_of_foldlM {bs : List (Binding α)} {total value : α}
    (summed : bs.foldlM (fun total b => do return total + (← (jet .value locals b).1)) total =
      .ok value) :
    ∃ values, Gives .value locals bs values ∧ value = values.foldl (· + ·) total := by
  induction bs generalizing total with
  | nil =>
      cases summed
      exact ⟨[], .nil, rfl⟩
  | cons b rest ih =>
      obtain ⟨next, here, summed⟩ := bind_eq_ok.1 summed
      obtain ⟨a, found, here⟩ := bind_eq_ok.1 here
      cases here
      obtain ⟨values, given, total⟩ := ih summed
      exact ⟨a :: values, .cons found given, total⟩

theorem gives_of_chunkSum {bs : List (Binding α)} {total value : α} {gradient : List α}
    (summed : (r.chunkSum request locals x bs total gradient).1 = .ok value) :
    ∃ values, Gives request locals bs values ∧ value = values.foldl (· + ·) total := by
  induction bs generalizing total gradient with
  | nil =>
      cases summed
      exact ⟨[], .nil, rfl⟩
  | cons b rest ih =>
      rw [chunkSum] at summed
      rcases here : r.termSum request locals x b gradient with ⟨fault | a, gradient'⟩
      · rw [here] at summed
        cases summed
      · rw [here] at summed
        obtain ⟨values, given, total⟩ := ih summed
        refine ⟨a :: values, .cons ?_ given, total⟩
        obtain ⟨filled, evaluated, -⟩ := termSum_ok (congrArg Prod.fst here)
        rw [evaluated]

def Totals (r : Registry α) (m : Memory α) (request : Request) (x : List α) (total : α) : Prop :=
  ∃ locals values, r.pointLocals m (some x) = .ok locals ∧ total = r.totalValue values ∧
    List.Forall₂ (fun chunk value => ∃ parts, Gives request locals (slice r.terms chunk) parts ∧
      value = parts.foldl (· + ·) 0) r.chunks values

theorem Totals.unique (same : ∀ b ∈ r.terms, b.term.SameValues) {a b : α}
    (here : r.Totals m request x a) (there : r.Totals m request' x b) : a = b := by
  obtain ⟨locals, values, seen, rfl, given⟩ := here
  obtain ⟨locals', values', seen', rfl, given'⟩ := there
  cases seen.symm.trans seen'
  have inside (chunk : Nat × Nat) (b : Binding α) (member : b ∈ slice r.terms chunk) :
      b.term.SameValues := same b (List.mem_of_mem_drop (List.mem_of_mem_take member))
  congr 1
  generalize r.chunks = chunks at given given'
  induction given generalizing values' with
  | nil =>
      cases given'
      rfl
  | cons first _ ih =>
      cases given' with
      | cons first' rest =>
          obtain ⟨parts, gives, rfl⟩ := first
          obtain ⟨parts', gives', rfl⟩ := first'
          rw [gives.unique (inside _) gives', ih _ rest]

theorem totals_of_valueMeaning {a : α} (value : r.valueMeaning m (some x) = .ok a) :
    r.Totals m .value x a := by
  obtain ⟨_, -, value⟩ := bind_eq_ok.1 value
  obtain ⟨locals, seen, value⟩ := bind_eq_ok.1 value
  obtain ⟨values, summed, rfl⟩ := map_eq_ok.1 value
  exact ⟨locals, values, seen, rfl, (mapM_ok_iff.1 summed).imp fun _ _ => gives_of_foldlM⟩

theorem totals_of_workerSums {locals : List (List α)} {a : α}
    (seen : r.pointLocals m (some x) = .ok locals)
    (value : r.totalValue <$> ((r.workerSums request locals x).map (·.1)).mapM id = .ok a) :
    r.Totals m request x a := by
  obtain ⟨values, summed, rfl⟩ := map_eq_ok.1 value
  rw [workerSums, List.map_map, List.mapM_map] at summed
  exact ⟨locals, values, seen, rfl, (mapM_ok_iff.1 summed).imp fun _ _ => gives_of_chunkSum⟩

theorem totals_of_gradientMeaning {b : α × Vector α r.scalars} (value : r.gradientMeaning m x = .ok b) :
    r.Totals m .gradient x b.1 := by
  obtain ⟨-, -, value⟩ := bind_eq_ok.1 value
  obtain ⟨locals, seen, value⟩ := bind_eq_ok.1 value
  obtain ⟨a, summed, value⟩ := bind_eq_ok.1 value
  cases value
  exact totals_of_workerSums seen summed

theorem totals_of_hessianMeaning {sparse : Bool} {b : α × Vector α r.scalars × Hessian α r.scalars}
    (value : r.hessianMeaning m x sparse = .ok b) : r.Totals m .hessian x b.1 := by
  obtain ⟨-, -, value⟩ := bind_eq_ok.1 value
  obtain ⟨-, -, value⟩ := bind_eq_ok.1 value
  obtain ⟨locals, seen, value⟩ := bind_eq_ok.1 value
  obtain ⟨a, summed, value⟩ := bind_eq_ok.1 value
  cases sparse <;> obtain ⟨matrix, -, value⟩ := bind_eq_ok.1 value <;> cases value <;>
    exact totals_of_workerSums seen summed

end Registry

namespace Objective

section

variable (f : Objective α) (m : Memory α)

def HasGradient (x : Vector α f.scalars) (a : α) (g : Vector α f.scalars) : Prop :=
  (f.ask m (.gradient x.toList)).1 = .ok (.gradient a g) ∨
    ∃ sparse h, (f.ask m (.hessian x.toList sparse)).1 = .ok (.hessian a g h)

def HasValue (x : Vector α f.scalars) (a : α) : Prop :=
  (f.ask m (.value (some x.toList))).1 = .ok (.number a) ∨ ∃ g, f.HasGradient m x a g

end

variable {f : Objective α} {m : Memory α} {x : Vector α f.scalars}

theorem Reachable.ask_value_of_meaning (reached : Reachable f) {x : List α} {a : α}
    (value : f.valueMeaning m (some x) = .ok a) : (f.ask m (.value (some x))).1 = .ok (.number a) := by
  rw [reached.ask_eq, Query.meaning, value, map_ok]

theorem Reachable.hasGradient_of_hessian (reached : Reachable f) {sparse : Bool}
    (x : Vector α f.scalars) (b : α × Vector α f.scalars × Hessian α f.scalars)
    (here : f.hessianMeaning m x.toList sparse = .ok b) : f.HasGradient m x b.1 b.2.1 :=
  .inr ⟨sparse, b.2.2, by rw [reached.ask_eq, Query.meaning, here, map_ok]⟩

theorem Reachable.hasGradient_of_gradient (reached : Reachable f) (x : Vector α f.scalars)
    (b : α × Vector α f.scalars) (here : f.gradientMeaning m x.toList = .ok b) :
    f.HasGradient m x b.1 b.2 :=
  .inl (by rw [reached.ask_eq, Query.meaning, here, map_ok])

theorem Reachable.totals_of_hasValue (reached : Reachable f) {a : α} (has : f.HasValue m x a) :
    ∃ request, f.Totals m request x.toList a := by
  rcases has with value | ⟨g, value | ⟨sparse, h, value⟩⟩ <;>
    rw [reached.ask_eq, Query.meaning] at value
  · obtain ⟨_, meant, ⟨⟩⟩ := map_eq_ok.1 value
    exact ⟨_, Registry.totals_of_valueMeaning meant⟩
  · obtain ⟨_, meant, ⟨⟩⟩ := map_eq_ok.1 value
    exact ⟨_, Registry.totals_of_gradientMeaning meant⟩
  · obtain ⟨_, meant, ⟨⟩⟩ := map_eq_ok.1 value
    exact ⟨_, Registry.totals_of_hessianMeaning meant⟩

theorem Reachable.value_unique (reached : Reachable f) (same : ∀ b ∈ f.terms, b.term.SameValues)
    (x : Vector α f.scalars) (a b : α) (here : f.HasValue m x a) (there : f.HasValue m x b) : a = b :=
  have ⟨_, totals⟩ := reached.totals_of_hasValue here
  have ⟨_, totals'⟩ := reached.totals_of_hasValue there
  totals.unique same totals'

end Objective

end Descent
