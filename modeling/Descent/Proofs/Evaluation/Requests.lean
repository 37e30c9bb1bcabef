import Mathlib
import Descent.Proofs.Evaluation.Faults
import Descent.Proofs.Evaluation.Values

namespace Descent

variable {α : Type} [Scalar α]

def Term.SameGradients (t : Term α) : Prop :=
  ∀ x a b filled filled', (t.evaluate .gradient x).run .zero = (.ok a, filled) →
    (t.evaluate .hessian x).run .zero = (.ok b, filled') →
      ∀ k row, x[k]? = some row → ∀ i < row.length, filled.gradient k i = filled'.gradient k i

theorem Term.sameGradients_of_blind {t : Term α}
    (blind : ∀ request request' x, t.evaluate request x = t.evaluate request' x) : t.SameGradients := by
  intro x a b filled filled' here there k row _ i _
  rw [blind .gradient .hessian, there] at here
  cases here
  rfl

namespace Registry

variable {r : Registry α} {m : Memory α} {request : Request} {locals : List (List α)} {x : List α}

omit [Scalar α] in
theorem length_of_localValue {v : Variable α} {values : List α} (seen : localValue m x v = .ok values) :
    values.length = v.userDimension := by
  unfold localValue at seen
  split at seen
  · exact length_of_fit seen
  · obtain ⟨_, -, filled⟩ := bind_eq_ok.1 seen
    exact length_of_fit filled

omit [Scalar α] in
theorem forall₂_seen (located : r.pointLocals m (some x) = .ok locals) (b : Binding α) :
    List.Forall₂ (fun v row => row.length = v.userDimension) (r.arguments b) (seen locals b.positions) := by
  have lengths : List.Forall₂ (fun v row => row.length = v.userDimension) r.vars locals :=
    (mapM_ok_iff.1 located).imp fun _ _ => length_of_localValue
  refine List.rel_filterMap (R := Eq) ?_ (List.forall₂_eq_eq_eq ▸ rfl)
  rintro i _ rfl
  simp only
  cases at_i : r.vars[i]? with
  | none =>
      rw [List.getElem?_eq_none (lengths.length_eq ▸ List.getElem?_eq_none_iff.1 at_i)]
      exact .none
  | some v =>
      obtain ⟨inside, rfl⟩ := List.getElem?_eq_some_iff.1 at_i
      have inside' : i < locals.length := lengths.length_eq ▸ inside
      rw [List.getElem?_eq_getElem inside']
      exact .some (lengths.get inside inside')

theorem termSum_snd {b : Binding α} {value : α} {filled : Derivatives α}
    (evaluated : jet request locals b = (.ok value, filled)) (gradient : List α) :
    (r.termSum request locals x b gradient).2 = (addGradients x (r.reported b filled) gradient).2 := by
  rw [termSum, evaluated]

theorem reported_eq {b : Binding α} (same : b.term.SameGradients)
    (located : r.pointLocals m (some x) = .ok locals) {value value' : α} {filled filled' : Derivatives α}
    (here : jet .gradient locals b = (.ok value, filled))
    (there : jet .hessian locals b = (.ok value', filled')) :
    r.reported b filled = r.reported b filled' := by
  apply List.ext_getElem?
  intro k
  rw [reported, reported, List.getElem?_mapIdx, List.getElem?_mapIdx]
  cases at_k : (r.arguments b)[k]? with
  | none => rfl
  | some v =>
      obtain ⟨inside, rfl⟩ := List.getElem?_eq_some_iff.1 at_k
      have seen := forall₂_seen located b
      have inside' := seen.length_eq ▸ inside
      have length := seen.get inside inside'
      simp only [Option.map_some, Option.some.injEq, Prod.mk.injEq, true_and]
      refine List.map_congr_left fun i member => ?_
      exact same _ _ _ _ _ here there k _ (List.getElem?_eq_getElem inside') i
        (length ▸ List.mem_range.1 member)

section

variable (same : ∀ b ∈ r.terms, b.term.SameGradients) (located : r.pointLocals m (some x) = .ok locals)

include same located

theorem chunkSum_gradient_eq {bs : List (Binding α)} (members : ∀ b ∈ bs, b ∈ r.terms)
    {start start' total total' : α} {gradient : List α}
    (here : (r.chunkSum .gradient locals x bs start gradient).1 = .ok total)
    (there : (r.chunkSum .hessian locals x bs start' gradient).1 = .ok total') :
    (r.chunkSum .gradient locals x bs start gradient).2 = (r.chunkSum .hessian locals x bs start' gradient).2 := by
  induction bs generalizing start start' gradient with
  | nil => rfl
  | cons b rest ih =>
      obtain ⟨member, members⟩ := List.forall_mem_cons.1 members
      rw [chunkSum] at here there
      rcases first : r.termSum .gradient locals x b gradient with ⟨fault | a, gradient'⟩
      · rw [first] at here
        cases here
      rcases first' : r.termSum .hessian locals x b gradient with ⟨fault | a', gradient''⟩
      · rw [first'] at there
        cases there
      have added : gradient' = gradient'' := by
        obtain ⟨filled, evaluated, -⟩ := termSum_ok (congrArg Prod.fst first)
        obtain ⟨filled', evaluated', -⟩ := termSum_ok (congrArg Prod.fst first')
        have parts := reported_eq (same b member) located evaluated evaluated'
        have sums := termSum_snd (r := r) (x := x) evaluated gradient
        have sums' := termSum_snd (r := r) (x := x) evaluated' gradient
        rw [first] at sums
        rw [first', ← parts] at sums'
        exact sums.trans sums'.symm
      subst added
      rw [first] at here
      rw [first'] at there
      rw [chunkSum, chunkSum, first, first']
      exact ih members here there

end

def Slopes (r : Registry α) (m : Memory α) (request : Request) (x : List α) (g : Vector α r.scalars) : Prop :=
  ∃ locals, r.pointLocals m (some x) = .ok locals ∧
    (∀ chunk ∈ r.chunks, ∃ total, (r.workerSum request locals x chunk).1 = .ok total) ∧
    g = r.totalGradient ((r.workerSums request locals x).map (·.2))

theorem slopes_of_workerSums {values : List α} (located : r.pointLocals m (some x) = .ok locals)
    (summed : ((r.workerSums request locals x).map (·.1)).mapM id = .ok values) :
    r.Slopes m request x (r.totalGradient ((r.workerSums request locals x).map (·.2))) := by
  refine ⟨locals, located, fun chunk member => ?_, rfl⟩
  rw [workerSums, List.map_map] at summed
  exact mapM_id_ok summed (List.mem_map_of_mem member)

theorem Slopes.unique {g g' : Vector α r.scalars} (here : r.Slopes m request x g)
    (there : r.Slopes m request x g') : g = g' := by
  obtain ⟨locals, located, -, rfl⟩ := here
  obtain ⟨locals', located', -, rfl⟩ := there
  cases located.symm.trans located'
  rfl

theorem Slopes.agree (same : ∀ b ∈ r.terms, b.term.SameGradients) {g g' : Vector α r.scalars}
    (here : r.Slopes m .gradient x g) (there : r.Slopes m .hessian x g') : g = g' := by
  obtain ⟨locals, located, summed, rfl⟩ := here
  obtain ⟨locals', located', summed', rfl⟩ := there
  cases located.symm.trans located'
  rw [workerSums, workerSums, List.map_map, List.map_map]
  refine congrArg r.totalGradient (List.map_congr_left fun chunk member => ?_)
  obtain ⟨total, worker⟩ := summed chunk member
  obtain ⟨total', worker'⟩ := summed' chunk member
  exact chunkSum_gradient_eq same located (fun _ => mem_of_mem_slice) worker worker'

theorem slopes_of_gradientMeaning {b : α × Vector α r.scalars} (meant : r.gradientMeaning m x = .ok b) :
    r.Slopes m .gradient x b.2 := by
  obtain ⟨-, -, meant⟩ := bind_eq_ok.1 meant
  obtain ⟨locals, located, meant⟩ := bind_eq_ok.1 meant
  obtain ⟨a, summed, meant⟩ := bind_eq_ok.1 meant
  obtain ⟨values, summed, -⟩ := map_eq_ok.1 summed
  cases meant
  exact slopes_of_workerSums located summed

theorem of_hessianMeaning {sparse : Bool} {b : α × Vector α r.scalars × Hessian α r.scalars}
    (meant : r.hessianMeaning m x sparse = .ok b) :
    ∃ locals, r.checkHessian = .ok () ∧ r.checkPoint x = .ok () ∧ r.pointLocals m (some x) = .ok locals ∧
      r.Slopes m .hessian x b.2.1 ∧
      (if sparse then .sparse <$> sparseMatrix r.scalars r.entryPositions (r.entryValues (r.termBlocks locals))
        else .ok (.dense (r.denseHessian (r.termBlocks locals)))) = (.ok b.2.2 : Except (Fault α) _) := by
  obtain ⟨⟨⟩, able, meant⟩ := bind_eq_ok.1 meant
  obtain ⟨⟨⟩, checked, meant⟩ := bind_eq_ok.1 meant
  obtain ⟨locals, located, meant⟩ := bind_eq_ok.1 meant
  obtain ⟨a, summed, meant⟩ := bind_eq_ok.1 meant
  obtain ⟨values, summed, -⟩ := map_eq_ok.1 summed
  refine ⟨locals, able, checked, located, ?_⟩
  cases sparse <;> obtain ⟨matrix, made, meant⟩ := bind_eq_ok.1 meant <;> cases meant
  · exact ⟨slopes_of_workerSums located summed, made⟩
  · exact ⟨slopes_of_workerSums located summed, made⟩

end Registry

namespace Objective

open Registry

variable {f : Objective α} {m : Memory α}

theorem Reachable.gradient_unique (reached : Reachable f) (same : ∀ b ∈ f.terms, b.term.SameGradients)
    {x : Vector α f.scalars} {a b : α} {g g' : Vector α f.scalars} (here : f.HasGradient m x a g)
    (there : f.HasGradient m x b g') : g = g' := by
  have slopes {a : α} {g : Vector α f.scalars} (has : f.HasGradient m x a g) :
      f.Slopes m .gradient x.toList g ∨ f.Slopes m .hessian x.toList g := by
    rcases has with found | ⟨sparse, h, found⟩
    · exact .inl (slopes_of_gradientMeaning (reached.ask_gradient_iff.1 found))
    · obtain ⟨locals, -, -, -, slopes, -⟩ := of_hessianMeaning (reached.ask_hessian_iff.1 found)
      exact .inr slopes
  rcases slopes here with here | here <;> rcases slopes there with there | there
  · exact here.unique there
  · exact here.agree same there
  · exact (there.agree same here).symm
  · exact here.unique there

theorem Reachable.hessian_threads (reached : Reachable f) {threads : Nat} (positive : 0 < threads)
    {x : List α} {sparse : Bool} {a : α} {g : Vector α f.scalars} {h : Hessian α f.scalars}
    (found : (f.ask m (.hessian x sparse)).1 = .ok (.hessian a g h)) :
    ∃ a' g', ((f.withThreads threads).ask m (.hessian x sparse)).1 = .ok (.hessian a' g' h) := by
  have shared := reached.withThreads positive
  have meant := reached.ask_hessian_iff.1 found
  obtain ⟨locals, able, checked, located, -, matrix⟩ := of_hessianMeaning meant
  have first := Query.fault?_meaning reached.wellFormed (.hessian able checked located sparse)
  have first' := Query.fault?_meaning shared.wellFormed
    (.hessian (r := (f.withThreads threads).toRegistry) able checked located sparse)
  rw [Query.meaning, fault?_map] at first first'
  have succeeds : fault? ((f.withThreads threads).hessianMeaning m x sparse) = none :=
    first'.trans (first.symm.trans (fault?_eq_none.2 ⟨_, meant⟩))
  obtain ⟨b, meant'⟩ := fault?_eq_none.1 succeeds
  obtain ⟨locals', -, -, located', -, matrix'⟩ := of_hessianMeaning meant'
  cases located.symm.trans located'
  cases matrix.symm.trans matrix'
  exact ⟨b.1, b.2.1, shared.ask_hessian_iff.2 meant'⟩

def asked (f : Objective α) (earlier : List (Memory α × Query α)) : Objective α :=
  earlier.foldl (fun f e => (f.ask e.1 e.2).2) f

theorem Reachable.asked (reached : Reachable f) (earlier : List (Memory α × Query α)) :
    Reachable (f.asked earlier) ∧ ∃ w, f.asked earlier = { f with workspace := w } := by
  induction earlier generalizing f with
  | nil => exact ⟨reached, f.workspace, rfl⟩
  | cons e rest ih => exact ih (reached.step (.ask e.1 e.2))

/-- Where the values and gradients of the terms do not depend on what is asked for, all evaluations at a point
that succeed agree, in any arithmetic: on the value, and on the gradient. The Hessian does not depend on the
number of threads either, and no answer on what was asked before. -/
theorem Reachable.answers_unique (reached : Reachable f)
    (same : ∀ b ∈ f.terms, b.term.SameValues ∧ b.term.SameGradients) (m : Memory α) (x : Vector α f.scalars) :
    (∀ a b, f.HasValue m x a → f.HasValue m x b → a = b) ∧
      (∀ a b g g', f.HasGradient m x a g → f.HasGradient m x b g' → g = g') ∧
      (∀ threads, 0 < threads → ∀ sparse a g h,
        (f.ask m (.hessian x.toList sparse)).1 = .ok (.hessian a g h) → ∃ a' g',
          ((f.withThreads threads).ask m (.hessian x.toList sparse)).1 = .ok (.hessian a' g' h)) ∧
      ∀ earlier, ∃ w, f.asked earlier = { f with workspace := w } ∧
        ∀ m' q, (({ f with workspace := w } : Objective α).ask m' q).1 = (f.ask m' q).1 := by
  refine ⟨fun a b => reached.value_unique (fun b member => (same b member).1) x a b,
    fun a b g g' => reached.gradient_unique fun b member => (same b member).2,
    fun threads positive sparse a g h => reached.hessian_threads positive, fun earlier => ?_⟩
  obtain ⟨reached', w, kept⟩ := reached.asked earlier
  refine ⟨w, kept, fun m' q => ?_⟩
  rw [kept] at reached'
  rw [reached.ask_eq]
  exact reached'.ask_eq m' q

def oneFloat : Memory Float where
  objects := [.array .double [1] 0 0]
  blocks := [[1]]

def tenths : Objective Float :=
  [1, 2, 3].foldl (fun f k => ((Mutation.addTerm (.term (Sample.polynomial [1]
    [(Scalar.ratio k 10, [(0, 0), (0, 0)])])) [⟨0⟩]).edit.run oneFloat f).2) (ofThreads 1)

theorem reachable_tenths : Reachable tenths :=
  .step (.step (.step (.new (show new? 1 = .ok (ofThreads 1) from rfl))
    (.mutate (c := .addTerm (.term _) _) trivial oneFloat))
    (.mutate (c := .addTerm (.term _) _) trivial oneFloat))
    (.mutate (c := .addTerm (.term _) _) trivial oneFloat)

theorem tenths_answers_unique : ∃ a g h a' g',
    (tenths.ask oneFloat (.value (some [1]))).1 = .ok (.number a) ∧
      (tenths.ask oneFloat (.gradient [1])).1 = .ok (.gradient a g) ∧
      (tenths.ask oneFloat (.hessian [1] false)).1 = .ok (.hessian a g h) ∧
      ((tenths.withThreads 2).ask oneFloat (.hessian [1] false)).1 = .ok (.hessian a' g' h) ∧ a' ≠ a := by
  have blind : ∀ b ∈ tenths.terms, ∀ request request' x,
      b.term.evaluate request x = b.term.evaluate request' x := by
    have terms : tenths.terms = [1, 2, 3].map fun k =>
      ⟨Sample.polynomial [1] [(Scalar.ratio k 10, [(0, 0), (0, 0)])], [0]⟩ := rfl
    rw [terms, List.forall_mem_map]
    exact fun _ _ _ _ _ => rfl
  have ready : (tenths.valueMeaning oneFloat (some [1])).isOk = true ∧
      (tenths.gradientMeaning oneFloat [1]).isOk = true ∧
      (tenths.hessianMeaning oneFloat [1] false).isOk = true := by decide +kernel
  obtain ⟨values, gradients, threads, -⟩ := Reachable.answers_unique reachable_tenths (fun b member =>
    ⟨Term.sameValues_of_blind (blind b member), Term.sameGradients_of_blind (blind b member)⟩)
    oneFloat ⟨#[1], rfl⟩
  obtain ⟨a, number⟩ := exists_of_isOk ready.1
  obtain ⟨b, pair⟩ := exists_of_isOk ready.2.1
  obtain ⟨d, triple⟩ := exists_of_isOk ready.2.2
  have value := reachable_tenths.ask_value_of_meaning number
  have gradient := reachable_tenths.ask_gradient_iff.2 pair
  have hessian := reachable_tenths.ask_hessian_iff.2 triple
  have same : b.1 = a := values _ _ (.inr ⟨b.2, .inl gradient⟩) (.inl value)
  have same' : d.1 = a := values _ _ (.inr ⟨d.2.1, .inr ⟨false, d.2.2, hessian⟩⟩) (.inl value)
  have slope : d.2.1 = b.2 := gradients _ _ _ _ (.inr ⟨false, d.2.2, hessian⟩) (.inl gradient)
  obtain ⟨a', g', shared⟩ := threads 2 two_pos false _ _ _ hessian
  refine ⟨a, b.2, d.2.2, a', g', value, same ▸ gradient, same' ▸ slope ▸ hessian, shared, fun equal => ?_⟩
  have triple' : (tenths.withThreads 2).hessianMeaning oneFloat [1] false = .ok (a', g', d.2.2) :=
    (reachable_tenths.withThreads two_pos).ask_hessian_iff.1 shared
  have apart : (tenths.hessianMeaning oneFloat [1] false).toOption.map (·.1.toBits) ≠
      ((tenths.withThreads 2).hessianMeaning oneFloat [1] false).toOption.map (·.1.toBits) := by decide +kernel
  rw [triple, triple', equal, ← same'] at apart
  exact apart rfl

end Objective

end Descent
