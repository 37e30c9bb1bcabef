import Mathlib
import Descent.Proofs.Stream.AllOrNothing
import Descent.Proofs.Stream.RoundTrip

namespace Descent

variable {α : Type}

def Factory.Recovers [Zero α] (factory : Factory α) (t : Term α) : Prop :=
  ∃ name cls restored, factory.classes.find? (·.2.kind = t.kind) = some (name, cls) ∧
    cls.restore t.payload = .ok restored ∧ t.Equivalent restored

theorem Factory.Recovers.preserves [Zero α] {factory : Factory α} {t : Term α} (recovers : factory.Recovers t)
    (name : '\n' ∉ (factory.nameOf t).toList) (payload : '\n' ∉ t.payload.toList) : factory.Preserves t where
  payload := payload
  taught := by
    obtain ⟨known, cls, restored, first, made, equivalent⟩ := recovers
    rw [nameOf, first] at name
    exact ⟨known, cls, restored, first, name, made, equivalent⟩

namespace Registry

variable [Numeral α] {r s : Registry α} {factory : Factory α} {m : Memory α}

/-! ## Failure -/

/-- A variable has a change, or else some payload has several lines, the first one being that of `b`. -/
inductive Unwritable (r : Registry α) : Fault α → Prop
  | changed {v : Variable α} (known : v ∈ r.vars) (changed : v.change ≠ none) : Unwritable r .streamChanged
  | severalLines {b : Binding α} (plain : ∀ v ∈ r.vars, v.change = none)
      (first : r.terms.find? (·.term.payload.toList.contains '\n') = some b) :
      Unwritable r (.severalLines b.term.kind.className)

omit [Numeral α] in
theorem mapM_termLines_error {b : Binding α} {terms : List (Binding α)}
    (first : terms.find? (·.term.payload.toList.contains '\n') = some b) :
    terms.mapM (r.termLines (some factory)) = .error (.severalLines b.term.kind.className) := by
  obtain ⟨several, before, behind, rfl, whole⟩ := List.find?_eq_some_iff_append.1 first
  have written : before.mapM (r.termLines (some factory)) = .ok (before.map (r.lines factory)) :=
    mapM_eq_ok fun c member => termLines_eq (by simpa using whole c member)
  have failed : r.termLines (some factory) b = .error (.severalLines b.term.kind.className) := by
    simp only [termLines, several, ↓reduceIte]
    rfl
  rw [List.mapM_append, written, ok_bind, List.mapM_cons, failed]
  rfl

theorem Unwritable.write_eq {fault : Fault α} (unwritable : r.Unwritable fault) :
    r.write m (some factory) = .error fault := by
  cases unwritable with
  | @changed v known changed =>
      have any : (r.vars.any (·.change.isSome)) = true :=
        List.any_eq_true.2 ⟨v, known, Option.isSome_iff_ne_none.2 changed⟩
      simp only [write, any, ↓reduceIte]
      rfl
  | severalLines plain first =>
      simp only [write, any_change_eq_false plain, mapM_termLines_error first]
      rfl

omit [Numeral α] in
theorem writable_or_unwritable (r : Registry α) :
    ((∀ v ∈ r.vars, v.change = none) ∧ ∀ b ∈ r.terms, '\n' ∉ b.term.payload.toList) ∨
      ∃ fault, r.Unwritable fault := by
  by_cases plain : ∀ v ∈ r.vars, v.change = none
  · cases first : r.terms.find? (·.term.payload.toList.contains '\n') with
    | some b => exact .inr ⟨_, .severalLines plain first⟩
    | none =>
        rw [List.find?_eq_none] at first
        exact .inl ⟨plain, fun b member => by simpa using first b member⟩
  · simp only [not_forall] at plain
    obtain ⟨v, known, changed⟩ := plain
    exact .inr ⟨_, .changed known changed⟩

theorem write_eq_error_iff {fault : Fault α} :
    r.write m (some factory) = .error fault ↔ r.Unwritable fault := by
  refine ⟨fun failed => ?_, Unwritable.write_eq⟩
  rcases r.writable_or_unwritable with ⟨plain, whole⟩ | ⟨other, unwritable⟩
  · rw [write_eq plain whole] at failed
    cases failed
  · rw [unwritable.write_eq] at failed
    cases failed
    exact unwritable

theorem write_eq_ok_iff {text : String} : r.write m (some factory) = .ok text ↔
    (∀ v ∈ r.vars, v.change = none) ∧ (∀ b ∈ r.terms, '\n' ∉ b.term.payload.toList) ∧
      text = unlines (r.headLines m ++ r.terms.flatMap (r.lines factory)) := by
  constructor
  · intro written
    rcases r.writable_or_unwritable with ⟨plain, whole⟩ | ⟨fault, unwritable⟩
    · rw [write_eq plain whole] at written
      cases written
      exact ⟨plain, whole, rfl⟩
    · rw [unwritable.write_eq] at written
      cases written
  · rintro ⟨plain, whole, rfl⟩
    exact write_eq plain whole

/-! ## Success -/

omit [Numeral α]

/-- The second registry has the variables of the first one, the constant ones moved behind the free ones, and
equivalent terms for them. Nothing is said of arrays. -/
structure Restates [Zero α] (r s : Registry α) : Prop where
  constant : s.constant = r.constant
  scalars : s.scalars = r.scalars
  constants : s.constants = r.constants
  vars : s.vars.map Variable.bare =
    (r.vars.filter (!·.isConstant) ++ r.vars.filter (·.isConstant)).map Variable.bare
  terms : List.Forall₂ (fun b c => b.term.Equivalent c.term ∧ c.positions = b.positions.map r.placeOf)
    r.terms s.terms

theorem restates_restored [Zero α] {bindings : List (Binding α)}
    (rebinds : List.Forall₂ (r.Rebinds factory) r.terms bindings) (next : Nat) (target : Registry α) :
    r.Restates (r.restored next bindings target) where
  constant := rfl
  scalars := rfl
  constants := rfl
  vars := by rw [restored, map_rehomed fun _ _ => rfl, ordered_eq]
  terms := rebinds.imp fun _ _ rebind => ⟨rebind.term.equivalent, rebind.positions⟩

theorem load_restored (m₀ : Memory α) (bindings : List (Binding α)) (target : Registry α)
    (size : (r.contents m).length = (r.ordered.map Variable.userDimension).sum) :
    let m' := m₀.taken (r.contents m) (r.ordered.map Variable.userDimension)
    let s := r.restored (m₀.objects.length + 1) bindings target
    (∀ v ∈ s.vars, (m'.load v.storage).length = v.userDimension) ∧
      (s.vars.flatMap fun v => m'.load v.storage) = r.contents m := by
  intro m' s
  have objects : m'.objects = (m₀.objects ++ [.array .double [(r.contents m).length] m₀.blocks.length 0]) ++
      Memory.parts m₀.blocks.length 0 (r.ordered.map Variable.userDimension) := by
    simp [m', Memory.taken]
  have found : m'.blocks[m₀.blocks.length]? = some (r.contents m) := by simp [m', Memory.taken]
  have slices := Memory.slices_parts objects
  rw [List.length_append, List.length_singleton, Nat.zero_add, ← size] at slices
  obtain ⟨lengths, contents⟩ := slices.load found (Nat.le_refl _)
  rw [List.drop_zero, List.drop_length, List.append_nil] at contents
  exact ⟨lengths, contents.symm⟩

end Registry

namespace Reading

open Objective Registry Text

variable [Numeral α] [Numeral.Words α] [Scalar α] {m m₀ : Memory α} {g : Objective α} {r : Registry α}
  {factory : Factory α}

theorem run_objective_miscounted (wf : r.WellFormed) (plain : ∀ v ∈ r.vars, v.change = none)
    (miscounted : (r.contents m).length ≠ (r.ordered.map Variable.userDimension).sum)
    (constant : Numeral.ReadBack r.constant) (back : ∀ a ∈ r.contents m, Numeral.ReadBack a)
    (others : List String) (rest : List Char) :
    (run (objective factory) ⟨lined (r.headLines m ++ others) rest, m₀, g⟩).1 = .error .scalarCount := by
  have lines := starts_headLines (m := m) wf plain others rest
  rw [headLines_eq wf plain] at lines ⊢
  obtain ⟨next, taken, -⟩ := run_body_of_starts (m := m₀) (g := g.clear) factory lines
    (natural?_toString _) (natural?_toString _) (by rw [natural?_toString, List.length_map, List.length_map])
    (natural?_toString _) constant (integers?_spaced _) (integers?_spaced _) (numbers?_spaced back)
    (by simp) (Nat.cast_list_sum _).symm
  rw [run_objective_error (taken.trans (run_bind_error (run_refuse_error miscounted _)))]

end Reading

namespace Objective

open Registry Text

variable [Scalar α] [Numeral α] [Numeral.Words α] {f g₀ : Objective α} {factory : Factory α} {m : Memory α}

/-- If the names that are written are of one line and the arrays of one axis, as the registered and the resized ones
are, text is written unless a change or a payload forbids it, and it is read back, whatever is behind it, unless
there are more or fewer numbers than scalars. -/
theorem Reachable.read_written_iff_count (reached : Reachable f) (taught : factory.Taught)
    (recovers : ∀ b ∈ f.terms, factory.Recovers b.term)
    (names : ∀ b ∈ f.terms, '\n' ∉ (factory.nameOf b.term).toList) (constant : Numeral.ReadBack f.constant)
    (arrays : ∀ v ∈ f.vars, (m.shape v.storage).length = 1 ∧ ∀ a ∈ m.load v.storage, Numeral.ReadBack a) :
    (∀ fault, f.write m (some factory) = .error fault ↔ f.Unwritable fault) ∧
    ∀ text, f.write m (some factory) = .ok text →
      ∀ (g₀ : Objective α) (m₀ : Memory α) (rest : List Char), Reachable g₀ →
      ((f.contents m).length ≠ f.scalars + f.constants →
        ((Reading.objective factory).run ⟨text.toList ++ rest, m₀, g₀⟩).1 = .error .scalarCount) ∧
      ((f.contents m).length = f.scalars + f.constants → ∃ whole m' g,
        (Reading.objective factory).run ⟨text.toList ++ rest, m₀, g₀⟩ =
          (.ok (whole, g.vars.map Variable.storage), ⟨rest, m', g⟩) ∧
        f.Restates g.toRegistry ∧
        (∀ v ∈ g.vars, (m'.load v.storage).length = v.userDimension) ∧
        (g.vars.flatMap fun v => m'.load v.storage) = f.contents m ∧
        ((∀ v ∈ f.vars, (m.load v.storage).length = v.userDimension) →
          f.Resembles g.toRegistry m m' ∧ (g.threads = f.threads → f.SameAnswers g m m'))) := by
  refine ⟨fun fault => write_eq_error_iff, ?_⟩
  intro text written g₀ m₀ rest target
  obtain ⟨plain, whole, rfl⟩ := write_eq_ok_iff.1 written
  have wf := reached.wellFormed
  have back := forall_mem_contents fun v member => (arrays v member).2
  rw [toList_unlines, ← sum_dimensions wf plain]
  refine ⟨fun miscounted => Reading.run_objective_miscounted wf plain miscounted constant back _ rest,
    fun size => ?_⟩
  obtain ⟨bindings, rebinds⟩ := exists_rebinds (r := f.toRegistry) taught fun b member =>
    (recovers b member).preserves (names b member) (whole b member)
  obtain ⟨g, read, same⟩ := Reading.run_objective m₀ rest wf plain size constant back rebinds
    target.wellFormed.threads
  have made : Reachable g := target.of_read read
  obtain ⟨lengths', contents'⟩ := load_restored m₀ bindings g₀.toRegistry size
  refine ⟨_, _, g, by rw [read, same]; rfl, ?_, ?_, ?_, fun lengths => ?_⟩
  · rw [same]
    exact restates_restored rebinds _ _
  · rw [same]
    exact lengths'
  · rw [same]
    exact contents'
  · have like := resembles_restored m₀ wf lengths rebinds g₀.toRegistry
    rw [← same] at like
    exact ⟨like, fun threads => reached.sameAnswers made like threads plain⟩

theorem recovers_interleaved {factory : Factory Float} {pair quadratic : String}
    (first : factory.classes.find? (·.2.kind = (Sample.pair [(0.5 : Float)]).kind) = some (pair, pairClass))
    (second : factory.classes.find? (·.2.kind = (Sample.quadratic [(1 : Float), 2]).kind) =
      some (quadratic, quadraticClass)) :
    ∀ b ∈ interleaved.terms, factory.Recovers b.term := by
  rw [show interleaved.terms = [⟨Sample.pair [0.5], [0, 1]⟩, ⟨Sample.quadratic [1, 2], [2]⟩] from rfl,
    List.forall_mem_cons, List.forall_mem_singleton]
  exact ⟨⟨pair, pairClass, Sample.pair [0.5], first, rfl, Term.Equivalent.refl _⟩,
    ⟨quadratic, quadraticClass, Sample.quadratic [1, 2], second, rfl, Term.Equivalent.refl _⟩⟩

theorem recovers_distances : ∀ b ∈ interleaved.terms, distances.Recovers b.term :=
  recovers_interleaved rfl rfl

theorem taught_distances : distances.Taught :=
  .teach (.teach .empty pairClass (some "pair")) quadraticClass none

theorem interleaved_read_written : ∃ text whole m' g, interleaved.write storedArrays (some distances) = .ok text ∧
    (Reading.objective distances).run ⟨text.toList ++ "rest".toList, storedArrays, ofThreads 1⟩ =
      (.ok (whole, g.vars.map Variable.storage), ⟨"rest".toList, m', g⟩) ∧
    interleaved.Restates g.toRegistry ∧ interleaved.Resembles g.toRegistry storedArrays m' := by
  obtain ⟨refused, read⟩ := Reachable.read_written_iff_count (m := storedArrays) reachable_interleaved taught_distances
    recovers_distances (by decide +kernel) (by decide +kernel) (by decide +kernel)
  have ok : (interleaved.write storedArrays (some distances)).isOk = true := by decide +kernel
  obtain ⟨text, wrote⟩ := exists_of_isOk ok
  obtain ⟨-, read⟩ := read text wrote (ofThreads 1) storedArrays "rest".toList
    (.new (show new? 1 = .ok (ofThreads 1) from rfl))
  obtain ⟨whole, m', g, ran, restates, -, -, like⟩ := read (by decide +kernel)
  exact ⟨text, whole, m', g, wrote, ran, restates, (like (by decide +kernel)).1⟩

def resizedArrays (sizes : List (Handle × Nat)) : Memory Float :=
  sizes.foldl (fun m p => ((m.resize p.1 p.2).toOption).getD m) storedArrays

def twoLines : Factory Float := (Factory.empty.teach pairClass (some "two\nlines")).teach quadraticClass none

/-- Texts that are written and not read: one under a name of two lines, one with a number too many. And one from two
arrays of other sizes with the same sum, which is read with other numbers for the variables. -/
theorem written_unread : Reachable interleaved ∧
    (twoLines.Taught ∧ (∀ b ∈ interleaved.terms, twoLines.Recovers b.term) ∧
      ∃ text, (interleaved.write storedArrays (some twoLines)).toOption = some text ∧
        ((Reading.objective twoLines).run ⟨text.toList, storedArrays, ofThreads 1⟩).1.isOk = false) ∧
    distances.Taught ∧ (∀ b ∈ interleaved.terms, distances.Recovers b.term) ∧
      (∃ text, (interleaved.write (resizedArrays [(⟨1⟩, 2)]) (some distances)).toOption = some text ∧
        ((Reading.objective distances).run ⟨text.toList, storedArrays, ofThreads 1⟩).1.isOk = false) ∧
      ∃ text, (interleaved.write (resizedArrays [(⟨1⟩, 2), (⟨2⟩, 1)]) (some distances)).toOption = some text ∧
        let read := (Reading.objective distances).run ⟨text.toList, storedArrays, ofThreads 1⟩
        read.1.isOk = true ∧
          interleaved.ordered.map (fun v => (resizedArrays [(⟨1⟩, 2), (⟨2⟩, 1)]).load v.storage) =
            [[0.25, 0], [1], [7]] ∧
          read.2.objective.vars.map (fun v => read.2.memory.load v.storage) = [[0.25], [0, 1], [7]] := by
  refine ⟨reachable_interleaved, ⟨.teach (.teach .empty pairClass _) quadraticClass none,
    recovers_interleaved rfl rfl, ?named⟩, taught_distances, recovers_distances, ?longer, ?shifted⟩
  case named =>
    exact ⟨((interleaved.write storedArrays (some twoLines)).toOption).getD "", by decide +kernel,
      by decide +kernel⟩
  case longer =>
    exact ⟨((interleaved.write (resizedArrays [(⟨1⟩, 2)]) (some distances)).toOption).getD "",
      by decide +kernel, by decide +kernel⟩
  case shifted =>
    exact ⟨((interleaved.write (resizedArrays [(⟨1⟩, 2), (⟨2⟩, 1)]) (some distances)).toOption).getD "",
      by decide +kernel, by decide +kernel⟩

end Objective

end Descent
