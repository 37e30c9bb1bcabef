import Mathlib
import Descent.Proofs.Evaluation.Sparsity
import Descent.Proofs.Evaluation.Transfer

namespace Descent

variable {α : Type}

def Variable.Covers (v : Variable α) (size i : Nat) : Prop := v.globalIndex ≤ i ∧ i < v.globalIndex + size

instance (v : Variable α) (size i : Nat) : Decidable (v.Covers size i) := inferInstanceAs (Decidable (_ ∧ _))

namespace Registry

variable {r : Registry α} {i j : Nat}

def Meets (r : Registry α) (size : Variable α → Nat) (i j : Nat) : Prop :=
  ∃ b ∈ r.terms, ∃ v ∈ r.arguments b, ∃ w ∈ r.arguments b,
    v.isConstant = false ∧ w.isConstant = false ∧ v.Covers (size v) i ∧ w.Covers (size w) j

instance (r : Registry α) (size : Variable α → Nat) (i j : Nat) : Decidable (r.Meets size i j) :=
  inferInstanceAs (Decidable (∃ b ∈ r.terms, ∃ v ∈ r.arguments b, ∃ w ∈ r.arguments b,
    v.isConstant = false ∧ w.isConstant = false ∧ v.Covers (size v) i ∧ w.Covers (size w) j))

theorem exists_freeArgument {b : Binding α} {v : Variable α} :
    (∃ k, (k, v) ∈ r.freeArguments b) ↔ v ∈ r.arguments b ∧ v.isConstant = false := by
  rw [List.mem_iff_getElem?, ← exists_and_right]
  exact exists_congr fun k => mem_freeArguments

theorem mem_pairPositions {v w : Variable α} :
    ((i, j) ∈ (List.range v.userDimension).flatMap fun row =>
      (List.range w.userDimension).map fun column => (v.globalIndex + row, w.globalIndex + column)) ↔
      v.Covers v.userDimension i ∧ w.Covers w.userDimension j := by
  simp only [List.mem_flatMap, List.mem_map, List.mem_range, Prod.mk.injEq]
  constructor
  · rintro ⟨row, inside, column, inside', rfl, rfl⟩
    exact ⟨⟨Nat.le_add_right .., by omega⟩, ⟨Nat.le_add_right .., by omega⟩⟩
  · rintro ⟨⟨below, above⟩, ⟨below', above'⟩⟩
    exact ⟨i - v.globalIndex, by omega, j - w.globalIndex, by omega, by omega, by omega⟩

theorem mem_entryPositions : (i, j) ∈ r.entryPositions ↔ r.Meets Variable.userDimension i j := by
  rw [entryPositions, List.mem_flatMap]
  refine exists_congr fun b => and_congr_right fun _ => ?_
  rw [List.mem_flatMap]
  constructor
  · rintro ⟨⟨⟨k, v⟩, ⟨l, w⟩⟩, pair, inside⟩
    obtain ⟨first, second⟩ := mem_freePairs.1 pair
    obtain ⟨argument, free⟩ := exists_freeArgument.1 ⟨k, first⟩
    obtain ⟨argument', free'⟩ := exists_freeArgument.1 ⟨l, second⟩
    exact ⟨v, argument, w, argument', free, free', mem_pairPositions.1 inside⟩
  · rintro ⟨v, argument, w, argument', free, free', covered⟩
    obtain ⟨k, first⟩ := exists_freeArgument.2 ⟨argument, free⟩
    obtain ⟨l, second⟩ := exists_freeArgument.2 ⟨argument', free'⟩
    exact ⟨((k, v), (l, w)), mem_freePairs.2 ⟨first, second⟩, mem_pairPositions.2 covered⟩

theorem Meets.mono {size size' : Variable α → Nat} (fits : ∀ v ∈ r.vars, v.isConstant = false → size v ≤ size' v)
    (meets : r.Meets size i j) : r.Meets size' i j := by
  obtain ⟨b, known, v, argument, w, argument', free, free', ⟨below, above⟩, ⟨below', above'⟩⟩ := meets
  have wider := fits v (mem_vars argument) free
  have wider' := fits w (mem_vars argument') free'
  exact ⟨b, known, v, argument, w, argument', free, free', ⟨below, by omega⟩, ⟨below', by omega⟩⟩

/-! ## Positions beyond the matrix -/

theorem sparseMatrix_beyond [Scalar α] {n : Nat} {positions : List (Nat × Nat)} {p : Nat × Nat}
    (member : p ∈ positions) (beyond : n ≤ p.1) (values : List α) :
    ∃ last, n ≤ last ∧ sparseMatrix n positions values = .error (.beyondMatrix 0 last n) := by
  have last := beyond.trans (le_foldl_max (List.mem_cons_of_mem 0 (List.mem_map_of_mem (f := (·.1)) member)))
  have some : positions.isEmpty = false := by
    cases positions with
    | nil => cases member
    | cons => rfl
  refine ⟨_, last, ?_⟩
  rw [sparseMatrix, some, if_pos (by simp [last])]
  rfl

end Registry

namespace Objective

variable [Scalar α] {f : Objective α} {m : Memory α}

section

variable (reached : Reachable f)

include reached

theorem pattern_of_within (within : ∀ b ∈ f.terms, ∀ v ∈ f.arguments b, v.isConstant = false →
      v.globalIndex + v.userDimension ≤ f.scalars) :
    ∃ pattern, (f.ask m .pattern).1 = .ok (.pattern pattern) ∧
      ∀ i j, (i, j) ∈ pattern.positions ↔ f.Meets Variable.userDimension i.val j.val := by
  have inside : ∀ p ∈ f.entryPositions, p.1 < f.scalars ∧ p.2 < f.scalars := by
    intro p member
    obtain ⟨b, known, v, argument, w, argument', free, free', ⟨-, below⟩, ⟨-, below'⟩⟩ :=
      Registry.mem_entryPositions.1 member
    exact ⟨below.trans_le (within b known v argument free), below'.trans_le (within b known w argument' free')⟩
  have built := Registry.sparseMatrix_eq inside (f.entryPositions.map fun _ => (1 : α))
  refine ⟨_, (reached.ask_eq m .pattern).trans (congrArg (Answer.pattern <$> ·) built), fun i j => ?_⟩
  rw [Sparse.mem_positions_ofTriplets, Registry.map_position_zip (by rw [List.length_map]),
    Registry.mem_entryPositions]

theorem pattern_of_beyond {b : Binding α} (known : b ∈ f.terms) {v : Variable α} (argument : v ∈ f.arguments b)
    (free : v.isConstant = false) (beyond : f.scalars < v.globalIndex + v.userDimension) :
    ∃ last, f.scalars ≤ last ∧ (f.ask m .pattern).1 = .error (.beyondMatrix 0 last f.scalars) := by
  have some := (reached.wellFormed.vars v (Registry.mem_vars argument)).user_pos
  have covered : v.Covers v.userDimension (v.globalIndex + v.userDimension - 1) := ⟨by omega, by omega⟩
  have stored := Registry.mem_entryPositions.2 ⟨b, known, v, argument, v, argument, free, free, covered, covered⟩
  obtain ⟨last, above, failed⟩ := Registry.sparseMatrix_beyond stored (Nat.le_sub_one_of_lt beyond)
    (f.entryPositions.map fun _ => (1 : α))
  refine ⟨last, above, ?_⟩
  rw [reached.ask_eq, Query.meaning, Registry.patternMeaning, failed]
  rfl

/-- The pattern reaches from the places of the variables as far as their user coordinates, and fails where these
reach beyond the matrix. Where no free variable has more user coordinates than solver coordinates, it succeeds
and stays within the scalars that are coupled by a term. -/
theorem Reachable.pattern_reaches :
    ((∀ b ∈ f.terms, ∀ v ∈ f.arguments b, v.isConstant = false →
        v.globalIndex + v.userDimension ≤ f.scalars) →
      ∃ pattern, (f.ask m .pattern).1 = .ok (.pattern pattern) ∧
        ∀ i j, (i, j) ∈ pattern.positions ↔ f.Meets Variable.userDimension i.val j.val) ∧
    (∀ b ∈ f.terms, ∀ v ∈ f.arguments b, v.isConstant = false →
      f.scalars < v.globalIndex + v.userDimension →
        ∃ last, f.scalars ≤ last ∧ (f.ask m .pattern).1 = .error (.beyondMatrix 0 last f.scalars)) ∧
    ((∀ v ∈ f.vars, v.isConstant = false → v.userDimension ≤ v.solverDimension) →
      ∃ pattern, (f.ask m .pattern).1 = .ok (.pattern pattern) ∧
        ∀ i j, (i, j) ∈ pattern.positions → f.Meets Variable.solverDimension i.val j.val) := by
  refine ⟨pattern_of_within reached, fun b known v argument free beyond =>
    pattern_of_beyond reached known argument free beyond, fun narrow => ?_⟩
  have within : ∀ b ∈ f.terms, ∀ v ∈ f.arguments b, v.isConstant = false →
      v.globalIndex + v.userDimension ≤ f.scalars := by
    intro b _ v argument free
    have member := Registry.mem_vars argument
    have last := reached.wellFormed.tiles_free.le_stop (List.mem_filter.2 ⟨member, by simp [free]⟩)
    exact (Nat.add_le_add_left (narrow v member free) _).trans last
  obtain ⟨pattern, asked, stored⟩ := pattern_of_within reached (m := m) within
  exact ⟨pattern, asked, fun i j member => ((stored i j).1 member).mono narrow⟩

end

theorem splitProduct_pattern : ∃ pattern, (splitProduct.ask threeNumbers .pattern).1 = .ok (.pattern pattern) ∧
    ∀ i j, (i, j) ∈ pattern.positions → splitProduct.Meets Variable.solverDimension i.val j.val := by
  have vars : splitProduct.vars = [⟨⟨0⟩, 1, 2, 0, false, some Sample.splitChange⟩,
    ⟨⟨1⟩, 1, 1, 3, true, none⟩, ⟨⟨2⟩, 1, 1, 2, false, none⟩] := rfl
  refine (Reachable.pattern_reaches reachable_splitProduct).2.2 ?_
  rw [vars]
  simp

def angleAlone : Objective Float :=
  let apply (f : Objective Float) (c : Mutation Float) := (c.edit.run threeArrays f).2
  [.addVariable ⟨0⟩ 2 (some Sample.angleChange),
    .addTerm (.term (Sample.quadratic [1, 0])) [⟨0⟩]].foldl apply (ofThreads 1)

def angleAndNumber : Objective Float :=
  ((Mutation.addTerm (.term (Sample.quadratic [0])) [⟨1⟩]).edit.run threeArrays angleAlone).2

theorem reachable_angleAlone : Reachable angleAlone :=
  .step (.step (.new (show new? 1 = .ok (ofThreads 1) from rfl))
    (.mutate (c := .addVariable ⟨0⟩ 2 (some Sample.angleChange)) Nat.one_pos threeArrays))
    (.mutate (c := .addTerm (.term _) _) trivial threeArrays)

theorem reachable_angleAndNumber : Reachable angleAndNumber :=
  .step reachable_angleAlone (.mutate (c := .addTerm (.term _) _) trivial threeArrays)

/-- The second user coordinate of a unit vector is taken for the scalar behind its angle: for the number there,
or for one beyond the matrix. -/
theorem angle_pattern_overhangs :
    (Reachable angleAndNumber ∧ ∃ pattern, (angleAndNumber.ask threeArrays .pattern).1 = .ok (.pattern pattern) ∧
      ∃ i j, (i, j) ∈ pattern.positions ∧ ¬angleAndNumber.Meets Variable.solverDimension i.val j.val) ∧
    Reachable angleAlone ∧ (angleAlone.ask threeArrays .pattern).1 = .error (.beyondMatrix 0 1 1) := by
  refine ⟨⟨reachable_angleAndNumber, ?_⟩, reachable_angleAlone, rfl⟩
  have within : ∀ b ∈ angleAndNumber.terms, ∀ v ∈ angleAndNumber.arguments b, v.isConstant = false →
      v.globalIndex + v.userDimension ≤ angleAndNumber.scalars := by decide +kernel
  obtain ⟨pattern, asked, stored⟩ := pattern_of_within reachable_angleAndNumber (m := threeArrays) within
  exact ⟨pattern, asked, ⟨0, Nat.two_pos⟩, ⟨1, Nat.one_lt_two⟩, (stored _ _).2 (by decide +kernel),
    by decide +kernel⟩

end Objective

end Descent
