import Mathlib
import Descent.Proofs.Evaluation.Hessians
import Descent.Proofs.Evaluation.Reports
import Descent.Proofs.ExactField

namespace Descent

variable {α : Type}

/-! ## Stored positions -/

namespace Sparse

section

variable [Scalar α] {m n : Nat}

def positions (a : Sparse α m n) : List (Fin m × Fin n) :=
  (List.finRange m).flatMap fun i => (a.rows.get i).map fun e => (i, e.1)

omit [Scalar α] in
theorem mem_positions {a : Sparse α m n} {i : Fin m} {j : Fin n} :
    (i, j) ∈ a.positions ↔ j ∈ (a.rows.get i).map (·.1) := by
  simp [positions]

theorem mem_columns_addToRow {c j : Fin n} {v : α} {row : List (Fin n × α)} :
    j ∈ (addToRow c v row).map (·.1) ↔ j = c ∨ j ∈ row.map (·.1) := by
  induction row with
  | nil => simp [addToRow]
  | cons first rest ih =>
      obtain ⟨c', v'⟩ := first
      simp only [addToRow]
      split_ifs with before same
      · simp
      · simp [same]
      · rw [List.map_cons, List.mem_cons, ih, List.map_cons, List.mem_cons]
        exact or_left_comm

theorem mem_positions_add {a : Sparse α m n} {row i : Fin m} {column j : Fin n} {v : α} :
    (i, j) ∈ (a.add row column v).positions ↔ (row = i ∧ column = j) ∨ (i, j) ∈ a.positions := by
  rw [mem_positions, mem_positions, add, Vec.get_put]
  by_cases same : row = i
  · subst same
    rw [if_pos rfl, mem_columns_addToRow]
    simp [eq_comm]
  · simp [same]

theorem mem_positions_ofTriplets {triplets : List (Triplet α)} {i : Fin m} {j : Fin n} :
    (i, j) ∈ (ofTriplets triplets : Sparse α m n).positions ↔
      (i.val, j.val) ∈ triplets.map fun t => (t.row, t.column) := by
  suffices general : ∀ a : Sparse α m n, (i, j) ∈ (triplets.foldl (fun a t =>
      if h : t.row < m ∧ t.column < n then a.add ⟨t.row, h.1⟩ ⟨t.column, h.2⟩ t.value else a)
        a).positions ↔
      (i.val, j.val) ∈ (triplets.map fun t => (t.row, t.column)) ∨ (i, j) ∈ a.positions by
    have none : (i, j) ∉ (empty : Sparse α m n).positions := by
      simp [mem_positions, empty, Vec.get_eq_getElem]
    rw [ofTriplets, general empty, or_iff_left none]
  induction triplets with
  | nil => simp
  | cons t rest ih =>
      intro a
      rw [List.foldl_cons, ih, List.map_cons, List.mem_cons, or_assoc, or_left_comm]
      refine or_congr_right ?_
      by_cases inside : t.row < m ∧ t.column < n
      · rw [dif_pos inside, mem_positions_add]
        simp [Fin.ext_iff, eq_comm]
      · have outside : (i.val, j.val) ≠ (t.row, t.column) := by
          intro same
          obtain ⟨row, column⟩ := Prod.mk.inj same
          exact inside ⟨row ▸ i.isLt, column ▸ j.isLt⟩
        rw [dif_neg inside, or_iff_right outside]

end

variable [ExactSums α] {m n : Nat}

theorem ordered_ofTriplets (triplets : List (Triplet α)) (i : Fin m) :
    Ordered ((ofTriplets triplets : Sparse α m n).rows.get i) := by
  suffices general : ∀ a : Sparse α m n, (∀ i, Ordered (a.rows.get i)) →
      Ordered ((triplets.foldl (fun a t => if h : t.row < m ∧ t.column < n then
        a.add ⟨t.row, h.1⟩ ⟨t.column, h.2⟩ t.value else a) a).rows.get i) by
    refine general empty fun i => ?_
    rw [empty, Vec.get_eq_getElem, Vector.getElem_replicate]
    exact List.Pairwise.nil
  induction triplets with
  | nil => exact fun a ordered => ordered i
  | cons t rest ih =>
      intro a ordered
      rw [List.foldl_cons]
      by_cases inside : t.row < m ∧ t.column < n
      · rw [dif_pos inside]
        exact ih _ (ordered_add ordered _ _ _)
      · rw [dif_neg inside]
        exact ih a ordered

omit [ExactSums α] in
theorem nodup_positions {a : Sparse α m n} (ordered : ∀ i, Ordered (a.rows.get i)) :
    a.positions.Nodup := by
  rw [positions, List.nodup_flatMap]
  refine ⟨fun i _ => ?_, (List.nodup_finRange m).imp fun {i i'} other => ?_⟩
  · rw [List.Nodup, List.pairwise_map]
    exact (ordered i).imp fun before => by simp [before.ne]
  · intro p member member'
    obtain ⟨e, -, rfl⟩ := List.mem_map.1 member
    obtain ⟨e', -, same⟩ := List.mem_map.1 member'
    exact other (congrArg Prod.fst same).symm

omit [ExactSums α] in
theorem positions_eq {a b : Sparse α m n} (ordered : ∀ i, Ordered (a.rows.get i))
    (ordered' : ∀ i, Ordered (b.rows.get i))
    (same : ∀ i j, (i, j) ∈ a.positions ↔ (i, j) ∈ b.positions) : a.positions = b.positions := by
  rw [positions, positions]
  congr 1
  funext i
  have columns : (a.rows.get i).map (·.1) = (b.rows.get i).map (·.1) := by
    refine List.Pairwise.eq_of_mem_iff (r := (· < ·)) (List.pairwise_map.2 (ordered i))
      (List.pairwise_map.2 (ordered' i)) fun j => ?_
    rw [← mem_positions, ← mem_positions, same]
  have paired := congrArg (List.map fun j => (i, j)) columns
  simpa only [List.map_map, Function.comp_def] using paired

theorem mem_positions_of_get_ne_zero {a : Sparse α m n} {i : Fin m} {j : Fin n}
    (nonzero : a.get i j ≠ 0) : (i, j) ∈ a.positions := by
  by_contra missing
  rw [mem_positions] at missing
  have none : (a.rows.get i).find? (·.1 = j) = none := by
    rw [List.find?_eq_none]
    rintro e member
    simpa using fun here : e.1 = j => missing (here ▸ List.mem_map_of_mem member)
  exact nonzero (by rw [get, none])

end Sparse

/-! ## Contributions -/

structure Contribution (α : Type) where
  term : Nat
  first : Nat × Variable α
  second : Nat × Variable α
  row : Nat
  column : Nat

namespace Contribution

def position (c : Contribution α) : Nat × Nat :=
  (c.first.2.globalIndex + c.row, c.second.2.globalIndex + c.column)

def value [Zero α] (blocks : List (TermBlocks α)) (c : Contribution α) : α :=
  Buffer.entry (Registry.block (blocks.getD c.term []) c.first.1 c.second.1) c.row c.column

end Contribution

namespace Registry

section

variable (r : Registry α)

def pairContributions (t : Nat) (first second : Nat × Variable α) : List (Contribution α) :=
  (List.range first.2.userDimension).flatMap fun row =>
    (List.range second.2.userDimension).map fun column => ⟨t, first, second, row, column⟩

def contributions : List (Contribution α) :=
  r.terms.zipIdx.flatMap fun (b, t) =>
    (r.freePairs b).flatMap fun (first, second) => pairContributions t first second

theorem flatMap_zipIdx_fst {β γ : Type} (l : List β) (f : β → List γ) (k : Nat) :
    ((l.zipIdx k).flatMap fun (b, _) => f b) = l.flatMap f := by
  rw [← List.flatMap_map Prod.fst f, List.zipIdx_map_fst]

theorem entryPositions_eq_map : r.entryPositions = r.contributions.map Contribution.position := by
  rw [contributions, List.map_flatMap, entryPositions, ← flatMap_zipIdx_fst _ _ 0]
  refine List.flatMap_congr ?_
  rintro ⟨b, t⟩ -
  rw [List.map_flatMap]
  refine List.flatMap_congr ?_
  rintro ⟨⟨k, v⟩, ⟨l, w⟩⟩ -
  simp [pairContributions, Contribution.position, List.map_flatMap, Function.comp_def]

theorem length_pairContributions (t : Nat) (first second : Nat × Variable α) :
    (pairContributions t first second).length =
      first.2.userDimension * second.2.userDimension := by
  simp [pairContributions, List.length_flatMap]

theorem freeDimension_eq_sum (b : Binding α) :
    r.freeDimension b = ((r.freeArguments b).map fun a => a.2.userDimension).sum := by
  rw [freeDimension]
  generalize r.freeArguments b = arguments
  induction arguments with
  | nil => rfl
  | cons a rest ih => rw [List.foldr_cons, ih, List.map_cons, List.sum_cons]

theorem length_termContributions (b : Binding α) (t : Nat) :
    ((r.freePairs b).flatMap fun (first, second) => pairContributions t first second).length =
      r.freeDimension b * r.freeDimension b := by
  simp only [freePairs, List.flatMap_assoc, List.flatMap_map, List.length_flatMap,
    length_pairContributions, List.sum_map_mul_left, List.sum_map_mul_right, freeDimension_eq_sum]

theorem length_contributions : r.contributions.length = r.hessianElements := by
  have counted (bs : List (Binding α)) (k : Nat) :
      ((bs.zipIdx k).map fun (b, _) => r.freeDimension b * r.freeDimension b).sum =
        bs.foldr (fun b total => r.freeDimension b * r.freeDimension b + total) 0 := by
    induction bs generalizing k with
    | nil => rfl
    | cons b rest ih => rw [List.zipIdx_cons, List.map_cons, List.sum_cons, ih, List.foldr_cons]
  rw [contributions, hessianElements, List.length_flatMap, ← counted r.terms 0]
  simp only [length_termContributions]

end

variable [ExactSums α] {r : Registry α} {m : Memory α} {x : List α}

theorem Report.value_eq (report : Report r m x .hessian) {b : Binding α} {t : Nat}
    (at_t : r.terms[t]? = some b) {first second : Nat × Variable α}
    (pair : (first, second) ∈ r.freePairs b) {row column : Nat}
    (inside : row < first.2.userDimension) (inside' : column < second.2.userDimension) :
    Contribution.value report.blocks ⟨t, first, second, row, column⟩ =
      (report.derivatives b).hessian first.1 second.1 row column := by
  obtain ⟨k, v⟩ := first
  obtain ⟨l, w⟩ := second
  obtain ⟨first, second⟩ := mem_freePairs.1 pair
  have filled : report.blocks.getD t [] = r.reportedBlocks b (report.derivatives b) := by
    simp [Report.blocks, List.getD_eq_getElem?_getD, at_t]
  simp only [Contribution.value, filled, Buffer.entry,
    block_reportedBlocks (mem_freeArguments.1 first).1 (mem_freeArguments.1 second).1,
    getD_map_range, inside, inside', ↓reduceIte]

theorem Report.entryValues_eq_map (report : Report r m x .hessian) :
    r.entryValues report.blocks = r.contributions.map (Contribution.value report.blocks) := by
  rw [report.entryValues_eq, triplets, contributions, List.map_flatMap, List.map_flatMap,
    ← flatMap_zipIdx_fst _ _ 0]
  refine List.flatMap_congr ?_
  rintro ⟨b, t⟩ member
  dsimp only
  rw [List.map_flatMap, List.map_flatMap]
  refine List.flatMap_congr ?_
  rintro ⟨⟨k, v⟩, ⟨l, w⟩⟩ pair
  simp only [pairTriplets, pairContributions, List.map_flatMap, List.map_map]
  refine List.flatMap_congr fun row inside => List.map_congr_left fun column inside' => ?_
  exact (report.value_eq (List.mem_zipIdx_iff_getElem?.1 member) pair (List.mem_range.1 inside)
    (List.mem_range.1 inside')).symm

/-! ## Positions -/

omit [ExactSums α] in
theorem map_position_zip {positions : List (Nat × Nat)} {values : List α}
    (lengths : positions.length ≤ values.length) :
    ((positions.zip values).map fun ((i, j), v) => (⟨i, j, v⟩ : Triplet α)).map
      (fun t => (t.row, t.column)) = positions := by
  rw [List.map_map]
  exact List.map_fst_zip lengths

omit [ExactSums α] in
theorem length_entryPositions : r.entryPositions.length = r.hessianElements := by
  rw [entryPositions_eq_map, List.length_map, length_contributions]

theorem Report.length_entryValues (report : Report r m x .hessian) :
    (r.entryValues report.blocks).length = r.hessianElements := by
  rw [report.entryValues_eq_map, List.length_map, length_contributions]

def sparseOf (r : Registry α) (values : List α) : Sparse α r.scalars r.scalars :=
  .ofTriplets ((r.entryPositions.zip values).map fun ((i, j), v) => ⟨i, j, v⟩)

theorem mem_positions_sparseOf {values : List α} (lengths : values.length = r.hessianElements)
    {i j : Fin r.scalars} :
    (i, j) ∈ (r.sparseOf values).positions ↔ (i.val, j.val) ∈ r.entryPositions := by
  rw [sparseOf, Sparse.mem_positions_ofTriplets,
    map_position_zip (by rw [length_entryPositions, lengths])]

theorem positions_sparseOf {values values' : List α} (lengths : values.length = r.hessianElements)
    (lengths' : values'.length = r.hessianElements) :
    (r.sparseOf values).positions = (r.sparseOf values').positions := by
  refine Sparse.positions_eq (Sparse.ordered_ofTriplets _) (Sparse.ordered_ofTriplets _)
    fun i j => ?_
  rw [mem_positions_sparseOf lengths, mem_positions_sparseOf lengths']

theorem length_positions_sparseOf {values : List α} (lengths : values.length = r.hessianElements) :
    (r.sparseOf values).positions.length ≤ r.hessianElements ∧
      (r.sparseOf values).positions.length ≤ r.scalars * r.scalars := by
  have distinct := Sparse.nodup_positions (Sparse.ordered_ofTriplets (m := r.scalars) (n := r.scalars)
    ((r.entryPositions.zip values).map fun ((i, j), v) => ⟨i, j, v⟩))
  constructor
  · have natural : ((r.sparseOf values).positions.map fun p => (p.1.val, p.2.val)).Nodup :=
      distinct.map fun p q same => by
        obtain ⟨row, column⟩ := Prod.mk.inj same
        exact Prod.ext (Fin.ext row) (Fin.ext column)
    have inside : ((r.sparseOf values).positions.map fun p => (p.1.val, p.2.val)) ⊆
        r.entryPositions := by
      intro p member
      obtain ⟨q, stored, rfl⟩ := List.mem_map.1 member
      exact (mem_positions_sparseOf lengths).1 stored
    have counted := (List.subperm_of_subset natural inside).length_le
    rwa [List.length_map, length_entryPositions] at counted
  · have counted := distinct.length_le_card
    rwa [Fintype.card_prod, Fintype.card_fin] at counted

end Registry

namespace Objective

open Registry

structure Assembled (w : Workspace α) (r : Registry α) [Zero α] (positions : List (Nat × Nat))
    (values : List α) : Prop where
  pattern : w.pattern = some positions
  positions_eq : positions = r.contributions.map Contribution.position
  values_eq : ∃ s blocks, w.storage = some s ∧ blocks = s.terms.map (·.blocks.getD []) ∧
    values = r.entryValues blocks ∧ values = r.contributions.map (Contribution.value blocks)
  length_positions : positions.length = w.hessianElements
  length_values : values.length = w.hessianElements

section

variable [ExactSums α] {f : Objective α} {m : Memory α} {x : List α}

theorem Reachable.report_of_hessian (reached : Reachable f) {kind : Bool}
    {answer : Answer α f.scalars} (succeeds : (f.ask m (.hessian x kind)).1 = .ok answer) :
    f.checkHessian = .ok () ∧ x.length = f.scalars ∧
      Nonempty (Report f.toRegistry m x .hessian) := by
  rw [reached.ask_eq, Query.meaning] at succeeds
  cases meant : f.hessianMeaning m x kind with
  | error fault =>
      rw [meant] at succeeds
      cases succeeds
  | ok result =>
      rw [hessianMeaning] at meant
      obtain ⟨_, able, meant⟩ := bind_eq_ok.1 meant
      obtain ⟨_, checked, meant⟩ := bind_eq_ok.1 meant
      obtain ⟨locals, seen, meant⟩ := bind_eq_ok.1 meant
      obtain ⟨value, summed, -⟩ := bind_eq_ok.1 meant
      refine ⟨able, ?_, ?_⟩
      · by_contra other
        rw [checkPoint, if_pos other] at checked
        cases checked
      · cases values : ((f.workerSums .hessian locals x).map (·.1)).mapM id with
        | error fault =>
            rw [values] at summed
            cases summed
        | ok values => exact exists_report seen values

theorem Reachable.assembled (reached : Reachable f) (report : Report f.toRegistry m x .hessian)
    (size : x.length = f.scalars) (able : f.checkHessian = .ok ()) :
    Assembled (f.ask m (.hessian x true)).2.workspace f.toRegistry f.entryPositions
      (f.entryValues report.blocks) := by
  obtain ⟨w, run, -, kept⟩ := run_hessian_kept (m := m) reached.coherent x true
  obtain ⟨locals, s, seen, holds, written, pattern⟩ :=
    kept _ (hessianMeaning_eq reached.wellFormed report size able true)
  have workspace : (f.ask m (.hessian x true)).2.workspace = w := by
    simp only [ask, evaluating, Query.evaluation, Evaluation.run_bind, run,
      hessianMeaning_eq reached.wellFormed report size able]
    rfl
  have blocks : f.termBlocks locals = report.blocks := by
    rw [report.pointLocals_eq] at seen
    obtain rfl := Except.ok.inj seen
    exact List.map_congr_left fun b member => by rw [report.jet_eq member]
  rw [workspace]
  exact {
    pattern := pattern rfl
    positions_eq := entryPositions_eq_map _
    values_eq := ⟨s, report.blocks, holds.storage, by rw [written, blocks], rfl,
      report.entryValues_eq_map⟩
    length_positions := by rw [length_entryPositions, holds.elements]
    length_values := by rw [report.length_entryValues, holds.elements] }

theorem Reachable.ask_pattern (reached : Reachable f) (able : f.checkHessian = .ok ()) :
    (f.ask m .pattern).1 =
      .ok (.pattern (f.sparseOf (f.entryPositions.map fun _ => (1 : α)))) := by
  rw [reached.ask_eq, Query.meaning, patternMeaning,
    sparseMatrix_eq (entryPositions_lt reached.wellFormed able), map_ok]
  rfl

end

section

variable [ExactField α] {f : Objective α} {m : Memory α} {x : List α}

theorem get_pattern (r : Registry α) (i j : Fin r.scalars) :
    (r.sparseOf (r.entryPositions.map fun _ => (1 : α))).get i j =
      r.contributions.countP (·.position = (i.val, j.val)) := by
  simp only [sparseOf, Sparse.get_ofTriplets, entryPositions_eq_map, List.map_map, List.zip_map']
  generalize r.contributions = contributions
  induction contributions with
  | nil => simp
  | cons c rest ih =>
      rw [List.map_cons, List.sum_cons, ih, List.countP_cons, Nat.cast_add, add_comm]
      congr 1
      by_cases here : c.position = (i.val, j.val)
      · simp [Sparse.tripletPart, here]
      · simp [Sparse.tripletPart, here, Prod.ext_iff.not.1 here]

theorem density_bound (r : Registry α) {stored : Nat} (scalars : 0 < r.scalars)
    (elements : stored ≤ r.hessianElements) (square : stored ≤ r.scalars * r.scalars) :
    (stored : α) / (r.scalars * r.scalars : ℕ) ≤ r.densityMeaning := by
  have positive : (0 : α) < (r.scalars * r.scalars : ℕ) :=
    Nat.cast_pos.2 (Nat.mul_pos scalars scalars)
  rw [densityMeaning, if_neg scalars.ne', ExactField.ofNat_eq, ExactField.ofNat_eq, Scalar.smaller]
  split
  · exact div_le_div_of_nonneg_right (Nat.cast_le.2 elements) positive.le
  · exact (div_le_one positive).2 (Nat.cast_le.2 square)

/-- Where one evaluation of the Hessian succeeds, the dense and the sparse one agree. -/
theorem Reachable.dense_sparse (reached : Reachable f) {kind : Bool} {answer : Answer α f.scalars}
    (succeeds : (f.ask m (.hessian x kind)).1 = .ok answer) :
    ∃ (value : α) (gradient : Vector α f.scalars) (dense : Dense α f.scalars f.scalars)
      (sparse pattern : Sparse α f.scalars f.scalars) (density : α)
      (positions : List (Nat × Nat)) (values : List α),
      (f.ask m (.hessian x false)).1 = .ok (.hessian value gradient (.dense dense)) ∧
      (f.ask m (.hessian x true)).1 = .ok (.hessian value gradient (.sparse sparse)) ∧
      (f.ask m .pattern).1 = .ok (.pattern pattern) ∧
      (f.ask m .density).1 = .ok (.number density) ∧
      (∀ i j, sparse.get i j = dense.get i j) ∧
      Assembled (f.ask m (.hessian x true)).2.workspace f.toRegistry positions values ∧
      sparse = .ofTriplets ((positions.zip values).map fun ((i, j), v) => ⟨i, j, v⟩) ∧
      sparse.positions = pattern.positions ∧
      (∀ i j, pattern.get i j = f.contributions.countP (·.position = (i.val, j.val))) ∧
      (∀ i j, dense.get i j ≠ 0 → (i, j) ∈ sparse.positions) ∧
      (0 < f.scalars →
        (sparse.positions.length : α) / (f.scalars * f.scalars : ℕ) ≤ density) := by
  obtain ⟨able, size, ⟨report⟩⟩ := reached.report_of_hessian succeeds
  have agree (i j : Fin f.scalars) : (f.sparseOf (f.entryValues report.blocks)).get i j =
      (f.denseHessian report.blocks).get i j :=
    (report.get_matrix true i j).trans (report.get_matrix false i j).symm
  have ones : (f.entryPositions.map fun _ => (1 : α)).length = f.hessianElements := by
    rw [List.length_map, length_entryPositions]
  have stored := length_positions_sparseOf report.length_entryValues
  exact ⟨report.total, report.gradient, f.denseHessian report.blocks,
    f.sparseOf (f.entryValues report.blocks), f.sparseOf (f.entryPositions.map fun _ => 1),
    f.densityMeaning, f.entryPositions, f.entryValues report.blocks,
    reached.ask_hessian size able report false, reached.ask_hessian size able report true,
    reached.ask_pattern able, reached.ask_eq m .density, agree,
    reached.assembled report size able, rfl, positions_sparseOf report.length_entryValues ones,
    get_pattern f.toRegistry,
    fun i j nonzero => Sparse.mem_positions_of_get_ne_zero (agree i j ▸ nonzero),
    fun scalars => density_bound f.toRegistry scalars stored.1 stored.2⟩

theorem mixed_dense_sparse :
    ∃ (g : Vector ℚ (mixed none).scalars) (dense : Dense ℚ (mixed none).scalars (mixed none).scalars)
      (sparse pattern : Sparse ℚ (mixed none).scalars (mixed none).scalars),
      ((mixed none).ask mixedArrays (.hessian [3, 1, 2] false)).1 = .ok (.hessian (79 / 2) g (.dense dense)) ∧
        ((mixed none).ask mixedArrays (.hessian [3, 1, 2] true)).1 =
          .ok (.hessian (79 / 2) g (.sparse sparse)) ∧
        ((mixed none).ask mixedArrays .pattern).1 = .ok (.pattern pattern) ∧
        ((mixed none).ask mixedArrays (.hessian [3, 1, 2] true)).2.workspace.hessianElements = 17 ∧
        (∀ i j, sparse.get i j = ([[2, 0, 3], [0, 0, 0], [3, 0, 4]].getD i.val []).getD j.val 0) ∧
        (∀ i j, pattern.get i j = ([[5, 1, 1], [1, 2, 2], [1, 2, 2]].getD i.val []).getD j.val 0) ∧
        sparse.positions = pattern.positions := by
  have reached := reachable_mixed none trivial
  have reported := reached.ask_hessian rfl rfl mixedReport false
  obtain ⟨value, g, dense, sparse, pattern, density, positions, values, run, run', counted, -, agree,
    assembled, -, same, counts, -⟩ := Reachable.dense_sparse reached reported
  rw [reported] at run
  cases run
  have total : mixedReport.total = 79 / 2 := by decide +kernel
  have curvature : ∀ i < 3, ∀ j < 3, mixedReport.curvature i j =
      ([[2, 0, 3], [0, 0, 0], [3, 0, 4]].getD i []).getD j 0 := by decide +kernel
  have contributions : ∀ i < 3, ∀ j < 3, ((mixed none).contributions.countP (·.position = (i, j)) : ℚ) =
      ([[5, 1, 1], [1, 2, 2], [1, 2, 2]].getD i []).getD j 0 := by decide +kernel
  have elements : ((mixed none).contributions.map Contribution.position).length = 17 := by decide +kernel
  refine ⟨_, _, sparse, pattern, total ▸ reported, total ▸ run', counted, ?_, fun i j => ?_, fun i j => ?_, same⟩
  · rw [← assembled.length_positions, assembled.positions_eq, elements]
  · exact (agree i j).trans ((mixedReport.get_matrix false i j).trans (curvature i i.isLt j j.isLt))
  · rw [counts]
    exact contributions i i.isLt j j.isLt

end

end Objective

end Descent
