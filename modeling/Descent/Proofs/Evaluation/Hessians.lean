import Descent.Proofs.Evaluation.Reports

/-!
# Hessians as sums

Where sums are exact, a Hessian has in each place the sum of the second derivatives that the terms report
for it, pair by pair of their free arguments (`get_matrix`), in dense and in sparse storage.

Together with the sums for values and gradients this is what evaluations of reachable objectives give, for
any number of threads (`Reachable.evaluates_to_sums`).
-/

namespace Descent

variable {α : Type}

def Hessian.get [Scalar α] {n : Nat} : Hessian α n → Fin n → Fin n → α
  | .dense matrix => matrix.get
  | .sparse matrix => matrix.get

theorem getD_map_range {β : Type} (f : Nat → β) (size i : Nat) (default : β) :
    ((List.range size).map f).getD i default = if i < size then f i else default := by
  by_cases inside : i < size <;> simp [List.getD_eq_getElem?_getD, inside]

namespace Registry

section

variable {r : Registry α}

theorem mem_freeArguments {b : Binding α} {k : Nat} {v : Variable α} :
    (k, v) ∈ r.freeArguments b ↔ (r.arguments b)[k]? = some v ∧ v.isConstant = false := by
  simp only [freeArguments, List.mem_map, List.mem_filter, Prod.exists, Prod.mk.injEq]
  constructor
  · rintro ⟨w, l, ⟨member, free⟩, rfl, rfl⟩
    exact ⟨List.mem_zipIdx_iff_getElem?.1 member, by simpa using free⟩
  · rintro ⟨argument, free⟩
    exact ⟨v, k, ⟨List.mem_zipIdx_iff_getElem?.2 argument, by simpa using free⟩, rfl, rfl⟩

theorem mem_freePairs {b : Binding α} {a a' : Nat × Variable α} :
    (a, a') ∈ r.freePairs b ↔ a ∈ r.freeArguments b ∧ a' ∈ r.freeArguments b := by
  simp [freePairs]

theorem block_reportedBlocks {b : Binding α} {k l : Nat} {v w : Variable α}
    (at_k : (r.arguments b)[k]? = some v) (at_l : (r.arguments b)[l]? = some w)
    (filled : Derivatives α) : block (r.reportedBlocks b filled) k l =
      (List.range v.userDimension).map fun i =>
        (List.range w.userDimension).map (filled.hessian k l i) := by
  simp [block, reportedBlocks, List.getD_eq_getElem?_getD, at_k, at_l]

end

variable [ExactSums α] {r : Registry α} {m : Memory α} {x : List α} {request : Request}

namespace Report

variable (report : Report r m x request)

def pairPart (b : Binding α) (i j : Nat) : (Nat × Variable α) × (Nat × Variable α) → α
  | ((k, v), (l, w)) =>
      if (v.globalIndex ≤ i ∧ i < v.globalIndex + v.userDimension) ∧
          w.globalIndex ≤ j ∧ j < w.globalIndex + w.userDimension then
        (report.derivatives b).hessian k l (i - v.globalIndex) (j - w.globalIndex)
      else 0

def curvature (i j : Nat) : α :=
  (r.terms.map fun b => ((r.freePairs b).map (report.pairPart b i j)).sum).sum

def blocks : List (TermBlocks α) := r.terms.map fun b => r.reportedBlocks b (report.derivatives b)

def matrix : (sparse : Bool) → Hessian α r.scalars
  | false => .dense (r.denseHessian report.blocks)
  | true => .sparse (.ofTriplets ((r.entryPositions.zip (r.entryValues report.blocks)).map
      fun ((i, j), v) => ⟨i, j, v⟩))

theorem zip_blocks : r.terms.zip report.blocks =
    r.terms.map fun b => (b, r.reportedBlocks b (report.derivatives b)) := by
  rw [blocks]
  generalize r.terms = bs
  induction bs with
  | nil => rfl
  | cons b rest ih => rw [List.map_cons, List.zip_cons_cons, ih, List.map_cons]

theorem blockPart_eq {b : Binding α} {k l : Nat} {v w : Variable α}
    (pair : ((k, v), (l, w)) ∈ r.freePairs b) (i j : Nat) :
    blockPart v.globalIndex w.globalIndex
        (block (r.reportedBlocks b (report.derivatives b)) k l) i j =
      report.pairPart b i j ((k, v), (l, w)) := by
  obtain ⟨first, second⟩ := mem_freePairs.1 pair
  rw [block_reportedBlocks (mem_freeArguments.1 first).1 (mem_freeArguments.1 second).1, blockPart,
    pairPart]
  by_cases inside : (v.globalIndex ≤ i ∧ i < v.globalIndex + v.userDimension) ∧
      w.globalIndex ≤ j ∧ j < w.globalIndex + w.userDimension
  · obtain ⟨⟨above, below⟩, left, right⟩ := inside
    rw [if_pos ⟨above, left⟩, if_pos ⟨⟨above, below⟩, left, right⟩, getD_map_range, if_pos (by omega),
      getD_map_range, if_pos (by omega)]
  · rw [if_neg inside]
    split
    · rw [getD_map_range]
      split
      · rw [getD_map_range, if_neg (by omega)]
      · rfl
    · rfl

theorem get_addBlocks (b : Binding α) (i j : Fin r.scalars) (h : Dense α r.scalars r.scalars) :
    (r.addBlocks h b (r.reportedBlocks b (report.derivatives b))).get i j =
      h.get i j + ((r.freePairs b).map (report.pairPart b i j)).sum := by
  have added := read_foldl (fun h : Dense α r.scalars r.scalars => h.get i j)
    (fun h (pair : (Nat × Variable α) × (Nat × Variable α)) => Dense.get_addBlock h
      pair.1.2.globalIndex pair.2.2.globalIndex
      (block (r.reportedBlocks b (report.derivatives b)) pair.1.1 pair.2.1) i j) (r.freePairs b) h
  refine added.trans ?_
  congr 2
  exact List.map_congr_left fun ((k, v), (l, w)) pair => report.blockPart_eq pair i j

theorem get_denseHessian (i j : Fin r.scalars) :
    (r.denseHessian report.blocks).get i j = report.curvature i j := by
  rw [denseHessian, report.zip_blocks, List.foldl_map]
  have added := read_foldl (fun h : Dense α r.scalars r.scalars => h.get i j)
    (fun h b => report.get_addBlocks b i j h) r.terms .zero
  rw [Dense.get_zero, zero_add] at added
  exact added

def pairTriplets (b : Binding α) : (Nat × Variable α) × (Nat × Variable α) → List (Triplet α)
  | ((k, v), (l, w)) => (List.range v.userDimension).flatMap fun i =>
      (List.range w.userDimension).map fun j =>
        ⟨v.globalIndex + i, w.globalIndex + j, (report.derivatives b).hessian k l i j⟩

def triplets : List (Triplet α) :=
  r.terms.flatMap fun b => (r.freePairs b).flatMap (report.pairTriplets b)

theorem entryPositions_eq : r.entryPositions = report.triplets.map fun t => (t.row, t.column) := by
  simp only [entryPositions, triplets, List.map_flatMap]
  congr 1
  funext b
  congr 1
  funext ((k, v), (l, w))
  simp [pairTriplets, List.map_flatMap, Function.comp_def]

theorem entryValues_eq : r.entryValues report.blocks = report.triplets.map (·.value) := by
  simp only [entryValues, report.zip_blocks, List.flatMap_map, triplets, List.map_flatMap]
  congr 1
  funext b
  apply List.flatMap_congr
  rintro ⟨⟨k, v⟩, ⟨l, w⟩⟩ pair
  obtain ⟨first, second⟩ := mem_freePairs.1 pair
  rw [block_reportedBlocks (mem_freeArguments.1 first).1 (mem_freeArguments.1 second).1]
  simp [pairTriplets, Function.comp_def, List.flatMap_def]

theorem zip_entries : ((r.entryPositions.zip (r.entryValues report.blocks)).map
    fun ((i, j), v) => (⟨i, j, v⟩ : Triplet α)) = report.triplets := by
  rw [report.entryPositions_eq, report.entryValues_eq, List.zip_map', List.map_map]
  exact List.map_id _

theorem sum_pairTriplets (b : Binding α) (i j : Nat)
    (pair : (Nat × Variable α) × (Nat × Variable α)) :
    ((report.pairTriplets b pair).map (Sparse.tripletPart i j)).sum = report.pairPart b i j pair := by
  obtain ⟨⟨k, v⟩, ⟨l, w⟩⟩ := pair
  have row (i' : Nat) : (((List.range w.userDimension).map fun j' => (⟨v.globalIndex + i',
      w.globalIndex + j', (report.derivatives b).hessian k l i' j'⟩ : Triplet α)).map
        (Sparse.tripletPart i j)).sum = if v.globalIndex + i' = i then
          if w.globalIndex ≤ j ∧ j < w.globalIndex + w.userDimension then
            (report.derivatives b).hessian k l i' (j - w.globalIndex) else 0
        else 0 := by
    rw [List.map_map]
    by_cases here : v.globalIndex + i' = i
    · rw [if_pos here, ← sum_range_offset]
      simp [Function.comp_def, Sparse.tripletPart, here]
    · simp [Function.comp_def, Sparse.tripletPart, here]
  rw [pairTriplets, sum_flatMap]
  simp only [row, sum_range_offset, pairPart, ite_and]

theorem get_matrix (sparse : Bool) (i j : Fin r.scalars) :
    (report.matrix sparse).get i j = report.curvature i j := by
  cases sparse with
  | false => exact report.get_denseHessian i j
  | true =>
      rw [matrix, Hessian.get, Sparse.get_ofTriplets, report.zip_entries, triplets, sum_flatMap,
        curvature]
      simp only [sum_flatMap, sum_pairTriplets]

end Report

omit [ExactSums α] in
theorem foldl_max_lt {sizes : List Nat} {start n : Nat} (first : start < n)
    (below : ∀ size ∈ sizes, size < n) : sizes.foldl max start < n := by
  induction sizes generalizing start with
  | nil => exact first
  | cons size rest ih =>
      exact ih (Nat.max_lt.2 ⟨first, below size List.mem_cons_self⟩) fun other member =>
        below other (List.mem_cons_of_mem _ member)

omit [ExactSums α] in
theorem sparseMatrix_eq [Scalar α] {n : Nat} {positions : List (Nat × Nat)}
    (inside : ∀ p ∈ positions, p.1 < n ∧ p.2 < n) (values : List α) :
    sparseMatrix n positions values =
      .ok (.ofTriplets ((positions.zip values).map fun ((i, j), v) => ⟨i, j, v⟩)) := by
  cases positions with
  | nil => rfl
  | cons p rest =>
      have positive : 0 < n := Nat.zero_lt_of_lt (inside p List.mem_cons_self).1
      have row : ((p :: rest).map (·.1)).foldl max 0 < n :=
        foldl_max_lt positive (List.forall_mem_map.2 fun q member => (inside q member).1)
      have column : ((p :: rest).map (·.2)).foldl max 0 < n :=
        foldl_max_lt positive (List.forall_mem_map.2 fun q member => (inside q member).2)
      simp only [sparseMatrix, List.isEmpty_cons, Nat.not_le.2 row, Nat.not_le.2 column]
      rfl

omit [ExactSums α] in
theorem plain_of_checkHessian (able : r.checkHessian = .ok ()) {v : Variable α} (member : v ∈ r.vars)
    (free : v.isConstant = false) : v.change = none := by
  by_contra changed
  have found : r.vars.any (fun v => !v.isConstant && v.change.isSome) = true :=
    List.any_eq_true.2 ⟨v, member, by simp [free, Option.isSome_iff_ne_none.2 changed]⟩
  unfold checkHessian at able
  rw [if_pos found] at able
  cases enabled : r.hessianEnabled <;> rw [enabled] at able <;> cases able

omit [ExactSums α] in
theorem entryPositions_lt (wf : r.WellFormed) (able : r.checkHessian = .ok ()) :
    ∀ p ∈ r.entryPositions, p.1 < r.scalars ∧ p.2 < r.scalars := by
  have bound {b : Binding α} {k i : Nat} {v : Variable α} (argument : (k, v) ∈ r.freeArguments b)
      (inside : i < v.userDimension) : v.globalIndex + i < r.scalars := by
    obtain ⟨at_k, free⟩ := mem_freeArguments.1 argument
    have member := mem_vars (List.mem_of_getElem? at_k)
    have size := (wf.vars v member).unchanged (plain_of_checkHessian able member free)
    have last := wf.tiles_free.le_stop (List.mem_filter.2 ⟨member, by simp [free]⟩)
    omega
  intro p member
  simp only [entryPositions, List.mem_flatMap, List.mem_map, List.mem_range] at member
  obtain ⟨b, -, ⟨⟨k, v⟩, ⟨l, w⟩⟩, pair, i, row, j, column, rfl⟩ := member
  obtain ⟨first, second⟩ := mem_freePairs.1 pair
  exact ⟨bound first row, bound second column⟩

theorem hessianMeaning_eq (wf : r.WellFormed) (report : Report r m x .hessian)
    (size : x.length = r.scalars) (able : r.checkHessian = .ok ()) (sparse : Bool) :
    r.hessianMeaning m x sparse = .ok (report.total, report.gradient, report.matrix sparse) := by
  have checked : r.checkPoint x = .ok () := by simp [checkPoint, size]
  have derived : Request.hessian ≠ .value := by decide
  have blocks : r.termBlocks (r.vars.map report.point) = report.blocks :=
    List.map_congr_left fun b member => by rw [report.jet_eq member]
  rw [hessianMeaning]
  simp only [able, checked, ok_bind, report.pointLocals_eq, totalValue_workerSums report derived,
    totalGradient_workerSums report derived, blocks]
  cases sparse with
  | false => rfl
  | true =>
      simp only [↓reduceIte, sparseMatrix_eq (entryPositions_lt wf able), map_ok, ok_bind]
      rfl

def Report.withThreads (report : Report r m x request) (threads : Nat) :
    Report { r with threads } m x request :=
  ⟨report.point, report.value, report.derivatives, report.carry, report.seen, report.evaluated,
    report.carried⟩

end Registry

namespace Objective

open Registry

def withThreads (f : Objective α) (threads : Nat) : Objective α := { f with threads }.invalidate

theorem Reachable.withThreads [Scalar α] {f : Objective α} (reached : Reachable f) {threads : Nat}
    (positive : 0 < threads) : Reachable (f.withThreads threads) := by
  have run : (setThreads (threads : Int)).run .empty f = (.ok (), f.withThreads threads) := by
    have above : ¬(threads : Int) ≤ 0 := by omega
    simp only [setThreads, above, ↓reduceIte, Edit.run_modify, Int.toNat_natCast,
      Objective.withThreads]
  have step : Step f ((Mutation.setThreads (threads : Int)).edit.run .empty f).2 :=
    .mutate (c := .setThreads threads) trivial .empty
  rw [Mutation.edit, run] at step
  exact reached.step step

variable [ExactSums α] {f : Objective α} {m : Memory α} {x : List α}

theorem Reachable.ask_value (reached : Reachable f) (size : x.length = f.scalars)
    (report : Report f.toRegistry m x .value) :
    (f.ask m (.value (some x))).1 = .ok (.number report.total) := by
  rw [reached.ask_eq, Query.meaning, valueMeaning_eq report size, map_ok]

theorem Reachable.ask_gradient (reached : Reachable f) (size : x.length = f.scalars)
    (report : Report f.toRegistry m x .gradient) :
    (f.ask m (.gradient x)).1 = .ok (.gradient report.total report.gradient) := by
  rw [reached.ask_eq, Query.meaning, gradientMeaning_eq report size, map_ok]

theorem Reachable.ask_hessian (reached : Reachable f) (size : x.length = f.scalars)
    (able : f.checkHessian = .ok ()) (report : Report f.toRegistry m x .hessian) (sparse : Bool) :
    (f.ask m (.hessian x sparse)).1 =
      .ok (.hessian report.total report.gradient (report.matrix sparse)) := by
  rw [reached.ask_eq, Query.meaning, hessianMeaning_eq reached.wellFormed report size able, map_ok]

/-- Where sums are exact and neither a term nor a change of variables fails, the value of a reachable
objective is the constant plus the values of all terms, each free variable has in its slice of the gradient
the sum of what is reported for it, and each entry of a Hessian is the sum of what is reported for it.
The number of threads does not matter. -/
theorem Reachable.evaluates_to_sums (reached : Reachable f) (size : x.length = f.scalars)
    {threads : Nat} (positive : 0 < threads) :
    (∀ report : Report f.toRegistry m x .value,
      (f.ask m (.value (some x))).1 = .ok (.number report.total) ∧
        ((f.withThreads threads).ask m (.value (some x))).1 = .ok (.number report.total)) ∧
    (∀ report : Report f.toRegistry m x .gradient, ∃ g : Vector α f.scalars,
      (f.ask m (.gradient x)).1 = .ok (.gradient report.total g) ∧
        ((f.withThreads threads).ask m (.gradient x)).1 = .ok (.gradient report.total g) ∧
        ∀ (i : Nat) (v : Variable α), f.vars[i]? = some v → v.isConstant = false →
          ∀ c < v.solverDimension, g[v.globalIndex + c]? = some (report.slope i v c)) ∧
    (f.checkHessian = .ok () → ∀ (report : Report f.toRegistry m x .hessian) (sparse : Bool),
      ∃ (g : Vector α f.scalars) (h : Hessian α f.scalars),
        (f.ask m (.hessian x sparse)).1 = .ok (.hessian report.total g h) ∧
          ((f.withThreads threads).ask m (.hessian x sparse)).1 =
            .ok (.hessian report.total g h) ∧
          (∀ (i : Nat) (v : Variable α), f.vars[i]? = some v → v.isConstant = false →
            ∀ c < v.solverDimension, g[v.globalIndex + c]? = some (report.slope i v c)) ∧
          ∀ i j, h.get i j = report.curvature i.val j.val) := by
  have wf := reached.wellFormed
  have shared := reached.withThreads positive
  refine ⟨fun report => ⟨?_, ?_⟩, fun report => ⟨report.gradient, ?_, ?_, ?_⟩,
    fun able report sparse => ⟨report.gradient, report.matrix sparse, ?_, ?_, ?_, ?_⟩⟩
  · exact reached.ask_value size report
  · exact shared.ask_value size (report.withThreads threads)
  · exact reached.ask_gradient size report
  · exact shared.ask_gradient size (report.withThreads threads)
  · exact fun i v at_i free c inside => getElem?_gradient wf report (by decide) at_i free inside
  · exact reached.ask_hessian size able report sparse
  · exact shared.ask_hessian size able (report.withThreads threads) sparse
  · exact fun i v at_i free c inside => getElem?_gradient wf report (by decide) at_i free inside
  · exact report.get_matrix sparse

def mixedArrays : Memory ℚ where
  objects := [.array .double [2] 0 0, .array .double [1] 1 0, .array .double [1] 2 0]
  blocks := [[0, 0], [4], [0]]

/-- `1 / 2 + a * k + 2 * b ^ 2 + 3 * c * b + c ^ 2` for a pair `(a, b)`, a constant `k`, and `c`, which may have
other coordinates. Two workers share the three terms. -/
def mixed (change : Option (Change ℚ)) : Objective ℚ :=
  let apply (f : Objective ℚ) (c : Mutation ℚ) := (c.edit.run mixedArrays f).2
  [.addVariable ⟨2⟩ 1 change,
    .addTerm (.term (Sample.polynomial [2, 1] [(1, [(0, 0), (1, 0)]), (2, [(0, 1), (0, 1)])])) [⟨0⟩, ⟨1⟩],
    .setConstant ⟨1⟩ true,
    .addTerm (.term (Sample.polynomial [1, 2] [(3, [(0, 0), (1, 1)])])) [⟨2⟩, ⟨0⟩],
    .addTerm (.term (Sample.polynomial [1, 1] [(1, [(0, 0), (1, 0)])])) [⟨2⟩, ⟨2⟩],
    .add (.number (1 / 2))].foldl apply (ofThreads 2)

theorem reachable_mixed (change : Option (Change ℚ))
    (positive : (Mutation.addVariable ⟨2⟩ 1 change).Positive) : Reachable (mixed change) := by
  refine .step (.step (.step (.step (.step (.step (.new (show new? 2 = .ok (ofThreads 2) from rfl))
    (.mutate positive mixedArrays)) (.mutate (c := .addTerm _ _) ?_ mixedArrays))
    (.mutate (c := .setConstant _ _) ?_ mixedArrays)) (.mutate (c := .addTerm _ _) ?_ mixedArrays))
    (.mutate (c := .addTerm _ _) ?_ mixedArrays)) (.mutate (c := .add (.number (1 / 2))) ?_ mixedArrays)
  all_goals trivial

def mixedReport : Report (mixed none).toRegistry mixedArrays [3, 1, 2] .hessian :=
  .ofOk (by decide +kernel) (by decide +kernel) (by decide +kernel)

def splitReport : Report (mixed (some Sample.splitChange)).toRegistry mixedArrays [1, 2, 1, 2] .gradient :=
  .ofOk (by decide +kernel) (by decide +kernel) (by decide +kernel)

theorem mixed_evaluates_to_sums :
    (∃ (g : Vector ℚ (mixed none).scalars) (h : Hessian ℚ (mixed none).scalars),
      ((mixed none).ask mixedArrays (.hessian [3, 1, 2] true)).1 = .ok (.hessian (79 / 2) g h) ∧
        (((mixed none).withThreads 3).ask mixedArrays (.hessian [3, 1, 2] true)).1 =
          .ok (.hessian (79 / 2) g h) ∧
        g[0]? = some 12 ∧ g[1]? = some 4 ∧ g[2]? = some 17 ∧
        ∀ i j, h.get i j = ([[2, 0, 3], [0, 0, 0], [3, 0, 4]].getD i.val []).getD j.val 0) ∧
    ∃ g : Vector ℚ (mixed (some Sample.splitChange)).scalars,
      ((mixed (some Sample.splitChange)).ask mixedArrays (.gradient [1, 2, 1, 2])).1 = .ok (.gradient (79 / 2) g) ∧
        (((mixed (some Sample.splitChange)).withThreads 1).ask mixedArrays (.gradient [1, 2, 1, 2])).1 =
          .ok (.gradient (79 / 2) g) ∧
        g[0]? = some 12 ∧ g[1]? = some 12 ∧ g[3]? = some 17 := by
  obtain ⟨-, -, hessians⟩ := Reachable.evaluates_to_sums (reachable_mixed none trivial)
    (m := mixedArrays) (x := [3, 1, 2]) rfl (show 0 < 3 by decide)
  obtain ⟨-, gradients, -⟩ := Reachable.evaluates_to_sums (m := mixedArrays) (x := [1, 2, 1, 2])
    (reachable_mixed (some Sample.splitChange) Nat.two_pos) rfl Nat.one_pos
  obtain ⟨g, h, run, run', slices, entries⟩ := hessians rfl mixedReport true
  obtain ⟨g', split, split', slices'⟩ := gradients splitReport
  have total : mixedReport.total = 79 / 2 := by decide +kernel
  have total' : splitReport.total = 79 / 2 := by decide +kernel
  rw [total] at run run'
  rw [total'] at split split'
  have curvature : ∀ i < 3, ∀ j < 3, mixedReport.curvature i j =
      ([[2, 0, 3], [0, 0, 0], [3, 0, 4]].getD i []).getD j 0 := by decide +kernel
  constructor
  · refine ⟨g, h, run, run', ?_, ?_, ?_, fun i j => (entries i j).trans (curvature i i.isLt j j.isLt)⟩
    · have slope : mixedReport.slope 0 ⟨⟨2⟩, 1, 1, 0, false, none⟩ 0 = 12 := by decide +kernel
      exact slope ▸ slices 0 _ rfl rfl 0 Nat.one_pos
    · have slope : mixedReport.slope 1 ⟨⟨0⟩, 2, 2, 1, false, none⟩ 0 = 4 := by decide +kernel
      exact slope ▸ slices 1 _ rfl rfl 0 Nat.two_pos
    · have slope : mixedReport.slope 1 ⟨⟨0⟩, 2, 2, 1, false, none⟩ 1 = 17 := by decide +kernel
      exact slope ▸ slices 1 _ rfl rfl 1 Nat.one_lt_two
  · refine ⟨g', split, split', ?_, ?_, ?_⟩
    · have slope : splitReport.slope 0 ⟨⟨2⟩, 1, 2, 0, false, some Sample.splitChange⟩ 0 = 12 := by decide +kernel
      exact slope ▸ slices' 0 _ rfl rfl 0 Nat.two_pos
    · have slope : splitReport.slope 0 ⟨⟨2⟩, 1, 2, 0, false, some Sample.splitChange⟩ 1 = 12 := by decide +kernel
      exact slope ▸ slices' 0 _ rfl rfl 1 Nat.one_lt_two
    · have slope : splitReport.slope 1 ⟨⟨0⟩, 2, 2, 2, false, none⟩ 1 = 17 := by decide +kernel
      exact slope ▸ slices' 1 _ rfl rfl 1 Nat.one_lt_two

end Objective

end Descent
