import Descent.Proofs.Evaluation.Buffers
import Descent.Proofs.Evaluation.Partition
import Descent.Proofs.Registry.WellFormed

namespace Descent

variable {α : Type}

namespace Registry

section

variable [Scalar α] (r : Registry α) (request : Request) (locals : List (List α)) (x : List α)

def jet (b : Binding α) : Except (Fault α) α × Derivatives α :=
  (b.term.evaluate request (seen locals b.positions)).run .zero

def reported (b : Binding α) (filled : Derivatives α) : List (Variable α × List α) :=
  (r.arguments b).mapIdx fun k v => (v, (List.range v.userDimension).map (filled.gradient k))

def reportedBlocks (b : Binding α) (filled : Derivatives α) : TermBlocks α :=
  ((r.arguments b).map Variable.userDimension).mapIdx fun k d =>
    ((r.arguments b).map Variable.userDimension).mapIdx fun l e =>
      (List.range d).map fun i => (List.range e).map (filled.hessian k l i)

def termSum (b : Binding α) (gradient : List α) : Except (Fault α) α × List α :=
  match jet request locals b with
  | (.error fault, _) => (.error fault, gradient)
  | (.ok value, filled) =>
      let (added, gradient) := addGradients x (r.reported b filled) gradient
      (added.map fun _ => value, gradient)

def chunkSum : List (Binding α) → α → List α → Except (Fault α) α × List α
  | [], total, gradient => (.ok total, gradient)
  | b :: rest, total, gradient =>
      match r.termSum request locals x b gradient with
      | (.error fault, gradient) => (.error fault, gradient)
      | (.ok value, gradient) => chunkSum rest (total + value) gradient

def workerSum (chunk : Nat × Nat) : Except (Fault α) α × List α :=
  r.chunkSum request locals x (slice r.terms chunk) 0 (Buffer.zeros (r.scalars + r.constants))

def termBlocks : List (TermBlocks α) :=
  r.terms.map fun b => r.reportedBlocks b (jet .hessian locals b).2

end

end Registry

structure TermStorage.Fits (s : TermStorage α) (r : Registry α) (b : Binding α) : Prop where
  arguments : s.arguments = b.positions
  dimensions : s.dimensions = (r.arguments b).map Variable.userDimension
  blocks : s.blocks.map Buffer.extents = if r.hessianEnabled then
    some (Buffer.blockExtents ((r.arguments b).map Variable.userDimension)) else none

structure Worker.Fits (w : Worker α) (r : Registry α) : Prop where
  gradient : w.gradient.length = r.scalars + r.constants
  scratch : w.scratch.map List.length =
    List.replicate (Registry.largest (r.terms.map (·.positions.length)))
      (Registry.largest (r.vars.map (·.userDimension)))

namespace Registry

variable {r : Registry α}

theorem le_foldl_max {sizes : List Nat} {size start : Nat} (member : size ∈ start :: sizes) :
    size ≤ sizes.foldl max start := by
  induction sizes generalizing size start with
  | nil => simp_all
  | cons next rest ih =>
      rw [List.foldl_cons]
      rcases List.mem_cons.1 member with rfl | member
      · exact (Nat.le_max_left _ _).trans (ih List.mem_cons_self)
      · rcases List.mem_cons.1 member with rfl | member
        · exact (Nat.le_max_right _ _).trans (ih List.mem_cons_self)
        · exact ih (List.mem_cons_of_mem _ member)

theorem le_largest {sizes : List Nat} {size : Nat} (member : size ∈ sizes) :
    size ≤ largest sizes :=
  le_foldl_max (List.mem_cons_of_mem _ member)

variable [Scalar α] (request : Request) (locals : List (List α)) (x : List α)

omit [Scalar α] in
theorem readRows_scratch {w : Worker α} (ready : w.Fits r) {b : Binding α} (member : b ∈ r.terms)
    {scratch : List (List α)} (lengths : scratch.map List.length = w.scratch.map List.length)
    (entry : Nat → Nat → α) :
    Buffer.readRows ((r.arguments b).map Variable.userDimension)
        (Buffer.writeRows ((r.arguments b).map Variable.userDimension) entry scratch) =
      ((r.arguments b).map Variable.userDimension).mapIdx fun k d => (List.range d).map (entry k) := by
  rw [ready.scratch] at lengths
  apply Buffer.readRows_writeRows
  · have size : scratch.length = largest (r.terms.map (·.positions.length)) := by
      simpa using congrArg List.length lengths
    have arity : b.positions.length ≤ largest (r.terms.map (·.positions.length)) :=
      le_largest (List.mem_map_of_mem member)
    rw [List.length_map, size]
    exact (List.length_filterMap_le _ _).trans arity
  · intro d dimension row member
    obtain ⟨v, argument, rfl⟩ := List.mem_map.1 dimension
    have length : row.length ∈ scratch.map List.length := List.mem_map_of_mem member
    rw [lengths] at length
    rw [(List.mem_replicate.1 length).2]
    exact le_largest (List.mem_map_of_mem (mem_vars argument))

theorem length_addAt (offset : Nat) (values entries : List α) :
    (addAt offset values entries).length = entries.length := by
  induction entries generalizing offset values with
  | nil => cases offset <;> cases values <;> rfl
  | cons e rest ih =>
      cases offset with
      | zero =>
          cases values with
          | nil => rfl
          | cons v values => simp [addAt, ih]
      | succ offset => simp [addAt, ih]

theorem length_addGradients (x : List α) (parts : List (Variable α × List α)) (gradient : List α) :
    (addGradients x parts gradient).2.length = gradient.length := by
  induction parts generalizing gradient with
  | nil => rfl
  | cons part rest ih =>
      simp only [addGradients]
      split
      · exact ih gradient
      · split
        · rfl
        · rw [ih, length_addAt]

omit [Scalar α] in
theorem fits_writeTermBlocks {s : TermStorage α} {b : Binding α} (fits : s.Fits r b)
    (request : Request) (entry : Nat → Nat → Nat → Nat → α) :
    (writeTermBlocks request entry s).Fits r b := by
  unfold writeTermBlocks
  split
  · refine ⟨fits.arguments, fits.dimensions, ?_⟩
    rw [← fits.blocks]
    cases s.blocks <;> simp [Buffer.extents_writeBlocks]
  · exact fits

omit [Scalar α] in
theorem blocks_writeTermBlocks {s : TermStorage α} {b : Binding α} (fits : s.Fits r b)
    (enabled : r.hessianEnabled = true) (filled : Derivatives α) :
    (writeTermBlocks .hessian filled.hessian s).blocks = some (r.reportedBlocks b filled) := by
  have extents := fits.blocks
  rw [if_pos enabled, Option.map_eq_some_iff] at extents
  obtain ⟨blocks, here, extents⟩ := extents
  simp only [writeTermBlocks, ↓reduceIte, here, Option.map_some, Buffer.writeBlocks_eq extents,
    reportedBlocks]

omit [Scalar α] in
theorem zip_reported (b : Binding α) (filled : Derivatives α) :
    (r.arguments b).zip (((r.arguments b).map Variable.userDimension).mapIdx fun k d =>
      (List.range d).map (filled.gradient k)) = r.reported b filled := by
  apply List.ext_getElem <;> simp [reported]

omit [Scalar α] in
theorem mem_reported {b : Binding α} {k : Nat} {v : Variable α}
    (argument : (r.arguments b)[k]? = some v) (filled : Derivatives α) :
    (v, (List.range v.userDimension).map (filled.gradient k)) ∈ r.reported b filled := by
  apply List.mem_of_getElem? (i := k)
  rw [reported, List.getElem?_mapIdx, argument, Option.map_some]

theorem evaluateTerm_eq {b : Binding α} (member : b ∈ r.terms) {s : TermStorage α}
    (fits : s.Fits r b) {w : Worker α} (ready : w.Fits r) :
    ∃ s' w', r.evaluateTerm request locals x b s w =
        ((r.termSum request locals x b w.gradient).1, s', w') ∧
      s'.Fits r b ∧ w'.Fits r ∧ w'.chunk = w.chunk ∧
      w'.gradient = (r.termSum request locals x b w.gradient).2 ∧
      (request = .hessian → r.hessianEnabled = true →
        s'.blocks = some (r.reportedBlocks b (jet request locals b).2)) := by
  have zeroed := fits_writeTermBlocks fits request fun _ _ _ _ => 0
  have read := readRows_scratch ready member
    (Buffer.lengths_writeRows ((r.arguments b).map Variable.userDimension) (fun _ _ => 0) w.scratch)
  have reports : (b.term.evaluate request (seen locals b.positions)).run
      ⟨fun _ _ => 0, fun _ _ _ _ => 0⟩ = jet request locals b := rfl
  simp only [evaluateTerm, Buffer.blockEntry_zeroed, zeroed.arguments, zeroed.dimensions,
    fits.dimensions, Buffer.entry_zeroed, reports, termSum]
  rcases jet request locals b with ⟨outcome, filled⟩
  have written := fits_writeTermBlocks zeroed request filled.hessian
  have blocks : request = .hessian → r.hessianEnabled = true →
      (writeTermBlocks request filled.hessian
        (writeTermBlocks request (fun _ _ _ _ => 0) s)).blocks = some (r.reportedBlocks b filled) := by
    rintro rfl enabled
    exact blocks_writeTermBlocks zeroed enabled filled
  cases outcome with
  | error fault =>
      refine ⟨_, _, rfl, written, ⟨ready.gradient, ?_⟩, rfl, rfl, blocks⟩
      rw [Buffer.lengths_writeRows, Buffer.lengths_writeRows, ready.scratch]
  | ok value =>
      simp only [written.dimensions, read, zip_reported]
      refine ⟨_, _, rfl, written, ⟨?_, ?_⟩, rfl, rfl, blocks⟩
      · rw [length_addGradients, ready.gradient]
      · rw [Buffer.lengths_writeRows, Buffer.lengths_writeRows, ready.scratch]

theorem evaluateTerms_eq {bs : List (Binding α)} (members : ∀ b ∈ bs, b ∈ r.terms)
    {ss : List (TermStorage α)} (fits : List.Forall₂ (fun b s => TermStorage.Fits s r b) bs ss)
    (total : α) {w : Worker α} (ready : w.Fits r) :
    ∃ ss' w', r.evaluateTerms request locals x (bs.zip ss) total w =
        ((r.chunkSum request locals x bs total w.gradient).1, ss', w') ∧
      List.Forall₂ (fun b s => TermStorage.Fits s r b) bs ss' ∧ w'.Fits r ∧ w'.chunk = w.chunk ∧
      w'.gradient = (r.chunkSum request locals x bs total w.gradient).2 ∧
      (request = .hessian → r.hessianEnabled = true →
        ∀ value, (r.chunkSum request locals x bs total w.gradient).1 = .ok value →
          ss'.map (·.blocks) = bs.map fun b => some (r.reportedBlocks b (jet request locals b).2)) := by
  induction fits generalizing total w with
  | nil => exact ⟨[], w, rfl, .nil, ready, rfl, rfl, fun _ _ _ _ => rfl⟩
  | @cons b s bs ss here fits ih =>
      obtain ⟨s', w', evaluated, fits', ready', chunk, gradient, blocks⟩ :=
        evaluateTerm_eq request locals x (members b List.mem_cons_self) here ready
      simp only [List.zip_cons_cons, evaluateTerms, evaluated, chunkSum]
      rcases sum : r.termSum request locals x b w.gradient with ⟨fault | value, g⟩
      · rw [sum] at gradient
        have rest : (bs.zip ss).map (·.2) = ss := List.map_snd_zip fits.length_eq.ge
        refine ⟨_, _, rfl, ?_, ready', chunk, gradient, fun _ _ _ failed => nomatch failed⟩
        rw [rest]
        exact .cons fits' fits
      · rw [sum] at gradient
        obtain ⟨ss', w'', evaluated', fits'', ready'', chunk', gradient', blocks'⟩ :=
          ih (fun c member => members c (List.mem_cons_of_mem _ member)) (total + value) ready'
        simp only at gradient
        rw [gradient] at evaluated' gradient' blocks'
        simp only [evaluated']
        refine ⟨_, _, rfl, .cons fits' fits'', ready'', chunk'.trans chunk, gradient', ?_⟩
        intro hessian enabled total' summed
        rw [List.map_cons, List.map_cons, blocks hessian enabled,
          blocks' hessian enabled total' summed]

section Overwriting

variable {β γ : Type}

theorem overwrite_slice (l : List β) (chunk : Nat × Nat) :
    overwrite chunk.1 (slice l chunk) l = l := by
  have tail : l.drop (chunk.1 + (slice l chunk).length) =
      (l.drop chunk.1).drop (chunk.2 - chunk.1) := by
    rw [slice, List.drop_drop, List.length_take, List.length_drop]
    rcases Nat.le_total (chunk.2 - chunk.1) (l.length - chunk.1) with inside | beyond
    · rw [Nat.min_eq_left inside]
    · rw [Nat.min_eq_right beyond, List.drop_of_length_le (by omega),
        List.drop_of_length_le (by omega)]
  rw [overwrite, tail, slice, List.append_assoc, List.take_append_drop, List.take_append_drop]

theorem forall₂_overwrite {R : β → γ → Prop} {l : List β} {l' done : List γ} {chunk : Nat × Nat}
    (all : List.Forall₂ R l l') (some : List.Forall₂ R (slice l chunk) done) :
    List.Forall₂ R l (overwrite chunk.1 done l') := by
  have parts := overwrite_slice l chunk
  rw [← parts, overwrite, overwrite, some.length_eq]
  refine List.rel_append (List.rel_append ?_ some) ?_
  · exact List.forall₂_take _ all
  · exact List.forall₂_drop _ all

theorem slice_zip (l : List β) (l' : List γ) (chunk : Nat × Nat) :
    slice (l.zip l') chunk = (slice l chunk).zip (slice l' chunk) := by
  rw [slice, List.zip, List.drop_zipWith, List.take_zipWith]
  rfl

theorem slice_map (f : β → γ) (l : List β) (chunk : Nat × Nat) :
    (slice l chunk).map f = slice (l.map f) chunk := by
  rw [slice, List.map_take, List.map_drop, slice]

theorem overwrite_map (f : β → γ) (offset : Nat) (values entries : List β) :
    (overwrite offset values entries).map f = overwrite offset (values.map f) (entries.map f) := by
  simp only [overwrite, List.map_append, List.map_take, List.map_drop, List.length_map]

theorem take_overwrite_slice {l l' : List β} {chunk : Nat × Nat} (lengths : l'.length = l.length)
    (order : chunk.1 ≤ chunk.2 ∨ l.length ≤ chunk.2) (front : l'.take chunk.1 = l.take chunk.1) :
    (overwrite chunk.1 (slice l chunk) l').take chunk.2 = l.take chunk.2 := by
  rw [overwrite, front, take_append_slice l order, List.take_append, List.take_take, Nat.min_self,
    List.length_take]
  rcases Nat.le_total chunk.2 l.length with inside | beyond
  · rw [Nat.min_eq_left inside, Nat.sub_self, List.take_zero, List.append_nil]
  · have none : l'.drop (chunk.1 + (slice l chunk).length) = [] := by
      rw [List.drop_eq_nil_iff, slice, List.length_take, List.length_drop]
      omega
    rw [none, List.take_nil, List.append_nil]

end Overwriting

theorem runWorkers_eq {workers : List (Worker α)} (ready : ∀ w ∈ workers, w.Fits r) {first : Nat}
    (covers : Partition.Covers r.terms.length first (workers.map (·.chunk)))
    {ss : List (TermStorage α)}
    (fits : List.Forall₂ (fun b s => TermStorage.Fits s r b) r.terms ss) :
    ∃ workers' ss', r.runWorkers request locals x workers ss =
        (workers.map (fun w => (r.workerSum request locals x w.chunk).1), workers', ss') ∧
      List.Forall₂ (fun b s => TermStorage.Fits s r b) r.terms ss' ∧ (∀ w ∈ workers', w.Fits r) ∧
      workers'.map (·.chunk) = workers.map (·.chunk) ∧
      workers'.map (·.gradient) = workers.map (fun w => (r.workerSum request locals x w.chunk).2) ∧
      (request = .hessian → r.hessianEnabled = true →
        (∀ w ∈ workers, ∃ value, (r.workerSum request locals x w.chunk).1 = .ok value) →
        (ss.map (·.blocks)).take first = ((r.termBlocks locals).map some).take first →
        ss'.map (·.blocks) = (r.termBlocks locals).map some) := by
  -- the blocks before `first` are those of this evaluation, the others may be left from an earlier one
  induction workers generalizing first ss with
  | nil =>
      refine ⟨[], ss, rfl, fits, nofun, rfl, rfl, fun _ _ _ front => ?_⟩
      have reached : r.terms.length ≤ first := covers
      rwa [List.take_of_length_le (by simpa [← fits.length_eq] using reached),
        List.take_of_length_le (by simpa [termBlocks] using reached)] at front
  | cons w rest ih =>
      obtain ⟨rfl, order, covers⟩ := covers
      have here := ready w List.mem_cons_self
      have cleared : Worker.Fits { w with gradient := w.gradient.map fun _ => (0 : α) } r :=
        ⟨by rw [List.length_map, here.gradient], here.scratch⟩
      have zeros : (w.gradient.map fun _ => (0 : α)) = Buffer.zeros (r.scalars + r.constants) := by
        rw [List.map_const', here.gradient, Buffer.zeros]
      have chunkFits : List.Forall₂ (fun b s => TermStorage.Fits s r b) (slice r.terms w.chunk)
          (slice ss w.chunk) := List.forall₂_take _ (List.forall₂_drop _ fits)
      obtain ⟨done, w', evaluated, doneFits, ready', chunk, gradient, blocks⟩ :=
        evaluateTerms_eq request locals x (fun _ => mem_of_mem_slice) chunkFits 0 cleared
      obtain ⟨workers', ss', ran, ssFits, restReady, chunks, gradients, allBlocks⟩ :=
        ih (fun u member => ready u (List.mem_cons_of_mem _ member)) covers
          (forall₂_overwrite fits doneFits)
      rw [zeros] at evaluated gradient blocks
      simp only at chunk
      refine ⟨w' :: workers', ss', ?_, ssFits, ?_, ?_, ?_, ?_⟩
      · simp only [runWorkers, zeros, slice_zip, evaluated, chunk, ran, List.map_cons]
        rfl
      · exact List.forall_mem_cons.2 ⟨ready', restReady⟩
      · rw [List.map_cons, List.map_cons, chunk, chunks]
      · rw [List.map_cons, List.map_cons, gradient, gradients]
        rfl
      · intro hessian enabled succeeded front
        obtain ⟨value, summed⟩ := succeeded w List.mem_cons_self
        have written := blocks hessian enabled value summed
        subst hessian
        have slices : done.map (·.blocks) = slice ((r.termBlocks locals).map some) w.chunk := by
          rw [written, termBlocks, List.map_map, ← slice_map]
          rfl
        refine allBlocks rfl enabled (fun u member => succeeded u (List.mem_cons_of_mem _ member)) ?_
        rw [overwrite_map, slices]
        exact take_overwrite_slice (by simp [termBlocks, fits.length_eq])
          (by simpa [termBlocks] using order) front

end Registry

end Descent
