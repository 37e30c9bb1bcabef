import Descent.Proofs.Computation
import Descent.Proofs.Evaluation.Workers
import Descent.Proofs.Registry.Copy
import Descent.Proofs.Registry.Reachable

/-!
# Caches

Evaluations keep local storage and the pattern of the Hessian. A workspace is coherent if what it keeps was
made from the registry as it is (`Workspace.Coherent`). From any coherent workspace an evaluation gives what
it means (`Query.meaning`), which knows no workspace, and leaves a coherent one (`Query.run_eq`). So an
objective can not be told from its copies, which have evaluated nothing yet (`Reachable.fresh_copy`).
-/

namespace Descent

variable {α : Type}

/-! ## Coherence -/

structure LocalStorage.Fits (s : LocalStorage α) (r : Registry α) : Prop where
  locals : s.locals.length = r.vars.length
  workers : ∀ w ∈ s.workers, w.Fits r
  chunks : s.workers.map (·.chunk) = r.chunks
  terms : List.Forall₂ (fun b t => TermStorage.Fits t r b) r.terms s.terms

namespace Workspace

/-- A workspace with nothing in it that an evaluation with another registry has made. -/
structure Coherent (w : Workspace α) (r : Registry α) : Prop where
  storage : ∀ s, w.storage = some s → s.Fits r ∧ w.hessianElements = r.hessianElements
  pattern : ∀ p, w.pattern = some p → p = r.entryPositions

structure Holds (w : Workspace α) (r : Registry α) (s : LocalStorage α) : Prop where
  storage : w.storage = some s
  fits : s.Fits r
  elements : w.hessianElements = r.hessianElements
  pattern : ∀ p, w.pattern = some p → p = r.entryPositions

variable {w : Workspace α} {r : Registry α} {s : LocalStorage α}

theorem Holds.coherent (holds : w.Holds r s) : w.Coherent r where
  storage s' here := by
    cases holds.storage.symm.trans here
    exact ⟨holds.fits, holds.elements⟩
  pattern := holds.pattern

theorem Holds.store (holds : w.Holds r s) {s' : LocalStorage α} (fits : s'.Fits r) :
    ({ w with storage := some s' } : Workspace α).Holds r s' :=
  ⟨rfl, fits, holds.elements, holds.pattern⟩

theorem Holds.count (holds : w.Holds r s) (without_ with_ : Nat) : Holds { w with
    evaluationsWithoutGradient := without_, evaluationsWithGradient := with_ } r s :=
  ⟨holds.storage, holds.fits, holds.elements, holds.pattern⟩

theorem coherent_unused (r : Registry α) : (unused : Workspace α).Coherent r := ⟨nofun, nofun⟩

theorem coherent_invalidate (w : Workspace α) (r : Registry α) : w.invalidate.Coherent r :=
  ⟨nofun, nofun⟩

theorem Coherent.setConstant (coherent : w.Coherent r) (constant : α) :
    w.Coherent { r with constant } where
  storage s here := by
    obtain ⟨fits, elements⟩ := coherent.storage s here
    refine ⟨⟨fits.locals, fun u member => ?_, fits.chunks, ?_⟩, elements⟩
    · exact ⟨(fits.workers u member).gradient, (fits.workers u member).scratch⟩
    · exact fits.terms.imp fun b t ⟨arguments, dimensions, blocks⟩ => ⟨arguments, dimensions, blocks⟩
  pattern := coherent.pattern

end Workspace

namespace Registry

variable [Scalar α] {r : Registry α}

theorem fits_newStorage (r : Registry α) : r.newStorage.Fits r where
  locals := by simp [newStorage]
  workers w member := by
    obtain ⟨chunk, -, rfl⟩ := List.mem_map.1 member
    exact ⟨by simp [newWorker, Buffer.zeros], by simp [newWorker, Buffer.zeros]⟩
  chunks := by simp [newStorage, newWorker, Function.comp_def]
  terms := by
    rw [newStorage, List.forall₂_map_right_iff, List.forall₂_same]
    intro b _
    refine ⟨rfl, rfl, ?_⟩
    cases enabled : r.hessianEnabled <;> simp [newTermStorage, enabled, Buffer.extents_zeroBlocks]

/-! ## What evaluations mean -/

section

variable (r : Registry α) (m : Memory α)

omit [Scalar α] in
def pointLocals : Option (List α) → Except (Fault α) (List (List α))
  | none => r.vars.mapM (storedValue m)
  | some x => r.vars.mapM (localValue m x)

def chunkTotal (locals : List (List α)) (bs : List (Binding α)) : Except (Fault α) α :=
  bs.foldlM (fun total b => do return total + (← (jet .value locals b).1)) 0

def workerSums (request : Request) (locals : List (List α)) (x : List α) :
    List (Except (Fault α) α × List α) :=
  r.chunks.map (r.workerSum request locals x)

def valueMeaning (x : Option (List α)) : Except (Fault α) α := do
  match x with
  | none => pure ()
  | some x => r.checkPoint x
  let locals ← r.pointLocals m x
  r.totalValue <$> r.chunks.mapM fun chunk => chunkTotal locals (slice r.terms chunk)

def gradientMeaning (x : List α) : Except (Fault α) (α × Vector α r.scalars) := do
  r.checkPoint x
  let locals ← r.pointLocals m (some x)
  let sums := r.workerSums .gradient locals x
  let value ← r.totalValue <$> (sums.map (·.1)).mapM id
  return (value, r.totalGradient (sums.map (·.2)))

def hessianMeaning (x : List α) (sparse : Bool) :
    Except (Fault α) (α × Vector α r.scalars × Hessian α r.scalars) := do
  r.checkHessian
  r.checkPoint x
  let locals ← r.pointLocals m (some x)
  let sums := r.workerSums .hessian locals x
  let value ← r.totalValue <$> (sums.map (·.1)).mapM id
  let matrix ← if sparse then
      .sparse <$> sparseMatrix r.scalars r.entryPositions (r.entryValues (r.termBlocks locals))
    else pure (.dense (r.denseHessian (r.termBlocks locals)))
  return (value, r.totalGradient (sums.map (·.2)), matrix)

def rangeMeaning (box : List (Interval α)) : Except (Fault α) (Interval α) := do
  if box.length ≠ r.scalars then throw (.intervalPointSize box.length r.scalars)
  r.totalRange m box

def patternMeaning : Except (Fault α) (Sparse α r.scalars r.scalars) :=
  sparseMatrix r.scalars r.entryPositions (r.entryPositions.map fun _ => (1 : α))

def densityMeaning : α :=
  if r.scalars = 0 then 0 else Scalar.smaller 1
    (Scalar.ofNat r.hessianElements / Scalar.ofNat (r.scalars * r.scalars))

end

/-! ## Local storage -/

section

variable {m : Memory α} {w : Workspace α} {s : LocalStorage α}

theorem run_prepare_of_holds (holds : w.Holds r s) : r.prepare.run w = (.ok s, w) := by
  simp only [prepare, Evaluation.run_bind, Evaluation.run_get, holds.storage, Evaluation.run_pure]

theorem run_prepare (coherent : w.Coherent r) :
    ∃ s w', r.prepare.run w = (.ok s, w') ∧ w'.Holds r s := by
  cases kept : w.storage with
  | some s =>
      obtain ⟨fits, elements⟩ := coherent.storage s kept
      have holds : w.Holds r s := ⟨kept, fits, elements, coherent.pattern⟩
      exact ⟨s, w, run_prepare_of_holds holds, holds⟩
  | none =>
      simp only [prepare, Evaluation.run_bind, Evaluation.run_get, kept, Evaluation.run_modify,
        Evaluation.run_pure]
      exact ⟨_, _, rfl, rfl, fits_newStorage r, rfl, coherent.pattern⟩

theorem run_inStorage {β : Type} (holds : w.Holds r s)
    (work : LocalStorage α → Except (Fault α) β × LocalStorage α) :
    (r.inStorage work).run w = ((work s).1, { w with storage := some (work s).2 }) := by
  simp only [inStorage, Evaluation.run_bind, run_prepare_of_holds holds, Evaluation.run_modify,
    Evaluation.run_lift]

omit [Scalar α] in
theorem writeLocals_eq (value : Variable α → Except (Fault α) (List α)) {vars : List (Variable α)}
    {locals : List (List α)} (lengths : locals.length = vars.length) :
    (writeLocals value vars locals).1 = (fun _ => ()) <$> vars.mapM value ∧
      (writeLocals value vars locals).2.length = vars.length ∧
      ∀ values, vars.mapM value = .ok values → (writeLocals value vars locals).2 = values := by
  induction vars generalizing locals with
  | nil =>
      obtain rfl := List.length_eq_zero_iff.1 lengths
      exact ⟨rfl, rfl, fun values here => by cases here; rfl⟩
  | cons v rest ih =>
      have tail : locals.tail.length = rest.length := by simp [lengths]
      obtain ⟨outcome, size, written⟩ := ih tail
      simp only [writeLocals, List.mapM_cons]
      cases here : value v with
      | error fault => exact ⟨rfl, lengths, nofun⟩
      | ok values =>
          refine ⟨?_, by simp [size], fun all made => ?_⟩
          · simp only [outcome]
            cases rest.mapM value <;> rfl
          · obtain ⟨_, ⟨⟩, made⟩ := bind_eq_ok.1 made
            obtain ⟨others, remaining, made⟩ := bind_eq_ok.1 made
            cases made
            simp [written others remaining]

theorem run_spread (coherent : w.Coherent r) (x : Option (List α)) :
    ∃ w', (r.spread m x).run w = ((fun _ => ()) <$> r.pointLocals m x, w') ∧ w'.Coherent r ∧
      ∀ locals, r.pointLocals m x = .ok locals → ∃ s, w'.Holds r s ∧ s.locals = locals := by
  obtain ⟨s, w', prepared, holds⟩ := run_prepare coherent
  have work : ∃ value, r.pointLocals m x = r.vars.mapM value ∧ (r.spread m x).run w =
      ((writeLocals value r.vars s.locals).1, { w' with
        storage := some { s with locals := (writeLocals value r.vars s.locals).2 } }) := by
    have spread : (r.spread m x).run w = (r.spread m x).run w' := by
      simp only [Registry.spread, inStorage, Evaluation.run_bind, prepared,
        run_prepare_of_holds holds]
    rw [spread, Registry.spread, run_inStorage holds]
    cases x with
    | none => exact ⟨_, rfl, rfl⟩
    | some x => exact ⟨_, rfl, rfl⟩
  obtain ⟨value, meaning, run⟩ := work
  obtain ⟨outcome, size, written⟩ := writeLocals_eq value holds.fits.locals
  have fits : LocalStorage.Fits { s with locals := (writeLocals value r.vars s.locals).2 } r :=
    ⟨size, holds.fits.workers, holds.fits.chunks, holds.fits.terms⟩
  have holds' := holds.store fits
  refine ⟨_, by rw [run, outcome, meaning], holds'.coherent, fun locals here => ⟨_, holds', ?_⟩⟩
  exact written locals (meaning ▸ here)

/-! ## Values and derivatives -/

theorem chunkValue_eq {locals : List (List α)} {bs : List (Binding α)} {ss : List (TermStorage α)}
    (fits : List.Forall₂ (fun b s => TermStorage.Fits s r b) bs ss) :
    chunkValue locals (bs.zip ss) = chunkTotal locals bs := by
  unfold chunkValue chunkTotal
  generalize (0 : α) = start
  induction fits generalizing start with
  | nil => rfl
  | @cons b s bs ss here fits ih =>
      have value : termValue locals b s = (jet .value locals b).1 := by
        rw [termValue, here.arguments, jet]
      simp only [List.zip_cons_cons, List.foldlM_cons, value]
      cases (jet .value locals b).1 with
      | error fault => rfl
      | ok a => exact ih (start + a)

theorem run_sumValues (holds : w.Holds r s) : r.sumValues.run w =
    (r.totalValue <$> r.chunks.mapM fun chunk => chunkTotal s.locals (slice r.terms chunk), w) := by
  have values : (s.workers.mapM fun u => chunkValue s.locals (slice (r.terms.zip s.terms) u.chunk)) =
      r.chunks.mapM fun chunk => chunkTotal s.locals (slice r.terms chunk) := by
    rw [← holds.fits.chunks, List.mapM_map]
    congr 1
    funext u
    rw [slice_zip]
    exact chunkValue_eq (List.forall₂_take _ (List.forall₂_drop _ holds.fits.terms))
  rw [sumValues, run_inStorage holds, values]
  simp only [← holds.storage]

theorem run_sumDerivatives (holds : w.Holds r s) (request : Request) (x : List α) :
    ∃ s' w', (r.sumDerivatives request x).run w =
        (r.totalValue <$> ((r.workerSums request s.locals x).map (·.1)).mapM id, w') ∧
      w'.Holds r s' ∧ s'.workers.map (·.gradient) = (r.workerSums request s.locals x).map (·.2) ∧
      (request = .hessian → r.hessianEnabled = true →
        ∀ values, ((r.workerSums request s.locals x).map (·.1)).mapM id = .ok values →
          s'.terms.map (·.blocks.getD []) = r.termBlocks s.locals) := by
  have covers : Partition.Covers r.terms.length 0 (s.workers.map (·.chunk)) := by
    rw [holds.fits.chunks]
    exact Partition.covers_chunks (Nat.le_max_left 1 _) r.terms.length
  have sums {γ : Type} (f : Except (Fault α) α × List α → γ) : s.workers.map (fun u =>
      f (r.workerSum request s.locals x u.chunk)) = (r.workerSums request s.locals x).map f := by
    rw [workerSums, ← holds.fits.chunks, List.map_map, List.map_map]
    rfl
  obtain ⟨workers, terms, ran, terms_fit, ready, chunks, gradients, blocks⟩ :=
    runWorkers_eq request s.locals x holds.fits.workers covers
      holds.fits.terms
  rw [sums (·.1)] at ran
  rw [sums (·.2)] at gradients
  have fits : LocalStorage.Fits { s with workers, terms } r :=
    ⟨holds.fits.locals, ready, chunks.trans holds.fits.chunks, terms_fit⟩
  refine ⟨_, _, ?_, holds.store fits, gradients, fun hessian enabled values summed => ?_⟩
  · rw [sumDerivatives, run_inStorage holds]
    simp only [ran]
  · have succeeded : ∀ u ∈ s.workers, ∃ value,
        (r.workerSum request s.locals x u.chunk).1 = .ok value := by
      intro u member
      rw [← sums (·.1)] at summed
      exact mapM_id_ok summed (List.mem_map_of_mem member)
    have written := blocks hessian enabled succeeded rfl
    calc
      terms.map (·.blocks.getD []) = (terms.map (·.blocks)).map (·.getD []) := by
        rw [List.map_map]
        rfl
      _ = r.termBlocks s.locals := by
        rw [written, List.map_map]
        exact List.map_id _

/-! ## Evaluations -/

theorem run_spread_sumValues (coherent : w.Coherent r) (x : Option (List α)) :
    ∃ w', (do r.spread m x; countValue; r.sumValues : Evaluation α α).run w =
        (do
          let locals ← r.pointLocals m x
          r.totalValue <$> r.chunks.mapM fun chunk => chunkTotal locals (slice r.terms chunk), w') ∧
      w'.Coherent r := by
  obtain ⟨w', spread, coherent', stored⟩ := run_spread (m := m) coherent x
  simp only [Evaluation.run_bind, spread]
  cases seen : r.pointLocals m x with
  | error fault => exact ⟨w', rfl, coherent'⟩
  | ok locals =>
      obtain ⟨s, holds, rfl⟩ := stored locals seen
      have counted := holds.count (w'.evaluationsWithoutGradient + 1) w'.evaluationsWithGradient
      exact ⟨_, run_sumValues counted, counted.coherent⟩

theorem run_value (coherent : w.Coherent r) (x : Option (List α)) :
    ∃ w', (r.value m x).run w = (r.valueMeaning m x, w') ∧ w'.Coherent r := by
  obtain ⟨s, w₁, prepared, holds⟩ := run_prepare coherent
  cases x with
  | none =>
      obtain ⟨w', run, coherent'⟩ := run_spread_sumValues (m := m) holds.coherent none
      refine ⟨w', ?_, coherent'⟩
      rw [value, Evaluation.run_bind, prepared]
      exact run
  | some x =>
      rw [value, Evaluation.run_bind, prepared]
      simp only
      rw [Evaluation.run_bind, Evaluation.run_lift, valueMeaning]
      cases checked : r.checkPoint x with
      | error fault => exact ⟨w₁, rfl, holds.coherent⟩
      | ok _ => exact run_spread_sumValues holds.coherent (some x)

theorem run_spread_sumDerivatives (coherent : w.Coherent r) (request : Request) (x : List α) :
    ∃ w', (do r.spread m (some x); countGradient; r.sumDerivatives request x : Evaluation α α).run w =
        (do
          let locals ← r.pointLocals m (some x)
          r.totalValue <$> ((r.workerSums request locals x).map (·.1)).mapM id, w') ∧
      w'.Coherent r ∧ ∀ locals values, r.pointLocals m (some x) = .ok locals →
        ((r.workerSums request locals x).map (·.1)).mapM id = .ok values →
        ∃ s, w'.Holds r s ∧
          s.workers.map (·.gradient) = (r.workerSums request locals x).map (·.2) ∧
          (request = .hessian → r.hessianEnabled = true →
            s.terms.map (·.blocks.getD []) = r.termBlocks locals) := by
  obtain ⟨w₁, spread, coherent', stored⟩ := run_spread (m := m) coherent (some x)
  simp only [Evaluation.run_bind, spread]
  cases seen : r.pointLocals m (some x) with
  | error fault => exact ⟨w₁, rfl, coherent', nofun⟩
  | ok locals =>
      obtain ⟨s, holds, rfl⟩ := stored locals seen
      have counted := holds.count w₁.evaluationsWithoutGradient (w₁.evaluationsWithGradient + 1)
      obtain ⟨s', w₂, summed, holds', gradients, blocks⟩ := run_sumDerivatives counted request x
      refine ⟨w₂, summed, holds'.coherent, ?_⟩
      rintro _ values ⟨⟩ values_eq
      exact ⟨s', holds', gradients, fun hessian enabled => blocks hessian enabled values values_eq⟩

theorem run_gradient (coherent : w.Coherent r) (x : List α) :
    ∃ w', (r.gradient m x).run w = (r.gradientMeaning m x, w') ∧ w'.Coherent r := by
  rw [gradient, gradientMeaning, Evaluation.run_bind, Evaluation.run_lift]
  cases checked : r.checkPoint x with
  | error fault => exact ⟨w, rfl, coherent⟩
  | ok _ =>
      obtain ⟨w', summed, coherent', kept⟩ :=
        run_spread_sumDerivatives (m := m) coherent .gradient x
      refine ⟨w', ?_, coherent'⟩
      simp only [← bind_assoc] at summed ⊢
      rw [Evaluation.run_bind, summed, ok_bind]
      cases seen : r.pointLocals m (some x) with
      | error fault => rfl
      | ok locals =>
          simp only [ok_bind]
          cases values : ((r.workerSums .gradient locals x).map (·.1)).mapM id with
          | error fault => rfl
          | ok _ =>
              obtain ⟨s, holds, gradients, -⟩ := kept locals _ seen values
              simp only [map_ok, ok_bind, Evaluation.run_bind, run_prepare_of_holds holds,
                Evaluation.run_pure, gradients]
              rfl

omit [Scalar α] in
theorem run_pattern (holds : w.Holds r s) :
    ∃ w', (r.pattern : Evaluation α _).run w = (.ok r.entryPositions, w') ∧ w'.Holds r s ∧
      w'.pattern = some r.entryPositions := by
  rw [pattern, Evaluation.run_bind, Evaluation.run_get]
  cases kept : w.pattern with
  | some p =>
      obtain rfl := holds.pattern p kept
      simp only [kept]
      exact ⟨w, rfl, holds, kept⟩
  | none =>
      simp only [kept, Evaluation.run_bind, Evaluation.run_modify, Evaluation.run_pure]
      exact ⟨_, rfl, ⟨holds.storage, holds.fits, holds.elements, fun p here => by cases here; rfl⟩,
        rfl⟩

omit [Scalar α] in
theorem checkHessian_ok (checked : r.checkHessian = .ok ()) : r.hessianEnabled = true := by
  unfold checkHessian at checked
  cases enabled : r.hessianEnabled with
  | true => rfl
  | false =>
      rw [enabled] at checked
      cases checked

theorem run_hessian_kept (coherent : w.Coherent r) (x : List α) (sparse : Bool) :
    ∃ w', (r.hessian m x sparse).run w = (r.hessianMeaning m x sparse, w') ∧ w'.Coherent r ∧
      ∀ result, r.hessianMeaning m x sparse = .ok result → ∃ locals s,
        r.pointLocals m (some x) = .ok locals ∧ w'.Holds r s ∧
        s.terms.map (·.blocks.getD []) = r.termBlocks locals ∧
        (sparse = true → w'.pattern = some r.entryPositions) := by
  rw [hessian, hessianMeaning, Evaluation.run_bind, Evaluation.run_lift]
  cases able : r.checkHessian with
  | error fault => exact ⟨w, rfl, coherent, fun _ failed => by cases failed⟩
  | ok _ =>
  simp only
  rw [Evaluation.run_bind, Evaluation.run_lift]
  cases checked : r.checkPoint x with
  | error fault => exact ⟨w, rfl, coherent, fun _ failed => by cases failed⟩
  | ok _ =>
  obtain ⟨w', summed, coherent', kept⟩ := run_spread_sumDerivatives (m := m) coherent .hessian x
  simp only [← bind_assoc] at summed ⊢
  rw [Evaluation.run_bind, summed]
  simp only [ok_bind]
  cases seen : r.pointLocals m (some x) with
  | error fault => exact ⟨w', rfl, coherent', fun _ failed => by cases failed⟩
  | ok locals =>
  simp only [ok_bind]
  cases values : ((r.workerSums .hessian locals x).map (·.1)).mapM id with
  | error fault => exact ⟨w', rfl, coherent', fun _ failed => by cases failed⟩
  | ok _ =>
  obtain ⟨s, holds, gradients, blocks⟩ := kept locals _ seen values
  have written := blocks rfl (checkHessian_ok able)
  simp only [map_ok, ok_bind, Evaluation.run_bind, run_prepare_of_holds holds, gradients, written]
  cases sparse with
  | false => exact ⟨w', rfl, coherent', fun _ _ => ⟨locals, s, rfl, holds, written, nofun⟩⟩
  | true =>
      obtain ⟨w'', positions, holds', stored⟩ := run_pattern holds
      refine ⟨w'', ?_, holds'.coherent,
        fun _ _ => ⟨locals, s, rfl, holds', written, fun _ => stored⟩⟩
      simp only [↓reduceIte, Evaluation.run_bind, positions, Evaluation.run_lift]
      cases sparseMatrix r.scalars r.entryPositions (r.entryValues (r.termBlocks locals)) <;> rfl

theorem run_hessian (coherent : w.Coherent r) (x : List α) (sparse : Bool) :
    ∃ w', (r.hessian m x sparse).run w = (r.hessianMeaning m x sparse, w') ∧ w'.Coherent r := by
  obtain ⟨w', run, coherent', -⟩ := run_hessian_kept (m := m) coherent x sparse
  exact ⟨w', run, coherent'⟩

theorem run_range (coherent : w.Coherent r) (box : List (Interval α)) :
    ∃ w', (r.range m box).run w = (r.rangeMeaning m box, w') ∧ w'.Coherent r := by
  by_cases size : box.length = r.scalars
  · refine ⟨{ w with evaluationsWithoutGradient := w.evaluationsWithoutGradient + 1 }, ?_,
      coherent.storage, coherent.pattern⟩
    have counting : countValue.run w = (.ok (), { w with
        evaluationsWithoutGradient := w.evaluationsWithoutGradient + 1 }) := rfl
    simp only [range, rangeMeaning, size, ne_eq, not_true_eq_false, ↓reduceIte, Evaluation.run_bind,
      counting, Evaluation.run_lift]
  · refine ⟨w, ?_, coherent⟩
    simp only [range, rangeMeaning, size, ne_eq, not_false_eq_true, ↓reduceIte, Evaluation.run_bind,
      Evaluation.run_throw]
    rfl

theorem run_sparsityPattern (coherent : w.Coherent r) :
    ∃ w', r.sparsityPattern.run w = (r.patternMeaning, w') ∧ w'.Coherent r := by
  obtain ⟨s, w₁, prepared, holds⟩ := run_prepare coherent
  obtain ⟨w₂, positions, holds', -⟩ := run_pattern holds
  refine ⟨w₂, ?_, holds'.coherent⟩
  simp only [sparsityPattern, Evaluation.run_bind, prepared, positions, Evaluation.run_lift]
  rw [patternMeaning]

theorem run_hessianDensity (coherent : w.Coherent r) :
    ∃ w', r.hessianDensity.run w = (.ok r.densityMeaning, w') ∧ w'.Coherent r := by
  obtain ⟨s, w₁, prepared, holds⟩ := run_prepare coherent
  refine ⟨w₁, ?_, holds.coherent⟩
  by_cases none : r.scalars = 0
  · simp only [hessianDensity, Evaluation.run_bind, prepared, none, ↓reduceIte, Evaluation.run_pure,
      densityMeaning]
  · simp only [hessianDensity, Evaluation.run_bind, prepared, none, ↓reduceIte, Evaluation.run_get,
      Evaluation.run_pure, densityMeaning, holds.elements]

end

end Registry

/-- What an evaluation gives, whatever was evaluated before. -/
def Query.meaning [Scalar α] (r : Registry α) (m : Memory α) :
    Query α → Except (Fault α) (Answer α r.scalars)
  | value x => .number <$> r.valueMeaning m x
  | gradient x => (fun (a, g) => .gradient a g) <$> r.gradientMeaning m x
  | hessian x sparse => (fun (a, g, h) => .hessian a g h) <$> r.hessianMeaning m x sparse
  | range box => .range <$> r.rangeMeaning m box
  | pattern => .pattern <$> r.patternMeaning
  | density => .ok (.number r.densityMeaning)

variable [Scalar α]

theorem Query.run_eq {r : Registry α} {w : Workspace α} (coherent : w.Coherent r) (m : Memory α)
    (q : Query α) :
    ∃ w', (q.evaluation r m).run w = (q.meaning r m, w') ∧ w'.Coherent r := by
  have answered {β : Type} {e : Evaluation α β} {result : Except (Fault α) β}
      (run : ∃ w', e.run w = (result, w') ∧ w'.Coherent r) (wrap : β → Answer α r.scalars) :
      ∃ w', (do return wrap (← e) : Evaluation α _).run w = (wrap <$> result, w') ∧
        w'.Coherent r := by
    obtain ⟨w', run, coherent'⟩ := run
    refine ⟨w', ?_, coherent'⟩
    rw [Evaluation.run_bind, run]
    cases result <;> rfl
  cases q with
  | value x => exact answered (Registry.run_value coherent x) _
  | gradient x => exact answered (Registry.run_gradient coherent x) _
  | hessian x sparse => exact answered (Registry.run_hessian coherent x sparse) _
  | range box => exact answered (Registry.run_range coherent box) _
  | pattern => exact answered (Registry.run_sparsityPattern coherent) _
  | density => exact answered (Registry.run_hessianDensity coherent) _

namespace Objective

theorem invariant_coherent :
    Invariant (α := α) (fun f => f.WellFormed ∧ f.workspace.Coherent f.toRegistry) where
  wellFormed holds := holds.1
  new made := by
    refine ⟨wellFormed_new made, ?_⟩
    obtain ⟨-, rfl⟩ := new?_eq_ok.1 made
    exact Workspace.coherent_unused _
  follows holds followed := by
    refine ⟨followed.wellFormed, ?_⟩
    rcases followed.derived with ⟨constant, rfl⟩ | forgotten
    · exact holds.2.setConstant constant
    · rw [forgotten]
      exact Workspace.coherent_invalidate _ _
  clear holds := ⟨Registry.wellFormed_empty holds.1.threads, nofun, nofun⟩
  close holds := ⟨holds.1, holds.2.storage, holds.2.pattern⟩
  ask m q holds := by
    obtain ⟨w', run, coherent⟩ := q.run_eq holds.2 m
    refine ⟨holds.1, ?_⟩
    simp only [ask, evaluating, run]
    exact coherent

theorem Reachable.coherent {f : Objective α} (reached : Reachable f) :
    f.workspace.Coherent f.toRegistry :=
  (invariant_coherent.reachable reached).2

theorem ask_eq_meaning {f : Objective α} (coherent : f.workspace.Coherent f.toRegistry) (m : Memory α)
    (q : Query α) : (f.ask m q).1 = q.meaning f.toRegistry m := by
  obtain ⟨w', run, -⟩ := q.run_eq coherent m
  simp only [ask, evaluating, run]

theorem Reachable.ask_eq {f : Objective α} (reached : Reachable f) (m : Memory α) (q : Query α) :
    (f.ask m q).1 = q.meaning f.toRegistry m :=
  ask_eq_meaning reached.coherent m q

section

variable {f : Objective α} (reached : Reachable f) {m : Memory α} {x : List α} {a : α}
  {g : Vector α f.scalars} {fault : Fault α}

include reached

theorem Reachable.ask_gradient_iff :
    (f.ask m (.gradient x)).1 = .ok (.gradient a g) ↔ f.gradientMeaning m x = .ok (a, g) := by
  rw [reached.ask_eq, Query.meaning, map_eq_ok]
  constructor
  · rintro ⟨_, meant, ⟨⟩⟩
    exact meant
  · exact fun meant => ⟨_, meant, rfl⟩

theorem Reachable.ask_hessian_iff {sparse : Bool} {h : Hessian α f.scalars} :
    (f.ask m (.hessian x sparse)).1 = .ok (.hessian a g h) ↔
      f.hessianMeaning m x sparse = .ok (a, g, h) := by
  rw [reached.ask_eq, Query.meaning, map_eq_ok]
  constructor
  · rintro ⟨_, meant, ⟨⟩⟩
    exact meant
  · exact fun meant => ⟨_, meant, rfl⟩

theorem Reachable.ask_gradient_error_iff :
    (f.ask m (.gradient x)).1 = .error fault ↔ f.gradientMeaning m x = .error fault := by
  rw [reached.ask_eq, Query.meaning, map_eq_error]

theorem Reachable.ask_hessian_error_iff {sparse : Bool} :
    (f.ask m (.hessian x sparse)).1 = .error fault ↔ f.hessianMeaning m x sparse = .error fault := by
  rw [reached.ask_eq, Query.meaning, map_eq_error]

end

def fresh (f : Objective α) : Objective α := ⟨f.toRegistry, .unused⟩

/-- While the arrays have their lengths, a reachable objective can be copied, and evaluates to what its
copy evaluates to. -/
theorem Reachable.fresh_copy {f : Objective α} (reached : Reachable f) {m : Memory α}
    (stored : f.StoredIn m) :
    f.copy m = .ok f.fresh ∧
      ∀ (m' : Memory α) (q : Query α), (f.ask m' q).1 = (f.fresh.ask m' q).1 := by
  refine ⟨copy_eq reached.wellFormed stored, fun m' q => ?_⟩
  obtain ⟨w', run, -⟩ := q.run_eq (r := f.toRegistry) (Workspace.coherent_unused _) m'
  have meaning : (f.fresh.ask m' q).1 = q.meaning f.toRegistry m' := by
    simp only [ask, evaluating, fresh, run]
  rw [reached.ask_eq, meaning]

def guarded : Objective Float :=
  let apply (f : Objective Float) (c : Mutation Float) := (c.edit.run threeArrays f).2
  [.addTerm (.term (Sample.quadratic [1, 2])) [⟨0⟩], .addTerm (.term (Sample.pair [0])) [⟨1⟩, ⟨2⟩],
    .addTerm (.term (Sample.trap 0 "trapped")) [⟨2⟩]].foldl apply (ofThreads 2)

theorem reachable_guarded : Reachable guarded :=
  .step (.step (.step (.new (show new? 2 = .ok (ofThreads 2) from rfl))
    (.mutate (c := .addTerm (.term (Sample.quadratic [1, 2])) [⟨0⟩]) trivial threeArrays))
    (.mutate (c := .addTerm (.term (Sample.pair [0])) [⟨1⟩, ⟨2⟩]) trivial threeArrays))
    (.mutate (c := .addTerm (.term (Sample.trap 0 "trapped")) [⟨2⟩]) trivial threeArrays)

def used : Objective Float :=
  let differentiated := (guarded.ask threeArrays (.hessian [1, 1, 1, 1] true)).2
  let held := ((Mutation.setConstant ⟨1⟩ true).edit.run threeArrays differentiated).2
  (held.ask threeArrays (.hessian [0, 0, 4] true)).2

theorem reachable_used : Reachable used :=
  .step (.step (.step reachable_guarded (.ask threeArrays (.hessian [1, 1, 1, 1] true)))
    (.mutate (c := .setConstant ⟨1⟩ true) trivial threeArrays)) (.ask threeArrays (.hessian [0, 0, 4] true))

/-- The second worker fails after its first term. -/
def interrupted : Objective Float := (used.ask threeArrays (.gradient [0, 0, -1])).2

set_option maxRecDepth 4096 in
theorem interrupted_copied :
    (used.ask threeArrays (.gradient [0, 0, -1])).1 = .error (.reported "RuntimeError" "trapped") ∧
      interrupted.workspace.pattern.map List.length = some 6 ∧
      interrupted.workspace.storage.map (fun s => s.workers.map Worker.gradient) =
        some [[-1, -2, 0, 0], [0, 0, -3, 0]] ∧
      interrupted.copy threeArrays = .ok interrupted.fresh ∧
      ∀ (m : Memory Float) (q : Query Float), (interrupted.ask m q).1 = (interrupted.fresh.ask m q).1 := by
  have storages : interrupted.vars.map (fun v => (v.storage, v.userDimension)) =
      [(⟨0⟩, 2), (⟨1⟩, 1), (⟨2⟩, 1)] := by decide +kernel
  have stored : interrupted.StoredIn threeArrays := by
    rw [Registry.StoredIn, ← List.forall_mem_map (f := fun v : Variable Float => (v.storage, v.userDimension))
      (P := fun p => ∃ block offset, threeArrays.object? p.1 = some (.array .double [p.2] block offset)),
      storages, List.forall_mem_cons, List.forall_mem_cons, List.forall_mem_singleton]
    exact ⟨⟨0, 0, rfl⟩, ⟨1, 0, rfl⟩, ⟨2, 0, rfl⟩⟩
  refine ⟨?_, by decide +kernel, by decide +kernel,
    Reachable.fresh_copy (reachable_used.step (.ask threeArrays (.gradient [0, 0, -1]))) stored⟩
  rfl

end Objective

end Descent
