import Mathlib
import Descent.Proofs.Registry.Freed
import Descent.Proofs.Evaluation.Faults
import Descent.Proofs.Evaluation.Merging
import Descent.Proofs.Evaluation.Reports

namespace Descent

variable {α : Type}

structure AddsExactly (α : Type) [Scalar α] : Prop where
  assoc (a b c : α) : a + b + c = a + (b + c)
  comm (a b : α) : a + b = b + a
  zero_add (a : α) : 0 + a = a

@[reducible]
def AddsExactly.sums [s : Scalar α] (exact : AddsExactly α) : ExactSums α :=
  { s with
    add_assoc := exact.assoc
    add_comm := exact.comm
    zero_add := exact.zero_add
    add_zero := fun a => (exact.comm a 0).trans (exact.zero_add a)
    nsmul := nsmulRec }

theorem Answer.cast_rfl_map {n : Nat} (result : Except (Fault α) (Answer α n)) :
    Answer.cast rfl <$> result = result := by
  cases result <;> rfl

namespace Registry

variable {r : Registry α} {m : Memory α} {request : Request} {locals : List (List α)} {x : List α}

section

variable [Scalar α]

def workerTotals (r : Registry α) (request : Request) (locals : List (List α)) (x : List α) :
    Except (Fault α) (α × Vector α r.scalars) := do
  let value ← r.totalValue <$> ((r.workerSums request locals x).map (·.1)).mapM id
  return (value, r.totalGradient ((r.workerSums request locals x).map (·.2)))

def matrixOf (r : Registry α) (locals : List (List α)) (sparse : Bool) :
    Except (Fault α) (Hessian α r.scalars) :=
  if sparse then .sparse <$> sparseMatrix r.scalars r.entryPositions (r.entryValues (r.termBlocks locals))
  else pure (.dense (r.denseHessian (r.termBlocks locals)))

theorem gradientMeaning_eq_totals : r.gradientMeaning m x = (do
    r.checkPoint x
    let locals ← r.pointLocals m (some x)
    r.workerTotals .gradient locals x) := rfl

theorem hessianMeaning_eq_totals (sparse : Bool) : r.hessianMeaning m x sparse = (do
    r.checkHessian
    r.checkPoint x
    let locals ← r.pointLocals m (some x)
    let totals ← r.workerTotals .hessian locals x
    let matrix ← r.matrixOf locals sparse
    return (totals.1, totals.2, matrix)) := by
  simp only [hessianMeaning, workerTotals, bind_assoc, pure_bind]
  cases sparse <;> rfl

theorem gradientMeaning_hessianEnabled (r : Registry α) (hessianEnabled : Bool) (m : Memory α) (x : List α) :
    gradientMeaning { r with hessianEnabled } m x = r.gradientMeaning m x := by
  have sums (locals : List (List α)) :
      workerSums { r with hessianEnabled } .gradient locals x = r.workerSums .gradient locals x :=
    workerSums_alike (List.forall₂_same.2 fun b _ => ⟨fun _ => rfl, rfl⟩) rfl rfl rfl
  have value : totalValue { r with hessianEnabled } = r.totalValue := rfl
  have gradient : totalGradient { r with hessianEnabled } = r.totalGradient := rfl
  have checked : checkPoint { r with hessianEnabled } x = r.checkPoint x := rfl
  have seen : pointLocals { r with hessianEnabled } m (some x) = r.pointLocals m (some x) := rfl
  simp only [gradientMeaning, sums, value, gradient, checked, seen]

end

variable [ExactSums α] (threads : Nat)

omit [ExactSums α] in
theorem checkPoint_threads : checkPoint { r with threads } x = r.checkPoint x := rfl

omit [ExactSums α] in
theorem pointLocals_threads (x : Option (List α)) : pointLocals { r with threads } m x = r.pointLocals m x := rfl

theorem valueMeaning_threads (x : Option (List α)) :
    valueMeaning { r with threads } m x = r.valueMeaning m x := by
  simp only [valueMeaning, totalValue_chunkTotals, checkPoint_threads, pointLocals_threads]

theorem workerTotals_threads (seen : r.pointLocals m (some x) = .ok locals) (derived : request ≠ .value) :
    workerTotals { r with threads } request locals x = r.workerTotals request locals x := by
  cases summed : ((r.workerSums request locals x).map (·.1)).mapM id with
  | error fault =>
      -- the first fault in the order of the workers is that of the first term that fails
      have found (r : Registry α) : fault? (((r.workerSums request locals x).map (·.1)).mapM id) =
          r.terms.findSome? (r.bindingFault? request locals x) := fault?_workerSums derived
      have first := found r
      rw [summed] at first
      have failed := fault?_eq_some.1 ((found { r with threads }).trans first.symm)
      simp only [workerTotals, summed, failed, map_error, error_bind]
  | ok values =>
      obtain ⟨report⟩ := exists_report seen summed
      obtain rfl := Except.ok.inj (report.pointLocals_eq.symm.trans seen)
      have totals {r : Registry α} (report : Report r m x request) :
          r.workerTotals request (r.vars.map report.point) x = .ok (report.total, report.gradient) := by
        rw [workerTotals, totalValue_workerSums report derived, totalGradient_workerSums report derived]
        rfl
      exact (totals (report.withThreads threads)).trans (totals report).symm

theorem gradientMeaning_threads (x : List α) :
    gradientMeaning { r with threads } m x = r.gradientMeaning m x := by
  rw [gradientMeaning_eq_totals, gradientMeaning_eq_totals, checkPoint_threads, pointLocals_threads]
  cases seen : r.pointLocals m (some x) with
  | error fault => simp only [error_bind]
  | ok locals =>
      have totals : workerTotals { r with threads } .gradient locals x = r.workerTotals .gradient locals x :=
        workerTotals_threads threads seen nofun
      simp only [ok_bind, totals]

theorem hessianMeaning_threads (x : List α) (sparse : Bool) :
    hessianMeaning { r with threads } m x sparse = r.hessianMeaning m x sparse := by
  have able : checkHessian { r with threads } = r.checkHessian := rfl
  have matrix (locals : List (List α)) : matrixOf { r with threads } locals sparse = r.matrixOf locals sparse := rfl
  rw [hessianMeaning_eq_totals, hessianMeaning_eq_totals, checkPoint_threads, pointLocals_threads, able]
  cases seen : r.pointLocals m (some x) with
  | error fault => simp only [error_bind]
  | ok locals =>
      have totals : workerTotals { r with threads } .hessian locals x = r.workerTotals .hessian locals x :=
        workerTotals_threads threads seen nofun
      simp only [ok_bind, totals, matrix]

end Registry

namespace Objective

variable [Scalar α] {f g k : Objective α} {m : Memory α}

section

variable (reached : Reachable g) (reached' : Reachable k) {threads : Nat} {hessianEnabled : Bool}
  (same : k.toRegistry = { g.toRegistry with threads, hessianEnabled })

include reached reached' same

theorem Reachable.sameAnswers_of_meanings
    (values : ∀ x, Registry.valueMeaning { g.toRegistry with threads } m x = g.valueMeaning m x)
    (gradients : ∀ x, Registry.gradientMeaning { g.toRegistry with threads } m x = g.gradientMeaning m x)
    (hessians : ∀ x sparse,
      Registry.hessianMeaning { g.toRegistry with threads } m x sparse = g.hessianMeaning m x sparse) :
    g.SameAnswers k m m := by
  obtain ⟨registry, w⟩ := k
  obtain rfl : registry = _ := same
  refine ⟨rfl, fun x => ?_, fun x => ?_, fun enabled x sparse => ?_⟩
  · rw [reached.ask_eq, reached'.ask_eq]
    exact (congrArg (Answer.number <$> ·) (values x)).trans (Answer.cast_rfl_map _).symm
  · have unaffected := Registry.gradientMeaning_hessianEnabled { g.toRegistry with threads } hessianEnabled m x
    rw [reached.ask_eq, reached'.ask_eq]
    exact (congrArg (_ <$> ·) (unaffected.trans (gradients x))).trans (Answer.cast_rfl_map _).symm
  · obtain rfl : hessianEnabled = g.hessianEnabled := enabled
    rw [reached.ask_eq, reached'.ask_eq]
    exact (congrArg (_ <$> ·) (hessians x sparse)).trans (Answer.cast_rfl_map _).symm

theorem Reachable.sameAnswers_configured (exact : threads = g.threads ∨ AddsExactly α) (m : Memory α) :
    g.SameAnswers k m m := by
  obtain rfl | exact := exact
  · exact reached.sameAnswers_of_meanings reached' same (fun _ => rfl) (fun _ => rfl) fun _ _ => rfl
  · let sums := exact.sums
    exact reached.sameAnswers_of_meanings reached' same (Registry.valueMeaning_threads threads)
      (Registry.gradientMeaning_threads threads) (Registry.hessianMeaning_threads threads)

end

/-- What comes of adding an objective to a new one has its variables in their order, its terms and its constant,
but all its variables are free. With those held constant again that were constant, it is the objective that was
added, but for the number of threads and whether Hessians are enabled. Then it gives the same at every point, if
the threads are as many or sums are exact. -/
theorem Reachable.merge_into_new (reached : Reachable g) (ready : ∀ v ∈ g.vars, v.Mergeable m) {threads : Int}
    (made : new? threads = .ok f) :
    ∃ h k, (merge g.toRegistry).run m f = (.ok (), h) ∧
      h.toRegistry = { g.freed with constant := 0 + g.constant, threads := f.threads, hessianEnabled := true } ∧
      (holdConstants g.toRegistry).run m h = (.ok (), k) ∧
      k.toRegistry = { g.toRegistry with
        constant := 0 + g.constant, threads := f.threads, hessianEnabled := true } ∧
      (h.toRegistry = k.toRegistry ↔ ∀ v ∈ g.vars, v.isConstant = false) ∧
      g.copy m = .ok ⟨g.toRegistry, .unused⟩ ∧
      (f.threads = g.threads ∧ 0 + g.constant = g.constant ∨ AddsExactly α → ∀ m', g.SameAnswers k m' m') := by
  have wf := reached.wellFormed
  obtain ⟨h, merged, reached_h, registry⟩ := exists_merge_new wf ready made
  obtain ⟨k, held, reached_k, registry'⟩ := exists_hold (m := m) reached_h wf registry
  refine ⟨h, k, merged, registry, held, registry', ?_, copy_eq wf fun v member => (ready v member).stored,
    fun exact m' => ?_⟩
  · rw [registry, registry', ← Registry.freed_eq_self_iff wf]
    refine ⟨fun same => ?_, fun same => by rw [same]⟩
    exact congrArg (fun r => { r with
      constant := g.constant, threads := g.threads, hessianEnabled := g.hessianEnabled }) same
  · have constant : 0 + g.constant = g.constant := exact.elim And.right fun sums => sums.zero_add g.constant
    rw [constant] at registry'
    exact reached.sameAnswers_configured reached_k registry' (exact.imp_left And.left) m'

theorem mergeable_secondProduct : ∀ v ∈ secondProduct.vars, v.Mergeable twoThreeFive := by
  have vars : secondProduct.vars = [⟨⟨2⟩, 1, 1, 1, true, none⟩, ⟨⟨1⟩, 1, 1, 0, false, none⟩] := rfl
  rw [vars, List.forall_mem_cons, List.forall_mem_singleton]
  exact ⟨⟨rfl, 2, 0, rfl⟩, rfl, 1, 0, rfl⟩

theorem secondProduct_into_new :
    ∃ h k, (merge secondProduct.toRegistry).run twoThreeFive (ofThreads 1) = (.ok (), h) ∧ h.scalars = 2 ∧
      (holdConstants secondProduct.toRegistry).run twoThreeFive h = (.ok (), k) ∧ k.scalars = 1 ∧
      ∀ m, secondProduct.SameAnswers k m m := by
  have exact : AddsExactly ℚ := ⟨add_assoc, add_comm, zero_add⟩
  obtain ⟨h, k, merged, registry, held, registry', -, -, same⟩ :=
    Reachable.merge_into_new reachable_secondProduct mergeable_secondProduct
      (show new? 1 = .ok (ofThreads 1) from rfl)
  refine ⟨h, k, merged, ?_, held, ?_, same (.inr exact)⟩
  · rw [registry]
    rfl
  · rw [registry']
    rfl

/-- Without that, all numbers are free in the sum with a new objective, and it has no value at the point. -/
theorem secondProduct_freed : ∃ h, Reachable secondProduct ∧
    (∀ v ∈ secondProduct.vars, v.Mergeable twoThreeFive) ∧ new? 1 = .ok (ofThreads 1 : Objective ℚ) ∧
    (merge secondProduct.toRegistry).run twoThreeFive (ofThreads 1) = (.ok (), h) ∧
    secondProduct.vars.map Variable.isConstant = [true, false] ∧ secondProduct.scalars = 1 ∧
    h.vars.map Variable.isConstant = [false, false] ∧ h.scalars = 2 ∧
    (secondProduct.ask twoThreeFive (.value (some [4]))).1 = .ok (.number 27) ∧
    (h.ask twoThreeFive (.value (some [4]))).1 = .error (.pointSize 1 2) := by
  obtain ⟨h, merged, reached, registry⟩ := exists_merge_new reachable_secondProduct.wellFormed
    mergeable_secondProduct (show new? 1 = .ok (ofThreads 1) from rfl)
  have value : (0 : ℚ) + 7 + (0 + (0 + 1 * 5 * 4)) = 27 := by norm_num
  refine ⟨h, reachable_secondProduct, mergeable_secondProduct, rfl, merged, rfl, rfl, ?_, ?_, ?_, ?_⟩
  · rw [registry]
    rfl
  · rw [registry]
    rfl
  · rw [reachable_secondProduct.ask_eq]
    exact congrArg (fun a => Except.ok (Answer.number a)) value
  · rw [reached.ask_eq, registry]
    rfl

end Objective
end Descent
