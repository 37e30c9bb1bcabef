import Mathlib
import Descent.Sample.Terms
import Descent.Proofs.Evaluation.Rows
import Descent.Proofs.Linear.Basic
import Descent.Proofs.Quadratic.Expansion

namespace Descent

open Matrix

variable {α : Type} [ExactField α]

namespace Sample

structure Arguments (arity d : Nat) (x : List (List α)) : Prop where
  length : x.length = arity
  lengths : ∀ xs ∈ x, xs.length = d

def deviation (sign : Nat → α) (offset : List α) (x : List (List α)) (i : Nat) : α :=
  ∑ k ∈ Finset.range x.length, sign k * component x k i - offset.getD i 0

structure Distance (t : Term α) (jet : List (List α) → Jet α) (sign : Nat → α) (offset : List α) : Prop where
  evaluates : ∀ request x, t.evaluate request x = (jet x).put
  dimension : ∀ k, t.dimension k = .ok offset.length
  value : ∀ x, Arguments t.arity offset.length x → (jet x).value =
    ∑ i ∈ Finset.range offset.length, deviation sign offset x i * deviation sign offset x i / 2
  gradient : ∀ x, Arguments t.arity offset.length x → ∀ k < t.arity, ∀ i,
    (jet x).gradient k i = sign k * deviation sign offset x i
  hessian : ∀ x, ∀ k < t.arity, ∀ l < t.arity, ∀ i j,
    (jet x).hessian k l i j = sign k * sign l * unit i j

theorem getD_subtract {x y : List α} (same : x.length = y.length) (i : Nat) :
    (subtract x y).getD i 0 = x.getD i 0 - y.getD i 0 := by
  by_cases inside : i < x.length
  · have inside' : i < y.length := same ▸ inside
    simp [subtract, List.getD_eq_getElem?_getD, inside, inside']
  · have outside : y.length ≤ i := same ▸ not_lt.1 inside
    simp [subtract, List.getD_eq_getElem?_getD, not_lt.1 inside, outside]

theorem length_subtract {x y : List α} (same : x.length = y.length) : (subtract x y).length = x.length := by
  rw [subtract, List.length_zipWith, same, Nat.min_self]

theorem halfSquare_eq (r : List α) :
    halfSquare r = ∑ i ∈ Finset.range r.length, r.getD i 0 * r.getD i 0 / 2 := by
  have squares : List.zipWith (· * ·) r r = (List.range r.length).map fun i => r.getD i 0 * r.getD i 0 := by
    refine List.ext_getElem (by simp) fun i inside inside' => ?_
    simp at inside
    simp [List.getD_eq_getElem?_getD, inside]
  rw [halfSquare, ← List.sum_eq_foldl, squares, sum_map_range, half, Scalar.ratio_eq, Finset.mul_sum]
  refine Finset.sum_congr rfl fun i _ => ?_
  push_cast
  ring

variable [Numeral α]

theorem distance_quadratic (center : List α) : ∃ jet, Distance (quadratic center) jet (fun _ => 1) center := by
  have alone {x : List (List α)} (fits : Arguments 1 center.length x) :
      (argument x 0).length = center.length ∧ ∀ i, (subtract (argument x 0) center).getD i 0 =
        deviation (fun _ => 1) center x i := by
    obtain ⟨xs, rfl⟩ := List.length_eq_one_iff.1 fits.length
    have same : xs.length = center.length := fits.lengths xs (List.mem_singleton_self xs)
    refine ⟨same, fun i => ?_⟩
    have only : (subtract xs center).getD i 0 = xs.getD i 0 - center.getD i 0 := getD_subtract same i
    simpa [argument, deviation, component] using only
  refine ⟨_, fun request x => rfl, fun k => rfl, fun x fits => ?_, fun x fits k below i => ?_, ?_⟩
  · obtain ⟨same, entries⟩ := alone fits
    simp only [halfSquare_eq, length_subtract same, same, entries]
  · simp only [(alone fits).2, one_mul]
  · intro x k below l below' i j
    simp only [one_mul]

theorem distance_pair (offset : List α) :
    ∃ jet, Distance (pair offset) jet (fun k => if k = 0 then 1 else -1) offset := by
  have both {x : List (List α)} (fits : Arguments 2 offset.length x) :
      (subtract (argument x 0) (argument x 1)).length = offset.length ∧
        ∀ i, (subtract (subtract (argument x 0) (argument x 1)) offset).getD i 0 =
          deviation (fun k => if k = 0 then 1 else -1) offset x i := by
    obtain ⟨xs, ys, rfl⟩ := List.length_eq_two.1 fits.length
    have first : xs.length = offset.length := fits.lengths xs (by simp)
    have second : ys.length = offset.length := fits.lengths ys (by simp)
    have same : xs.length = ys.length := first.trans second.symm
    have long := (length_subtract same).trans first
    refine ⟨long, fun i => ?_⟩
    have less : (subtract (subtract xs ys) offset).getD i 0 = xs.getD i 0 - ys.getD i 0 - offset.getD i 0 := by
      rw [getD_subtract long, getD_subtract same]
    simpa [argument, deviation, component, Finset.sum_range_succ, sub_eq_add_neg] using less
  refine ⟨_, fun request x => rfl, fun k => rfl, fun x fits => ?_, fun x fits k below i => ?_, ?_⟩
  · obtain ⟨same, entries⟩ := both fits
    simp only [halfSquare_eq, length_subtract same, same, entries]
  · simp only [(both fits).2]
    split <;> simp
  · intro x k below l below' i j
    have one : (pair offset).arity = 2 := rfl
    simp only [one] at below below'
    interval_cases k <;> interval_cases l <;> simp

end Sample

namespace Registry

variable {r : Registry α} {m : Memory α} {jet : Binding α → List (List α) → Jet α} {b : Binding α}
  {sign : Nat → α} {offset : List α}

def coefficients (r : Registry α) (b : Binding α) (sign : Nat → α) (i : Nat) : Fin r.scalars → α :=
  ∑ k : Fin (r.arguments b).length, sign k • ((r.arguments b).get k).row i

theorem coefficients_apply (i : Nat) (s : Fin r.scalars) : r.coefficients b sign i s =
    ∑ k : Fin (r.arguments b).length, sign k * ((r.arguments b).get k).row i s := by
  simp only [coefficients, Finset.sum_apply, Pi.smul_apply, smul_eq_mul]

theorem userDimension_eq (wf : r.WellFormed) (member : b ∈ r.terms)
    (distance : Sample.Distance b.term (jet b) sign offset) (k : Fin (r.arguments b).length) :
    ((r.arguments b).get k).userDimension = offset.length := by
  have fits := wf.terms b member
  have argument : (r.arguments b)[k.val]? = some ((r.arguments b).get k) := List.getElem?_eq_getElem k.isLt
  rw [fits.getElem?_arguments, Option.bind_eq_some_iff] at argument
  obtain ⟨i, found, at_i⟩ := argument
  obtain ⟨v, at_i', dimension⟩ := fits.registered found
  rw [Option.some.inj (at_i.symm.trans at_i')]
  exact_mod_cast Except.ok.inj (dimension.symm.trans (distance.dimension k))

section

variable (smooth : r.Smooth m jet) (wf : r.WellFormed)

def pointReport (request : Request) (x : Fin r.scalars → α) : Report r m (List.ofFn x) request :=
  smooth.report wf List.length_ofFn request

def pointArguments (b : Binding α) (x : Fin r.scalars → α) : List (List α) :=
  (r.arguments b).map (r.pointReport smooth wf .hessian x).point

variable (member : b ∈ r.terms) (distance : Sample.Distance b.term (jet b) sign offset)

include smooth wf member distance

theorem arguments_point (x : Fin r.scalars → α) :
    Sample.Arguments b.term.arity offset.length (r.pointArguments smooth wf b x) := by
  have fits := wf.terms b member
  refine ⟨by rw [pointArguments, List.length_map, fits.length_arguments, fits.arity], ?_⟩
  rw [pointArguments, List.forall_mem_map]
  intro v argument
  obtain ⟨k, rfl⟩ := List.mem_iff_get.1 argument
  rw [← userDimension_eq wf member distance k]
  exact (r.pointReport smooth wf .hessian x).length_point (mem_vars argument)

theorem exists_deviation_eq {i : Nat} (inside : i < offset.length) : ∃ c, ∀ x : Fin r.scalars → α,
    Sample.deviation sign offset (r.pointArguments smooth wf b x) i =
      c + r.coefficients b sign i ⬝ᵥ x := by
  refine ⟨∑ k : Fin (r.arguments b).length, sign k * fixedPart m ((r.arguments b).get k) i - offset.getD i 0,
    fun x => ?_⟩
  have entry (k : Fin (r.arguments b).length) : Sample.component (r.pointArguments smooth wf b x) k i =
      fixedPart m ((r.arguments b).get k) i + ((r.arguments b).get k).row i ⬝ᵥ x := by
    rw [← (r.pointReport smooth wf .hessian x).point_eq wf smooth.unchanged
      (mem_vars (List.get_mem (r.arguments b) k)) (by rwa [userDimension_eq wf member distance k])]
    simp [Sample.component, Sample.argument, pointArguments]
  have length : (r.pointArguments smooth wf b x).length = (r.arguments b).length := List.length_map ..
  simp only [Sample.deviation, length, Finset.sum_range, entry, coefficients, sum_dotProduct, smul_dotProduct,
    smul_eq_mul, mul_add, Finset.sum_add_distrib]
  ring

theorem component_eq_coefficients (x : Fin r.scalars → α) (s : Fin r.scalars) :
    (r.pointReport smooth wf .hessian x).component b s = ∑ i ∈ Finset.range offset.length,
      Sample.deviation sign offset (r.pointArguments smooth wf b x) i * r.coefficients b sign i s := by
  have fits := wf.terms b member
  have few : (r.arguments b).length = b.term.arity := fits.length_arguments.trans fits.arity
  have slope (k : Fin (r.arguments b).length) (i : Nat) :
      ((r.pointReport smooth wf .hessian x).derivatives b).gradient k i =
        sign k * Sample.deviation sign offset (r.pointArguments smooth wf b x) i :=
    distance.gradient _ (arguments_point smooth wf member distance x) k (few ▸ k.isLt) i
  rw [Report.component_eq _ smooth.unchanged (by decide) member]
  simp only [userDimension_eq wf member distance, slope, coefficients_apply, Finset.mul_sum]
  rw [Finset.sum_comm]
  exact Finset.sum_congr rfl fun i _ => Finset.sum_congr rfl fun k _ => by ring

theorem sum_pairPart_eq_coefficients (x : Fin r.scalars → α) (s t : Fin r.scalars) :
    ((r.freePairs b).map ((r.pointReport smooth wf .hessian x).pairPart b s t)).sum =
      ∑ i ∈ Finset.range offset.length, r.coefficients b sign i s * r.coefficients b sign i t := by
  have fits := wf.terms b member
  have few : (r.arguments b).length = b.term.arity := fits.length_arguments.trans fits.arity
  have bend (k l : Fin (r.arguments b).length) (i j : Nat) :
      ((r.pointReport smooth wf .hessian x).derivatives b).hessian k l i j =
        sign k * sign l * Sample.unit i j :=
    distance.hessian _ k (few ▸ k.isLt) l (few ▸ l.isLt) i j
  have diagonal (k l : Fin (r.arguments b).length) : ∀ i ∈ Finset.range offset.length,
      ∑ j ∈ Finset.range offset.length, sign k * sign l * Sample.unit i j *
        ((r.arguments b).get k).row i s * ((r.arguments b).get l).row j t =
      sign k * ((r.arguments b).get k).row i s * (sign l * ((r.arguments b).get l).row i t) := by
    intro i inside
    rw [Finset.sum_eq_single i (fun j _ other => by simp [Sample.unit, other.symm])
      fun absent => absurd inside absent, Sample.unit, if_pos rfl]
    ring
  rw [Report.sum_pairPart_eq]
  simp only [userDimension_eq wf member distance, bend, coefficients_apply, Finset.sum_mul_sum,
    fun k l => Finset.sum_congr rfl (diagonal k l)]
  exact (Finset.sum_congr rfl fun k _ => Finset.sum_comm).trans Finset.sum_comm

theorem exists_quadratic_term : ∃ h,
    Quadratic (fun x => (r.pointReport smooth wf .hessian x).value b)
      (fun x (s : Fin r.scalars) => (r.pointReport smooth wf .hessian x).component b s) h ∧
    ∀ x (s t : Fin r.scalars),
      ((r.freePairs b).map ((r.pointReport smooth wf .hessian x).pairPart b s t)).sum = h s t := by
  have square : ∀ i ∈ Finset.range offset.length, Quadratic
      (fun x => Sample.deviation sign offset (r.pointArguments smooth wf b x) i *
        Sample.deviation sign offset (r.pointArguments smooth wf b x) i / 2)
      (fun x => Sample.deviation sign offset (r.pointArguments smooth wf b x) i •
        r.coefficients b sign i)
      (vecMulVec (r.coefficients b sign i) (r.coefficients b sign i)) := by
    intro i inside
    obtain ⟨c, deviates⟩ := exists_deviation_eq smooth wf member distance
      (Finset.mem_range.1 inside)
    refine .half_square fun x p => ?_
    rw [deviates, deviates, dotProduct_add, add_assoc]
  refine ⟨∑ i ∈ Finset.range offset.length, vecMulVec (r.coefficients b sign i) (r.coefficients b sign i), ?_,
    fun x s t => ?_⟩
  · convert Quadratic.sum _ square with x x s
    · exact distance.value _ (arguments_point smooth wf member distance x)
    · rw [component_eq_coefficients smooth wf member distance]
      simp only [Finset.sum_apply, Pi.smul_apply, smul_eq_mul]
  · rw [sum_pairPart_eq_coefficients smooth wf member distance]
    simp only [Matrix.sum_apply, vecMulVec_apply]

omit member distance in
theorem exists_quadratic_total
    (distances : ∀ b ∈ r.terms, ∃ sign offset, Sample.Distance b.term (jet b) sign offset) : ∃ h,
    Quadratic (fun x => (r.pointReport smooth wf .hessian x).total)
      (fun x => (r.pointReport smooth wf .hessian x).gradient.get) h ∧
    ∀ x (s t : Fin r.scalars), (r.pointReport smooth wf .hessian x).curvature s t = h s t := by
  choose! sign offset distance using distances
  choose hs expands entries using fun k : Fin r.terms.length =>
    have member := List.getElem_mem k.isLt
    exists_quadratic_term smooth wf member (distance _ member)
  refine ⟨∑ k, hs k, ?_, fun x s t => ?_⟩
  · convert (Quadratic.constant r.constant).add (Quadratic.sum Finset.univ fun k _ => expands k) with x x
    · rw [Report.total, ← Fin.sum_univ_fun_getElem]
    · ext s
      simp [Report.gradient, ← Fin.sum_univ_fun_getElem]
    · rw [zero_add]
  · rw [Report.curvature, ← Fin.sum_univ_fun_getElem, Matrix.sum_apply]
    exact Finset.sum_congr rfl fun k _ => entries k x s t

end

structure IsQuadratic (r : Registry α) (m : Memory α) (value : (Fin r.scalars → α) → α)
    (gradient : (Fin r.scalars → α) → Fin r.scalars → α) (h : Matrix (Fin r.scalars) (Fin r.scalars) α) :
    Prop where
  quadratic : Quadratic value gradient h
  value_eq : ∀ x : Vector α r.scalars, r.valueMeaning m (some x.toList) = .ok (value x.get)
  gradient_eq : ∀ x : Vector α r.scalars,
    r.gradientMeaning m x.toList = .ok (value x.get, Vector.ofFn (gradient x.get))
  hessian_eq : r.checkHessian = .ok () → ∀ (x : Vector α r.scalars) (sparse : Bool), ∃ a : Hessian α r.scalars,
    r.hessianMeaning m x.toList sparse = .ok (value x.get, Vector.ofFn (gradient x.get), a) ∧
      Matrix.of a.get = h ∧ (sparse = true → ∃ matrix, a = .sparse matrix)

theorem exists_isQuadratic (smooth : r.Smooth m jet) (wf : r.WellFormed)
    (distances : ∀ b ∈ r.terms, ∃ sign offset, Sample.Distance b.term (jet b) sign offset) :
    ∃ value gradient h, r.IsQuadratic m value gradient h := by
  obtain ⟨h, quadratic, entries⟩ := exists_quadratic_total smooth wf distances
  have list (x : Vector α r.scalars) : x.toList = List.ofFn x.get := by
    rw [← Vector.toList_ofFn]
    exact congrArg Vector.toList (Vec.ext_get (Vec.get_ofFn _).symm)
  have slopes (x : Fin r.scalars → α) : Vector.ofFn (r.pointReport smooth wf .hessian x).gradient.get =
      (r.pointReport smooth wf .hessian x).gradient := Vec.ext_get (Vec.get_ofFn _)
  refine ⟨_, _, h, quadratic, fun x => ?_, fun x => ?_, fun able x sparse => ?_⟩
  · rw [list]
    exact valueMeaning_eq (r.pointReport smooth wf .value x.get) List.length_ofFn
  · rw [list, slopes]
    exact gradientMeaning_eq (r.pointReport smooth wf .gradient x.get) List.length_ofFn
  · rw [list, slopes]
    refine ⟨_, hessianMeaning_eq wf (r.pointReport smooth wf .hessian x.get) List.length_ofFn able sparse, ?_, ?_⟩
    · ext s t
      rw [of_apply, Report.get_matrix, entries]
    · rintro rfl
      exact ⟨_, rfl⟩

end Registry

end Descent
