import Mathlib
import Descent.Regularizer
import Descent.Proofs.Linear.Factors
import Descent.Proofs.Numbers.Doubling

/-!
# Shifts of the diagonal

The loop tries the shifts of a fixed sequence, whatever tests them (`EndsWith.findShift_eq`). In binary floating
point the sequence leaves the finite numbers, so the loop ends. In exact arithmetic it comes to a positive definite
matrix, and the first one is the one that is solved (`first_positive_shift`).
-/

namespace Descent.Regularizer

open Matrix

/-! ## The loop -/

section

variable {α φ : Type} [Scalar α] {factor? : α → Except (Fault α) (Option φ)} {first : α} {k : Nat}

def shifts (first : α) : Nat → α
  | 0 => first
  | k + 1 => Scalar.larger (Scalar.ofNat 2 * shifts first k) leastShift

structure Reaches (factor? : α → Except (Fault α) (Option φ)) (first : α) (k : Nat) : Prop where
  failed : ∀ j < k, factor? (shifts first j) = .ok none
  finite : ∀ j < k, Scalar.isFinite (shifts first (j + 1)) = true

inductive EndsWith (factor? : α → Except (Fault α) (Option φ)) (first : α) (k : Nat) :
    Except (Fault α) (φ × α × Nat) → Prop where
  | found (factor : φ) : factor? (shifts first k) = .ok (some factor) →
      EndsWith factor? first k (.ok (factor, shifts first k, k + 1))
  | fault (fault : Fault α) : factor? (shifts first k) = .error fault →
      EndsWith factor? first k (.error fault)
  | exhausted : factor? (shifts first k) = .ok none → Scalar.isFinite (shifts first (k + 1)) = false →
      EndsWith factor? first k (.error .noShift)

theorem findShift_of_attempt (factor? : α → Except (Fault α) (Option φ)) (attempts : Nat) (shift : α) :
    findShift factor? attempts shift =
      (attempt factor? attempts shift).elim (fun tried => findShift factor? tried.1 tried.2) id := by
  rw [findShift, repeatM_eq_of_monadTail, repeatM.body]
  cases attempt factor? attempts shift with
  | inl next => rfl
  | inr result => rfl

theorem findShift_next {attempts : Nat} (failed : factor? (shifts first k) = .ok none)
    (finite : Scalar.isFinite (shifts first (k + 1)) = true) :
    findShift factor? attempts (shifts first k) = findShift factor? (attempts + 1) (shifts first (k + 1)) := by
  have next : nextShift? (shifts first k) = .ok (shifts first (k + 1)) := if_pos finite
  rw [findShift_of_attempt, attempt, failed]
  simp only [next, Sum.elim_inl]

theorem Reaches.findShift_eq (reaches : Reaches factor? first k) :
    findShift factor? 0 first = findShift factor? k (shifts first k) := by
  induction k with
  | zero => rfl
  | succ k ih =>
      have before := ih ⟨fun j below => reaches.failed j (Nat.lt_succ_of_lt below),
        fun j below => reaches.finite j (Nat.lt_succ_of_lt below)⟩
      exact before.trans (findShift_next (reaches.failed k k.lt_succ_self) (reaches.finite k k.lt_succ_self))

theorem EndsWith.findShift_eq {result : Except (Fault α) (φ × α × Nat)} (ends : EndsWith factor? first k result)
    (reaches : Reaches factor? first k) : findShift factor? 0 first = result := by
  rw [reaches.findShift_eq, findShift_of_attempt, attempt]
  cases ends with
  | found factor found => simp only [found, Sum.elim_inr, id]
  | fault fault failed => simp only [failed, Sum.elim_inr, id]
  | exhausted failed infinite =>
      have next : nextShift? (shifts first k) = .error .noShift := if_neg (infinite ▸ Bool.false_ne_true)
      simp only [failed, next, Sum.elim_inr, id]

theorem exists_endsWith (factor? : α → Except (Fault α) (Option φ)) {last : Nat}
    (infinite : Scalar.isFinite (shifts first (last + 1)) = false) :
    ∃ k ≤ last, Reaches factor? first k ∧ EndsWith factor? first k (findShift factor? 0 first) := by
  classical
  have some : ∃ k, ¬(factor? (shifts first k) = .ok none ∧ Scalar.isFinite (shifts first (k + 1)) = true) :=
    ⟨last, fun both => Bool.false_ne_true (infinite.symm.trans both.2)⟩
  have earlier (j : Nat) (below : j < Nat.find some) := not_not.1 (Nat.find_min some below)
  have reaches : Reaches factor? first (Nat.find some) :=
    ⟨fun j below => (earlier j below).1, fun j below => (earlier j below).2⟩
  refine ⟨Nat.find some, Nat.find_min' some ?_, reaches, ?_⟩
  · exact fun both => Bool.false_ne_true (infinite.symm.trans both.2)
  · have ends : ∃ result, EndsWith factor? first (Nat.find some) result := by
      cases tested : factor? (shifts first (Nat.find some)) with
      | error fault => exact ⟨_, .fault fault tested⟩
      | ok outcome =>
          cases outcome with
          | some factor => exact ⟨_, .found factor tested⟩
          | none =>
              have stop := Nat.find_spec some
              rw [tested] at stop
              exact ⟨_, .exhausted tested (Bool.eq_false_iff.2 fun finite => stop ⟨rfl, finite⟩)⟩
    obtain ⟨result, ends⟩ := ends
    rw [ends.findShift_eq reaches]
    exact ends

end

/-! ## Binary floating point -/

theorem positiveAt_leastShift : Binary64.PositiveAt (-62) (leastShift : Float) :=
  ⟨4611686018427388, by decide, rfl⟩

theorem finite_of_larger {x : Float} (finite : Scalar.isFinite (Scalar.larger x leastShift) = true) :
    ∃ e ≥ -62, Binary64.PositiveAt e (Scalar.larger x leastShift) := by
  rw [Scalar.larger] at finite ⊢
  split at finite
  · rename_i below
    rw [if_pos below]
    exact ⟨-62, le_rfl, positiveAt_leastShift⟩
  · rename_i above
    rw [if_neg above]
    exact positiveAt_leastShift.of_not_lt above finite

theorem shifts_positiveAt {first : Float} {k : Nat}
    (finite : ∀ j ≤ k, Scalar.isFinite (shifts first (j + 1)) = true) :
    ∃ e ≥ (k : Int) - 62, Binary64.PositiveAt e (shifts first (k + 1)) := by
  induction k with
  | zero => exact finite_of_larger (finite 0 le_rfl)
  | succ k ih =>
      obtain ⟨e, high, size⟩ := ih fun j below => finite j (Nat.le_succ_of_le below)
      have doubled := size.larger_double positiveAt_leastShift (by omega) (by omega) (finite (k + 1) le_rfl)
      exact ⟨e + 1, by push_cast; omega, doubled⟩

theorem exists_infinite_shift (first : Float) : ∃ k < 1035, Scalar.isFinite (shifts first (k + 1)) = false := by
  by_contra none
  push Not at none
  have finite (j : Nat) (below : j ≤ 1034) : Scalar.isFinite (shifts first (j + 1)) = true :=
    Bool.eq_true_of_not_eq_false (none j (Nat.lt_succ_of_le below))
  obtain ⟨e, high, size⟩ := shifts_positiveAt finite
  have most := size.le
  omega

/-! ## Exact arithmetic -/

section

variable {α φ : Type} [ExactField α] {n : Nat} {a : Dense α n n} {g : Vector α n}

structure ShiftSequence (a : Matrix (Fin n) (Fin n) α) (τ : Nat → α) : Prop where
  unshifted : (∀ i, 0 < a i i) → τ 0 = 0
  lifted : ∀ i, (∀ j, a i i ≤ a j j) → a i i ≤ 0 → τ 0 = 1 / 1000 - a i i
  doubled : ∀ k, τ (k + 1) = max (2 * τ k) (1 / 1000)

theorem leastShift_eq : (leastShift : α) = 1 / 1000 := by
  rw [leastShift, Scalar.ratio_eq, Nat.cast_one, Nat.cast_ofNat]

theorem shifts_succ (first : α) (k : Nat) : shifts first (k + 1) = max (2 * shifts first k) (1 / 1000) := by
  rw [shifts, Scalar.larger_eq, leastShift_eq, ExactField.ofNat_eq, Nat.cast_ofNat]

theorem firstShift_of_least {diagonal : List α} {x : α} (member : x ∈ diagonal) (least : ∀ y ∈ diagonal, x ≤ y) :
    firstShift diagonal = if 0 < x then 0 else 1 / 1000 - x := by
  cases diagonal with
  | nil => cases member
  | cons first rest =>
      have smallest : rest.foldl Scalar.infimum first = x := by
        have folded : (first :: rest).min? = some (rest.foldl Scalar.infimum first) := by
          rw [List.min?_cons', show (Scalar.infimum : α → α → α) = min from funext₂ Scalar.infimum_eq]
        have found : (first :: rest).min? = some x := List.min?_eq_some_iff.2 ⟨member, least⟩
        exact Option.some.inj (folded.symm.trans found)
      rw [firstShift, smallest, leastShift_eq]

theorem shiftSequence (a : Dense α n n) : ShiftSequence a.toMatrix (shifts (firstShift a.diagonal)) := by
  have first (i : Fin n) (least : ∀ j, a.get i i ≤ a.get j j) :
      firstShift a.diagonal = if 0 < a.get i i then 0 else 1 / 1000 - a.get i i := by
    apply firstShift_of_least
    · exact List.mem_map_of_mem (List.mem_finRange i)
    · intro y member
      obtain ⟨j, _, rfl⟩ := List.mem_map.1 member
      exact least j
  refine ⟨fun positive => ?_, fun i least low => (first i least).trans (if_neg (not_lt.2 low)), shifts_succ _⟩
  rcases n.eq_zero_or_pos with rfl | some
  · rfl
  · have : Nonempty (Fin n) := ⟨⟨0, some⟩⟩
    obtain ⟨i, least⟩ := Finite.exists_min fun i => a.get i i
    exact (first i least).trans (if_pos (positive i))

theorem ShiftSequence.ge {m : Matrix (Fin n) (Fin n) α} {τ : Nat → α} (sequence : ShiftSequence m τ) (k : Nat) :
    (k + 1 : α) / 1000 ≤ τ (k + 1) := by
  induction k with
  | zero =>
      rw [sequence.doubled, Nat.cast_zero, zero_add]
      exact le_max_right _ _
  | succ k ih =>
      have grown : 2 * τ (k + 1) ≤ τ (k + 1 + 1) := by
        rw [sequence.doubled (k + 1)]
        exact le_max_left _ _
      have counted : (0 : α) ≤ k := Nat.cast_nonneg k
      push_cast
      linarith

/-- What the loop relies on: the test succeeds exactly on positive definite matrices, and a factor that it finds
solves the shifted system. -/
structure Exact (a : Matrix (Fin n) (Fin n) α) (g : Vector α n) (factor? : α → Except (Fault α) (Option φ))
    (solve : φ → Except (Fault α) (Vector α n)) : Prop where
  succeeds : ∀ shift, PositiveDefinite (a + shift • (1 : Matrix (Fin n) (Fin n) α)) →
    ∃ factor p, factor? shift = .ok (some factor) ∧ solve factor = .ok p ∧
      (a + shift • (1 : Matrix (Fin n) (Fin n) α)) *ᵥ p.get = -g.get
  fails : ∀ shift, ¬PositiveDefinite (a + shift • (1 : Matrix (Fin n) (Fin n) α)) → factor? shift = .ok none

/-- The step with the first shift of the sequence that makes the matrix positive definite. -/
structure FirstShifted (a : Matrix (Fin n) (Fin n) α) (g : Vector α n) (s : NewtonStep α n) : Prop where
  solves : (a + s.shift • (1 : Matrix (Fin n) (Fin n) α)) *ᵥ s.direction.get = -g.get
  positive : PositiveDefinite (a + s.shift • (1 : Matrix (Fin n) (Fin n) α))
  descends : g.get ≠ 0 → g.get ⬝ᵥ s.direction.get < 0
  first : ∃ τ k, ShiftSequence a τ ∧ s.shift = τ k ∧ s.attempts = k + 1 ∧
    ∀ j < k, ¬PositiveDefinite (a + τ j • (1 : Matrix (Fin n) (Fin n) α))
  unshifted : s.shift = 0 ∧ s.attempts = 1 ↔ PositiveDefinite a
  tight : 1 < s.attempts → s.shift = 1 / 1000 ∨
    ¬PositiveDefinite (a + (s.shift / 2) • (1 : Matrix (Fin n) (Fin n) α))

theorem ShiftSequence.firstShifted {m : Matrix (Fin n) (Fin n) α} {τ : Nat → α} {k : Nat} {p : Vector α n}
    (sequence : ShiftSequence m τ) (positive : PositiveDefinite (m + τ k • (1 : Matrix (Fin n) (Fin n) α)))
    (failed : ∀ j < k, ¬PositiveDefinite (m + τ j • (1 : Matrix (Fin n) (Fin n) α)))
    (solves : (m + τ k • (1 : Matrix (Fin n) (Fin n) α)) *ᵥ p.get = -g.get) :
    FirstShifted m g
      { direction := p, method := .shifts, shift := τ k, modified := 0, attempts := k + 1 } where
  solves := solves
  positive := positive
  descends := positive.descends solves
  first := ⟨τ, k, sequence, rfl, rfl, failed⟩
  unshifted := by
    constructor
    · rintro ⟨zero, _⟩
      have zero : τ k = 0 := zero
      rwa [zero, zero_smul, add_zero] at positive
    · intro already
      have none : τ 0 = 0 := sequence.unshifted already.diagonal
      have here : k = 0 := by
        by_contra later
        apply failed 0 (Nat.pos_of_ne_zero later)
        rwa [none, zero_smul, add_zero]
      exact ⟨here ▸ none, congrArg (· + 1) here⟩
  tight := by
    intro several
    obtain ⟨j, rfl⟩ := Nat.exists_eq_succ_of_ne_zero (Nat.pos_of_lt_add_left several).ne'
    rcases max_choice (2 * τ j) (1 / 1000) with doubled | least
    · right
      rw [sequence.doubled, doubled, mul_div_cancel_left₀ _ two_ne_zero]
      exact failed j j.lt_succ_self
    · exact .inl ((sequence.doubled j).trans least)

theorem Exact.shiftedStep_eq {factor? : α → Except (Fault α) (Option φ)} {solve : φ → Except (Fault α) (Vector α n)}
    {p : Vector α n} {k : Nat} (exact : Exact a.toMatrix g factor? solve)
    (positive : PositiveDefinite (a.toMatrix + shifts (firstShift a.diagonal) k • (1 : Matrix (Fin n) (Fin n) α)))
    (failed : ∀ j < k, ¬PositiveDefinite
      (a.toMatrix + shifts (firstShift a.diagonal) j • (1 : Matrix (Fin n) (Fin n) α)))
    (solves : (a.toMatrix + shifts (firstShift a.diagonal) k • (1 : Matrix (Fin n) (Fin n) α)) *ᵥ p.get = -g.get) :
    shiftedStep factor? solve a.diagonal = .ok
      { direction := p, method := .shifts, shift := shifts (firstShift a.diagonal) k, modified := 0
        attempts := k + 1 } := by
  obtain ⟨factor, p', found, solved, solves'⟩ := exact.succeeds _ positive
  have same : p' = p := Vec.ext_get (positive.eq_of_mulVec_eq (solves'.trans solves.symm))
  have reaches : Reaches factor? (firstShift a.diagonal) k :=
    ⟨fun j below => exact.fails _ (failed j below), fun j _ => Scalar.isFinite_eq_true _⟩
  have ends : EndsWith factor? (firstShift a.diagonal) k _ := .found factor found
  rw [same] at solved
  rw [shiftedStep, ends.findShift_eq reaches]
  simp only [bind, Except.bind, solved]
  rfl

end

variable {α : Type} [ExactReal α] {n : Nat} {a : Dense α n n} {g : Vector α n}

theorem exists_positive_shift {m : Matrix (Fin n) (Fin n) α} {τ : Nat → α} (sequence : ShiftSequence m τ) :
    ∃ k, PositiveDefinite (m + τ k • (1 : Matrix (Fin n) (Fin n) α)) := by
  have := ExactReal.archimedean (α := α)
  obtain ⟨k, large⟩ := exists_nat_gt (1000 * ∑ i, ∑ j, |m i j|)
  have reached := sequence.ge k
  exact ⟨k + 1, .add_smul_one (by linarith)⟩

theorem isSymm_shifted (symmetric : a.toMatrix.IsSymm) (shift : α) : (a.shifted shift).toMatrix.IsSymm := by
  rw [Dense.toMatrix_shifted]
  exact symmetric.add (isSymm_one.smul shift)

theorem denseExact (symmetric : a.toMatrix.IsSymm) (g : Vector α n) :
    Exact a.toMatrix g (denseFactor? a) (denseSolve g) := by
  have tested (shift : α) : denseFactor? a shift = .ok (a.shifted shift).cholesky? := by
    rw [denseFactor?, Dense.isFinite_eq_true]
    rfl
  constructor
  · intro shift positive
    rw [← Dense.toMatrix_shifted] at positive ⊢
    obtain ⟨l, factored, product, lower, diagonal⟩ := (Dense.cholesky?_spec (isSymm_shifted symmetric shift)).1 positive
    refine ⟨l, l.backward (l.forward (-g)), by rw [tested, factored], ?_, ?_⟩
    · have finite : g.all Scalar.isFinite = true := by simp [Scalar.isFinite_eq_true]
      rw [denseSolve, Dense.isFinite_eq_true, finite]
      rfl
    · rw [← product, Dense.mulVec_backward_forward lower diagonal, Vec.get_neg]
  · intro shift low
    rw [← Dense.toMatrix_shifted] at low
    rw [tested, (Dense.cholesky?_spec (isSymm_shifted symmetric shift)).2 low]

theorem sparseExact (symmetric : a.toMatrix.IsSymm) (g : Vector α n) :
    Exact a.toMatrix g (fun shift => .ok (sparseFactor? a shift)) (fun factor => .ok (factor.solve (-g))) := by
  have shifted (shift : α) : sparseFactor? a shift = PivotFactor.ofPositive? (a.shifted shift) := by
    rw [sparseFactor?, Dense.shifted]
    congr 2
    ext i j
    by_cases diagonal : i = j <;> simp [diagonal]
  constructor
  · intro shift positive
    rw [← Dense.toMatrix_shifted] at positive ⊢
    obtain ⟨f, factored, product, unit, lower, upper, pivots⟩ :=
      (PivotFactor.ofPositive?_spec (isSymm_shifted symmetric shift)).1 positive
    refine ⟨f, f.solve (-g), by rw [shifted, factored], rfl, ?_⟩
    rw [← product, PivotFactor.mulVec_solve unit lower upper pivots, Vec.get_neg]
  · intro shift low
    rw [← Dense.toMatrix_shifted] at low
    rw [shifted, (PivotFactor.ofPositive?_spec (isSymm_shifted symmetric shift)).2 low]

/-- The loop ends with the first shift of its sequence that makes the matrix positive definite, whatever exact test
finds it, so the dense and the sparse step agree. In binary floating point it ends with any test at all. -/
theorem first_positive_shift (h : Dense α n n) (g : Vector α n) :
    (∃ s, FirstShifted h.symmetrized.toMatrix g s ∧ step .shifts (.dense h) g = .ok s ∧
      (∀ (sparse : Sparse α n n) method, sparse.toDense = h → step method (.sparse sparse) g = .ok s) ∧
      ∀ (φ : Type) (factor? : α → Except (Fault α) (Option φ)) solve,
        Exact h.symmetrized.toMatrix g factor? solve →
        shiftedStep factor? solve h.symmetrized.diagonal = .ok s) ∧
    ∀ (φ : Type) (factor? : Float → Except (Fault Float) (Option φ)) (first : Float), ∃ k < 1035,
      Reaches factor? first k ∧ EndsWith factor? first k (findShift factor? 0 first) := by
  classical
  have symmetric := Dense.isSymm_symmetrized h
  have dense := denseExact symmetric g
  have sequence := shiftSequence h.symmetrized
  constructor
  · have some := exists_positive_shift sequence
    obtain ⟨positive, failed⟩ := And.intro (Nat.find_spec some) fun j below => Nat.find_min some (m := j) below
    obtain ⟨l, p, _, _, solves⟩ := dense.succeeds _ positive
    refine ⟨_, ?_, dense.shiftedStep_eq positive failed solves, ?_,
      fun φ factor? solve exact => exact.shiftedStep_eq positive failed solves⟩
    · exact sequence.firstShifted positive failed solves
    · rintro sparse method rfl
      exact (sparseExact symmetric g).shiftedStep_eq positive failed solves
  · intro φ factor? first
    obtain ⟨last, below, infinite⟩ := exists_infinite_shift first
    obtain ⟨k, before, reaches, ends⟩ := exists_endsWith factor? infinite
    exact ⟨k, before.trans_lt below, reaches, ends⟩

/-- An indefinite matrix that a shift of `1 / 1000` leaves indefinite. -/
noncomputable def overcoupled : Sparse ℝ 2 2 :=
  .ofTriplets [⟨0, 0, 1⟩, ⟨0, 1, 2003 / 2000⟩, ⟨1, 0, 2003 / 2000⟩, ⟨1, 1, 1⟩]

theorem symmetrized_overcoupled (i j : Fin 2) :
    overcoupled.toDense.symmetrized.get i j = if i = j then 1 else 2003 / 2000 := by
  have entries (i j : Fin 2) : overcoupled.get i j = if i = j then 1 else 2003 / 2000 := by
    fin_cases i <;> fin_cases j <;> rfl
  rw [Dense.symmetrized, Dense.get_ofFn, Sparse.toDense, Dense.get_ofFn, Dense.get_ofFn, entries, entries,
    Scalar.ratio_eq]
  simp only [eq_comm (a := j)]
  ring

theorem positiveDefinite_overcoupled (shift : ℝ) :
    PositiveDefinite (overcoupled.toDense.symmetrized.toMatrix + shift • (1 : Matrix (Fin 2) (Fin 2) ℝ)) ↔
      3 / 2000 < shift := by
  have form (x : Fin 2 → ℝ) :
      x ⬝ᵥ (overcoupled.toDense.symmetrized.toMatrix + shift • (1 : Matrix (Fin 2) (Fin 2) ℝ)) *ᵥ x =
        2003 / 2000 * (x 0 + x 1) ^ 2 + (shift - 3 / 2000) * (x 0 ^ 2 + x 1 ^ 2) := by
    simp [mulVec, dotProduct, symmetrized_overcoupled, one_apply]
    ring
  constructor
  · intro positive
    -- along this vector the form is twice the excess of the shift
    have opposite := positive ![1, -1] (fun zero => one_ne_zero (congrFun zero 0))
    rw [form] at opposite
    norm_num at opposite
    linarith
  · intro large x nonzero
    rw [form]
    have square : 0 < x 0 ^ 2 + x 1 ^ 2 := by
      obtain ⟨i, entry⟩ := Function.ne_iff.1 nonzero
      fin_cases i
      · exact add_pos_of_pos_of_nonneg (sq_pos_of_ne_zero entry) (sq_nonneg _)
      · exact add_pos_of_nonneg_of_pos (sq_nonneg _) (sq_pos_of_ne_zero entry)
    have shifted : 0 < shift - 3 / 2000 := sub_pos.2 large
    positivity

theorem first_positive_shift_of_overcoupled :
    (∃ s, step .shifts (.dense overcoupled.toDense) #v[1, -1] = .ok s ∧
      step .shifts (.sparse overcoupled) #v[1, -1] = .ok s ∧ s.shift = 1 / 500 ∧ s.attempts = 3 ∧
      s.direction = #v[-2000, 2000]) ∧
    findShift (fun _ : Float => .ok (none : Option Unit)) 0 0 = .error .noShift := by
  obtain ⟨⟨s, shifted, dense, sparse, -⟩, ends⟩ := first_positive_shift overcoupled.toDense #v[1, -1]
  constructor
  · obtain ⟨τ, k, sequence, shift, attempts, failed⟩ := shifted.first
    have none : τ 0 = 0 := sequence.unshifted fun i => by rw [Dense.toMatrix_apply, symmetrized_overcoupled]; norm_num
    have first : τ 1 = 1 / 1000 := by rw [sequence.doubled, none]; norm_num
    have second : τ 2 = 1 / 500 := by rw [sequence.doubled, first]; norm_num
    have positive := shifted.positive
    simp only [positiveDefinite_overcoupled] at failed positive
    obtain rfl : k = 2 := by
      -- the shifts are 0, 1 / 1000 and 1 / 500, of which only the last one is large enough
      rw [shift] at positive
      rcases lt_trichotomy k 2 with below | here | above
      · interval_cases k <;> norm_num [none, first] at positive
      · exact here
      · exact absurd (failed 2 above) (by norm_num [second])
    rw [second] at shift
    have solves := shifted.solves
    rw [shift] at solves
    have row : (1 + 1 / 500) * s.direction.get 0 + 2003 / 2000 * s.direction.get 1 = -1 := by
      simpa [mulVec, dotProduct, symmetrized_overcoupled, one_apply] using congrFun solves 0
    have row' : 2003 / 2000 * s.direction.get 0 + (1 + 1 / 500) * s.direction.get 1 = 1 := by
      simpa [mulVec, dotProduct, symmetrized_overcoupled, one_apply] using congrFun solves 1
    refine ⟨s, dense, sparse overcoupled .shifts rfl, shift, attempts, Vec.ext_get (funext fun i => ?_)⟩
    fin_cases i
    · change s.direction.get 0 = -2000
      linarith
    · change s.direction.get 1 = 2000
      linarith
  · obtain ⟨k, -, -, ends⟩ := ends Unit (fun _ => .ok none) 0
    generalize findShift (fun _ : Float => .ok (none : Option Unit)) 0 0 = result at ends ⊢
    cases ends with
    | found factor found => cases found
    | fault fault failed => cases failed
    | exhausted => rfl

end Descent.Regularizer
