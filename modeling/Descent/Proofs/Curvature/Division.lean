import Mathlib
import Descent.Curvature
import Descent.Proofs.Computation
import Descent.Proofs.Numbers.Roots

namespace Descent

open Float.Model Binary64

variable {n : Nat}

namespace Vec

def Negligible (x : Vector Float n) : Prop := ∀ i, (x.get i).abs ≤ negligible

instance (x : Vector Float n) : Decidable (Negligible x) := inferInstanceAs (Decidable (∀ _, _))

theorem forall_mem_zipWith {P : Float → Prop} {f : Float → Float → Float} {x y : Vector Float n} :
    (∀ a ∈ (Vector.zipWith f x y).toList, P a) ↔ ∀ i, P (f (x.get i) (y.get i)) := by
  constructor
  · intro all i
    refine all _ (Vector.mem_toList_iff.2 (Vector.mem_iff_getElem.2 ⟨i, i.isLt, ?_⟩))
    rw [Vector.getElem_zipWith, get_eq_getElem, get_eq_getElem]
  · intro all a member
    obtain ⟨i, inside, rfl⟩ := Vector.mem_iff_getElem.1 (Vector.mem_toList_iff.1 member)
    rw [Vector.getElem_zipWith]
    exact all ⟨i, inside⟩

theorem dot_self (x : Vector Float n) : Unsigned (dot x x) ∧
    ((dot x x).toModel.unpack = .zero .positive ↔ Negligible x) ∧
    ((dot x x).toModel.unpack = .notANumber → ∃ i, (x.get i).toModel.unpack = .notANumber) := by
  have zero : (0 : Float).toModel.unpack = .zero .positive := rfl
  obtain ⟨unsigned, zeros, nan⟩ := Unsigned.foldl (l := (Vector.zipWith (· * ·) x x).toList) (.zero zero)
    (forall_mem_zipWith.2 fun i => (square (x.get i)).1)
  rw [dot, ← Vector.foldl_toList, zeros, nan, forall_mem_zipWith]
  refine ⟨unsigned, ?_, ?_⟩
  · rw [zero]
    simp only [true_and, Negligible, (square _).2.1]
  · rintro (start | ⟨a, member, taken⟩)
    · cases zero.symm.trans start
    · by_contra! numbers
      have none : ∀ b ∈ (Vector.zipWith (· * ·) x x).toList, b.toModel.unpack ≠ .notANumber :=
        forall_mem_zipWith.2 fun i nan => numbers i ((square (x.get i)).2.2.1 nan)
      exact none a member taken

theorem finite_of_dot {x y : Vector Float n} (finite : (dot x y).toModel.unpack.isFinite = true) (i : Fin n) :
    (x.get i).toModel.unpack.isFinite = true ∧ (y.get i).toModel.unpack.isFinite = true := by
  rw [dot, ← Vector.foldl_toList] at finite
  exact finite_of_mul (forall_mem_zipWith.1 (finite_of_foldl finite).2 i)

end Vec

namespace History

theorem counts_trillionth :
    ∃ part, Counts (Scalar.ratio 1 1000000000000) part ∧ part < unity ∧ leastRoot ≤ part := by
  have canonical : Canonical 4951760157141521 (-92) := ⟨by decide, by decide, fun _ => by decide⟩
  have packed : (Scalar.ratio 1 1000000000000 : Float).toModel =
      Float.Model.pack (.finite .positive 4951760157141521 (-92) (by decide)) := by decide +kernel
  refine ⟨_, ⟨_, _, _, by rw [packed, unpack_pack canonical (by decide)], rfl⟩, ?_, ?_⟩
  · exact canonical.units_lt ⟨by decide, by decide, fun _ => by decide⟩ (by decide)
  · exact (Canonical.units_lt ⟨by decide, by decide, fun _ => by decide⟩ canonical (by decide)).le

variable (s y : Vector Float n)

/-- The step and the change are at right angles, and one of them is too long for its square and the other too
short. -/
def Undecided : Prop :=
  Scalar.same (Vec.dot s y) 0 = true ∧ ((Vec.dot s s).isInf = true ∧ Vec.Negligible y ∨
    Vec.Negligible s ∧ (Vec.dot y y).isInf = true)

instance : Decidable (Undecided s y) := inferInstanceAs (Decidable (_ ∧ (_ ∧ _ ∨ _ ∧ _)))

variable {s y}

theorem unsigned_bound (numbers : ∀ i, (s.get i).toModel.unpack ≠ .notANumber)
    (numbers' : ∀ i, (y.get i).toModel.unpack ≠ .notANumber) : Unsigned (curvatureBound s y) ∧
      ((curvatureBound s y).toModel.unpack = .notANumber ↔ (Vec.dot s s).isInf = true ∧ Vec.Negligible y ∨
        Vec.Negligible s ∧ (Vec.dot y y).isInf = true) := by
  obtain ⟨part, fraction, below, least⟩ := counts_trillionth
  obtain ⟨unsigned, zero, nan⟩ := Vec.dot_self s
  obtain ⟨unsigned', zero', nan'⟩ := Vec.dot_self y
  have number := mt nan (not_exists.2 numbers)
  have number' := mt nan' (not_exists.2 numbers')
  have scaled := sameKind_scaled fraction below least unsigned number
  have length := sameKind_sqrt unsigned' number'
  obtain ⟨unsigned'', invalid⟩ := scaled.unsigned.1.mul length.unsigned.1 scaled.unsigned.2 length.unsigned.2
  rw [scaled.infinite_iff, scaled.zero_iff, length.infinite_iff, length.zero_iff, ← unsigned.isInf_iff,
    ← unsigned'.isInf_iff, zero, zero'] at invalid
  exact ⟨unsigned'', invalid⟩

theorem undecided_iff :
    Undecided s y ↔ Scalar.same (Vec.dot s y) 0 = true ∧ ¬Vec.dot s y ≤ curvatureBound s y := by
  refine and_congr_right fun same => ?_
  obtain ⟨σ, zero⟩ := same_zero_iff.1 same
  have finite : (Vec.dot s y).toModel.unpack.isFinite = true := by
    rw [zero]
    rfl
  obtain ⟨unsigned, nan⟩ := unsigned_bound (fun i => ne_nan_of_finite (Vec.finite_of_dot finite i).1)
    fun i => ne_nan_of_finite (Vec.finite_of_dot finite i).2
  rw [← nan]
  exact ⟨not_le_nan, fun above => by_contra fun number => above (unsigned.zero_le number zero)⟩

theorem bound_of_negligible (finite : (Vec.dot s s).isFinite = true) (small : Vec.Negligible y) :
    curvatureBound s y = 0 := by
  obtain ⟨part, fraction, below, least⟩ := counts_trillionth
  obtain ⟨unsigned, -, -⟩ := Vec.dot_self s
  obtain ⟨unsigned', zero', -⟩ := Vec.dot_self y
  have square := zero'.2 small
  have length : (Vec.norm y).toModel.unpack = .zero .positive :=
    (sameKind_sqrt unsigned' (by rw [square]; exact UnpackedFloat.noConfusion)).zero_iff.2 square
  have finite : (Vec.dot s s).toModel.unpack.isFinite = true := finite
  refine eq_of_unpack (y := 0) (unpack_mul_of_zero ?_)
  rw [length]
  cases sameKind_scaled fraction below least unsigned (ne_nan_of_finite finite) with
  | zero _ scaled =>
      have scaled : (Scalar.ratio 1 1000000000000 * Vec.norm s).toModel.unpack = .zero .positive := scaled
      rw [scaled]
      rfl
  | infinite infinite _ =>
      rw [infinite] at finite
      cases finite
  | finite _ counts =>
      obtain ⟨m, e, positive, taken, -⟩ := counts
      have scaled : (Scalar.ratio 1 1000000000000 * Vec.norm s).toModel.unpack =
        .finite .positive m e positive := taken
      rw [scaled]
      rfl

theorem divide_eq_error_iff {a b : Float} {fault : Fault Float} :
    divide a b = .error fault ↔ fault = .divisionByZero ∧ Scalar.same b 0 = true := by
  rw [divide]
  cases Scalar.same b 0 with
  | false => exact ⟨fun failed => (by cases failed), fun zero => Bool.noConfusion zero.2⟩
  | true => simp [eq_comm]

theorem update_eq_error_iff {h : History Float n} {fault : Fault Float} :
    h.update s y = .error fault ↔ fault = .divisionByZero ∧ Undecided s y := by
  rw [undecided_iff, update]
  by_cases low : Vec.dot s y ≤ curvatureBound s y
  · rw [if_pos low]
    exact ⟨fun failed => (by cases failed), fun undecided => absurd low undecided.2.2⟩
  · rw [if_neg low, and_iff_left low]
    exact (bind_eq_error fun weight => ⟨_, rfl⟩).trans divide_eq_error_iff

def Exhausted (h : History Float n) : Prop :=
  ∃ newest, h.pairs.getLast? = some newest ∧ Vec.Negligible newest.change

theorem not_exhausted_of_empty {h : History Float n} (none : h.pairs = []) : ¬h.Exhausted := by
  rintro ⟨newest, last, -⟩
  rw [none] at last
  cases last

theorem scale_eq_error_iff {h : History Float n} {fault : Fault Float} :
    h.scale = .error fault ↔ fault = .divisionByZero ∧ h.Exhausted := by
  rw [scale]
  cases last : h.pairs.getLast? with
  | none =>
      have fresh := not_exhausted_of_empty (List.getLast?_eq_none_iff.1 last)
      exact ⟨fun failed => (by cases failed), fun exhausted => absurd exhausted.2 fresh⟩
  | some newest =>
      obtain ⟨unsigned, zero, -⟩ := Vec.dot_self newest.change
      have square : h.Exhausted ↔ Scalar.same (Vec.dot newest.change newest.change) 0 = true := by
        rw [unsigned.same_zero_iff, zero]
        simp [Exhausted, last]
      rw [square]
      exact divide_eq_error_iff

theorem direction_eq_error_iff {h : History Float n} {g : Vector Float n} {fault : Fault Float} :
    h.direction g = .error fault ↔ fault = .divisionByZero ∧ h.Exhausted := by
  rw [← scale_eq_error_iff]
  exact bind_eq_error fun factor => ⟨_, rfl⟩

theorem searchDirection_eq_error_iff {start : Float} {h : History Float n} {g : Vector Float n}
    {fault : Fault Float} :
    h.searchDirection start g = .error fault ↔ fault = .divisionByZero ∧ h.Exhausted := by
  by_cases none : h.pairs.isEmpty = true
  · have fresh := not_exhausted_of_empty (List.isEmpty_iff.1 none)
    simp only [searchDirection, if_pos none]
    exact ⟨fun failed => (by cases failed), fun exhausted => absurd exhausted.2 fresh⟩
  · rw [← direction_eq_error_iff (g := g)]
    simp only [searchDirection, if_neg none]
    refine bind_eq_error fun p => ?_
    split
    · exact ⟨_, rfl⟩
    · exact ⟨_, rfl⟩

theorem getLast?_push {α : Type} (h : History α n) (pair : CurvaturePair α n) :
    (h.push pair).pairs.getLast? = if h.limit = 0 then none else some pair := by
  rw [push, List.getLast?_drop]
  simp only [List.length_append, List.length_singleton, List.getLast?_concat]
  by_cases none : h.limit = 0
  · rw [if_pos none, if_pos (by omega)]
  · rw [if_neg none, if_neg (by omega)]

theorem exhausted_push {h : History Float n} {pair : CurvaturePair Float n} :
    (h.push pair).Exhausted ↔ 0 < h.limit ∧ Vec.Negligible pair.change := by
  rw [Exhausted, getLast?_push]
  rcases h.limit.eq_zero_or_pos with none | positive
  · simp [none]
  · simp [positive, positive.ne']

theorem update_cases {α : Type} [Scalar α] {h h' : History α n} {s y : Vector α n} {added : Bool}
    {entries : List (Entry α)} (updated : h.update s y = .ok (added, h', entries)) :
    (Vec.dot s y ≤ curvatureBound s y ∧ h' = h) ∨
      (¬Vec.dot s y ≤ curvatureBound s y ∧ ∃ weight, h' = h.push ⟨s, y, weight⟩) := by
  rw [update] at updated
  by_cases low : Vec.dot s y ≤ curvatureBound s y
  · rw [if_pos low] at updated
    cases updated
    exact .inl ⟨low, rfl⟩
  · rw [if_neg low] at updated
    obtain ⟨weight, -, updated⟩ := bind_eq_ok.1 updated
    cases updated
    exact .inr ⟨low, weight, rfl⟩

def updates (limit : Nat) (calls : List (Vector Float n × Vector Float n)) :
    Except (Fault Float) (History Float n) :=
  calls.foldlM (fun h call => do return (← h.update call.1 call.2).2.1) (.empty limit)

def admitted (calls : List (Vector Float n × Vector Float n)) : List (Vector Float n × Vector Float n) :=
  calls.filter fun call => ¬Vec.dot call.1 call.2 ≤ curvatureBound call.1 call.2

variable {limit : Nat} {calls : List (Vector Float n × Vector Float n)}

theorem updates_concat (call : Vector Float n × Vector Float n) : updates limit (calls ++ [call]) = (do
    let h ← updates limit calls
    return (← h.update call.1 call.2).2.1) := by
  simp only [updates, List.foldlM_append, List.foldlM_cons, List.foldlM_nil, bind_pure]

theorem admitted_concat (call : Vector Float n × Vector Float n) : admitted (calls ++ [call]) =
    admitted calls ++ if Vec.dot call.1 call.2 ≤ curvatureBound call.1 call.2 then [] else [call] := by
  rw [admitted, List.filter_append, admitted]
  congr 1
  split <;> simp_all

theorem updates_eq_error_iff {fault : Fault Float} : updates limit calls = .error fault ↔
    fault = .divisionByZero ∧ ∃ call ∈ calls, Undecided call.1 call.2 := by
  induction calls using List.reverseRecOn generalizing fault with
  | nil => simp [updates, pure, Except.pure]
  | append_singleton calls call ih =>
      have split : (∃ c ∈ calls ++ [call], Undecided c.1 c.2) ↔
          (∃ c ∈ calls, Undecided c.1 c.2) ∨ Undecided call.1 call.2 := by
        simp only [List.mem_append, List.mem_singleton, or_and_right, exists_or, exists_eq_left]
      rw [updates_concat, split]
      cases before : updates limit calls with
      | error other =>
          obtain ⟨rfl, earlier⟩ := ih.1 before
          constructor
          · intro failed
            cases failed
            exact ⟨rfl, .inl earlier⟩
          · rintro ⟨rfl, -⟩
            rfl
      | ok h =>
          have decided : ¬∃ c ∈ calls, Undecided c.1 c.2 := fun earlier => by
            cases before.symm.trans (ih.2 ⟨rfl, earlier⟩)
          rw [or_iff_right decided, ← update_eq_error_iff (h := h), ok_bind]
          exact bind_eq_error fun result => ⟨_, rfl⟩

theorem newest_of_updates {h : History Float n} (updated : updates limit calls = .ok h) :
    h.limit = limit ∧ h.pairs.getLast?.map (fun pair => (pair.step, pair.change)) =
      if limit = 0 then none else (admitted calls).getLast? := by
  induction calls using List.reverseRecOn generalizing h with
  | nil =>
      cases updated
      simp [empty, admitted]
  | append_singleton calls call ih =>
      rw [updates_concat] at updated
      obtain ⟨before, updated', updated⟩ := bind_eq_ok.1 updated
      obtain ⟨⟨added, after, entries⟩, updated'', same⟩ := bind_eq_ok.1 updated
      cases same
      obtain ⟨bounded, newest⟩ := ih updated'
      rw [admitted_concat]
      rcases update_cases updated'' with ⟨low, rfl⟩ | ⟨high, weight, rfl⟩
      · rw [if_pos low, List.append_nil]
        exact ⟨bounded, newest⟩
      · rw [if_neg high, getLast?_push, bounded, List.getLast?_concat]
        refine ⟨bounded, ?_⟩
        split <;> rfl

theorem exhausted_iff_of_updates {h : History Float n} (updated : updates limit calls = .ok h) :
    h.Exhausted ↔ 0 < limit ∧ ∃ call, (admitted calls).getLast? = some call ∧ Vec.Negligible call.2 := by
  obtain ⟨-, newest⟩ := newest_of_updates updated
  have changes : h.Exhausted ↔
      ∃ call, h.pairs.getLast?.map (fun pair => (pair.step, pair.change)) = some call ∧
        Vec.Negligible call.2 := by
    simp [Exhausted]
  rw [changes, newest]
  rcases limit.eq_zero_or_pos with rfl | positive
  · simp
  · simp [positive, positive.ne']

end History

end Descent
