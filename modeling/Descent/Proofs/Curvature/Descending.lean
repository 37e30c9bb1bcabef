import Mathlib
import Descent.Proofs.Curvature.InverseHessian

namespace Descent

open Matrix

variable {α : Type} [ExactField α] {n : Nat}

namespace Vec

theorem maxAbs_le_iff {x : Vector α n} {b : α} : maxAbs x ≤ b ↔ 0 ≤ b ∧ ∀ i, |x.get i| ≤ b := by
  have fold (l : List α) (c : α) : l.foldl (fun largest a => Scalar.supremum largest (Scalar.abs a)) c ≤ b ↔
      c ≤ b ∧ ∀ a ∈ l, |a| ≤ b := by
    induction l generalizing c with
    | nil => simp
    | cons a rest ih =>
        rw [List.foldl_cons, ih, Scalar.supremum_eq, ExactField.abs_eq, max_le_iff, List.forall_mem_cons,
          and_assoc]
  rw [maxAbs, ← Vector.foldl_toList, fold]
  refine and_congr_right fun _ => ⟨fun all i => ?_, fun all a member => ?_⟩
  · exact all _ (Vector.mem_toList_iff.2 (Vector.getElem_mem i.isLt))
  · obtain ⟨i, inside, rfl⟩ := Vector.mem_iff_getElem.1 (Vector.mem_toList_iff.1 member)
    exact all ⟨i, inside⟩

theorem abs_le_maxAbs (x : Vector α n) (i : Fin n) : |x.get i| ≤ maxAbs x := (maxAbs_le_iff.1 le_rfl).2 i

end Vec

namespace History

/-- The histories that updates and restarts make of an empty one. -/
inductive Built (limit : Nat) : History α n → Prop
  | empty : Built limit (.empty limit)
  | update {h h' : History α n} {s y : Vector α n} {added : Bool} {entries : List (Entry α)}
      (built : Built limit h) (updated : h.update s y = .ok (added, h', entries)) : Built limit h'
  | clear {h : History α n} (built : Built limit h) : Built limit h.clear

theorem Genuine.push {h : History α n} (genuine : h.Genuine) {pair : CurvaturePair α n}
    (new : pair.Genuine) : (h.push pair).Genuine := by
  intro other member
  rcases List.mem_append.1 (List.mem_of_mem_drop member) with known | added
  · exact genuine other known
  · rwa [List.mem_singleton.1 added]

theorem update_eq_push (h : History α n) {s y : Vector α n} (above : curvatureBound s y < Vec.dot s y)
    (positive : 0 < Vec.dot s y) :
    h.update s y = .ok (true, h.push ⟨s, y, 1 / Vec.dot s y⟩, []) := by
  rw [update, if_neg (not_le.2 above), divide_ok positive.ne']
  rfl

theorem update_genuine (roots : ∀ a : α, 0 ≤ a → 0 ≤ Scalar.sqrt a) {h : History α n} (genuine : h.Genuine)
    (s y : Vector α n) : ∃ added h' entries, h.update s y = .ok (added, h', entries) ∧ h'.Genuine := by
  by_cases low : Vec.dot s y ≤ curvatureBound s y
  · rw [update, if_pos low]
    exact ⟨_, _, _, rfl, genuine⟩
  · have positive : 0 < Vec.dot s y := (curvatureBound_nonneg roots s y).trans_lt (not_le.1 low)
    exact ⟨_, _, _, update_eq_push h (not_le.1 low) positive, genuine.push ⟨positive, rfl⟩⟩

theorem Built.genuine (roots : ∀ a : α, 0 ≤ a → 0 ≤ Scalar.sqrt a) {limit : Nat} {h : History α n}
    (built : Built limit h) : h.Genuine := by
  induction built with
  | empty =>
      intro pair member
      cases member
  | @update h h' s y added entries _ updated ih =>
      obtain ⟨_, _, _, updated', genuine⟩ := update_genuine roots ih s y
      rw [updated] at updated'
      cases updated'
      exact genuine
  | clear =>
      intro pair member
      cases member

theorem Genuine.descends {h : History α n} (genuine : h.Genuine) {g : Vector α n} (nonzero : g.get ≠ 0) :
    ∃ p, h.direction g = .ok p ∧ Vec.dot g p < 0 := by
  refine ⟨_, direction_eq genuine g, ?_⟩
  rw [Vec.dot_eq_dotProduct, Vec.get_ofFn, dotProduct_neg, neg_lt_zero]
  exact genuine.positiveDefinite g.get nonzero

theorem dot_neg_neg {g : Vector α n} (nonzero : g.get ≠ 0) : Vec.dot g (-g) < 0 := by
  rw [Vec.dot_eq_dotProduct, Vec.get_neg, dotProduct_neg, neg_lt_zero]
  exact dotProduct_self_pos nonzero

theorem scale_eq_error {h : History α n} {newest : CurvaturePair α n} (last : h.pairs.getLast? = some newest)
    (flat : newest.change.get = 0) : h.scale = .error .divisionByZero := by
  have zero : Vec.dot newest.change newest.change = 0 := by
    rw [Vec.dot_eq_dotProduct, flat, zero_dotProduct]
  rw [scale, last]
  simp only [divide, zero, Scalar.same_iff.2 rfl, if_true]

theorem direction_ok {h : History α n}
    (long : ∀ newest, h.pairs.getLast? = some newest → newest.change.get ≠ 0) (g : Vector α n) :
    ∃ p, h.direction g = .ok p := by
  cases last : h.pairs.getLast? with
  | none =>
      have scaled : h.scale = .ok 1 := by rw [scale, last]
      exact ⟨_, direction_of_scale scaled g⟩
  | some newest =>
      have square : Vec.dot newest.change newest.change ≠ 0 := by
        rw [Vec.dot_eq_dotProduct]
        exact fun zero => long newest last (dotProduct_self_eq_zero.1 zero)
      exact ⟨_, direction_of_scale (scale_eq_ok last square) g⟩

theorem maxAbs_steepest_le {start : α} (positive : 0 < start) (g : Vector α n) :
    Vec.maxAbs ((steepest start g).2 * (steepest start g).1 : Vector α n) ≤ start := by
  rw [Vec.maxAbs_le_iff]
  refine ⟨positive.le, fun i => ?_⟩
  have below := Vec.abs_le_maxAbs g i
  simp only [steepest, Vec.get_smul, Vec.get_neg, Pi.smul_apply, Pi.neg_apply, smul_eq_mul, abs_mul, abs_neg]
  split
  · rename_i large
    have above : 0 < Vec.maxAbs g := one_pos.trans large
    rw [abs_of_pos (div_pos positive above), div_mul_eq_mul_div]
    apply div_le_of_le_mul₀ above.le positive.le
    exact mul_le_mul_of_nonneg_left below positive.le
  · rename_i small
    rw [abs_of_pos positive]
    exact mul_le_of_le_one_right positive.le (below.trans (not_lt.1 small))

theorem searchDirection_empty (start : α) {h : History α n} (none : h.pairs = []) (g : Vector α n) :
    h.searchDirection start g = .ok ⟨(steepest start g).1, (steepest start g).2, h, []⟩ := by
  simp only [searchDirection, none, List.isEmpty_nil, if_true]
  rfl

theorem searchDirection_of_ok (start : α) {h : History α n} (some : h.pairs ≠ []) {g p : Vector α n}
    (directed : h.direction g = .ok p) : h.searchDirection start g =
      if Vec.dot g p < 0 then .ok ⟨p, start, h, []⟩
      else .ok ⟨(steepest start g).1, (steepest start g).2, h.clear, [⟨.debug, .directionDiscarded⟩]⟩ := by
  simp only [searchDirection, List.isEmpty_iff, if_neg some, directed, ok_bind]
  split <;> rfl

theorem searchDirection_eq_error (start : α) {h : History α n} (g : Vector α n)
    {newest : CurvaturePair α n} (last : h.pairs.getLast? = some newest) (flat : newest.change.get = 0) :
    h.searchDirection start g = .error .divisionByZero := by
  have some : h.pairs ≠ [] := by
    rintro none
    rw [none] at last
    cases last
  simp only [searchDirection, List.isEmpty_iff, if_neg some, direction, scale_eq_error last flat]
  rfl

theorem Genuine.kept {h : History α n} (genuine : h.Genuine) (start : α) {g : Vector α n}
    (nonzero : g.get ≠ 0) : ∃ p first, h.direction g = .ok p ∧ Vec.dot g p < 0 ∧
      h.searchDirection start g = .ok ⟨p, first, h, []⟩ := by
  obtain ⟨p, directed, descends⟩ := genuine.descends nonzero
  by_cases none : h.pairs = []
  · have down : p = -g := by
      rw [direction_eq genuine, inverseHessian_eq_one none, one_mulVec] at directed
      obtain rfl := Except.ok.inj directed
      apply Vec.ext_get
      simp
    subst down
    exact ⟨-g, _, directed, descends, searchDirection_empty start none g⟩
  · refine ⟨p, start, directed, descends, ?_⟩
    rw [searchDirection_of_ok start none directed, if_pos descends]

/-- A direction of descent, or none because the newest pair has no change. -/
theorem search_descends (roots : ∀ a : α, 0 ≤ a → 0 ≤ Scalar.sqrt a) {start : α} (positive : 0 < start) :
    (∀ (limit : Nat) (h : History α n), Built limit h →
      (∀ s y, ∃ added h' entries, h.update s y = .ok (added, h', entries)) ∧
      ∀ g : Vector α n, g.get ≠ 0 → ∃ p first, h.direction g = .ok p ∧ Vec.dot g p < 0 ∧
        h.searchDirection start g = .ok ⟨p, first, h, []⟩) ∧
    (∀ (h : History α n) (g : Vector α n), g.get ≠ 0 →
      (∀ newest, h.pairs.getLast? = some newest → newest.change.get ≠ 0) →
      ∃ search, h.searchDirection start g = .ok search ∧ Vec.dot g search.direction < 0 ∧
        (search.history = h ∨ search.history = h.clear) ∧
        (search.history.pairs = [] →
          Vec.maxAbs (search.start * search.direction : Vector α n) ≤ start)) ∧
    (∀ (h : History α n) (g : Vector α n) (newest : CurvaturePair α n),
      h.pairs.getLast? = some newest → newest.change.get = 0 →
      h.searchDirection start g = .error .divisionByZero) := by
  refine ⟨fun limit h built => ?_, fun h g nonzero long => ?_, fun h g newest last flat =>
    searchDirection_eq_error start g last flat⟩
  · have genuine := built.genuine roots
    refine ⟨fun s y => ?_, fun g nonzero => genuine.kept start nonzero⟩
    obtain ⟨added, h', entries, updated, -⟩ := update_genuine roots genuine s y
    exact ⟨added, h', entries, updated⟩
  · have steep : Vec.dot g (steepest start g).1 < 0 := dot_neg_neg nonzero
    by_cases none : h.pairs = []
    · exact ⟨_, searchDirection_empty start none g, steep, .inl rfl,
        fun _ => maxAbs_steepest_le positive g⟩
    · obtain ⟨p, directed⟩ := direction_ok long g
      rw [searchDirection_of_ok start none directed]
      by_cases descends : Vec.dot g p < 0
      · rw [if_pos descends]
        exact ⟨_, rfl, descends, .inl rfl, fun empty => absurd empty none⟩
      · rw [if_neg descends]
        exact ⟨_, rfl, steep, .inr rfl, fun _ => maxAbs_steepest_le positive g⟩

def falling : History ℚ 2 := ⟨5, [⟨.replicate 2 1, .replicate 2 (-1), -1 / 2⟩]⟩

theorem built_bent : Built 5 bent := by
  have first := update_eq_push (.empty 5 : History ℚ 2) (s := #v[1, 0]) (y := #v[2, 1])
    (by decide +kernel) (by decide +kernel)
  have second := update_eq_push ((.empty 5 : History ℚ 2).push ⟨#v[1, 0], #v[2, 1], 1 / 2⟩)
    (s := #v[1, 1]) (y := #v[1, 3]) (by decide +kernel) (by decide +kernel)
  have weight : Vec.dot #v[1, 0] #v[2, 1] = (2 : ℚ) := by decide +kernel
  have weight' : Vec.dot #v[1, 1] #v[1, 3] = (4 : ℚ) := by decide +kernel
  rw [weight] at first
  rw [weight'] at second
  exact .update (.update .empty first) second

theorem bent_search_descends : Built 5 bent ∧ (∃ p first, bent.direction #v[2, 0] = .ok p ∧
      Vec.dot #v[2, 0] p < 0 ∧ bent.searchDirection 1 #v[2, 0] = .ok ⟨p, first, bent, []⟩) ∧
    ∃ search, falling.searchDirection 1 #v[4, 0] = .ok search ∧ Vec.dot #v[4, 0] search.direction < 0 ∧
      (search.history.pairs = [] →
        Vec.maxAbs (search.start * search.direction : Vector ℚ 2) ≤ 1) := by
  obtain ⟨kept, found, -⟩ := search_descends (n := 2) (fun a _ => Rat.sqrt_nonneg a) (one_pos (α := ℚ))
  have apart (x : ℚ) (nonzero : x ≠ 0) (y : ℚ) : (#v[x, y] : Vector ℚ 2).get ≠ 0 :=
    fun zero => nonzero (congrFun zero 0)
  obtain ⟨search, searched, descends, -, capped⟩ := found falling #v[4, 0] (apart 4 four_ne_zero 0) (by
    intro newest last
    obtain rfl := Option.some.inj last
    exact fun zero => absurd (congrFun zero 0) (by decide))
  exact ⟨built_bent, (kept 5 bent built_bent).2 _ (apart 2 two_ne_zero 0), search, searched, descends, capped⟩

def unchanging : History ℚ 1 := ⟨5, [⟨#v[1], #v[0], 1⟩]⟩

theorem unchanging_not_searched : (#v[4] : Vector ℚ 1).get ≠ 0 ∧
    unchanging.searchDirection 1 #v[4] = .error .divisionByZero ∧
    ¬∃ search, unchanging.searchDirection 1 #v[4] = .ok search := by
  have apart : (#v[4] : Vector ℚ 1).get ≠ 0 := fun zero => four_ne_zero (congrFun zero 0)
  have flat : (#v[0] : Vector ℚ 1).get = 0 := by
    ext i
    fin_cases i
    rfl
  have fails : unchanging.searchDirection 1 #v[4] = .error .divisionByZero :=
    searchDirection_eq_error 1 #v[4] rfl flat
  refine ⟨apart, fails, ?_⟩
  rintro ⟨search, searched⟩
  cases fails.symm.trans searched

end History

end Descent
