import Mathlib
import Descent.Proofs.Search.Trials
import Descent.Proofs.Settings

namespace Descent

namespace LineSearch

variable {σ α : Type} [Scalar α] {n : Nat} {c : Config α} {evaluate : Vector α n → Eval σ α α}
  {x p g : Vector α n} {value slope start : α} {o o' : σ} {outcome : Except (Fault α) (SearchResult α)}

theorem Backtracks.watched {budget tried : Nat} {step : α}
    (backtracks : Backtracks c evaluate x p value slope budget tried step o outcome o')
    (noted : List (Vector α n)) : ∃ points,
      Backtracks c (watched evaluate) x p value slope budget tried step (o, noted) outcome (o', noted ++ points) := by
  induction backtracks generalizing noted with
  | unfinished => exact ⟨[], by rw [List.append_nil]; exact .unfinished⟩
  | underflow still => exact ⟨[], by rw [List.append_nil]; exact .underflow still⟩
  | raised positive apart evaluated => exact ⟨[_], .raised positive apart (run_watched evaluated noted)⟩
  | accepted positive apart evaluated low => exact ⟨[_], .accepted positive apart (run_watched evaluated noted) low⟩
  | rejected positive apart evaluated high _ ih =>
      obtain ⟨points, later⟩ := ih (noted ++ [_])
      rw [List.append_assoc] at later
      exact ⟨_, .rejected positive apart (run_watched evaluated noted) high later⟩

theorem run_backtrack_watched {budget tried : Nat} {step : α}
    (ran : (backtrack c evaluate x p value slope budget tried step).run o = (outcome, o'))
    (noted : List (Vector α n)) :
    ∃ points, (backtrack c (watched evaluate) x p value slope budget tried step).run (o, noted) =
      (outcome, o', noted ++ points) := by
  obtain ⟨points, backtracks⟩ := (run_backtrack_iff.1 ran).watched noted
  exact ⟨points, run_backtrack_iff.2 backtracks⟩

theorem run_search_watched {budget : Nat}
    (ran : (search c budget evaluate x value g p start).run o = (outcome, o')) :
    ∃ points, (search c budget (watched evaluate) x value g p start).run (o, []) = (outcome, o', points) := by
  rw [search] at ran ⊢
  split at ran
  · rename_i descends
    rw [if_pos descends]
    exact run_backtrack_watched ran []
  · rename_i level
    cases ran
    rw [if_neg level]
    exact ⟨[], rfl⟩

theorem Moving.points_ne_nil {budget : Nat} {points : List (Vector α n)} (moving : Moving c x p start 0)
    (ran : (backtrack c (watched evaluate) x p value slope (budget + 1) 0 start).run (o, []) =
      (outcome, o', points)) : points ≠ [] := by
  have first : (backtrack c (watched evaluate) x p value slope (budget + 1) 0 start).run (o, []) = _ :=
    run_backtrack_moving moving budget 0
  rcases evaluated : (evaluate (trial c x p start 0)).run o with ⟨fault | reached, o₁⟩ <;>
    rw [run_watched evaluated] at first
  · cases ran.symm.trans first
    exact List.cons_ne_nil _ _
  · simp only at first
    split at first
    · cases ran.symm.trans first
      exact List.cons_ne_nil _ _
    · rcases rest : (backtrack c evaluate x p value slope budget 1 (steps c start 1)).run o₁ with ⟨outcome', o₂⟩
      obtain ⟨points', after⟩ := run_backtrack_watched rest ([] ++ [trial c x p start 0])
      cases ran.symm.trans (first.trans after)
      exact List.cons_ne_nil _ _

theorem points_ne_nil_iff {budget : Nat} (room : 0 < budget) {points : List (Vector α n)}
    (ran : (search c budget (watched evaluate) x value g p start).run (o, []) = (outcome, o', points)) :
    points ≠ [] ↔ Vec.dot g p < 0 ∧ Moving c x p start 0 := by
  obtain ⟨budget, rfl⟩ := Nat.exists_eq_succ_of_ne_zero room.ne'
  rw [search] at ran
  by_cases descends : Vec.dot g p < 0
  · rw [if_pos descends] at ran
    by_cases moving : Moving c x p start 0
    · exact ⟨fun _ => ⟨descends, moving⟩, fun _ => moving.points_ne_nil ran⟩
    · have ended : (backtrack c (watched evaluate) x p value (Vec.dot g p) (budget + 1) 0 start).run (o, []) = _ :=
        run_backtrack_still moving budget 0
      cases ran.symm.trans ended
      exact ⟨fun some => absurd rfl some, fun both => absurd both.2 moving⟩
  · rw [if_neg descends] at ran
    cases ran
    exact ⟨fun some => absurd rfl some, fun both => absurd both.1 descends⟩

end LineSearch

section

variable {σ α ι β : Type} [Scalar α] {n : Nat} (setup : RunSetup α n) (oracle : Oracle σ α n) (m : Scheme σ α n ι β)
  (exhausted : Bool) (s : ι) (o : σ) (seen : List (Sight α n))

/-- The search of an iteration, with its first step and the points at which it evaluates. -/
structure Tries (b : β) (p : Vector α n) (start : α) (points : List (Vector α n)) : Prop where
  searched : ∃ o₁ s' outcome o', Continues setup m exhausted s o seen b o₁ ∧ m.direct s b = .ok (p, start, s') ∧
    (LineSearch.search setup.config setup.searchBudget oracle.value (m.point s) (m.value b) (m.gradient b) p
      start).run o₁ = (outcome, o') ∧
    (LineSearch.search setup.config setup.searchBudget (LineSearch.watched oracle.value) (m.point s) (m.value b)
      (m.gradient b) p start).run (o₁, []) = (outcome, o', points)

variable {setup oracle m exhausted s o seen} {b : β} {p : Vector α n} {start : α} {points : List (Vector α n)}

theorem Continues.tries {s' : ι} {o₁ : σ} (continues : Continues setup m exhausted s o seen b o₁)
    (directed : m.direct s b = .ok (p, start, s')) :
    ∃ points, Tries setup oracle m exhausted s o seen b p start points := by
  rcases searched : (LineSearch.search setup.config setup.searchBudget oracle.value (m.point s) (m.value b)
    (m.gradient b) p start).run o₁ with ⟨outcome, o'⟩
  obtain ⟨points, noted⟩ := LineSearch.run_search_watched searched
  exact ⟨points, o₁, s', outcome, o', continues, directed, searched, noted⟩

theorem Searches.tries {s' : ι} {outcome : Except (Fault α) (SearchResult α)} {o' : σ}
    (searches : Searches setup oracle m exhausted s o seen b p s' outcome o') :
    ∃ start points, Tries setup oracle m exhausted s o seen b p start points := by
  obtain ⟨o₁, start, continues, directed, -⟩ := searches
  exact ⟨start, continues.tries directed⟩

theorem Tries.directed (tries : Tries setup oracle m exhausted s o seen b p start points) :
    ∃ s', m.direct s b = .ok (p, start, s') := by
  obtain ⟨_, s', _, _, -, directed, -⟩ := tries
  exact ⟨s', directed⟩

theorem Tries.points_ne_nil_iff (room : 0 < setup.searchBudget)
    (tries : Tries setup oracle m exhausted s o seen b p start points) :
    points ≠ [] ↔ Vec.dot (m.gradient b) p < 0 ∧ ¬Vec.same (m.point s + (start * p : Vector α n)) (m.point s) ∧
      0 < start := by
  obtain ⟨_, _, _, _, -, -, -, noted⟩ := tries
  rw [LineSearch.points_ne_nil_iff room noted]
  exact and_congr_right fun _ => ⟨fun moving => ⟨moving.apart, moving.positive⟩, fun both => ⟨both.2, both.1⟩⟩

end

section

variable {σ α : Type} [Scalar α] {n : Nat} {setup : RunSetup α n} {oracle : Oracle σ α n} {p g : Vector α n}
  {start : α}

theorem Newton.start_eq {rule : Newton.StepRule α n} {s s' : Newton.State α n} {b : α × Vector α n × Hessian α n}
    (directed : (Newton.scheme setup oracle rule).direct s b = .ok (p, start, s')) :
    start = setup.config.startStep := by
  obtain ⟨step, -, directed⟩ := bind_eq_ok.1 directed
  cases directed
  rfl

theorem History.start_cases {first : α} {h : History α n} {search : History.Search α n}
    (searched : h.searchDirection first g = .ok search) :
    search.start = first ∨
      search.direction = -g ∧ 1 < Vec.maxAbs g ∧ search.start = first / Vec.maxAbs g := by
  have steep : (History.steepest first g).2 = first ∨ (History.steepest first g).1 = -g ∧ 1 < Vec.maxAbs g ∧
      (History.steepest first g).2 = first / Vec.maxAbs g := by
    by_cases large : 1 < Vec.maxAbs g
    · exact .inr ⟨rfl, large, if_pos large⟩
    · exact .inl (if_neg large)
  simp only [History.searchDirection] at searched
  split at searched
  · cases searched
    exact steep
  · obtain ⟨p, -, searched⟩ := bind_eq_ok.1 searched
    split at searched <;> cases searched
    · exact .inl rfl
    · exact steep

theorem Lbfgs.start_cases {s s' : Lbfgs.State α n} {b : α × Vector α n}
    (directed : (Lbfgs.scheme setup oracle).direct s b = .ok (p, start, s')) :
    start = setup.config.startStep ∨
      p = -b.2 ∧ 1 < Vec.maxAbs b.2 ∧ start = setup.config.startStep / Vec.maxAbs b.2 := by
  obtain ⟨search, found, directed⟩ := bind_eq_ok.1 directed
  cases directed
  obtain ⟨⟨history, entries⟩, -, found⟩ := bind_eq_ok.1 found
  obtain ⟨search', searched, found⟩ := bind_eq_ok.1 found
  cases found
  exact (History.start_cases searched :)

end

section

variable {n : Nat}

theorem Vec.finite_maxAbs {g : Vector Float n} (finite : ∀ i, (g.get i).isFinite = true) :
    (Vec.maxAbs g).isFinite = true := by
  rw [Vec.maxAbs, ← Vector.foldl_toList]
  refine List.foldlRecOn (motive := fun largest : Float => largest.isFinite = true) g.toList _ (by decide) ?_
  intro largest known a member
  obtain ⟨i, inside, rfl⟩ := Vector.mem_iff_getElem.1 (Vector.mem_toList_iff.1 member)
  have entry := Binary64.finite_abs (finite ⟨i, inside⟩)
  rw [Scalar.supremum]
  split
  · exact known
  · split
    · exact entry
    · rw [Scalar.larger]
      split
      · exact entry
      · exact known

theorem Vec.same_add_smul {a : Float} {s : Float.Model.UnpackedFloat.Sign} (zero : a.toModel.unpack = .zero s)
    {x p : Vector Float n} (finite : ∀ i, (x.get i).isFinite = true) (finite' : ∀ i, (p.get i).isFinite = true) :
    Vec.same (x + (a * p : Vector Float n)) x = true := by
  rw [Vec.same_iff]
  intro i
  simp only [Vec.get_eq_getElem, Vector.getElem_add, Vector.getElem_hmul]
  exact Binary64.same_add_mul zero (finite i) (finite' i)

theorem Lbfgs.start_pos_iff {σ : Type} {setup : RunSetup Float n} {oracle : Oracle σ Float n}
    {s s' : Lbfgs.State Float n} {b : Float × Vector Float n} {p : Vector Float n} {start : Float}
    (accepted : setup.config.Accepted) (directed : (Lbfgs.scheme setup oracle).direct s b = .ok (p, start, s'))
    (finite : ∀ i, (s.iterate.point.get i).isFinite = true) (finite' : ∀ i, (b.2.get i).isFinite = true)
    (apart : ¬Vec.same (s.iterate.point + (start * p : Vector Float n)) s.iterate.point) :
    0 < start ↔ setup.config.startStep.isNaN = false := by
  rcases Lbfgs.start_cases directed with rfl | ⟨rfl, large, rfl⟩
  · exact accepted.startStep_pos_iff
  constructor
  · intro positive
    by_contra nan
    have quotient := Binary64.nan_div (Bool.eq_true_of_not_eq_false nan) (Vec.maxAbs b.2)
    exact Bool.false_ne_true ((Binary64.known_of_pos positive).symm.trans quotient)
  · intro known
    have above : 0 < Vec.maxAbs b.2 := Binary64.zero_lt_of_one_lt large
    rcases Binary64.pos_or_zero_div (accepted.startStep_pos_iff.2 known) above (Vec.finite_maxAbs finite') with
      positive | zero
    · exact positive
    · refine absurd (Vec.same_add_smul zero finite fun i => ?_) apart
      simp only [Vec.get_eq_getElem, Vector.getElem_neg]
      exact Binary64.finite_neg (finite' i)

end

/-- A configuration can be made exactly if it is accepted, and it is in range unless a tolerance or the first step
is NaN. In range, each search along a direction that descends, with a first step that moves the point, evaluates the
function: if the first step is NaN, none does. -/
theorem built_searches_try (c : Config Float) :
    (c.Built ↔ c.Accepted) ∧ (c.Built → (c.InRange ↔ c.Known)) ∧ (c.InRange → c.Built) ∧
    ∀ {σ : Type} {n : Nat} (setup : RunSetup Float n) (oracle : Oracle σ Float n), setup.config = c → c.Built →
      0 < setup.searchBudget →
        (∀ {ι β : Type} (m : Scheme σ Float n ι β) exhausted s o seen b p s' outcome o',
          Searches setup oracle m exhausted s o seen b p s' outcome o' →
            ∃ start points, Tries setup oracle m exhausted s o seen b p start points) ∧
        (∀ rule exhausted s o seen b p start points,
          Tries setup oracle (Newton.scheme setup oracle rule) exhausted s o seen b p start points →
            (points ≠ [] ↔ Vec.dot b.2.1 p < 0 ∧
              ¬Vec.same (s.iterate.point + (start * p : Vector Float n)) s.iterate.point ∧
              c.startStep.isNaN = false)) ∧
        ∀ exhausted s o seen b p start points,
          Tries setup oracle (Lbfgs.scheme setup oracle) exhausted s o seen b p start points →
            (points ≠ [] ↔ Vec.dot b.2 p < 0 ∧
              ¬Vec.same (s.iterate.point + (start * p : Vector Float n)) s.iterate.point ∧ 0 < start) ∧
            ((∀ i, (s.iterate.point.get i).isFinite = true) → (∀ i, (b.2.get i).isFinite = true) →
              (points ≠ [] ↔ Vec.dot b.2 p < 0 ∧
                ¬Vec.same (s.iterate.point + (start * p : Vector Float n)) s.iterate.point ∧
                c.startStep.isNaN = false)) := by
  refine ⟨Config.built_iff, fun built => (Config.built_iff.1 built).inRange_iff,
    fun inside => Config.built_iff.2 inside.accepted, ?_⟩
  rintro σ n setup oracle rfl built room
  refine ⟨?_, ?_, ?_⟩
  · intro ι β m exhausted s o seen b p s' outcome o' searches
    exact searches.tries
  · intro rule exhausted s o seen b p start points tries
    obtain ⟨s', directed⟩ := tries.directed
    obtain rfl := Newton.start_eq directed
    rw [tries.points_ne_nil_iff room, (Config.built_iff.1 built).startStep_pos_iff]
    exact Iff.rfl
  · intro exhausted s o seen b p start points tries
    have tried := tries.points_ne_nil_iff room
    refine ⟨tried, fun finite finite' => ?_⟩
    obtain ⟨s', directed⟩ := tries.directed
    rw [tried]
    refine and_congr_right fun _ => and_congr_right fun apart => ?_
    exact Lbfgs.start_pos_iff (Config.built_iff.1 built) directed finite finite' apart

def parabola : Oracle Unit Float 1 where
  value x := return Vec.dot x x
  gradient x := return (Vec.dot x x, x + x)
  hessian x := return (Vec.dot x x, x + x, .dense (.ofFn fun _ _ => 1 + 1))

def parabolaSetup (c : Config Float) : RunSetup Float 1 := ⟨c, 100, fun _ _ => true⟩

def fromOne : Iterate Float 1 := .start (.replicate 1 1) 0

def valueAtOne : Float := Vec.dot fromOne.point fromOne.point

def slopeAtOne : Vector Float 1 := fromOne.point + fromOne.point

def bendAtOne : Hessian Float 1 := .dense (.ofFn fun _ _ => 1 + 1)

section

variable {c : Config Float} (untested : c.exit? (fromOne.standing valueAtOne slopeAtOne false) = none)

include untested

theorem newton_tries {rule : Newton.StepRule Float 1} {step : NewtonStep Float 1}
    (found : rule bendAtOne slopeAtOne = .ok step) :
    ∃ points, Tries (parabolaSetup c) parabola (Newton.scheme (parabolaSetup c) parabola rule) false ⟨fromOne, []⟩ ()
      [] (valueAtOne, slopeAtOne, bendAtOne) step.direction c.startStep points :=
  Continues.tries ⟨rfl, untested, rfl⟩ (bind_eq_ok.2 ⟨step, found, rfl⟩)

theorem lbfgs_tries :
    ∃ points, Tries (parabolaSetup c) parabola (Lbfgs.scheme (parabolaSetup c) parabola) false
      ⟨fromOne, .empty c.historySize, none⟩ () [] (valueAtOne, slopeAtOne) (-slopeAtOne)
      (History.steepest c.startStep slopeAtOne).2 points :=
  Continues.tries ⟨rfl, untested, rfl⟩ rfl

end

def usualConfig : Config Float := (Config.ofSettings []).toOption.get (by decide +kernel)

def usualStep : NewtonStep Float 1 := (Regularizer.step .blocks bendAtOne slopeAtOne).toOption.get (by decide +kernel)

theorem usual_searches_try :
    usualConfig.InRange ∧
    (∃ points, Tries (parabolaSetup usualConfig) parabola
      (Newton.scheme (parabolaSetup usualConfig) parabola (Regularizer.step .blocks)) false ⟨fromOne, []⟩ () []
      (valueAtOne, slopeAtOne, bendAtOne) usualStep.direction usualConfig.startStep points ∧ points ≠ []) ∧
    ∃ points, Tries (parabolaSetup usualConfig) parabola (Lbfgs.scheme (parabolaSetup usualConfig) parabola) false
      ⟨fromOne, .empty usualConfig.historySize, none⟩ () [] (valueAtOne, slopeAtOne) (-slopeAtOne)
      (History.steepest usualConfig.startStep slopeAtOne).2 points ∧ points ≠ [] := by
  have built : usualConfig.Built := .ofSettings (eq_ok_get _)
  have known : usualConfig.Known := by constructor <;> decide +kernel
  have untested : usualConfig.exit? (fromOne.standing valueAtOne slopeAtOne false) = none := by decide +kernel
  obtain ⟨-, inRange, -, runs⟩ := built_searches_try usualConfig
  obtain ⟨-, newton, lbfgs⟩ := runs (parabolaSetup usualConfig) parabola rfl built (by decide)
  obtain ⟨points, tries⟩ := newton_tries untested (eq_ok_get (x := Regularizer.step .blocks bendAtOne slopeAtOne) _)
  obtain ⟨points', tries'⟩ := lbfgs_tries untested
  refine ⟨(inRange built).2 known, ⟨points, tries, ?_⟩, points', tries', ?_⟩
  · exact (newton _ _ _ _ _ _ _ _ _ tries).2 ⟨by decide +kernel, by decide +kernel, known.startStep⟩
  · exact ((lbfgs _ _ _ _ _ _ _ _ tries').2 (by decide +kernel) (by decide +kernel)).2
      ⟨by decide +kernel, by decide +kernel, known.startStep⟩

def unknownStart : Config Float := (Config.ofSettings [.startStep (0 / 0)]).toOption.get (by decide +kernel)

/-- NaN is accepted as the first step, though it is not positive. The first search is along a direction that
descends and its first step moves the point, but the function is evaluated nowhere. -/
theorem unknown_start_tries_nothing :
    unknownStart.Built ∧ ¬0 < unknownStart.startStep ∧ ¬unknownStart.InRange ∧
    ∃ p start, Tries (parabolaSetup unknownStart) parabola (Lbfgs.scheme (parabolaSetup unknownStart) parabola) false
      ⟨fromOne, .empty unknownStart.historySize, none⟩ () [] (valueAtOne, slopeAtOne) p start [] ∧
      Vec.dot slopeAtOne p < 0 ∧ ¬Vec.same (fromOne.point + (start * p : Vector Float 1)) fromOne.point := by
  have built : unknownStart.Built := .ofSettings (eq_ok_get _)
  have level : ¬0 < unknownStart.startStep := by decide +kernel
  have untested : unknownStart.exit? (fromOne.standing valueAtOne slopeAtOne false) = none := by decide +kernel
  obtain ⟨points, tries⟩ := lbfgs_tries untested
  obtain rfl : points = [] := by
    by_contra some
    have positive := ((tries.points_ne_nil_iff (by decide)).1 some).2.2
    exact absurd positive (by decide +kernel)
  exact ⟨built, level, fun inside => level inside.startStep, _, _, tries, by decide +kernel, by decide +kernel⟩

end Descent
