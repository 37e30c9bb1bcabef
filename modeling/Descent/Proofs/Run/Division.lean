import Mathlib
import Descent.Proofs.Curvature.Division
import Descent.Proofs.Evaluation.Faults
import Descent.Proofs.Run.History
import Descent.Proofs.Run.Standstill

namespace Descent

namespace Lbfgs

variable {n : Nat} {c : Config Float} {s : State Float n} {value : Float} {g : Vector Float n}
  {fault : Fault Float}

/-! ## Directions -/

def Divides (c : Config Float) (step change : Vector Float n) (before value : Float) : Prop :=
  History.Undecided step change ∨
    stalled c before value = false ∧ 0 < c.historySize ∧
      ¬Vec.dot step change ≤ History.curvatureBound step change ∧ Vec.Negligible change

structure Sound (c : Config Float) (s : State Float n) : Prop where
  limit : s.history.limit = c.historySize
  lively : ¬s.history.Exhausted

theorem direction_eq_error_of_refresh {h : History Float n} {entries : List (Entry Float)}
    (refreshed : refresh c s value g = .ok (h, entries)) :
    direction c s value g = .error fault ↔ fault = .divisionByZero ∧ h.Exhausted := by
  have searches : h.searchDirection c.startStep g = .error fault ↔ _ := History.searchDirection_eq_error_iff
  rw [← searches, direction, refreshed, ok_bind]
  exact bind_eq_error fun search => ⟨_, rfl⟩

theorem not_exhausted_clear (h : History Float n) : ¬h.clear.Exhausted := History.not_exhausted_of_empty rfl

theorem Sound.direction_eq_error_iff (sound : Sound c s) {point gradient : Vector Float n} {before : Float}
    (last : s.last = some (point, gradient)) (previous : s.iterate.previous = some before) :
    direction c s value g = .error fault ↔
      fault = .divisionByZero ∧ Divides c (s.iterate.point - point) (g - gradient) before value := by
  have refreshed : refresh c s value g = _ := refresh_of_step last previous
  cases updated : s.history.update (s.iterate.point - point) (g - gradient) with
  | error other =>
      rw [updated] at refreshed
      obtain ⟨rfl, undecided⟩ := History.update_eq_error_iff.1 updated
      have failed : direction c s value g = .error .divisionByZero := by
        rw [direction, refreshed]
        rfl
      rw [failed]
      exact ⟨fun same => (by cases same; exact ⟨rfl, .inl undecided⟩), fun divides => by rw [divides.1]⟩
  | ok result =>
      obtain ⟨added, h, entries⟩ := result
      have decided : ¬History.Undecided (s.iterate.point - point) (g - gradient) := fun undecided => by
        cases updated.symm.trans (History.update_eq_error_iff.2 ⟨rfl, undecided⟩)
      rw [updated, ok_bind] at refreshed
      rw [Divides, or_iff_right decided]
      -- a restart drops all pairs; otherwise the newest one is this pair, or an older one if the update refused it
      cases stall : stalled c before value with
      | true =>
          rw [stall, if_pos rfl] at refreshed
          rw [direction_eq_error_of_refresh refreshed]
          exact and_congr_right fun _ => ⟨fun exhausted => absurd exhausted (not_exhausted_clear h),
            fun kept => Bool.noConfusion kept.1⟩
      | false =>
          rw [stall, if_neg Bool.false_ne_true] at refreshed
          rw [direction_eq_error_of_refresh refreshed]
          rcases History.update_cases updated with ⟨low, same⟩ | ⟨high, weight, same⟩
          · rw [same]
            exact and_congr_right fun _ => ⟨fun exhausted => absurd exhausted sound.lively,
              fun kept => absurd low kept.2.2.1⟩
          · rw [same, History.exhausted_push, sound.limit]
            simp [high]

theorem Sound.direction_ne_error (sound : Sound c s) (first : s.last = none) :
    direction c s value g ≠ .error fault := by
  have refreshed : refresh c s value g = .ok (s.history, []) := by rw [refresh, first]; rfl
  rw [Ne, direction_eq_error_of_refresh refreshed]
  exact fun failed => sound.lively failed.2

theorem limit_refresh {h : History Float n} {entries : List (Entry Float)}
    (refreshed : refresh c s value g = .ok (h, entries)) : h.limit = s.history.limit := by
  cases last : s.last with
  | none =>
      rw [refresh, last] at refreshed
      cases refreshed
      rfl
  | some visit =>
      cases previous : s.iterate.previous with
      | none =>
          rw [refresh, last, previous] at refreshed
          cases refreshed
          rfl
      | some before =>
          rw [refresh_of_step last previous] at refreshed
          obtain ⟨⟨added, made, written⟩, updated, refreshed⟩ := bind_eq_ok.1 refreshed
          have kept : made.limit = s.history.limit := by
            rcases History.update_cases updated with ⟨-, rfl⟩ | ⟨-, weight, rfl⟩ <;> rfl
          split at refreshed <;> cases refreshed <;> exact kept

theorem Sound.direction {search : History.Search Float n} (sound : Sound c s)
    (directed : direction c s value g = .ok search) :
    search.history.limit = c.historySize ∧ ¬search.history.Exhausted := by
  obtain ⟨⟨h, entries⟩, refreshed, directed'⟩ := bind_eq_ok.1 directed
  obtain ⟨found, searched, same⟩ := bind_eq_ok.1 directed'
  cases same
  have lively : ¬h.Exhausted := fun exhausted => by
    cases searched.symm.trans (History.searchDirection_eq_error_iff.2 ⟨rfl, exhausted⟩)
  have limit := (limit_refresh refreshed).trans sound.limit
  rcases History.searchDirection_history searched with ⟨kept, -⟩ | ⟨cleared, -⟩
  · exact ⟨(congrArg History.limit kept).trans limit, fun exhausted => lively (kept ▸ exhausted)⟩
  · exact ⟨(congrArg History.limit cleared).trans limit, fun exhausted =>
      not_exhausted_clear h (cleared ▸ exhausted)⟩

/-! ## Runs -/

section

variable {σ : Type} (setup : RunSetup Float n) (oracle : Oracle σ Float n)

/-- A run that may make `left` iterations goes from `b` to `b₁` in iteration `k + 1`, and goes on there with a
search for a direction, which the pair of that iteration makes fail. -/
structure DividesAfter (left : Nat) (start : Station (State Float n) σ Float n) (k : Nat)
    (b b₁ : Station (State Float n) σ Float n) : Prop where
  goes : Goes (turn setup oracle) start k b
  completed : (turn setup oracle false b.1).run b.2 = (.next b₁.1, b₁.2)
  within : k < left
  divides : ∃ value g value' g' o o', (oracle.gradient b.1.iterate.point).run b.2.1 = (.ok (value, g), o) ∧
    Continues setup (scheme setup oracle) (k + 1 = left) b₁.1 b₁.2.1 b₁.2.2.sights (value', g') o' ∧
      Divides setup.config (b₁.1.iterate.point - b.1.iterate.point) (g' - g) value value'

variable {setup oracle}

theorem Sound.next {b b₁ : Station (State Float n) σ Float n} (sound : Sound setup.config b.1)
    (completed : (turn setup oracle false b.1).run b.2 = (.next b₁.1, b₁.2)) : Sound setup.config b₁.1 := by
  obtain ⟨value, g, o, search, -, directed, kept, -⟩ := of_completed completed
  obtain ⟨limit, lively⟩ := sound.direction directed
  exact ⟨kept ▸ limit, kept ▸ lively⟩

theorem Sound.goes {start b : Station (State Float n) σ Float n} (sound : Sound setup.config start.1) {k : Nat}
    (goes : Goes (turn setup oracle) start k b) : Sound setup.config b.1 := by
  induction goes with
  | start => exact sound
  | next _ completed ih => exact ih.next completed

theorem turn_eq_abandon_iff {exhausted : Bool} {b : Station (State Float n) σ Float n} :
    (∃ c', (turn setup oracle exhausted b.1).run b.2 = (.abandon fault, c')) ↔
      ∃ value g o, Continues setup (scheme setup oracle) exhausted b.1 b.2.1 b.2.2.sights (value, g) o ∧
        direction setup.config b.1 value g = .error fault := by
  constructor
  · rintro ⟨⟨o', entries, sights⟩, ended⟩
    have passage := turning setup oracle exhausted b.1 b.2.1 b.2.2
    rw [ended] at passage
    generalize abandoned : observed (Turn.abandon fault, o', ⟨entries, sights⟩) = outcome at passage
    -- only an iteration without a direction is abandoned
    cases passage with
    | @undirected result o _ continues failed =>
        cases abandoned
        refine ⟨result.1, result.2, _, continues, ?_⟩
        cases directed : direction setup.config b.1 result.1 result.2 with
        | error other =>
            simp only [scheme, directed] at failed
            cases failed
            rfl
        | ok search =>
            simp only [scheme, directed] at failed
            cases failed
    | _ => cases abandoned
  · obtain ⟨s, o, j⟩ := b
    rintro ⟨value, g, o', continues, failed⟩
    have evaluated : (oracle.gradient s.iterate.point).run o = (.ok (value, g), o') := continues.evaluated
    have untested : setup.config.exit? (s.iterate.standing value g exhausted) = none := continues.untested
    have proceeds : setup.proceed (j.sights.length + 1) ⟨value, s.iterate.point, g, none⟩ = true :=
      continues.proceeds
    rw [turn, Run.run_bind, Run.run_attempt, evaluated]
    simp only [Run.run_bind, Run.run_row]
    cases test : setup.config.exit? (s.iterate.standing value g exhausted) with
    | some exit => cases test.symm.trans untested
    | none =>
        rw [Run.run_asked, if_pos proceeds]
        simp only [failed]
        exact ⟨_, rfl⟩

theorem sound_start (point : Vector Float n) (iterations : Int) :
    Sound setup.config ⟨.start point iterations, .empty setup.config.historySize, none⟩ :=
  ⟨rfl, History.not_exhausted_of_empty rfl⟩

/-- A run ends with an exception exactly where the pair of its last step makes the next direction fail. -/
theorem run_eq_error_iff {point : Vector Float n} {iterations : Int} {c : σ × Journal Float n} :
    (∃ c', (run setup oracle point iterations).run c = (.error fault, c')) ↔ fault = .divisionByZero ∧
      ∃ k b b₁, DividesAfter setup oracle (Run.remaining setup.config iterations)
        (⟨.start point iterations, .empty setup.config.historySize, none⟩, c) k b b₁ := by
  constructor
  · rintro ⟨c', ran⟩
    obtain ⟨k, s₁, c₁, goes, within, last⟩ := repeatTurn_ends (turning setup oracle) ran
    obtain ⟨value', g', o', continues, failed⟩ := turn_eq_abandon_iff (b := (s₁, c₁)).1 ⟨c', last⟩
    have sound := (sound_start point iterations).goes goes
    cases goes with
    | start => exact absurd failed (sound.direction_ne_error rfl)
    | @next k b _ goes completed =>
        obtain ⟨value, g, o, search, evaluated, -, -, before, previous⟩ := of_completed completed
        obtain ⟨zero, divides⟩ := (sound.direction_eq_error_iff before previous).1 failed
        exact ⟨zero, k, b, (s₁, c₁), goes, completed, within, value, g, value', g', o, o', evaluated, continues,
          divides⟩
  · rintro ⟨rfl, k, b, b₁, goes, completed, within, value, g, value', g', o, o', evaluated, continues, divides⟩
    have sound := (sound_start point iterations).goes (goes.next completed)
    obtain ⟨_, _, _, _, evaluated', -, -, before, previous⟩ := of_completed completed
    cases evaluated.symm.trans evaluated'
    have failed := (sound.direction_eq_error_iff before previous).2 ⟨rfl, divides⟩
    obtain ⟨c', last⟩ := turn_eq_abandon_iff.2 ⟨value', g', o', continues, failed⟩
    obtain ⟨rest, left⟩ := Nat.exists_eq_add_of_le within
    have exhausted : decide (k + 1 = Run.remaining setup.config iterations) = decide (rest = 0) :=
      decide_eq_decide.2 (by omega)
    rw [exhausted] at last
    refine ⟨c', ?_⟩
    rw [run, left, (goes.next completed).repeatTurn_eq]
    exact repeatTurn_of_last last

end

end Lbfgs

namespace Objective

/-- Where the quasi-Newton method divides by zero in binary floating point: an update does if it is undecided,
a direction if the last update that was let through has a change whose square is rounded to zero, and a solve if
that is so for its last step. For such a change the bound of the curvature test is zero. -/
theorem divisions_by_zero {n : Nat} :
    (∀ (limit : Nat) (calls : List (Vector Float n × Vector Float n)),
      (∀ fault, History.updates limit calls = .error fault ↔
        fault = .divisionByZero ∧ ∃ call ∈ calls, History.Undecided call.1 call.2) ∧
      ∀ h, History.updates limit calls = .ok h → ∀ (start : Float) (g : Vector Float n) (fault : Fault Float),
        (h.direction g = .error fault ↔ fault = .divisionByZero ∧ 0 < limit ∧
          ∃ call, (History.admitted calls).getLast? = some call ∧ Vec.Negligible call.2) ∧
        (h.searchDirection start g = .error fault ↔ fault = .divisionByZero ∧ 0 < limit ∧
          ∃ call, (History.admitted calls).getLast? = some call ∧ Vec.Negligible call.2)) ∧
    (∀ s y : Vector Float n, (Vec.dot s s).isFinite = true → Vec.Negligible y →
      History.curvatureBound s y = 0) ∧
    ∀ {σ : Type} (setup : RunSetup Float n) (oracle : Oracle σ Float n) (point : Vector Float n)
      (iterations : Int) (c : σ × Journal Float n) (fault : Fault Float),
      (∃ c', (Lbfgs.run setup oracle point iterations).run c = (.error fault, c')) ↔ fault = .divisionByZero ∧
        ∃ k b b₁, Lbfgs.DividesAfter setup oracle (Run.remaining setup.config iterations)
          (⟨.start point iterations, .empty setup.config.historySize, none⟩, c) k b b₁ := by
  refine ⟨fun limit calls => ⟨fun _ => History.updates_eq_error_iff, fun h updated start g fault => ?_⟩,
    fun s y finite small => History.bound_of_negligible finite small,
    fun setup oracle point iterations c fault => Lbfgs.run_eq_error_iff⟩
  rw [← History.exhausted_iff_of_updates updated]
  exact ⟨History.direction_eq_error_iff, History.searchDirection_eq_error_iff⟩

def faint : List (Vector Float 1 × Vector Float 1) := [(.replicate 1 1, .replicate 1 1e-170)]

theorem faint_divides : ∃ h, History.updates 10 faint = .ok h ∧
    h.direction (.replicate 1 1) = .error .divisionByZero ∧
    h.searchDirection 1 (.replicate 1 1) = .error .divisionByZero ∧
    History.curvatureBound (.replicate 1 1) (.replicate 1 1e-170 : Vector Float 1) = 0 := by
  obtain ⟨sequences, bound, -⟩ := divisions_by_zero (n := 1)
  obtain ⟨failing, following⟩ := sequences 10 faint
  have small : Vec.Negligible (.replicate 1 1e-170 : Vector Float 1) := by decide +kernel
  have decided : ¬∃ call ∈ faint, History.Undecided call.1 call.2 := by decide +kernel
  have last : (History.admitted faint).getLast? = some (.replicate 1 1, .replicate 1 1e-170) := by decide +kernel
  have worn : ∃ call, (History.admitted faint).getLast? = some call ∧ Vec.Negligible call.2 := ⟨_, last, small⟩
  cases updated : History.updates 10 faint with
  | error fault => exact absurd ((failing fault).1 updated).2 decided
  | ok h =>
      obtain ⟨directed, searched⟩ := following h updated 1 (.replicate 1 1) .divisionByZero
      exact ⟨h, rfl, directed.2 ⟨rfl, by decide, worn⟩, searched.2 ⟨rfl, by decide, worn⟩,
        bound _ _ (by decide +kernel) small⟩

def origin : Memory Float where
  objects := [.array .double [2] 0 0]
  blocks := [[0, 0]]

def bending : Objective Float :=
  ((Mutation.addTerm (.term (Sample.polynomial [2]
    [(1, [(0, 0)]), (1e-150, [(0, 1)]), (5e-14, [(0, 1), (0, 1)])])) [⟨0⟩]).edit.run origin (ofThreads 1)).2

theorem exists_fault {β : Type} {x : Except (Fault Float) β} {name : String}
    (raised : (fault? x).map Fault.category = some name) : ∃ fault, x = .error fault ∧ fault.category = name := by
  obtain ⟨fault, found, same⟩ := Option.map_eq_some_iff.1 raised
  exact ⟨fault, fault?_eq_some.1 found, same⟩

/-- A pair with a change of zero, as far as its square tells, is kept and divided by, and so in a solve. -/
theorem faint_raises :
    (∀ call ∈ faint, ∀ i, (call.1.get i).isFinite = true ∧ (call.2.get i).isFinite = true) ∧
    (∃ h fault, History.updates 10 faint = .ok h ∧
      (∃ pair, h.pairs.getLast? = some pair ∧ Scalar.same (Vec.dot pair.change pair.change) 0 = true) ∧
      h.direction (.replicate 1 1) = .error fault ∧ fault.category = "ZeroDivisionError") ∧
    ∃ fault after, StateT.run (ExceptT.run (bending.minimization (floatSetup bending.scalars) 0 .lbfgs))
      ⟨bending.workspace, origin⟩ = (.error fault, after) ∧ fault.category = "ZeroDivisionError" := by
  refine ⟨by decide +kernel, ?_, ?_⟩
  · have kept : (History.updates 10 faint).toOption.any (fun h =>
        h.pairs.getLast?.any (fun pair => Scalar.same (Vec.dot pair.change pair.change) 0) &&
          (fault? (h.direction (.replicate 1 1))).map Fault.category = some "ZeroDivisionError") = true := by
      decide +kernel
    obtain ⟨h, updated, found⟩ := (Option.any_eq_true ..).1 kept
    obtain ⟨last, raised⟩ := Bool.and_eq_true_iff.1 found
    obtain ⟨fault, failed, category⟩ := exists_fault (of_decide_eq_true raised)
    refine ⟨h, fault, ?_, (Option.any_eq_true ..).1 last, failed, category⟩
    cases made : History.updates 10 faint with
    | error other =>
        rw [made] at updated
        cases updated
    | ok made' =>
        rw [made] at updated
        cases updated
        rfl
  · have raised : (fault? (StateT.run (ExceptT.run (bending.minimization (floatSetup bending.scalars) 0 .lbfgs))
        ⟨bending.workspace, origin⟩).1).map Fault.category = some "ZeroDivisionError" := by decide +kernel
    generalize StateT.run (ExceptT.run (bending.minimization (floatSetup bending.scalars) 0 .lbfgs))
      ⟨bending.workspace, origin⟩ = result at raised ⊢
    obtain ⟨outcome, after⟩ := result
    obtain ⟨fault, failed, category⟩ := exists_fault raised
    exact ⟨fault, after, congrArg (·, after) failed, category⟩

end Objective

end Descent
