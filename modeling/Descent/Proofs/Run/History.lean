import Mathlib
import Descent.Proofs.Curvature.Descending
import Descent.Proofs.Run.Containment

/-!
# The history along a run

A run of the quasi-Newton method brings its history up to date in each iteration, and starts it anew where the
value stalls or the direction does not descend. At all times the history has the newest of the pairs of
consecutive iterates, since the last restart, that curve enough (`Newest`). A run knows nothing of what an
earlier one has left (`Lbfgs.history_newest`).
-/

namespace Descent

structure Visit (α : Type) (n : Nat) where
  point : Vector α n
  gradient : Vector α n

section

variable {α : Type} [Scalar α] {n : Nat}

def CurvaturePair.between (u v : Visit α n) : CurvaturePair α n where
  step := v.point - u.point
  change := v.gradient - u.gradient
  weight := 1 / Vec.dot (v.point - u.point) (v.gradient - u.gradient)

def CurvaturePair.Curves (pair : CurvaturePair α n) : Prop :=
  ¬Vec.dot pair.step pair.change ≤ History.curvatureBound pair.step pair.change

instance (pair : CurvaturePair α n) : Decidable pair.Curves := inferInstanceAs (Decidable ¬_)

def accepted (visits : List (Visit α n)) : List (CurvaturePair α n) :=
  (visits.zipWith CurvaturePair.between visits.tail).filter fun pair => pair.Curves

theorem zipWith_tail_concat {β γ : Type} (f : β → β → γ) (l : List β) (u v : β) :
    (l ++ [u, v]).zipWith f (l ++ [u, v]).tail = (l ++ [u]).zipWith f (l ++ [u]).tail ++ [f u v] := by
  induction l with
  | nil => rfl
  | cons a rest ih =>
      cases rest with
      | nil => rfl
      | cons b rest => exact congrArg (f a b :: ·) ih

theorem accepted_concat (visits : List (Visit α n)) (u v : Visit α n) :
    accepted (visits ++ [u, v]) = accepted (visits ++ [u]) ++
      if (CurvaturePair.between u v).Curves then [.between u v] else [] := by
  rw [accepted, zipWith_tail_concat, List.filter_append, accepted]
  congr 1
  split <;> simp_all

theorem rtake_accepted_singleton (v : Visit α n) (limit : Nat) : (accepted [v]).rtake limit = [] :=
  List.rtake_nil limit

theorem exists_of_mem_zipWith_tail {β γ : Type} {f : β → β → γ} {l : List β} {c : γ}
    (member : c ∈ l.zipWith f l.tail) : ∃ u v, [u, v] <:+: l ∧ c = f u v := by
  induction l with
  | nil => cases member
  | cons a rest ih =>
      cases rest with
      | nil => cases member
      | cons b rest =>
          rcases List.mem_cons.1 member with rfl | later
          · exact ⟨a, b, ⟨[], rest, rfl⟩, rfl⟩
          · obtain ⟨u, v, inside, same⟩ := ih later
            exact ⟨u, v, inside.trans (List.suffix_cons a _).isInfix, same⟩

end

theorem rtake_concat_rtake {β : Type} (l : List β) (a : β) (limit : Nat) :
    (l.rtake limit ++ [a]).rtake limit = (l ++ [a]).rtake limit := by
  have kept : l.rtake limit ++ [a] = (l ++ [a]).drop (l.length - limit) := by
    rw [List.rtake, List.drop_append_of_le_length (by omega)]
  rw [kept, List.rtake, List.rtake, List.drop_drop]
  congr 1
  simp only [List.length_drop, List.length_append, List.length_singleton]
  omega

/-- The history of a run whose last restart was at the first of these visits: the newest accepted pairs, up to
the limit, oldest first. Each belongs to two consecutive visits apart from each other, and the gradient grew
along it. -/
structure Newest {α : Type} [Scalar α] {n : Nat} (limit : Nat) (since : List (Visit α n))
    (h : History α n) : Prop where
  bounded : h.pairs.length ≤ limit
  pairs : h.pairs = (accepted since).rtake limit
  consecutive : ∀ pair ∈ h.pairs, ∃ u v, [u, v] <:+: since ∧ pair = .between u v ∧ u.point ≠ v.point ∧
    0 < Vec.dot pair.step pair.change

variable {α : Type} [ExactField α] {n : Nat}

theorem CurvaturePair.Curves.positive (roots : ∀ a : α, 0 ≤ a → 0 ≤ Scalar.sqrt a) {pair : CurvaturePair α n}
    (curves : pair.Curves) : 0 < Vec.dot pair.step pair.change :=
  (History.curvatureBound_nonneg roots _ _).trans_lt (not_le.1 curves)

theorem newest_of_pairs (roots : ∀ a : α, 0 ≤ a → 0 ≤ Scalar.sqrt a) {limit : Nat} {since : List (Visit α n)}
    {h : History α n} (pairs : h.pairs = (accepted since).rtake limit) : Newest limit since h where
  bounded := by
    rw [pairs, List.rtake, List.length_drop]
    omega
  pairs := pairs
  consecutive pair member := by
    rw [pairs] at member
    obtain ⟨among, curves⟩ := List.mem_filter.1 (List.mem_of_mem_drop member)
    obtain ⟨u, v, inside, rfl⟩ := exists_of_mem_zipWith_tail among
    have positive := (of_decide_eq_true curves).positive roots
    refine ⟨u, v, inside, rfl, fun same => ?_, positive⟩
    have still : (CurvaturePair.between u v).step.get = 0 := by
      simp only [CurvaturePair.between, same, Vec.get_sub, sub_self]
    rw [Vec.dot_eq_dotProduct, still, zero_dotProduct] at positive
    exact lt_irrefl 0 positive

theorem Passage.state_of_stop {σ α ι β : Type} [Scalar α] {n : Nat} {setup : RunSetup α n}
    {oracle : Oracle σ α n} {m : Scheme σ α n ι β} {exhausted : Bool} {exit : ExitCondition} {s s' : ι}
    {o o' : σ} {seen seen' : List (Sight α n)}
    (passage : Passage setup oracle m exhausted s o seen (.stop exit s', o', seen')) :
    s' = s ∨ ∃ b p o₁ start, Continues setup m exhausted s o seen b o₁ ∧ m.direct s b = .ok (p, start, s') := by
  generalize ended : (Turn.stop exit s', o', seen') = outcome at passage
  cases passage with
  | @undirected _ _ fault _ _ =>
      rcases m.refused_eq fault s with refused | refused <;> rw [refused] at ended <;> cases ended
      exact .inl rfl
  | interrupted searches | unfinished searches _ =>
      cases ended
      obtain ⟨o₁, start, continues, directed, -⟩ := searches
      exact .inr ⟨_, _, o₁, start, continues, directed⟩
  | completed _ _ => cases ended
  | _ =>
      cases ended
      exact .inl rfl

def Message.isRestart {α : Type} : Message α → Bool
  | .restarted _ | .directionDiscarded => true
  | .newtonStart .. | .lbfgsStart .. | .columns _ | .newtonRow .. | .lbfgsRow .. | .failed .. | .summary ..
  | .notDescent _ | .stepUnderflow .. | .hessianModified .. | .updateSkipped _ => false

namespace Lbfgs

section

variable {σ α : Type} [Scalar α] {n : Nat}

def sinceRestart (since : List (Visit α n)) (v : Visit α n) (entries : List (Entry α)) : List (Visit α n) :=
  if entries.any (·.message.isRestart) then [v] else since ++ [v]

inductive Moment (c : Config α) (s : State α n) (value : α) (g : Vector α n) (since : List (Visit α n)) :
    List (Visit α n) → History α n → Prop
  | updated {point gradient : Vector α n} {added : Bool} {h : History α n} {entries : List (Entry α)}
      (last : s.last = some (point, gradient))
      (updated : s.history.update (s.iterate.point - point) (g - gradient) = .ok (added, h, entries)) :
      Moment c s value g since (since ++ [⟨s.iterate.point, g⟩]) h
  | refreshed {h : History α n} {entries : List (Entry α)} (refreshed : refresh c s value g = .ok (h, entries)) :
      Moment c s value g since (sinceRestart since ⟨s.iterate.point, g⟩ entries) h
  | directed {search : History.Search α n} (directed : direction c s value g = .ok search) :
      Moment c s value g since (sinceRestart since ⟨s.iterate.point, g⟩ search.entries) search.history

inductive Visits (setup : RunSetup α n) (oracle : Oracle σ α n) (start : Station (State α n) σ α n) :
    Station (State α n) σ α n → (all since : List (Visit α n)) → Prop
  | start : Visits setup oracle start start [] []
  | next {c c' : Station (State α n) σ α n} {all since : List (Visit α n)} {value : α} {g : Vector α n} {o : σ}
      {search : History.Search α n} (visits : Visits setup oracle start c all since)
      (evaluated : (oracle.gradient c.1.iterate.point).run c.2.1 = (.ok (value, g), o))
      (directed : direction setup.config c.1 value g = .ok search)
      (completed : (turn setup oracle false c.1).run c.2 = (.next c'.1, c'.2)) :
      Visits setup oracle start c' (all ++ [⟨c.1.iterate.point, g⟩])
        (sinceRestart since ⟨c.1.iterate.point, g⟩ search.entries)

/-- The run comes to a point with this history, between two iterations or on the way to a direction. -/
inductive Meets (setup : RunSetup α n) (oracle : Oracle σ α n) (start : Station (State α n) σ α n) :
    (all since : List (Visit α n)) → History α n → Prop
  | station {c : Station (State α n) σ α n} {all since : List (Visit α n)}
      (visits : Visits setup oracle start c all since) : Meets setup oracle start all since c.1.history
  | moment {c : Station (State α n) σ α n} {all since since' : List (Visit α n)} {value : α} {g : Vector α n}
      {o : σ} {h : History α n} (visits : Visits setup oracle start c all since)
      (evaluated : (oracle.gradient c.1.iterate.point).run c.2.1 = (.ok (value, g), o))
      (moment : Moment setup.config c.1 value g since since' h) :
      Meets setup oracle start (all ++ [⟨c.1.iterate.point, g⟩]) since' h

/-- Where a solve begins with a solver that was used before, perhaps on points of another dimension. -/
def again {k : Nat} (used : History α k) (point : Vector α n) (iterations : Int) : State α n where
  iterate := .start point iterations
  history := .empty used.limit
  last := none

structure Remembers (s : State α n) (since : List (Visit α n)) : Prop where
  last : s.last = since.getLast?.map fun v => (v.point, v.gradient)
  previous : since = [] ∨ s.iterate.previous.isSome

variable {setup : RunSetup α n} {oracle : Oracle σ α n} {start c c' : Station (State α n) σ α n}

omit [Scalar α] in
theorem sinceRestart_suffix {all since : List (Visit α n)} (suffix : since <:+ all) (v : Visit α n)
    (entries : List (Entry α)) : sinceRestart since v entries <:+ all ++ [v] := by
  obtain ⟨before, rfl⟩ := suffix
  rw [sinceRestart]
  split
  · exact List.suffix_append _ _
  · exact ⟨before, (List.append_assoc ..).symm⟩

omit [Scalar α] in
theorem getLast?_sinceRestart (since : List (Visit α n)) (v : Visit α n) (entries : List (Entry α)) :
    (sinceRestart since v entries).getLast? = some v := by
  rw [sinceRestart]
  split
  · rfl
  · exact List.getLast?_concat ..

theorem History.searchDirection_history {start : α} {h : History α n} {g : Vector α n}
    {search : History.Search α n} (searched : h.searchDirection start g = .ok search) :
    search.history = h ∧ search.entries.any (·.message.isRestart) = false ∨
      search.history = h.clear ∧ search.entries.any (·.message.isRestart) = true := by
  simp only [History.searchDirection] at searched
  split at searched
  · cases searched
    exact .inl ⟨rfl, rfl⟩
  · obtain ⟨p, -, searched⟩ := bind_eq_ok.1 searched
    split at searched <;> cases searched
    · exact .inl ⟨rfl, rfl⟩
    · exact .inr ⟨rfl, rfl⟩

variable {s : State α n} {since : List (Visit α n)} {value : α} {g : Vector α n}

theorem Moment.suffix {config : Config α} {all since' : List (Visit α n)} {h : History α n}
    (moment : Moment config s value g since since' h) (suffix : since <:+ all) :
    since' <:+ all ++ [⟨s.iterate.point, g⟩] := by
  cases moment with
  | updated _ _ =>
      obtain ⟨before, rfl⟩ := suffix
      exact ⟨before, (List.append_assoc ..).symm⟩
  | refreshed _ | directed _ => exact sinceRestart_suffix suffix _ _

theorem Remembers.refresh_first (remembers : Remembers s since) (none : since.getLast? = none)
    (config : Config α) : refresh config s value g = .ok (s.history, []) := by
  have last := remembers.last
  rw [none] at last
  rw [refresh, last]
  rfl

theorem refresh_of_step {config : Config α} {point gradient : Vector α n} {before : α}
    (last : s.last = some (point, gradient)) (previous : s.iterate.previous = some before) :
    refresh config s value g = (do
      let made ← s.history.update (s.iterate.point - point) (g - gradient)
      if stalled config before value then
        return (made.2.1.clear, made.2.2 ++ [⟨.debug, .restarted s.iterate.iterations⟩])
      return (made.2.1, made.2.2)) := by
  rw [refresh, last, previous]

theorem Remembers.refresh_later (remembers : Remembers s since) {u : Visit α n}
    (last : since.getLast? = some u) (config : Config α) : ∃ before, refresh config s value g = (do
      let made ← s.history.update (s.iterate.point - u.point) (g - u.gradient)
      if stalled config before value then
        return (made.2.1.clear, made.2.2 ++ [⟨.debug, .restarted s.iterate.iterations⟩])
      return (made.2.1, made.2.2)) := by
  have known := remembers.last
  rw [last, Option.map_some] at known
  rcases remembers.previous with rfl | some
  · cases last
  · obtain ⟨before, previous⟩ := Option.isSome_iff_exists.1 some
    exact ⟨before, refresh_of_step known previous⟩

theorem of_completed (completed : (turn setup oracle false c.1).run c.2 = (.next c'.1, c'.2)) :
    ∃ value g o search, (oracle.gradient c.1.iterate.point).run c.2.1 = (.ok (value, g), o) ∧
      direction setup.config c.1 value g = .ok search ∧ c'.1.history = search.history ∧
      c'.1.last = some (c.1.iterate.point, g) ∧ c'.1.iterate.previous = some value := by
  have passage := turning setup oracle false c.1 c.2.1 c.2.2
  rw [completed] at passage
  obtain ⟨b, p, s₁, result, ⟨o₁, first, continues, directed, -⟩, -, -, next⟩ := passage.of_next
  obtain ⟨search, found, made⟩ := bind_eq_ok.1 directed
  cases made
  rw [next]
  exact ⟨b.1, b.2, o₁, search, continues.evaluated, found, rfl, rfl, rfl⟩

theorem history_of_stop {exhausted : Bool} {exit : ExitCondition} {s' : State α n} {o : σ} {j : Journal α n}
    (stops : (turn setup oracle exhausted c.1).run c.2 = (.stop exit s', o, j)) :
    s'.history = c.1.history ∨ ∃ value g o search,
      (oracle.gradient c.1.iterate.point).run c.2.1 = (.ok (value, g), o) ∧
      direction setup.config c.1 value g = .ok search ∧ s'.history = search.history := by
  have passage := turning setup oracle exhausted c.1 c.2.1 c.2.2
  rw [stops] at passage
  obtain same | ⟨b, p, o₁, start, continues, directed⟩ := passage.state_of_stop
  · exact .inl (congrArg State.history same)
  · obtain ⟨search, found, made⟩ := bind_eq_ok.1 directed
    cases made
    exact .inr ⟨b.1, b.2, o₁, search, continues.evaluated, found, rfl⟩

theorem visits_of_goes {k : Nat} (goes : Goes (turn setup oracle) start k c) :
    ∃ all since, Visits setup oracle start c all since ∧ all.length = k := by
  induction goes with
  | start => exact ⟨[], [], .start, rfl⟩
  | next _ completed ih =>
      obtain ⟨all, since, visits, count⟩ := ih
      obtain ⟨value, g, o, search, evaluated, directed, -⟩ := of_completed completed
      refine ⟨_, _, visits.next evaluated directed completed, ?_⟩
      rw [List.length_append, count, List.length_singleton]

structure Keeps (limit : Nat) (s : State α n) (all since : List (Visit α n)) : Prop where
  size : s.history.limit = limit
  pairs : s.history.pairs = (accepted since).rtake limit
  remembers : Remembers s since
  suffix : since <:+ all

theorem keeps_again {k : Nat} (used : History α k) (x : Vector α n) (iterations : Int) :
    Keeps used.limit (again used x iterations) [] [] where
  size := rfl
  pairs := (List.rtake_nil _).symm
  remembers := ⟨rfl, .inl rfl⟩
  suffix := List.suffix_rfl

end

section

variable {σ α : Type} [ExactField α] {n : Nat} (roots : ∀ a : α, 0 ≤ a → 0 ≤ Scalar.sqrt a)

include roots

theorem update_newest {h : History α n} {since : List (Visit α n)} {u v : Visit α n}
    (last : since.getLast? = some u) (pairs : h.pairs = (accepted since).rtake h.limit) :
    ∃ added h' entries, h.update (v.point - u.point) (v.gradient - u.gradient) = .ok (added, h', entries) ∧
      h'.limit = h.limit ∧ h'.pairs = (accepted (since ++ [v])).rtake h.limit ∧
      entries.any (·.message.isRestart) = false := by
  obtain ⟨before, rfl⟩ := List.getLast?_eq_some_iff.1 last
  have grown : accepted (before ++ [u] ++ [v]) = accepted (before ++ [u]) ++
      if (CurvaturePair.between u v).Curves then [.between u v] else [] := by
    rw [List.append_assoc]
    exact accepted_concat before u v
  rw [grown]
  by_cases curves : (CurvaturePair.between u v).Curves
  · refine ⟨_, _, _, History.update_eq_push h (not_le.1 curves) (curves.positive roots), rfl, ?_, rfl⟩
    rw [if_pos curves, ← rtake_concat_rtake, ← pairs]
    rfl
  · have skipped : h.update (v.point - u.point) (v.gradient - u.gradient) =
        .ok (false, h, [⟨.debug, .updateSkipped (Vec.dot (v.point - u.point) (v.gradient - u.gradient))⟩]) := by
      have low : Vec.dot (v.point - u.point) (v.gradient - u.gradient) ≤
          History.curvatureBound (v.point - u.point) (v.gradient - u.gradient) := not_not.1 curves
      rw [History.update, if_pos low]
      rfl
    rw [if_neg curves, List.append_nil]
    exact ⟨_, _, _, skipped, rfl, pairs, rfl⟩

variable {s : State α n} {since : List (Visit α n)} (remembers : Remembers s since)
  (pairs : s.history.pairs = (accepted since).rtake s.history.limit) (config : Config α) (value : α)
  (g : Vector α n)

include remembers pairs

theorem refresh_newest :
    ∃ h entries, refresh config s value g = .ok (h, entries) ∧ h.limit = s.history.limit ∧
      h.pairs = (accepted (sinceRestart since ⟨s.iterate.point, g⟩ entries)).rtake s.history.limit := by
  cases last : since.getLast? with
  | none =>
      refine ⟨_, _, remembers.refresh_first last config, rfl, ?_⟩
      rw [pairs, List.getLast?_eq_none_iff.1 last]
      rfl
  | some u =>
      obtain ⟨before, refreshed⟩ := remembers.refresh_later last config
      obtain ⟨added, h, entries, updated, limit, grown, quiet⟩ :=
        update_newest roots (v := ⟨s.iterate.point, g⟩) last pairs
      rw [refreshed, updated, ok_bind]
      simp only
      split
      · refine ⟨_, _, rfl, limit, ?_⟩
        rw [sinceRestart, if_pos (by rw [List.any_append, quiet]; rfl), rtake_accepted_singleton]
        rfl
      · refine ⟨_, _, rfl, limit, ?_⟩
        rw [sinceRestart, quiet, if_neg Bool.false_ne_true]
        exact grown

theorem direction_newest : ∃ search, direction config s value g = .ok search ∧
    search.history.limit = s.history.limit ∧ search.history.pairs =
      (accepted (sinceRestart since ⟨s.iterate.point, g⟩ search.entries)).rtake s.history.limit := by
  obtain ⟨h, entries, refreshed, limit, newest⟩ := refresh_newest roots remembers pairs config value g
  have curved : h.Curved := by
    intro pair member
    obtain ⟨u, v, -, -, -, positive⟩ := (newest_of_pairs roots newest).consecutive pair member
    exact positive
  obtain ⟨search, searched, -⟩ := History.searchDirection_ok config.startStep curved g
  have directed : direction config s value g = .ok { search with entries := entries ++ search.entries } := by
    rw [direction, refreshed, ok_bind]
    simp only [searched, ok_bind]
    rfl
  refine ⟨_, directed, ?_⟩
  rcases History.searchDirection_history searched with ⟨same, quiet⟩ | ⟨cleared, restarts⟩
  · have kept : sinceRestart since ⟨s.iterate.point, g⟩ (entries ++ search.entries) =
        sinceRestart since ⟨s.iterate.point, g⟩ entries := by
      rw [sinceRestart, List.any_append, quiet, Bool.or_false, sinceRestart]
    rw [same, kept]
    exact ⟨limit, newest⟩
  · rw [cleared, sinceRestart, List.any_append, restarts, Bool.or_true, if_pos rfl, rtake_accepted_singleton]
    exact ⟨limit, rfl⟩

omit config value g in
theorem Moment.newest {config : Config α} {value : α} {g : Vector α n} {since' : List (Visit α n)}
    {h : History α n} (moment : Moment config s value g since since' h) : Newest s.history.limit since' h := by
  apply newest_of_pairs roots
  cases moment with
  | @updated point gradient added h entries last updated =>
      have known := remembers.last
      rw [last] at known
      obtain ⟨u, latest, same⟩ := Option.map_eq_some_iff.1 known.symm
      obtain ⟨rfl, rfl⟩ := Prod.mk.inj same
      obtain ⟨_, _, _, updated', -, newest, -⟩ :=
        update_newest roots (v := ⟨s.iterate.point, g⟩) latest pairs
      cases updated.symm.trans updated'
      exact newest
  | refreshed refreshed =>
      obtain ⟨_, _, refreshed', -, newest⟩ := refresh_newest roots remembers pairs config value g
      cases refreshed.symm.trans refreshed'
      exact newest
  | directed directed =>
      obtain ⟨_, directed', -, newest⟩ := direction_newest roots remembers pairs config value g
      cases directed.symm.trans directed'
      exact newest

end

section

variable {σ α : Type} [ExactField α] {n : Nat} (roots : ∀ a : α, 0 ≤ a → 0 ≤ Scalar.sqrt a)
  {setup : RunSetup α n} {oracle : Oracle σ α n} {start c : Station (State α n) σ α n} {limit : Nat}
  {all since : List (Visit α n)} (fresh : Keeps limit start.1 [] [])

include roots fresh

theorem Visits.keeps (visits : Visits setup oracle start c all since) : Keeps limit c.1 all since := by
  induction visits with
  | start => exact fresh
  | next _ evaluated directed completed ih =>
      obtain ⟨_, _, _, _, evaluated', directed', history, last, previous⟩ := of_completed completed
      cases evaluated.symm.trans evaluated'
      cases directed.symm.trans directed'
      obtain ⟨_, directed', size, newest⟩ :=
        direction_newest roots ih.remembers (ih.size.symm ▸ ih.pairs) _ _ _
      cases directed.symm.trans directed'
      exact {
        size := by rw [history, size, ih.size]
        pairs := by rw [history, newest, ih.size]
        remembers := ⟨by rw [last, getLast?_sinceRestart]; rfl, .inr (by rw [previous]; rfl)⟩
        suffix := sinceRestart_suffix ih.suffix _ _ }

theorem Meets.newest {h : History α n} (meets : Meets setup oracle start all since h) :
    since <:+ all ∧ Newest limit since h := by
  cases meets with
  | station visits =>
      have keeps := visits.keeps roots fresh
      exact ⟨keeps.suffix, newest_of_pairs roots keeps.pairs⟩
  | moment visits evaluated moment =>
      have keeps := visits.keeps roots fresh
      have newest := moment.newest roots keeps.remembers (keeps.size.symm ▸ keeps.pairs)
      exact ⟨moment.suffix keeps.suffix, keeps.size ▸ newest⟩

end

/-- In exact arithmetic, whatever an earlier run has left: on the way of a run, and however it ends, the
history has the newest accepted pairs of consecutive iterates of this run since its last restart. -/
theorem history_newest {σ α : Type} [ExactField α] {n k : Nat} (roots : ∀ a : α, 0 ≤ a → 0 ≤ Scalar.sqrt a)
    (setup : RunSetup α n) (oracle : Oracle σ α n) (used : History α k)
    (same : used.limit = setup.config.historySize) (x : Vector α n) (iterations : Int) (c : σ × Journal α n) :
    Run.repeatTurn (turn setup oracle) (Run.remaining setup.config iterations) (again used x iterations) =
        run setup oracle x iterations ∧
      (∀ all since h, Meets setup oracle (again used x iterations, c) all since h →
        since <:+ all ∧ Newest setup.config.historySize since h) ∧
      (∀ i c', Goes (turn setup oracle) (again used x iterations, c) i c' → ∃ all since,
        Visits setup oracle (again used x iterations, c) c' all since ∧ all.length = i) ∧
      ∃ exit s' c', (run setup oracle x iterations).run c = (.ok (exit, s'), c') ∧
        ∃ all since, Meets setup oracle (again used x iterations, c) all since s'.history := by
  have fresh : Keeps setup.config.historySize (again used x iterations) ([] : List (Visit α n)) [] :=
    same ▸ keeps_again used x iterations
  have begins : Run.repeatTurn (turn setup oracle) (Run.remaining setup.config iterations)
      (again used x iterations) = run setup oracle x iterations := by
    rw [again, same]
    rfl
  refine ⟨begins, fun all since h meets => meets.newest roots fresh, fun i c' goes => visits_of_goes goes, ?_⟩
  have curved : (again used x iterations).history.Curved := History.curved_empty _
  obtain ⟨exit, s', c', ran, -⟩ := repeatTurn_contained (turning setup oracle) (steady roots setup oracle)
    (show (again used x iterations, c).1.history.Curved from curved) (Run.remaining setup.config iterations)
  refine ⟨exit, s', c', begins ▸ ran, ?_⟩
  obtain ⟨i, s₁, c₁, goes, -, last⟩ := repeatTurn_ends (turning setup oracle) ran
  obtain ⟨all, since, visits, -⟩ := visits_of_goes goes
  obtain kept | ⟨value, g, o, search, evaluated, directed, found⟩ := history_of_stop (c := (s₁, c₁)) last
  · exact ⟨all, since, kept ▸ .station visits⟩
  · rw [found]
    exact ⟨_, _, .moment visits evaluated (.directed directed)⟩

theorem square_history : ∃ s' c' all since,
    (run Objective.squareSetup (Objective.square.oracle Objective.three false) ⟨#[3], rfl⟩ 0).run
        (Objective.square.workspace, ⟨[], []⟩) = (.ok (.gradientTolerance, s'), c') ∧
      s'.history.pairs.map (fun pair => (pair.step.toList, pair.change.toList, pair.weight)) =
        [([-1], [-2], 1 / 2)] ∧
      since <:+ all ∧ Newest 10 since s'.history := by
  have size : Objective.squareSetup.config.historySize = 10 := by decide +kernel
  obtain ⟨-, newest, -, exit, s', c', ran, all, since, meets⟩ := history_newest (fun a _ => Rat.sqrt_nonneg a)
    Objective.squareSetup (Objective.square.oracle Objective.three false) ⟨10, History.bent.pairs⟩ size.symm
    ⟨#[3], rfl⟩ 0 (Objective.square.workspace, ⟨[], []⟩)
  have ends : ((run Objective.squareSetup (Objective.square.oracle Objective.three false) ⟨#[3], rfl⟩ 0).run
      (Objective.square.workspace, ⟨[], []⟩)).1.toOption.map (fun ended => (ended.1, ended.2.history.pairs.map
        fun pair => (pair.step.toList, pair.change.toList, pair.weight))) =
      some (.gradientTolerance, [([-1], [-2], 1 / 2)]) := by decide +kernel
  rw [ran, Except.toOption, Option.map_some, Option.some.injEq, Prod.mk.injEq] at ends
  obtain ⟨rfl, held⟩ := ends
  exact ⟨s', c', all, since, ran, held, size ▸ newest all since _ meets⟩

end Lbfgs

end Descent
