import Mathlib
import Descent.Proofs.Run.Curvature
import Descent.Proofs.Run.Downhill

namespace Descent

/-! ## Iterations -/

section

variable {σ α ι β : Type} [Scalar α] {n : Nat}

inductive Raises (setup : RunSetup α n) (oracle : Oracle σ α n) (m : Scheme σ α n ι β) (exhausted : Bool)
    (s : ι) (o : σ) (seen : List (Sight α n)) : Prop
  | evaluation {fault : Fault α} {o' : σ} (failed : (m.evaluate (m.point s)).run o = (.error fault, o'))
  | direction {b : β} {fault : Fault α} {o' : σ} (continues : Continues setup m exhausted s o seen b o')
      (failed : m.direct s b = .error fault)
  | search {b : β} {p : Vector α n} {s' : ι} {fault : Fault α} {o' : σ}
      (searches : Searches setup oracle m exhausted s o seen b p s' (.error fault) o')

/-- In states with this property a scheme either finds a direction or ends the run, and an iteration leads
to such a state again. -/
structure Scheme.Steady (m : Scheme σ α n ι β) (Sound : ι → Prop) : Prop where
  refused : ∀ {s b fault}, Sound s → m.direct s b = .error fault →
    m.refused fault s = .stop .internalError s
  moved : ∀ {s b p start s'} i, Sound s → m.direct s b = .ok (p, start, s') → Sound (m.moved s' b i)

theorem Newton.steady (setup : RunSetup α n) (oracle : Oracle σ α n) (rule : StepRule α n) :
    (scheme setup oracle rule).Steady fun _ => True :=
  ⟨fun _ _ => rfl, fun _ _ _ => trivial⟩

variable {setup : RunSetup α n} {oracle : Oracle σ α n} {m : Scheme σ α n ι β} {exhausted : Bool}
  {s s' : ι} {o o' : σ} {seen seen' : List (Sight α n)} {Sound : ι → Prop} {turn : Turn α ι}

theorem Raises.continues (raises : Raises setup oracle m exhausted s o seen) {b : β}
    (evaluated : (m.evaluate (m.point s)).run o = (.ok b, o')) :
    Continues setup m exhausted s o seen b o' := by
  cases raises with
  | evaluation failed => cases failed.symm.trans evaluated
  | direction continues _ =>
      cases continues.evaluated.symm.trans evaluated
      exact continues
  | search searches =>
      obtain ⟨o₁, start, continues, -⟩ := searches
      cases continues.evaluated.symm.trans evaluated
      exact continues

theorem Config.exit?_ne_internalError (c : Config α) (s : Standing α) :
    c.exit? s ≠ some .internalError := by
  unfold Config.exit?
  split_ifs <;> nofun

theorem Passage.raises
    (passage : Passage setup oracle m exhausted s o seen (.stop .internalError s', o', seen')) :
    Raises setup oracle m exhausted s o seen := by
  generalize ended : (Turn.stop ExitCondition.internalError s', o', seen') = outcome at passage
  cases passage with
  | unevaluated failed => exact .evaluation failed
  | tested evaluated test =>
      cases ended
      exact absurd test (Config.exit?_ne_internalError _ _)
  | undirected continues failed => exact .direction continues failed
  | interrupted searches => exact .search searches
  | _ => cases ended

theorem Passage.not_abandoned
    (directed : ∀ {b fault o'}, Continues setup m exhausted s o seen b o' → m.direct s b = .error fault →
      m.refused fault s = .stop .internalError s) {fault : Fault α}
    (passage : Passage setup oracle m exhausted s o seen (.abandon fault, o', seen')) : False := by
  generalize ended : (Turn.abandon fault, o', seen') = outcome at passage
  cases passage with
  | undirected continues failed =>
      rw [directed continues failed] at ended
      cases ended
  | _ => cases ended

section

variable (steady : m.Steady Sound) (sound : Sound s)

include steady sound

theorem Passage.keeps_sound
    (passage : Passage setup oracle m exhausted s o seen (.next s', o', seen')) : Sound s' := by
  obtain ⟨b, p, s₁, result, ⟨o₁, start, -, directed, -⟩, -, -, rfl⟩ := passage.of_next
  exact steady.moved _ sound directed

theorem Passage.stop_of_raises (raises : Raises setup oracle m exhausted s o seen)
    (passage : Passage setup oracle m exhausted s o seen (turn, o', seen')) :
    ∃ s', turn = .stop .internalError s' := by
  generalize ended : (turn, o', seen') = outcome at passage
  cases passage with
  | unevaluated failed => exact ⟨s, congrArg Prod.fst ended⟩
  | interrupted searches => exact ⟨_, congrArg Prod.fst ended⟩
  | undirected continues failed =>
      exact ⟨s, (congrArg Prod.fst ended).trans (steady.refused sound failed)⟩
  | tested evaluated test => cases test.symm.trans (raises.continues evaluated).untested
  | aborted evaluated _ halted => cases halted.symm.trans (raises.continues evaluated).proceeds
  | unfinished searches _ | completed searches _ =>
      -- the direction and the search have one outcome only, and here they did not fail
      cases raises with
      | search searches' => cases (searches.unique searches').2.2
      | evaluation failed =>
          obtain ⟨o₁, start, continues, -⟩ := searches
          cases failed.symm.trans continues.evaluated
      | direction continues' failed =>
          obtain ⟨o₁, start, continues, directed, -⟩ := searches
          cases continues.evaluated.symm.trans continues'.evaluated
          cases directed.symm.trans failed

end

end

/-! ## Runs -/

section

variable {σ α ι β : Type} [Scalar α] {n : Nat}

structure RaisesAfter (setup : RunSetup α n) (oracle : Oracle σ α n) (m : Scheme σ α n ι β)
    (turn : Bool → ι → Run σ α n (Turn α ι)) (left : Nat) (start : Station ι σ α n) (k : Nat)
    (c : Station ι σ α n) : Prop where
  goes : Goes turn start k c
  within : k ≤ left
  raises : Raises setup oracle m (k = left) c.1 c.2.1 c.2.2.sights

variable {setup : RunSetup α n} {oracle : Oracle σ α n} {m : Scheme σ α n ι β}
  {turn : Bool → ι → Run σ α n (Turn α ι)} {start c c' : Station ι σ α n} {k left : Nat}
  {Sound : ι → Prop} (turning : Turning setup oracle m turn) (steady : m.Steady Sound)
  (sound : Sound start.1)

include turning steady sound

theorem Goes.keeps_sound (goes : Goes turn start k c) : Sound c.1 := by
  induction goes with
  | start => exact sound
  | @next k c₁ c goes completed ih =>
      have passage := turning false c₁.1 c₁.2.1 c₁.2.2
      rw [completed] at passage
      exact passage.keeps_sound steady ih

theorem RaisesAfter.ends (after : RaisesAfter setup oracle m turn left start k c) :
    ∃ s' c', (Run.repeatTurn turn left start.1).run start.2 = (.ok (.internalError, s'), c') ∧
      m.iterate s' = m.iterate c.1 := by
  have sound' := after.goes.keeps_sound turning steady sound
  have passage := turning (k = left) c.1 c.2.1 c.2.2
  rcases last : (turn (k = left) c.1).run c.2 with ⟨outcome, c'⟩
  rw [last] at passage
  obtain ⟨s', rfl⟩ := passage.stop_of_raises steady sound' after.raises
  refine ⟨s', c', ?_, passage.iterate_of_stop⟩
  obtain ⟨rest, rfl⟩ := Nat.exists_eq_add_of_le after.within
  rw [after.goes.repeatTurn_eq, repeatTurn_of_stop]
  simpa using last

theorem RaisesAfter.of_ran (after : RaisesAfter setup oracle m turn left start k c) {exit : ExitCondition}
    {s' : ι} {o' : σ} {journal : Journal α n}
    (ran : (Run.repeatTurn turn left start.1).run start.2 = (.ok (exit, s'), o', journal)) :
    exit = .internalError ∧ m.point s' = m.point c.1 ∧
      (m.iterate s').iterations = (m.iterate start.1).iterations + k ∧
      (k = 0 → m.point s' = m.point start.1) := by
  obtain ⟨s₁, c₁, ended, same⟩ := after.ends turning steady sound
  cases ran.symm.trans ended
  have counted := after.goes.iterations turning
  refine ⟨rfl, by rw [Scheme.point, same, Scheme.point], by rw [same, counted], ?_⟩
  rintro rfl
  cases after.goes
  rw [Scheme.point, same, Scheme.point]

theorem repeatTurn_contained (left : Nat) : ∃ exit s' c',
    (Run.repeatTurn turn left start.1).run start.2 = (.ok (exit, s'), c') ∧
      (exit = .internalError → ∃ k c, RaisesAfter setup oracle m turn left start k c) := by
  rcases ran : (Run.repeatTurn turn left start.1).run start.2 with ⟨result, c'⟩
  obtain ⟨k, s₁, c₁, goes, within, last⟩ := repeatTurn_ends turning ran
  have passage := turning (k = left) s₁ c₁.1 c₁.2
  rw [last] at passage
  cases result with
  | error fault =>
      -- a steady scheme ends the run where it finds no direction, and abandons it nowhere
      have sound' := goes.keeps_sound turning steady sound
      exact (passage.not_abandoned fun _ failed => steady.refused sound' failed).elim
  | ok ended =>
      obtain ⟨exit, s'⟩ := ended
      refine ⟨exit, s', c', rfl, fun internal => ⟨k, (s₁, c₁), goes, within, ?_⟩⟩
      subst internal
      exact passage.raises

end

theorem Lbfgs.steady {σ α : Type} [ExactField α] {n : Nat} (roots : ∀ a : α, 0 ≤ a → 0 ≤ Scalar.sqrt a)
    (setup : RunSetup α n) (oracle : Oracle σ α n) :
    (scheme setup oracle).Steady fun s => s.history.Curved := by
  constructor
  · intro s b fault curved failed
    obtain ⟨search, directed, -⟩ := direction_ok roots (c := setup.config) curved b.1 b.2
    simp only [scheme, directed, ok_bind] at failed
    cases failed
  · intro s b p start s' iterate curved found
    obtain ⟨search, directed, curved'⟩ := direction_ok roots (c := setup.config) curved b.1 b.2
    simp only [scheme, directed, ok_bind] at found
    cases found
    exact curved'

/-! ## Objectives -/

namespace Objective

open Registry

section

variable {α : Type} [Scalar α] (f : Objective α) (m : Memory α)
  (oracle : Memory α → Bool → Oracle (Workspace α) α f.scalars) (setup : RunSetup α f.scalars)
  (iterations : Int)

def minimizationOn : Algorithm α f.scalars → Minimization α (Solution α f.scalars)
  | .newton rule => .newtonOn f.toRegistry oracle setup rule iterations
  | .lbfgs => .lbfgsOn f.toRegistry oracle setup iterations

theorem minimizationOn_oracle (algorithm : Algorithm α f.scalars) :
    f.minimizationOn f.oracle setup iterations algorithm = f.minimization setup iterations algorithm := by
  cases algorithm <;> rfl

inductive Raised : Algorithm α f.scalars → (k : Nat) → (x : Vector α f.scalars) → Prop
  | newton {rule : Newton.StepRule α f.scalars} {sparse : Bool} {w : Workspace α}
      {start : Vector α f.scalars} {k : Nat}
      {c : Station (Newton.State α f.scalars) (Workspace α) α f.scalars} (starts : f.StartsAt m start)
      (chosen : (f.useSparse setup.config).run f.workspace = (.ok sparse, w))
      (after : RaisesAfter setup (oracle m sparse) (Newton.scheme setup (oracle m sparse) rule)
        (Newton.turn setup (oracle m sparse) rule) (Run.remaining setup.config iterations)
        (⟨.start start iterations, []⟩, w, ⟨[], []⟩) k c) :
      Raised (.newton rule) k c.1.iterate.point
  | lbfgs {start : Vector α f.scalars} {k : Nat}
      {c : Station (Lbfgs.State α f.scalars) (Workspace α) α f.scalars} (starts : f.StartsAt m start)
      (after : RaisesAfter setup (oracle m false) (Lbfgs.scheme setup (oracle m false))
        (Lbfgs.turn setup (oracle m false)) (Run.remaining setup.config iterations)
        (⟨.start start iterations, .empty setup.config.historySize, none⟩, f.workspace, ⟨[], []⟩) k c) :
      Raised .lbfgs k c.1.iterate.point

/-- A solution tells of an internal error exactly if something raised. It then counts the completed
iterations, and the arrays hold the point that they led to, or what they held before if there were none. -/
structure Contained (algorithm : Algorithm α f.scalars) (solution : Solution α f.scalars)
    (after : Surroundings α) : Prop where
  exit : solution.exit = .internalError ↔ ∃ k x, f.Raised m oracle setup iterations algorithm k x
  counted : ∀ k x, f.Raised m oracle setup iterations algorithm k x →
    solution.iterations = iterations + k
  free : ∀ k x, f.Raised m oracle setup iterations algorithm k x → ∀ v ∈ f.vars,
    v.isConstant = false → after.memory.load v.storage = solverPart v x.toList
  untouched : ∀ x, f.Raised m oracle setup iterations algorithm 0 x → ∀ v ∈ f.vars,
    after.memory.load v.storage = m.load v.storage
  constant : ∀ v ∈ f.vars, v.isConstant = true → after.memory.load v.storage = m.load v.storage

end

section

variable {α : Type} [Scalar α] {f : Objective α} {m : Memory α}
  {oracle : Memory α → Bool → Oracle (Workspace α) α f.scalars} {setup : RunSetup α f.scalars}
  {iterations : Int} {algorithm : Algorithm α f.scalars}

theorem StartsAt.unique {x y : Vector α f.scalars} (here : f.StartsAt m x) (there : f.StartsAt m y) :
    x = y :=
  Except.ok.inj (Prod.mk.inj (here.symm.trans there)).1

theorem raised_newton {rule : Newton.StepRule α f.scalars} {sparse : Bool} {w : Workspace α}
    {start : Vector α f.scalars} (starts : f.StartsAt m start)
    (chosen : (f.useSparse setup.config).run f.workspace = (.ok sparse, w)) (k : Nat)
    (x : Vector α f.scalars) : f.Raised m oracle setup iterations (.newton rule) k x ↔
      ∃ c, RaisesAfter setup (oracle m sparse) (Newton.scheme setup (oracle m sparse) rule)
        (Newton.turn setup (oracle m sparse) rule) (Run.remaining setup.config iterations)
        (⟨.start start iterations, []⟩, w, ⟨[], []⟩) k c ∧ c.1.iterate.point = x := by
  constructor
  · rintro ⟨starts', chosen', after⟩
    obtain rfl := starts.unique starts'
    cases chosen.symm.trans chosen'
    exact ⟨_, after, rfl⟩
  · rintro ⟨c, after, rfl⟩
    exact .newton starts chosen after

theorem raised_lbfgs {start : Vector α f.scalars} (starts : f.StartsAt m start) (k : Nat)
    (x : Vector α f.scalars) : f.Raised m oracle setup iterations .lbfgs k x ↔
      ∃ c, RaisesAfter setup (oracle m false) (Lbfgs.scheme setup (oracle m false))
        (Lbfgs.turn setup (oracle m false)) (Run.remaining setup.config iterations)
        (⟨.start start iterations, .empty setup.config.historySize, none⟩, f.workspace, ⟨[], []⟩) k c ∧
        c.1.iterate.point = x := by
  constructor
  · rintro (_ | ⟨starts', after⟩)
    obtain rfl := starts.unique starts'
    exact ⟨_, after, rfl⟩
  · rintro ⟨c, after, rfl⟩
    exact .lbfgs starts after

theorem Reachable.contained_of_steady {ι β : Type} {O : Oracle (Workspace α) α f.scalars}
    {S : Scheme (Workspace α) α f.scalars ι β} {turn : Bool → ι → Run (Workspace α) α f.scalars (Turn α ι)}
    {Sound : ι → Prop} {initial : ι} {left : Nat} {w : Workspace α} {start : Vector α f.scalars}
    (reached : Reachable f) (stored : f.StoredIn m) (separate : f.Separate m)
    (unchanged : ∀ v ∈ f.vars, v.isConstant = false → v.change = none)
    (starts : f.StartsAt m start) (turning : Turning setup O S turn) (steady : S.Steady Sound)
    (sound : Sound initial) (from_start : S.iterate initial = .start start iterations)
    (raised : ∀ k x, f.Raised m oracle setup iterations algorithm k x ↔
      ∃ c, RaisesAfter setup O S turn left (initial, w, ⟨[], []⟩) k c ∧ S.point c.1 = x)
    (solves : ∀ {exit state w' journal memory},
      (Run.repeatTurn turn left initial).run (w, ⟨[], []⟩) = (.ok (exit, state), w', journal) →
      StateT.run (ExceptT.run (f.writePoint (S.point state).toList)) m = (.ok (), memory) →
      ∃ solution, StateT.run (ExceptT.run (f.minimizationOn oracle setup iterations algorithm))
          ⟨f.workspace, m⟩ = (.ok solution, ⟨w', memory⟩) ∧
        solution.exit = exit ∧ solution.iterations = (S.iterate state).iterations ∧
          solution.journal.sights = journal.sights) :
    ∃ solution after, StateT.run (ExceptT.run (f.minimizationOn oracle setup iterations algorithm))
        ⟨f.workspace, m⟩ = (.ok solution, after) ∧
      f.Contained m oracle setup iterations algorithm solution after := by
  have wf := reached.wellFormed
  have read := Minimization.read_of_started wf starts
  let station : Station ι (Workspace α) α f.scalars := (initial, w, ⟨[], []⟩)
  obtain ⟨exit, state, c', ran, internal⟩ :=
    repeatTurn_contained turning steady (show Sound station.1 from sound) left
  obtain ⟨memory, wrote⟩ := writePoint_ok wf separate unchanged stored
    (x := (S.point state).toList) Vector.length_toList
  obtain ⟨solution, solved, exit_eq, counted, -⟩ := solves ran wrote
  -- a station where something raises is that of the last iteration
  have last {k : Nat} {x : Vector α f.scalars}
      (at_k : f.Raised m oracle setup iterations algorithm k x) :
      exit = .internalError ∧ S.point state = x ∧ (S.iterate state).iterations = iterations + k ∧
        (k = 0 → S.point state = start) := by
    obtain ⟨c, after, rfl⟩ := (raised k x).1 at_k
    obtain ⟨internal', same, number, at_start⟩ := after.of_ran turning steady sound ran
    refine ⟨internal', same, by rw [number, from_start, Iterate.start], fun zero => ?_⟩
    rw [at_start zero, Scheme.point, from_start, Iterate.start]
  refine ⟨solution, _, solved, ?_, ?_, ?_, ?_, ?_⟩
  · rw [exit_eq]
    constructor
    · intro ended
      obtain ⟨k, c, after⟩ := internal ended
      exact ⟨k, _, (raised k _).2 ⟨c, after, rfl⟩⟩
    · rintro ⟨k, x, at_k⟩
      exact (last at_k).1
  · intro k x at_k
    rw [counted, (last at_k).2.2.1]
  · intro k x at_k v member free
    rw [← (last at_k).2.1]
    exact load_written wf separate unchanged Vector.length_toList read wrote v member free
  · intro x at_0 v member
    rw [(last at_0).2.2.2 rfl] at wrote
    exact load_of_written wf separate unchanged read wrote v member
  · intro v member constant
    exact (run_writePoint wf separate wrote).load_constant wf member constant

end

/-- In exact arithmetic, where arrays do not overlap and no free variable is changed, both solvers give a
solution whatever raises in the evaluations, in the computation of the steps or in the searches. It tells of
that, and the arrays hold the point that the completed iterations led to. -/
theorem Reachable.faults_contained {α : Type} [ExactField α] {f : Objective α} {m : Memory α}
    (reached : Reachable f) (stored : f.StoredIn m) (separate : f.Separate m)
    (unchanged : ∀ v ∈ f.vars, v.isConstant = false → v.change = none)
    (roots : ∀ a : α, 0 ≤ a → 0 ≤ Scalar.sqrt a) (setup : RunSetup α f.scalars) (iterations : Int)
    (algorithm : Algorithm α f.scalars) :
    (∃ solution after, StateT.run (ExceptT.run (f.minimization setup iterations algorithm))
        ⟨f.workspace, m⟩ = (.ok solution, after) ∧
      f.Contained m f.oracle setup iterations algorithm solution after) ∧
    ∀ oracle, ∃ solution after,
      StateT.run (ExceptT.run (f.minimizationOn oracle setup iterations algorithm)) ⟨f.workspace, m⟩ =
        (.ok solution, after) ∧
      f.Contained m oracle setup iterations algorithm solution after := by
  rw [← minimizationOn_oracle]
  suffices general : ∀ oracle, ∃ solution after,
      StateT.run (ExceptT.run (f.minimizationOn oracle setup iterations algorithm)) ⟨f.workspace, m⟩ =
        (.ok solution, after) ∧
      f.Contained m oracle setup iterations algorithm solution after from ⟨general _, general⟩
  intro oracle
  obtain ⟨x, read⟩ := readPoint_ok separate unchanged stored
  obtain ⟨start, starts⟩ := Minimization.started_of_read (s := ⟨f.workspace, m⟩) read
  cases algorithm with
  | newton rule =>
      obtain ⟨sparse, w, chosen, -⟩ := run_useSparse reached.coherent setup.config
      exact reached.contained_of_steady stored separate unchanged starts
        (Newton.turning _ _ _) (Newton.steady setup (oracle m sparse) rule) trivial rfl
        (raised_newton starts chosen) (Minimization.run_newtonOn starts chosen)
  | lbfgs =>
      exact reached.contained_of_steady stored separate unchanged starts
        (Lbfgs.turning _ _) (Lbfgs.steady roots setup (oracle m false))
        (History.curved_empty _) rfl (raised_lbfgs starts) (Minimization.run_lbfgsOn starts)

def trapped : Objective ℚ :=
  ((Mutation.addTerm (.term (Sample.trap 1 "trapped")) [⟨0⟩]).edit.run three (ofThreads 1)).2

theorem reachable_trapped : Reachable trapped :=
  .step (.new (show new? 1 = .ok (ofThreads 1) from rfl)) (.mutate (c := .addTerm (.term _) _) trivial three)

def trappedSetup : RunSetup ℚ trapped.scalars := ⟨defaultConfig, 60, fun _ _ => true⟩

theorem trapped_contained : ∃ solution after x,
    StateT.run (ExceptT.run (trapped.minimization trappedSetup 0 .lbfgs)) ⟨trapped.workspace, three⟩ =
        (.ok solution, after) ∧
      solution.exit = .internalError ∧ trapped.Raised three trapped.oracle trappedSetup 0 .lbfgs 1 x ∧
      after.memory.load ⟨0⟩ = [2] ∧ x.toList = [2] := by
  have vars : trapped.vars = [⟨⟨0⟩, 1, 1, 0, false, none⟩] := rfl
  have stored : trapped.StoredIn three := by
    rw [Registry.StoredIn, vars, List.forall_mem_singleton]
    exact ⟨0, 0, rfl⟩
  have unchanged : ∀ v ∈ trapped.vars, v.isConstant = false → v.change = none := by
    rw [vars, List.forall_mem_singleton]
    exact fun _ => rfl
  obtain ⟨⟨solution, after, ran, contained⟩, -⟩ := Reachable.faults_contained (m := three)
    reachable_trapped stored (separate_of_single vars (a := ⟨0, 0, 1⟩) ⟨rfl, [3], rfl, by decide⟩)
    unchanged (fun a _ => Rat.sqrt_nonneg a) trappedSetup 0 .lbfgs
  have reports : outcome? (StateT.run (ExceptT.run (trapped.minimization trappedSetup 0 .lbfgs))
      ⟨trapped.workspace, three⟩) = some (.internalError, 1, [2]) := by decide +kernel
  rw [ran, outcome?, Option.some.injEq, Prod.mk.injEq, Prod.mk.injEq] at reports
  obtain ⟨internal, one, two⟩ := reports
  obtain ⟨k, x, raised⟩ := contained.exit.1 internal
  have completed : k = 1 := by
    have counted := contained.counted k x raised
    omega
  subst completed
  have loaded := contained.free 1 x raised ⟨⟨0⟩, 1, 1, 0, false, none⟩
    (vars ▸ List.mem_singleton_self _) rfl
  have whole : solverPart ⟨⟨0⟩, 1, 1, 0, false, none⟩ x.toList = x.toList :=
    solverPart_whole rfl Vector.length_toList.le
  exact ⟨solution, after, x, ran, internal, raised, two, whole.symm.trans (loaded.symm.trans two)⟩

end Objective

end Descent
