import Descent.Objective.Minimize
import Descent.Objective.Range
import Descent.Objective.Stream
import Descent.Proofs.Registry.Composition
import Descent.Sample.Changes
import Descent.Sample.Terms

/-!
# Reachable objectives

`Step` is one call that a caller can make, whether or not it fails; `Reachable` is what any sequence of
calls can make of a new objective, the arrays of the caller being anything at each of them. Every step keeps
the registry well-formed (`Step.wellFormed`), so the layout is consistent in all reachable objectives
(`Reachable.consistent`), and a mutation that fails changes nothing that defines the function
(`Reachable.failed_mutation`).
-/

namespace Descent

variable {α : Type}

inductive Query (α : Type) where
  | value (x : Option (List α))
  | gradient (x : List α)
  | hessian (x : List α) (sparse : Bool)
  | range (box : List (Interval α))
  | pattern
  | density

inductive Answer (α : Type) (n : Nat) where
  | number (value : α)
  | gradient (value : α) (gradient : Vector α n)
  | hessian (value : α) (gradient : Vector α n) (hessian : Hessian α n)
  | range (bounds : Interval α)
  | pattern (pattern : Sparse α n n)

def Query.evaluation [Scalar α] (r : Registry α) (m : Memory α) :
    Query α → Evaluation α (Answer α r.scalars)
  | value x => do return .number (← r.value m x)
  | gradient x => do
      let (a, g) ← r.gradient m x
      return .gradient a g
  | hessian x sparse => do
      let (a, g, h) ← r.hessian m x sparse
      return .hessian a g h
  | range box => do return .range (← r.range m box)
  | pattern => do return .pattern (← r.sparsityPattern)
  | density => do return .number (← r.hessianDensity)

namespace Objective

variable [Scalar α] {f g : Objective α}

def ask (f : Objective α) (m : Memory α) (q : Query α) :
    Except (Fault α) (Answer α f.scalars) × Objective α :=
  f.evaluating (q.evaluation f.toRegistry m)

/-- One call. The format of the numbers in a text is arbitrary. -/
inductive Step : Objective α → Objective α → Prop
  | mutate {f : Objective α} {c : Mutation α} (positive : c.Positive) (m : Memory α) :
      Step f (c.edit.run m f).2
  | clear {f : Objective α} : Step f f.clear
  | close {f : Objective α} : Step f f.close
  | read [Numeral α] {f : Objective α} (factory : Factory α) (text : List Char) (m : Memory α) :
      Step f ((Reading.objective factory).run ⟨text, m, f⟩).2.objective
  | copy {f g : Objective α} {m : Memory α} (copied : f.copy m = .ok g) : Step f g
  | ask {f : Objective α} (m : Memory α) (q : Query α) : Step f (f.ask m q).2

/-- What any sequence of calls can make of a new objective. -/
inductive Reachable : Objective α → Prop
  | new {threads : Int} {f : Objective α} (made : new? threads = .ok f) : Reachable f
  | step {f g : Objective α} (reached : Reachable f) (next : Step f g) : Reachable g

theorem new?_eq_ok {threads : Int} : new? threads = .ok f ↔ 0 < threads ∧ f = ofThreads threads.toNat := by
  unfold new?
  split
  case isTrue few => exact ⟨nofun, fun ⟨positive, _⟩ => absurd few (not_le.2 positive)⟩
  case isFalse many => simp [not_le.1 many, eq_comm]

theorem wellFormed_new {threads : Int} (made : new? threads = .ok f) : f.WellFormed := by
  obtain ⟨positive, rfl⟩ := new?_eq_ok.1 made
  exact Registry.wellFormed_empty (by omega)

/-- What holds of every new objective and is kept by every call but for reading and copying, which are
sequences of other ones. -/
structure Invariant (I : Objective α → Prop) : Prop where
  wellFormed : ∀ {f}, I f → f.WellFormed
  new : ∀ {threads f}, new? threads = .ok f → I f
  follows : ∀ {f g}, I f → f.Follows g → I g
  clear : ∀ {f}, I f → I f.clear
  close : ∀ {f}, I f → I f.close
  ask : ∀ {f} (m q), I f → I (f.ask m q).2

theorem Invariant.mutate {I : Objective α → Prop} (inv : Invariant I) (c : Mutation α)
    (positive : c.Positive) (m : Memory α) (holds : I f) : I (c.edit.run m f).2 :=
  inv.follows holds (c.follows positive (inv.wellFormed holds) m)

end Objective

structure Objective.KeptByReading [Scalar α] (I : Objective α → Prop) : Prop where
  addVariable : ∀ {f} (h : Handle) (dimension : Int) (m : Memory α),
    I f → I ((addVariable h dimension none).run m f).2
  setConstant : ∀ {f} (h : Handle) (m : Memory α), I f → I ((setConstant h true).run m f).2
  addTerm : ∀ {f} (t : Term α) (handles : List Handle) (m : Memory α),
    I f → I ((addTerm t handles).run m f).2
  constant : ∀ {f} (constant : α), I f → I { f with constant }

theorem Objective.Invariant.keptByReading [Scalar α] {I : Objective α → Prop} (inv : Invariant I) :
    KeptByReading I where
  addVariable h dimension m holds := inv.mutate (.addVariable h dimension none) trivial m holds
  setConstant h m holds := inv.mutate (.setConstant h true) trivial m holds
  addTerm t handles m holds := inv.mutate (.addTerm (.term t) handles) trivial m holds
  constant constant holds := inv.follows holds (.setConstant (inv.wellFormed holds) constant)

namespace Reading

variable {I : Objective α → Prop}

abbrev KeepsObjective {β : Type} (I : Objective α → Prop) (step : Reading α β) : Prop :=
  Keeps (fun reader => I reader.objective) step

theorem keeps_refuse (wrong : Prop) [Decidable wrong] (fault : Fault α) :
    KeepsObjective I (refuse wrong fault) := by
  unfold refuse
  split
  · exact keeps_throw _
  · exact keeps_pure _

theorem keeps_line (part : StreamPart) : KeepsObjective I (line part) := by
  intro reader holds
  cases empty : reader.text.isEmpty
  all_goals
    simp only [line, run_run_bind, run_run_get, empty, Bool.false_eq_true, ↓reduceIte]
    exact holds

theorem keeps_integers (part : StreamPart) : KeepsObjective I (integers part) := by
  refine (keeps_line part).bind fun text => ?_
  split
  · exact keeps_pure _
  · exact keeps_throw _

theorem keeps_natural (part : StreamPart) : KeepsObjective I (natural part) := by
  refine (keeps_integers part).bind fun values => ?_
  split
  · exact keeps_pure _
  · exact keeps_throw _

theorem keeps_constant [Numeral α] : KeepsObjective I constant := by
  refine (keeps_line _).bind fun text => ?_
  split
  · exact keeps_pure _
  · exact keeps_throw _

theorem keeps_point [Numeral α] : KeepsObjective I point := by
  refine (keeps_line _).bind fun text => ?_
  split
  · exact keeps_pure _
  · exact keeps_throw _

theorem keeps_view (whole : Handle) (start stop : Int) :
    KeepsObjective I (view whole start stop) :=
  fun _ holds => holds

theorem keeps_edit {β : Type} {e : Edit α β}
    (kept : ∀ (m : Memory α) (f : Objective α), I f → I (e.run m f).2) :
    KeepsObjective I (edit e) := by
  intro reader holds
  have kept := kept reader.memory reader.objective holds
  simp only [edit, run_run_bind, run_run_get, run_run_set]
  rcases outcome : e.run reader.memory reader.objective with ⟨fault | b, g⟩ <;> rw [outcome] at kept
  · exact kept
  · exact kept

variable [Scalar α]

theorem keeps_registerParts (kept : Objective.KeptByReading I) (whole : Handle) (offset : Int)
    (dimensions : List Int) : KeepsObjective I (registerParts whole offset dimensions) := by
  induction dimensions generalizing offset with
  | nil => exact keeps_pure _
  | cons d rest ih =>
      exact (keeps_view _ _ _).bind fun handle =>
        (keeps_edit fun m _ holds => kept.addVariable handle d m holds).bind fun _ =>
          (ih _).bind fun _ => keeps_pure _

theorem keeps_term (kept : Objective.KeptByReading I) (factory : Factory α) (handles : List Handle) :
    KeepsObjective I (term factory handles) := by
  exact (keeps_line _).bind fun name => (keeps_natural _).bind fun arity =>
    (keeps_integers _).bind fun positions => (keeps_refuse _ _).bind fun _ =>
      (keeps_line _).bind fun payload => (keeps_lift _).bind fun t =>
        keeps_edit fun m _ holds => kept.addTerm t _ m holds

theorem keeps_terms (kept : Objective.KeptByReading I) (factory : Factory α) (handles : List Handle) (count : Nat) :
    KeepsObjective I (terms factory handles count) := by
  induction count with
  | zero => exact keeps_pure _
  | succ count ih => exact (keeps_term kept factory handles).bind fun _ => ih

theorem keeps_body [Numeral α] (kept : Objective.KeptByReading I) (factory : Factory α) :
    KeepsObjective I (body factory) := by
  -- nothing before the allocation of the array changes the objective
  refine (keeps_line _).bind fun magic => (keeps_refuse _ _).bind fun _ =>
    (keeps_natural _).bind fun version => (keeps_refuse _ _).bind fun _ =>
    (keeps_line _).bind fun format => (keeps_refuse _ _).bind fun _ =>
    (keeps_natural _).bind fun numberOfTerms => (keeps_natural _).bind fun numberOfVariables =>
    (keeps_natural _).bind fun numberOfScalars => keeps_constant.bind fun constant =>
    (keeps_integers _).bind fun dimensions => (keeps_integers _).bind fun flags =>
    (keeps_refuse _ _).bind fun _ => (keeps_refuse _ _).bind fun _ =>
    keeps_point.bind fun values => (keeps_refuse _ _).bind fun _ => ?_
  refine keeps_get.bind fun reader => ?_
  rcases reader.memory.allocateVector values with ⟨whole, memory⟩
  refine Keeps.bind (keeps_modify ?allocated) fun _ =>
    (keeps_registerParts kept _ _ _).bind fun handles => ?registered
  case allocated => exact fun _ holds => holds
  refine Keeps.bind (keeps_forM fun part _ => ?constancy) fun _ =>
    (keeps_terms kept factory handles numberOfTerms).bind fun _ => ?_
  case constancy =>
    exact keeps_edit fun m _ holds => kept.setConstant part.1 m holds
  refine Keeps.bind (keeps_modify ?constant) fun _ => keeps_pure _
  case constant => exact fun _ holds => kept.constant constant holds

theorem keeps_objective [Numeral α] (inv : Objective.Invariant I) (factory : Factory α) :
    KeepsObjective I (objective factory) := by
  have cleared : KeepsObjective I (clear : Reading α Unit) := fun _ holds => inv.clear holds
  exact cleared.bind fun _ => (keeps_body inv.keptByReading factory).tryCatch fun fault =>
    cleared.bind fun _ => keeps_throw fault

end Reading

namespace Objective

variable [Scalar α] {f g : Objective α} {I : Objective α → Prop}

theorem keeps_rebuild (inv : Invariant I) {r : Registry α} (wf : r.WellFormed) (m : Memory α) :
    Keeps I (ReaderT.run (rebuild r) m) := by
  simp only [rebuild, ReaderT.run_bind, Edit.run_forM]
  refine .bind (keeps_forM fun v member => ?registered) fun _ =>
    .bind (keeps_forM fun v _ => ?constancy) fun _ => keeps_forM fun b _ => ?binding
  case registered =>
    intro f holds
    refine inv.mutate (.addVariable v.storage v.userDimension v.change) ?_ m holds
    cases change : v.change with
    | none => trivial
    | some c =>
        have fits := wf.vars v member
        have positive := fits.solver_pos
        rwa [(fits.changed c change).2] at positive
  case constancy => exact fun f holds => inv.mutate (.setConstant v.storage true) trivial m holds
  case binding => exact fun f holds => inv.mutate (.addTerm (.term b.term) _) trivial m holds

theorem Invariant.copy (inv : Invariant I) {m : Memory α} (holds : I f) (copied : f.copy m = .ok g) :
    I g := by
  obtain ⟨fresh, made, copied⟩ := bind_eq_ok.1 copied
  obtain ⟨-, -, copied⟩ := bind_eq_ok.1 copied
  have started : I { fresh with hessianEnabled := f.hessianEnabled, constant := f.constant } := by
    have wf := inv.wellFormed (inv.new made)
    refine inv.follows (inv.new made) ⟨(wf.setConstant _).enableHessian _, .inr ?_⟩
    obtain ⟨-, rfl⟩ := new?_eq_ok.1 made
    rfl
  have kept := keeps_rebuild inv (inv.wellFormed holds) m _ started
  cases copied
  exact kept

theorem Invariant.step (inv : Invariant I) (holds : I f) (next : Step f g) : I g := by
  cases next with
  | mutate positive m => exact inv.mutate _ positive m holds
  | clear => exact inv.clear holds
  | close => exact inv.close holds
  | read factory text m => exact Reading.keeps_objective inv factory ⟨text, m, f⟩ holds
  | copy copied => exact inv.copy holds copied
  | ask m q => exact inv.ask m q holds

theorem Invariant.reachable (inv : Invariant I) (reached : Reachable f) : I f := by
  induction reached with
  | new made => exact inv.new made
  | step _ next ih => exact inv.step ih next

theorem invariant_wellFormed : Invariant (α := α) (fun f => f.WellFormed) where
  wellFormed wf := wf
  new := wellFormed_new
  follows _ followed := followed.wellFormed
  clear wf := Registry.wellFormed_empty wf.threads
  close wf := wf
  ask _ _ wf := wf

theorem Reachable.wellFormed (reached : Reachable f) : f.WellFormed :=
  invariant_wellFormed.reachable reached

end Objective

structure Registry.Consistent (r : Registry α) : Prop where
  distinct : (r.vars.map Variable.storage).Nodup
  directory : ∀ h i, r.indexOf? h = some i ↔ ∃ v, r.vars[i]? = some v ∧ v.storage = h
  changed : ∀ v ∈ r.vars, ∀ c, v.change = some c →
    v.solverDimension = c.solverDimension ∧ c.userDimension = v.userDimension
  unchanged : ∀ v ∈ r.vars, v.change = none → v.solverDimension = v.userDimension
  free : Tiles 0 (r.vars.filter (!·.isConstant)) r.scalars
  constant : Tiles r.scalars (r.vars.filter (·.isConstant)) (r.scalars + r.constants)
  arity : ∀ b ∈ r.terms, b.positions.length = b.term.arity
  dimension : ∀ b ∈ r.terms, ∀ k i : Nat, b.positions[k]? = some i →
    ∃ v, r.vars[i]? = some v ∧ b.term.dimension k = .ok (v.userDimension : Int)

theorem Registry.WellFormed.consistent_layout {r : Registry α} (wf : r.WellFormed) :
    r.Consistent where
  distinct := wf.distinct
  directory := wf.indexOf?_eq_some
  changed v member c change := by
    obtain ⟨user, solver⟩ := (wf.vars v member).changed c change
    exact ⟨solver, user.symm⟩
  unchanged v member change := (wf.vars v member).unchanged change
  free := wf.tiles_free
  constant := wf.tiles_constant
  arity b member := (wf.terms b member).arity
  dimension b member _ _ found := (wf.terms b member).registered found

namespace Objective

variable [Scalar α] {f g : Objective α} {m : Memory α}

/-- The layout invariant, after any sequence of calls that succeed or fail. -/
theorem Reachable.consistent (reached : Reachable f) : f.Consistent :=
  reached.wellFormed.consistent_layout

def threeArrays : Memory Float where
  objects := [.array .double [2] 0 0, .array .double [1] 1 0, .array .double [1] 2 0]
  blocks := [[1, 0], [2], [3]]

def angleAndConstant : Objective Float :=
  let apply (f : Objective Float) (c : Mutation Float) := (c.edit.run threeArrays f).2
  [.addVariable ⟨1⟩ 1 none, .setConstant ⟨1⟩ true,
    .addVariable ⟨0⟩ 2 (some Sample.angleChange)].foldl apply (ofThreads 2)

theorem reachable_angleAndConstant : Reachable angleAndConstant :=
  .step (.step (.step (.new (show new? 2 = .ok (ofThreads 2) from rfl))
    (.mutate (c := .addVariable ⟨1⟩ 1 none) trivial threeArrays))
    (.mutate (c := .setConstant ⟨1⟩ true) trivial threeArrays))
    (.mutate (c := .addVariable ⟨0⟩ 2 (some Sample.angleChange)) Nat.one_pos threeArrays)

def angleAndTerms : Objective Float :=
  let apply (f : Objective Float) (c : Mutation Float) := (c.edit.run threeArrays f).2
  [.addTerm (.term (Sample.quadratic [0, 1])) [⟨0⟩],
    .addTerm (.term (Sample.pair [0])) [⟨2⟩, ⟨1⟩]].foldl apply angleAndConstant

theorem reachable_angleAndTerms : Reachable angleAndTerms :=
  .step (.step reachable_angleAndConstant
    (.mutate (c := .addTerm (.term (Sample.quadratic [0, 1])) [⟨0⟩]) trivial threeArrays))
    (.mutate (c := .addTerm (.term (Sample.pair [0])) [⟨2⟩, ⟨1⟩]) trivial threeArrays)

theorem angleAndTerms_consistent :
    angleAndTerms.vars.map Variable.globalIndex = [2, 0, 1] ∧
      angleAndTerms.terms.map Binding.positions = [[1], [2, 0]] ∧ angleAndTerms.Consistent :=
  ⟨rfl, rfl, Reachable.consistent reachable_angleAndTerms⟩

/-- A mutation that fails leaves all that defines the function as it was. -/
theorem Reachable.failed_mutation (reached : Reachable f) {c : Mutation α} {fault : Fault α}
    (failed : c.edit.run m f = (.error fault, g)) : g.toRegistry = f.toRegistry :=
  c.unchanged reached.wellFormed failed

def unfitTerm : Mutation Float := .addTerm (.term (Sample.pair [0])) [⟨2⟩, ⟨0⟩]

theorem unfitTerm_refused :
    (unfitTerm.edit.run threeArrays angleAndConstant).1 = .error (.argumentDimension 1 2 1) ∧
      (unfitTerm.edit.run threeArrays angleAndConstant).2.toRegistry =
        angleAndConstant.toRegistry := by
  have failed : unfitTerm.edit.run threeArrays angleAndConstant =
      (.error (.argumentDimension 1 2 1),
        (unfitTerm.edit.run threeArrays angleAndConstant).2) := Prod.ext rfl rfl
  exact ⟨rfl, Reachable.failed_mutation reachable_angleAndConstant failed⟩

end Objective

end Descent
