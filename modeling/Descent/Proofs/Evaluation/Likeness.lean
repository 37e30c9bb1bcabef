import Mathlib
import Descent.Proofs.Evaluation.Caches

namespace Descent

variable {α : Type}

/-- The other term can take the place of this one: it gives the same wherever it is evaluated. -/
structure Term.Equivalent [Zero α] (t t' : Term α) : Prop where
  arity : t'.arity = t.arity
  dimension : ∀ k < t.arity, t'.dimension k = t.dimension k
  evaluate : ∀ request x, (t'.evaluate request x).run .zero = (t.evaluate request x).run .zero

theorem Term.Equivalent.refl [Zero α] (t : Term α) : t.Equivalent t :=
  ⟨rfl, fun _ _ => rfl, fun _ _ => rfl⟩

namespace Variable

structure Matches (m m' : Memory α) (v w : Variable α) : Prop where
  same : w = { v with storage := w.storage }
  size : (m.load v.storage).length = v.userDimension
  contents : m'.load w.storage = m.load v.storage

def bare (v : Variable α) : Variable α := { v with storage := ⟨0⟩ }

theorem Matches.bare_eq {m m' : Memory α} {v w : Variable α} (like : Matches m m' v w) :
    w.bare = v.bare := by
  rw [like.same]
  rfl

end Variable

namespace Registry

/-- The second registry has the variables of the first one in the order of their scalars, and equivalent
terms over them in the same order. -/
structure Resembles [Zero α] (r s : Registry α) (m m' : Memory α) : Prop where
  constant : s.constant = r.constant
  scalars : s.scalars = r.scalars
  constants : s.constants = r.constants
  vars : ∃ order : List (Variable α), order.Perm r.vars ∧
    order.Pairwise (fun v w => v.globalIndex < w.globalIndex) ∧
    List.Forall₂ (Variable.Matches m m') order s.vars
  terms : List.Forall₂ (fun b c => b.term.Equivalent c.term ∧
    List.Forall₂ (Variable.Matches m m') (r.arguments b) (s.arguments c)) r.terms s.terms

section

variable [Scalar α] {r : Registry α} (x : List α) (b : Binding α)

theorem addGradients_bare (parts : List (Variable α × List α)) (gradient : List α) :
    addGradients x (parts.map (Prod.map Variable.bare id)) gradient = addGradients x parts gradient := by
  induction parts generalizing gradient with
  | nil => rfl
  | cons part rest ih =>
      obtain ⟨v, part⟩ := part
      have carried : solverGradient x v.bare part = solverGradient x v part := rfl
      have kind : v.bare.isConstant = v.isConstant := rfl
      have index : v.bare.globalIndex = v.globalIndex := rfl
      simp only [List.map_cons, Prod.map_apply, id_eq, addGradients, carried, kind, index, ih]

omit [Scalar α] in
theorem reported_bare (filled : Derivatives α) :
    (r.reported b filled).map (Prod.map Variable.bare id) = ((r.arguments b).map Variable.bare).mapIdx
      fun k v => (v, (List.range v.userDimension).map (filled.gradient k)) := by
  apply List.ext_getElem?
  intro k
  simp only [reported, List.getElem?_map, List.getElem?_mapIdx, Option.map_map]
  rfl

omit [Scalar α] in
theorem freeArguments_bare : (r.freeArguments b).map (Prod.map id Variable.bare) =
    ((((r.arguments b).map Variable.bare).zipIdx.filter fun (v, _) => !v.isConstant).map
      fun (v, k) => (k, v)) := by
  rw [freeArguments, List.zipIdx_map, List.filter_map, List.map_map, List.map_map]
  rfl

omit [Scalar α] in
theorem freePairs_bare : (r.freePairs b).map
      (Prod.map (Prod.map id Variable.bare) (Prod.map id Variable.bare)) =
    ((r.freeArguments b).map (Prod.map id Variable.bare)).flatMap fun a =>
      ((r.freeArguments b).map (Prod.map id Variable.bare)).map fun a' => (a, a') := by
  simp only [freePairs, List.map_flatMap, List.flatMap_map, List.map_map]
  rfl

end

structure Alike [Scalar α] (r s : Registry α) (locals locals' : List (List α)) (b c : Binding α) :
    Prop where
  jet : ∀ request, jet request locals' c = jet request locals b
  arguments : (s.arguments c).map Variable.bare = (r.arguments b).map Variable.bare

variable [Scalar α] {r s : Registry α} {locals locals' : List (List α)} {b c : Binding α}
  {bs cs : List (Binding α)} {x : List α} {request : Request}

theorem Alike.termSum_eq (alike : Alike r s locals locals' b c) (gradient : List α) :
    s.termSum request locals' x c gradient = r.termSum request locals x b gradient := by
  have parts (filled : Derivatives α) (gradient : List α) :
      addGradients x (s.reported c filled) gradient = addGradients x (r.reported b filled) gradient := by
    rw [← addGradients_bare, reported_bare, alike.arguments, ← reported_bare, addGradients_bare]
  simp only [termSum, alike.jet, parts]

theorem Alike.freePairs_eq (alike : Alike r s locals locals' b c) :
    (s.freePairs c).map (Prod.map (Prod.map id Variable.bare) (Prod.map id Variable.bare)) =
      (r.freePairs b).map (Prod.map (Prod.map id Variable.bare) (Prod.map id Variable.bare)) := by
  rw [freePairs_bare, freePairs_bare, freeArguments_bare, freeArguments_bare, alike.arguments]

theorem Alike.flatMap_freePairs (alike : Alike r s locals locals' b c) {β : Type}
    {f : (Nat × Variable α) × (Nat × Variable α) → List β}
    (blind : ∀ p, f (Prod.map (Prod.map id Variable.bare) (Prod.map id Variable.bare) p) = f p) :
    (s.freePairs c).flatMap f = (r.freePairs b).flatMap f := by
  have through (l : List ((Nat × Variable α) × (Nat × Variable α))) : l.flatMap f =
      (l.map (Prod.map (Prod.map id Variable.bare) (Prod.map id Variable.bare))).flatMap f := by
    rw [List.flatMap_map]
    congr 1
    funext p
    exact (blind p).symm
  rw [through, alike.freePairs_eq, ← through]

theorem foldl_addBlock_bare {n : Nat} (blocks : TermBlocks α)
    (l : List ((Nat × Variable α) × (Nat × Variable α))) (h : Dense α n n) :
    l.foldl (fun h ((k, v), (l, w)) => h.addBlock v.globalIndex w.globalIndex (block blocks k l)) h =
      (l.map (Prod.map (Prod.map id Variable.bare) (Prod.map id Variable.bare))).foldl
        (fun h ((k, v), (l, w)) => h.addBlock v.globalIndex w.globalIndex (block blocks k l)) h := by
  rw [List.foldl_map]
  rfl

theorem Alike.addBlocks_eq (alike : Alike r s locals locals' b c) {n : Nat} (h : Dense α n n)
    (blocks : TermBlocks α) : s.addBlocks h c blocks = r.addBlocks h b blocks := by
  rw [addBlocks, foldl_addBlock_bare, alike.freePairs_eq, ← foldl_addBlock_bare, ← addBlocks]

theorem Alike.reportedBlocks_eq (alike : Alike r s locals locals' b c) (filled : Derivatives α) :
    s.reportedBlocks c filled = r.reportedBlocks b filled := by
  have through (l : List (Variable α)) :
      l.map Variable.userDimension = (l.map Variable.bare).map Variable.userDimension := by
    rw [List.map_map]
    rfl
  rw [reportedBlocks, through, alike.arguments, ← through, ← reportedBlocks]

theorem chunkTotal_alike (alike : List.Forall₂ (Alike r s locals locals') bs cs) :
    chunkTotal locals' cs = chunkTotal locals bs := by
  rw [chunkTotal, chunkTotal]
  generalize (0 : α) = start
  induction alike generalizing start with
  | nil => rfl
  | @cons b c bs cs here _ ih =>
      simp only [List.foldlM_cons, here.jet]
      cases (jet .value locals b).1 with
      | error fault => rfl
      | ok a => exact ih (start + a)

theorem chunkSum_alike (alike : List.Forall₂ (Alike r s locals locals') bs cs) (total : α)
    (gradient : List α) :
    s.chunkSum request locals' x cs total gradient = r.chunkSum request locals x bs total gradient := by
  induction alike generalizing total gradient with
  | nil => rfl
  | @cons b c bs cs here _ ih =>
      rw [chunkSum, chunkSum, here.termSum_eq]
      rcases r.termSum request locals x b gradient with ⟨fault | a, gradient'⟩
      · rfl
      · exact ih (total + a) gradient'

theorem workerSums_alike (alike : List.Forall₂ (Alike r s locals locals') r.terms s.terms)
    (threads : s.threads = r.threads) (scalars : s.scalars = r.scalars)
    (constants : s.constants = r.constants) :
    s.workerSums request locals' x = r.workerSums request locals x := by
  have chunks : s.chunks = r.chunks := by rw [chunks, chunks, threads, alike.length_eq]
  rw [workerSums, workerSums, chunks]
  congr 1
  funext chunk
  rw [workerSum, workerSum, scalars, constants]
  exact chunkSum_alike (List.forall₂_take _ (List.forall₂_drop _ alike)) 0 _

theorem termBlocks_alike (alike : List.Forall₂ (Alike r s locals locals') r.terms s.terms) :
    s.termBlocks locals' = r.termBlocks locals := by
  rw [termBlocks, termBlocks]
  generalize r.terms = bs at alike ⊢
  generalize s.terms = cs at alike ⊢
  induction alike with
  | nil => rfl
  | cons here _ ih => rw [List.map_cons, List.map_cons, ih, here.reportedBlocks_eq, here.jet]

theorem entryPositions_alike (alike : List.Forall₂ (Alike r s locals locals') r.terms s.terms) :
    s.entryPositions = r.entryPositions := by
  rw [entryPositions, entryPositions]
  generalize r.terms = bs at alike ⊢
  generalize s.terms = cs at alike ⊢
  induction alike with
  | nil => rfl
  | cons here _ ih =>
      rw [List.flatMap_cons, List.flatMap_cons, ih, here.flatMap_freePairs]
      exact fun _ => rfl

theorem Alike.flatMap_block (alike : Alike r s locals locals' b c) (blocks : TermBlocks α) :
    (s.freePairs c).flatMap (fun ((k, _), (l, _)) => (block blocks k l).flatten) =
      (r.freePairs b).flatMap fun ((k, _), (l, _)) => (block blocks k l).flatten :=
  alike.flatMap_freePairs fun _ => rfl

theorem entryValues_alike (alike : List.Forall₂ (Alike r s locals locals') r.terms s.terms)
    (blocks : List (TermBlocks α)) : s.entryValues blocks = r.entryValues blocks := by
  rw [entryValues, entryValues]
  generalize r.terms = bs at alike ⊢
  generalize s.terms = cs at alike ⊢
  induction alike generalizing blocks with
  | nil => rfl
  | cons here _ ih =>
      cases blocks with
      | nil => rfl
      | cons first blocks =>
          simp only [List.zip_cons_cons, List.flatMap_cons, here.flatMap_block, ih]

theorem foldl_addBlocks_alike (alike : List.Forall₂ (Alike r s locals locals') bs cs) {n : Nat}
    (blocks : List (TermBlocks α)) (h : Dense α n n) :
    (cs.zip blocks).foldl (fun h (c, blocks) => s.addBlocks h c blocks) h =
      (bs.zip blocks).foldl (fun h (b, blocks) => r.addBlocks h b blocks) h := by
  induction alike generalizing blocks h with
  | nil => rfl
  | cons here _ ih =>
      cases blocks with
      | nil => rfl
      | cons first blocks =>
          simp only [List.zip_cons_cons, List.foldl_cons, here.addBlocks_eq, ih]

def sight (m : Memory α) (x : Option (List α)) (v : Variable α) : List α :=
  match x with
  | none => m.load v.storage
  | some x => if v.isConstant then m.load v.storage else (x.drop v.globalIndex).take v.userDimension

variable {m m' : Memory α}

omit [Scalar α] in
theorem pointLocals_eq_sight (wf : r.WellFormed) (plain : ∀ v ∈ r.vars, v.change = none)
    (lengths : ∀ v ∈ r.vars, (m.load v.storage).length = v.userDimension) {x : Option (List α)}
    (sizes : ∀ y, x = some y → y.length = r.scalars) :
    r.pointLocals m x = .ok (r.vars.map (sight m x)) := by
  have stored {v : Variable α} (member : v ∈ r.vars) :
      fit v.userDimension (m.load v.storage) = .ok (m.load v.storage) := by
    rw [← lengths v member]
    exact fit_self _
  cases x with
  | none => exact mapM_eq_ok fun v member => stored member
  | some y =>
      refine mapM_eq_ok fun v member => ?_
      cases constant : v.isConstant with
      | true =>
          simp only [localValue, sight, constant, ↓reduceIte]
          exact stored member
      | false =>
          have inside := wf.tiles_free.le_stop (List.mem_filter.2 ⟨member, by simp [constant]⟩)
          rw [(wf.vars v member).unchanged (plain v member), ← sizes y rfl] at inside
          have size : ((y.drop v.globalIndex).take v.userDimension).length = v.userDimension := by
            rw [List.length_take, List.length_drop]
            omega
          simp only [localValue, sight, constant, Bool.false_eq_true, ↓reduceIte, userPart,
            plain v member, ok_bind]
          have whole := fit_self ((y.drop v.globalIndex).take v.userDimension)
          rwa [size] at whole

omit [Scalar α] in
theorem sight_eq {v w : Variable α} (like : Variable.Matches m m' v w) (x : Option (List α)) :
    sight m' x w = sight m x v := by
  have contents := like.contents
  rw [like.same] at contents ⊢
  cases x with
  | none => exact contents
  | some y => simp only [sight, contents]

theorem jet_map (point : Variable α → List α) (b : Binding α) :
    jet request (r.vars.map point) b =
      (b.term.evaluate request ((r.arguments b).map point)).run .zero := by
  have arguments : seen (r.vars.map point) b.positions = (r.arguments b).map point := by
    simp [seen, arguments, List.map_filterMap]
  rw [jet, arguments]

omit [Scalar α] in
theorem map_matches {β : Type} {f f' : Variable α → β}
    (each : ∀ v w, Variable.Matches m m' v w → f' w = f v) {vs ws : List (Variable α)}
    (all : List.Forall₂ (Variable.Matches m m') vs ws) : ws.map f' = vs.map f := by
  induction all with
  | nil => rfl
  | cons here _ ih => rw [List.map_cons, List.map_cons, ih, each _ _ here]

theorem Resembles.alike (like : r.Resembles s m m') (x : Option (List α)) :
    List.Forall₂ (Alike r s (r.vars.map (sight m x)) (s.vars.map (sight m' x))) r.terms s.terms := by
  refine like.terms.imp fun b c ⟨equivalent, arguments⟩ => ⟨fun request => ?_, ?_⟩
  · rw [jet_map, jet_map, map_matches (fun _ _ here => sight_eq here x) arguments, equivalent.evaluate]
  · exact map_matches (fun _ _ here => here.bare_eq) arguments

section

variable (like : r.Resembles s m m') (wf : r.WellFormed) (wf' : s.WellFormed)
  (plain : ∀ v ∈ r.vars, v.change = none)

include like

theorem Resembles.lengths : ∀ v ∈ r.vars, (m.load v.storage).length = v.userDimension := by
  intro v member
  obtain ⟨order, perm, -, all⟩ := like.vars
  obtain ⟨k, inside, rfl⟩ := List.mem_iff_getElem.1 (perm.mem_iff.2 member)
  exact ((List.forall₂_iff_get.1 all).2 k inside (all.length_eq ▸ inside)).size

theorem Resembles.exists_match {w : Variable α} (member : w ∈ s.vars) :
    ∃ v ∈ r.vars, Variable.Matches m m' v w := by
  obtain ⟨order, perm, -, all⟩ := like.vars
  obtain ⟨k, inside, rfl⟩ := List.mem_iff_getElem.1 member
  have there : k < order.length := all.length_eq ▸ inside
  exact ⟨order[k], perm.mem_iff.1 (List.getElem_mem there), (List.forall₂_iff_get.1 all).2 k there inside⟩

theorem Resembles.unchanged (plain : ∀ v ∈ r.vars, v.change = none) : ∀ w ∈ s.vars, w.change = none := by
  intro w member
  obtain ⟨v, known, here⟩ := like.exists_match member
  rw [here.same]
  exact plain v known

include wf wf' plain

theorem Resembles.pointLocals_eq {x : Option (List α)} (sizes : ∀ y, x = some y → y.length = r.scalars) :
    r.pointLocals m x = .ok (r.vars.map (sight m x)) ∧
      s.pointLocals m' x = .ok (s.vars.map (sight m' x)) := by
  refine ⟨pointLocals_eq_sight wf plain like.lengths sizes,
    pointLocals_eq_sight wf' (like.unchanged plain) (fun w member => ?_) (like.scalars ▸ sizes)⟩
  obtain ⟨v, known, here⟩ := like.exists_match member
  rw [here.contents, here.size, here.same]

theorem Resembles.checkPoint_eq (x : List α) : s.checkPoint x = r.checkPoint x ∧
    (r.checkPoint x = .error (.pointSize x.length r.scalars) ∨ r.checkPoint x = .ok () ∧
      r.pointLocals m (some x) = .ok (r.vars.map (sight m (some x))) ∧
      s.pointLocals m' (some x) = .ok (s.vars.map (sight m' (some x)))) := by
  refine ⟨by rw [checkPoint, checkPoint, like.scalars], ?_⟩
  by_cases size : x.length = r.scalars
  · refine .inr ⟨by simp [checkPoint, size], ?_⟩
    exact like.pointLocals_eq wf wf' plain fun y same => by cases same; exact size
  · exact .inl (by simp [checkPoint, size])

omit wf wf' plain in
theorem Resembles.totalValue_eq : s.totalValue = r.totalValue := by
  funext values
  rw [totalValue, totalValue, like.constant]

theorem Resembles.valueMeaning_eq (threads : s.threads = r.threads) (x : Option (List α)) :
    s.valueMeaning m' x = r.valueMeaning m x := by
  have chunks : s.chunks = r.chunks := by
    rw [Registry.chunks, Registry.chunks, threads, like.terms.length_eq]
  have slices (chunk : Nat × Nat) : chunkTotal (s.vars.map (sight m' x)) (slice s.terms chunk) =
      chunkTotal (r.vars.map (sight m x)) (slice r.terms chunk) :=
    chunkTotal_alike (List.forall₂_take _ (List.forall₂_drop _ (like.alike x)))
  cases x with
  | none =>
      obtain ⟨here, there⟩ := like.pointLocals_eq wf wf' plain (x := none) nofun
      simp only [valueMeaning, here, there, ok_bind, chunks, like.totalValue_eq, slices]
  | some y =>
      obtain ⟨checked, wrong | ⟨right, here, there⟩⟩ := like.checkPoint_eq wf wf' plain y
      · simp only [valueMeaning, checked, wrong]
        rfl
      · simp only [valueMeaning, checked, right, here, there, ok_bind, chunks, like.totalValue_eq, slices]

theorem Resembles.gradientMeaning_eq (threads : s.threads = r.threads) (x : List α) :
    ∃ meaning : (n : Nat) → Except (Fault α) (α × Vector α n),
      r.gradientMeaning m x = meaning r.scalars ∧ s.gradientMeaning m' x = meaning s.scalars := by
  have sums : s.workerSums .gradient (s.vars.map (sight m' (some x))) x =
      r.workerSums .gradient (r.vars.map (sight m (some x))) x :=
    workerSums_alike (like.alike (some x)) threads like.scalars like.constants
  obtain ⟨checked, wrong | ⟨right, here, there⟩⟩ := like.checkPoint_eq wf wf' plain x
  · refine ⟨fun n => .error (.pointSize x.length r.scalars), ?_, ?_⟩
    · simp only [gradientMeaning, wrong]
      rfl
    · simp only [gradientMeaning, checked, wrong]
      rfl
  · refine ⟨fun n => do
      let sums := r.workerSums .gradient (r.vars.map (sight m (some x))) x
      let value ← r.totalValue <$> (sums.map (·.1)).mapM id
      return (value, Vector.ofFn fun i =>
        (sums.map (·.2)).foldl (fun sum gradient => sum + gradient.getD i.val 0) 0), ?_, ?_⟩
    · simp only [gradientMeaning, right, here, ok_bind]
      rfl
    · simp only [gradientMeaning, checked, right, there, ok_bind, sums, like.totalValue_eq]
      rfl

omit wf wf' in
theorem Resembles.checkHessian_eq (enabled : s.hessianEnabled = r.hessianEnabled) :
    s.checkHessian = r.checkHessian := by
  have unchanged (t : Registry α) (plain : ∀ v ∈ t.vars, v.change = none) :
      (t.vars.any fun v => !v.isConstant && v.change.isSome) = false := by
    rw [List.any_eq_false]
    intro v member
    simp [plain v member]
  rw [checkHessian, checkHessian, unchanged r plain, unchanged s (like.unchanged plain), enabled]

theorem Resembles.hessianMeaning_eq (threads : s.threads = r.threads)
    (enabled : s.hessianEnabled = r.hessianEnabled) (x : List α) (sparse : Bool) :
    ∃ meaning : (n : Nat) → Except (Fault α) (α × Vector α n × Hessian α n),
      r.hessianMeaning m x sparse = meaning r.scalars ∧
        s.hessianMeaning m' x sparse = meaning s.scalars := by
  have able := like.checkHessian_eq plain enabled
  have alike := like.alike (some x)
  have sums : s.workerSums .hessian (s.vars.map (sight m' (some x))) x =
      r.workerSums .hessian (r.vars.map (sight m (some x))) x :=
    workerSums_alike alike threads like.scalars like.constants
  obtain ⟨checked, wrong | ⟨right, here, there⟩⟩ := like.checkPoint_eq wf wf' plain x
  · refine ⟨fun n => do
      r.checkHessian
      throw (.pointSize x.length r.scalars), ?_, ?_⟩
    · simp only [hessianMeaning, wrong]
      rfl
    · simp only [hessianMeaning, able, checked, wrong]
      rfl
  · refine ⟨fun n => do
      r.checkHessian
      let sums := r.workerSums .hessian (r.vars.map (sight m (some x))) x
      let blocks := r.termBlocks (r.vars.map (sight m (some x)))
      let value ← r.totalValue <$> (sums.map (·.1)).mapM id
      let matrix ← if sparse then .sparse <$> sparseMatrix n r.entryPositions (r.entryValues blocks)
        else pure (.dense ((r.terms.zip blocks).foldl (fun h (b, blocks) => r.addBlocks h b blocks) .zero))
      return (value, Vector.ofFn fun i =>
        (sums.map (·.2)).foldl (fun sum gradient => sum + gradient.getD i.val 0) 0, matrix), ?_, ?_⟩
    · simp only [hessianMeaning, right, here, ok_bind]
      rfl
    · simp only [hessianMeaning, able, checked, right, there, ok_bind, sums, like.totalValue_eq,
        termBlocks_alike alike, entryPositions_alike alike, entryValues_alike alike, denseHessian,
        foldl_addBlocks_alike alike]
      rfl

end

end Registry

def Answer.cast {n k : Nat} (same : n = k) (answer : Answer α n) : Answer α k := same ▸ answer

theorem Answer.cast_map {n k : Nat} (same : n = k) {β : Nat → Type} (wrap : (n : Nat) → β n → Answer α n)
    (meaning : (n : Nat) → Except (Fault α) (β n)) :
    wrap k <$> meaning k = cast same <$> (wrap n <$> meaning n) := by
  subst same
  cases meaning n <;> rfl

namespace Objective

variable [Scalar α]

structure SameAnswers (f g : Objective α) (m m' : Memory α) : Prop where
  scalars : f.scalars = g.scalars
  value : ∀ x, (g.ask m' (.value x)).1 = Answer.cast scalars <$> (f.ask m (.value x)).1
  gradient : ∀ x, (g.ask m' (.gradient x)).1 = Answer.cast scalars <$> (f.ask m (.gradient x)).1
  hessian : g.hessianEnabled = f.hessianEnabled → ∀ x sparse,
    (g.ask m' (.hessian x sparse)).1 = Answer.cast scalars <$> (f.ask m (.hessian x sparse)).1

theorem Reachable.sameAnswers {f g : Objective α} {m m' : Memory α} (reached : Reachable f)
    (reached' : Reachable g) (like : f.Resembles g.toRegistry m m') (threads : g.threads = f.threads)
    (plain : ∀ v ∈ f.vars, v.change = none) : f.SameAnswers g m m' where
  scalars := like.scalars.symm
  value x := by
    rw [reached.ask_eq, reached'.ask_eq, Query.meaning, Query.meaning,
      like.valueMeaning_eq reached.wellFormed reached'.wellFormed plain threads]
    exact Answer.cast_map (β := fun _ => α) like.scalars.symm (fun _ => .number) fun _ => f.valueMeaning m x
  gradient x := by
    obtain ⟨meaning, here, there⟩ :=
      like.gradientMeaning_eq reached.wellFormed reached'.wellFormed plain threads x
    rw [reached.ask_eq, reached'.ask_eq, Query.meaning, Query.meaning, here, there]
    exact Answer.cast_map like.scalars.symm (fun _ b => .gradient b.1 b.2) meaning
  hessian enabled x sparse := by
    obtain ⟨meaning, here, there⟩ :=
      like.hessianMeaning_eq reached.wellFormed reached'.wellFormed plain threads enabled x sparse
    rw [reached.ask_eq, reached'.ask_eq, Query.meaning, Query.meaning, here, there]
    exact Answer.cast_map like.scalars.symm (fun _ b => .hessian b.1 b.2.1 b.2.2) meaning

end Objective

end Descent
