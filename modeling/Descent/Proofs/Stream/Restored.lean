import Mathlib
import Descent.Proofs.Evaluation.Likeness
import Descent.Proofs.Stream.Order
import Descent.Proofs.Stream.Refusals

namespace Descent

variable {α : Type}

structure Factory.Restores [Zero α] (factory : Factory α) (t t' : Term α) : Prop where
  name : '\n' ∉ (factory.nameOf t).toList
  payload : '\n' ∉ t.payload.toList
  create : factory.create (factory.nameOf t) t.payload = .ok t'
  equivalent : t.Equivalent t'

namespace Registry

variable {r s : Registry α} {factory : Factory α} {b c : Binding α}

def lines (r : Registry α) (factory : Factory α) (b : Binding α) : List String :=
  [factory.nameOf b.term, toString b.positions.length,
    spaced ((b.positions.map r.placeOf).map toString), b.term.payload]

theorem termLines_eq (whole : '\n' ∉ b.term.payload.toList) :
    r.termLines (some factory) b = .ok (r.lines factory b) := by
  have one : b.term.payload.toList.contains '\n' = false := by simpa using whole
  simp only [termLines, one, lines, List.map_map]
  rfl

structure Rebinds [Zero α] (r : Registry α) (factory : Factory α) (b c : Binding α) : Prop where
  term : factory.Restores b.term c.term
  positions : c.positions = b.positions.map r.placeOf

theorem Rebinds.fits [Zero α] (rebinds : r.Rebinds factory b c)
    (fits : b.Fits (r.vars.map Variable.userDimension)) (next : Nat) :
    c.Fits ((rehomed next r.ordered).map Variable.userDimension) where
  arity := by rw [rebinds.positions, List.length_map, fits.arity, rebinds.term.equivalent.arity]
  dimension k j found := by
    rw [rebinds.positions, List.getElem?_map, Option.map_eq_some_iff] at found
    obtain ⟨i, found, rfl⟩ := found
    obtain ⟨v, at_i, dimension⟩ := fits.registered found
    have bound : k < b.term.arity := by
      rw [← fits.arity]
      exact (List.getElem?_eq_some_iff.1 found).1
    refine ⟨v.userDimension, ?_, by rw [rebinds.term.equivalent.dimension k bound, dimension]⟩
    rw [map_rehomed fun _ _ => rfl, List.getElem?_map,
      getElem?_ordered (List.getElem?_eq_some_iff.1 at_i).1, at_i, Option.map_some]

theorem fits_rebinds [Zero α] (wf : r.WellFormed) {bindings : List (Binding α)}
    (rebinds : List.Forall₂ (r.Rebinds factory) r.terms bindings) :
    ∀ c ∈ bindings, c.Fits (r.ordered.map Variable.userDimension) := by
  intro c member
  obtain ⟨b, known, rebind⟩ := exists_of_mem_right rebinds member
  have fits := rebind.fits (wf.terms b known) 0
  rwa [map_rehomed fun _ _ => rfl] at fits

def restored (r : Registry α) (next : Nat) (bindings : List (Binding α)) (target : Registry α) :
    Registry α where
  constant := r.constant
  vars := rehomed next r.ordered
  terms := bindings
  directory := .ofHandles ((rehomed next r.ordered).map Variable.storage)
  scalars := r.scalars
  constants := r.constants
  threads := target.threads
  hessianEnabled := target.hessianEnabled

theorem wellFormed_restored [Zero α] (wf : r.WellFormed) {target : Registry α} (threads : 0 < target.threads)
    {bindings : List (Binding α)} (rebinds : List.Forall₂ (r.Rebinds factory) r.terms bindings)
    (next : Nat) : (r.restored next bindings target).WellFormed where
  canonical := by
    rw [canonical_eq, restored]
    simp only [extent_rehomed, extent_ordered, ← wf.scalars, ← wf.constants, placed_rehomed,
      placed_ordered wf]
  distinct := nodup_rehomed next r.ordered
  vars := fits_rehomed fun v member => wf.vars v (perm_ordered.mem_iff.1 member)
  terms c member := by
    rw [restored, map_rehomed fun _ _ => rfl]
    exact fits_rebinds wf rebinds c member
  threads := threads

section

open Text

variable [Zero α]

theorem statesTerm_lines (rebinds : r.Rebinds factory b c) {dimensions : List Nat}
    (fits : c.Fits dimensions) (others : List String) (rest : List Char) :
    StatesTerm factory dimensions.length (lined (r.lines factory b ++ others) rest) c
      (lined others rest) := by
  have known : ∀ i ∈ c.positions, i < dimensions.length := by
    intro i member
    obtain ⟨k, found⟩ := List.getElem?_of_mem member
    obtain ⟨d, at_i, -⟩ := fits.dimension k i found
    exact (List.getElem?_eq_some_iff.1 at_i).1
  have number : '\n' ∉ (toString b.positions.length).toList := (isWord_toString _).whole
  have lines := starts_lined (r.lines factory b) (List.forall_mem_cons.2 ⟨rebinds.term.name,
    List.forall_mem_cons.2 ⟨number, List.forall_mem_cons.2 ⟨not_mem_numerals _,
      List.forall_mem_singleton.2 rebinds.term.payload⟩⟩⟩) others rest
  have length : b.positions.length = c.positions.length := by rw [rebinds.positions, List.length_map]
  rw [Registry.lines, ← rebinds.positions] at lines ⊢
  exact ⟨lines, by rw [natural?_toString, length], integers?_spaced _, known, rebinds.term.create⟩

theorem fittingTerms_lines {bs cs : List (Binding α)} (rebinds : List.Forall₂ (r.Rebinds factory) bs cs)
    {dimensions : List Nat} (fits : ∀ c ∈ cs, c.Fits dimensions) (rest : List Char) :
    FittingTerms factory dimensions (lined (bs.flatMap (r.lines factory)) rest) cs rest := by
  induction rebinds with
  | nil => exact ⟨.nil _, nofun⟩
  | cons here _ ih =>
      obtain ⟨fit, fits⟩ := List.forall_mem_cons.1 fits
      rw [List.flatMap_cons]
      exact (ih fits).cons (statesTerm_lines here fit _ rest) fit

end

end Registry

/-! ## The whole text -/

namespace Registry

variable [Numeral α] {r : Registry α} {factory : Factory α} {m : Memory α}

def contents (r : Registry α) (m : Memory α) : List α := r.ordered.flatMap fun v => m.load v.storage

omit [Numeral α] in
theorem forall_mem_contents {P : α → Prop} (each : ∀ v ∈ r.vars, ∀ a ∈ m.load v.storage, P a) :
    ∀ a ∈ r.contents m, P a := by
  intro a member
  obtain ⟨v, known, here⟩ := List.mem_flatMap.1 member
  exact each v (perm_ordered.mem_iff.1 known) a here

omit [Numeral α] in
theorem sum_dimensions (wf : r.WellFormed) (plain : ∀ v ∈ r.vars, v.change = none) :
    (r.ordered.map Variable.userDimension).sum = r.scalars + r.constants := by
  have same : r.ordered.map Variable.userDimension = r.ordered.map Variable.solverDimension :=
    List.map_congr_left fun v member =>
      have known := perm_ordered.mem_iff.1 member
      ((wf.vars v known).unchanged (plain v known)).symm
  rw [same, wf.scalars, wf.constants, ordered_eq, List.map_append, List.sum_append, extent, extent]
  congr 3 <;> simp

theorem headLines_eq (wf : r.WellFormed) (plain : ∀ v ∈ r.vars, v.change = none) :
    r.headLines m = [streamMagic, toString streamVersion, typeFormat, toString r.terms.length,
      toString r.ordered.length, toString (r.ordered.map Variable.userDimension).sum,
      Numeral.write r.constant, spaced ((r.ordered.map Variable.userDimension).map toString),
      spaced ((r.ordered.map fun v => if v.isConstant then 1 else 0).map toString),
      spaced ((r.contents m).map Numeral.write)] := by
  have flags : (r.ordered.map fun v => if v.isConstant then "1" else "0") =
      (r.ordered.map fun v => if v.isConstant then 1 else 0).map toString := by
    rw [List.map_map]
    congr 1
    funext v
    cases constant : v.isConstant <;> simp only [Function.comp_apply, constant] <;> rfl
  rw [sum_dimensions wf plain, perm_ordered.length_eq, ← flags, contents, List.map_flatMap, List.map_map]
  rfl

omit [Numeral α] in
theorem any_change_eq_false (plain : ∀ v ∈ r.vars, v.change = none) : (r.vars.any (·.change.isSome)) = false := by
  rw [List.any_eq_false]
  intro v member
  simp [plain v member]

theorem write_eq (plain : ∀ v ∈ r.vars, v.change = none)
    (whole : ∀ b ∈ r.terms, '\n' ∉ b.term.payload.toList) :
    r.write m (some factory) = .ok (unlines (r.headLines m ++ r.terms.flatMap (r.lines factory))) := by
  have terms : r.terms.mapM (r.termLines (some factory)) = .ok (r.terms.map (r.lines factory)) :=
    mapM_eq_ok fun b member => termLines_eq (whole b member)
  simp only [write, any_change_eq_false plain, terms, List.flatMap]
  rfl

/-! ## The head -/

section

omit [Numeral α]

variable (size : (r.contents m).length = (r.ordered.map Variable.userDimension).sum)

def head (r : Registry α) (m : Memory α)
    (size : (r.contents m).length = (r.ordered.map Variable.userDimension).sum) : Head α where
  terms := r.terms.length
  constant := r.constant
  dimensions := (r.ordered.map Variable.userDimension).map Nat.cast
  flags := (r.ordered.map fun v => if v.isConstant then 1 else 0).map Nat.cast
  values := r.contents m
  flags_length := by simp
  sum := by
    rw [size]
    exact (Nat.cast_list_sum _).symm

theorem toNat_dimensions_head :
    (r.head m size).dimensions.map Int.toNat = r.ordered.map Variable.userDimension := by
  rw [head, List.map_map]
  exact List.map_id _

theorem vars_head : (r.head m size).vars = r.ordered.map fun v =>
    ⟨⟨0⟩, v.userDimension, v.userDimension, 0, v.isConstant, none⟩ := by
  have zipped : (r.head m size).dimensions.zip (r.head m size).flags = r.ordered.map fun v =>
      ((v.userDimension : Int), ((if v.isConstant then 1 else 0 : Nat) : Int)) := by
    simp only [head, List.map_map, List.zip_map']
    rfl
  rw [Head.vars, zipped, List.map_map, List.map_inj_left]
  intro v _
  cases constant : v.isConstant <;> simp [constant]

theorem positive_head (fits : ∀ v ∈ r.ordered, v.Fits) : ∀ d ∈ (r.head m size).dimensions, 0 < d := by
  refine List.forall_mem_map.2 (List.forall_mem_map.2 fun v member => ?_)
  have positive := (fits v member).user_pos
  omega

end

omit [Numeral α] in
theorem length_contents (lengths : ∀ v ∈ r.vars, (m.load v.storage).length = v.userDimension) :
    (r.contents m).length = (r.ordered.map Variable.userDimension).sum := by
  rw [contents, List.length_flatMap]
  congr 1
  exact List.map_congr_left fun v member => lengths v (perm_ordered.mem_iff.1 member)

theorem starts_headLines [Numeral.Words α] (wf : r.WellFormed) (plain : ∀ v ∈ r.vars, v.change = none)
    (others : List String) (rest : List Char) :
    Text.Starts (Text.lined (r.headLines m ++ others) rest) (r.headLines m) (Text.lined others rest) := by
  have number (n : Nat) : '\n' ∉ (toString n).toList := (Text.isWord_toString n).whole
  have magic : '\n' ∉ streamMagic.toList := by decide
  have format : '\n' ∉ typeFormat.toList := by decide
  refine Text.starts_lined _ ?_ others rest
  rw [headLines_eq wf plain]
  simp only [List.forall_mem_cons, List.not_mem_nil, false_implies, implies_true, and_true]
  exact ⟨magic, number _, format, number _, number _, number _, (Numeral.Words.isWord_write _).whole,
    Text.not_mem_numerals _, Text.not_mem_numerals _, Text.not_mem_numbers _⟩

theorem opens_head [Numeral.Words α] (wf : r.WellFormed) (plain : ∀ v ∈ r.vars, v.change = none)
    (size : (r.contents m).length = (r.ordered.map Variable.userDimension).sum)
    (constant : Numeral.ReadBack r.constant) (back : ∀ a ∈ r.contents m, Numeral.ReadBack a)
    (others : List String) (rest : List Char) :
    (r.head m size).Opens (Text.lined (r.headLines m ++ others) rest) (Text.lined others rest) := by
  have lines := starts_headLines (m := m) wf plain others rest
  rw [headLines_eq wf plain] at lines ⊢
  refine ⟨lines, Text.natural?_toString _, Text.natural?_toString _, ?count, ?scalars, constant,
    Text.integers?_spaced _, Text.integers?_spaced _, Text.numbers?_spaced back⟩
  case count => rw [Text.natural?_toString, head, List.length_map, List.length_map]
  case scalars => rw [Text.natural?_toString, ← size, head]

omit [Numeral α] in
theorem registry_head [Zero α] (wf : r.WellFormed) (plain : ∀ v ∈ r.vars, v.change = none)
    (size : (r.contents m).length = (r.ordered.map Variable.userDimension).sum)
    {bindings : List (Binding α)} (rebinds : List.Forall₂ (r.Rebinds factory) r.terms bindings)
    {target : Registry α} (threads : 0 < target.threads) (next : Nat) :
    (r.head m size).registry next bindings target.threads target.hessianEnabled =
      r.restored next bindings target := by
  have wf' := wellFormed_restored wf threads rebinds next
  have fits : ∀ c ∈ bindings, c.Fits ((r.head m size).dimensions.map Int.toNat) := by
    rw [toNat_dimensions_head]
    exact fits_rebinds wf rebinds
  have positive := positive_head size fun v member => wf.vars v (perm_ordered.mem_iff.1 member)
  refine (Reading.wellFormed_registry _ positive threads fits next).eq_of_outline_eq wf' ?_
  have vars : (rehomed next (r.head m size).vars).map Variable.unplaced =
      (rehomed next r.ordered).map Variable.unplaced := by
    refine unplaced_rehomed ?_ next
    rw [vars_head, List.map_map, List.map_inj_left]
    intro v member
    have known := perm_ordered.mem_iff.1 member
    have size := (wf.vars v known).unchanged (plain v known)
    simp [Variable.unplaced, size, plain v known]
  rw [Head.registry, outline_canonical, Head.draft, outline, vars]
  rfl

theorem states_lines [Numeral.Words α] [Zero α] (wf : r.WellFormed) (plain : ∀ v ∈ r.vars, v.change = none)
    (size : (r.contents m).length = (r.ordered.map Variable.userDimension).sum)
    (constant : Numeral.ReadBack r.constant) (back : ∀ a ∈ r.contents m, Numeral.ReadBack a)
    {bindings : List (Binding α)} (rebinds : List.Forall₂ (r.Rebinds factory) r.terms bindings)
    (rest : List Char) :
    factory.States (Text.lined (r.headLines m ++ r.terms.flatMap (r.lines factory)) rest) (r.head m size)
      bindings rest where
  positive := positive_head size fun v member => wf.vars v (perm_ordered.mem_iff.1 member)
  lines := by
    refine ⟨_, opens_head wf plain size constant back _ rest, ?_⟩
    rw [toNat_dimensions_head]
    exact fittingTerms_lines rebinds (fits_rebinds wf rebinds) rest
  length := rebinds.length_eq.symm

end Registry

namespace Reading

open Objective Registry Text

variable [Numeral α] [Numeral.Words α] [Scalar α] {m : Memory α} (m₀ : Memory α) {g : Objective α}
  {r : Registry α} {factory : Factory α} (rest : List Char)

theorem run_objective (wf : r.WellFormed) (plain : ∀ v ∈ r.vars, v.change = none)
    (size : (r.contents m).length = (r.ordered.map Variable.userDimension).sum)
    (constant : Numeral.ReadBack r.constant) (back : ∀ a ∈ r.contents m, Numeral.ReadBack a)
    {bindings : List (Binding α)} (rebinds : List.Forall₂ (r.Rebinds factory) r.terms bindings)
    (threads : 0 < g.threads) :
    ∃ g', run (objective factory) ⟨lined (r.headLines m ++ r.terms.flatMap (r.lines factory)) rest, m₀, g⟩ =
        (.ok (⟨m₀.objects.length⟩,
            (rehomed (m₀.objects.length + 1) r.ordered).map Variable.storage),
          ⟨rest, m₀.taken (r.contents m) (r.ordered.map Variable.userDimension), g'⟩) ∧
      g'.toRegistry = r.restored (m₀.objects.length + 1) bindings g.toRegistry := by
  have read := run_objective_states (m := m₀) threads
    (states_lines wf plain size constant back rebinds rest)
  rw [registry_head wf plain size rebinds threads, toNat_dimensions_head, storages_rehomed, vars_head,
    List.length_map, ← storages_rehomed] at read
  exact ⟨_, read, rfl⟩

end Reading

/-! ## Likeness -/

namespace Registry

variable [Scalar α] {r : Registry α} {factory : Factory α} {m : Memory α} (m₀ : Memory α)

omit [Scalar α] in
theorem matches_taken (lengths : ∀ v ∈ r.vars, (m.load v.storage).length = v.userDimension) :
    List.Forall₂ (Variable.Matches m (m₀.taken (r.contents m) (r.ordered.map Variable.userDimension)))
      r.ordered (rehomed (m₀.objects.length + 1) r.ordered) := by
  have found : (m₀.taken (r.contents m) (r.ordered.map Variable.userDimension)).blocks[m₀.blocks.length]? =
      some (r.contents m) := by
    simp [Memory.taken]
  have objects : (m₀.taken (r.contents m) (r.ordered.map Variable.userDimension)).objects =
      (m₀.objects ++ [.array .double [(r.contents m).length] m₀.blocks.length 0]) ++
        Memory.parts m₀.blocks.length 0 (r.ordered.map Variable.userDimension) := by
    simp [Memory.taken]
  have all := Memory.matches_parts found
    (fun v member => lengths v (perm_ordered.mem_iff.1 member)) objects rfl
  rwa [List.length_append, List.length_singleton] at all

omit [Scalar α] in
theorem matches_positions {s : Registry α} {m' : Memory α}
    (vars : List.Forall₂ (Variable.Matches m m') r.ordered s.vars) {positions : List Nat}
    (known : ∀ i ∈ positions, i < r.vars.length) :
    List.Forall₂ (Variable.Matches m m') (positions.filterMap (r.vars[·]?))
      ((positions.map r.placeOf).filterMap (s.vars[·]?)) := by
  induction positions with
  | nil => exact .nil
  | cons i rest ih =>
      obtain ⟨inside, known⟩ := List.forall_mem_cons.1 known
      have at_i := getElem?_ordered inside
      rw [List.getElem?_eq_getElem inside] at at_i
      obtain ⟨there, same⟩ := List.getElem?_eq_some_iff.1 at_i
      have there' : r.placeOf i < s.vars.length := vars.length_eq ▸ there
      have here := (List.forall₂_iff_get.1 vars).2 _ there there'
      rw [List.get_eq_getElem, List.get_eq_getElem, same] at here
      rw [List.map_cons, List.filterMap_cons_some (List.getElem?_eq_getElem inside),
        List.filterMap_cons_some (List.getElem?_eq_getElem there')]
      exact .cons here (ih known)

theorem Rebinds.matches_arguments {b c : Binding α} {s : Registry α} {m' : Memory α}
    (rebinds : r.Rebinds factory b c) (fits : b.Fits (r.vars.map Variable.userDimension))
    (vars : List.Forall₂ (Variable.Matches m m') r.ordered s.vars) :
    List.Forall₂ (Variable.Matches m m') (r.arguments b) (s.arguments c) := by
  rw [arguments, arguments, rebinds.positions]
  refine matches_positions vars fun i member => ?_
  obtain ⟨v, at_i⟩ := fits.exists_variable member
  exact (List.getElem?_eq_some_iff.1 at_i).1

theorem resembles_restored (wf : r.WellFormed)
    (lengths : ∀ v ∈ r.vars, (m.load v.storage).length = v.userDimension)
    {bindings : List (Binding α)} (rebinds : List.Forall₂ (r.Rebinds factory) r.terms bindings)
    (target : Registry α) :
    r.Resembles (r.restored (m₀.objects.length + 1) bindings target) m
      (m₀.taken (r.contents m) (r.ordered.map Variable.userDimension)) where
  constant := rfl
  scalars := rfl
  constants := rfl
  vars := by
    refine ⟨r.ordered, perm_ordered, ?_, matches_taken m₀ lengths⟩
    refine (pairwise_ordered wf).imp_of_mem fun {v w} member _ before => ?_
    have positive := (wf.vars v (perm_ordered.mem_iff.1 member)).solver_pos
    omega
  terms := by
    refine List.forall₂_iff_get.2 ⟨rebinds.length_eq, fun k inside inside' => ?_⟩
    have here := (List.forall₂_iff_get.1 rebinds).2 k inside inside'
    have fits := wf.terms _ (List.get_mem r.terms ⟨k, inside⟩)
    exact ⟨here.term.equivalent, here.matches_arguments fits (matches_taken m₀ lengths)⟩

end Registry

end Descent
