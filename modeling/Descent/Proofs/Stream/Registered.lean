import Mathlib
import Descent.Proofs.Stream.Statements

namespace Descent

variable {α : Type}

inductive Term.Misfits (t : Term α) (dimensions : List Nat) :
    (argument : Nat) → (positions : List Nat) → Fault α → Prop
  | undeclared {k : Nat} {fault : Fault α} (failed : t.dimension k = .error fault) (i : Nat)
      (rest : List Nat) : Misfits t dimensions k (i :: rest) fault
  | differs {k i d : Nat} {declared : Int} (registered : dimensions[i]? = some d)
      (declares : t.dimension k = .ok declared) (other : (d : Int) ≠ declared) (rest : List Nat) :
      Misfits t dimensions k (i :: rest) (.argumentDimension k d declared)
  | later {k i d : Nat} {rest : List Nat} {fault : Fault α} (registered : dimensions[i]? = some d)
      (declares : t.dimension k = .ok (d : Int)) (misfits : Misfits t dimensions (k + 1) rest fault) :
      Misfits t dimensions k (i :: rest) fault

inductive Binding.Misfit (b : Binding α) (dimensions : List Nat) : Fault α → Prop
  | arity (other : b.term.arity ≠ b.positions.length) :
      Misfit b dimensions (.arity b.positions.length b.term.arity)
  | argument {fault : Fault α} (arity : b.term.arity = b.positions.length)
      (misfits : b.term.Misfits dimensions 0 b.positions fault) : Misfit b dimensions fault

theorem Term.declares_or_misfits (t : Term α) {dimensions : List Nat} {k : Nat} {positions : List Nat}
    (known : ∀ i ∈ positions, i < dimensions.length) :
    (∀ j i : Nat, positions[j]? = some i →
      ∃ d, dimensions[i]? = some d ∧ t.dimension (k + j) = .ok (d : Int)) ∨
      ∃ fault, t.Misfits dimensions k positions fault := by
  induction positions generalizing k with
  | nil => exact .inl nofun
  | cons i rest ih =>
      obtain ⟨inside, known⟩ := List.forall_mem_cons.1 known
      have registered := List.getElem?_eq_getElem inside
      cases declares : t.dimension k with
      | error fault => exact .inr ⟨fault, .undeclared declares i rest⟩
      | ok declared =>
          by_cases same : (dimensions[i] : Int) = declared
          · subst same
            rcases ih (k := k + 1) known with fits | ⟨fault, misfits⟩
            · refine .inl fun j i' found => ?_
              cases j with
              | zero =>
                  cases found
                  exact ⟨_, registered, declares⟩
              | succ j =>
                  obtain ⟨d, at_i, same⟩ := fits j i' found
                  exact ⟨d, at_i, by rw [← same]; congr 1; omega⟩
            · exact .inr ⟨fault, .later registered declares misfits⟩
          · exact .inr ⟨_, .differs registered declares same rest⟩

theorem Binding.fits_or_misfit {b : Binding α} {dimensions : List Nat}
    (known : ∀ i ∈ b.positions, i < dimensions.length) :
    b.Fits dimensions ∨ ∃ fault, b.Misfit dimensions fault := by
  by_cases arity : b.term.arity = b.positions.length
  · rcases b.term.declares_or_misfits (k := 0) known with fits | ⟨fault, misfits⟩
    · refine .inl ⟨arity.symm, fun k i found => ?_⟩
      obtain ⟨d, at_i, same⟩ := fits k i found
      exact ⟨d, at_i, by rw [← same, Nat.zero_add]⟩
    · exact .inr ⟨fault, .argument arity misfits⟩
  · exact .inr ⟨_, .arity arity⟩

namespace Objective

variable {g : Objective α} {m : Memory α}

theorem run_bindArguments_misfit (wf : g.WellFormed) {t : Term α} {k : Nat} {positions : List Nat}
    {fault : Fault α} (misfits : t.Misfits (g.vars.map Variable.userDimension) k positions fault)
    (known : ∀ i ∈ positions, i < g.vars.length) :
    (((positions.filterMap ((g.vars.map Variable.storage)[·]?)).zipIdx k).mapM
      fun (h, argument) => bindArgument t h argument).run m g = (.error fault, g) := by
  have handle {i : Nat} (inside : i < g.vars.length) :
      (g.vars.map Variable.storage)[i]? = some g.vars[i].storage := by
    rw [List.getElem?_map, List.getElem?_eq_getElem inside, Option.map_some]
  have dimension {i d : Nat} (inside : i < g.vars.length)
      (registered : (g.vars.map Variable.userDimension)[i]? = some d) : g.vars[i].userDimension = d := by
    rwa [List.getElem?_map, List.getElem?_eq_getElem inside, Option.map_some, Option.some.injEq]
      at registered
  induction misfits with
  | undeclared failed i rest =>
      have inside := known i List.mem_cons_self
      simp only [List.filterMap_cons, handle inside, List.zipIdx_cons, List.mapM_cons, Edit.run_bind,
        run_bindArgument wf, failed]
  | @differs k i d declared registered declares other rest =>
      have inside := known i List.mem_cons_self
      rw [← dimension inside registered] at other ⊢
      simp only [List.filterMap_cons, handle inside, List.zipIdx_cons, List.mapM_cons, Edit.run_bind,
        run_bindArgument wf, declares, wf.find?_eq_some.2 ⟨List.getElem?_eq_getElem inside, rfl⟩, other,
        ↓reduceIte]
  | @later k i d rest fault registered declares misfits ih =>
      obtain ⟨inside, known⟩ := List.forall_mem_cons.1 known
      rw [← dimension inside registered] at declares
      have others := ih known
      simp only [List.filterMap_cons, handle inside, List.zipIdx_cons, List.mapM_cons, Edit.run_bind,
        run_bindArgument wf, declares, wf.find?_eq_some.2 ⟨List.getElem?_eq_getElem inside, rfl⟩,
        ↓reduceIte, others]

theorem run_addTerm_misfit (wf : g.WellFormed) {b : Binding α} {fault : Fault α}
    (misfit : b.Misfit (g.vars.map Variable.userDimension) fault)
    (known : ∀ i ∈ b.positions, i < g.vars.length) :
    ∃ g', (addTerm b.term (b.positions.filterMap ((g.vars.map Variable.storage)[·]?))).run m g =
      (.error fault, g') := by
  have length : (b.positions.filterMap ((g.vars.map Variable.storage)[·]?)).length =
      b.positions.length := by
    rw [List.filterMap_length_eq_length]
    intro i member
    simp [known i member]
  cases misfit with
  | arity other =>
      rw [← length] at other ⊢
      exact ⟨g, by simp only [addTerm, ne_eq, other, not_false_eq_true, ↓reduceIte, Edit.run_bind,
        Edit.run_throw]⟩
  | argument arity misfits =>
      rw [← length] at arity
      have failed := run_bindArguments_misfit (m := m) wf misfits known
      refine ⟨invalidate { g with toRegistry := g.dropVariablesFrom g.vars.length }, ?_⟩
      simp only [addTerm, arity, ne_eq, not_true_eq_false, ↓reduceIte, Edit.run_bind, Edit.run_get,
        Edit.run_tryCatch, failed, Edit.run_modify, Edit.run_throw]

end Objective

structure FittingTerms (factory : Factory α) (dimensions : List Nat) (text : List Char)
    (bs : List (Binding α)) (rest : List Char) : Prop where
  states : StatesTerms factory dimensions.length text bs rest
  fits : ∀ b ∈ bs, b.Fits dimensions

inductive UnfitTerm (factory : Factory α) (dimensions : List Nat) (text : List Char) (count : Nat)
    (fault : Fault α) : Prop
  | intro {bs : List (Binding α)} {b : Binding α} {behind rest : List Char}
      (before : FittingTerms factory dimensions text bs behind) (more : bs.length < count)
      (next : StatesTerm factory dimensions.length behind b rest) (misfit : b.Misfit dimensions fault)

section

variable {factory : Factory α} {dimensions : List Nat} {text behind rest : List Char} {b : Binding α}

theorem FittingTerms.cons {bs : List (Binding α)}
    (first : StatesTerm factory dimensions.length text b behind) (fits : b.Fits dimensions)
    (others : FittingTerms factory dimensions behind bs rest) :
    FittingTerms factory dimensions text (b :: bs) rest :=
  ⟨.cons first others.states, List.forall_mem_cons.2 ⟨fits, others.fits⟩⟩

theorem UnfitTerm.cons {count : Nat} {fault : Fault α}
    (first : StatesTerm factory dimensions.length text b behind) (fits : b.Fits dimensions)
    (unfit : UnfitTerm factory dimensions behind count fault) :
    UnfitTerm factory dimensions text (count + 1) fault := by
  obtain ⟨before, more, next, misfit⟩ := unfit
  exact ⟨before.cons first fits, Nat.succ_lt_succ more, next, misfit⟩

end

namespace Reading

open Objective Registry Text

variable {text rest : List Char} {m : Memory α} {g : Objective α} {w : Workspace α} {o s : Registry α}
  {factory : Factory α} {b : Binding α}

theorem run_bindStated (text : List Char) (drafts : g.Drafts w o) (vars : o.vars = s.outline.vars)
    (fits : b.Fits (s.vars.map Variable.userDimension)) :
    ∃ g', run (bindStated (s.vars.map Variable.storage) b) ⟨text, m, g⟩ = (.ok (), ⟨text, m, g'⟩) ∧
      g'.Drafts w { o with terms := o.terms ++ [b] } := by
  obtain ⟨g', bound, drafts'⟩ := drafts.addTerm (m := m) vars fits
  refine ⟨g', run_edit _ ?_, drafts'⟩
  rw [arguments, List.map_filterMap] at bound
  simpa using bound

theorem run_bindStated_misfit (text : List Char) (drafts : g.Drafts w o) (vars : o.vars = s.outline.vars)
    (known : ∀ i ∈ b.positions, i < s.vars.length) {fault : Fault α}
    (misfit : b.Misfit (s.vars.map Variable.userDimension) fault) :
    ∃ reader, run (bindStated (s.vars.map Variable.storage) b) ⟨text, m, g⟩ = (.error fault, reader) := by
  have same : g.outline.vars = s.outline.vars := by rw [drafts.outline_eq, vars]
  have length := congrArg List.length (map_congr_unplaced (f := fun _ => ()) (fun _ => rfl) same)
  rw [List.length_map, List.length_map] at length
  rw [← map_congr_unplaced (fun _ => rfl) same] at misfit
  rw [← length] at known
  obtain ⟨g', failed⟩ := run_addTerm_misfit (m := m) drafts.wellFormed misfit known
  rw [← map_congr_unplaced (fun _ => rfl) same]
  exact ⟨_, run_edit_error _ failed⟩

theorem run_term_eq (states : StatesTerm factory (s.vars.map Variable.userDimension).length text b rest) :
    run (term factory (s.vars.map Variable.storage)) ⟨text, m, g⟩ =
      run (bindStated (s.vars.map Variable.storage) b) ⟨rest, m, g⟩ := by
  rw [List.length_map, ← List.length_map (f := Variable.storage)] at states
  exact run_term_of_states states

theorem known_of_states {count : Nat} (states : StatesTerm factory count text b rest) :
    ∀ i ∈ b.positions, i < count := by
  obtain ⟨-, -, -, known, -⟩ := states
  exact known

theorem run_terms_add {bs : List (Binding α)}
    (terms_eq : FittingTerms factory (s.vars.map Variable.userDimension) text bs rest)
    (drafts : g.Drafts w o) (vars : o.vars = s.outline.vars) (count : Nat) :
    ∃ g', run (terms factory (s.vars.map Variable.storage) (bs.length + count)) ⟨text, m, g⟩ =
        run (terms factory (s.vars.map Variable.storage) count) ⟨rest, m, g'⟩ ∧
      g'.Drafts w { o with terms := o.terms ++ bs } := by
  obtain ⟨states, fits⟩ := terms_eq
  induction states generalizing g o with
  | nil text => exact ⟨g, by simp, by simpa using drafts⟩
  | @cons text behind rest b bs first _ ih =>
      obtain ⟨fit, fits⟩ := List.forall_mem_cons.1 fits
      obtain ⟨g₁, bound, drafts₁⟩ := run_bindStated (m := m) behind drafts vars fit
      obtain ⟨g', run, drafts'⟩ := ih drafts₁ vars fits
      refine ⟨g', ?_, by simpa using drafts'⟩
      rw [List.length_cons, Nat.add_right_comm, terms, run_bind_ok ((run_term_eq first).trans bound), run]

theorem run_terms_unfit {count : Nat} {fault : Fault α}
    (unfit : UnfitTerm factory (s.vars.map Variable.userDimension) text count fault)
    (drafts : g.Drafts w o) (vars : o.vars = s.outline.vars) :
    ∃ reader, run (terms factory (s.vars.map Variable.storage) count) ⟨text, m, g⟩ =
      (.error fault, reader) := by
  obtain @⟨bs, b, behind, rest, before, more, next, misfit⟩ := unfit
  obtain ⟨left, rfl⟩ : ∃ left, count = bs.length + (left + 1) := ⟨count - bs.length - 1, by omega⟩
  obtain ⟨g', bound, drafts'⟩ := run_terms_add (m := m) before drafts vars (left + 1)
  have known := known_of_states next
  rw [List.length_map] at known
  obtain ⟨reader, failed⟩ := run_bindStated_misfit (m := m) rest drafts' vars known misfit
  exact ⟨reader, by rw [bound, terms, run_bind_error ((run_term_eq next).trans failed)]⟩

theorem ends_terms (text : List Char) {fails : Fault α → Prop}
    (formats : ∀ fault : Fault α, fault.category = "StreamFormatError" → fails fault)
    (raises : ∀ fault, factory.Raises fault → fails fault) {count : Nat}
    (misfits : ∀ fault, UnfitTerm factory (s.vars.map Variable.userDimension) text count fault →
      fails fault) (drafts : g.Drafts w o) (vars : o.vars = s.outline.vars) :
    Ends (terms factory (s.vars.map Variable.storage) count) ⟨text, m, g⟩
      (fun _ reader => ∃ bs rest g', reader = ⟨rest, m, g'⟩ ∧ bs.length = count ∧
        FittingTerms factory (s.vars.map Variable.userDimension) text bs rest ∧
        g'.Drafts w { o with terms := o.terms ++ bs }) fails := by
  induction count generalizing text g o with
  | zero => exact ends_of_ok rfl ⟨[], text, g, rfl, rfl, ⟨.nil _, nofun⟩, by simpa using drafts⟩
  | succ count ih =>
      refine ends_term formats raises fun b rest first => ?_
      rw [List.length_map, ← List.length_map (f := Variable.userDimension)] at first
      rcases Binding.fits_or_misfit (known_of_states first) with fits | ⟨fault, misfit⟩
      · obtain ⟨g₁, bound, drafts₁⟩ := run_bindStated (m := m) rest drafts vars fits
        refine .of_run_eq (run_bind_ok bound) ?_
        refine (ih _ (fun fault unfit => misfits fault (unfit.cons first fits)) drafts₁ vars).mono ?_
        rintro _ _ ⟨bs, rest', g', rfl, length, terms_eq, drafts'⟩
        exact ⟨b :: bs, rest', g', rfl, by rw [List.length_cons, length], terms_eq.cons first fits,
          by simpa using drafts'⟩
      · have known := known_of_states first
        rw [List.length_map] at known
        obtain ⟨reader, failed⟩ := run_bindStated_misfit (m := m) rest drafts vars known misfit
        exact ends_of_error (run_bind_error failed)
          (misfits fault ⟨⟨.nil _, nofun⟩, Nat.succ_pos _, first, misfit⟩)

end Reading

def Memory.taken (m : Memory α) (values : List α) (dimensions : List Nat) : Memory α where
  objects := m.objects ++ .array .double [values.length] m.blocks.length 0 ::
    parts m.blocks.length 0 dimensions
  blocks := m.blocks ++ [values]

def Head.vars (head : Head α) : List (Variable α) :=
  (head.dimensions.zip head.flags).map fun p => ⟨⟨0⟩, p.1.toNat, p.1.toNat, 0, p.2 ≠ 0, none⟩

def Head.draft (head : Head α) (next : Nat) (terms : List (Binding α)) (threads : Nat)
    (hessianEnabled : Bool) : Registry α :=
  ⟨head.constant, Registry.rehomed next head.vars, terms, .empty, 0, 0, threads, hessianEnabled⟩

def Head.registry (head : Head α) (next : Nat) (terms : List (Binding α)) (threads : Nat)
    (hessianEnabled : Bool) : Registry α :=
  (head.draft next terms threads hessianEnabled).canonical

namespace Head

variable {head : Head α}

theorem map_userDimension_vars : head.vars.map Variable.userDimension = head.dimensions.map Int.toNat := by
  have dimensions := List.map_fst_zip head.flags_length.ge
  rw [vars, List.map_map]
  conv_rhs => rw [← dimensions, List.map_map]
  rfl

theorem map_userDimension_draft (head : Head α) (next : Nat) (terms : List (Binding α)) (threads : Nat)
    (hessianEnabled : Bool) : (head.draft next terms threads hessianEnabled).vars.map Variable.userDimension =
      head.dimensions.map Int.toNat := by
  rw [draft, Registry.map_rehomed fun _ _ => rfl, map_userDimension_vars]

theorem plain_vars : ∀ v ∈ head.vars, v.change = none :=
  List.forall_mem_map.2 fun _ _ => rfl

theorem flagged_vars : Reading.Flagged head.flags head.vars := by
  have flags : head.flags = (head.dimensions.zip head.flags).map (·.2) :=
    (List.map_snd_zip head.flags_length.le).symm
  rw [Reading.Flagged, vars]
  conv_lhs => rw [flags]
  rw [List.forall₂_map_left_iff, List.forall₂_map_right_iff, List.forall₂_same]
  exact fun p _ => rfl

variable (positive : ∀ d ∈ head.dimensions, 0 < d)

include positive

theorem fits_vars : ∀ v ∈ head.vars, v.Fits := by
  refine List.forall_mem_map.2 fun p member => ?_
  have here := positive p.1 (List.of_mem_zip member).1
  have user : 0 < p.1.toNat := by omega
  exact ⟨user, user, fun _ => rfl, nofun⟩

theorem dimensions_vars :
    (head.vars.map Variable.userDimension).map Nat.cast = head.dimensions := by
  rw [map_userDimension_vars, List.map_map]
  refine (List.map_congr_left fun d member => ?_).trans (List.map_id _)
  exact Int.toNat_of_nonneg (positive d member).le

theorem sum_vars : (head.vars.map Variable.userDimension).sum = head.values.length := by
  have sum := head.sum
  rw [← dimensions_vars positive, ← Nat.cast_list_sum] at sum
  exact_mod_cast sum

end Head

namespace Reading

open Objective Registry Text

variable {m : Memory α} (m₀ : Memory α) {g : Objective α} {w : Workspace α} {o : Registry α}
  {factory : Factory α} (text rest : List Char)

theorem object?_allocateVector (m : Memory α) (values : List α) :
    (m.allocateVector values).2.object? (m.allocateVector values).1 =
      some (.array .double [values.length] m.blocks.length 0) := by
  simp [Memory.allocateVector, Memory.allocateArray, Memory.allocate, Memory.object?]

theorem run_registerAll {values : List α} {vs : List (Variable α)} (fits : ∀ v ∈ vs, v.Fits)
    (plain : ∀ v ∈ vs, v.change = none) (size : values.length = (vs.map Variable.userDimension).sum)
    (drafts : g.Drafts w o) (empty : o.vars = []) :
    ∃ g', run (registerParts (m₀.allocateVector values).1 0
          ((vs.map Variable.userDimension).map Nat.cast)) ⟨text, (m₀.allocateVector values).2, g⟩ =
        (.ok ((rehomed (m₀.objects.length + 1) vs).map Variable.storage),
          ⟨text, m₀.taken values (vs.map Variable.userDimension), g'⟩) ∧
      g'.Drafts w { o with vars := (rehomed (m₀.objects.length + 1) vs).map Variable.renewed } := by
  have next : (m₀.allocateVector values).2.objects.length = m₀.objects.length + 1 := by
    simp [Memory.allocateVector, Memory.allocateArray, Memory.allocate]
  have memory : ({ (m₀.allocateVector values).2 with
      objects := (m₀.allocateVector values).2.objects ++
        Memory.parts m₀.blocks.length 0 (vs.map Variable.userDimension) } : Memory α) =
      m₀.taken values (vs.map Variable.userDimension) := by
    simp [Memory.allocateVector, Memory.allocateArray, Memory.allocate, Memory.taken]
  have room : 0 + (vs.map Variable.userDimension).sum ≤ values.length := by rw [size, Nat.zero_add]
  obtain ⟨g', registered, drafts'⟩ := run_registerParts text (object?_allocateVector m₀ values) fits plain
    room drafts (by simp [empty])
  rw [next, Nat.cast_zero, memory] at registered
  rw [next, empty, List.nil_append] at drafts'
  exact ⟨g', registered, drafts'⟩

variable {head : Head α} {zero : α} {threads : Nat} {hessianEnabled : Bool}

theorem wellFormed_registry (hessianEnabled : Bool) (positive : ∀ d ∈ head.dimensions, 0 < d) (some : 0 < threads)
    {bs : List (Binding α)} (fits : ∀ b ∈ bs, b.Fits (head.dimensions.map Int.toNat)) (next : Nat) :
    (head.registry next bs threads hessianEnabled).WellFormed := by
  refine wellFormed_canonical (nodup_rehomed next head.vars)
    (fits_rehomed (Head.fits_vars positive)) (fun b member => ?_) some
  rw [Head.map_userDimension_draft]
  exact fits b member

theorem run_register (factory : Factory α) (positive : ∀ d ∈ head.dimensions, 0 < d)
    (drafts : g.Drafts w ⟨zero, [], [], .empty, 0, 0, threads, hessianEnabled⟩) :
    ∃ g', run (register factory head) ⟨text, m₀, g⟩ =
        run (registerTerms factory head ⟨m₀.objects.length⟩
          ((rehomed (m₀.objects.length + 1) head.vars).map Variable.storage))
          ⟨text, m₀.taken head.values (head.dimensions.map Int.toNat), g'⟩ ∧
      g'.Drafts w ⟨zero, (rehomed (m₀.objects.length + 1) head.vars).map Variable.unplaced, [], .empty, 0, 0,
        threads, hessianEnabled⟩ := by
  obtain ⟨g₁, registered, drafts₁⟩ := run_registerAll m₀ text (Head.fits_vars positive) Head.plain_vars
    (Head.sum_vars positive).symm drafts rfl
  obtain ⟨g₂, held, drafts₂⟩ := run_setConstants
    (m := m₀.taken head.values (head.vars.map Variable.userDimension)) text drafts₁ rfl
    (nodup_rehomed _ head.vars) (Head.flagged_vars.rehomed _)
  rw [Head.dimensions_vars positive] at registered
  rw [Head.map_userDimension_vars] at registered held
  refine ⟨g₂, ?_, drafts₂⟩
  rw [register, run_bind_ok run_get]
  exact (run_bind_ok (run_modify _)).trans ((run_bind_ok registered).trans (run_bind_ok held))

theorem run_register_misfit (factory : Factory α)
    (drafts : g.Drafts w ⟨zero, [], [], .empty, 0, 0, threads, hessianEnabled⟩) {fault : Fault α}
    (misfits : Misfits head.values.length head.dimensions fault) :
    ∃ reader, run (register factory head) ⟨text, m₀, g⟩ = (.error fault, reader) := by
  obtain ⟨reader, failed⟩ := run_registerParts_misfit text (object?_allocateVector m₀ head.values)
    (Nat.zero_le _) misfits drafts (fun v member => by cases member)
  refine ⟨reader, ?_⟩
  rw [register, run_bind_ok run_get]
  exact (run_bind_ok (run_modify _)).trans (run_bind_error failed)

theorem eq_registry (positive : ∀ d ∈ head.dimensions, 0 < d) {bs : List (Binding α)}
    (fits : ∀ b ∈ bs, b.Fits (head.dimensions.map Int.toNat)) {next : Nat}
    (drafts : g.Drafts w ⟨zero, (rehomed next head.vars).map Variable.unplaced, bs, .empty, 0, 0, threads,
      hessianEnabled⟩) :
    ({ g with constant := head.constant } : Objective α) =
      ⟨head.registry next bs threads hessianEnabled, w⟩ := by
  have some : 0 < threads := by
    rw [← show g.threads = threads from congrArg Registry.threads drafts.outline_eq]
    exact drafts.wellFormed.threads
  have wf := wellFormed_registry hessianEnabled positive some fits next
  have same : ({ g.toRegistry with constant := head.constant } : Registry α) =
      head.registry next bs threads hessianEnabled := by
    refine (drafts.wellFormed.setConstant head.constant).eq_of_outline_eq wf ?_
    calc
      _ = { g.outline with constant := head.constant } := rfl
      _ = (head.draft next bs threads hessianEnabled).outline := by
        rw [drafts.outline_eq]
        rfl
      _ = _ := (outline_canonical _).symm
  rw [← same, ← drafts.workspace]

theorem run_register_fitting (positive : ∀ d ∈ head.dimensions, 0 < d) {bs : List (Binding α)}
    (fitting : FittingTerms factory (head.dimensions.map Int.toNat) text bs rest)
    (length : bs.length = head.terms)
    (drafts : g.Drafts w ⟨zero, [], [], .empty, 0, 0, threads, hessianEnabled⟩) :
    run (register factory head) ⟨text, m₀, g⟩ = (.ok (⟨m₀.objects.length⟩,
        (rehomed (m₀.objects.length + 1) head.vars).map Variable.storage),
      ⟨rest, m₀.taken head.values (head.dimensions.map Int.toNat),
        ⟨head.registry (m₀.objects.length + 1) bs threads hessianEnabled, w⟩⟩) := by
  obtain ⟨g₁, registered, drafts₁⟩ := run_register m₀ text factory positive drafts
  have fits := fitting.fits
  rw [← head.map_userDimension_draft (m₀.objects.length + 1) bs threads hessianEnabled] at fitting
  obtain ⟨g₂, bound, drafts₂⟩ := run_terms_add
    (m := m₀.taken head.values (head.dimensions.map Int.toNat)) fitting drafts₁ rfl 0
  have all : run (terms factory ((rehomed (m₀.objects.length + 1) head.vars).map Variable.storage) head.terms)
      ⟨text, m₀.taken head.values (head.dimensions.map Int.toNat), g₁⟩ =
        (.ok (), ⟨rest, m₀.taken head.values (head.dimensions.map Int.toNat), g₂⟩) := by
    rw [← length]
    exact bound
  rw [registered, registerTerms, run_bind_ok all, ← eq_registry positive fits drafts₂]
  rfl

theorem run_register_unfit (positive : ∀ d ∈ head.dimensions, 0 < d) {fault : Fault α}
    (unfit : UnfitTerm factory (head.dimensions.map Int.toNat) text head.terms fault)
    (drafts : g.Drafts w ⟨zero, [], [], .empty, 0, 0, threads, hessianEnabled⟩) :
    ∃ reader, run (register factory head) ⟨text, m₀, g⟩ = (.error fault, reader) := by
  obtain ⟨g₁, registered, drafts₁⟩ := run_register m₀ text factory positive drafts
  rw [← head.map_userDimension_draft (m₀.objects.length + 1) [] threads hessianEnabled] at unfit
  obtain ⟨reader, failed⟩ := run_terms_unfit
    (m := m₀.taken head.values (head.dimensions.map Int.toNat)) unfit drafts₁ rfl
  exact ⟨reader, registered.trans (run_bind_error failed)⟩

theorem ends_register {fails : Fault α → Prop}
    (formats : ∀ fault : Fault α, fault.category = "StreamFormatError" → fails fault)
    (raises : ∀ fault, factory.Raises fault → fails fault)
    (misfits : ∀ fault, Misfits head.values.length head.dimensions fault → fails fault)
    (unfits : (∀ d ∈ head.dimensions, 0 < d) → ∀ fault,
      UnfitTerm factory (head.dimensions.map Int.toNat) text head.terms fault → fails fault)
    (drafts : g.Drafts w ⟨zero, [], [], .empty, 0, 0, threads, hessianEnabled⟩) :
    Ends (register factory head) ⟨text, m₀, g⟩
      (fun read reader => (∀ d ∈ head.dimensions, 0 < d) ∧ ∃ bs rest, bs.length = head.terms ∧
        FittingTerms factory (head.dimensions.map Int.toNat) text bs rest ∧
        read = (⟨m₀.objects.length⟩,
          (rehomed (m₀.objects.length + 1) head.vars).map Variable.storage) ∧
        reader = ⟨rest, m₀.taken head.values (head.dimensions.map Int.toNat),
          ⟨head.registry (m₀.objects.length + 1) bs threads hessianEnabled, w⟩⟩) fails := by
  rcases positive_or_misfits head.sum with positive | ⟨fault, misfit⟩
  · obtain ⟨g₁, registered, drafts₁⟩ := run_register m₀ text factory positive drafts
    have dimensions := head.map_userDimension_draft (m₀.objects.length + 1) [] threads hessianEnabled
    have ended := ends_terms text (s := head.draft (m₀.objects.length + 1) [] threads hessianEnabled)
      (m := m₀.taken head.values (head.dimensions.map Int.toNat)) formats raises
      (fun fault unfit => unfits positive fault (dimensions ▸ unfit)) drafts₁ rfl
    rw [dimensions] at ended
    refine .of_run_eq registered (ended.bind ?_)
    rintro _ _ ⟨bs, rest, g₂, rfl, length, fitting, drafts₂⟩
    refine ends_of_ok rfl ⟨positive, bs, rest, length, fitting, rfl, ?_⟩
    rw [← eq_registry positive fitting.fits drafts₂]
  · obtain ⟨reader, failed⟩ := run_register_misfit m₀ text factory drafts misfit
    exact ends_of_error failed (misfits fault misfit)

variable [Numeral α] [Scalar α] {text}

omit [Numeral α] in
theorem drafts_clear (threads : 0 < g.threads) :
    g.clear.Drafts g.clear.workspace ⟨0, [], [], .empty, 0, 0, g.threads, g.hessianEnabled⟩ :=
  ⟨Registry.wellFormed_empty threads, rfl, rfl, rfl⟩

theorem run_objective_ok {read : Handle × List Handle} {reader : Reader α}
    (outcome : run (body factory) ⟨text, m, g.clear⟩ = (.ok read, reader)) :
    run (objective factory) ⟨text, m, g⟩ = (.ok read, reader) := by
  rw [objective, clear, run_bind_ok (run_modify _)]
  have caught := run_run_tryCatch (body factory) (fun fault => do clear; throw fault) ⟨text, m, g.clear⟩
  rw [show StateT.run (ExceptT.run (body factory)) _ = _ from outcome] at caught
  exact caught

theorem run_objective_error {fault : Fault α} {reader : Reader α}
    (outcome : run (body factory) ⟨text, m, g.clear⟩ = (.error fault, reader)) :
    run (objective factory) ⟨text, m, g⟩ =
      (.error fault, { reader with objective := reader.objective.clear }) := by
  rw [objective, clear, run_bind_ok (run_modify _)]
  have caught := run_run_tryCatch (body factory) (fun fault => do clear; throw fault) ⟨text, m, g.clear⟩
  rw [show StateT.run (ExceptT.run (body factory)) _ = _ from outcome] at caught
  exact caught

end Reading

end Descent
