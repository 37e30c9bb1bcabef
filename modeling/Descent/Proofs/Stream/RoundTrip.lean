import Mathlib
import Descent.Proofs.Stream.Restored
import Descent.Sample.Terms

namespace Descent

variable {α : Type}

/-! ## Factories -/

namespace Factory

inductive Taught : Factory α → Prop
  | empty : Taught .empty
  | teach {factory : Factory α} (taught : Taught factory) (cls : TermClass α) (name : Option String) :
      Taught (factory.teach cls name)

/-- What a factory needs for a term to be restored: a payload of one line, from which the class with the first
name of the kind of the term makes an equivalent one. The name is one line, too. -/
structure Preserves [Zero α] (factory : Factory α) (t : Term α) : Prop where
  payload : '\n' ∉ t.payload.toList
  taught : ∃ name cls restored, factory.classes.find? (·.2.kind = t.kind) = some (name, cls) ∧
    '\n' ∉ name.toList ∧ cls.restore t.payload = .ok restored ∧ t.Equivalent restored

variable {factory : Factory α}

theorem mem_insert {name other : String} {cls : TermClass α} {classes : List (String × TermClass α)} :
    other ∈ (insert name cls classes).map (·.1) → other = name ∨ other ∈ classes.map (·.1) := by
  induction classes with
  | nil => simp [insert]
  | cons first rest ih =>
      obtain ⟨known, c⟩ := first
      rw [insert]
      split
      · intro member
        rename_i same
        rcases List.mem_cons.1 member with here | later
        · exact .inl here
        · exact .inr (List.mem_cons_of_mem _ later)
      · intro member
        rcases List.mem_cons.1 member with here | later
        · exact .inr (here ▸ List.mem_cons_self)
        · exact (ih later).imp_right (List.mem_cons_of_mem _)

theorem nodup_insert (name : String) (cls : TermClass α) {classes : List (String × TermClass α)}
    (distinct : (classes.map (·.1)).Nodup) : ((insert name cls classes).map (·.1)).Nodup := by
  induction classes with
  | nil => exact List.nodup_singleton _
  | cons first rest ih =>
      obtain ⟨known, c⟩ := first
      obtain ⟨fresh, distinct'⟩ := List.nodup_cons.1 distinct
      rw [insert]
      split
      · rename_i same
        exact same ▸ distinct
      · rename_i differs
        refine List.nodup_cons.2 ⟨fun again => ?_, ih distinct'⟩
        exact (mem_insert again).elim differs fresh

theorem Taught.nodup (taught : factory.Taught) : (factory.classes.map (·.1)).Nodup := by
  induction taught with
  | empty => exact .nil
  | teach _ cls name ih => exact nodup_insert _ cls ih

theorem find?_of_mem {name : String} {cls : TermClass α} {classes : List (String × TermClass α)}
    (distinct : (classes.map (·.1)).Nodup) (member : (name, cls) ∈ classes) :
    classes.find? (·.1 = name) = some (name, cls) := by
  induction classes with
  | nil => cases member
  | cons first rest ih =>
      obtain ⟨fresh, distinct⟩ := List.nodup_cons.1 distinct
      rcases List.mem_cons.1 member with rfl | member
      · simp
      · have differs : first.1 ≠ name := by
          rintro rfl
          exact fresh (List.mem_map_of_mem (f := (·.1)) member)
        rw [List.find?_cons_of_neg (by simpa using differs), ih distinct member]

theorem Taught.restores_of_first [Zero α] (taught : factory.Taught) {t t' : Term α} {name : String}
    {cls : TermClass α} (first : factory.classes.find? (·.2.kind = t.kind) = some (name, cls))
    (whole : '\n' ∉ name.toList) (payload : '\n' ∉ t.payload.toList) (restored : cls.restore t.payload = .ok t')
    (equivalent : t.Equivalent t') : factory.Restores t t' := by
  have named : factory.nameOf t = name := by rw [nameOf, first]
  have found : factory.find? name = some cls := by
    rw [find?, find?_of_mem taught.nodup (List.mem_of_find?_eq_some first), Option.map_some]
  have created : factory.create name t.payload = .ok t' := by
    simp only [create, found, restored]
  exact ⟨named ▸ whole, payload, named ▸ created, equivalent⟩

theorem Taught.restores [Zero α] (taught : factory.Taught) {t : Term α} (preserves : factory.Preserves t) :
    ∃ t', factory.Restores t t' := by
  obtain ⟨name, cls, t', first, whole, restored, equivalent⟩ := preserves.taught
  exact ⟨t', taught.restores_of_first first whole preserves.payload restored equivalent⟩

end Factory

theorem Registry.exists_rebinds [Zero α] {r : Registry α} {factory : Factory α} (taught : factory.Taught)
    {bs : List (Binding α)} (preserved : ∀ b ∈ bs, factory.Preserves b.term) :
    ∃ cs, List.Forall₂ (r.Rebinds factory) bs cs := by
  induction bs with
  | nil => exact ⟨[], .nil⟩
  | cons b rest ih =>
      obtain ⟨here, preserved⟩ := List.forall_mem_cons.1 preserved
      obtain ⟨cs, all⟩ := ih preserved
      obtain ⟨t, restores⟩ := taught.restores here
      exact ⟨⟨t, b.positions.map r.placeOf⟩ :: cs, .cons ⟨restores, rfl⟩ all⟩

namespace Objective

open Registry Text

variable [Scalar α] [Numeral α] [Numeral.Words α] {f g₀ : Objective α} {factory : Factory α} {m : Memory α}

theorem Reachable.round_trip (reached : Reachable f) (plain : ∀ v ∈ f.vars, v.change = none)
    (lengths : ∀ v ∈ f.vars, (m.load v.storage).length = v.userDimension) (taught : factory.Taught)
    (preserved : ∀ b ∈ f.terms, factory.Preserves b.term) (constant : Numeral.ReadBack f.constant)
    (contents : ∀ v ∈ f.vars, ∀ a ∈ m.load v.storage, Numeral.ReadBack a) (target : Reachable g₀)
    (m₀ : Memory α) (rest : List Char) :
    ∃ text whole m' g, f.write m (some factory) = .ok text ∧
      (Reading.objective factory).run ⟨text.toList ++ rest, m₀, g₀⟩ =
        (.ok (whole, g.vars.map Variable.storage), ⟨rest, m', g⟩) ∧
      f.Resembles g.toRegistry m m' ∧ g.threads = g₀.threads ∧ g.hessianEnabled = g₀.hessianEnabled ∧
      (g.threads = f.threads → ∀ n n', f.Resembles g.toRegistry n n' → f.SameAnswers g n n') := by
  have wf := reached.wellFormed
  obtain ⟨bindings, rebinds⟩ := exists_rebinds (r := f.toRegistry) taught preserved
  have back := forall_mem_contents contents
  obtain ⟨g, read, same⟩ := Reading.run_objective m₀ rest wf plain (length_contents lengths) constant back
    rebinds target.wellFormed.threads
  have like := resembles_restored m₀ wf lengths rebinds g₀.toRegistry
  rw [← same] at like
  have made : Reachable g := target.of_read read
  refine ⟨_, ⟨m₀.objects.length⟩, _, g, write_eq plain fun b member => (preserved b member).payload, ?_,
    like, ?_, ?_, ?_⟩
  · rw [toList_unlines, read, same]
    rfl
  · rw [same]
    rfl
  · rw [same]
    rfl
  · exact fun threads n n' like => reached.sameAnswers made like threads plain

def storedArrays : Memory Float where
  objects := [.array .double [1] 0 0, .array .double [1] 1 0, .array .double [2] 2 0]
  blocks := [[7], [0.25], [1, -2]]

def interleaved : Objective Float :=
  let apply (f : Objective Float) (c : Mutation Float) := (c.edit.run storedArrays f).2
  [.addTerm (.term (Sample.pair [0.5])) [⟨0⟩, ⟨1⟩], .addTerm (.term (Sample.quadratic [1, 2])) [⟨2⟩],
    .setConstant ⟨0⟩ true, .add (.number 0.125)].foldl apply (ofThreads 1)

theorem reachable_interleaved : Reachable interleaved :=
  .step (.step (.step (.step (.new (show new? 1 = .ok (ofThreads 1) from rfl))
    (.mutate (c := .addTerm (.term (Sample.pair [0.5])) [⟨0⟩, ⟨1⟩]) trivial storedArrays))
    (.mutate (c := .addTerm (.term (Sample.quadratic [1, 2])) [⟨2⟩]) trivial storedArrays))
    (.mutate (c := .setConstant ⟨0⟩ true) trivial storedArrays))
    (.mutate (c := .add (.number 0.125)) trivial storedArrays)

def pairClass : TermClass Float := (Sample.class? "Pair").get rfl

def quadraticClass : TermClass Float := (Sample.class? "Quadratic").get rfl

def distances : Factory Float := (Factory.empty.teach pairClass (some "pair")).teach quadraticClass none

theorem preserves_pair : distances.Preserves (Sample.pair [0.5]) where
  payload := by decide +kernel
  taught := ⟨"pair", pairClass, Sample.pair [0.5], rfl, by decide, rfl, Term.Equivalent.refl _⟩

theorem preserves_quadratic : distances.Preserves (Sample.quadratic [1, 2]) where
  payload := by decide +kernel
  taught := ⟨"terms.Quadratic", quadraticClass, Sample.quadratic [1, 2], rfl, by decide, rfl,
    Term.Equivalent.refl _⟩

theorem interleaved_round_trip : interleaved.layoutOrder = [1, 2, 0] ∧
    ∃ text whole m' g, interleaved.write storedArrays (some distances) = .ok text ∧
      (Reading.objective distances).run ⟨text.toList ++ "rest".toList, storedArrays, ofThreads 1⟩ =
        (.ok (whole, g.vars.map Variable.storage), ⟨"rest".toList, m', g⟩) ∧
      interleaved.Resembles g.toRegistry storedArrays m' ∧ g.threads = 1 ∧ g.hessianEnabled = true ∧
      (g.threads = interleaved.threads →
        ∀ n n', interleaved.Resembles g.toRegistry n n' → interleaved.SameAnswers g n n') := by
  have vars : interleaved.vars = [⟨⟨0⟩, 1, 1, 3, true, none⟩, ⟨⟨1⟩, 1, 1, 0, false, none⟩,
    ⟨⟨2⟩, 2, 2, 1, false, none⟩] := rfl
  have terms : interleaved.terms = [⟨Sample.pair [0.5], [0, 1]⟩, ⟨Sample.quadratic [1, 2], [2]⟩] := rfl
  refine ⟨rfl, Reachable.round_trip reachable_interleaved ?plain ?lengths
    (.teach (.teach .empty pairClass (some "pair")) quadraticClass none) ?preserved ?constant ?contents
    (.new (show new? 1 = .ok (ofThreads 1) from rfl)) storedArrays "rest".toList⟩
  case plain =>
    rw [vars]
    simp
  case lengths =>
    rw [vars]
    decide
  case preserved =>
    rw [terms, List.forall_mem_cons, List.forall_mem_singleton]
    exact ⟨preserves_pair, preserves_quadratic⟩
  case constant => decide +kernel
  case contents => decide +kernel

def withoutHessians : Objective Float :=
  ((Mutation.enableHessian false).edit.run storedArrays (ofThreads 1)).2

def renamed : Factory Float :=
  ((Factory.empty.teach pairClass (some "two\nlines")).teach pairClass (some "pair")).teach
    quadraticClass none

/-- Into an objective without Hessians, none are read; and a name of one line does not help if it is not the
first. -/
theorem round_trip_limits :
    (Reachable interleaved ∧ Reachable withoutHessians ∧
      ∃ text, (interleaved.write storedArrays (some distances)).toOption = some text ∧
        let read := (Reading.objective distances).run ⟨text.toList, storedArrays, withoutHessians⟩
        read.1.isOk = true ∧ read.2.objective.threads = interleaved.threads ∧
          (interleaved.ask storedArrays (.hessian [0, 0, 0] false)).1.isOk = true ∧
          (read.2.objective.ask read.2.memory (.hessian [0, 0, 0] false)).1.isOk = false) ∧
    ('\n' ∉ "pair".toList ∧ renamed.find? "pair" = some pairClass ∧
      pairClass.kind = (Sample.pair [(0.5 : Float)]).kind ∧
      ∃ text, (interleaved.write storedArrays (some renamed)).toOption = some text ∧
        ((Reading.objective renamed).run ⟨text.toList, storedArrays, ofThreads 1⟩).1.isOk = false) := by
  refine ⟨⟨reachable_interleaved, .step (.new (show new? 1 = .ok (ofThreads 1) from rfl))
    (.mutate (c := .enableHessian false) trivial storedArrays), ?disabled⟩, by decide, rfl, rfl, ?named⟩
  case disabled =>
    exact ⟨((interleaved.write storedArrays (some distances)).toOption).getD "", by decide +kernel,
      by decide +kernel⟩
  case named =>
    exact ⟨((interleaved.write storedArrays (some renamed)).toOption).getD "", by decide +kernel,
      by decide +kernel⟩

end Objective

end Descent
