import Mathlib
import Descent.Proofs.Stream.Written

namespace Descent

variable {α : Type}

/-- The term is of a taught class, and the class that is written for it restores, from one line, an equivalent term
of the same class with the same payload. Asked of the terms that the factory itself makes, this says that what it
makes is of taught classes and stays of the same class when it is read again. -/
structure Factory.Stable [Zero α] (factory : Factory α) (t : Term α) : Prop where
  payload : '\n' ∉ t.payload.toList
  restored : ∃ name cls t', factory.classes.find? (·.2.kind = t.kind) = some (name, cls) ∧
    cls.restore t.payload = .ok t' ∧ t.Equivalent t' ∧ t'.kind = t.kind ∧ t'.payload = t.payload

namespace Registry

variable {r : Registry α} {factory : Factory α} {m : Memory α} {target : Registry α} {next : Nat}
  {bindings : List (Binding α)} {b c : Binding α}

structure Rewrites [Zero α] (r : Registry α) (factory : Factory α) (b c : Binding α) : Prop
    extends r.Rebinds factory b c where
  kind : c.term.kind = b.term.kind
  payload : c.term.payload = b.term.payload

theorem exists_rewrites [Zero α] (taught : factory.Taught)
    (names : ∀ name ∈ factory.classes.map (·.1), '\n' ∉ name.toList) {bs : List (Binding α)}
    (stable : ∀ b ∈ bs, factory.Stable b.term) : ∃ cs, List.Forall₂ (r.Rewrites factory) bs cs := by
  induction bs with
  | nil => exact ⟨[], .nil⟩
  | cons b rest ih =>
      obtain ⟨here, stable⟩ := List.forall_mem_cons.1 stable
      obtain ⟨cs, all⟩ := ih stable
      obtain ⟨name, cls, t, first, made, equivalent, kind, payload⟩ := here.restored
      have whole : '\n' ∉ name.toList :=
        names name (List.mem_map_of_mem (f := (·.1)) (List.mem_of_find?_eq_some first))
      have restores := taught.restores_of_first first whole here.payload made equivalent
      exact ⟨⟨t, b.positions.map r.placeOf⟩ :: cs, .cons ⟨⟨restores, rfl⟩, kind, payload⟩ all⟩

/-! ## What was read is in order -/

theorem freeFirst_restored : FreeFirst (r.restored next bindings target).vars := by
  have kinds : (rehomed next r.ordered).map (·.isConstant) = r.ordered.map (·.isConstant) :=
    map_rehomed (fun _ _ => rfl) next r.ordered
  have ordered : (r.ordered.map (·.isConstant)).Pairwise fun a b => a = true → b = true :=
    List.pairwise_map.2 freeFirst_ordered
  rw [← kinds] at ordered
  exact List.pairwise_map.1 ordered

theorem ordered_restored : (r.restored next bindings target).ordered = rehomed next r.ordered :=
  ordered_of_freeFirst freeFirst_restored

theorem placeOf_restored {i : Nat} (inside : i < r.vars.length) :
    (r.restored next bindings target).placeOf i = i := by
  refine placeOf_of_freeFirst freeFirst_restored ?_
  rwa [restored, length_rehomed, perm_ordered.length_eq]

theorem placeOf_lt_length {i : Nat} (inside : i < r.vars.length) : r.placeOf i < r.vars.length :=
  length_layoutOrder (r := r) ▸ placeOf_lt inside

theorem lines_restored [Zero α] (rewrites : r.Rewrites factory b c)
    (known : ∀ i ∈ b.positions, i < r.vars.length) :
    (r.restored next bindings target).lines factory c = r.lines factory b := by
  have name : factory.nameOf c.term = factory.nameOf b.term := by rw [Factory.nameOf, rewrites.kind, Factory.nameOf]
  have places : c.positions.map (r.restored next bindings target).placeOf = b.positions.map r.placeOf := by
    rw [rewrites.positions, List.map_map]
    exact List.map_congr_left fun i member => placeOf_restored (placeOf_lt_length (known i member))
  rw [lines, lines, name, places, rewrites.payload, rewrites.positions, List.length_map]

theorem flatMap_lines_restored [Zero α] {bs cs : List (Binding α)}
    (rewrites : List.Forall₂ (r.Rewrites factory) bs cs)
    (known : ∀ b ∈ bs, ∀ i ∈ b.positions, i < r.vars.length) :
    cs.flatMap ((r.restored next bindings target).lines factory) = bs.flatMap (r.lines factory) := by
  induction rewrites with
  | nil => rfl
  | cons here _ ih =>
      obtain ⟨first, known⟩ := List.forall_mem_cons.1 known
      rw [List.flatMap_cons, List.flatMap_cons, lines_restored here first, ih known]

variable [Numeral α]

theorem write_restored [Zero α] (m₀ : Memory α) (wf : r.WellFormed) (plain : ∀ v ∈ r.vars, v.change = none)
    (whole : ∀ b ∈ r.terms, '\n' ∉ b.term.payload.toList)
    (size : (r.contents m).length = (r.ordered.map Variable.userDimension).sum) (threads : 0 < target.threads)
    (rewrites : List.Forall₂ (r.Rewrites factory) r.terms bindings) :
    (r.restored (m₀.objects.length + 1) bindings target).write
        (m₀.taken (r.contents m) (r.ordered.map Variable.userDimension)) (some factory) =
      r.write m (some factory) := by
  have rebinds : List.Forall₂ (r.Rebinds factory) r.terms bindings := rewrites.imp fun _ _ here => here.toRebinds
  have wf' := wellFormed_restored wf threads rebinds (m₀.objects.length + 1)
  have plain' : ∀ v ∈ (r.restored (m₀.objects.length + 1) bindings target).vars, v.change = none := by
    intro v member
    obtain ⟨-, u, known, same⟩ := mem_rehomed member
    rw [same]
    exact plain u (perm_ordered.mem_iff.1 known)
  have known : ∀ b ∈ r.terms, ∀ i ∈ b.positions, i < r.vars.length := by
    intro b member i inside
    obtain ⟨v, at_i⟩ := (wf.terms b member).exists_variable inside
    exact (List.getElem?_eq_some_iff.1 at_i).1
  have payloads : ∀ c ∈ bindings, '\n' ∉ c.term.payload.toList := by
    intro c member
    obtain ⟨b, known, here⟩ := exists_of_mem_right rewrites member
    exact here.payload ▸ whole b known
  have contents : (r.restored (m₀.objects.length + 1) bindings target).contents
      (m₀.taken (r.contents m) (r.ordered.map Variable.userDimension)) = r.contents m := by
    rw [contents, ordered_restored]
    exact (load_restored m₀ bindings target size).2
  have terms : (r.restored (m₀.objects.length + 1) bindings target).terms = bindings := rfl
  rw [write_eq plain' payloads, write_eq plain whole, headLines_eq wf' plain', headLines_eq wf plain, contents,
    ordered_restored, map_rehomed fun _ _ => rfl, map_rehomed fun _ _ => rfl, length_rehomed, terms,
    rewrites.length_eq, flatMap_lines_restored rewrites known]
  rfl

end Registry

/-! ## Stability -/

theorem StatesTerms.created {factory : Factory α} {count : Nat} {text rest : List Char} {bs : List (Binding α)}
    (states : StatesTerms factory count text bs rest) :
    ∀ b ∈ bs, ∃ name payload, '\n' ∉ payload.toList ∧ factory.create name payload = .ok b.term := by
  induction states with
  | nil => exact nofun
  | cons first _ ih =>
      refine List.forall_mem_cons.2 ⟨?_, ih⟩
      obtain ⟨lines, -, -, -, create⟩ := first
      obtain _ | ⟨-, _ | ⟨-, _ | ⟨-, _ | ⟨payload, -⟩⟩⟩⟩ := lines
      exact ⟨_, _, payload.whole, create⟩

namespace Factory.Delivers

variable [Numeral α] [Scalar α] {factory : Factory α} {text : List Char} {m : Memory α} {f : Objective α}
  {head : Head α} {whole : Handle} {handles : List Handle} {reader : Reader α}

theorem load (delivers : factory.Delivers text m f head whole handles reader) :
    (∀ v ∈ reader.objective.vars, (reader.memory.load v.storage).length = v.userDimension) ∧
      (reader.objective.vars.flatMap fun v => reader.memory.load v.storage) = head.values := by
  have found : reader.memory.blocks[m.blocks.length]? = some head.values := by simp [delivers.values]
  obtain ⟨lengths, contents⟩ := delivers.slices.load found (Nat.le_refl _)
  rw [List.drop_zero, List.drop_length, List.append_nil] at contents
  exact ⟨lengths, contents.symm⟩

theorem created (delivers : factory.Delivers text m f head whole handles reader) :
    ∀ b ∈ reader.objective.terms, ∃ name payload, '\n' ∉ payload.toList ∧
      factory.create name payload = .ok b.term := by
  obtain ⟨behind, -, fitting⟩ := delivers.states.lines
  exact fitting.states.created

end Factory.Delivers

namespace Objective

open Registry Text

variable [Scalar α] [Numeral α] [Numeral.Words α] {f g₀ : Objective α} {factory : Factory α} {m : Memory α}

/-- The text is read for the objective, whatever follows it and whatever is read into, with the free variables in
front; and it is what is written then. -/
def Normal (f : Objective α) (m : Memory α) (factory : Factory α) (text : String) : Prop :=
  ∀ (g₀ : Objective α) (m₀ : Memory α) (rest : List Char), Reachable g₀ → ∃ whole m' g,
    (Reading.objective factory).run ⟨text.toList ++ rest, m₀, g₀⟩ =
      (.ok (whole, g.vars.map Variable.storage), ⟨rest, m', g⟩) ∧
    f.Restates g.toRegistry ∧
    List.Forall₂ (Variable.Matches m m') (f.vars.filter (!·.isConstant) ++ f.vars.filter (·.isConstant)) g.vars ∧
    g.write m' (some factory) = .ok text

theorem Reachable.normal (reached : Reachable f) (plain : ∀ v ∈ f.vars, v.change = none)
    (lengths : ∀ v ∈ f.vars, (m.load v.storage).length = v.userDimension) (taught : factory.Taught)
    (names : ∀ name ∈ factory.classes.map (·.1), '\n' ∉ name.toList)
    (stable : ∀ b ∈ f.terms, factory.Stable b.term) (constant : Numeral.ReadBack f.constant)
    (contents : ∀ v ∈ f.vars, ∀ a ∈ m.load v.storage, Numeral.ReadBack a) :
    ∃ text, f.write m (some factory) = .ok text ∧ f.Normal m factory text := by
  have wf := reached.wellFormed
  have whole : ∀ b ∈ f.terms, '\n' ∉ b.term.payload.toList := fun b member => (stable b member).payload
  have back := forall_mem_contents contents
  have size := length_contents lengths
  refine ⟨_, write_eq plain whole, fun g₀ m₀ rest target => ?_⟩
  have threads := target.wellFormed.threads
  obtain ⟨bindings, rewrites⟩ := exists_rewrites (r := f.toRegistry) taught names stable
  have rebinds := rewrites.imp fun _ _ here => here.toRebinds
  obtain ⟨g, read, same⟩ := Reading.run_objective m₀ rest wf plain size constant back rebinds threads
  refine ⟨_, _, g, by rw [toList_unlines, read, same]; rfl, ?_, ?_, ?_⟩
  · rw [same]
    exact restates_restored rebinds _ _
  · rw [same, ← ordered_eq]
    exact matches_taken m₀ lengths
  · rw [same, write_restored m₀ wf plain whole size threads rewrites, write_eq plain whole]

/-- What is written for an objective that was read is normal, and so is all that is written with arrays as they were
registered and terms that the factory restores. -/
theorem Reachable.normal_form {f₀ : Objective α} (reached₀ : Reachable f₀) (taught : factory.Taught)
    (names : ∀ name ∈ factory.classes.map (·.1), '\n' ∉ name.toList)
    (stable : ∀ name payload t, '\n' ∉ payload.toList → factory.create name payload = .ok t → factory.Stable t) :
    (∀ text m₀ whole handles reader,
      (Reading.objective factory).run ⟨text, m₀, f₀⟩ = (.ok (whole, handles), reader) →
      Numeral.ReadBack reader.objective.constant →
      (∀ v ∈ reader.objective.vars, ∀ a ∈ reader.memory.load v.storage, Numeral.ReadBack a) →
      (∃ head, factory.Delivers text m₀ f₀ head whole handles reader) ∧
      ∃ written, reader.objective.write reader.memory (some factory) = .ok written ∧
        reader.objective.Normal reader.memory factory written) ∧
    ∀ (f : Objective α) (m : Memory α) (text : String), Reachable f →
      (∀ v ∈ f.vars, (m.load v.storage).length = v.userDimension) →
      (∀ b ∈ f.terms, factory.Stable b.term) → Numeral.ReadBack f.constant →
      (∀ v ∈ f.vars, ∀ a ∈ m.load v.storage, Numeral.ReadBack a) →
      f.write m (some factory) = .ok text → f.Normal m factory text := by
  constructor
  · intro text m₀ whole handles reader read constant contents
    obtain ⟨head, delivers⟩ := Reading.delivers_of_ok reached₀.wellFormed.threads read
    have made : Reachable reader.objective := reached₀.of_read read
    have restored : ∀ b ∈ reader.objective.terms, factory.Stable b.term := by
      intro b member
      obtain ⟨name, payload, one, create⟩ := delivers.created b member
      exact stable name payload b.term one create
    exact ⟨⟨head, delivers⟩, made.normal delivers.unchanged delivers.load.1 taught names restored constant contents⟩
  · intro f m text reached lengths restored constant contents written
    obtain ⟨plain, -⟩ := write_eq_ok_iff.1 written
    obtain ⟨other, written', normal⟩ := reached.normal plain lengths taught names restored constant contents
    cases written.symm.trans written'
    exact normal

def rosenbrockClass : TermClass Float := (Sample.class? "Rosenbrock").get rfl

def namedClass : TermClass Float := (Sample.class? "Named").get rfl

def aliases : Factory Float :=
  ((Factory.empty.teach rosenbrockClass (some "valley")).teach rosenbrockClass (some "banana")).teach
    namedClass none

theorem stable_rosenbrock : aliases.Stable Sample.rosenbrock where
  payload := by decide
  restored := ⟨"valley", rosenbrockClass, Sample.rosenbrock, rfl, rfl, Term.Equivalent.refl _, rfl, rfl⟩

theorem stable_aliases (name payload : String) (t : Term Float) (whole : '\n' ∉ payload.toList)
    (created : aliases.create name payload = .ok t) : aliases.Stable t := by
  unfold Factory.create at created
  split at created
  · rename_i cls found
    obtain ⟨⟨known, cls'⟩, member, rfl⟩ := Option.map_eq_some_iff.1 found
    have known := List.mem_of_find?_eq_some member
    rw [show aliases.classes = [("valley", rosenbrockClass), ("banana", rosenbrockClass),
      ("xterms.Named", namedClass)] from rfl] at known
    simp only [List.mem_cons, List.not_mem_nil, or_false, Prod.mk.injEq] at known
    rcases known with ⟨-, rfl⟩ | ⟨-, rfl⟩ | ⟨-, rfl⟩
    · cases created
      exact stable_rosenbrock
    · cases created
      exact stable_rosenbrock
    · cases created
      exact ⟨whole, "xterms.Named", namedClass, Sample.named payload, rfl, rfl, Term.Equivalent.refl _, rfl, rfl⟩
  · cases created

def loosely : List Char :=
  (unlines [streamMagic, "1", typeFormat, "2", "2", "2", "+0.50", "1 01", "-7 0", "0.5 1e0", "banana", "2", "0 1",
    "no payload", "xterms.Named", "01", "+1", "note", "rest"]).toList

def readLoosely : Except (Fault Float) (Handle × List Handle) × Reader Float :=
  (Reading.objective aliases).run ⟨loosely, storedArrays, ofThreads 1⟩

def valley : Objective Float :=
  let apply (f : Objective Float) (c : Mutation Float) := (c.edit.run storedArrays f).2
  [.addTerm (.term Sample.rosenbrock) [⟨0⟩, ⟨1⟩], .setConstant ⟨0⟩ true].foldl apply (ofThreads 1)

theorem reachable_valley : Reachable valley :=
  .step (.step (.new (show new? 1 = .ok (ofThreads 1) from rfl))
    (.mutate (c := .addTerm (.term Sample.rosenbrock) [⟨0⟩, ⟨1⟩]) trivial storedArrays))
    (.mutate (c := .setConstant ⟨0⟩ true) trivial storedArrays)

theorem loosely_normal :
    (∃ whole handles reader head written, readLoosely = (.ok (whole, handles), reader) ∧
      aliases.Delivers loosely storedArrays (ofThreads 1) head whole handles reader ∧
      reader.objective.write reader.memory (some aliases) = .ok written ∧
      reader.objective.Normal reader.memory aliases written) ∧
    ∃ text, valley.write storedArrays (some aliases) = .ok text ∧ valley.Normal storedArrays aliases text := by
  have taught : aliases.Taught := .teach (.teach (.teach .empty rosenbrockClass (some "valley")) rosenbrockClass
    (some "banana")) namedClass none
  obtain ⟨read, write⟩ := Reachable.normal_form (.new (show new? 1 = .ok (ofThreads 1) from rfl)) taught
    (by decide) stable_aliases
  constructor
  · have ok : readLoosely.1.isOk = true := by decide +kernel
    have constant : Numeral.ReadBack readLoosely.2.objective.constant := by decide +kernel
    have contents : ∀ v ∈ readLoosely.2.objective.vars, ∀ a ∈ readLoosely.2.memory.load v.storage,
        Numeral.ReadBack a := by decide +kernel
    rcases outcome : readLoosely with ⟨fault | ⟨whole, handles⟩, reader⟩ <;> rw [outcome] at ok constant contents
    · cases ok
    · obtain ⟨⟨head, delivers⟩, written, wrote, normal⟩ :=
        read loosely storedArrays whole handles reader outcome constant contents
      exact ⟨whole, handles, reader, head, written, rfl, delivers, wrote, normal⟩
  · have ok : (valley.write storedArrays (some aliases)).isOk = true := by decide +kernel
    obtain ⟨text, wrote⟩ := exists_of_isOk ok
    have terms : ∀ b ∈ valley.terms, aliases.Stable b.term := by
      rw [show valley.terms = [⟨Sample.rosenbrock, [0, 1]⟩] from rfl, List.forall_mem_singleton]
      exact stable_rosenbrock
    exact ⟨text, wrote, write valley storedArrays text reachable_valley (by decide +kernel) terms
      (by decide +kernel) (by decide +kernel) wrote⟩

example : (readLoosely.2.objective.write readLoosely.2.memory (some aliases)).toOption =
    some (unlines [streamMagic, "1", typeFormat, "2", "2", "2", "0.5", "1 1", "0 1", "1.0 0.5", "valley", "2", "1 0",
      "", "xterms.Named", "1", "0", "note"]) := by decide +kernel

end Objective

end Descent
