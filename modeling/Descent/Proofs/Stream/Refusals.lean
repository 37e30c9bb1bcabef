import Mathlib
import Descent.Proofs.Registry.Reachable
import Descent.Proofs.Stream.Registered
import Descent.Sample.Terms

namespace Descent

variable {α : Type}

namespace Factory

variable [Numeral α] (factory : Factory α) (text : List Char)

/-- The text states an objective: a head, and terms that fit its variables. -/
structure States (head : Head α) (bs : List (Binding α)) (rest : List Char) : Prop where
  positive : ∀ d ∈ head.dimensions, 0 < d
  lines : ∃ behind, head.Opens text behind ∧
    FittingTerms factory (head.dimensions.map Int.toNat) behind bs rest
  length : bs.length = head.terms

/-- The text states dimensions, or a term behind terms that fit, which the registration refuses. -/
inductive Unfit (fault : Fault α) : Prop
  | dimensions {head : Head α} {rest : List Char} (opens : head.Opens text rest)
      (misfits : Reading.Misfits head.values.length head.dimensions fault) : Unfit fault
  | term {head : Head α} {rest : List Char} (opens : head.Opens text rest)
      (positive : ∀ d ∈ head.dimensions, 0 < d)
      (unfit : UnfitTerm factory (head.dimensions.map Int.toNat) rest head.terms fault) : Unfit fault

end Factory

namespace Reading

open Registry

variable [Numeral α] [Scalar α] {g : Objective α} (threads : 0 < g.threads) {factory : Factory α}
  {text rest : List Char} {m : Memory α} {head : Head α} {bs : List (Binding α)}

include threads

theorem run_objective_states (states : factory.States text head bs rest) :
    run (objective factory) ⟨text, m, g⟩ = (.ok (⟨m.objects.length⟩,
        (rehomed (m.objects.length + 1) head.vars).map Variable.storage),
      ⟨rest, m.taken head.values (head.dimensions.map Int.toNat),
        ⟨head.registry (m.objects.length + 1) bs g.threads g.hessianEnabled, g.clear.workspace⟩⟩) := by
  obtain ⟨behind, opens, fitting⟩ := states.lines
  refine run_objective_ok ((run_body_of_opens opens).trans ?_)
  exact run_register_fitting m behind rest states.positive fitting states.length (drafts_clear threads)

theorem run_objective_unfit {fault : Fault α} (unfit : factory.Unfit text fault) :
    (run (objective factory) ⟨text, m, g⟩).1 = .error fault := by
  obtain ⟨reader, failed⟩ : ∃ reader, run (body factory) ⟨text, m, g.clear⟩ = (.error fault, reader) := by
    cases unfit with
    | dimensions opens misfits =>
        rw [run_body_of_opens opens]
        exact run_register_misfit m _ factory (drafts_clear threads) misfits
    | term opens positive unfit =>
        rw [run_body_of_opens opens]
        exact run_register_unfit m _ positive unfit (drafts_clear threads)
  rw [run_objective_error failed]

theorem objective_cases (factory : Factory α) (text : List Char) (m : Memory α) :
    (∃ head bs rest, factory.States text head bs rest) ∨
      ∃ fault reader, run (body factory) ⟨text, m, g.clear⟩ = (.error fault, reader) ∧
        (fault.category = "StreamFormatError" ∨ factory.Raises fault ∨ factory.Unfit text fault) := by
  -- the head and the terms are read in turn, and each part that fails gives its reason
  have ended : Ends (body factory) ⟨text, m, g.clear⟩
      (fun _ _ => ∃ head bs rest, factory.States text head bs rest)
      (fun fault => fault.category = "StreamFormatError" ∨ factory.Raises fault ∨ factory.Unfit text fault) := by
    refine ends_body (fun _ => .inl) fun head behind opens => ?_
    refine (ends_register m behind (fun _ => .inl) (fun _ raises => .inr (.inl raises))
      (fun fault misfits => .inr (.inr (.dimensions opens misfits)))
      (fun positive fault unfit => .inr (.inr (.term opens positive unfit))) (drafts_clear threads)).mono ?_
    rintro _ _ ⟨positive, bs, rest, length, fitting, -⟩
    exact ⟨head, bs, rest, positive, ⟨behind, opens, fitting⟩, length⟩
  rcases outcome : run (body factory) ⟨text, m, g.clear⟩ with ⟨fault | read, reader⟩ <;>
    rw [Ends, outcome] at ended
  · exact .inr ⟨fault, reader, rfl, ended⟩
  · exact .inl ended

end Reading

namespace Objective

variable [Numeral α] [Scalar α] {f : Objective α} {factory : Factory α}

theorem Reachable.of_read (reached : Reachable f) {text : List Char} {m : Memory α}
    {result : Except (Fault α) (Handle × List Handle)} {reader : Reader α}
    (read : (Reading.objective factory).run ⟨text, m, f⟩ = (result, reader)) : Reachable reader.objective := by
  have next := reached.step (.read factory text m)
  rwa [read] at next

/-- What a text states is read. Every other text is refused with a format error, unless what it states does not
fit together; then it is refused with the error of the registration. -/
theorem Reachable.reading_refusals (reached : Reachable f) (restores : ∀ fault, ¬factory.Raises fault)
    (text : List Char) (m : Memory α) :
    ((∃ read, ((Reading.objective factory).run ⟨text, m, f⟩).1 = .ok read) ↔
      ∃ head bs rest, factory.States text head bs rest) ∧
    ∀ fault, (((Reading.objective factory).run ⟨text, m, f⟩).1 = .error fault →
        fault.category = "StreamFormatError" ∨ factory.Unfit text fault) ∧
      (factory.Unfit text fault → ((Reading.objective factory).run ⟨text, m, f⟩).1 = .error fault) := by
  have threads := reached.wellFormed.threads
  rcases Reading.objective_cases threads factory text m with
    ⟨head, bs, rest, states⟩ | ⟨fault, reader, failed, reason⟩
  · have read := Reading.run_objective_states (m := m) threads states
    refine ⟨⟨fun _ => ⟨head, bs, rest, states⟩, fun _ => ⟨_, by rw [read]⟩⟩, fun fault =>
      ⟨fun failed => ?_, Reading.run_objective_unfit threads⟩⟩
    rw [read] at failed
    cases failed
  · have refused := congrArg Prod.fst (Reading.run_objective_error failed)
    refine ⟨⟨?_, ?_⟩, fun other => ⟨fun failed => ?_, Reading.run_objective_unfit threads⟩⟩
    · rintro ⟨read, succeeded⟩
      cases refused.symm.trans succeeded
    · rintro ⟨head, bs, rest, states⟩
      have read := congrArg Prod.fst (Reading.run_objective_states (m := m) threads states)
      cases refused.symm.trans read
    · cases refused.symm.trans failed
      rcases reason with format | raised | unfit
      · exact .inl format
      · exact absurd raised (restores fault)
      · exact .inr unfit

def onlyConstants : Factory Float :=
  ⟨[("Constant", ⟨Sample.basicKind "Constant", fun _ => .ok (Sample.constant 1)⟩)]⟩

theorem restores_onlyConstants (fault : Fault Float) : ¬onlyConstants.Raises fault := by
  rintro ⟨name, cls, payload, found, raised⟩
  obtain ⟨⟨known, cls'⟩, member, rfl⟩ := Option.map_eq_some_iff.1 found
  cases List.mem_singleton.1 (List.mem_of_find?_eq_some member)
  cases raised

def emptyPart : List Char :=
  (Registry.unlines [streamMagic, "1", typeFormat, "0", "1", "0", "0.0", "0", "0", ""]).toList

def secondArgument : List Char :=
  (Registry.unlines [streamMagic, "1", typeFormat, "1", "1", "1", "0.0", "1", "0", "0.5", "Constant", "2", "0 0",
    ""]).toList

def refusal (text : List Char) : Option String :=
  match ((Reading.objective onlyConstants).run ⟨text, ⟨[], []⟩, ofThreads 1⟩).1 with
  | .ok _ => none
  | .error fault => some fault.category

theorem refusal_emptyPart : refusal emptyPart = some "ValueError" := by decide +kernel

theorem emptyPart_unfit : ∃ fault, onlyConstants.Unfit emptyPart fault ∧ fault.category = "ValueError" := by
  obtain ⟨-, refused⟩ := Reachable.reading_refusals (.new (show new? 1 = .ok (ofThreads 1) from rfl))
    restores_onlyConstants emptyPart ⟨[], []⟩
  have category := refusal_emptyPart
  unfold refusal at category
  split at category
  · cases category
  · rename_i fault failed
    rw [Option.some.injEq] at category
    refine ⟨fault, ((refused fault).1 failed).resolve_left fun format => ?_, category⟩
    rw [category] at format
    exact absurd format (by decide)

/-- Texts that are refused with errors of other categories. -/
theorem refused_otherwise : (∀ fault, ¬onlyConstants.Raises fault) ∧ Reachable (ofThreads (α := Float) 1) ∧
    refusal emptyPart = some "ValueError" ∧ refusal secondArgument = some "ArityMismatch" :=
  ⟨restores_onlyConstants, .new (show new? 1 = .ok (ofThreads 1) from rfl), refusal_emptyPart, by decide +kernel⟩

end Objective

end Descent
