import Mathlib
import Descent.Proofs.Registry.Visible
import Descent.Proofs.Run.Agreement

namespace Descent

variable {α : Type}

inductive Call (α : Type) where
  | mutate (c : Mutation α) (positive : c.Positive) (m : Memory α)
  | clear
  | close
  | read (factory : Factory α) (text : List Char) (m : Memory α)
  | copy (m : Memory α)
  | ask (m : Memory α) (q : Query α)
  | minimize (m : Memory α) (setup : (n : Nat) → RunSetup α n) (method : Method) (iterations : Int)

inductive Outcome (α : Type) where
  | done
  | mutated (result : Except (Fault α) Unit)
  | read (result : Except (Fault α) (Handle × List Handle)) (rest : List Char) (m : Memory α)
  | copied (result : Except (Fault α) Unit)
  | answered (n : Nat) (result : Except (Fault α) (Answer α n))
  | minimized (n : Nat) (result : Except (Fault α) (Solution α n)) (m : Memory α)

namespace Objective

variable [Scalar α]

structure Alike (f g : Objective α) : Prop where
  registry : f.SameRegistry g
  wellFormed : f.WellFormed
  coherent : f.workspace.Coherent f.toRegistry ∧ g.workspace.Coherent g.toRegistry

theorem Alike.of_steps {f g f' g' : Objective α} (alike : f.Alike g) (registry : f'.SameRegistry g')
    (next : Step f f') (next' : Step g g') : f'.Alike g' := by
  have same : f.toRegistry = g.toRegistry := alike.registry
  have holds := invariant_coherent.step ⟨alike.wellFormed, alike.coherent.1⟩ next
  have holds' := invariant_coherent.step ⟨same ▸ alike.wellFormed, alike.coherent.2⟩ next'
  exact ⟨registry, holds.1, holds.2, holds'.2⟩

variable [Numeral α]

def call (f : Objective α) : Call α → Outcome α × Objective α
  | .mutate c _ m => (.mutated (c.edit.run m f).1, (c.edit.run m f).2)
  | .clear => (.done, f.clear)
  | .close => (.done, f.close)
  | .read factory text m =>
      let (result, reader) := (Reading.objective factory).run ⟨text, m, f⟩
      (.read result reader.text reader.memory, reader.objective)
  | .copy m => match f.copy m with
      | .ok g => (.copied (.ok ()), g)
      | .error fault => (.copied (.error fault), f)
  | .ask m q => (.answered f.scalars (f.ask m q).1, (f.ask m q).2)
  | .minimize m setup method iterations =>
      let (result, g, m') := f.minimize m (setup f.scalars) method iterations
      (.minimized f.scalars result m', g)

def runCalls (f : Objective α) : List (Call α) → List (Outcome α × Registry α)
  | [] => []
  | c :: rest => ((f.call c).1, (f.call c).2.toRegistry) :: runCalls (f.call c).2 rest

variable {f g : Objective α}

theorem Alike.call (alike : f.Alike g) (c : Call α) :
    (f.call c).1 = (g.call c).1 ∧ (f.call c).2.Alike (g.call c).2 := by
  have same : f.toRegistry = g.toRegistry := alike.registry
  cases c with
  | mutate c positive m =>
      obtain ⟨result, registry⟩ := c.blind m f g alike.registry
      exact ⟨congrArg Outcome.mutated result, alike.of_steps registry (.mutate positive m) (.mutate positive m)⟩
  | clear =>
      refine ⟨rfl, alike.of_steps ?_ .clear .clear⟩
      simp only [SameRegistry, Objective.call, Objective.clear, same]
  | close => exact ⟨rfl, alike.of_steps same .close .close⟩
  | read factory text m =>
      obtain ⟨result, like⟩ := Reading.agree_objective factory ⟨text, m, f⟩ ⟨text, m, g⟩
        ⟨rfl, rfl, alike.registry⟩
      refine ⟨?_, alike.of_steps like.registry (.read factory text m) (.read factory text m)⟩
      simp only [Objective.call, Reading.run, result, like.text, like.memory]
  | copy m =>
      have copies : f.copy m = g.copy m := by simp only [copy, same]
      simp only [Objective.call]
      cases copied : f.copy m with
      | error fault =>
          rw [← copies, copied]
          exact ⟨rfl, alike⟩
      | ok h =>
          rw [← copies, copied]
          exact ⟨rfl, alike.of_steps rfl (.copy copied) (.copy (copies ▸ copied))⟩
  | ask m q =>
      refine ⟨?_, alike.of_steps same (.ask m q) (.ask m q)⟩
      simp only [Objective.call, ask_eq_meaning alike.coherent.1, ask_eq_meaning alike.coherent.2]
      rw [same]
  | minimize m setup method iterations =>
      obtain ⟨r, w⟩ := f
      obtain ⟨r', w'⟩ := g
      obtain rfl : r = r' := same
      obtain ⟨result, like⟩ := Minimization.agree_solve (setup r.scalars) iterations method ⟨w, m⟩ ⟨w', m⟩
        ⟨rfl, alike.coherent⟩
      exact ⟨congrArg₂ (Outcome.minimized r.scalars) result like.memory, rfl, alike.wellFormed, like.coherent⟩

theorem Alike.runCalls (alike : f.Alike g) (calls : List (Call α)) : f.runCalls calls = g.runCalls calls := by
  induction calls generalizing f g with
  | nil => rfl
  | cons c rest ih =>
      obtain ⟨outcome, alike⟩ := alike.call c
      have registry : (f.call c).2.toRegistry = (g.call c).2.toRegistry := alike.registry
      rw [Objective.runCalls, Objective.runCalls, outcome, registry, ih alike]

end Objective

end Descent
