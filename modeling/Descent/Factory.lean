import Descent.Term

namespace Descent

structure TermClass (α : Type) where
  kind : TermKind
  restore : String → Except (Fault α) (Term α)

structure Factory (α : Type) where
  classes : List (String × TermClass α)

namespace Factory

variable {α : Type}

def empty : Factory α := ⟨[]⟩

def find? (f : Factory α) (name : String) : Option (TermClass α) :=
  (f.classes.find? (·.1 = name)).map (·.2)

def knows (f : Factory α) (name : String) : Bool := (f.find? name).isSome

def insert (name : String) (cls : TermClass α) :
    List (String × TermClass α) → List (String × TermClass α)
  | [] => [(name, cls)]
  | (other, known) :: rest =>
      if other = name then (name, cls) :: rest else (other, known) :: insert name cls rest

def teach (f : Factory α) (cls : TermClass α) (name : Option String) : Factory α :=
  let chosen := name.getD ""
  ⟨insert (if chosen.isEmpty then cls.kind.streamName else chosen) cls f.classes⟩

/-- The first name of exactly the class of a term, its stream name if there is none. -/
def nameOf (f : Factory α) (t : Term α) : String :=
  match f.classes.find? (·.2.kind = t.kind) with
  | some (name, _) => name
  | none => t.kind.streamName

def create (f : Factory α) (name payload : String) : Except (Fault α) (Term α) :=
  match f.find? name with
  | some cls => cls.restore payload
  | none => .error (.unknownTerm name)

end Factory

end Descent
