import Descent.Memory

namespace Descent

structure Directory where
  entries : List (Handle × Nat)

namespace Directory

def empty : Directory := ⟨[]⟩

def find? (d : Directory) (h : Handle) : Option Nat := (d.entries.find? (·.1 = h)).map (·.2)

def erase (d : Directory) (h : Handle) : Directory := ⟨d.entries.filter (·.1 ≠ h)⟩

def insert (d : Directory) (h : Handle) (i : Nat) : Directory := ⟨(d.erase h).entries ++ [(h, i)]⟩

end Directory

end Descent
