import Rendezvous.Name

namespace Rendezvous

structure Registration where
  handle : Nat
  name : Name
deriving DecidableEq

structure Registry where
  entries : List Registration := []
deriving DecidableEq

namespace Registry

def find? (r : Registry) (n : Name) : Option Registration :=
  r.entries.find? fun e => decide (e.name = n)

def erase (r : Registry) (n : Name) : Registry :=
  ⟨r.entries.filter fun e => decide (e.name ≠ n)⟩

def register (r : Registry) (e : Registration) : Option Registration × Registry :=
  (r.find? e.name, ⟨e :: (r.erase e.name).entries⟩)

def claim (r : Registry) (n : Name) : Option Registration × Registry := (r.find? n, r.erase n)

def unregister (r : Registry) (n : Name) (handle : Nat) : Bool × Registry :=
  match r.find? n with
  | some e => if e.handle = handle then (true, r.erase n) else (false, r)
  | none => (false, r)

def contains (r : Registry) (text : String) : Bool := r.entries.any fun e => e.name.text == text

def size (r : Registry) : Nat := r.entries.length

def names (r : Registry) : List Name :=
  (r.entries.map Registration.name).mergeSort fun a b => decide (a ≤ b)

end Registry
end Rendezvous
