import Rendezvous.Bytes

namespace Rendezvous

def maxNameLength : Nat := 255

inductive NameError where
  | empty
  | tooLong
  | controlCharacter
deriving DecidableEq, Repr

def NameError.message : NameError → String
  | empty => "service name is empty"
  | tooLong => "service name exceeds 255 bytes"
  | controlCharacter => "service name contains control characters"

def isControl (c : Char) : Bool := c.toNat < 32 || c.toNat == 127

-- The first fault of a text as a service name: emptiness comes before length, and length before
-- the characters.
def nameFault? (s : String) : Option NameError :=
  if s = "" then some .empty
  else if maxNameLength < s.utf8ByteSize then some .tooLong
  else if s.toList.any isControl then some .controlCharacter
  else none

structure Name where
  text : String
  valid : nameFault? text = none
deriving DecidableEq

namespace Name

def ofString (s : String) : Except NameError Name :=
  match h : nameFault? s with
  | none => .ok ⟨s, h⟩
  | some e => .error e

def bytes (n : Name) : Bytes := Bytes.ofText n.text

instance : LE Name := ⟨fun a b => a.bytes ≤ b.bytes⟩

instance (a b : Name) : Decidable (a ≤ b) := inferInstanceAs (Decidable (a.bytes ≤ b.bytes))

instance : LT Name := ⟨fun a b => a.bytes < b.bytes⟩

instance (a b : Name) : Decidable (a < b) := inferInstanceAs (Decidable (a.bytes < b.bytes))

def compare (a b : Name) : Ordering :=
  if a < b then .lt else if b < a then .gt else .eq

@[ext]
theorem ext {a b : Name} (h : a.text = b.text) : a = b := by
  cases a; cases b; cases h; rfl

theorem ofString_text (n : Name) : ofString n.text = .ok n := by
  unfold ofString
  split
  · rfl
  · next e h => rw [n.valid] at h; cases h

end Name
end Rendezvous
