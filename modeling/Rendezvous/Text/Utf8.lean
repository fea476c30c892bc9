import Rendezvous.Bytes

namespace Rendezvous.Text.Utf8

-- The bytes that must follow, as the range of the next one and the number of plain continuation
-- bytes after it.
structure Owed where
  low : UInt8
  high : UInt8
  more : Nat
deriving DecidableEq, Repr

-- What a byte at the start of a character leaves owed; the inner `none` stands for nothing.
def lead (b : UInt8) : Option (Option Owed) :=
  if b < 0x80 then some none
  else if 0xC2 ≤ b ∧ b ≤ 0xDF then some (some ⟨0x80, 0xBF, 0⟩)
  else if b = 0xE0 then some (some ⟨0xA0, 0xBF, 1⟩)
  else if b = 0xED then some (some ⟨0x80, 0x9F, 1⟩)
  else if 0xE1 ≤ b ∧ b ≤ 0xEF then some (some ⟨0x80, 0xBF, 1⟩)
  else if b = 0xF0 then some (some ⟨0x90, 0xBF, 2⟩)
  else if 0xF1 ≤ b ∧ b ≤ 0xF3 then some (some ⟨0x80, 0xBF, 2⟩)
  else if b = 0xF4 then some (some ⟨0x80, 0x8F, 2⟩)
  else none

def step (owed : Option Owed) (b : UInt8) : Option (Option Owed) :=
  match owed with
  | none => lead b
  | some o =>
    if o.low ≤ b ∧ b ≤ o.high then
      some (if o.more = 0 then none else some ⟨0x80, 0xBF, o.more - 1⟩)
    else none

def advance : Option Owed → Bytes → Option (Option Owed)
  | owed, [] => some owed
  | owed, b :: bs => (step owed b).bind fun owed => advance owed bs

end Rendezvous.Text.Utf8
