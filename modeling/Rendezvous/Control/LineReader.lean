import Rendezvous.Error

namespace Rendezvous

theorem LineReader.size_empty : 0 = ([] : Bytes).length := rfl

structure LineReader where
  -- The bytes of the line, the newest first.
  back : Bytes := []
  size : Nat := 0
  capacity : Nat := 256
  size_eq : size = back.length := by exact LineReader.size_empty
deriving DecidableEq, Repr

namespace LineReader

def held (r : LineReader) : Bytes := r.back.reverse

@[simp]
theorem length_held (r : LineReader) : r.held.length = r.size := by simp [held, r.size_eq]

def add (r : LineReader) (b : UInt8) : LineReader where
  back := b :: r.back
  size := r.size + 1
  capacity := r.capacity
  size_eq := by simp [r.size_eq]

@[simp]
theorem held_add (r : LineReader) (b : UInt8) : (r.add b).held = r.held ++ [b] := by
  simp [held, add]

inductive Verdict where
  | line (text : String) (rest : Bytes)
  | refused (cause : ProtocolError)
  | incomplete (reader : LineReader)
deriving DecidableEq

def complete (line rest : Bytes) : Verdict :=
  match Bytes.text? line with
  | some text => .line text rest
  | none => .refused .notUtf8

def feed (maxLength : Nat) (r : LineReader) : Bytes → Verdict
  | [] => .incomplete r
  | b :: bs =>
    if b = Bytes.newline then complete r.held bs
    else if maxLength ≤ r.size then .refused .lineTooLong
    else feed maxLength (r.add b) bs

def leastRoom : Nat := 256

-- The capacity for the next read: it at least doubles when too little room is left.
def grown (r : LineReader) : Nat :=
  if r.capacity - r.size < leastRoom then max (2 * r.capacity) (r.size + leastRoom)
  else r.capacity

def room (r : LineReader) : Nat := r.grown - r.size

def push (maxLength : Nat) (r : LineReader) (bs : Bytes) : Verdict :=
  feed maxLength { r with capacity := r.grown } bs

end LineReader
end Rendezvous
