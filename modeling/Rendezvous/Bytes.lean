namespace Rendezvous

abbrev Bytes := List UInt8

namespace Bytes

def newline : UInt8 := 10

def ofText (s : String) : Bytes := s.toByteArray.data.toList

def text? (bs : Bytes) : Option String := String.fromUTF8? ⟨bs.toArray⟩

-- Pieces that were collected with the newest first, joined in the order in which they came.
def joined (pieces : List Bytes) : Bytes := pieces.reverse.flatten

@[simp]
theorem joined_nil : joined [] = [] := rfl

@[simp]
theorem joined_cons (b : Bytes) (pieces : List Bytes) :
    joined (b :: pieces) = joined pieces ++ b := by
  simp [joined]

end Bytes
end Rendezvous
