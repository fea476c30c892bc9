import Rendezvous.Text.Utf8
import Rendezvous.WebSocket.Frame

namespace Rendezvous.WebSocket

inductive Message where
  | text (s : String)
  | binary (bs : Bytes)
  | ping (bs : Bytes)
  | pong (bs : Bytes)
  | close (reason : Option CloseReason)
deriving DecidableEq, Repr

structure Fragments where
  isText : Bool
  -- What they carry, the newest first.
  pieces : List Bytes := []
  size : Nat := 0
  owed : Option Text.Utf8.Owed := none
deriving DecidableEq, Repr

namespace Fragments

def maxSize : Nat := 64 * 1024 * 1024

-- Adds one more fragment. A text is refused as soon as it cannot become one.
def add (fs : Fragments) (bs : Bytes) : Except Error Fragments :=
  let size := fs.size + bs.length
  if maxSize < size then .error (.messageTooLong size maxSize)
  else
    let fs := { fs with pieces := bs :: fs.pieces, size }
    if fs.isText then
      match Text.Utf8.advance fs.owed bs with
      | some owed => .ok { fs with owed }
      | none => .error .notUtf8
    else .ok fs

def message (fs : Fragments) : Except Error Message :=
  let bs := Bytes.joined fs.pieces
  if fs.isText then
    match Bytes.text? bs with
    | some s => .ok (.text s)
    | none => .error .notUtf8
  else .ok (.binary bs)

end Fragments
end Rendezvous.WebSocket
