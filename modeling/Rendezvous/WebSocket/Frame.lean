import Rendezvous.Bytes
import Rendezvous.WebSocket.Error

namespace Rendezvous.WebSocket

inductive Opcode where
  | continuation
  | text
  | binary
  | close
  | ping
  | pong
deriving DecidableEq, Repr

namespace Opcode

def code : Opcode → Nat
  | continuation => 0
  | text => 1
  | binary => 2
  | close => 8
  | ping => 9
  | pong => 10

def ofCode? : Nat → Option Opcode
  | 0 => some continuation
  | 1 => some text
  | 2 => some binary
  | 8 => some close
  | 9 => some ping
  | 10 => some pong
  | _ => none

def isControl : Opcode → Bool
  | close | ping | pong => true
  | _ => false

def display : Opcode → String
  | continuation => "CONTINUE"
  | text => "TEXT"
  | binary => "BINARY"
  | close => "CLOSE"
  | ping => "PING"
  | pong => "PONG"

end Opcode

structure Mask where
  a : UInt8
  b : UInt8
  c : UInt8
  d : UInt8
deriving DecidableEq, Repr

def Mask.next (m : Mask) : Mask := ⟨m.b, m.c, m.d, m.a⟩

def Mask.apply : Mask → Bytes → Bytes
  | _, [] => []
  | m, x :: xs => (x ^^^ m.a) :: m.next.apply xs

structure Frame where
  final : Bool := true
  reserved : Nat := 0
  opcode : Opcode
  mask : Option Mask := none
  payload : Bytes
deriving DecidableEq, Repr

namespace Frame

def bigEndian : Nat → Nat → Bytes
  | 0, _ => []
  | k + 1, n => UInt8.ofNat (n / 256 ^ k % 256) :: bigEndian k n

def ofBigEndian (bs : Bytes) : Nat := bs.foldl (fun n b => n * 256 + b.toNat) 0

def lengthBytes (masked : Bool) (n : Nat) : Bytes :=
  let bit := if masked then 128 else 0
  if n < 126 then [UInt8.ofNat (bit + n)]
  else if n < 65536 then UInt8.ofNat (bit + 126) :: bigEndian 2 n
  else UInt8.ofNat (bit + 127) :: bigEndian 8 n

def encode (f : Frame) : Bytes :=
  let first := (if f.final then 128 else 0) + f.reserved * 16 + f.opcode.code
  UInt8.ofNat first :: (lengthBytes f.mask.isSome f.payload.length ++
    match f.mask with
    | some m => [m.a, m.b, m.c, m.d] ++ m.apply f.payload
    | none => f.payload)

def maxPayload : Nat := 16 * 1024 * 1024

inductive Decoded where
  | incomplete
  | failed (e : Error)
  | frame (f : Frame) (rest : Bytes)
deriving DecidableEq, Repr

def decodePayload (final : Bool) (reserved : Nat) (opcode : Opcode) (mask : Option Mask)
    (size : Nat) (bs : Bytes) : Decoded :=
  if maxPayload < size then .failed (.messageTooLong size maxPayload)
  else
    let raw := bs.take size
    if raw.length < size then .incomplete
    else
      let payload := (mask.map fun m => m.apply raw).getD raw
      .frame { final, reserved, opcode, mask, payload } (bs.drop size)

def decodeMask (final : Bool) (reserved code : Nat) (masked : Bool) (size : Nat) (bs : Bytes) :
    Decoded :=
  let found : Option (Option Mask × Bytes) :=
    if masked then
      match bs with
      | a :: b :: c :: d :: rest => some (some ⟨a, b, c, d⟩, rest)
      | _ => none
    else some (none, bs)
  match found with
  | none => .incomplete
  | some (mask, rest) =>
    match Opcode.ofCode? code with
    | none => .failed (.violation (.invalidOpcode code))
    | some opcode => decodePayload final reserved opcode mask size rest

def decodeLength (final : Bool) (reserved code : Nat) (masked : Bool) (short extra : Nat)
    (bs : Bytes) : Decoded :=
  let written := bs.take extra
  if written.length < extra then .incomplete
  else
    let size := if extra = 0 then short else ofBigEndian written
    decodeMask final reserved code masked size (bs.drop extra)

def decode : Bytes → Decoded
  | x :: y :: bs =>
    let short := y.toNat % 128
    let extra := if short = 126 then 2 else if short = 127 then 8 else 0
    decodeLength (128 ≤ x.toNat) (x.toNat / 16 % 8) (x.toNat % 16) (128 ≤ y.toNat) short extra bs
  | _ => .incomplete

theorem length_of_decodePayload {final : Bool} {reserved : Nat} {opcode : Opcode}
    {mask : Option Mask} {size : Nat} {bs rest : Bytes} {f : Frame}
    (h : decodePayload final reserved opcode mask size bs = .frame f rest) :
    rest.length ≤ bs.length := by
  simp only [decodePayload] at h
  split at h
  · cases h
  · split at h
    · cases h
    · cases h
      simp

theorem length_of_decodeMask {final masked : Bool} {reserved code size : Nat} {bs rest : Bytes}
    {f : Frame} (h : decodeMask final reserved code masked size bs = .frame f rest) :
    rest.length ≤ bs.length := by
  simp only [decodeMask] at h
  split at h
  · cases h
  · next found =>
    split at h
    · cases h
    · have within := length_of_decodePayload h
      split at found
      · split at found <;> simp_all
        omega
      · simp_all

theorem length_of_decodeLength {final masked : Bool} {reserved code short extra : Nat}
    {bs rest : Bytes} {f : Frame}
    (h : decodeLength final reserved code masked short extra bs = .frame f rest) :
    rest.length ≤ bs.length := by
  simp only [decodeLength] at h
  split at h
  · cases h
  · have within := length_of_decodeMask h
    simp only [List.length_drop] at within
    omega

theorem length_of_decode {bs rest : Bytes} {f : Frame} (h : decode bs = .frame f rest) :
    rest.length < bs.length := by
  unfold decode at h
  split at h
  · have within := length_of_decodeLength h
    simp only [List.length_cons]
    omega
  · cases h

end Frame

structure CloseReason where
  code : Nat
  reason : String
deriving DecidableEq, Repr

namespace CloseReason

def isAllowed (r : CloseReason) : Bool :=
  (1000 ≤ r.code && r.code ≤ 1003) || (1007 ≤ r.code && r.code ≤ 1013) ||
    (3000 ≤ r.code && r.code ≤ 4999)

def payload : Option CloseReason → Bytes
  | none => []
  | some r => Frame.bigEndian 2 r.code ++ Bytes.ofText r.reason

def ofPayload : Bytes → Except Error (Option CloseReason)
  | [] => .ok none
  | [_] => .error (.violation .invalidCloseSequence)
  | x :: y :: bs =>
    match Bytes.text? bs with
    | some reason => .ok (some ⟨Frame.ofBigEndian [x, y], reason⟩)
    | none => .error .notUtf8

end CloseReason
end Rendezvous.WebSocket
