import Rendezvous.ByteQueue
import Rendezvous.WebSocket.Message

namespace Rendezvous.WebSocket

inductive Side where
  | server
  | client
deriving DecidableEq, Repr

inductive Stage where
  | active
  | closedByUs
  | closedByPeer
  | closeAcknowledged
  | terminated
deriving DecidableEq, Repr

def Stage.canRead : Stage → Bool
  | active | closedByUs => true
  | _ => false

structure Pipe where
  bytes : ByteQueue := {}
  writerGone : Bool := false
  readerGone : Bool := false
deriving DecidableEq, Repr

structure Endpoint where
  side : Side
  stage : Stage := .active
  undecoded : Bytes := []
  fragments : Option Fragments := none
  unwritten : Bytes := []
  answer : Option Frame := none
  ended : Bool := false
deriving DecidableEq, Repr

namespace Endpoint

def writeBuffer : Nat := 128 * 1024

def writeOut (e : Endpoint) (out : Pipe) : Except Error Unit × Endpoint × Pipe :=
  if e.unwritten = [] then (.ok (), e, out)
  else if out.readerGone then (.error (.fault ⟨.brokenPipe, none⟩), e, out)
  else (.ok (), { e with unwritten := [] }, { out with bytes := out.bytes.append e.unwritten })

-- The mask of a client's frames. Any mask will do.
def clientMask : Mask := ⟨0x5A, 0xA5, 0x3C, 0xC3⟩

def enqueue (e : Endpoint) (out : Pipe) (f : Frame) : Except Error Unit × Endpoint × Pipe :=
  let f := if e.side = .client then { f with mask := some clientMask } else f
  let e := { e with unwritten := e.unwritten ++ f.encode }
  if writeBuffer < e.unwritten.length then e.writeOut out else (.ok (), e, out)

-- Encodes the answer that waits, if there is one. A server that has nothing more to read then ends
-- the connection.
def settleAnswer (e : Endpoint) (out : Pipe) : Except Error Unit × Endpoint × Pipe :=
  let (r, e, out) := match e.answer with
    | some f => { e with answer := none }.enqueue out f
    | none => (.ok (), e, out)
  match r with
  | .error err => (.error err, e, out)
  | .ok () =>
    if e.side = .server && !e.stage.canRead then
      match e.writeOut out with
      | (.ok (), e, out) => (.error .connectionClosed, { e with stage := .terminated }, out)
      | failed => failed
    else (.ok (), e, out)

def flush (e : Endpoint) (out : Pipe) : Except Error Unit × Endpoint × Pipe :=
  match e.settleAnswer out with
  | (.ok (), e, out) => e.writeOut out
  | failed => failed

-- Keeps an answer to be sent; an answer to a close is not replaced.
def keepAnswer (e : Endpoint) (f : Frame) : Endpoint :=
  match e.answer with
  | some { opcode := .close, .. } => e
  | _ => { e with answer := some f }

def closeFrame (reason : Option CloseReason) : Frame :=
  { opcode := .close, payload := CloseReason.payload reason }

def close (e : Endpoint) (out : Pipe) (reason : Option CloseReason) :
    Except Error Unit × Endpoint × Pipe :=
  if e.stage = .active then
    match { e with stage := .closedByUs }.enqueue out (closeFrame reason) with
    | (.ok (), e, out) => e.flush out
    | failed => failed
  else e.flush out

def send (e : Endpoint) (out : Pipe) (m : Message) : Except Error Unit × Endpoint × Pipe :=
  if e.stage = .terminated then (.error .alreadyClosed, e, out)
  else if e.stage ≠ .active then (.error (.violation .sendAfterClosing), e, out)
  else
    let data (opcode : Opcode) (payload : Bytes) : Except Error Unit × Endpoint × Pipe :=
      match e.enqueue out { opcode, payload } with
      | (.ok (), e, out) =>
        let answered := e.answer.isSome
        match e.settleAnswer out with
        | (.ok (), e, out) => if answered then e.flush out else (.ok (), e, out)
        | failed => failed
      | failed => failed
    match m with
    | .text s => data .text (Bytes.ofText s)
    | .binary bs => data .binary bs
    | .ping bs => data .ping bs
    | .pong bs => (e.keepAnswer { opcode := .pong, payload := bs }).settleAnswer out
    | .close reason => e.close out reason

def acceptedReason (r : CloseReason) : CloseReason :=
  if r.isAllowed then r else ⟨1002, "Protocol violation"⟩

def receiveClose (e : Endpoint) (reason : Option CloseReason) : Option Message × Endpoint :=
  match e.stage with
  | .active =>
    let reason := reason.map acceptedReason
    (some (.close reason), { e with stage := .closedByPeer }.keepAnswer (closeFrame reason))
  | .closedByUs => (some (.close reason), { e with stage := .closeAcknowledged })
  | _ => (none, e)

def receiveData (e : Endpoint) (f : Frame) : Except Error (Option Message) × Endpoint :=
  let gather (fs : Fragments) : Except Error (Option Message) × Endpoint :=
    match fs.add f.payload with
    | .error err => (.error err, e)
    | .ok fs =>
      if f.final then (fs.message.map some, { e with fragments := none })
      else (.ok none, { e with fragments := some fs })
  match f.opcode, e.fragments with
  | .continuation, none => (.error (.violation .unexpectedContinuation), e)
  | .continuation, some fs => gather fs
  | op, some _ => (.error (.violation (.expectedFragment op.display)), e)
  | op, none => gather { isText := op = .text }

def receive (e : Endpoint) (f : Frame) : Except Error (Option Message) × Endpoint :=
  let refuse (v : Violation) : Except Error (Option Message) × Endpoint :=
    (.error (.violation v), e)
  if e.side = .server ∧ f.mask = none then refuse .unmaskedFrameFromClient
  else if !e.stage.canRead then refuse .receivedAfterClosing
  else if f.reserved ≠ 0 then refuse .nonZeroReservedBits
  else if e.side = .client ∧ f.mask ≠ none then refuse .maskedFrameFromServer
  else if f.opcode.isControl then
    if !f.final then refuse .fragmentedControlFrame
    else if 125 < f.payload.length then refuse .controlFrameTooBig
    else
      match f.opcode with
      | .close =>
        match CloseReason.ofPayload f.payload with
        | .error err => (.error err, e)
        | .ok reason => let (m, e) := e.receiveClose reason; (.ok m, e)
      | .ping =>
        let e := if e.stage = .active then
          e.keepAnswer { opcode := .pong, payload := f.payload } else e
        (.ok (some (.ping f.payload)), e)
      | _ => (.ok (some (.pong f.payload)), e)
  else e.receiveData f

inductive Event where
  | waits
  | message (m : Message)
  | failed (e : Error)
  | ended
deriving DecidableEq, Repr

def lost (e : Endpoint) : Error × Endpoint :=
  let cause := match e.stage with
    | .closedByPeer | .closeAcknowledged => .connectionClosed
    | _ => .violation .resetWithoutClosing
  (cause, { e with stage := .terminated })

def takeIn (e : Endpoint) (inward : Pipe) : Endpoint × Pipe :=
  if inward.bytes.isEmpty then (e, inward)
  else
    ({ e with undecoded := e.undecoded ++ inward.bytes.toList }, { inward with bytes := {} })

-- What has to be done before the next frame is read: an answer that waits is sent, and a server
-- that has nothing more to read ends the connection.
def prepare (e : Endpoint) (out : Pipe) : Except Error Unit × Endpoint × Pipe :=
  if e.answer.isSome then e.flush out
  else if e.side = .server && !e.stage.canRead then
    (.error .connectionClosed, { e with stage := .terminated }, out)
  else (.ok (), e, out)

def readOn (writerGone : Bool) (e : Endpoint) (out : Pipe) (bytes : Bytes) :
    Except Error (Option Message) × Endpoint × Pipe :=
  match e.prepare out with
  | (.error err, e, out) => (.error err, e, out)
  | (.ok (), e, out) =>
    match _ : Frame.decode bytes with
    | .failed err => (.error err, { e with undecoded := bytes }, out)
    | .incomplete =>
      let e := { e with undecoded := bytes }
      if writerGone then (.error e.lost.1, e.lost.2, out) else (.ok none, e, out)
    | .frame f rest =>
      match e.receive f with
      | (.error err, e) => (.error err, { e with undecoded := rest }, out)
      | (.ok (some m), e) => (.ok (some m), { e with undecoded := rest }, out)
      | (.ok none, e) => readOn writerGone e out rest
termination_by bytes.length
decreasing_by exact Frame.length_of_decode ‹_›

def read (e : Endpoint) (inward out : Pipe) : Event × Endpoint × Pipe × Pipe :=
  if e.ended then (.ended, e, inward, out)
  else if e.stage = .terminated then (.ended, { e with ended := true }, inward, out)
  else
    let (e, inward) := e.takeIn inward
    match readOn inward.writerGone e out e.undecoded with
    | (.ok (some m), e, out) => (.message m, e, inward, out)
    | (.ok none, e, out) => (.waits, e, inward, out)
    | (.error err, e, out) =>
      (if err.isClosed then .ended else .failed err, { e with ended := true }, inward, out)

def readAllOn : Nat → Endpoint → Pipe → Pipe → List Event × Endpoint × Pipe × Pipe
  | 0, e, inward, out => ([], e, inward, out)
  | bound + 1, e, inward, out =>
    match e.read inward out with
    | (.message m, e, inward, out) =>
      let (evs, rest) := readAllOn bound e inward out
      (.message m :: evs, rest)
    | (.waits, rest) => ([], rest)
    | (ev, rest) => ([ev], rest)

def readAll (e : Endpoint) (inward out : Pipe) : List Event × Endpoint × Pipe × Pipe :=
  readAllOn (e.undecoded.length + inward.bytes.size + 2) e inward out

def deliver (e : Endpoint) (out : Pipe) (m : Message) : Bool × Endpoint × Pipe :=
  match e.send out m with
  | (.error _, e, out) => (false, e, out)
  | (.ok (), e, out) =>
    match e.flush out with
    | (.ok (), e, out) => (true, e, out)
    | (.error err, e, out) => (err == .connectionClosed, e, out)

end Endpoint
end Rendezvous.WebSocket
