import Rendezvous.WebSocket.Endpoint

namespace Rendezvous.WebSocket

inductive Arrival where
  | data (bs : Bytes)
  | control
  | closed
  | failed (e : Error)
deriving DecidableEq, Repr

def Endpoint.Event.arrival? : Endpoint.Event → Option Arrival
  | .waits => none
  | .message (.text s) => some (.data (Bytes.ofText s))
  | .message (.binary bs) => some (.data bs)
  | .message (.ping _) => some .control
  | .message (.pong _) => some .control
  | .message (.close _) => some .closed
  | .failed e => some (if e.isClosed then .closed else .failed e)
  | .ended => some .closed

structure ByteView where
  held : Bytes := []
  closed : Bool := false
deriving DecidableEq, Repr

namespace ByteView

def ready? (v : ByteView) (limit : Nat) : Option (Bytes × ByteView) :=
  if v.held ≠ [] then some (v.held.take limit, { v with held := v.held.drop limit })
  else if v.closed then some ([], v)
  else none

def take (v : ByteView) : Arrival → Except Fault ByteView
  | .data bs => .ok { v with held := bs }
  | .control => .ok v
  | .closed => .ok { v with closed := true }
  | .failed e => .error (e.toFault .unexpectedEof)

-- One read of at most so many bytes, from a source of arrivals that may have to wait, with a bound
-- on the arrivals that it looks at.
def readFrom {σ : Type} (next : σ → Option Arrival × σ) (limit : Nat) :
    Nat → ByteView → σ → Attempt Bytes × ByteView × σ
  | bound, v, s =>
    match v.ready? limit with
    | some (bs, v) => (.done bs, v, s)
    | none =>
      match bound with
      | 0 => (.waits, v, s)
      | bound + 1 =>
        match next s with
        | (none, s) => (.waits, v, s)
        | (some a, s) =>
          match v.take a with
          | .ok v => readFrom next limit bound v s
          | .error f => (.fails f, v, s)

def read (limit : Nat) (v : ByteView) (as : List Arrival) : Attempt Bytes × ByteView × List Arrival :=
  readFrom (fun | [] => (none, []) | a :: as => (some a, as)) limit as.length v as

end ByteView

structure ByteStream where
  endpoint : Endpoint
  view : ByteView := {}
  inward : Pipe := {}
  outward : Pipe := {}
deriving DecidableEq, Repr

namespace ByteStream

def next (s : ByteStream) : Option Arrival × ByteStream :=
  let (ev, endpoint, inward, outward) := s.endpoint.read s.inward s.outward
  (ev.arrival?, { s with endpoint, inward, outward })

-- More than the arrivals that can still come out of the bytes that are there.
def arrivalBound (s : ByteStream) : Nat := s.endpoint.undecoded.length + s.inward.bytes.size + 2

def readWithin (bound limit : Nat) (s : ByteStream) : Attempt Bytes × ByteStream :=
  let (r, view, s) := ByteView.readFrom next limit bound s.view s
  (r, { s with view })

def read (s : ByteStream) (limit : Nat) : Attempt Bytes × ByteStream :=
  s.readWithin s.arrivalBound limit

def drainOn (arrivals limit : Nat) :
    Nat → List Bytes → ByteStream → List Bytes × Attempt Unit × ByteStream
  | 0, got, s => (got, .waits, s)
  | bound + 1, got, s =>
    match s.readWithin arrivals limit with
    | (.waits, s) => (got, .waits, s)
    | (.fails e, s) => (got, .fails e, s)
    | (.done [], s) => (got, .done (), s)
    | (.done bs, s) => drainOn arrivals limit bound (bs :: got) s

def drain (s : ByteStream) (limit : Nat) : Bytes × Attempt Unit × ByteStream :=
  let (got, stop, s) :=
    drainOn s.arrivalBound limit (s.view.held.length + s.arrivalBound) [] s
  (Bytes.joined got, stop, s)

def acted {α : Type} (s : ByteStream) (r : Except Error Unit × Endpoint × Pipe) (done : α) :
    Attempt α × ByteStream :=
  let s' := { s with endpoint := r.2.1, outward := r.2.2 }
  match r.1 with
  | .ok () => (.done done, s')
  | .error e => (.fails (e.toFault .brokenPipe), s')

def write (s : ByteStream) (bs : Bytes) : Attempt Nat × ByteStream :=
  s.acted (s.endpoint.send s.outward (.binary bs)) bs.length

-- An error that only tells of an orderly end is none.
def forgiving (forgiven : Error → Bool) (r : Except Error Unit × Endpoint × Pipe) :
    Except Error Unit × Endpoint × Pipe :=
  match r.1 with
  | .error e => if forgiven e then (.ok (), r.2) else r
  | .ok () => r

def flush (s : ByteStream) : Attempt Unit × ByteStream :=
  s.acted (forgiving (· = .connectionClosed) (s.endpoint.flush s.outward)) ()

def close (s : ByteStream) : Attempt Unit × ByteStream :=
  s.acted (forgiving Error.isClosed (s.endpoint.close s.outward none)) ()

end ByteStream
end Rendezvous.WebSocket
