import Rendezvous.ByteQueue
import Rendezvous.Network.Connection
import Rendezvous.Network.Peer

namespace Rendezvous

structure Stream where
  wire : Nat
  peer : Peer := {}
  pending : ByteQueue := {}
deriving DecidableEq, Repr

namespace Stream

def unread (s : Stream) (bs : Bytes) : Stream := { s with pending := s.pending.prepend bs }

-- One read of at most so many bytes. The connection is left alone while bytes are pending.
def read (s : Stream) (cs : Connections) (limit : Nat) : Attempt (Bytes × Stream × Connections) :=
  if s.pending.isEmpty then
    ((cs.get s.wire).read limit).map fun p => (p.1, s, cs.set s.wire p.2)
  else
    let (bs, pending) := s.pending.take limit
    .done (bs, { s with pending }, cs)

-- Reads at most so many bytes ahead; the result counts them. Asking for none has them at once.
def fill (s : Stream) (cs : Connections) (limit : Nat) : Attempt (Nat × Stream × Connections) :=
  if limit = 0 then .done (0, s, cs)
  else
    ((cs.get s.wire).read limit).map fun p =>
      (p.1.length, { s with pending := s.pending.append p.1 }, cs.set s.wire p.2)

def write (s : Stream) (cs : Connections) (bs : Bytes) : Attempt (Nat × Connections) :=
  ((cs.get s.wire).write bs).map fun p => (p.1, cs.set s.wire p.2)

def writeZero : Fault := ⟨.writeZero, none⟩

def advance (s : Stream) (cs : Connections) (unsent : Bytes) : Attempt (Bytes × Connections) :=
  match s.write cs unsent with
  | .waits => .waits
  | .fails e => .fails e
  | .done (n, cs') => if n = 0 then .fails writeZero else .done (unsent.drop n, cs')

-- One step on the way to having delivered all of some bytes: a write, or the flush behind the last
-- one. The result is what is left, or nothing at all once the flush is done.
def deliver (s : Stream) (cs : Connections) (unsent : Bytes) :
    Attempt (Option Bytes × Connections) :=
  if unsent = [] then (cs.get s.wire).flush.map fun _ => (none, cs)
  else (s.advance cs unsent).map fun p => (some p.1, p.2)

def close (s : Stream) (cs : Connections) : Attempt Connections :=
  ((cs.get s.wire).close).map fun c => cs.set s.wire c

def abandon (s : Stream) (cs : Connections) : Connections :=
  cs.update s.wire Connection.abandon

def content (s : Stream) (cs : Connections) : Bytes := s.pending.toList ++ (cs.get s.wire).inbox

def drainOn (limit : Nat) :
    Nat → List Bytes → Stream → Connections → List Bytes × Attempt Unit × Stream × Connections
  | 0, got, s, cs => (got, .waits, s, cs)
  | bound + 1, got, s, cs =>
    match s.read cs limit with
    | .waits => (got, .waits, s, cs)
    | .fails e => (got, .fails e, s, cs)
    | .done ([], s, cs) => (got, .done (), s, cs)
    | .done (bs, s, cs) => drainOn limit bound (bs :: got) s cs

def drain (limit : Nat) (s : Stream) (cs : Connections) :
    Bytes × Attempt Unit × Stream × Connections :=
  let (got, stop, s, cs) := drainOn limit ((s.content cs).length + 1) [] s cs
  (Bytes.joined got, stop, s, cs)

end Stream
end Rendezvous
