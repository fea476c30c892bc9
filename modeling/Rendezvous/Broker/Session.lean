import Rendezvous.Access
import Rendezvous.Broker.Bridge
import Rendezvous.Control.LineReader

namespace Rendezvous

inductive SessionEnd where
  | providerLeft
  | providerTimedOut
  | providerEvicted
  | providerClaimed
  | bridged (bridge : Bridge)
deriving DecidableEq, Repr

inductive Ending where
  | regular (how : SessionEnd)
  | failed (cause : Error)
  | aborted
deriving DecidableEq

inductive Phase where
  | identifying (reader : LineReader) (deadline : Instant)
  | refusing (unsent : Bytes) (cause : Error)
  | closing (how : Ending) (deadline : Option Instant)
  | welcoming (handle : Nat) (unsent : Bytes)
  | idling (handle : Nat) (missed : Nat) (deadline : Instant)
  | overflowing (handle : Nat)
  | claiming (handle : Nat) (name : Name) (deadline : Instant)
  | connecting (provider : Stream) (unsent : Bytes)
  | bridging (bridge : Bridge)
  | ended (how : Ending)
deriving DecidableEq

structure Session where
  stream : Stream
  phase : Phase
deriving DecidableEq

namespace Session

def refuse (s : Session) (reply : Reply) (cause : Error) : Session :=
  { s with phase := .refusing (Bytes.ofText reply.toLine) cause }

def isOver (s : Session) : Bool :=
  match s.phase with
  | .ended _ => true
  | _ => false

def deadline? (s : Session) : Option Instant :=
  match s.phase with
  | .identifying _ t => some t
  | .closing _ t => t
  | .idling _ _ t => some t
  | .claiming _ _ t => some t
  | _ => none

end Session
end Rendezvous
