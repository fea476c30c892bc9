import Rendezvous.Name
import Rendezvous.Network.Stream

namespace Rendezvous

inductive Claim where
  | unmade
  -- The request waits at the lease; the consumer may have stopped waiting.
  | asked (awaited : Bool)
  | held (awaited : Bool)
  | given (stream : Stream)
  | settled
deriving DecidableEq, Repr

inductive Taking where
  | waiting
  | nothing
  | got (stream : Stream)
deriving DecidableEq, Repr

inductive LeaseEvent where
  | claimed
  | closed
deriving DecidableEq, Repr

structure Handle where
  name : Name
  peer : Peer
  closed : Bool := false
  leased : Bool := true
  claim : Claim := .unmade
deriving DecidableEq

namespace Handle

def close (h : Handle) : Handle := { h with closed := true }

def take (h : Handle) : Bool × Handle :=
  if h.closed then (false, h)
  else
    match h.claim with
    | .unmade =>
      if h.leased then (true, { h with claim := .asked true })
      else (false, { h with claim := .settled })
    | _ => (false, h)

def taking (h : Handle) : Taking :=
  match h.claim with
  | .given s => .got s
  | .settled => .nothing
  | _ => .waiting

def pickUp (h : Handle) : Handle := { h with claim := .settled }

-- The consumer stops waiting; a connection already on its way to it is left over.
def abandonTake (h : Handle) : Option Stream × Handle :=
  match h.claim with
  | .asked _ => (none, { h with claim := .asked false })
  | .held _ => (none, { h with claim := .held false })
  | .given s => (some s, { h with claim := .settled })
  | _ => (none, h)

-- What the provider finds at its lease, and the registration after it has looked. A request to
-- leave comes before a claim.
def event (h : Handle) : Option LeaseEvent × Handle :=
  if h.closed then (some .closed, h)
  else
    match h.claim with
    | .asked w => (some .claimed, { h with claim := .held w })
    | _ => (none, h)

def handOver (h : Handle) (s : Stream) : Bool × Handle :=
  match h.claim with
  | .held true => (true, { h with claim := .given s })
  | .held false => (false, { h with claim := .settled })
  | _ => (false, h)

def dropClaim (h : Handle) : Handle :=
  match h.claim with
  | .held _ => { h with claim := .settled }
  | _ => h

def dropLease (h : Handle) : Handle :=
  match h.claim with
  | .asked _ => { h with leased := false, claim := .settled }
  | _ => { h with leased := false }

end Handle
end Rendezvous
