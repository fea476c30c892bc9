import Rendezvous.Name
import Rendezvous.Network.Peer

namespace Rendezvous

inductive Role where
  | provider
  | consumer
deriving DecidableEq, Repr

def Role.display : Role → String
  | provider => "provider"
  | consumer => "consumer"

structure AccessRequest where
  role : Role
  name : Name
  peer : Peer
deriving DecidableEq

abbrev Ruling := AccessRequest → Option String

-- A policy is asked once in a session, so that what it says may depend on the session in any way: on what
-- it was asked before, on the time, on since when the peer is connected.
abbrev Policy := Nat → Ruling

namespace Policy

def allowAll : Policy := fun _ _ => none

def Steady (p : Policy) : Prop := ∀ i j, p i = p j

structure Rule where
  role : Option Role := none
  name : Option String := none
  carrier : Option Carrier := none
  peer : Option String := none
  reason : String := "denied"
deriving DecidableEq, Repr

def Rule.applies (r : Rule) (q : AccessRequest) : Bool :=
  r.role.all (· == q.role) && r.name.all (· == q.name.text) &&
    r.carrier.all (· == q.peer.carrier) && r.peer.all (· == q.peer.display)

def ofRules (rules : List Rule) : Policy := fun _ q =>
  (rules.find? (·.applies q)).map Rule.reason

end Policy
end Rendezvous
