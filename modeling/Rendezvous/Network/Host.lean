import Rendezvous.Fault
import Rendezvous.Network.NumericHost

namespace Rendezvous

structure Host where
  bind : SocketAddress → Except Fault Unit
  connect : SocketAddress → Except Fault Unit
  setNoDelay : SocketAddress → Except Fault Unit := fun _ => .ok ()
  lookup : String → Nat → Except Fault SocketAddress

namespace Host

-- Whether a host that has no address of its own may listen on an address. It may on all of the
-- older family, also where they are written as ones of the newer family, and of that one on those that
-- stand for no single host.
def isOpen : SocketAddress → Bool
  | .v4 _ _ => true
  | .v6 gs _ _ =>
    gs.all (· == 0) || gs.take 6 == [0, 0, 0, 0, 0, 0xFFFF] || 0xFF00 ≤ gs.headD 0

def isolated : Host where
  bind a :=
    if isOpen a then .ok ()
    else .error ⟨.addrNotAvailable, some "Cannot assign requested address (os error 99)"⟩
  connect _ := .error ⟨.networkUnreachable, some "Network is unreachable (os error 101)"⟩
  lookup name port :=
    if name.toLower = "localhost" then .ok (.v4 [127, 0, 0, 1] port)
    else .error ⟨.uncategorized,
      some "failed to lookup address information: Temporary failure in name resolution"⟩

def occupying (h : Host) (taken : SocketAddress) : Host :=
  { h with
    bind := fun a =>
      if a.overlaps taken then
        .error ⟨.addrInUse, some "Address already in use (os error 98)"⟩
      else h.bind a }

def splitHostPort (s : String) : Option (String × String) :=
  let back := s.toList.reverse
  match back.dropWhile (· ≠ ':') with
  | [] => none
  | _ :: front =>
    some (String.ofList front.reverse, String.ofList (back.takeWhile (· ≠ ':')).reverse)

def port? (s : String) : Option Nat :=
  let ds := match s.toList with
    | '+' :: ds => ds
    | ds => ds
  SocketAddress.whole (SocketAddress.number 10 0xFFFF none true) ds

def resolve (h : Host) (s : String) : Except Fault SocketAddress :=
  match SocketAddress.ofString? s with
  | some a => .ok a
  | none =>
    match splitHostPort s with
    | none => .error ⟨.invalidInput, some "invalid socket address"⟩
    | some (name, p) =>
      match port? p with
      | none => .error ⟨.invalidInput, some "invalid port value"⟩
      | some p =>
        if name.toList.contains '\x00' then
          .error ⟨.invalidInput, some "file name contained an unexpected NUL byte"⟩
        else
          match NumericHost.address? name p with
          | some a => .ok a
          | none => h.lookup name p

def dial (h : Host) (s : String) : Except Fault SocketAddress := do
  let a ← h.resolve s
  h.connect a
  pure a

def listen (h : Host) (s : String) : Except Fault SocketAddress := do
  let a ← h.resolve s
  h.bind a
  pure a

end Host
end Rendezvous
