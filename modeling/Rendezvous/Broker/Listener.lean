import Rendezvous.Error
import Rendezvous.Network.Host
import Rendezvous.Network.Peer

namespace Rendezvous

structure Listener where
  carrier : Carrier
  address : String
deriving DecidableEq, Repr

namespace Listener

def bindEach (host : Host) : List Listener → List Listener × Option Error
  | [] => ([], none)
  | l :: ls =>
    match host.listen l.address with
    | .error f => ([], some (.bind l.address f))
    | .ok a =>
      let (bound, e) := bindEach (host.occupying a) ls
      (l :: bound, e)

def start (host : Host) (ls : List Listener) : List Listener × Option Error :=
  if ls = [] then
    ([], some (.bind "" ⟨.invalidInput, some "no listen address configured"⟩))
  else bindEach host ls

end Listener
end Rendezvous
