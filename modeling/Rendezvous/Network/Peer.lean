import Rendezvous.Network.SocketAddress

namespace Rendezvous

inductive Carrier where
  | tcp
  | webSocket
  | memory
deriving DecidableEq, Repr

def Carrier.display : Carrier → String
  | tcp => "tcp"
  | webSocket => "ws"
  | memory => "memory"

structure Peer where
  address : Option SocketAddress := none
  carrier : Carrier := .memory
deriving DecidableEq, Repr

def Peer.display (p : Peer) : String :=
  p.carrier.display ++ "://" ++ (p.address.map SocketAddress.display).getD "local"

end Rendezvous
