import Rendezvous.Error
import Rendezvous.Network.Host
import Rendezvous.Network.Peer
import Rendezvous.WebSocket.Url

namespace Rendezvous.Client

-- Connects under a URL. The connection is tried before a scheme that cannot be served is
-- refused.
def dialUrl (host : Host) (url : String) : Except Error Peer :=
  match WebSocket.Url.ofString url with
  | .error e => .error (.webSocket (.malformedUrl e))
  | .ok u =>
    match u.target with
    | .error e => .error (.webSocket (.url e))
    | .ok target =>
      match host.dial target with
      | .error f => .error (.connect url f)
      | .ok a =>
        if u.scheme = some "ws" then .ok ⟨some a, .webSocket⟩
        else if u.scheme = some "wss" then .error (.webSocket (.url .tlsUnsupported))
        else .error (.webSocket (.url .unsupportedScheme))

-- Connects to the address that a text names. Only a failure to connect names the text.
def dialTcp (host : Host) (target : String) : Except Error SocketAddress :=
  match host.dial target with
  | .error f => .error (.connect target f)
  | .ok a =>
    match host.setNoDelay a with
    | .error f => .error (.fault f)
    | .ok () => .ok a

def dial (host : Host) : BrokerAddress → Except Error Peer
  | .tcp target => (dialTcp host target).map fun a => ⟨some a, .tcp⟩
  | .webSocket url => dialUrl host url

end Rendezvous.Client
