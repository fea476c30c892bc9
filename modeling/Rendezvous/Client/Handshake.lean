import Rendezvous.Config
import Rendezvous.Control.LineReader
import Rendezvous.Network.Stream

namespace Rendezvous

inductive HandshakePhase where
  | sending (unsent : Bytes)
  | awaiting (reader : LineReader) (deadline : Instant)
  | ended (failure : Option Error)
deriving DecidableEq

structure Handshake where
  command : Command
  replyTimeout : Duration := .ofSeconds 30
  stream : Stream
  phase : HandshakePhase
deriving DecidableEq

namespace Handshake

def start (command : Command) (stream : Stream) : Handshake :=
  { command, stream, phase := .sending (Bytes.ofText command.toLine) }

def refusal? (command : Command) (line : String) : Option Error :=
  match Reply.ofLine? line with
  | none => some (.protocol (.unexpectedReply line))
  | some (.ok _) => none
  | some (.error text) =>
    if .error text = Reply.serviceNotFound then some (.notFound command.name)
    else some (.rejected text)

def fail (h : Handshake) (e : Error) : Handshake := { h with phase := .ended (some e) }

def turn (now : Instant) (h : Handshake) (cs : Connections) : Option (Handshake × Connections) :=
  match h.phase with
  | .sending unsent =>
    match h.stream.deliver cs unsent with
    | .waits => none
    | .fails e => some (h.fail (.fault e), cs)
    | .done (none, cs) => some ({ h with phase := .awaiting {} (now + h.replyTimeout.nanos) }, cs)
    | .done (some rest, cs) => some ({ h with phase := .sending rest }, cs)
  | .awaiting reader deadline =>
    match h.stream.read cs reader.room with
    | .fails e => some (h.fail (.fault e), cs)
    | .done ([], _, cs) => some (h.fail (.protocol .closedEarly), cs)
    | .done (bs, stream, cs) =>
      match reader.push defaultMaxLineLength bs with
      | .line text rest =>
        some ({ h with
          stream := stream.unread rest
          phase := .ended (refusal? h.command text) }, cs)
      | .refused cause => some ({ h with stream }.fail (.protocol cause), cs)
      | .incomplete reader => some ({ h with stream, phase := .awaiting reader deadline }, cs)
    | .waits => if deadline ≤ now then some (h.fail .replyTimeout, cs) else none
  | .ended _ => none

end Handshake
end Rendezvous
