import Rendezvous.Broker.Bridge
import Rendezvous.Client.Handshake

namespace Rendezvous

inductive Relaying where
  | identifying (handshake : Handshake)
  | bridging (bridge : Bridge)
  | ended (outcome : Except Error BridgeStats)

namespace Relaying

abbrev Join := Stream → Except Error Bridge

def toTarget (target : Except Error Stream) (bufferSize : Nat) : Join := fun relay =>
  target.map fun t => Bridge.new relay t bufferSize

def fromLocal (source : Stream) (bufferSize : Nat) : Join := fun relay =>
  .ok (Bridge.new source relay bufferSize)

def start (command : Command) (stream : Stream) : Relaying := .identifying (.start command stream)

-- What follows a handshake that is over. A stream that is not joined is given up.
def afterHandshake (join : Join) (stream : Stream) (failure : Option Error) (cs : Connections) :
    Relaying × Connections :=
  match failure with
  | some e => (.ended (.error e), stream.abandon cs)
  | none =>
    match join stream with
    | .ok br => (.bridging br, cs)
    | .error e => (.ended (.error e), stream.abandon cs)

def turn (join : Join) (now : Instant) (r : Relaying) (cs : Connections) :
    Option (Relaying × Connections) :=
  match r with
  | .identifying h =>
    match h.phase with
    | .ended failure => some (afterHandshake join h.stream failure cs)
    | _ => (h.turn now cs).map fun p => (.identifying p.1, p.2)
  | .bridging br => if br.isOver then some (.ended (.ok br.stats), br.abandon cs) else none
  | .ended _ => none

def copyTurn (now : Instant) (d : Direction) (r : Relaying) (cs : Connections) :
    Option (Relaying × Connections) :=
  match r with
  | .bridging br => (br.turn now d cs).map fun p => (.bridging p.1, p.2)
  | _ => none

end Relaying
end Rendezvous
