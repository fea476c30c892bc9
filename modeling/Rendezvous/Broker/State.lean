import Rendezvous.Broker.Handoff
import Rendezvous.Broker.Registry
import Rendezvous.Broker.Session
import Rendezvous.Config

namespace Rendezvous

-- A broker with its sessions. Connections, handles and sessions are known by their places.
structure Broker where
  config : Config := {}
  policy : Policy := Policy.allowAll
  clock : Instant := 0
  registry : Registry := {}
  handles : List Handle := []
  wires : Connections := []
  sessions : List Session := []

namespace Broker

def setPhase (b : Broker) (i : Nat) (p : Phase) : Broker :=
  { b with sessions := b.sessions.modify i fun s => { s with phase := p } }

def setStream (b : Broker) (i : Nat) (st : Stream) : Broker :=
  { b with sessions := b.sessions.modify i fun s => { s with stream := st } }

def setHandle (b : Broker) (h : Nat) (f : Handle → Handle) : Broker :=
  { b with handles := b.handles.modify h f }

def refuse (b : Broker) (i : Nat) (reply : Reply) (cause : Error) : Broker :=
  { b with sessions := b.sessions.modify i fun s => s.refuse reply cause }

def finish (b : Broker) (i : Nat) (how : Ending) : Broker :=
  { b with
    wires := match b.sessions[i]? with
      | some s => s.stream.abandon b.wires
      | none => b.wires
    sessions := b.sessions.modify i fun s => { s with phase := .ended how } }

def unregister (b : Broker) (h : Nat) : Broker :=
  match b.handles[h]? with
  | some hd => { b with registry := (b.registry.unregister hd.name h).2 }
  | none => b

def finishProvider (b : Broker) (i h : Nat) (how : SessionEnd) : Broker :=
  (b.setHandle h Handle.dropLease).finish i (.regular how)

def enroll (b : Broker) (hd : Handle) : Option Registration × Broker :=
  let (previous, registry) := b.registry.register ⟨b.handles.length, hd.name⟩
  (previous, { b with registry, handles := b.handles ++ [hd] })

def evict (b : Broker) : Option Registration → Broker
  | some e => b.setHandle e.handle Handle.close
  | none => b

def beginProviding (b : Broker) (i : Nat) (s : Session) (name : Name) : Broker :=
  let (previous, b') := b.enroll { name, peer := s.stream.peer }
  (b'.evict previous).setPhase i
    (.welcoming b.handles.length (Bytes.ofText Reply.serviceRegistered.toLine))

-- A consumer whose provider cannot be reached. The provider, if it is still there, is asked to
-- leave, since nobody else can find it.
def vanish (b : Broker) (i h : Nat) (name : Name) : Broker :=
  (b.setHandle h Handle.close).refuse i .serviceNotFound (.notFound name)

def beginConsuming (b : Broker) (i : Nat) (name : Name) : Broker :=
  match b.registry.claim name with
  | (none, _) => b.refuse i .serviceNotFound (.notFound name)
  | (some e, registry) =>
    let b := { b with registry }
    match b.handles[e.handle]? with
    | none => b.vanish i e.handle name
    | some hd =>
      let b := b.setHandle e.handle fun hd => hd.take.2
      if hd.take.1 then
        b.setPhase i
          (.claiming e.handle name (b.clock + b.config.identificationTimeout.nanos))
      else b.vanish i e.handle name

def dispatch (b : Broker) (i : Nat) (s : Session) (line : String) : Broker :=
  match Command.ofLine line with
  | .error e => b.refuse i e.reply (.protocol (.refusedLine e line))
  | .ok (.register name) =>
    match b.policy i ⟨.provider, name, s.stream.peer⟩ with
    | some reason => b.refuse i .accessDenied (.accessDenied reason)
    | none => b.beginProviding i s name
  | .ok (.request name) =>
    match b.policy i ⟨.consumer, name, s.stream.peer⟩ with
    | some reason => b.refuse i .accessDenied (.accessDenied reason)
    | none => b.beginConsuming i name

def refuseLine (b : Broker) (i : Nat) (cause : Error) : Broker :=
  b.refuse i .invalidProtocol cause

def identify (b : Broker) (i : Nat) (s : Session) (reader : LineReader) (deadline : Instant) :
    Option Broker :=
  match s.stream.read b.wires reader.room with
  | .fails e => some (b.refuseLine i (.fault e))
  | .done ([], _, wires) => some ({ b with wires }.refuseLine i (.protocol .closedEarly))
  | .done (bs, st, wires) =>
    let b := { b with wires }
    match reader.push b.config.maxLineLength bs with
    | .line text rest =>
      let st := st.unread rest
      some ((b.setStream i st).dispatch i { s with stream := st } text)
    | .refused cause => some ((b.setStream i st).refuseLine i (.protocol cause))
    | .incomplete reader => some ((b.setStream i st).setPhase i (.identifying reader deadline))
  | .waits =>
    if deadline ≤ b.clock then some (b.refuseLine i (.protocol .noIdentification)) else none

-- Writing a refusal. The peer may be gone, so a failure changes nothing.
def writeRefusal (b : Broker) (i : Nat) (s : Session) (unsent : Bytes) (cause : Error) :
    Option Broker :=
  match s.stream.deliver b.wires unsent with
  | .waits => none
  | .fails _ => some (b.setPhase i (.closing (.failed cause) none))
  | .done (none, wires) => some ({ b with wires }.setPhase i (.closing (.failed cause) none))
  | .done (some rest, wires) => some ({ b with wires }.setPhase i (.refusing rest cause))

def closeSession (b : Broker) (i : Nat) (s : Session) (how : Ending) (deadline : Option Instant) :
    Option Broker :=
  match s.stream.close b.wires with
  | .done wires => some ({ b with wires }.finish i how)
  | .fails _ => some (b.finish i how)
  | .waits => if deadline.any (fun t => decide (t ≤ b.clock)) then some (b.finish i how) else none

def idleOn (b : Broker) (i h missed : Nat) : Broker :=
  b.setPhase i (.idling h missed (b.clock + b.config.keepaliveInterval.nanos))

def welcome (b : Broker) (i : Nat) (s : Session) (h : Nat) (unsent : Bytes) : Option Broker :=
  match s.stream.deliver b.wires unsent with
  | .waits => none
  | .fails e =>
    some (((b.unregister h).setHandle h Handle.dropLease).finish i (.failed (.fault e)))
  | .done (none, wires) => some ({ b with wires }.idleOn i h 0)
  | .done (some rest, wires) => some ({ b with wires }.setPhase i (.welcoming h rest))

def missLimit (b : Broker) : Nat := max b.config.maxMissedKeepalives 1

-- Handing a claimed provider over. If the consumer is gone, the connection is closed.
def handOver (b : Broker) (i : Nat) (s : Session) (h : Nat) (hd : Handle) : Broker :=
  let (taken, hd') := hd.handOver s.stream
  let b := b.setHandle h fun _ => hd'.dropLease
  if taken then b.setPhase i (.ended (.regular .providerClaimed))
  else b.setPhase i (.closing (.regular .providerClaimed) none)

-- Keeping a provider until it is claimed. The lease is looked at before the connection.
def idle (b : Broker) (i : Nat) (s : Session) (h missed : Nat) (deadline : Instant) :
    Option Broker :=
  match (b.handles[h]?).map Handle.event with
  | some (some .claimed, hd) => some (b.handOver i s h hd)
  | some (some .closed, _) =>
    some (((b.unregister h).setHandle h Handle.dropLease).setPhase i
      (.closing (.regular .providerEvicted) none))
  | _ =>
    match s.stream.fill b.wires b.config.bufferSize with
    | .fails _ => some ((b.unregister h).finishProvider i h .providerLeft)
    | .done (0, st, wires) =>
      some ((({ b with wires }.setStream i st).unregister h).finishProvider i h .providerLeft)
    | .done (_, st, wires) =>
      let b := { b with wires }.setStream i st
      if b.config.maxPendingBytes < st.pending.size then some (b.setPhase i (.overflowing h))
      else some (b.idleOn i h 0)
    | .waits =>
      if deadline ≤ b.clock then
        if b.missLimit ≤ missed + 1 then
          some (((b.unregister h).setHandle h Handle.dropLease).setPhase i
            (.closing (.regular .providerTimedOut)
              (some (b.clock + b.config.keepaliveInterval.nanos))))
        else some (b.idleOn i h (missed + 1))
      else none

-- Closing the connection of a provider that sent too much. It stays registered until that is
-- done.
def overflow (b : Broker) (i : Nat) (s : Session) (h : Nat) : Option Broker :=
  match s.stream.close b.wires with
  | .waits => none
  | .fails _ => some ((b.unregister h).finishProvider i h .providerLeft)
  | .done wires => some (({ b with wires }.unregister h).finishProvider i h .providerLeft)

def await (b : Broker) (i : Nat) (h : Nat) (name : Name) (deadline : Instant) : Option Broker :=
  match (b.handles[h]?).map Handle.taking with
  | some (.got provider) =>
    some ((b.setHandle h Handle.pickUp).setPhase i
      (.connecting provider (Bytes.ofText Reply.connectedToService.toLine)))
  | some .waiting =>
    if deadline ≤ b.clock then
      some ((b.setHandle h fun hd => hd.abandonTake.2).vanish i h name)
    else none
  | _ => some (b.vanish i h name)

def connect (b : Broker) (i : Nat) (s : Session) (provider : Stream) (unsent : Bytes) :
    Option Broker :=
  match s.stream.deliver b.wires unsent with
  | .waits => none
  | .fails e =>
    some ({ b with wires := provider.abandon b.wires }.finish i (.failed (.fault e)))
  | .done (none, wires) =>
    some ({ b with wires }.setPhase i
      (.bridging (Bridge.new s.stream provider b.config.bufferSize)))
  | .done (some rest, wires) => some ({ b with wires }.setPhase i (.connecting provider rest))

def leaveBridge (b : Broker) (i : Nat) (br : Bridge) : Option Broker :=
  if br.isOver then
    some ({ b with wires := br.abandon b.wires }.setPhase i
      (.ended (.regular (.bridged br))))
  else none

def sessionTurn (b : Broker) (i : Nat) : Option Broker :=
  match b.sessions[i]? with
  | none => none
  | some s =>
    match s.phase with
    | .identifying reader deadline => b.identify i s reader deadline
    | .refusing unsent cause => b.writeRefusal i s unsent cause
    | .closing how deadline => b.closeSession i s how deadline
    | .welcoming h unsent => b.welcome i s h unsent
    | .idling h missed deadline => b.idle i s h missed deadline
    | .overflowing h => b.overflow i s h
    | .claiming h name deadline => b.await i h name deadline
    | .connecting provider unsent => b.connect i s provider unsent
    | .bridging br => b.leaveBridge i br
    | .ended _ => none

def copyTurn (b : Broker) (i : Nat) (d : Direction) : Option Broker :=
  match b.sessions[i]? with
  | some { phase := .bridging br, .. } =>
    (br.turn b.clock d b.wires).map fun p => { b with wires := p.2 }.setPhase i (.bridging p.1)
  | _ => none

inductive Task where
  | session (i : Nat)
  | copy (i : Nat) (d : Direction)
deriving DecidableEq, Repr

def turn (b : Broker) : Task → Option Broker
  | .session i => b.sessionTurn i
  | .copy i d => b.copyTurn i d

end Broker
end Rendezvous
