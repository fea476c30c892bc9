import Rendezvous.Broker.State

namespace Rendezvous.Broker

def accept (b : Broker) (wire : Connection) (peer : Peer) : Broker :=
  { b with
    wires := b.wires ++ [wire]
    sessions := b.sessions ++
      [⟨{ wire := b.wires.length, peer },
        .identifying {} (b.clock + b.config.identificationTimeout.nanos)⟩] }

def bridgeOnly (a b : Connection) (bufferSize : Nat) : Broker :=
  let br := Bridge.new { wire := 0 } { wire := 1 } bufferSize
  { wires := [a, b], sessions := [⟨br.a, .bridging br⟩] }

def touch (b : Broker) (wire : Nat) (f : Connection → Connection) : Broker :=
  { b with wires := b.wires.update wire f }

def enrollAbsent (b : Broker) (name : Name) : Broker :=
  (b.enroll { name, peer := {}, leased := false }).2

def release (b : Broker) : Phase → Broker
  | .welcoming h _ => b.setHandle h Handle.dropLease
  | .idling h _ _ => b.setHandle h Handle.dropLease
  | .overflowing h => b.setHandle h Handle.dropLease
  | .claiming h _ _ =>
    let left := (b.handles[h]?).bind fun hd => hd.abandonTake.1
    let b := b.setHandle h fun hd => hd.abandonTake.2
    match left with
    | some st => { b with wires := st.abandon b.wires }
    | none => b
  | .connecting provider _ => { b with wires := provider.abandon b.wires }
  | .bridging br => { b with wires := br.abandon b.wires }
  | _ => b

def abort (b : Broker) (i : Nat) : Broker :=
  match b.sessions[i]? with
  | none => b
  | some s => if s.isOver then b else (b.release s.phase).finish i .aborted

-- Stops a broker: all sessions that still run are dropped. What they had registered stays in the
-- registry.
def shutdown (b : Broker) : Broker := (List.range b.sessions.length).foldl abort b

def tasks (b : Broker) : List Task :=
  (List.range b.sessions.length).flatMap fun i =>
    [.session i, .copy i .aToB, .copy i .bToA]

def runTask : Nat → Broker → Task → Broker
  | 0, b, _ => b
  | fuel + 1, b, t =>
    match b.turn t with
    | none => b
    | some b => runTask fuel b t

def idleNow (b : Broker) : Bool := b.tasks.all fun t => (b.turn t).isNone

def runAll : Nat → Nat → Broker → Broker
  | 0, _, b => b
  | rounds + 1, fuel, b =>
    if b.idleNow then b
    else runAll rounds fuel (b.tasks.foldl (runTask fuel) b)

def backlog (b : Broker) : Nat :=
  b.wires.foldl (fun n c => n + c.inbox.length) 0 +
    b.sessions.foldl (fun n s => n + sessionBacklog s) 0
where
  sessionBacklog (s : Session) : Nat :=
    s.stream.pending.size +
      match s.phase with
      | .identifying reader _ => reader.size
      | .connecting provider _ => provider.pending.size
      | .bridging br => br.a.pending.size + br.b.pending.size + 2 * br.bufferSize
      | _ => 0

-- More turns than it takes until every task has to wait: each byte is moved a few times, and each
-- session passes through its phases once.
def turnBound (b : Broker) : Nat :=
  8 * b.backlog + (b.sessions.length + 1) * (b.missLimit + 200)

def settle (b : Broker) : Broker := runAll b.turnBound b.turnBound b

def deadlines (b : Broker) : List Instant :=
  b.sessions.flatMap fun s =>
    match s.phase with
    | .bridging br => (br.deadline? .aToB).toList ++ (br.deadline? .bToA).toList
    | _ => s.deadline?.toList

def nextDeadline? (b : Broker) (target : Instant) : Option Instant :=
  (b.deadlines.filter fun t => decide (b.clock < t ∧ t ≤ target)).min?

theorem nextDeadline?_bounds {b : Broker} {target t : Instant}
    (h : b.nextDeadline? target = some t) : b.clock < t ∧ t ≤ target := by
  have ht := List.min?_mem h
  simpa using (List.mem_filter.mp ht).2

-- Lets the clock go on up to a time, stopping at each deadline for the tasks that it wakes.
def advanceTo (b : Broker) (target : Instant) : Broker :=
  match h : b.nextDeadline? target with
  | some t =>
    advanceTo { { b with clock := t }.settle with clock := t } target
  | none => { b with clock := max b.clock target }
termination_by target - b.clock
decreasing_by
  have ⟨after, within⟩ := nextDeadline?_bounds h
  exact Nat.sub_lt_sub_left (Nat.lt_of_lt_of_le after within) after

end Rendezvous.Broker
