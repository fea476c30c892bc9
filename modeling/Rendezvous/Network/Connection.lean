import Rendezvous.Bytes
import Rendezvous.Fault

namespace Rendezvous

structure Connection where
  inbox : Bytes := []
  -- Everything that the near end has written, in pieces with the newest first.
  written : List Bytes := []
  farShut : Bool := false
  farGone : Bool := false
  nearShut : Bool := false
  nearGone : Bool := false
  -- The most bytes that one read or write of the near end moves.
  pieceLimit : Option Nat := none
  stalled : Bool := false
  flushHangs : Bool := false
  closeHangs : Bool := false
  readFault : Option Fault := none
  writeFault : Option Fault := none
  flushFault : Option Fault := none
  closeFault : Option Fault := none
deriving DecidableEq, Repr

namespace Connection

def clip (c : Connection) (n : Nat) : Nat := (c.pieceLimit.map (min n)).getD n

def piece (c : Connection) (bs : Bytes) : Bytes := (c.pieceLimit.map bs.take).getD bs

-- One read of at most so many bytes. No bytes at all mean the end of the stream, unless none may
-- be moved.
def read (c : Connection) (limit : Nat) : Attempt (Bytes × Connection) :=
  match c.readFault with
  | some e => .fails e
  | none =>
    let n := c.clip limit
    if n = 0 then .done ([], c)
    else if c.inbox = [] then
      if c.farShut || c.farGone then .done ([], c) else .waits
    else .done (c.inbox.take n, { c with inbox := c.inbox.drop n })

def write (c : Connection) (bs : Bytes) : Attempt (Nat × Connection) :=
  match c.writeFault with
  | some e => .fails e
  | none =>
    if c.stalled then .waits
    else if c.farGone || c.nearShut then .fails ⟨.brokenPipe, none⟩
    else .done ((c.piece bs).length, { c with written := c.piece bs :: c.written })

def flush (c : Connection) : Attempt Unit :=
  match c.flushFault with
  | some e => .fails e
  | none => if c.flushHangs then .waits else .done ()

def close (c : Connection) : Attempt Connection :=
  match c.closeFault with
  | some e => .fails e
  | none => if c.closeHangs then .waits else .done { c with nearShut := true }

def abandon (c : Connection) : Connection := { c with nearGone := true }

def received (c : Connection) : Bytes := Bytes.joined c.written

def endSeen (c : Connection) : Bool := (c.nearShut || c.nearGone) && !c.farGone

inductive SendError where
  | brokenPipe
  | farGone
deriving DecidableEq, Repr

def send (c : Connection) (bs : Bytes) : Except SendError Connection :=
  if c.farGone then .error .farGone
  else if c.nearGone || c.farShut then .error .brokenPipe
  else .ok { c with inbox := c.inbox ++ bs }

def shutFar (c : Connection) : Connection := { c with farShut := true }

-- The far end vanishes; what it sent can still be read.
def dropFar (c : Connection) : Connection := { c with farGone := true }

inductive Change where
  | send (bs : Bytes)
  | shut
  | drop
  | limit (pieces : Option Nat)
  | stall
  | unstall
  | hangFlush
  | freeFlush
  | hangClose
  | freeClose
  | failReads (fault : Fault)
  | failWrites (fault : Fault)
  | failFlush (fault : Fault)
  | failClose (fault : Fault)
deriving DecidableEq, Repr

def apply (c : Connection) : Change → Except SendError Connection
  | .send bs => c.send bs
  | .shut => .ok c.shutFar
  | .drop => .ok c.dropFar
  | .limit n => .ok { c with pieceLimit := n }
  | .stall => .ok { c with stalled := true }
  | .unstall => .ok { c with stalled := false }
  | .hangFlush => .ok { c with flushHangs := true }
  | .freeFlush => .ok { c with flushHangs := false }
  | .hangClose => .ok { c with closeHangs := true }
  | .freeClose => .ok { c with closeHangs := false }
  | .failReads f => .ok { c with readFault := some f }
  | .failWrites f => .ok { c with writeFault := some f }
  | .failFlush f => .ok { c with flushFault := some f }
  | .failClose f => .ok { c with closeFault := some f }

def isFresh (c : Connection) : Bool := c.written == [] && !c.nearShut && !c.nearGone

end Connection

abbrev Connections := List Connection

namespace Connections

-- What stands for a connection that does not exist: both of its ends are gone.
def nowhere : Connection := { farGone := true, nearGone := true }

def get (cs : Connections) (i : Nat) : Connection := cs.getD i nowhere

def update (cs : Connections) (i : Nat) (f : Connection → Connection) : Connections :=
  cs.modify i f

end Connections
end Rendezvous
