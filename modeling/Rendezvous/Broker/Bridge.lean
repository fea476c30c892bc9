import Rendezvous.Network.Stream
import Rendezvous.Time.Duration

namespace Rendezvous

inductive Direction where
  | aToB
  | bToA
deriving DecidableEq, Repr

def Direction.opposite : Direction → Direction
  | aToB => bToA
  | bToA => aToB

inductive CopyPhase where
  | reading
  | writing (unsent : Bytes)
  | closing (deadline : Instant)
  | ended
deriving DecidableEq, Repr

structure CopyLoop where
  phase : CopyPhase := .reading
  -- All chunks that were read, the newest first.
  chunks : List Bytes := []
  counted : Nat := 0
  error : Option Fault := none
deriving DecidableEq, Repr

structure Bridge where
  a : Stream
  b : Stream
  bufferSize : Nat
  stopped : Bool := false
  forth : CopyLoop := {}
  back : CopyLoop := {}
deriving DecidableEq, Repr

-- What a bridge has done when it is over. The counts are taken to fit a word of 64 bits.
structure BridgeStats where
  aToB : Nat
  bToA : Nat
  firstError : Option Fault
deriving DecidableEq, Repr

namespace Bridge

def closeGrace : Duration := .ofSeconds 1

def new (a b : Stream) (bufferSize : Nat) : Bridge := { a, b, bufferSize := max bufferSize 1 }

def loop (br : Bridge) : Direction → CopyLoop
  | .aToB => br.forth
  | .bToA => br.back

def setLoop (br : Bridge) (d : Direction) (l : CopyLoop) : Bridge :=
  match d with
  | .aToB => { br with forth := l }
  | .bToA => { br with back := l }

def source (br : Bridge) : Direction → Stream
  | .aToB => br.a
  | .bToA => br.b

def setSource (br : Bridge) (d : Direction) (s : Stream) : Bridge :=
  match d with
  | .aToB => { br with a := s }
  | .bToA => { br with b := s }

def sink (br : Bridge) (d : Direction) : Stream := br.source d.opposite

def stop (br : Bridge) (d : Direction) (now : Instant) (error : Option Fault) : Bridge :=
  { br.setLoop d { br.loop d with phase := .closing (now + closeGrace.nanos), error } with
    stopped := true }

def turn (now : Instant) (br : Bridge) (d : Direction) (cs : Connections) :
    Option (Bridge × Connections) :=
  let l := br.loop d
  match l.phase with
  | .reading =>
    if br.stopped then some (br.stop d now none, cs)
    else
      match (br.source d).read cs br.bufferSize with
      | .waits => none
      | .fails e => some (br.stop d now (some e), cs)
      | .done ([], s, cs) => some ((br.setSource d s).stop d now none, cs)
      | .done (chunk, s, cs) =>
        some ((br.setSource d s).setLoop d
          { l with phase := .writing chunk, chunks := chunk :: l.chunks }, cs)
  | .writing unsent =>
    if br.stopped then some (br.stop d now none, cs)
    else
      match (br.sink d).deliver cs unsent with
      | .waits => none
      | .fails e => some (br.stop d now (some e), cs)
      | .done (none, cs) =>
        some (br.setLoop d
          { l with phase := .reading, counted := l.counted + (l.chunks.headD []).length }, cs)
      | .done (some rest, cs) => some (br.setLoop d { l with phase := .writing rest }, cs)
  | .closing deadline =>
    match (br.sink d).close cs with
    | .done cs => some (br.setLoop d { l with phase := .ended }, cs)
    | .fails _ => some (br.setLoop d { l with phase := .ended }, cs)
    | .waits =>
      if deadline ≤ now then some (br.setLoop d { l with phase := .ended }, cs) else none
  | .ended => none

def deadline? (br : Bridge) (d : Direction) : Option Instant :=
  match (br.loop d).phase with
  | .closing t => some t
  | _ => none

def isOver (br : Bridge) : Bool := br.forth.phase == .ended && br.back.phase == .ended

-- The account of a bridge. Only one loop ends by a failure of its own.
def stats (br : Bridge) : BridgeStats :=
  ⟨br.forth.counted, br.back.counted, br.forth.error.or br.back.error⟩

def abandon (br : Bridge) (cs : Connections) : Connections := br.b.abandon (br.a.abandon cs)

end Bridge
end Rendezvous
