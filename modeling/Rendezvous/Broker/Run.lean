import Rendezvous.Broker.Environment

namespace Rendezvous.Broker

inductive Event where
  | turn (task : Task)
  | accept (wire : Connection) (peer : Peer)
  | change (wire : Nat) (what : Connection.Change)
  | abort (session : Nat)
  | wait (target : Instant)
deriving DecidableEq

def step? (b : Broker) : Event → Option Broker
  | .turn t => b.turn t
  | .accept wire peer => if wire.isFresh then some (b.accept wire peer) else none
  | .change i what =>
    match (b.wires.get i).apply what with
    | .ok c => some (b.touch i fun _ => c)
    | .error _ => none
  | .abort i => some (b.abort i)
  | .wait target => if b.clock ≤ target then some { b with clock := target } else none

def run? (b : Broker) : List Event → Option Broker
  | [] => some b
  | e :: es => (b.step? e).bind fun b => b.run? es

def mayWait (b : Broker) (target : Instant) : Bool :=
  b.idleNow && b.deadlines.all fun t => decide (t ≤ b.clock ∨ target ≤ t)

-- Whether no task is kept from its turns or misses a deadline in a run.
def isPrompt (b : Broker) : List Event → Bool
  | [] => true
  | e :: es =>
    (match e with
      | .wait target => b.mayWait target
      | _ => true) && (b.step? e).all fun b => b.isPrompt es

def fresh (config : Config) (policy : Policy) : Broker := { config, policy }

def Reaches (b b' : Broker) : Prop := ∃ es, b.run? es = some b'

@[simp]
theorem run?_nil (b : Broker) : b.run? [] = some b := rfl

@[simp]
theorem run?_cons (b : Broker) (e : Event) (es : List Event) :
    b.run? (e :: es) = (b.step? e).bind fun b => b.run? es := rfl

theorem run?_append (b : Broker) (es fs : List Event) :
    b.run? (es ++ fs) = (b.run? es).bind fun b => b.run? fs := by
  induction es generalizing b with
  | nil => rfl
  | cons e es ih => cases h : b.step? e <;> simp [h, ih]

theorem Reaches.trans {a b c : Broker} (h : a.Reaches b) (h' : b.Reaches c) : a.Reaches c :=
  have ⟨es, he⟩ := h
  have ⟨fs, hf⟩ := h'
  ⟨es ++ fs, by simp [run?_append, he, hf]⟩

end Rendezvous.Broker
