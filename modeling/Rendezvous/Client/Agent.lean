import Rendezvous.Broker.Bridge
import Rendezvous.Client.Dial
import Rendezvous.Time.Backoff

namespace Rendezvous.Agent

inductive Outcome where
  -- The two were bridged, and the round lasted so long. The sum of both counts is taken to fit a word of
  -- 64 bits as well.
  | relayed (toTarget fromTarget : Nat) (lasted : Duration)
  | failed (cause : Error)
deriving DecidableEq

def Outcome.ofRelaying (lasted : Duration) : Except Error BridgeStats → Outcome
  | .ok stats => relayed stats.aToB stats.bToA lasted
  | .error e => failed e

inductive Report where
  | empty (pause : Duration)
  | finished (toTarget fromTarget : Nat)
  | failed (pause : Duration)
  | refused (cause : Error) (pause : Duration)
deriving DecidableEq

def Report.pause? : Report → Option Duration
  | empty d => some d
  | finished _ _ => none
  | failed d => some d
  | refused _ d => some d

def maxAttempt : Nat := 0xFFFFFFFF

def report (b : Backoff) (attempt : Nat) : Outcome → Report × Nat
  | .relayed toTarget fromTarget lasted =>
    if toTarget + fromTarget = 0 ∧ lasted.nanos < b.max.nanos then
      (.empty (b.delay attempt), min (attempt + 1) maxAttempt)
    else (.finished toTarget fromTarget, 0)
  | .failed e =>
    if e.isTransient then (.failed (b.delay attempt), min (attempt + 1) maxAttempt)
    else (.refused e b.max, attempt)

def reports (b : Backoff) : Nat → List Outcome → List Report
  | _, [] => []
  | attempt, o :: os =>
    let (r, attempt) := report b attempt o
    r :: reports b attempt os

def Outcome.lasted : Outcome → Duration
  | relayed _ _ d => d
  | failed _ => .ofNanos 0

def timeline (b : Backoff) : Nat → Instant → List Outcome → List (Instant × Report)
  | _, _, [] => []
  | attempt, now, o :: os =>
    let (r, attempt) := report b attempt o
    let ended := now + o.lasted.nanos
    (ended, r) :: timeline b attempt (ended + (r.pause?.map Duration.nanos).getD 0) os

def unbridged? (host : Host) (broker : BrokerAddress) (target : String) : Option Outcome :=
  match Client.dial host broker with
  | .error e => some (.failed e)
  | .ok _ =>
    match Client.dialTcp host target with
    | .error e => some (.failed e)
    | .ok _ => none

end Rendezvous.Agent
