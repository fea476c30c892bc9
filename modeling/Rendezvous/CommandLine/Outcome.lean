import Rendezvous.Broker.Listener
import Rendezvous.CommandLine.Invocation

namespace Rendezvous.CommandLine

inductive Service where
  | broker (carrier : Carrier)
  | forwarder
deriving DecidableEq, Repr

def Service.display : Service → String
  | broker carrier => carrier.display
  | forwarder => "local"

inductive Start where
  | help
  | misused (e : UsageError)
  | failed (what : String) (causes : List String)
  | running
deriving DecidableEq

structure Outcome where
  start : Start
  listening : List Service := []
deriving DecidableEq

def listenersOf (tcp ws : Option String) : List Listener :=
  let tcp := match tcp, ws with
    | none, none => some "0.0.0.0:8888"
    | _, _ => tcp
  (tcp.map fun a => ⟨.tcp, a⟩).toList ++ (ws.map fun a => ⟨.webSocket, a⟩).toList

def causesOf (e : Error) : List String :=
  match e with
  | .bind _ source => [e.message, source.message]
  | .connect _ source => [e.message, source.message]
  | _ => [e.message]

def withName (text : String) (next : Name → Outcome) : Outcome :=
  match Name.ofString text with
  | .ok n => next n
  | .error e => ⟨.failed ("Invalid service name " ++ Text.quoted text) [e.message], []⟩

def begin (host : Host) : Invocation → Outcome
  | .help => ⟨.help, []⟩
  | .serve _ tcp ws =>
    match Listener.start host (listenersOf tcp ws) with
    | (bound, none) => ⟨.running, bound.map fun l => .broker l.carrier⟩
    | (bound, some e) =>
      ⟨.failed "Failed to start broker" (causesOf e), bound.map fun l => .broker l.carrier⟩
  | .provide _ name _ => withName name fun _ => ⟨.running, []⟩
  | .forward _ name listen => withName name fun _ =>
    match host.listen listen with
    | .error f => ⟨.failed ("Failed to bind " ++ listen) [f.message], []⟩
    | .ok _ => ⟨.running, [.forwarder]⟩

def run (host : Host) (env : String → Option String) (args : List String) : Outcome :=
  match parse env args with
  | .error e => ⟨.misused e, []⟩
  | .ok i => begin host i

def withMargin (margin : String) (s : String) : String := ("\n" ++ margin).intercalate (s.splitOn "\n")

def numbered (i : Nat) (cause : String) : String :=
  let n := toString i
  String.ofList (List.replicate (5 - n.length) ' ') ++ n ++ ": " ++ withMargin "       " cause

def failureText (what : String) (causes : List String) : String :=
  let listed := match causes with
    | [] => []
    | [c] => ["    " ++ withMargin "    " c]
    | cs => cs.mapIdx numbered
  "Error: " ++ what ++
    if listed = [] then "" else "\n\nCaused by:\n" ++ "\n".intercalate listed

def Start.errorText : Start → String
  | help => ""
  | misused e => e.message
  | failed what causes => failureText what causes
  | running => ""

def Start.exitCode : Start → Nat
  | help => 0
  | misused _ => 2
  | failed _ _ => 1
  | running => 0

end Rendezvous.CommandLine
