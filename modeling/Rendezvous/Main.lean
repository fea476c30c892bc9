import Rendezvous.CommandLine.LogFilter
import Rendezvous.CommandLine.Outcome

namespace Rendezvous.CommandLine

def readVariables : IO (List (String × String)) := do
  let names := (subcommands.flatMap fun c => c.2.1).filterMap Opt.envName
  let found ← names.mapM fun name => do return (← IO.getEnv name).map fun value => (name, value)
  return found.filterMap id

partial def awaitEnd (input : IO.FS.Stream) : IO Unit := do
  if (← input.getLine).isEmpty then return
  awaitEnd input

end Rendezvous.CommandLine

open Rendezvous.CommandLine

def main (args : List String) : IO UInt32 := do
  let given ← readVariables
  let outcome := run .isolated (fun name => List.lookup name given) args
  let logged := isLogged (← IO.getEnv "RELAY_LOG") .info "relay"
  if logged then
    for service in outcome.listening do
      IO.println ("listening: " ++ service.display)
  match outcome.start with
  | .help => IO.println about
  | .running =>
    awaitEnd (← IO.getStdin)
    if logged then IO.println "Shutting down..."
  | failed => IO.eprintln failed.errorText
  return UInt32.ofNat outcome.start.exitCode
