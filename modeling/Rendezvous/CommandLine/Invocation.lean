import Rendezvous.CommandLine.Number
import Rendezvous.CommandLine.Options
import Rendezvous.Config
import Rendezvous.Error

namespace Rendezvous.CommandLine

inductive Invocation where
  | help
  | serve (config : Config) (tcp ws : Option String)
  | provide (broker name target : String)
  | forward (broker name listen : String)

def numberFault (read : String → Except NumberError Nat) (s : String) : Option String :=
  match read s with
  | .ok _ => none
  | .error e => some e.message

def word64 : String → Except NumberError Nat := unsigned 0xFFFFFFFFFFFFFFFF

def word32 : String → Except NumberError Nat := bounded 0xFFFFFFFF

def brokerFault (s : String) : Option String :=
  match parseBroker s with
  | .ok _ => none
  | .error e => some e.message

def serveOptions : List Opt :=
  [{ long := "tcp", envName := some "RELAY_TCP" },
   { long := "ws", envName := some "RELAY_WS" },
   { long := "ident-timeout", envName := some "RELAY_IDENT_TIMEOUT",
     objection := numberFault word64 },
   { long := "keepalive", envName := some "RELAY_KEEPALIVE", objection := numberFault word64 },
   { long := "missed-keepalives", envName := some "RELAY_MISSED_KEEPALIVES",
     objection := numberFault word32 },
   { long := "buffer-size", envName := some "RELAY_BUFFER_SIZE", objection := numberFault word64 }]

def brokerOption : Opt :=
  { long := "broker", letter := some 'b', envName := some "RELAY_BROKER", required := true,
    objection := brokerFault }

def nameOption : Opt := { long := "name", letter := some 'n', required := true }

def provideOptions : List Opt :=
  [brokerOption, nameOption, { long := "target", letter := some 't', required := true }]

def forwardOptions : List Opt :=
  [brokerOption, nameOption, { long := "listen", letter := some 'l' }]

def numberOf (vs : Values) (long : String) (read : String → Except NumberError Nat)
    (default : Nat) : Nat :=
  match (vs.lookup long).map read with
  | some (.ok n) => n
  | _ => default

def textOf (vs : Values) (long : String) (default : String) : String :=
  (vs.lookup long).getD default

def configOf (vs : Values) : Config :=
  { identificationTimeout := .ofSeconds (numberOf vs "ident-timeout" word64 30)
    keepaliveInterval := .ofSeconds (numberOf vs "keepalive" word64 30)
    maxMissedKeepalives := numberOf vs "missed-keepalives" word32 4
    bufferSize := numberOf vs "buffer-size" word64 defaultBufferSize }

def subcommands : List (String × List Opt × (Values → Invocation)) :=
  [("serve", serveOptions, fun vs => .serve (configOf vs) (vs.lookup "tcp") (vs.lookup "ws")),
   ("provide", provideOptions, fun vs =>
      .provide (textOf vs "broker" "") (textOf vs "name" "") (textOf vs "target" "")),
   ("forward", forwardOptions, fun vs =>
      .forward (textOf vs "broker" "") (textOf vs "name" "")
        (textOf vs "listen" "127.0.0.1:15900"))]

def isSubcommand (s : String) : Bool := s == "help" || (subcommands.lookup s).isSome

def helpOn : List String → Except UsageError Invocation
  | [] => .ok .help
  | s :: rest =>
    if !isSubcommand s then .error (.unknownSubcommand s)
    else
      match rest with
      | [] => .ok .help
      | s :: _ => .error (.unknownSubcommand s)

def parse (env : String → Option String) : List String → Except UsageError Invocation
  | [] => .error .noSubcommand
  | s :: rest =>
    if s = "help" then helpOn rest
    else
      match subcommands.lookup s with
      | some (opts, make) => (valuesOf opts env rest).map fun | some vs => make vs | none => .help
      | none =>
        match Word.of s with
        | .escape =>
          match rest with
          | [] => .error .noSubcommand
          | s :: _ =>
            if isSubcommand s then .error (.unexpectedArgument s) else .error (.unknownSubcommand s)
        | .long "help" none => .ok .help
        | .long "help" (some v) => .error (.unexpectedValue v "--help")
        | .long name _ => .error (.unexpectedArgument ("--" ++ name))
        | .short 'h' _ => .ok .help
        | .short c _ => .error (.unexpectedArgument ("-" ++ String.singleton c))
        | .plain => .error (.unknownSubcommand s)

end Rendezvous.CommandLine
