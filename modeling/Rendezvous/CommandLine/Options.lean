import Rendezvous.Text.Terminal

namespace Rendezvous.CommandLine

open Text.Terminal (shown)

structure Opt where
  long : String
  letter : Option Char := none
  envName : Option String := none
  required : Bool := false
  objection : String → Option String := fun _ => none

def Opt.display (o : Opt) : String :=
  let place := o.long.toUpper.map fun c => if c = '-' then '_' else c
  "--" ++ o.long ++ " <" ++ place ++ ">"

inductive UsageError where
  | noSubcommand
  | unknownSubcommand (given : String)
  | unexpectedArgument (given : String)
  | unexpectedValue (value option : String)
  | missingValue (option : String)
  | repeated (option : String)
  | invalidValue (value option fault : String)
  | missing (options : List String)
deriving DecidableEq, Repr

def about : String := "Named-service relay broker"

def UsageError.message : UsageError → String
  | noSubcommand => about
  | unknownSubcommand given => "error: unrecognized subcommand '" ++ shown given ++ "'"
  | unexpectedArgument given => "error: unexpected argument '" ++ shown given ++ "' found"
  | unexpectedValue value option =>
    "error: unexpected value '" ++ shown value ++ "' for '" ++ option ++
      "' found; no more were expected"
  | missingValue option =>
    "error: a value is required for '" ++ option ++ "' but none was supplied"
  | repeated option => "error: the argument '" ++ option ++ "' cannot be used multiple times"
  | invalidValue value option fault =>
    "error: invalid value '" ++ shown value ++ "' for '" ++ option ++ "': " ++ fault
  | missing options =>
    "error: the following required arguments were not provided:" ++
      String.join (options.map fun o => "\n  " ++ o)

abbrev Values := List (String × String)

structure Reading where
  values : Values := []
  -- An option that was named by itself, and the value behind it once it is there. It is looked at
  -- only when the next option comes or the line ends.
  awaited : Option (Opt × Option String) := none

namespace Reading

def record (r : Reading) (o : Opt) (value : String) : Except UsageError Reading :=
  if (r.values.lookup o.long).isSome then .error (.repeated o.display)
  else
    match o.objection value with
    | some fault => .error (.invalidValue value o.display fault)
    | none => .ok { r with values := r.values ++ [(o.long, value)] }

def settle (r : Reading) : Except UsageError Reading :=
  match r.awaited with
  | none => .ok r
  | some (o, none) => .error (.missingValue o.display)
  | some (o, some v) => { r with awaited := none }.record o v

def begin (r : Reading) (o : Opt) (attached : Option String) : Except UsageError Reading := do
  let r ← r.settle
  match attached with
  | some v => r.record o v
  | none => pure { r with awaited := some (o, none) }

end Reading

inductive Word where
  | escape
  | long (name : String) (attached : Option String)
  | short (letter : Char) (attached : Option String)
  | plain

def attachedTo (cs : List Char) : Option String :=
  match cs with
  | [] => none
  | '=' :: cs => some (String.ofList cs)
  | cs => some (String.ofList cs)

def Word.of (s : String) : Word :=
  match s.toList with
  | ['-', '-'] => .escape
  | '-' :: '-' :: cs =>
    let name := cs.takeWhile (· ≠ '=')
    .long (String.ofList name)
      (if name.length < cs.length then some (String.ofList (cs.drop (name.length + 1))) else none)
  | '-' :: c :: cs => .short c (attachedTo cs)
  | _ => .plain

def readOptions (opts : List Opt) :
    Reading → List String → Except UsageError (Option Reading)
  | r, [] => (r.settle).map some
  | r, s :: rest =>
    match Word.of s with
    | .escape =>
      match rest with
      | [] => (r.settle).map some
      | s :: _ => .error (.unexpectedArgument s)
    | .long name attached =>
      if name = "help" then
        match attached with
        | some v => .error (.unexpectedValue v "--help")
        | none => (r.settle).map fun _ => none
      else
        match opts.find? fun o => o.long == name with
        | none => .error (.unexpectedArgument ("--" ++ name))
        | some o =>
          match r.begin o attached with
          | .error e => .error e
          | .ok r => readOptions opts r rest
    | .short c attached =>
      if c = 'h' then (r.settle).map fun _ => none
      else
        match opts.find? fun o => o.letter == some c with
        | none => .error (.unexpectedArgument ("-" ++ String.singleton c))
        | some o =>
          match r.begin o attached with
          | .error e => .error e
          | .ok r => readOptions opts r rest
    | .plain =>
      match r.awaited with
      | some (o, none) => readOptions opts { r with awaited := some (o, some s) } rest
      | _ => .error (.unexpectedArgument s)

def readEnvironment (env : String → Option String) :
    List Opt → Reading → Except UsageError Reading
  | [], r => .ok r
  | o :: os, r =>
    match (r.values.lookup o.long), o.envName.bind env with
    | none, some v =>
      match r.record o v with
      | .error e => .error e
      | .ok r => readEnvironment env os r
    | _, _ => readEnvironment env os r

def valuesOf (opts : List Opt) (env : String → Option String) (args : List String) :
    Except UsageError (Option Values) :=
  match readOptions opts {} args with
  | .error e => .error e
  | .ok none => .ok none
  | .ok (some r) =>
    match readEnvironment env opts r with
    | .error e => .error e
    | .ok r =>
      match opts.filter fun o => o.required && (r.values.lookup o.long).isNone with
      | [] => .ok (some r.values)
      | missing => .error (.missing (missing.map Opt.display))

end Rendezvous.CommandLine
