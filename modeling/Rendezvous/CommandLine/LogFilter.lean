namespace Rendezvous.CommandLine

inductive LogLevel where
  | off | error | warn | info | debug | trace
deriving DecidableEq, Repr

namespace LogLevel

def names : List (String × LogLevel) :=
  [("off", off), ("error", error), ("warn", warn), ("info", info), ("debug", debug),
    ("trace", trace)]

def rank (l : LogLevel) : Nat := names.findIdx fun p => p.2 == l

def ofString? (s : String) : Option LogLevel :=
  (names.lookup s.toLower).or ((s.toNat?.bind fun n => names[n]?).map Prod.snd)

end LogLevel

structure LogDirective where
  place : List Char
  level : LogLevel
deriving DecidableEq, Repr

namespace LogDirective

def isPlaceChar (c : Char) : Bool := c.isAlphanum || "_:-".toList.contains c

def ofString? (s : String) : Option LogDirective :=
  match LogLevel.ofString? s with
  | some level => some ⟨[], level⟩
  | none =>
    let place := s.toList.takeWhile isPlaceChar
    if place.isEmpty then none
    else
      match s.toList.drop place.length with
      | [] => some ⟨place, .trace⟩
      | ['='] => some ⟨place, .trace⟩
      | '=' :: level => (LogLevel.ofString? (String.ofList level)).map fun l => ⟨place, l⟩
      | _ => none

def moreExact (a b : LogDirective) : LogDirective :=
  if a.place.length ≤ b.place.length then b else a

end LogDirective

-- The directives of a setting. One that is not understood makes all of it count for nothing; if
-- there are none, only errors are written.
def logDirectives (setting : Option String) : List LogDirective :=
  match setting.bind fun s =>
      ((s.splitOn ",").filter (· ≠ "")).mapM LogDirective.ofString? with
  | none => [⟨[], .info⟩]
  | some [] => [⟨[], .error⟩]
  | some ds => ds

def isLogged (setting : Option String) (level : LogLevel) (place : String) : Bool :=
  match (logDirectives setting).filter fun d => d.place.isPrefixOf place.toList with
  | [] => false
  | d :: ds => level.rank ≤ (ds.foldl LogDirective.moreExact d).level.rank

end Rendezvous.CommandLine
