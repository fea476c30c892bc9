import Rendezvous.WebSocket.Error

namespace Rendezvous.WebSocket

structure Url where
  scheme : Option String := none
  -- The host, with a port if one is given, and what is in front of it.
  authority : Option (List Char) := none
deriving DecidableEq, Repr

namespace Url

def isSchemeChar (c : Char) : Bool := c.isAlphanum || "+-.~".toList.contains c

def maxScheme : Nat := 64

def maxLength : Nat := 65534

def afterScheme? (scheme : String) (cs : List Char) : Option (List Char) :=
  let mark := (scheme ++ "://").toList
  if (cs.take mark.length).map Char.toLower = mark then some (cs.drop mark.length) else none

def splitScheme (cs : List Char) : Except SyntaxError (Option String × List Char) :=
  match afterScheme? "http" cs, afterScheme? "https" cs with
  | some rest, _ => .ok (some "http", rest)
  | _, some rest => .ok (some "https", rest)
  | none, none =>
    let name := cs.takeWhile isSchemeChar
    match cs.drop name.length with
    | ':' :: '/' :: '/' :: rest =>
      if rest.isEmpty && name.isEmpty then .ok (none, cs)
      else if maxScheme < name.length then .error .schemeTooLong
      else .ok (some (String.ofList name), rest)
    | _ => .ok (none, cs)

def isAuthorityChar (c : Char) : Bool :=
  c.isAlphanum || "!$&'()*+,-.:;=@[]_~".toList.contains c

structure AuthorityScan where
  colons : Nat := 0
  opened : Bool := false
  closed : Bool := false
  percent : Bool := false

def AuthorityScan.step (s : AuthorityScan) (c : Char) : Except SyntaxError AuthorityScan :=
  if c = ':' then
    if 8 ≤ s.colons then .error .invalidAuthority else .ok { s with colons := s.colons + 1 }
  else if c = '[' then
    if s.percent || s.opened then .error .invalidAuthority else .ok { s with opened := true }
  else if c = ']' then
    if !s.opened || s.closed then .error .invalidAuthority
    else .ok { s with closed := true, colons := 0, percent := false }
  else if c = '@' then .ok { s with colons := 0, percent := false }
  else if c = '%' then .ok { s with percent := true }
  else if isAuthorityChar c then .ok s
  else .error .invalidCharacter

def endsAuthority (c : Char) : Bool := c == '/' || c == '?' || c == '#'

def splitAuthority (cs : List Char) : Except SyntaxError (List Char × List Char) := do
  if cs.isEmpty then throw .empty
  let front := cs.takeWhile fun c => !endsAuthority c
  let s ← front.foldlM AuthorityScan.step {}
  if s.opened != s.closed || decide (1 < s.colons) || front.getLast? == some '@' || s.percent then
    throw .invalidAuthority
  pure (front, cs.drop front.length)

def isPathChar (c : Char) : Bool :=
  let n := c.toNat
  n == 0x21 || n == 0x22 || (0x24 ≤ n && n ≤ 0x3B) || n == 0x3D || (0x40 ≤ n && n ≤ 0x5F) ||
    (0x61 ≤ n && n ≤ 0x7E) || 0x80 ≤ n

def isQueryChar (c : Char) : Bool :=
  let n := c.toNat
  n == 0x21 || (0x24 ≤ n && n ≤ 0x3B) || n == 0x3D || (0x3F ≤ n && n ≤ 0x7E) || 0x80 ≤ n

def checkPath (cs : List Char) : Except SyntaxError Unit :=
  let plain := cs.takeWhile (· ≠ '#')
  let path := plain.takeWhile (· ≠ '?')
  if path.all isPathChar && (plain.drop (path.length + 1)).all isQueryChar then .ok ()
  else .error .invalidCharacter

def ofString (s : String) : Except SyntaxError Url := do
  if maxLength < s.utf8ByteSize then throw .tooLong
  match s.toList with
  | [] => throw .empty
  | ['/'] => pure {}
  | ['*'] => pure {}
  | [c] =>
    let (authority, path) ← splitAuthority [c]
    if path.isEmpty then pure { authority := some authority } else throw .invalidCharacter
  | '/' :: rest => do
    checkPath ('/' :: rest)
    pure {}
  | cs =>
    let (scheme, rest) ← splitScheme cs
    let (authority, path) ← splitAuthority rest
    match scheme with
    | none =>
      if path.isEmpty then pure { authority := some authority } else throw .invalidFormat
    | some _ =>
      if authority.isEmpty then throw .invalidFormat
      checkPath path
      pure { scheme, authority := some authority }

def hostOf (authority : List Char) : List Char :=
  let host := (authority.reverse.takeWhile (· ≠ '@')).reverse
  match host with
  | '[' :: rest => '[' :: (rest.takeWhile (· ≠ ']') ++ [']'])
  | _ => host.takeWhile (· ≠ ':')

def portOf? (authority : List Char) : Option Nat :=
  if authority.contains ':' then
    let ds : List Char := match (authority.reverse.takeWhile (· ≠ ':')).reverse with
      | '+' :: ds => ds
      | ds => ds
    let n := ds.foldl (fun n c => n * 10 + (c.toNat - '0'.toNat)) 0
    if !ds.isEmpty && ds.all Char.isDigit && decide (n ≤ 65535) then some n else none
  else none

def schemePort? : Option String → Option Nat
  | some "ws" => some 80
  | some "wss" => some 443
  | _ => none

def target (u : Url) : Except UrlError String :=
  match u.authority with
  | none => .error .noHost
  | some authority =>
    match (portOf? authority).orElse fun _ => schemePort? u.scheme with
    | none => .error .unsupportedScheme
    | some port => .ok (String.ofList (hostOf authority) ++ ":" ++ toString port)

end Url
end Rendezvous.WebSocket
