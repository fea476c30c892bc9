namespace Rendezvous

inductive SocketAddress where
  | v4 (octets : List Nat) (port : Nat)
  | v6 (groups : List Nat) (scope : Nat) (port : Nat)
deriving DecidableEq, Repr

namespace SocketAddress

abbrev Reader (α : Type) := List Char → Option (α × List Char)

def digitValue (c : Char) : Nat :=
  if c.isDigit then c.toNat - '0'.toNat
  else if 'a' ≤ c && c ≤ 'f' then c.toNat - 'a'.toNat + 10
  else if 'A' ≤ c && c ≤ 'F' then c.toNat - 'A'.toNat + 10
  else 16

def digitsValue (base : Nat) (ds : List Char) : Nat :=
  ds.foldl (fun n c => n * base + digitValue c) 0

def number (base bound : Nat) (maxDigits : Option Nat) (zeroLed : Bool) : Reader Nat := fun cs =>
  let isDigit := fun c => decide (digitValue c < base)
  let ds := cs.takeWhile isDigit
  let n := digitsValue base ds
  if ds = [] then none
  else if maxDigits.any (fun m => decide (m < ds.length)) then none
  else if bound < n then none
  else if !zeroLed && ds.head? == some '0' && decide (1 < ds.length) then none
  else some (n, cs.dropWhile isDigit)

def char (c : Char) : Reader Unit
  | [] => none
  | d :: cs => if d = c then some ((), cs) else none

def separated {α : Type} (sep : Char) (first : Bool) (r : Reader α) : Reader α := fun cs =>
  if first then r cs else (char sep cs).bind fun p => r p.2

def octet : Reader Nat := number 10 255 (some 3) false

def dotted : Reader (List Nat) := fun cs => do
  let (a, cs) ← octet cs
  let (b, cs) ← separated '.' false octet cs
  let (c, cs) ← separated '.' false octet cs
  let (d, cs) ← separated '.' false octet cs
  pure ([a, b, c, d], cs)

def groups (first : Bool) : Nat → Reader (List Nat × Bool)
  | 0 => fun cs => some (([], false), cs)
  | room + 1 => fun cs =>
    let embedded := if room = 0 then none else separated ':' first dotted cs
    match embedded with
    | some ([a, b, c, d], rest) => some (([a * 256 + b, c * 256 + d], true), rest)
    | _ =>
      match separated ':' first (number 16 0xFFFF (some 4) true) cs with
      | none => some (([], false), cs)
      | some (g, rest) =>
        match groups false room rest with
        | none => some (([g], false), rest)
        | some ((gs, mixed), rest) => some ((g :: gs, mixed), rest)

def address6 : Reader (List Nat) := fun cs => do
  let ((front, mixed), cs) ← groups true 8 cs
  if front.length = 8 then pure (front, cs)
  else if mixed then none
  else do
    let (_, cs) ← char ':' cs
    let (_, cs) ← char ':' cs
    let ((back, _), cs) ← groups true (7 - front.length) cs
    pure (front ++ List.replicate (8 - front.length - back.length) 0 ++ back, cs)

def port : Reader Nat := fun cs => do
  let (_, cs) ← char ':' cs
  number 10 0xFFFF none true cs

def scope : Reader Nat := fun cs =>
  match char '%' cs with
  | none => some (0, cs)
  | some (_, rest) => number 10 0xFFFFFFFF none true rest

def socket4 : Reader SocketAddress := fun cs => do
  let (os, cs) ← dotted cs
  let (p, cs) ← port cs
  pure (.v4 os p, cs)

def socket6 : Reader SocketAddress := fun cs => do
  let (_, cs) ← char '[' cs
  let (gs, cs) ← address6 cs
  let (z, cs) ← scope cs
  let (_, cs) ← char ']' cs
  let (p, cs) ← port cs
  pure (.v6 gs z p, cs)

def whole {α : Type} (r : Reader α) (cs : List Char) : Option α :=
  match r cs with
  | some (a, []) => some a
  | _ => none

def ofString? (s : String) : Option SocketAddress :=
  (whole socket4 s.toList).orElse fun _ => whole socket6 s.toList

def isWildcard : SocketAddress → Bool
  | v4 os _ => os.all (· == 0)
  | v6 gs _ _ => gs.all (· == 0)

def portNumber : SocketAddress → Nat
  | v4 _ p => p
  | v6 _ _ p => p

-- Whether only one of two listeners can have its address. Port zero stands for any port that is
-- free.
def overlaps (a b : SocketAddress) : Bool :=
  a.portNumber != 0 && a.portNumber == b.portNumber && (a == b || a.isWildcard || b.isWildcard)

def zerosAhead (gs : List Nat) : Nat := (gs.takeWhile (· == 0)).length

def longestZeros (gs : List Nat) : Nat × Nat :=
  (List.range gs.length).foldl
    (fun best i =>
      let n := zerosAhead (gs.drop i)
      if best.2 < n then (i, n) else best)
    (0, 0)

def hexGroups (gs : List Nat) : String :=
  ":".intercalate (gs.map fun g => String.ofList (Nat.toDigits 16 g))

def dottedText (os : List Nat) : String := ".".intercalate (os.map toString)

-- Eight groups in their shortest form: two or more zeros in a row are left out once, and an
-- address that stands for one of the other family shows it.
def groupsText (gs : List Nat) : String :=
  match gs with
  | [0, 0, 0, 0, 0, 0xFFFF, a, b] =>
    "::ffff:" ++ dottedText [a / 256, a % 256, b / 256, b % 256]
  | _ =>
    let (start, n) := longestZeros gs
    if 1 < n then hexGroups (gs.take start) ++ "::" ++ hexGroups (gs.drop (start + n))
    else hexGroups gs

def display : SocketAddress → String
  | v4 os p => dottedText os ++ ":" ++ toString p
  | v6 gs z p =>
    let zone := if z = 0 then "" else "%" ++ toString z
    "[" ++ groupsText gs ++ zone ++ "]:" ++ toString p

end SocketAddress
end Rendezvous
