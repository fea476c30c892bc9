import Rendezvous.Network.SocketAddress

namespace Rendezvous.NumericHost

open SocketAddress

-- A number as it is written in programs: hexadecimal behind `0x`, octal behind `0`, and decimal
-- otherwise.
def literal : Reader Nat
  | '0' :: 'x' :: cs => number 16 0xFFFFFFFF none true cs
  | '0' :: 'X' :: cs => number 16 0xFFFFFFFF none true cs
  | '0' :: cs => number 8 0xFFFFFFFF none true ('0' :: cs)
  | cs => number 10 0xFFFFFFFF none true cs

def lowBytes (count n : Nat) : List Nat :=
  (List.range count).reverse.map fun i => n >>> (8 * i) % 256

def octetsOf (parts : List Nat) : Option (List Nat) :=
  match parts.reverse with
  | [] => none
  | last :: front =>
    let left := 4 - front.length
    if 4 ≤ front.length || front.any (255 < ·) || 1 <<< (8 * left) ≤ last then none
    else some (front.reverse ++ lowBytes left last)

def octets? (s : String) : Option (List Nat) := do
  octetsOf (← (s.splitOn ".").mapM fun part => whole literal part.toList)

def zoned : Reader (List Nat × Nat) := fun cs => do
  let (gs, cs) ← address6 cs
  let (zone, cs) ← scope cs
  pure ((gs, zone), cs)

def address? (host : String) (port : Nat) : Option SocketAddress :=
  match octets? host with
  | some os => some (.v4 os port)
  | none => (whole zoned host.toList).map fun (gs, zone) => .v6 gs zone port

end Rendezvous.NumericHost
