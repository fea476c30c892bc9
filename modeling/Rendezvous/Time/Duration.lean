namespace Rendezvous

abbrev Instant := Nat

def nanosPerSecond : Nat := 1000000000

-- The nanoseconds of the longest span: all but one of those in 2 ^ 64 seconds.
def longestNanos : Nat := 0x10000000000000000 * nanosPerSecond - 1

def product? (a b : UInt64) : Option UInt64 :=
  if a.toBitVec.umulOverflow b.toBitVec then none else some (a * b)

def sum? (a b : UInt64) : Option UInt64 :=
  if a.toBitVec.uaddOverflow b.toBitVec then none else some (a + b)

structure Duration where
  nanos : Nat
  le_longest : nanos ≤ longestNanos
deriving DecidableEq

namespace Duration

def ofNanos (n : Nat) : Duration := ⟨min n longestNanos, Nat.min_le_right _ _⟩

def ofSeconds (n : Nat) : Duration := ofNanos (n * nanosPerSecond)

def ofMillis (n : Nat) : Duration := ofNanos (n * 1000000)

def seconds (d : Duration) : Nat := d.nanos / nanosPerSecond

def subsecond (d : Duration) : Nat := d.nanos % nanosPerSecond

def millis (d : Duration) : Nat := d.nanos / 1000000

def ofWords (seconds : UInt64) (subsecond : UInt32) : Duration :=
  ofNanos (seconds.toNat * nanosPerSecond + subsecond.toNat)

def longest : Duration := ⟨longestNanos, Nat.le_refl _⟩

def scaledSubsecond (d : Duration) (k : UInt32) : UInt64 := d.subsecond.toUInt64 * k.toUInt64

-- The whole seconds of a span taken so many times over, if a word holds them. Those that its nanoseconds
-- make are carried.
def scaledSeconds? (d : Duration) (k : UInt32) : Option UInt64 :=
  (product? d.seconds.toUInt64 k.toUInt64).bind
    (sum? · (d.scaledSubsecond k / nanosPerSecond.toUInt64))

def scale (d : Duration) (k : UInt32) : Duration :=
  (d.scaledSeconds? k).elim longest fun seconds =>
    ofWords seconds (d.scaledSubsecond k % nanosPerSecond.toUInt64).toUInt32

def isShorter (a b : Duration) : Bool :=
  a.seconds < b.seconds || (a.seconds == b.seconds && a.subsecond < b.subsecond)

def shorter (a b : Duration) : Duration := if b.isShorter a then b else a

@[simp]
theorem nanos_ofNanos (n : Nat) : (ofNanos n).nanos = min n longestNanos := rfl

def fraction (digits : List Char) : List Char :=
  match (digits.reverse.dropWhile (· == '0')).reverse with
  | [] => []
  | ds => '.' :: ds

def padded (width n : Nat) : List Char :=
  let ds := Nat.toDigits 10 n
  List.replicate (width - ds.length) '0' ++ ds

-- A span in the largest unit that leaves a whole part, from nanoseconds to seconds, with as many
-- decimals as it needs.
def display (d : Duration) : String :=
  let written (unit places : Nat) (name : String) : String :=
    toString (d.nanos / unit) ++ String.ofList (fraction (padded places (d.nanos % unit))) ++ name
  if nanosPerSecond ≤ d.nanos then written nanosPerSecond 9 "s"
  else if 1000000 ≤ d.nanos then written 1000000 6 "ms"
  else if 1000 ≤ d.nanos then written 1000 3 "µs"
  else toString d.nanos ++ "ns"

end Duration
end Rendezvous
