namespace Rendezvous.CommandLine

inductive NumberError where
  | empty
  | invalidDigit
  | tooLarge
  | tooSmall
  | outOfRange (value : Int) (bound : Nat)
deriving DecidableEq, Repr

def NumberError.message : NumberError → String
  | empty => "cannot parse integer from empty string"
  | invalidDigit => "invalid digit found in string"
  | tooLarge => "number too large to fit in target type"
  | tooSmall => "number too small to fit in target type"
  | outOfRange value bound => toString value ++ " is not in 0..=" ++ toString bound

-- The number that digits spell behind those read so far. The first fault from the left counts:
-- a character that is no digit, or a number beyond the bound.
def readDigits (bound : Nat) (beyond : NumberError) : Nat → List Char → Except NumberError Nat
  | n, [] => .ok n
  | n, c :: cs =>
    if !c.isDigit then .error .invalidDigit
    else
      let n := n * 10 + (c.toNat - '0'.toNat)
      if bound < n then .error beyond else readDigits bound beyond n cs

def unsigned (bound : Nat) (s : String) : Except NumberError Nat :=
  match s.toList with
  | [] => .error .empty
  | ['+'] => .error .invalidDigit
  | '+' :: ds => readDigits bound .tooLarge 0 ds
  | ds => readDigits bound .tooLarge 0 ds

def signed (s : String) : Except NumberError Int :=
  match s.toList with
  | [] => .error .empty
  | ['+'] => .error .invalidDigit
  | ['-'] => .error .invalidDigit
  | '+' :: ds => (readDigits 0x7FFFFFFFFFFFFFFF .tooLarge 0 ds).map Int.ofNat
  | '-' :: ds => (readDigits 0x8000000000000000 .tooSmall 0 ds).map fun n => -Int.ofNat n
  | ds => (readDigits 0x7FFFFFFFFFFFFFFF .tooLarge 0 ds).map Int.ofNat

-- A number from zero up to a bound, which is first read with its sign.
def bounded (bound : Nat) (s : String) : Except NumberError Nat :=
  match signed s with
  | .error e => .error e
  | .ok n => if 0 ≤ n ∧ n ≤ bound then .ok n.toNat else .error (.outOfRange n bound)

end Rendezvous.CommandLine
