namespace Rendezvous.Text.Terminal

inductive Mode where
  | text
  | escape
  | escapeRest
  | control
  | deviceStart
  | deviceParameter
  | deviceSign
  | command
  | string
deriving DecidableEq, Repr

def movesCursor (c : Char) : Bool := c == '\t' || c == '\n' || c == '\x0c' || c == '\r'

def isShown (c : Char) : Bool := movesCursor c || (0x20 ≤ c.toNat && c.toNat != 0x7F)

def hasTerminator (c : Char) : Bool := (String.singleton c).toByteArray.data.contains 0x9C

def Mode.heedsCursor : Mode → Bool
  | text | escape | escapeRest | control => true
  | _ => false

def Mode.next (m : Mode) (c : Char) : Mode :=
  let n := c.toNat
  if n = 0x1B then .escape
  else if n = 0x18 ∨ n = 0x1A then .text
  else
    match m with
    | text => text
    | escape =>
      if c = '[' then .control
      else if c = ']' then .command
      else if c = 'P' then .deviceStart
      else if c = 'X' ∨ c = '^' ∨ c = '_' then .string
      else if 0x20 ≤ n ∧ n ≤ 0x2F then .escapeRest
      else if 0x30 ≤ n ∧ n ≤ 0x7E then .text
      else .escape
    | escapeRest => if 0x30 ≤ n ∧ n ≤ 0x7E then .text else .escapeRest
    | control => if 0x40 ≤ n ∧ n ≤ 0x7E then .text else .control
    | deviceStart =>
      if 0x20 ≤ n ∧ n ≤ 0x2F then .deviceSign
      else if c = ':' ∨ (0x40 ≤ n ∧ n ≤ 0x7E) then .string
      else if 0x30 ≤ n ∧ n ≤ 0x3F then .deviceParameter
      else .deviceStart
    | deviceParameter =>
      if 0x20 ≤ n ∧ n ≤ 0x2F then .deviceSign
      else if c = ':' ∨ (0x3C ≤ n ∧ n ≤ 0x7E) then .string
      else .deviceParameter
    | deviceSign => if 0x30 ≤ n ∧ n ≤ 0x7E then .string else .deviceSign
    | command => if n = 7 then .text else .command
    | string => if hasTerminator c then .text else .string

-- What is shown of characters. After one that moved the cursor within a sequence, others are shown
-- too, up to one that is not or one that ends the sequence.
def shownFrom (m : Mode) (showing : Bool) : List Char → List Char
  | [] => []
  | c :: cs =>
    if (showing || m == .text) && isShown c then
      c :: shownFrom (if c.toNat < 0x80 then m else .text) showing cs
    else if m.heedsCursor && movesCursor c then c :: shownFrom m true cs
    else shownFrom (m.next c) false cs

def shown (s : String) : String := String.ofList (shownFrom .text false s.toList)

end Rendezvous.Text.Terminal
