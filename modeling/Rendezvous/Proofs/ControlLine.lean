import Mathlib.Tactic.ByContra
import Rendezvous.Control.LineReader

namespace Rendezvous

namespace Bytes

variable {bs l more rest : Bytes}

def line? (bs : Bytes) : Option Bytes :=
  if newline ∈ bs then some (bs.takeWhile (· ≠ newline)) else none

def afterLine (bs : Bytes) : Bytes := (bs.dropWhile (· ≠ newline)).tail

theorem span_newline (h : newline ∉ l) :
    (l ++ newline :: rest).takeWhile (· ≠ newline) = l ∧
    (l ++ newline :: rest).dropWhile (· ≠ newline) = newline :: rest := by
  have hl : ∀ b ∈ l, decide (b ≠ newline) = true := fun b hb => decide_eq_true fun he => h (he ▸ hb)
  rw [List.takeWhile_append_of_pos hl, List.dropWhile_append_of_pos hl]
  simp

theorem line?_append_newline (h : newline ∉ l) : line? (l ++ newline :: rest) = some l := by
  rw [line?, if_pos (by simp), (span_newline h).left]

theorem afterLine_append_newline (h : newline ∉ l) : afterLine (l ++ newline :: rest) = rest := by
  rw [afterLine, (span_newline h).right, List.tail_cons]

theorem eq_of_line? (h : bs.line? = some l) : newline ∉ l ∧ bs = l ++ newline :: bs.afterLine := by
  have hn : newline ∈ bs := by
    by_contra hn
    simp [line?, hn] at h
  have ⟨l', rest, he, hl⟩ := List.eq_append_cons_of_mem hn
  rw [he, line?_append_newline hl] at h
  cases h
  rw [he, afterLine_append_newline hl]
  exact ⟨hl, rfl⟩

theorem line?_append (h : bs.line? = some l) : (bs ++ more).line? = some l := by
  have ⟨hn, he⟩ := eq_of_line? h
  rw [he, List.append_assoc, List.cons_append, line?_append_newline hn]

theorem afterLine_append (h : bs.line? = some l) :
    (bs ++ more).afterLine = bs.afterLine ++ more := by
  have ⟨hn, he⟩ := eq_of_line? h
  conv => { lhs; rw [he] }
  rw [List.append_assoc, List.cons_append, afterLine_append_newline hn]

@[simp]
theorem ofText_append (s t : String) : ofText (s ++ t) = ofText s ++ ofText t := by
  simp [ofText]

end Bytes

namespace LineReader

variable {r r' : LineReader} {bs rest : Bytes} {text : String} {maxLength : Nat}

theorem feed_line (h : feed maxLength r bs = .line text rest) :
    ∃ l, bs = l ++ Bytes.newline :: rest ∧ Bytes.newline ∉ l ∧
      Bytes.text? (r.held ++ l) = some text := by
  induction bs generalizing r <;> simp only [feed] at h
  case nil => cases h
  case cons b bs hi =>
    split at h
    case isTrue hb =>
      unfold complete at h
      split at h <;> cases h
      exact ⟨[], by simp [hb], by simp, by simpa using ‹_›⟩
    case isFalse hb =>
      split at h
      case isTrue  => cases h
      case isFalse =>
        obtain ⟨l, hl, hn, ht⟩ := hi h
        exact ⟨b :: l, by simp [hl], by simp [hn, Ne.symm hb], by simpa using ht⟩

theorem feed_incomplete (h : feed maxLength r bs = .incomplete r') :
    r'.held = r.held ++ bs ∧ Bytes.newline ∉ bs := by
  induction bs generalizing r <;> simp only [feed] at h
  case nil =>
    cases h
    simp
  case cons b bs hi =>
    split at h
    case isTrue =>
      unfold complete at h
      split at h <;> cases h
    case isFalse hb =>
      split at h
      case isTrue  => cases h
      case isFalse =>
        obtain ⟨hl, hn⟩ := hi h
        exact ⟨by simp [hl], by simp [hn, Ne.symm hb]⟩

theorem push_line (h : r.push maxLength bs = .line text rest) :
    ∃ l, bs = l ++ Bytes.newline :: rest ∧ Bytes.newline ∉ l ∧
      Bytes.text? (r.held ++ l) = some text :=
  feed_line (r := { r with capacity := r.grown }) h

theorem push_incomplete (h : r.push maxLength bs = .incomplete r') :
    r'.held = r.held ++ bs ∧ Bytes.newline ∉ bs :=
  feed_incomplete (r := { r with capacity := r.grown }) h

end LineReader

def Command.first? (bs : Bytes) : Option Command :=
  bs.line?.bind fun l => (Bytes.text? l).bind fun t => (Command.ofLine t).toOption

namespace Command

variable {bs l more : Bytes} {c : Command} {text : String}

theorem first?_eq_some (hl : bs.line? = some l) (ht : Bytes.text? l = some text)
    (hc : ofLine text = .ok c) : first? bs = some c := by
  simp [first?, hl, ht, hc, Except.toOption]

theorem line?_of_first? (h : first? bs = some c) : ∃ l, bs.line? = some l :=
  have ⟨l, hl, _⟩ := Option.bind_eq_some_iff.mp h
  ⟨l, hl⟩

theorem first?_append (h : first? bs = some c) : first? (bs ++ more) = some c := by
  have ⟨_, hl⟩ := line?_of_first? h
  simpa [first?, Bytes.line?_append hl, hl] using h

theorem afterLine_append (h : first? bs = some c) :
    (bs ++ more).afterLine = bs.afterLine ++ more :=
  have ⟨_, hl⟩ := line?_of_first? h
  Bytes.afterLine_append hl

end Command

namespace Reply

def bytes (r : Reply) : Bytes := Bytes.ofText r.toLine

-- Replies that differ early on are told apart by their first bytes.
theorem not_prefix_of_take_ne {bs cs more : Bytes} (n : Nat) (hb : n ≤ bs.length)
    (hc : n ≤ cs.length) (h : bs.take n ≠ cs.take n) : ¬bs <+: cs ++ more := by
  intro ⟨t, ht⟩
  have := congrArg (List.take n) ht
  rw [List.take_append_of_le_length hb, List.take_append_of_le_length hc] at this
  exact h this

theorem connected_not_prefix_registered (more : Bytes) :
    ¬connectedToService.bytes <+: serviceRegistered.bytes ++ more :=
  not_prefix_of_take_ne 4 (by decide +kernel) (by decide +kernel) (by decide +kernel)

theorem connected_not_prefix_error (text : String) (more : Bytes) :
    ¬connectedToService.bytes <+: (Reply.error text).bytes ++ more := by
  have : (Reply.error text).bytes = Bytes.ofText "ERROR:" ++ Bytes.ofText (text ++ "\n") := by
    simp [bytes, toLine, String.append_assoc]
  rw [this, List.append_assoc]
  exact not_prefix_of_take_ne 1 (by decide +kernel) (by decide +kernel) (by decide +kernel)

end Reply
end Rendezvous
