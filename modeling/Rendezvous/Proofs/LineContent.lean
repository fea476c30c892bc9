import Rendezvous.Proofs.LineReading

namespace Rendezvous

namespace Bytes

variable {bs l more rest : Bytes} {maxLength : Nat} {ending : Option Fault}

-- The control line that some bytes begin with and all that follows it, or what is wrong with them,
-- given the failure behind them; without one they are at their end.
def judged (maxLength : Nat) (ending : Option Fault) (bs : Bytes) : Except Error (String × Bytes) :=
  match bs.line?.filter (·.length ≤ maxLength) with
  | some l =>
    match text? l with
    | some text => .ok (text, bs.afterLine)
    | none      => .error (.protocol .notUtf8)
  | none =>
    if maxLength < bs.length then .error (.protocol .lineTooLong)
    else .error (ending.elim (.protocol .closedEarly) .fault)

-- Whatever may follow these bytes does not matter any more.
def Settles (maxLength : Nat) (bs : Bytes) : Prop := newline ∈ bs ∨ maxLength < bs.length

theorem length_lead_le : bs.lead.length ≤ bs.length :=
  (List.takeWhile_sublist _).length_le

theorem judged_line (hn : newline ∉ l) (fits : l.length ≤ maxLength) :
    judged maxLength ending (l ++ newline :: rest) =
      match text? l with
      | some text => .ok (text, rest)
      | none      => .error (.protocol .notUtf8) := by
  simp only [judged, line?_append_newline hn, Option.filter_some, decide_eq_true fits, if_true,
    afterLine_append_newline hn]

theorem judged_tooLong (long : maxLength < bs.lead.length) :
    judged maxLength ending bs = .error (.protocol .lineTooLong) := by
  have unfit : bs.line?.filter (·.length ≤ maxLength) = none := by
    rw [Option.filter_eq_none_iff]
    intro l hl
    rw [← lead_of_line? hl]
    simpa using long
  simp only [judged, unfit, if_pos (Nat.lt_of_lt_of_le long length_lead_le)]

theorem judged_ended (hn : newline ∉ bs) (fits : bs.length ≤ maxLength) :
    judged maxLength ending bs = .error (ending.elim (.protocol .closedEarly) .fault) := by
  simp only [judged, line?_eq_none.mpr hn, Option.filter_none, if_neg (Nat.not_lt.mpr fits)]

end Bytes

namespace Arrivals

variable {r : LineReader} {as more : Arrivals} {maxLength : Nat}

def fault? : Arrivals → Option Fault
  | []               => none
  | .error e :: _    => some e
  | .ok _    :: rest => fault? rest

def reads (p : Except Error (String × Bytes) × Arrivals) : Except Error (String × Bytes) :=
  p.1.map fun q => (q.1, q.2 ++ p.2.untilFault)

-- The bytes that a reader holds and those that are still to arrive are judged as if they came at once.
theorem readOn_judged (hn : Bytes.newline ∉ r.held) (hr : r.size ≤ maxLength) :
    reads (readOn maxLength r as) = (r.held ++ as.untilFault).judged maxLength as.fault? := by
  have size : r.held.length ≤ maxLength := by simpa using hr
  induction as generalizing r
  case nil =>
    rw [untilFault, List.append_nil, Bytes.judged_ended hn size]
    rfl
  case cons piece as hi =>
    cases piece
    case error e =>
      rw [untilFault, List.append_nil, Bytes.judged_ended hn size]
      rfl
    case ok bs =>
      rw [untilFault, fault?, ← List.append_assoc]
      obtain ⟨long, refused⟩ | ⟨l, rest, rfl, hl, within, whole⟩ | ⟨r', _, fits, part⟩ :=
        LineReader.push_cases hr bs
      case inl =>
        have long : maxLength < (r.held ++ bs ++ untilFault as).lead.length := by
          rw [List.append_assoc, Bytes.lead_append hn, List.length_append, LineReader.length_held]
          exact Nat.lt_of_lt_of_le long (Nat.add_le_add_left Bytes.length_lead_append _)
        rw [Bytes.judged_tooLong long]
        simp only [readOn, refused]
        rfl
      case inr.inl =>
        have line : r.held ++ (l ++ Bytes.newline :: rest) ++ untilFault as =
            (r.held ++ l) ++ Bytes.newline :: (rest ++ untilFault as) := by simp
        rw [line, Bytes.judged_line (by simp [hn, hl]) (by simpa using within)]
        simp only [readOn, whole, LineReader.complete]
        cases Bytes.text? (r.held ++ l) <;> rfl
      case inr.inr =>
        obtain ⟨held, hb⟩ := LineReader.push_incomplete part
        have hn' : Bytes.newline ∉ r'.held := by simp [held, hn, hb]
        simp only [readOn, part]
        rw [hi hn' fits (by simpa using fits), held]

theorem readOn_suffix : (readOn maxLength r as).2 <:+ as := by
  induction as generalizing r
  case nil => exact List.suffix_refl _
  case cons piece as hi =>
    cases piece
    case error => exact List.suffix_cons ..
    case ok bs =>
      rw [readOn]
      cases r.push maxLength bs
      case line | refused => exact List.suffix_cons ..
      case incomplete     => exact hi.trans (List.suffix_cons ..)

-- Once the line is settled nothing more is read.
theorem readOn_append (hn : Bytes.newline ∉ r.held) (hr : r.size ≤ maxLength)
    (settled : (r.held ++ as.untilFault).Settles maxLength) :
    readOn maxLength r (as ++ more) =
      ((readOn maxLength r as).1, (readOn maxLength r as).2 ++ more) := by
  have unsettled : ¬ (r.held ++ []).Settles maxLength := by simp [Bytes.Settles, hn, hr]
  induction as generalizing r
  case nil => exact absurd settled unsettled
  case cons piece as hi =>
    cases piece
    case error => exact absurd settled unsettled
    case ok bs =>
      rw [List.cons_append, readOn, readOn]
      obtain ⟨_, refused⟩ | ⟨l, rest, _, _, _, whole⟩ | ⟨r', _, fits, part⟩ :=
        LineReader.push_cases hr bs
      case inl => rw [refused]
      case inr.inl =>
        rw [whole, LineReader.complete]
        cases Bytes.text? (r.held ++ l) <;> rfl
      case inr.inr =>
        obtain ⟨held, hb⟩ := LineReader.push_incomplete part
        have hn' : Bytes.newline ∉ r'.held := by simp [held, hn, hb]
        rw [part]
        refine hi hn' fits ?_ (by simp [Bytes.Settles, hn', fits])
        rwa [held, List.append_assoc]

-- However what arrives is cut, it is read as one pass over all of it says: its first line with what
-- follows, or what is wrong with it. What has not been read is the rest of what arrives, and as soon as
-- enough has arrived to settle the line, no more of it is read.
theorem readLine_by_content (maxLength : Nat) (as : Arrivals) :
    reads (readLine maxLength as) = as.untilFault.judged maxLength as.fault? ∧
    (readLine maxLength as).2 <:+ as ∧
    ∀ more : Arrivals, as.untilFault.Settles maxLength →
      readLine maxLength (as ++ more) =
        ((readLine maxLength as).1, (readLine maxLength as).2 ++ more) :=
  ⟨readOn_judged List.not_mem_nil (Nat.zero_le _), readOn_suffix,
    fun _ settled => readOn_append List.not_mem_nil (Nat.zero_le _) settled⟩

example : readLine 3 [.ok [0xC3], .ok [0xA9, 33], .ok [10, 34], .ok [35], .error ⟨.timedOut, none⟩] =
    (.ok ("é!", [34]), [.ok [35], .error ⟨.timedOut, none⟩]) := by
  rfl

end Arrivals
end Rendezvous
