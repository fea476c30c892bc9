import Rendezvous.Proofs.CommandWire

namespace Rendezvous

namespace Text

structure Trims (cs ds : List Char) : Prop where
  blanks : ∃ before after, cs = before ++ ds ++ after ∧ ∀ c ∈ before ++ after, isBlank c = true
  front  : ∀ c ∈ ds.head?, isBlank c = false
  back   : ∀ c ∈ ds.getLast?, isBlank c = false

variable {cs ds : List Char}

theorem head?_dropWhile_plain : ∀ c ∈ (cs.dropWhile isBlank).head?, isBlank c = false := by
  intro c hc
  have h := List.head?_dropWhile_not isBlank cs
  rw [hc] at h
  simpa using h

theorem getLast?_trimRight_plain : ∀ c ∈ (trimRight cs).getLast?, isBlank c = false := by
  intro c hc
  have ne : trimRight cs ≠ [] := fun h => by simp [h] at hc
  have h := List.rdropWhile_last_not isBlank cs ne
  rw [Option.mem_def, List.getLast?_eq_some_getLast ne, Option.some_inj] at hc
  exact Bool.eq_false_iff.mpr (hc ▸ h)

theorem head?_trim_plain : ∀ c ∈ (trim cs).head?, isBlank c = false := by
  intro c hc
  obtain ⟨rest, hr⟩ := trimRight_prefix (cs.dropWhile isBlank)
  refine @head?_dropWhile_plain cs c ?_
  rw [← hr, List.head?_append, show (trimRight (cs.dropWhile isBlank)).head? = some c from hc]
  rfl

theorem trims_trim (cs : List Char) : Trims cs (trim cs) where
  blanks := by
    refine ⟨cs.takeWhile isBlank, (cs.dropWhile isBlank).rtakeWhile isBlank, ?_, fun c hc => ?_⟩
    · have right : trim cs ++ (cs.dropWhile isBlank).rtakeWhile isBlank = cs.dropWhile isBlank :=
        List.rdropWhile_append_rtakeWhile
      rw [List.append_assoc, right, List.takeWhile_append_dropWhile]
    · rw [List.mem_append] at hc
      exact hc.elim List.mem_takeWhile_imp List.mem_rtakeWhile_imp
  front := head?_trim_plain
  back  := getLast?_trimRight_plain

theorem trimRight_blanks (h : ∀ c ∈ cs, isBlank c = true) : trimRight cs = [] :=
  List.rdropWhile_eq_nil_iff.mpr h

theorem Trims.eq_trim (h : Trims cs ds) : ds = trim cs := by
  obtain ⟨⟨before, after, rfl, blank⟩, front, back⟩ := h
  simp only [List.mem_append] at blank
  have left : (before ++ ds ++ after).dropWhile isBlank = (ds ++ after).dropWhile isBlank := by
    rw [List.append_assoc, List.dropWhile_append_of_pos fun c hc => blank c (.inl hc)]
  rw [trim, left]
  obtain rfl | ⟨init, last, rfl⟩ := List.eq_nil_or_concat' ds
  case inl =>
    rw [List.nil_append, List.dropWhile_eq_nil_iff.mpr fun c hc => blank c (.inr hc)]
    rfl
  case inr =>
    have plain : isBlank last = false := back last (by simp)
    have whole : (init ++ [last] ++ after).dropWhile isBlank = init ++ last :: after := by
      cases init
      case nil => simp [plain]
      case cons c init =>
        have plain : isBlank c = false := front c rfl
        simp [plain]
    rw [whole, trimRight_append_cons plain, trimRight_blanks fun c hc => blank c (.inr hc)]

theorem trims_iff : Trims cs ds ↔ ds = trim cs :=
  ⟨Trims.eq_trim, fun h => h ▸ trims_trim cs⟩

theorem trim_ended (h : Trims cs ds) : trim (ds ++ ['\n']) = ds := by
  have blank : isBlank '\n' = true := by decide
  exact (Trims.eq_trim ⟨⟨[], ['\n'], by simp, by simp [blank]⟩, h.front, h.back⟩).symm

theorem Trims.back_of_append {w rest : List Char} (h : Trims cs (w ++ ':' :: rest)) :
    ∀ c ∈ rest.getLast?, isBlank c = false := by
  intro c hc
  refine h.back c ?_
  rw [List.getLast?_append, List.getLast?_cons, show rest.getLast? = some c from hc]
  rfl

end Text

theorem splitColon_eq_some {w cs rest : List Char} :
    splitColon cs = some (w, rest) ↔ ':' ∉ w ∧ cs = w ++ ':' :: rest := by
  refine ⟨fun h => ?_, fun ⟨hw, hc⟩ => hc ▸ splitColon_append hw⟩
  induction cs generalizing w
  case nil => cases h
  case cons c cs hi =>
    rw [splitColon] at h
    split at h
    case isTrue hc =>
      cases h
      exact ⟨List.not_mem_nil, hc ▸ rfl⟩
    case isFalse hc =>
      obtain ⟨⟨w', rest'⟩, hs, he⟩ := Option.map_eq_some_iff.mp h
      cases he
      obtain ⟨hw, rfl⟩ := hi hs
      exact ⟨by simp [hw, Ne.symm hc], rfl⟩

theorem eq_append_colon {w cs rest : List Char} (hw : ':' ∉ w) :
    cs = w ++ ':' :: rest ↔ splitColon cs = some (w, rest) := by
  rw [splitColon_eq_some, and_iff_right hw]

namespace Name

variable {s : String} {n : Name} {fault : NameError}

theorem ofString_eq_ok : ofString s = .ok n ↔ n.text = s := by
  refine ⟨fun h => ?_, fun h => h ▸ ofString_text n⟩
  unfold ofString at h
  split at h <;> cases h
  rfl

theorem ofString_eq_error : ofString s = .error fault ↔ nameFault? s = some fault := by
  unfold ofString
  split <;> simp_all

theorem newline_notMem (n : Name) : '\n' ∉ n.text.toList := by
  have ⟨_, _, plain⟩ := n.faultless
  exact fun h => List.any_eq_false.mp plain _ h (by decide)

theorem ofString_faults (s : String) :
    (ofString s = .error .empty ↔ s = "") ∧
    (ofString s = .error .tooLong ↔ s ≠ "" ∧ maxNameLength < s.utf8ByteSize) ∧
    (ofString s = .error .controlCharacter ↔
      s ≠ "" ∧ s.utf8ByteSize ≤ maxNameLength ∧ ∃ c ∈ s.toList, c.toNat < 32 ∨ c.toNat = 127) := by
  simp only [ofString_eq_error, nameFault?]
  split
  case isTrue => simp_all
  case isFalse hs =>
    split
    case isTrue hl => simp [hs, hl, Nat.not_le.mpr hl]
    case isFalse hl =>
      have controls : s.toList.any isControl = true ↔ ∃ c ∈ s.toList, c.toNat < 32 ∨ c.toNat = 127 := by
        simp [isControl]
      split
      case isTrue hc => simp [hs, hl, Nat.le_of_not_lt hl, controls.mp hc]
      case isFalse hc => simp [hs, hl, mt controls.mpr hc]

end Name

namespace Command

variable {line s : String} {c : Command} {fault : NameError} {make : Name → Command}

theorem named_eq_ok : named make s.toList = .ok c ↔ ∃ n : Name, n.text = s ∧ c = make n := by
  unfold named
  rw [String.ofList_toList]
  split
  case h_1 n h =>
    rw [Name.ofString_eq_ok] at h
    refine ⟨fun hc => ⟨n, h, by cases hc; rfl⟩, ?_⟩
    rintro ⟨m, rfl, rfl⟩
    rw [Name.ext h]
  case h_2 h =>
    refine ⟨(by cases ·), ?_⟩
    rintro ⟨n, rfl, -⟩
    cases (Name.ofString_text n).symm.trans h

theorem named_eq_name :
    named make s.toList = .error (.name fault) ↔ Name.ofString s = .error fault := by
  unfold named
  rw [String.ofList_toList]
  split <;> simp_all

theorem named_ne_unrecognised : named make s.toList ≠ .error .unrecognised := by
  unfold named
  split <;> simp

-- A line has the one keyword or the other with something behind it, or it is not recognised.
theorem ofLine_cases (line : String) :
    (∃ s : String, Text.trim line.toList = registerWord ++ ':' :: s.toList ∧
       ofLine line = named register s.toList) ∨
    (∃ s : String, Text.trim line.toList = requestWord ++ ':' :: s.toList ∧
       ofLine line = named request s.toList) ∨
    (∀ s : String, Text.trim line.toList ≠ registerWord ++ ':' :: s.toList ∧
        Text.trim line.toList ≠ requestWord ++ ':' :: s.toList) ∧
      ofLine line = .error .unrecognised := by
  simp only [ne_eq, eq_append_colon (show ':' ∉ registerWord by decide),
    eq_append_colon (show ':' ∉ requestWord by decide), ofLine]
  cases splitColon (Text.trim line.toList)
  case none => simp
  case some p =>
    obtain ⟨w, rest⟩ := p
    by_cases hr : w = registerWord
    case pos => exact .inl ⟨.ofList rest, by rw [hr, String.toList_ofList], by simp [hr]⟩
    case neg =>
      by_cases hq : w = requestWord
      case pos =>
        refine .inr <| .inl ⟨.ofList rest, by rw [hq, String.toList_ofList], ?_⟩
        simp only [if_neg hr, if_pos hq, String.toList_ofList]
      case neg => exact .inr <| .inr ⟨by simp [hr, hq], by simp only [if_neg hr, if_neg hq]⟩

theorem ofLine_register (h : Text.trim line.toList = registerWord ++ ':' :: s.toList) :
    ofLine line = named register s.toList := by
  rw [ofLine, h, splitColon_append (by decide)]
  exact if_pos rfl

theorem ofLine_request (h : Text.trim line.toList = requestWord ++ ':' :: s.toList) :
    ofLine line = named request s.toList := by
  rw [ofLine, h, splitColon_append (by decide)]
  exact (if_neg (by decide)).trans (if_pos rfl)

theorem said_register (n : Name) : (said (register n)).toList = registerWord ++ ':' :: n.text.toList :=
  String.toList_append

theorem said_request (n : Name) : (said (request n)).toList = requestWord ++ ':' :: n.text.toList :=
  String.toList_append

theorem ofLine_eq_ok : ofLine line = .ok c ↔ Text.trim line.toList = c.said.toList := by
  constructor
  case mp =>
    intro h
    obtain ⟨s, ht, hl⟩ | ⟨s, ht, hl⟩ | ⟨-, hl⟩ := ofLine_cases line
    · obtain ⟨n, rfl, rfl⟩ := named_eq_ok.mp (hl.symm.trans h)
      rw [ht, said_register]
    · obtain ⟨n, rfl, rfl⟩ := named_eq_ok.mp (hl.symm.trans h)
      rw [ht, said_request]
    · cases hl.symm.trans h
  case mpr =>
    intro h
    cases c
    case register n =>
      rw [ofLine_register (said_register n ▸ h)]
      exact named_eq_ok.mpr ⟨n, rfl, rfl⟩
    case request n =>
      rw [ofLine_request (said_request n ▸ h)]
      exact named_eq_ok.mpr ⟨n, rfl, rfl⟩

theorem ofLine_eq_name : ofLine line = .error (.name fault) ↔
    ∃ s : String, (Text.trim line.toList = registerWord ++ ':' :: s.toList ∨
        Text.trim line.toList = requestWord ++ ':' :: s.toList) ∧ Name.ofString s = .error fault := by
  constructor
  case mp =>
    intro h
    obtain ⟨s, ht, hl⟩ | ⟨s, ht, hl⟩ | ⟨-, hl⟩ := ofLine_cases line
    · exact ⟨s, .inl ht, named_eq_name.mp (hl.symm.trans h)⟩
    · exact ⟨s, .inr ht, named_eq_name.mp (hl.symm.trans h)⟩
    · cases hl.symm.trans h
  case mpr =>
    rintro ⟨s, ht | ht, h⟩
    · exact (ofLine_register ht).trans (named_eq_name.mpr h)
    · exact (ofLine_request ht).trans (named_eq_name.mpr h)

theorem ofLine_eq_unrecognised : ofLine line = .error .unrecognised ↔
    ∀ s : String, Text.trim line.toList ≠ registerWord ++ ':' :: s.toList ∧
      Text.trim line.toList ≠ requestWord ++ ':' :: s.toList := by
  obtain ⟨s, ht, hl⟩ | ⟨s, ht, hl⟩ | ⟨none, hl⟩ := ofLine_cases line
  · exact iff_of_false (hl ▸ named_ne_unrecognised) fun h => (h s).left ht
  · exact iff_of_false (hl ▸ named_ne_unrecognised) fun h => (h s).right ht
  · exact iff_of_true hl none

theorem newline_notMem_toList_said (c : Command) : '\n' ∉ c.said.toList := by
  cases c
  case register n =>
    rw [said_register, List.mem_append, List.mem_cons, not_or, not_or]
    exact ⟨by decide, by decide, n.newline_notMem⟩
  case request n =>
    rw [said_request, List.mem_append, List.mem_cons, not_or, not_or]
    exact ⟨by decide, by decide, n.newline_notMem⟩

end Command

namespace Reply

variable {line : String} {r : Reply}

def text : Reply → String
  | ok s => s
  | error s => s

def said : Reply → String
  | ok s => "OK:" ++ s
  | error s => "ERROR:" ++ s

theorem toLine_eq (r : Reply) : r.toLine = r.said ++ "\n" := by cases r <;> rfl

theorem said_ok (s : String) : (said (ok s)).toList = okWord ++ ':' :: s.toList :=
  String.toList_append

theorem said_error (s : String) : (said (error s)).toList = errorWord ++ ':' :: s.toList :=
  String.toList_append

theorem ofLine?_eq_some : ofLine? line = some r ↔ Text.trim line.toList = r.said.toList := by
  unfold ofLine?
  cases r
  case ok s =>
    rw [said_ok, eq_append_colon (by decide)]
    cases splitColon (Text.trim line.toList)
    case none => simp
    case some p =>
      obtain ⟨w, rest⟩ := p
      simp only
      split
      case isTrue h => simp [h, ← String.toList_inj]
      case isFalse h => split <;> simp [h]
  case error s =>
    rw [said_error, eq_append_colon (by decide)]
    cases splitColon (Text.trim line.toList)
    case none => simp
    case some p =>
      obtain ⟨w, rest⟩ := p
      simp only
      split
      case isTrue h =>
        have apart : okWord ≠ errorWord := by decide
        simp [h, apart]
      case isFalse h =>
        split
        case isTrue h  => simp [h, ← String.toList_inj]
        case isFalse h => simp [h]

def EndsPlain (r : Reply) : Prop := ∀ c ∈ r.text.toList.getLast?, Text.isBlank c = false

end Reply

theorem Command.settled_of_ofLine {line : String} {c : Command} (h : ofLine line = .ok c) :
    ofLine c.toLine = .ok c ∧ c.EndsPlain := by
  have trims : Text.Trims line.toList c.said.toList := ofLine_eq_ok.mp h ▸ Text.trims_trim _
  constructor
  case left =>
    rw [ofLine_eq_ok, toLine_eq, String.toList_append]
    exact Text.trim_ended trims
  case right =>
    cases c
    case register n => exact Text.Trims.back_of_append (said_register n ▸ trims)
    case request n  => exact Text.Trims.back_of_append (said_request n ▸ trims)

theorem Reply.settled_of_ofLine? {line : String} {r : Reply} (h : ofLine? line = some r) :
    ofLine? r.toLine = some r ∧ r.EndsPlain := by
  have trims : Text.Trims line.toList r.said.toList := ofLine?_eq_some.mp h ▸ Text.trims_trim _
  constructor
  case left =>
    rw [ofLine?_eq_some, toLine_eq, String.toList_append]
    exact Text.trim_ended trims
  case right =>
    cases r
    case ok s    => exact Text.Trims.back_of_append (said_ok s ▸ trims)
    case error s => exact Text.Trims.back_of_append (said_error s ▸ trims)

-- Without the blanks at its ends, a line is a command exactly if it is the line of that command without
-- its end, and likewise a reply. A command is refused for its name exactly if there is no name behind one
-- of the keywords, and is not recognised exactly if there is no keyword. What a line is read as is what
-- its own line is read as, with no blank at its end, and the line of a command ends where it says.
theorem control_lines_exact (line : String) :
    ∃ t : String, (∀ s : String, Text.Trims line.toList s.toList ↔ s = t) ∧
      (∀ c, Command.ofLine line = .ok c ↔ t ++ "\n" = c.toLine) ∧
      (∀ fault, Command.ofLine line = .error (.name fault) ↔
        ∃ s, (t = "REGISTER:" ++ s ∨ t = "REQUEST:" ++ s) ∧ Name.ofString s = .error fault) ∧
      (Command.ofLine line = .error .unrecognised ↔
        ∀ s, t ≠ "REGISTER:" ++ s ∧ t ≠ "REQUEST:" ++ s) ∧
      (∀ r, Reply.ofLine? line = some r ↔ t ++ "\n" = r.toLine) ∧
      (∀ c, Command.ofLine line = .ok c → Command.ofLine c.toLine = .ok c ∧ c.EndsPlain) ∧
      (∀ r, Reply.ofLine? line = some r → Reply.ofLine? r.toLine = some r ∧ r.EndsPlain) ∧
      (∀ c : Command, ∃ s, c.toLine = s ++ "\n" ∧ '\n' ∉ s.toList) ∧
      ∀ s, (Name.ofString s = .error .empty ↔ s = "") ∧
        (Name.ofString s = .error .tooLong ↔ s ≠ "" ∧ maxNameLength < s.utf8ByteSize) ∧
        (Name.ofString s = .error .controlCharacter ↔
          s ≠ "" ∧ s.utf8ByteSize ≤ maxNameLength ∧ ∃ c ∈ s.toList, c.toNat < 32 ∨ c.toNat = 127) := by
  have whole s : String.ofList (Text.trim line.toList) = s ↔ Text.trim line.toList = s.toList := by
    rw [← String.toList_inj, String.toList_ofList]
  have register s : ("REGISTER:" ++ s).toList = Command.registerWord ++ ':' :: s.toList :=
    String.toList_append
  have request s : ("REQUEST:" ++ s).toList = Command.requestWord ++ ':' :: s.toList :=
    String.toList_append
  refine ⟨String.ofList (Text.trim line.toList), fun s => ?_, fun c => ?_, fun fault => ?_, ?_, fun r => ?_,
    fun _ => Command.settled_of_ofLine, fun _ => Reply.settled_of_ofLine?,
    fun c => ⟨c.said, c.toLine_eq, c.newline_notMem_toList_said⟩, Name.ofString_faults⟩
  case refine_1 => rw [Text.trims_iff, eq_comm (a := s), whole, eq_comm]
  case refine_2 => rw [Command.ofLine_eq_ok, Command.toLine_eq, String.append_left_inj, whole]
  case refine_3 => simp only [Command.ofLine_eq_name, whole, register, request]
  case refine_4 => simp only [Command.ofLine_eq_unrecognised, ne_eq, whole, register, request]
  case refine_5 => rw [Reply.ofLine?_eq_some, Reply.toLine_eq, String.append_left_inj, whole]

theorem control_lines_exact_spaced :
    Command.ofLine " REQUEST:a:b\r" = .ok (.request ⟨"a:b", by decide⟩) ∧
      Command.ofLine "REQUEST:a:b\n" = .ok (.request ⟨"a:b", by decide⟩) ∧
      Reply.ofLine? "OK: go \t" = some (.ok " go") ∧ Reply.ofLine? "OK: go\n" = some (.ok " go") := by
  have command : Command.ofLine " REQUEST:a:b\r" = .ok (.request ⟨"a:b", by decide⟩) := by
    decide +kernel
  have reply : Reply.ofLine? "OK: go \t" = some (.ok " go") := by decide +kernel
  obtain ⟨_, _, _, _, _, _, commands, _⟩ := control_lines_exact " REQUEST:a:b\r"
  obtain ⟨_, _, _, _, _, _, _, replies, _⟩ := control_lines_exact "OK: go \t"
  exact ⟨command, (commands _ command).left, reply, (replies _ reply).left⟩

end Rendezvous
