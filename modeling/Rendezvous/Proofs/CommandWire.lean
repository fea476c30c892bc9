import Mathlib.Data.List.DropRight
import Rendezvous.Proofs.LineReading
import Rendezvous.Proofs.Pairing

namespace Rendezvous

namespace Bytes

theorem text?_ofText (s : String) : text? (ofText s) = some s := by
  unfold text? ofText String.fromUTF8?
  rw [Array.toArray_toList, dif_pos s.isValidUTF8]
  rfl

theorem length_ofText {s : String} : (ofText s).length = s.utf8ByteSize := by
  unfold ofText
  rfl

theorem ofText_ofList (cs : List Char) :
    ofText (String.ofList cs) = cs.flatMap String.utf8EncodeChar := by
  simp [ofText, List.utf8Encode]

theorem ofNat_ne_newline {n : Nat} (h : 128 ≤ n % 256) : UInt8.ofNat n ≠ newline := by
  intro he
  have := congrArg UInt8.toNat he
  rw [UInt8.toNat_ofNat'] at this
  change n % 256 = 10 at this
  omega

-- The byte that ends a line is part of no character but its own.
theorem eq_newline_of_mem {c : Char} (h : newline ∈ String.utf8EncodeChar c) : c.toNat = 10 := by
  unfold String.utf8EncodeChar at h
  simp only at h
  split at h
  case isTrue hc =>
    have := congrArg UInt8.toNat (List.mem_singleton.mp h)
    rw [UInt8.toNat_ofNat'] at this
    change 10 = c.toNat % 256 at this
    change c.toNat ≤ 127 at hc
    omega
  case isFalse =>
    exfalso
    (repeat' split at h) <;> simp only [List.mem_cons, List.not_mem_nil, or_false] at h
    · rcases h with h | h <;> exact ofNat_ne_newline (by omega) h.symm
    · rcases h with h | h | h <;> exact ofNat_ne_newline (by omega) h.symm
    · rcases h with h | h | h | h <;> exact ofNat_ne_newline (by omega) h.symm

theorem newline_notMem_ofText {s : String} (h : s.toList.any isControl = false) :
    newline ∉ ofText s := by
  intro hn
  rw [← String.ofList_toList (s := s), ofText_ofList] at hn
  have ⟨c, hc, hb⟩ := List.mem_flatMap.mp hn
  refine absurd (List.any_eq_false.mp h c hc) ?_
  simp [isControl, eq_newline_of_mem hb]

end Bytes

namespace Text

variable {cs ds : List Char} {c : Char}

theorem trimRight_prefix (cs : List Char) : trimRight cs <+: cs :=
  List.rdropWhile_prefix isBlank cs

theorem trimRight_eq_self (h : ∀ c ∈ cs.getLast?, isBlank c = false) : trimRight cs = cs :=
  List.rdropWhile_eq_self_iff.mpr fun hl => by
    simpa using h _ (List.getLast?_eq_some_getLast hl)

theorem trimRight_append_cons (hc : isBlank c = false) :
    trimRight (cs ++ c :: ds) = cs ++ c :: trimRight ds := by
  unfold trimRight
  rw [List.reverse_append, List.reverse_cons, List.append_assoc, List.dropWhile_append]
  split <;> simp_all

end Text

theorem splitColon_append {w cs : List Char} (h : ':' ∉ w) :
    splitColon (w ++ ':' :: cs) = some (w, cs) := by
  induction w
  case nil => rfl
  case cons a w hi =>
    rw [List.mem_cons, not_or] at h
    rw [List.cons_append, splitColon, if_neg (Ne.symm h.left), hi h.right]
    rfl

namespace Name

variable {n : Name}

theorem faultless (n : Name) : n.text ≠ "" ∧ n.text.utf8ByteSize ≤ maxNameLength ∧
    n.text.toList.any isControl = false := by
  have h := n.valid
  unfold nameFault? at h
  (repeat' split at h) <;> cases h
  exact ⟨‹_›, Nat.le_of_not_lt ‹_›, Bool.eq_false_iff.mpr ‹_›⟩

-- What is left of a name without the blanks at its end is a name, if it is anything at all.
theorem ofString_trimRight (n : Name) :
    (Text.trimRight n.text.toList = [] ∧
      ofString (String.ofList (Text.trimRight n.text.toList)) = .error .empty) ∨
    ∃ m : Name, m.text.toList = Text.trimRight n.text.toList ∧
      ofString (String.ofList (Text.trimRight n.text.toList)) = .ok m := by
  have ⟨_, short, plain⟩ := n.faultless
  have ⟨rest, hr⟩ := Text.trimRight_prefix n.text.toList
  generalize Text.trimRight n.text.toList = cs at hr
  cases cs
  case nil => exact .inl ⟨rfl, rfl⟩
  case cons c cs =>
    have valid : nameFault? (String.ofList (c :: cs)) = none := by
      have short' : (String.ofList (c :: cs)).utf8ByteSize ≤ maxNameLength := by
        refine Nat.le_trans ?_ short
        rw [← String.ofList_toList (s := n.text), ← hr, String.ofList_append,
          String.utf8ByteSize_append]
        exact Nat.le_add_right ..
      have plain' : (String.ofList (c :: cs)).toList.any isControl = false := by
        rw [← hr, List.any_append, Bool.or_eq_false_iff] at plain
        rw [String.toList_ofList]
        exact plain.left
      unfold nameFault?
      rw [if_neg, if_neg (Nat.not_lt.mpr short'), plain', if_neg Bool.false_ne_true]
      exact fun he => by simpa using congrArg String.toList he
    exact .inr ⟨⟨_, valid⟩, String.toList_ofList, ofString_text ⟨_, valid⟩⟩

end Name

namespace Command

variable {c c' d : Command} {payload more : Bytes} {maxLength : Nat}

def withName : Command → Name → Command
  | register _, n => register n
  | request _, n => request n

def heard (c : Command) : Except CommandError Command :=
  named c.withName (Text.trimRight c.name.text.toList)

def said : Command → String
  | register n => "REGISTER:" ++ n.text
  | request n => "REQUEST:" ++ n.text

theorem toLine_eq (c : Command) : c.toLine = c.said ++ "\n" := by cases c <;> rfl

theorem ofText_toLine (c : Command) :
    Bytes.ofText c.toLine = Bytes.ofText c.said ++ [Bytes.newline] := by
  rw [toLine_eq, Bytes.ofText_append]
  rfl

theorem newline_notMem_said (c : Command) : Bytes.newline ∉ Bytes.ofText c.said := by
  have ⟨_, _, plain⟩ := c.name.faultless
  cases c <;> rw [said, Bytes.ofText_append, List.mem_append, not_or]
  all_goals exact ⟨by decide +kernel, Bytes.newline_notMem_ofText plain⟩

theorem length_said_le (c : Command) : (Bytes.ofText c.said).length ≤ 9 + maxNameLength := by
  have ⟨_, short, _⟩ := c.name.faultless
  cases c <;> rw [said, Bytes.ofText_append, List.length_append]
  case register => exact Nat.add_le_add (by decide +kernel) (Bytes.length_ofText ▸ short)
  case request  => exact Nat.add_le_add (by decide +kernel) (Bytes.length_ofText ▸ short)

theorem trim_append {w cs : List Char} (hw : Text.isBlank (w.headD ':') = false) :
    Text.trim (w ++ ':' :: cs) = w ++ ':' :: Text.trimRight cs := by
  have hd : (w ++ ':' :: cs).dropWhile Text.isBlank = w ++ ':' :: cs := by
    cases w <;> rw [List.headD] at hw <;> simp [hw]
  rw [Text.trim, hd, Text.trimRight_append_cons rfl]

theorem ofLine_of_toList {line : String} {w cs : List Char}
    (h : line.toList = w ++ ':' :: cs) (hb : Text.isBlank (w.headD ':') = false) (hw : ':' ∉ w) :
    ofLine line =
      if w = registerWord then named register (Text.trimRight cs)
      else if w = requestWord then named request (Text.trimRight cs)
      else .error .unrecognised := by
  rw [ofLine, h, trim_append hb, splitColon_append hw]

theorem ofLine_said (c : Command) : ofLine c.said = c.heard := by
  cases c
  case register n =>
    have h : (said (register n)).toList = registerWord ++ ':' :: n.text.toList := by
      rw [said, String.toList_append]
      rfl
    rw [ofLine_of_toList h (by decide) (by decide), if_pos rfl]
    rfl
  case request n =>
    have h : (said (request n)).toList = requestWord ++ ':' :: n.text.toList := by
      rw [said, String.toList_append]
      rfl
    rw [ofLine_of_toList h (by decide) (by decide), if_neg (by decide), if_pos rfl]
    rfl

theorem heard_cases (c : Command) :
    (Text.trimRight c.name.text.toList = [] ∧ c.heard = .error (.name .empty)) ∨
      ∃ n : Name, n.text.toList = Text.trimRight c.name.text.toList ∧ c.heard = .ok (c.withName n) := by
  obtain ⟨hn, he⟩ | ⟨n, hn, he⟩ := c.name.ofString_trimRight
  · exact .inl ⟨hn, by rw [heard, named, he]⟩
  · exact .inr ⟨n, hn, by rw [heard, named, he]⟩

theorem name_of_heard (h : c.heard = .ok d) :
    d.name.text.toList = Text.trimRight c.name.text.toList := by
  obtain ⟨-, he⟩ | ⟨n, hn, he⟩ := c.heard_cases
  · cases h.symm.trans he
  · cases h.symm.trans he
    rw [← hn]
    cases c <;> rfl

def EndsPlain (c : Command) : Prop := ∀ a ∈ c.name.text.toList.getLast?, Text.isBlank a = false

instance : Decidable c.EndsPlain := Option.decidableForallMem c.name.text.toList.getLast?

theorem EndsPlain.heard (p : c.EndsPlain) : c.heard = .ok c := by
  rw [Command.heard, Text.trimRight_eq_self p, named, String.ofList_toList, Name.ofString_text]
  cases c <;> rfl

theorem awaits_said (c : Command) (hm : 9 + maxNameLength ≤ maxLength) :
    LineReader.Awaits maxLength {} c.said (Bytes.ofText c.said) where
  within := c.newline_notMem_said
  fits   := by
    have := c.length_said_le
    simp only
    omega
  spells := by simpa [LineReader.held] using Bytes.text?_ofText c.said

theorem first?_toLine (c : Command) (more : Bytes) :
    first? (Bytes.ofText c.toLine ++ more) = c.heard.toOption := by
  rw [ofText_toLine, List.append_assoc, List.singleton_append, first?,
    Bytes.line?_append_newline c.newline_notMem_said]
  simp [Bytes.text?_ofText, ofLine_said]

end Command

theorem Phase.Accounts.first {sent : Nat → Bytes} {hs : List Handle} {cs : Connections} {st : Stream}
    {p : Phase} {h : Nat} (f : p.Accounts sent hs cs st) (hp : p.stake = .provides h) :
    ∃ hd, hs[h]? = some hd ∧ Command.first? (sent st.wire) = some (.register hd.name) := by
  cases p <;> cases hp
  case welcoming          => exact ⟨f.choose, f.choose_spec.left, f.choose_spec.right.left.first⟩
  case idling | overflowing => exact ⟨f.choose, f.choose_spec.left, f.choose_spec.right.intact.first⟩

namespace Broker

variable {config : Config} {policy : Policy} {b : Broker} {es : List Event} {i : Nat}
variable {x : Registration}

theorem first?_of_registers (h : (fresh config policy).Occurs es (Registers i x)) :
    Command.first? ((fresh config policy).sent i es) = some (.register x.name) := by
  obtain ⟨before, e, after, b, b', rfl, run, hs, -, -, provides, -, registry⟩ := h
  have run := (run?_snoc run).trans hs
  have sound := Sound.of_run run
  have ⟨s, hs, hq⟩ := stake_eq_some.mp provides
  have ⟨hd, hh, first⟩ := ((Accounted.of_run run).session hs).first hq
  have ⟨hd', hh', named, _⟩ := sound.tended.enrolled (x := x) <| registry ▸
    Registry.mem_register.mpr (.inl rfl)
  cases hh.symm.trans hh'
  rw [sound.wired.own hs, named] at first
  rw [List.append_cons, sent_append run]
  exact Command.first?_append first

theorem first?_of_claims (h : (fresh config policy).Occurs es (Claims i x)) :
    Command.first? ((fresh config policy).sent i es) = some (.request x.name) := by
  obtain ⟨before, e, after, b, b', rfl, run, hs, -, -, claims, -, -⟩ := h
  have run := (run?_snoc run).trans hs
  have ⟨⟨st, ph⟩, hs, hq⟩ := stake_eq_some.mp claims
  cases ph <;> cases hq
  have first := ((Accounted.of_run run).session hs).left.first
  rw [(Sound.of_run run).wired.own hs] at first
  rw [List.append_cons, sent_append run]
  exact Command.first?_append first

end Broker

namespace Command

-- Who reads what begins with the line of a command, in whatever pieces it comes, hears that command and
-- is left with what follows the line; and a session does by no other name what its far end has asked
-- for. The name that is heard is the one that was said, without the blanks at its end.
theorem heard_over_wire (c : Command) (payload : Bytes) {maxLength : Nat} (hm : 264 ≤ maxLength) :
    (∀ as : Arrivals, as.untilFault = Bytes.ofText c.toLine ++ payload →
      ∃ text beyond rest, as.readLine maxLength = (.ok (text, beyond), rest) ∧
        ofLine text = c.heard ∧ beyond ++ rest.untilFault = payload) ∧
    (∀ (s : Stream) ws, (ws.get s.wire).Yields → s.content ws = Bytes.ofText c.toLine ++ payload →
      ∃ text s' ws', s.readLine maxLength ws = (.line text, s', ws') ∧ ofLine text = c.heard ∧
        ∀ limit, 0 < limit → (s'.drain limit ws').1 = payload) ∧
    (∀ config policy es i (x : Registration),
      (Broker.fresh config policy).sent i es = Bytes.ofText c.toLine ++ payload →
      ((Broker.fresh config policy).Occurs es (Broker.Registers i x) → c.heard = .ok (.register x.name)) ∧
      ((Broker.fresh config policy).Occurs es (Broker.Claims i x) → c.heard = .ok (.request x.name))) ∧
    ((Text.trimRight c.name.text.toList = [] ∧ c.heard = .error (.name .empty)) ∨
      ∃ n : Name, n.text.toList = Text.trimRight c.name.text.toList ∧
        c.heard = .ok (c.withName n)) ∧
    (c.EndsPlain → c.heard = .ok c) ∧
    ∀ c' d d' : Command, c.heard = .ok d → c'.heard = .ok d' →
      (d.name = d'.name ↔
        Text.trimRight c.name.text.toList = Text.trimRight c'.name.text.toList) := by
  have awaits := c.awaits_said hm
  refine ⟨fun as has => ?_, fun s ws y hs => ?_, fun config policy es i x hs => ?_, c.heard_cases,
    EndsPlain.heard, fun c' d d' hd hd' => ?_⟩
  case refine_1 =>
    rw [ofText_toLine, List.append_assoc, List.singleton_append] at has
    have ⟨beyond, rest, hr, hp⟩ := Arrivals.readOn_line awaits has
    exact ⟨c.said, beyond, rest, hr, c.ofLine_said, hp⟩
  case refine_2 =>
    rw [ofText_toLine, List.append_assoc, List.singleton_append] at hs
    have ⟨s', ws', hr, hp, y'⟩ := Stream.readLineOn_line awaits y hs (Nat.lt_succ_self _)
    exact ⟨c.said, s', ws', hr, c.ofLine_said, fun _ hl => (Stream.drain_content y' hl).trans hp⟩
  case refine_3 =>
    have first := c.first?_toLine payload
    rw [← hs] at first
    have hears {d} (h : first? ((Broker.fresh config policy).sent i es) = some d) :
        c.heard = .ok d := by
      rw [first] at h
      cases hc : c.heard <;> rw [hc] at h <;> cases h
      rfl
    exact ⟨fun h => hears (Broker.first?_of_registers h), fun h => hears (Broker.first?_of_claims h)⟩
  case refine_4 => rw [← name_of_heard hd, ← name_of_heard hd', String.toList_inj, Name.ext_iff]

def greetingPieces : Arrivals := ["REGIS", "TER:cam1\nhe", "llo"].map fun s => .ok (Bytes.ofText s)

theorem heard_over_wire_pieces :
    264 ≤ defaultMaxLineLength ∧
      ∃ text beyond rest, greetingPieces.readLine defaultMaxLineLength = (.ok (text, beyond), rest) ∧
        ofLine text = .ok (.register ⟨"cam1", by decide⟩) ∧
        beyond ++ rest.untilFault = Bytes.ofText "hello" := by
  refine ⟨by decide, ?_⟩
  have ⟨pieces, _, _, _, plain, _⟩ :=
    heard_over_wire (.register ⟨"cam1", by decide⟩) (Bytes.ofText "hello") (show 264 ≤ 1024 by decide)
  have heard := plain (by decide)
  exact heard ▸ pieces greetingPieces (by decide +kernel)

-- The blank at the end of a name is lost, and with it the name.
theorem not_heard_as_said :
    ¬∀ (c : Command) payload maxLength (as : Arrivals), 264 ≤ maxLength →
      as.untilFault = Bytes.ofText c.toLine ++ payload →
      ∃ text beyond rest, as.readLine maxLength = (.ok (text, beyond), rest) ∧
        ofLine text = .ok c ∧ beyond ++ rest.untilFault = payload := by
  intro said
  have ⟨text, beyond, rest, read, heard, _⟩ :=
    said (.register ⟨"cam1 ", by decide⟩) [] 264 [.ok (Bytes.ofText "REGISTER:cam1 \n")]
      (Nat.le_refl _) (by decide +kernel)
  have now : Arrivals.readLine 264 [.ok (Bytes.ofText "REGISTER:cam1 \n")] =
      (.ok ("REGISTER:cam1 ", []), []) := by decide +kernel
  cases now.symm.trans read
  exact absurd heard (by decide +kernel)

end Command
end Rendezvous
