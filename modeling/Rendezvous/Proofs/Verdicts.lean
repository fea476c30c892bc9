import Rendezvous.Proofs.Acceptance
import Rendezvous.Proofs.LineReading

namespace Rendezvous

def Says (maxLength : Nat) (bs : Bytes) (text : String) : Prop :=
  ∃ l, bs.line? = some l ∧ l.length ≤ maxLength ∧ Bytes.text? l = some text

def Command.asks : Command → Peer → AccessRequest
  | .register n, peer => ⟨.provider, n, peer⟩
  | .request n, peer => ⟨.consumer, n, peer⟩

-- Why a far end that has sent some bytes is turned away, and what it is told.
inductive Unfit (config : Config) (ruling : Ruling) (peer : Peer) (deadline now : Instant)
    (wire : Connection) (bs : Bytes) : Reply → Error → Prop
  | tooLong (long : config.maxLineLength < bs.lead.length) :
    Unfit config ruling peer deadline now wire bs .invalidProtocol (.protocol .lineTooLong)
  | notUtf8 {l} (line : bs.line? = some l) (fits : l.length ≤ config.maxLineLength)
      (text : Bytes.text? l = none) :
    Unfit config ruling peer deadline now wire bs .invalidProtocol (.protocol .notUtf8)
  | cutOff (line : bs.line? = none) (fits : bs.length ≤ config.maxLineLength)
      (shut : wire.farShut = true ∨ wire.farGone = true) :
    Unfit config ruling peer deadline now wire bs .invalidProtocol (.protocol .closedEarly)
  -- The failure comes before the line is complete, whatever has arrived behind it.
  | broken {part : Bytes} {e : Fault} (read : part <+: bs) (line : part.line? = none)
      (fits : part.length ≤ config.maxLineLength) (fails : wire.readFault = some e) :
    Unfit config ruling peer deadline now wire bs .invalidProtocol (.fault e)
  | late (line : bs.line? = none) (fits : bs.length ≤ config.maxLineLength)
      (late : deadline ≤ now) :
    Unfit config ruling peer deadline now wire bs .invalidProtocol (.protocol .noIdentification)
  | unrecognised {text} (line : Says config.maxLineLength bs text)
      (command : Command.ofLine text = .error .unrecognised) :
    Unfit config ruling peer deadline now wire bs .invalidProtocol
      (.protocol (.refusedLine .unrecognised text))
  | misnamed {text fault} (line : Says config.maxLineLength bs text)
      (command : Command.ofLine text = .error (.name fault)) :
    Unfit config ruling peer deadline now wire bs .invalidServiceName
      (.protocol (.refusedLine (.name fault) text))
  | denied {text c reason} (line : Says config.maxLineLength bs text)
      (command : Command.ofLine text = .ok c) (denies : ruling (c.asks peer) = some reason) :
    Unfit config ruling peer deadline now wire bs .accessDenied (.accessDenied reason)

structure Undecided (config : Config) (deadline now : Instant) (wire : Connection) (bs : Bytes) :
    Prop where
  line  : bs.line? = none
  fits  : bs.length ≤ config.maxLineLength
  «open» : wire.farShut = false ∧ wire.farGone = false
  sound : wire.readFault = none
  early : now < deadline

namespace Broker

variable {b b' : Broker} {e : Event} {i : Nat} {st st' : Stream} {rd : LineReader} {t : Instant}
variable {text : String} {s : Session} {r : Registry} {hs : List Handle} {ws : Connections}
variable {sent : Nat → Bytes} {cause : Error} {c : Command} {n : Name}

def Fails (i : Nat) (cause : Error) : Happening := fun b e b' =>
  e.place? = some i ∧ b.stake i = some .new ∧
    (∃ st unsent, b'.sessions[i]? = some ⟨st, .refusing unsent cause⟩) ∧ ∀ n, cause ≠ .notFound n

def Calls (i : Nat) : Command → Happening
  | .register n => fun b e b' => e.place? = some i ∧ b.stake i = some .new ∧
    ∃ h, b'.stake i = some (.provides h) ∧ b'.registry = (b.registry.register ⟨h, n⟩).2
  | .request n => fun b e b' => e.place? = some i ∧ b.stake i = some .new ∧
    b'.registry = (b.registry.claim n).2 ∧
      ((∃ h, b'.stake i = some (.claims h n)) ∨
        ∃ st unsent, b'.sessions[i]? = some ⟨st, .refusing unsent (.notFound n)⟩)

section

variable (f : (Phase.identifying rd t).Accounts sent b.handles b.wires st)
include f

theorem line?_of_read {bs l rest : Bytes} (read : st.read b.wires rd.room = .done (bs, st', ws))
    (split : bs = l ++ Bytes.newline :: rest) (hl : Bytes.newline ∉ l) :
    (sent st.wire).line? = some (rd.held ++ l) := by
  have ⟨hs, hn, _⟩ := f
  have whole : sent st.wire = (rd.held ++ l) ++ Bytes.newline :: (rest ++ st'.content ws) := by
    rw [hs, (Stream.read_done read).content, split]
    simp
  rw [whole, Bytes.line?_append_newline (by simp [hn, hl])]

variable (fits : rd.size ≤ b.config.maxLineLength)
include fits

theorem Hears.line (h : b.Hears st rd text st' ws) :
    Says b.config.maxLineLength (sent st.wire) text := by
  obtain ⟨bs, rest, st₁, read, push, -⟩ := h
  obtain ⟨_, refused⟩ | ⟨l, rest', split, hl, within, whole⟩ | ⟨_, _, _, part⟩ :=
    LineReader.push_cases fits bs
  · cases push.symm.trans refused
  · rw [whole, LineReader.complete] at push
    split at push <;> cases push
    exact ⟨rd.held ++ l, line?_of_read f read split hl, by simpa using within, ‹_›⟩
  · cases push.symm.trans part

theorem Mishears.unfit {ruling : Ruling} (h : b.Mishears st rd t cause st' ws)
    (moves : (b.wires.get st.wire).pieceLimit ≠ some 0) :
    Unfit b.config ruling st.peer t b.clock (b.wires.get st.wire) (sent st.wire) .invalidProtocol cause := by
  have ⟨hs, hn, _⟩ := f
  have held : rd.held.line? = none := Bytes.line?_eq_none.mpr hn
  have size : rd.held.length ≤ b.config.maxLineLength := by simpa using fits
  cases h
  case fault read =>
    exact .broken (hs ▸ List.prefix_append ..) held size (Stream.read_fails read)
  case ended read =>
    have ⟨content, shut⟩ := Stream.read_nil read rfl rd.room_pos moves
    rw [content, List.append_nil] at hs
    exact .cutOff (hs ▸ held) (hs ▸ size) shut
  case late read late =>
    have ⟨content, _⟩ := Stream.read_waits read
    rw [content, List.append_nil] at hs
    exact .late (hs ▸ held) (hs ▸ size) late
  case refused bs cause _ push read =>
    obtain ⟨long, refused⟩ | ⟨l, rest, split, hl, within, whole⟩ | ⟨_, _, _, part⟩ :=
      LineReader.push_cases fits bs
    · cases push.symm.trans refused
      refine .tooLong ?_
      rw [hs, (Stream.read_done read).content, Bytes.lead_append hn, List.length_append,
        LineReader.length_held]
      exact Nat.lt_of_lt_of_le long (Nat.add_le_add_left Bytes.length_lead_append _)
    · rw [whole, LineReader.complete] at push
      split at push <;> cases push
      exact .notUtf8 (line?_of_read f read split hl) (by simpa using within) ‹_›
    · cases push.symm.trans part

end

theorem Hears.peer (h : b.Hears st rd text st' ws) : st'.peer = st.peer := by
  obtain ⟨_, _, _, read, -, rfl⟩ := h
  exact (Stream.read_done read).peer

theorem Mishears.not_notFound (h : b.Mishears st rd t cause st' ws) : cause ≠ .notFound n := by
  cases h <;> nofun

theorem asks_eq {role : Role} {peer : Peer}
    (asks : c = .register c.name ∧ role = .provider ∨ c = .request c.name ∧ role = .consumer) :
    c.asks peer = ⟨role, c.name, peer⟩ := by
  obtain ⟨hc, rfl⟩ | ⟨hc, rfl⟩ := asks <;> rw [hc] <;> rfl

-- A session that has to wait for its control line knows nothing yet that would decide.
theorem undecided_of_rests (f : (Phase.identifying rd t).Accounts sent b.handles b.wires st)
    (fits : rd.size ≤ b.config.maxLineLength) (own : b.sessions[i]? = some ⟨st, .identifying rd t⟩)
    (rests : b.turn (.session i) = none) :
    Undecided b.config t b.clock (b.wires.get st.wire) (sent st.wire) := by
  have ⟨hs, hn, _⟩ := f
  have ⟨read, early⟩ : st.read b.wires rd.room = .waits ∧ b.clock < t := by
    simp only [turn, sessionTurn, own, identify] at rests
    split at rests
    case h_1 | h_2 => cases rests
    case h_3 => split at rests <;> cases rests
    case h_4 read => exact ⟨read, by simpa using rests⟩
  have ⟨content, sound, «open»⟩ := Stream.read_waits read
  rw [content, List.append_nil] at hs
  exact ⟨hs ▸ Bytes.line?_eq_none.mpr hn, by simpa [hs] using fits, «open», sound, early⟩

theorem Turn.reads_on {p : Phase} {st' : Stream} {rd' : LineReader}
    (turn : b.Turn i st p ⟨st', .identifying rd' t⟩ r hs ws) :
    st'.peer = st.peer ∧ ∃ rd, p = .identifying rd t ∧
      (rd.size ≤ b.config.maxLineLength → rd'.size ≤ b.config.maxLineLength) := by
  cases turn
  case reads rd bs _ push read =>
    refine ⟨(Stream.read_done read).peer, rd, rfl, fun fits => ?_⟩
    obtain ⟨_, refused⟩ | ⟨l, rest, _, _, _, whole⟩ | ⟨r', _, size, part⟩ :=
      LineReader.push_cases fits bs
    · cases push.symm.trans refused
    · rw [whole, LineReader.complete] at push
      split at push <;> cases push
    · cases push.symm.trans part
      exact size

section

variable (turn : b.Turn i st (.identifying rd t) s r hs ws)
variable (own : b.sessions[i]? = some ⟨st, .identifying rd t⟩)
include turn own

-- A session that reads its control line goes on with that, gives up on its far end, or calls. What the
-- sessions share it touches by a call only.
theorem Turn.judged (place : e.place? = some i) :
    ((r = b.registry ∧ hs = b.handles) ∧ ((∃ st' rd', s = ⟨st', .identifying rd' t⟩) ∨
      ∃ cause, Fails i cause b e (b.after i s r hs ws))) ∨
    ∃ c, Calls i c b e (b.after i s r hs ws) := by
  have new : b.stake i = some .new := stake_of own
  have own' : (b.after i s r hs ws).sessions[i]? = some s := getElem?_after own
  cases turn
  case reads => exact .inl ⟨⟨rfl, rfl⟩, .inl ⟨_, _, rfl⟩⟩
  case mishears why =>
    exact .inl ⟨⟨rfl, rfl⟩, .inr ⟨_, place, new, ⟨_, _, own'⟩, fun _ => why.not_notFound⟩⟩
  case misreads | denies => exact .inl ⟨⟨rfl, rfl⟩, .inr ⟨_, place, new, ⟨_, _, own'⟩, nofun⟩⟩
  case registers => exact .inr ⟨.register _, place, new, _, stake_of own', rfl⟩
  case claims    => exact .inr ⟨.request _, place, new, rfl, .inl ⟨_, stake_of own'⟩⟩
  case misses    => exact .inr ⟨.request _, place, new, rfl, .inr ⟨_, _, own'⟩⟩
  case seeks found hears =>
    have same := Registry.erase_eq_self found
    exact .inr ⟨.request _, place, new, same.symm, .inr ⟨_, _, own'⟩⟩

section

variable (f : (Phase.identifying rd t).Accounts sent b.handles b.wires st)
variable (fits : rd.size ≤ b.config.maxLineLength)
include f fits

theorem Turn.unfit (moves : (b.wires.get st.wire).pieceLimit ≠ some 0)
    (fails : Fails i cause b e (b.after i s r hs ws)) :
    ∃ reply, s.phase = .refusing reply.bytes cause ∧ (ws.get s.stream.wire).received = [] ∧
      Unfit b.config (b.policy i) st.peer t b.clock (b.wires.get st.wire) (sent st.wire) reply cause := by
  have ⟨_, _, ⟨st₁, unsent, own₁⟩, ne⟩ := fails
  cases Option.some.inj <| (getElem?_after own).symm.trans own₁
  cases turn
  case mishears why => exact ⟨_, rfl, why.received f, why.unfit f fits moves⟩
  case misreads fault command hears =>
    cases fault
    case unrecognised => exact ⟨_, rfl, hears.received f, .unrecognised (hears.line f fits) command⟩
    case name         => exact ⟨_, rfl, hears.received f, .misnamed (hears.line f fits) command⟩
  case denies command asks denies hears =>
    refine ⟨_, rfl, hears.received f, .denied (hears.line f fits) command ?_⟩
    rw [← hears.peer, asks_eq asks, denies]
  case misses | seeks => exact absurd rfl (ne _)

theorem Turn.allowed (calls : Calls i c b e (b.after i s r hs ws)) :
    ∃ text, Says b.config.maxLineLength (sent st.wire) text ∧ Command.ofLine text = .ok c ∧
      b.policy i (c.asks st.peer) = none := by
  have own' : (b.after i s r hs ws).sessions[i]? = some s := getElem?_after own
  have said {text st'} (hears : b.Hears st rd text st' ws) (command : Command.ofLine text = .ok c)
      (allows : b.policy i (c.asks st'.peer) = none) :
      ∃ text, Says b.config.maxLineLength (sent st.wire) text ∧ Command.ofLine text = .ok c ∧
        b.policy i (c.asks st.peer) = none :=
    ⟨text, hears.line f fits, command, hears.peer ▸ allows⟩
  cases c
  case register n =>
    obtain ⟨-, -, h, holds, registry⟩ := calls
    cases turn <;> cases (stake_of own').symm.trans holds
    case registers command allows hears =>
      cases (List.cons.inj (congrArg Registry.entries registry)).left
      exact said hears command allows
  case request n =>
    obtain ⟨-, -, -, ⟨h, holds⟩ | ⟨st₁, unsent, own₁⟩⟩ := calls
    case inl =>
      cases turn <;> cases (stake_of own').symm.trans holds
      case claims => exact said ‹b.Hears st rd _ _ ws› ‹_› ‹_›
    case inr =>
      cases own'.symm.trans own₁
      cases turn
      case mishears why => exact absurd rfl why.not_notFound
      case misses hears | seeks hears => exact said hears ‹_› ‹_›

end
end
end Broker
end Rendezvous
