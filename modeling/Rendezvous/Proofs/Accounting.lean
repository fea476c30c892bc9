import Rendezvous.Proofs.BridgeRuns
import Rendezvous.Proofs.LineReading

namespace Rendezvous

def BridgeStats.bytes (s : BridgeStats) : Direction → Nat
  | .aToB => s.aToB
  | .bToA => s.bToA

theorem Bridge.bytes_stats {br : Bridge} {d : Direction} :
    br.stats.bytes d = (br.loop d).counted := by
  cases d <;> rfl

namespace Broker

variable {a b b' : Broker} {e : Event} {es : List Event} {br br' : Bridge} {d : Direction}
variable {written : Bytes}

-- A loop is stopped, by a failure or because the other one has ended, before all of the chunk that it
-- has read last is written and flushed.
def CutShort (i : Nat) (d : Direction) : Happening := fun b e b' =>
  e = .turn (.copy i d) ∧ ∃ br br' unsent, b.bridge? i = some br ∧ b'.bridge? i = some br' ∧
    (br.loop d).phase = .writing unsent ∧ (br'.loop d).phase.unsent? = none

theorem cutShort_iff (hosts : b.Hosts br) (hosts' : b'.Hosts br') : CutShort 0 d b e b' ↔
    e = .turn (.copy 0 d) ∧ (∃ unsent, (br.loop d).phase = .writing unsent) ∧
      (br'.loop d).phase.unsent? = none := by
  simp [CutShort, hosts.bridge?_eq, hosts'.bridge?_eq]

-- What a loop has written and counted: all chunks that it has read, or all but the last one, of which
-- some part is written.
inductive Books (a : Broker) (es : List Event) (br : Bridge) (d : Direction) (written : Bytes) : Prop
  | whole (settled : ∀ unsent, (br.loop d).phase ≠ .writing unsent)
      (written : written = (br.loop d).taken)
      (counted : (br.loop d).counted = (br.loop d).taken.length)
      (uncut : ¬a.Occurs es (CutShort 0 d))
      (runs : (br.loop d).phase = .reading → ¬a.Occurs es (Stops 0 d none))
  | within {part unsent : Bytes} {rest : List Bytes}
      (chunks : (br.loop d).chunks = (part ++ unsent) :: rest)
      (size : (part ++ unsent).length ≤ br.bufferSize)
      (written : written = Bytes.joined rest ++ part)
      (counted : (br.loop d).counted = (Bytes.joined rest).length)
      (unended : ¬a.Occurs es (Stops 0 d none))
      (busy : (br.loop d).phase = .writing unsent ∧ ¬a.Occurs es (CutShort 0 d) ∨
        (br.loop d).phase.unsent? = none ∧ a.Occurs es (CutShort 0 d))

namespace Books

section

variable (run : a.run? es = some b) (next : b.step? e = some b')
variable (hosts : b.Hosts br) (hosts' : b'.Hosts br')
include run next hosts hosts'

theorem others (step : b.HostStep br e b' br') (hn : e ≠ .turn (.copy 0 d))
    (loop : br'.loop d = br.loop d) (books : Books a es br d written) :
    Books a (es ++ [e]) br' d written := by
  have cut : a.Occurs (es ++ [e]) (CutShort 0 d) ↔ a.Occurs es (CutShort 0 d) := by
    simp [occurs_snoc_iff run next, cutShort_iff hosts hosts', hn]
  have ends : a.Occurs (es ++ [e]) (Stops 0 d none) ↔ a.Occurs es (Stops 0 d none) := by
    simp [occurs_snoc_iff run next, stops_iff hosts, hn]
  cases books
  case whole settled written counted uncut runs =>
    rw [← cut] at uncut
    rw [← ends] at runs
    exact .whole (loop ▸ settled) (loop ▸ written) (loop ▸ counted) uncut (loop ▸ runs)
  case within chunks size written counted unended busy =>
    rw [← cut] at busy
    rw [← ends] at unended
    exact .within (loop ▸ chunks) (step.bufferSize ▸ size) written (loop ▸ counted) unended (loop ▸ busy)

theorem stops (here : e = .turn (.copy 0 d)) (halts : (br'.loop d).phase.unsent? = none)
    (size : br'.bufferSize = br.bufferSize) (chunks : (br'.loop d).chunks = (br.loop d).chunks)
    (counted : (br'.loop d).counted = (br.loop d).counted) (books : Books a es br d written) :
    Books a (es ++ [e]) br' d written := by
  have taken : (br'.loop d).taken = (br.loop d).taken := congrArg Bytes.joined chunks
  have settled unsent : (br'.loop d).phase ≠ .writing unsent := fun hp => by cases hp ▸ halts
  cases books
  case whole writing written counted' uncut _ =>
    refine .whole settled (taken ▸ written) (taken ▸ counted.trans counted') ?_ ?_
    · rw [occurs_snoc_iff run next, cutShort_iff hosts hosts', not_or]
      exact ⟨uncut, fun ⟨_, ⟨unsent, phase⟩, _⟩ => writing unsent phase⟩
    · exact fun hp => by cases hp ▸ halts
  case within chunks' size' written counted' unended busy =>
    refine .within (chunks.trans chunks') (size ▸ size') written (counted.trans counted') ?_
      (.inr ⟨halts, ?_⟩)
    · rw [occurs_snoc_iff run next, stops_iff hosts, not_or]
      refine ⟨unended, fun ⟨_, _, ends⟩ => ?_⟩
      have phase : (br.loop d).phase = .reading := by
        cases ends
        assumption
      obtain ⟨writing, _⟩ | ⟨halts, _⟩ := busy
      · cases phase.symm.trans writing
      · cases phase ▸ halts
    · rw [occurs_snoc_iff run next, cutShort_iff hosts hosts']
      exact busy.elim (fun ⟨writing, _⟩ => .inr ⟨here, ⟨_, writing⟩, halts⟩) fun ⟨_, cut⟩ => .inl cut

theorem reads {chunk : Bytes} {s : Stream} {cs : Connections} (phase : (br.loop d).phase = .reading)
    (some : chunk ≠ []) (read : (br.source d).read b.wires br.bufferSize = .done (chunk, s, cs))
    (size : br'.bufferSize = br.bufferSize) (writing : (br'.loop d).phase = .writing chunk)
    (chunks : (br'.loop d).chunks = chunk :: (br.loop d).chunks)
    (counted : (br'.loop d).counted = (br.loop d).counted) (books : Books a es br d written) :
    Books a (es ++ [e]) br' d written := by
  cases books
  case within busy =>
    obtain ⟨writing, _⟩ | ⟨halts, _⟩ := busy
    · cases phase.symm.trans writing
    · cases phase ▸ halts
  case whole written counted' uncut running =>
    refine .within (show _ = ([] ++ chunk) :: _ from chunks) (size ▸ Stream.length_read read) ?_
      (counted.trans counted') ?_
      (.inl ⟨writing, ?_⟩)
    · rw [written, List.append_nil]
      rfl
    · rw [occurs_snoc_iff run next, stops_iff hosts, not_or]
      refine ⟨running phase, fun ⟨_, _, ends⟩ => ?_⟩
      cases ends
      case eof read' =>
        cases read.symm.trans read'
        exact some rfl
    · rw [occurs_snoc_iff run next, cutShort_iff hosts hosts', not_or]
      exact ⟨uncut, fun ⟨_, ⟨_, writing⟩, _⟩ => by cases phase.symm.trans writing⟩

theorem writes {put left : Bytes} (phase : (br.loop d).phase = .writing (put ++ left))
    (size : br'.bufferSize = br.bufferSize) (writing : (br'.loop d).phase = .writing left)
    (chunks : (br'.loop d).chunks = (br.loop d).chunks)
    (counted : (br'.loop d).counted = (br.loop d).counted) (books : Books a es br d written) :
    Books a (es ++ [e]) br' d (written ++ put) := by
  cases books
  case whole settled _ _ _ _ => exact absurd phase (settled _)
  case within part unsent rest chunks' size' written counted' unended busy =>
    have ⟨writing', uncut⟩ := busy.resolve_right fun ⟨halts, _⟩ => by cases phase ▸ halts
    cases writing'.symm.trans phase
    have split : (br'.loop d).chunks = ((part ++ put) ++ left) :: rest := by
      rw [chunks, chunks', List.append_assoc]
    refine .within split ?_ ?_ (counted.trans counted') ?_ (.inl ⟨writing, ?_⟩)
    · rwa [size, List.append_assoc]
    · rw [written, List.append_assoc]
    · rw [occurs_snoc_iff run next, stops_iff hosts, not_or]
      refine ⟨unended, fun ⟨_, _, ends⟩ => ?_⟩
      cases ends
      case eof reading _ => cases reading.symm.trans phase
    · rw [occurs_snoc_iff run next, cutShort_iff hosts hosts', not_or]
      exact ⟨uncut, fun ⟨_, _, halts⟩ => by cases writing ▸ halts⟩

theorem flushes (phase : (br.loop d).phase = .writing []) (reading : (br'.loop d).phase = .reading)
    (chunks : (br'.loop d).chunks = (br.loop d).chunks)
    (counted : (br'.loop d).counted =
      (br.loop d).counted + ((br.loop d).chunks.headD []).length) (books : Books a es br d written) :
    Books a (es ++ [e]) br' d written := by
  cases books
  case whole settled _ _ _ _ => exact absurd phase (settled _)
  case within part unsent rest chunks' size' written counted' unended busy =>
    obtain ⟨writing', uncut⟩ | ⟨halts, _⟩ := busy
    case inr => cases phase ▸ halts
    cases writing'.symm.trans phase
    have taken : (br'.loop d).taken = Bytes.joined rest ++ part := by
      rw [CopyLoop.taken, chunks, chunks', Bytes.joined_cons, List.append_nil]
    refine .whole (fun _ hp => by cases reading.symm.trans hp) (written.trans taken.symm) ?_ ?_ ?_
    · rw [counted, counted', chunks', taken, List.length_append]
      simp
    · rw [occurs_snoc_iff run next, cutShort_iff hosts hosts', not_or]
      refine ⟨uncut, ?_⟩
      rintro ⟨-, -, halts⟩
      cases reading ▸ halts
    · rw [occurs_snoc_iff run next, stops_iff hosts, not_or]
      refine fun _ => ⟨unended, ?_⟩
      rintro ⟨-, -, ends⟩
      cases ends
      case eof reading _ => cases reading.symm.trans phase

theorem copies (here : e = .turn (.copy 0 d)) (turn : br.Copies b.clock d b.wires br' b'.wires)
    (books : Books a es br d written) :
    ∃ put, (b'.wires.get (br.sink d).wire).received =
        (b.wires.get (br.sink d).wire).received ++ put ∧
      Books a (es ++ [e]) br' d (written ++ put) := by
  have size := turn.bufferSize
  generalize b'.wires = ws at turn
  -- Only writing makes the far end receive anything.
  suffices nothing : (∃ put, (ws.get (br.sink d).wire).received =
      (b.wires.get (br.sink d).wire).received ++ put ∧ Books a (es ++ [e]) br' d (written ++ put)) ∨
      (ws.get (br.sink d).wire).received = (b.wires.get (br.sink d).wire).received ∧
        Books a (es ++ [e]) br' d written by
    refine nothing.elim id fun ⟨received, books⟩ => ⟨[], ?_, ?_⟩
    · rw [received, List.append_nil]
    · rwa [List.append_nil]
  cases turn
  case reads phase _ some read =>
    refine .inr ⟨(Stream.read_done read).received_eq _, ?_⟩
    exact books.reads run next hosts hosts' phase some read size (by simp) (by simp) (by simp)
  case exhausts read =>
    refine .inr ⟨(Stream.read_done read).received_eq _, ?_⟩
    exact books.stops run next hosts hosts' here (by simp [CopyPhase.unsent?]) size (by simp) (by simp)
  case heeds | fails =>
    refine .inr ⟨rfl, ?_⟩
    exact books.stops run next hosts hosts' here (by simp [CopyPhase.unsent?]) size (by simp) (by simp)
  case writes phase _ send =>
    obtain ⟨put, hu, w⟩ := Stream.deliver_some send
    refine .inl ⟨put, w.received, ?_⟩
    exact books.writes run next hosts hosts' (hu ▸ phase) size (by simp) (by simp) (by simp)
  case flushes phase _ send =>
    refine .inr ⟨rfl, ?_⟩
    have hu := (Stream.deliver_none send).left
    exact books.flushes run next hosts hosts' (hu ▸ phase) (by simp) (by simp) (by simp)
  case closes close =>
    have received : (ws.get (br.sink d).wire).received = (b.wires.get (br.sink d).wire).received := by
      obtain hc | ⟨rfl, -⟩ := close
      · exact (Stream.close_done hc).received_eq _
      · rfl
    refine .inr ⟨received, ?_⟩
    exact books.stops run next hosts hosts' here (by simp [CopyPhase.unsent?]) size (by simp) (by simp)

end

section

variable (books : Books a es br d written)
include books

theorem written_prefix : written <+: (br.loop d).taken := by
  cases books
  case whole written _ _ _ => exact written ▸ List.prefix_rfl
  case within part unsent rest chunks _ written _ _ _ =>
    rw [CopyLoop.taken, chunks, Bytes.joined_cons, written, ← List.append_assoc]
    exact List.prefix_append ..

theorem bounds : (br.loop d).counted ≤ written.length ∧
    written.length ≤ (br.loop d).counted + br.bufferSize := by
  cases books
  case whole written counted _ _ =>
    rw [written, counted]
    exact ⟨Nat.le_refl _, Nat.le_add_right ..⟩
  case within part unsent rest _ size written counted _ _ =>
    rw [written, counted, List.length_append]
    rw [List.length_append] at size
    omega

theorem counted_of_uncut (halts : (br.loop d).phase.unsent? = none)
    (uncut : ¬a.Occurs es (CutShort 0 d)) : (br.loop d).counted = written.length := by
  cases books
  case whole written counted _ _ => exact written ▸ counted
  case within busy =>
    obtain ⟨writing, _⟩ | ⟨_, cut⟩ := busy
    · cases writing ▸ halts
    · exact absurd cut uncut

theorem of_cut (cut : a.Occurs es (CutShort 0 d)) :
    ∃ last rest, (br.loop d).chunks = last :: rest ∧ Bytes.joined rest <+: written ∧
      (br.loop d).counted = (Bytes.joined rest).length := by
  cases books
  case whole uncut _ => exact absurd cut uncut
  case within chunks _ written counted _ _ =>
    exact ⟨_, _, chunks, written ▸ List.prefix_append .., counted⟩

theorem of_ended (ended : a.Occurs es (Stops 0 d none)) :
    written = (br.loop d).taken ∧ (br.loop d).counted = written.length := by
  cases books
  case whole written counted _ _ => exact ⟨written, written ▸ counted⟩
  case within unended _          => exact absurd ended unended

end
end Books

def Drains (i : Nat) (d : Direction) : Happening := fun b e b' => Stops i d none b e b' ∧
  ∀ br, b.bridge? i = some br → (b.wires.get (br.source d).wire).pieceLimit ≠ some 0

structure Relayed (a : Broker) (es : List Event) (b : Broker) (br₀ br : Bridge) : Prop where
  hosts      : b.Hosts br
  wire       : ∀ d, (br.source d).wire = (br₀.source d).wire
  bufferSize : br.bufferSize = br₀.bufferSize
  carries    : ∀ d, br.Carries d b.wires (a.wires.get (br₀.sink d).wire).received
    ((br₀.source d).content a.wires ++ a.sent (br₀.source d).wire es)
  books      : ∀ d, ∃ written, (b.wires.get (br₀.sink d).wire).received =
    (a.wires.get (br₀.sink d).wire).received ++ written ∧ Books a es br d written
  drained    : ∀ d, a.Occurs es (Drains 0 d) → (br.source d).content b.wires = [] ∧
    ((b.wires.get (br₀.source d).wire).farShut = true ∨ (b.wires.get (br₀.source d).wire).farGone = true)

namespace Relayed

variable {br₀ : Bridge}

theorem start {st x y : Stream} {bufferSize : Nat}
    (alone : a.sessions = [⟨st, .bridging (.new x y bufferSize)⟩]) :
    Relayed a [] a (.new x y bufferSize) (.new x y bufferSize) where
  hosts       := .runs alone
  wire _      := rfl
  bufferSize  := rfl
  carries d   := by
    cases d <;> exact ⟨List.append_nil _, List.prefix_rfl, List.prefix_append .., by
      simp [Bridge.new, Bridge.loop, CopyPhase.unsent?, CopyLoop.taken]⟩
  books d     := by
    refine ⟨[], (List.append_nil _).symm, ?_⟩
    have settled unsent : ((Bridge.new x y bufferSize).loop d).phase ≠ .writing unsent := by
      cases d <;> simp [Bridge.new, Bridge.loop]
    cases d <;> exact .whole settled rfl rfl not_occurs_nil fun _ => not_occurs_nil
  drained _ h := absurd h not_occurs_nil

section

variable (run : a.run? es = some b) (next : b.step? e = some b') (step : b.HostStep br e b' br')
variable (apart : br.a.wire ≠ br.b.wire)
include run next step apart

theorem booked (hosts' : b'.Hosts br') (x : Relayed a es b br₀ br) (d : Direction) :
    ∃ written, (b'.wires.get (br₀.sink d).wire).received =
      (a.wires.get (br₀.sink d).wire).received ++ written ∧ Books a (es ++ [e]) br' d written := by
  obtain ⟨written, received, books⟩ := x.books d
  have sink : (br.sink d).wire = (br₀.sink d).wire := x.wire d.opposite
  by_cases here : e = .turn (.copy 0 d)
  case neg =>
    obtain ⟨loop, same⟩ := step.others apart here
    exact ⟨written, sink ▸ same.trans (sink ▸ received),
      books.others run next x.hosts hosts' step here loop⟩
  case pos =>
    have copied : ∃ put, (b'.wires.get (br.sink d).wire).received =
        (b.wires.get (br.sink d).wire).received ++ put ∧
          Books a (es ++ [e]) br' d (written ++ put) := by
      cases step <;> cases here
      case copies _ turn => exact books.copies run next x.hosts hosts' rfl turn
    obtain ⟨put, more, books⟩ := copied
    refine ⟨written ++ put, ?_, books⟩
    rw [← sink, more, sink, received, List.append_assoc]

-- A source that was found at its end is at its end for good.
theorem emptied (room : 0 < br₀.bufferSize) (x : Relayed a es b br₀ br)
    (drains : a.Occurs (es ++ [e]) (Drains 0 d)) : (br'.source d).content b'.wires = [] ∧
      ((b'.wires.get (br₀.source d).wire).farShut = true ∨
        (b'.wires.get (br₀.source d).wire).farGone = true) := by
  have found : (br.source d).content b.wires = [] ∧
      ((b.wires.get (br.source d).wire).farShut = true ∨
        (b.wires.get (br.source d).wire).farGone = true) := by
    obtain before | ⟨stops, moves⟩ := (occurs_snoc_iff run next).mp drains
    · exact (x.wire d).symm ▸ x.drained d before
    · obtain ⟨-, -, ends⟩ := (stops_iff x.hosts).mp stops
      cases ends
      case eof read => exact Stream.read_nil read rfl (x.bufferSize ▸ room) (moves br x.hosts.bridge?_eq)
  obtain ⟨empty, far⟩ := found
  obtain ⟨got, taken⟩ := step.takes (d := d)
  have whole := (step.carries apart (x.carries d)).read
  rw [step.sends_nothing far, (x.carries d).read, empty, taken, List.append_nil, List.append_nil,
    List.append_assoc, List.self_eq_append_right, List.append_eq_nil_iff] at whole
  exact ⟨whole.right, (step.age _).far (x.wire d ▸ far)⟩

end

theorem step (apart : br₀.a.wire ≠ br₀.b.wire) (room : 0 < br₀.bufferSize)
    (run : a.run? es = some b) (next : b.step? e = some b') (keeps : e.keepsSessions = true)
    (x : Relayed a es b br₀ br) : ∃ br', Relayed a (es ++ [e]) b' br₀ br' := by
  have ⟨br', hosts', step⟩ := x.hosts.step next keeps
  have apart : br.a.wire ≠ br.b.wire := by
    rw [← show _ = br.a.wire from (x.wire .aToB).symm, ← show _ = br.b.wire from (x.wire .bToA).symm]
    exact apart
  refine ⟨br', hosts', fun d => step.wire.trans (x.wire d), step.bufferSize.trans x.bufferSize,
    fun d => ?_, x.booked run next step apart hosts', fun d => x.emptied run next step apart room⟩
  have carries := step.carries apart (x.carries d)
  rwa [x.wire d, List.append_assoc, ← sent_snoc run] at carries

theorem of_run {st x y : Stream} {bufferSize : Nat}
    (alone : a.sessions = [⟨st, .bridging (.new x y bufferSize)⟩]) (apart : x.wire ≠ y.wire)
    (run : a.run? es = some b) (keeps : ∀ e ∈ es, e.keepsSessions = true) :
    ∃ br, Relayed a es b (.new x y bufferSize) br := by
  refine prefix_induction (P := fun es b => ∃ br, Relayed a es b (.new x y bufferSize) br)
    ⟨_, start alone⟩ ?_ List.prefix_rfl run
  intro fs c e c' part run next ⟨br, relayed⟩
  have room : 0 < (Bridge.new x y bufferSize).bufferSize := Nat.le_max_right ..
  exact relayed.step apart room run next (keeps e (part.subset (by simp)))

end Relayed

-- The account of a bridge, in each direction and at any time. What was read from the source and what is
-- still to be read there is all that ever arrived. The far end of the sink has received a prefix of what
-- was read; no more than that is counted, and no less but for the bytes that one read takes. A loop that
-- is over has counted all of it, or it was cut short and has left out just its last chunk. If it has
-- found its source at its end, all that was read is written and counted, and nothing is left to read.
theorem bridge_accounts {x y st : Stream} {br₀ : Bridge} {bufferSize : Nat}
    (alone : a.sessions = [⟨st, .bridging br₀⟩]) (new : br₀ = .new x y bufferSize)
    (apart : x.wire ≠ y.wire) (run : a.run? es = some b) (keeps : ∀ e ∈ es, e.keepsSessions = true)
    (d : Direction) :
    ∃ br written, b.bridge? 0 = some br ∧
      (b.wires.get (br₀.sink d).wire).received = (a.wires.get (br₀.sink d).wire).received ++ written ∧
      (br.loop d).taken ++ (br.source d).content b.wires =
        (br₀.source d).content a.wires ++ a.sent (br₀.source d).wire es ∧
      written <+: (br.loop d).taken ∧
      br.stats.bytes d ≤ written.length ∧ written.length ≤ br.stats.bytes d + max bufferSize 1 ∧
      ((br.loop d).phase.unsent? = none → ¬a.Occurs es (CutShort 0 d) →
        br.stats.bytes d = written.length) ∧
      (a.Occurs es (CutShort 0 d) → ∃ last rest, (br.loop d).chunks = last :: rest ∧
        Bytes.joined rest <+: written ∧ br.stats.bytes d = (Bytes.joined rest).length) ∧
      (a.Occurs es (Stops 0 d none) → written = (br.loop d).taken ∧
        br.stats.bytes d = written.length) ∧
      (a.Occurs es (Drains 0 d) → (br.source d).content b.wires = []) := by
  subst new
  have ⟨br, relayed⟩ := Relayed.of_run alone apart run keeps
  have ⟨written, received, books⟩ := relayed.books d
  have ⟨least, most⟩ := books.bounds
  rw [relayed.bufferSize] at most
  refine ⟨br, written, relayed.hosts.bridge?_eq, received, (relayed.carries d).read.symm,
    books.written_prefix, ?_⟩
  rw [Bridge.bytes_stats]
  refine ⟨least, most, books.counted_of_uncut, books.of_cut, books.of_ended,
    fun drains => (relayed.drained d drains).left⟩

def crossing : List Event :=
  [.turn (.copy 0 .aToB), .turn (.copy 0 .aToB), .turn (.copy 0 .aToB), .turn (.copy 0 .aToB),
    .change 1 (.limit (some 1)), .turn (.copy 0 .aToB), .change 1 .shut, .turn (.copy 0 .bToA),
    .turn (.copy 0 .aToB)]

theorem bridge_accounts_crossing :
    ∃ b br, (bridgeOnly { inbox := Bytes.ofText "hello" } {} 3).run? crossing = some b ∧
      b.bridge? 0 = some br ∧ (b.wires.get 1).received = Bytes.ofText "hell" ∧
      br.stats.bytes .aToB = 3 ∧
      (bridgeOnly { inbox := Bytes.ofText "hello" } {} 3).Occurs crossing (CutShort 0 .aToB) := by
  have ⟨b, run, was⟩ : ∃ b,
      (bridgeOnly { inbox := Bytes.ofText "hello" } {} 3).run? crossing = some b ∧
        ((b.wires.get 1).received,
          (b.bridge? 0).map fun br => (br.stats.bytes .aToB, (br.loop .aToB).phase)) =
            (Bytes.ofText "hell", some (3, .closing 1000000000)) :=
    Option.map_eq_some_iff.mp (by decide +kernel)
  have ⟨received, account⟩ := Prod.mk.inj was
  have ⟨br, written, hosts, wrote, _, _, _, _, uncut, _⟩ :=
    bridge_accounts (rfl : (bridgeOnly _ _ 3).sessions =
      [⟨{ wire := 0 }, .bridging (.new { wire := 0 } { wire := 1 } 3)⟩]) rfl (by decide) run
      (by decide) .aToB
  rw [hosts, Option.map_some, Option.some.injEq, Prod.mk.injEq] at account
  refine ⟨b, br, run, hosts, received, account.left, Classical.byContradiction fun hn => ?_⟩
  have whole := uncut (account.right ▸ rfl) hn
  have wrote : (b.wires.get 1).received = written := wrote
  have length : written.length = 4 := wrote ▸ received ▸ by decide +kernel
  omega

end Broker
end Rendezvous
