import Rendezvous.Client.Agent
import Rendezvous.Client.Handshake
import Rendezvous.Proofs.LineContent
import Rendezvous.Proofs.StreamRuns

namespace Rendezvous

namespace Bytes

variable {bs : Bytes} {maxLength : Nat} {ending : Option Fault}

-- Bytes that settle a line are judged the same whatever follows them.
theorem judged_append (settled : bs.Settles maxLength) (more : Bytes) :
    (bs ++ more).judged maxLength ending = (bs.judged maxLength ending).map fun p => (p.1, p.2 ++ more) := by
  by_cases hn : newline ∈ bs
  case pos =>
    have hl : bs.line? = some bs.lead := if_pos hn
    have long : (bs ++ more).lead = bs.lead := lead_of_line? (line?_append hl)
    by_cases fits : bs.lead.length ≤ maxLength
    case pos =>
      simp only [judged, line?_append hl, hl, afterLine_append hl, Option.filter_some, decide_eq_true fits,
        if_true]
      cases text? bs.lead <;> rfl
    case neg =>
      rw [Nat.not_le] at fits
      rw [judged_tooLong fits, judged_tooLong (long ▸ fits)]
      rfl
  case neg =>
    have fits : maxLength < bs.lead.length := by
      rw [lead_eq_self hn]
      exact settled.resolve_left hn
    rw [judged_tooLong fits, judged_tooLong (Nat.lt_of_lt_of_le fits length_lead_append)]
    rfl

end Bytes

namespace LineReader

variable {r r' : LineReader} {bs rest : Bytes} {text : String} {cause : ProtocolError} {maxLength : Nat}

theorem size_of_push (hr : r.size ≤ maxLength) (h : r.push maxLength bs = .incomplete r') :
    r'.size ≤ maxLength := by
  obtain ⟨_, refused⟩ | ⟨l, rest, _, _, _, whole⟩ | ⟨_, _, fits, same⟩ := push_cases hr bs
  · cases h.symm.trans refused
  · rw [whole, complete] at h
    split at h <;> cases h
  · cases h.symm.trans same
    exact fits

theorem not_closedEarly_of_refused (hr : r.size ≤ maxLength) (h : r.push maxLength bs = .refused cause) :
    cause ≠ .closedEarly := by
  obtain ⟨_, refused⟩ | ⟨l, rest, _, _, _, whole⟩ | ⟨_, _, _, incomplete⟩ := push_cases hr bs
  · cases h.symm.trans refused
    simp
  · rw [whole, complete] at h
    split at h <;> cases h
    simp
  · cases h.symm.trans incomplete

theorem judged_of_line (hn : Bytes.newline ∉ r.held) (hr : r.size ≤ maxLength)
    (h : r.push maxLength bs = .line text rest) :
    (r.held ++ bs).Settles maxLength ∧ (r.held ++ bs).judged maxLength none = .ok (text, rest) := by
  obtain ⟨l, rfl, _, _⟩ := push_line h
  have judged : Arrivals.reads (Arrivals.readOn maxLength r [.ok (l ++ Bytes.newline :: rest)]) = _ :=
    Arrivals.readOn_judged hn hr
  simp only [Arrivals.readOn, h, Arrivals.reads, Except.map, Arrivals.untilFault, List.append_nil] at judged
  exact ⟨.inl (by simp), judged.symm⟩

theorem judged_of_refused (hn : Bytes.newline ∉ r.held) (hr : r.size ≤ maxLength)
    (h : r.push maxLength bs = .refused cause) :
    (r.held ++ bs).Settles maxLength ∧ (r.held ++ bs).judged maxLength none = .error (.protocol cause) := by
  have judged : Arrivals.reads (Arrivals.readOn maxLength r [.ok bs]) = _ := Arrivals.readOn_judged hn hr
  simp only [Arrivals.readOn, h, Arrivals.reads, Except.map, Arrivals.untilFault, List.append_nil] at judged
  refine ⟨?_, judged.symm⟩
  obtain ⟨long, _⟩ | ⟨l, rest, rfl, _⟩ | ⟨r', _, _, incomplete⟩ := push_cases hr bs
  · exact .inr (by simpa using Nat.lt_of_lt_of_le long (Nat.add_le_add_left Bytes.length_lead_le _))
  · exact .inl (by simp)
  · cases h.symm.trans incomplete

end LineReader

theorem Connection.stalled_of_write {c : Connection} {bs : Bytes} (h : c.write bs = .waits) :
    c.stalled = true := by
  unfold write at h
  (repeat' split at h) <;> cases h
  assumption

namespace Stream

variable {s : Stream} {cs cs' : Connections} {unsent rest : Bytes}

theorem Took.there {bs : Bytes} {s' : Stream} (took : s.Took cs bs s' cs') (there : s.wire < cs.length) :
    s'.wire < cs'.length := by
  rwa [took.wire, took.length]

theorem length_of_deliver (h : s.deliver cs unsent = .done (some rest, cs')) : rest.length < unsent.length := by
  unfold deliver at h
  split at h
  case isTrue => cases hf : (cs.get s.wire).flush <;> rw [hf] at h <;> cases h
  case isFalse hu =>
    have nonempty := List.length_pos_iff.mpr hu
    cases ha : s.advance cs unsent <;> rw [ha] at h <;> cases h
    unfold advance at ha
    (repeat' split at ha) <;> cases ha
    rw [List.length_drop]
    omega

-- Only the connection may hold a delivery up.
theorem heldUp_of_deliver (h : s.deliver cs unsent = .waits) :
    (cs.get s.wire).stalled = true ∨ (cs.get s.wire).flushHangs = true := by
  unfold deliver at h
  split at h
  case isTrue =>
    cases hf : (cs.get s.wire).flush <;> rw [hf] at h <;> cases h
    unfold Connection.flush at hf
    (repeat' split at hf) <;> cases hf
    exact .inr ‹_›
  case isFalse =>
    cases ha : s.advance cs unsent <;> rw [ha] at h <;> cases h
    unfold advance at ha
    (repeat' split at ha) <;> cases ha
    rename_i waits
    unfold write at waits
    cases hw : (cs.get s.wire).write unsent <;> rw [hw] at waits <;> cases waits
    exact .inl (Connection.stalled_of_write hw)

end Stream

namespace Handshake

-- What the bytes that have come make of a handshake as soon as they settle its reply.
def verdict (command : Command) (bs : Bytes) : Option Error :=
  match bs.judged defaultMaxLineLength none with
  | .ok (line, _) => refusal? command line
  | .error e => some e

variable {command : Command} {bs : Bytes} {e : Error}

theorem verdict_append (settled : bs.Settles defaultMaxLineLength) (more : Bytes) :
    verdict command (bs ++ more) = verdict command bs := by
  rw [verdict, Bytes.judged_append settled, verdict]
  cases bs.judged defaultMaxLineLength none <;> rfl

theorem not_closedEarly_of_refusal? {line : String} (h : refusal? command line = some e) :
    e ≠ .protocol .closedEarly := by
  unfold refusal? at h
  (repeat' split at h) <;> cases h <;> simp

theorem not_transient_of_refusal? {line : String} (h : refusal? command line = some e) :
    e.isTransient = false := by
  unfold refusal? at h
  (repeat' split at h) <;> cases h <;> rfl

theorem not_transient_of_verdict (h : verdict command bs = some e) : e.isTransient = false := by
  unfold verdict at h
  split at h
  case h_1 => exact not_transient_of_refusal? h
  case h_2 judged =>
    cases h
    unfold Bytes.judged at judged
    (repeat' split at judged) <;> cases judged <;> rfl

inductive Turns (now : Instant) (h : Handshake) (cs : Connections) : Handshake → Connections → Prop
  | writes {unsent rest cs'} (phase : h.phase = .sending unsent)
      (send : h.stream.deliver cs unsent = .done (some rest, cs')) :
    Turns now h cs { h with phase := .sending rest } cs'
  | delivers {unsent cs'} (phase : h.phase = .sending unsent)
      (send : h.stream.deliver cs unsent = .done (none, cs')) :
    Turns now h cs { h with phase := .awaiting {} (now + h.replyTimeout.nanos) } cs'
  | breaks {unsent f} (phase : h.phase = .sending unsent) (send : h.stream.deliver cs unsent = .fails f) :
    Turns now h cs (h.fail (.fault f)) cs
  | fails {reader deadline f} (phase : h.phase = .awaiting reader deadline)
      (read : h.stream.read cs reader.room = .fails f) : Turns now h cs (h.fail (.fault f)) cs
  | closes {reader deadline st cs'} (phase : h.phase = .awaiting reader deadline)
      (read : h.stream.read cs reader.room = .done ([], st, cs')) :
    Turns now h cs (h.fail (.protocol .closedEarly)) cs'
  | hears {reader deadline bs st cs' text rest} (phase : h.phase = .awaiting reader deadline)
      (read : h.stream.read cs reader.room = .done (bs, st, cs'))
      (push : reader.push defaultMaxLineLength bs = .line text rest) :
    Turns now h cs { h with stream := st.unread rest, phase := .ended (refusal? h.command text) } cs'
  | mishears {reader deadline bs st cs' cause} (phase : h.phase = .awaiting reader deadline)
      (read : h.stream.read cs reader.room = .done (bs, st, cs'))
      (push : reader.push defaultMaxLineLength bs = .refused cause) :
    Turns now h cs ({ h with stream := st }.fail (.protocol cause)) cs'
  | gathers {reader deadline bs st cs' reader'} (phase : h.phase = .awaiting reader deadline)
      (read : h.stream.read cs reader.room = .done (bs, st, cs')) (some : bs ≠ [])
      (push : reader.push defaultMaxLineLength bs = .incomplete reader') :
    Turns now h cs { h with stream := st, phase := .awaiting reader' deadline } cs'
  | tires {reader deadline} (phase : h.phase = .awaiting reader deadline)
      (read : h.stream.read cs reader.room = .waits) (late : deadline ≤ now) :
    Turns now h cs (h.fail .replyTimeout) cs

variable {now : Instant} {h h' : Handshake} {cs cs' : Connections}

theorem turn_turns (ht : h.turn now cs = some (h', cs')) : h.Turns now cs h' cs' := by
  unfold turn at ht
  split at ht
  case h_1 phase =>
    split at ht <;> cases ht
    case h_2 send => exact .breaks phase send
    case h_3 send => exact .delivers phase send
    case h_4 send => exact .writes phase send
  case h_2 phase =>
    split at ht
    case h_1 read =>
      cases ht
      exact .fails phase read
    case h_2 read =>
      cases ht
      exact .closes phase read
    case h_3 some read =>
      split at ht <;> cases ht
      case h_1 push => exact .hears phase read push
      case h_2 push => exact .mishears phase read push
      case h_3 push => exact .gathers phase read some push
    case h_4 read =>
      split at ht <;> cases ht
      exact .tires phase read ‹_›
  case h_3 => cases ht

-- A handshake that does nothing is over, or is held up, or may still wait for its reply.
theorem of_turn_none (ht : h.turn now cs = none) :
    (∃ r, h.phase = .ended r) ∨
    (cs.get h.stream.wire).stalled = true ∨ (cs.get h.stream.wire).flushHangs = true ∨
    ∃ reader deadline, h.phase = .awaiting reader deadline ∧
      h.stream.read cs reader.room = .waits ∧ now < deadline := by
  unfold turn at ht
  split at ht
  case h_1 phase =>
    split at ht <;> cases ht
    obtain held | held := Stream.heldUp_of_deliver ‹_›
    · exact .inr <| .inl held
    · exact .inr <| .inr <| .inl held
  case h_2 reader deadline phase =>
    split at ht
    case h_1 | h_2 => cases ht
    case h_3       => split at ht <;> cases ht
    case h_4 read =>
      split at ht <;> cases ht
      exact .inr <| .inr <| .inr ⟨reader, deadline, phase, read, Nat.lt_of_not_le ‹_›⟩
  case h_3 r phase => exact .inl ⟨r, phase⟩

structure Call where
  handshake : Handshake
  wires : Connections
  clock : Instant

-- How a handshake may be over when some bytes have come. It was lost, or the connection was at its end,
-- or the bytes settled it.
inductive Ends (command : Command) (bs : Bytes) : Option Error → Prop
  | lost {cause : Error} (transient : cause.isTransient = true) : Ends command bs (some cause)
  | closed : Ends command bs (some (.protocol .closedEarly))
  | settled (settled : bs.Settles defaultMaxLineLength) : Ends command bs (verdict command bs)

theorem Ends.append {r : Option Error} (h : Ends command bs r) (more : Bytes) :
    Ends command (bs ++ more) r := by
  cases h
  case lost transient => exact .lost transient
  case closed         => exact .closed
  case settled settled =>
    rw [← verdict_append settled more]
    exact .settled (settled.imp (List.mem_append_left _) fun h => by rw [List.length_append]; omega)

namespace Call

def wire (c : Call) : Connection := c.wires.get c.handshake.stream.wire

def content (c : Call) : Bytes := c.handshake.stream.content c.wires

inductive Event where
  | turn
  | far (change : Connection.Change)
  | wait (nanos : Nat)
deriving DecidableEq

def Event.sent : Event → Bytes
  | far (.send bs) => bs
  | _ => []

def sent (es : List Event) : Bytes := es.flatMap Event.sent

def dialled (command : Command) (timeout : Duration) (peer : Peer) (now : Instant) : Call where
  handshake := { start command { wire := 0, peer } with replyTimeout := timeout }
  wires := [{}]
  clock := now

def step? (c : Call) : Event → Option Call
  | .turn => (c.handshake.turn c.clock c.wires).map fun p => { c with handshake := p.1, wires := p.2 }
  | .far change =>
    match c.wire.apply change with
    | .ok far => some { c with wires := c.wires.set c.handshake.stream.wire far }
    | .error _ => none
  | .wait nanos => some { c with clock := c.clock + nanos }

def run? (c : Call) : List Event → Option Call
  | [] => some c
  | e :: es => (c.step? e).bind fun c => c.run? es

theorem run?_append (c : Call) (es fs : List Event) : c.run? (es ++ fs) = (c.run? es).bind (·.run? fs) := by
  induction es generalizing c
  case nil => rfl
  case cons e es hi =>
    rw [List.cons_append, run?, run?, Option.bind_assoc]
    exact congrArg _ (funext hi)

inductive Stage (command : Command) (timeout : Duration) (now : Instant) (bs : Bytes) (c : Call) : Prop
  | sending {unsent} (phase : c.handshake.phase = .sending unsent) (unread : c.content = bs)
      (within : unsent.length ≤ (Bytes.ofText command.toLine).length) : Stage command timeout now bs c
  | awaiting {reader deadline} (phase : c.handshake.phase = .awaiting reader deadline)
      (unread : reader.held ++ c.content = bs) (within : Bytes.newline ∉ reader.held)
      (fits : reader.size ≤ defaultMaxLineLength)
      (due : now + timeout.nanos ≤ deadline ∧ deadline ≤ c.clock + timeout.nanos) :
    Stage command timeout now bs c
  | ended {r} (phase : c.handshake.phase = .ended r) (ends : Ends command bs r) : Stage command timeout now bs c

structure Course (command : Command) (timeout : Duration) (now : Instant) (bs : Bytes) (c : Call) : Prop where
  same  : c.handshake.command = command
  limit : c.handshake.replyTimeout = timeout
  since : now ≤ c.clock
  there : c.handshake.stream.wire < c.wires.length
  stage : Stage command timeout now bs c

variable {c c' : Call} {timeout : Duration} {es : List Event} {ev : Event}

theorem course_dialled (command : Command) (timeout : Duration) (peer : Peer) (now : Instant) :
    (dialled command timeout peer now).Course command timeout now [] where
  same  := rfl
  limit := rfl
  since := Nat.le_refl now
  there := Nat.one_pos
  stage := .sending rfl rfl (Nat.le_refl _)

theorem Stage.of_sending {unsent : Bytes} (h : c.Stage command timeout now bs)
    (phase : c.handshake.phase = .sending unsent) :
    c.content = bs ∧ unsent.length ≤ (Bytes.ofText command.toLine).length := by
  cases h
  case sending phase' unread within =>
    cases phase.symm.trans phase'
    exact ⟨unread, within⟩
  case awaiting phase' _ _ _ _ => cases phase.symm.trans phase'
  case ended phase' _          => cases phase.symm.trans phase'

theorem Stage.of_awaiting {reader : LineReader} {deadline : Instant} (h : c.Stage command timeout now bs)
    (phase : c.handshake.phase = .awaiting reader deadline) :
    reader.held ++ c.content = bs ∧ Bytes.newline ∉ reader.held ∧ reader.size ≤ defaultMaxLineLength ∧
      now + timeout.nanos ≤ deadline ∧ deadline ≤ c.clock + timeout.nanos := by
  cases h
  case awaiting phase' unread within fits due =>
    cases phase.symm.trans phase'
    exact ⟨unread, within, fits, due⟩
  case sending phase' _ _ => cases phase.symm.trans phase'
  case ended phase' _     => cases phase.symm.trans phase'

theorem Stage.of_ended {r : Option Error} (h : c.Stage command timeout now bs)
    (phase : c.handshake.phase = .ended r) : Ends command bs r := by
  cases h
  case ended phase' ends =>
    cases phase.symm.trans phase'
    exact ends
  case sending phase' _ _      => cases phase.symm.trans phase'
  case awaiting phase' _ _ _ _ => cases phase.symm.trans phase'

theorem settled_of_push {reader : LineReader} {piece left : Bytes} {r : Option Error}
    (h : (reader.held ++ piece).Settles defaultMaxLineLength ∧ verdict command (reader.held ++ piece) = r) :
    Ends command (reader.held ++ (piece ++ left)) r := by
  obtain ⟨settled, rfl⟩ := h
  rw [← List.append_assoc]
  exact (Ends.settled settled).append left

theorem Course.turn (h : c.Course command timeout now bs)
    (ht : c.handshake.Turns c.clock c.wires h' cs') :
    Course command timeout now bs { c with handshake := h', wires := cs' } := by
  obtain ⟨rfl, rfl, since, there, stage⟩ := h
  cases ht
  case writes phase send =>
    obtain ⟨unread, within⟩ := stage.of_sending phase
    have wrote := (Stream.deliver_some send).choose_spec.right
    refine ⟨rfl, rfl, since, wrote.length ▸ there, .sending rfl ?_ ?_⟩
    · rw [← unread, content, content, Stream.content, Stream.content, wrote.inbox]
    · exact Nat.le_trans (Nat.le_of_lt (Stream.length_of_deliver send)) within
  case delivers phase send =>
    obtain ⟨unread, within⟩ := stage.of_sending phase
    obtain ⟨rfl, rfl⟩ := Stream.deliver_none send
    exact ⟨rfl, rfl, since, there, .awaiting rfl unread List.not_mem_nil (Nat.zero_le _)
      ⟨Nat.add_le_add_right since _, Nat.le_refl _⟩⟩
  case breaks | fails => exact ⟨rfl, rfl, since, there, .ended rfl (.lost rfl)⟩
  case tires          => exact ⟨rfl, rfl, since, there, .ended rfl (.lost rfl)⟩
  case closes read =>
    exact ⟨rfl, rfl, since, (Stream.read_done read).length ▸ there, .ended rfl .closed⟩
  case hears phase push read =>
    obtain ⟨unread, within, fits, due⟩ := stage.of_awaiting phase
    have took := Stream.read_done read
    obtain ⟨settled, judged⟩ := LineReader.judged_of_line within fits push
    refine ⟨rfl, rfl, since, took.there there, .ended rfl ?_⟩
    rw [← unread, content, took.content]
    exact settled_of_push ⟨settled, by rw [verdict, judged]⟩
  case mishears phase push read =>
    obtain ⟨unread, within, fits, due⟩ := stage.of_awaiting phase
    have took := Stream.read_done read
    obtain ⟨settled, judged⟩ := LineReader.judged_of_refused within fits push
    refine ⟨rfl, rfl, since, took.there there, .ended rfl ?_⟩
    rw [← unread, content, took.content]
    exact settled_of_push ⟨settled, by rw [verdict, judged]⟩
  case gathers phase _ push read =>
    obtain ⟨unread, within, fits, due⟩ := stage.of_awaiting phase
    have took := Stream.read_done read
    obtain ⟨held, newline⟩ := LineReader.push_incomplete push
    refine ⟨rfl, rfl, since, took.there there, .awaiting rfl ?_ ?_ (LineReader.size_of_push fits push) due⟩
    · rw [← unread, held, List.append_assoc]
      exact congrArg _ took.content.symm
    · simp [held, within, newline]

theorem inbox_apply {near far : Connection} {change : Connection.Change} (h : near.apply change = .ok far) :
    far.inbox = near.inbox ++ (Event.far change).sent := by
  cases change
  case send bs =>
    simp only [Connection.apply, Connection.send] at h
    (repeat' split at h) <;> cases h
    rfl
  all_goals
    cases h
    exact (List.append_nil _).symm

theorem Course.far {change : Connection.Change} {far : Connection} (h : c.Course command timeout now bs)
    (hf : c.wire.apply change = .ok far) :
    Course command timeout now (bs ++ (Event.far change).sent)
      { c with wires := c.wires.set c.handshake.stream.wire far } := by
  obtain ⟨same, limit, since, there, stage⟩ := h
  have content : content { c with wires := c.wires.set c.handshake.stream.wire far } =
      c.content ++ (Event.far change).sent := by
    rw [Call.content, Stream.content, Connections.get_set_self there, inbox_apply hf, ← List.append_assoc]
    rfl
  refine ⟨same, limit, since, by simpa using there, ?_⟩
  cases stage
  case sending phase unread within => exact .sending phase (by rw [content, unread]) within
  case awaiting phase unread within fits due =>
    exact .awaiting phase (by rw [content, ← List.append_assoc, unread]) within fits due
  case ended phase ends => exact .ended phase (ends.append _)

theorem Course.wait (h : c.Course command timeout now bs) (nanos : Nat) :
    Course command timeout now bs { c with clock := c.clock + nanos } := by
  obtain ⟨same, limit, since, there, stage⟩ := h
  refine ⟨same, limit, Nat.le_add_right_of_le since, there, ?_⟩
  cases stage
  case sending phase unread within => exact .sending phase unread within
  case awaiting phase unread within fits due =>
    exact .awaiting phase unread within fits ⟨due.left, Nat.le_trans due.right (by simp only; omega)⟩
  case ended phase ends => exact .ended phase ends

theorem Course.step (h : c.Course command timeout now bs) (hs : c.step? ev = some c') :
    Course command timeout now (bs ++ ev.sent) c' := by
  cases ev
  case turn =>
    obtain ⟨⟨h', cs'⟩, ht, rfl⟩ := Option.map_eq_some_iff.mp hs
    exact (List.append_nil bs).symm ▸ h.turn (turn_turns ht)
  case far change =>
    simp only [step?] at hs
    split at hs <;> cases hs
    exact h.far ‹_›
  case wait nanos =>
    cases hs
    exact (List.append_nil bs).symm ▸ h.wait nanos

theorem Course.run (h : c.Course command timeout now bs) (run : c.run? es = some c') :
    Course command timeout now (bs ++ sent es) c' := by
  induction es generalizing c bs
  case nil =>
    cases run
    simpa [sent] using h
  case cons ev es hi =>
    obtain ⟨c₁, step, run⟩ := Option.bind_eq_some_iff.mp run
    rw [sent, List.flatMap_cons, ← List.append_assoc]
    exact hi (h.step step) run

-- A handshake that ends as if its connection were at its end, or its time over, does so for that reason.
theorem Course.cause (h : c.Course command timeout now bs) (ht : c.handshake.Turns c.clock c.wires h' cs')
    (ended : h'.phase = .ended (some e)) :
    (e = .protocol .closedEarly → c.wire.pieceLimit ≠ some 0 →
        c.content = [] ∧ (c.wire.farShut = true ∨ c.wire.farGone = true)) ∧
      (e = .replyTimeout → now + timeout.nanos ≤ c.clock) := by
  cases ht
  case writes | delivers | gathers => cases ended
  case breaks | fails =>
    cases ended
    exact ⟨by simp, by simp⟩
  case closes read =>
    cases ended
    exact ⟨fun _ moves => Stream.read_nil read rfl LineReader.room_pos moves, by simp⟩
  case tires phase read late =>
    cases ended
    obtain ⟨_, _, _, due⟩ := h.stage.of_awaiting phase
    exact ⟨by simp, fun _ => Nat.le_trans due.left late⟩
  case hears phase push read =>
    have refusal := HandshakePhase.ended.inj ended
    refine ⟨fun closed => absurd closed (not_closedEarly_of_refusal? refusal), fun late => ?_⟩
    cases late
    cases not_transient_of_refusal? refusal
  case mishears phase push read =>
    cases ended
    obtain ⟨_, _, fits, _⟩ := h.stage.of_awaiting phase
    refine ⟨fun closed => ?_, by simp⟩
    cases closed
    exact absurd rfl (LineReader.not_closedEarly_of_refused fits push)

def left (c : Call) : Nat :=
  match c.handshake.phase with
  | .sending unsent => unsent.length + c.content.length + 2
  | .awaiting _ _ => c.content.length + 1
  | .ended _ => 0

theorem Course.left_le (h : c.Course command timeout now bs) :
    c.left ≤ (Bytes.ofText command.toLine).length + bs.length + 2 := by
  obtain ⟨_, _, _, _, stage⟩ := h
  cases stage
  case sending phase unread within =>
    simp only [left, phase, unread]
    omega
  case awaiting phase unread _ _ _ =>
    have length := congrArg List.length unread
    rw [List.length_append] at length
    simp only [left, phase]
    omega
  case ended phase _ =>
    simp only [left, phase]
    omega

theorem left_of_turns (ht : c.handshake.Turns c.clock c.wires h' cs') :
    left { c with handshake := h', wires := cs' } < c.left := by
  cases ht
  case writes phase send =>
    have wrote := (Stream.deliver_some send).choose_spec.right
    have shorter := Stream.length_of_deliver send
    simp only [left, phase, content, Stream.content, wrote.inbox]
    omega
  case delivers phase send =>
    obtain ⟨rfl, rfl⟩ := Stream.deliver_none send
    simp only [left, phase, content]
    omega
  case gathers phase some push read =>
    have length := congrArg List.length (Stream.read_done read).content
    have nonempty := List.length_pos_iff.mpr some
    rw [List.length_append] at length
    simp only [left, phase, content]
    omega
  all_goals
    simp only [left, fail, *]
    omega

theorem turns_le {n : Nat} (h : (c.run? (List.replicate n .turn)).isSome) : n ≤ c.left := by
  induction n generalizing c
  case zero => exact Nat.zero_le _
  case succ n hi =>
    obtain ⟨c'', run⟩ := Option.isSome_iff_exists.mp h
    obtain ⟨c', step, run⟩ := Option.bind_eq_some_iff.mp run
    obtain ⟨⟨h', cs'⟩, ht, rfl⟩ := Option.map_eq_some_iff.mp step
    exact Nat.lt_of_le_of_lt (hi (run ▸ rfl)) (left_of_turns (turn_turns ht))

theorem transient_of_dialTcp {host : Host} {target : String} {e : Error}
    (failed : Client.dialTcp host target = .error e) : e.isTransient = true := by
  unfold Client.dialTcp at failed
  split at failed
  case h_1 => cases failed; rfl
  case h_2 => split at failed <;> cases failed; rfl

theorem transient_of_dial {host : Host} {target : String} {e : Error}
    (failed : Client.dial host (.tcp target) = .error e) : e.isTransient = true := by
  rw [Client.dial] at failed
  cases reached : Client.dialTcp host target <;> rw [reached] at failed <;> cases failed
  exact transient_of_dialTcp reached

-- A handshake that fails before its reply is settled fails with an error after which trying again may
-- help, and an agent then waits longer each time; but if the connection was at its end before the reply
-- was, the error is that of a broken rule, and the agent takes itself for refused. Else a handshake is over
-- as its settled reply says, and trying again does not help against that. It comes to its end in so many
-- turns, unless its command is held up on the way out, or it may still wait for a reply: the time for that
-- begins when the command is out, and nothing has happened to the connection.
theorem failures_of_handshake {es : List Event} {c : Call} {command : Command} {timeout : Duration}
    {peer : Peer} {now : Instant} (run : (dialled command timeout peer now).run? es = some c) :
    (∀ r, c.handshake.phase = .ended r →
      (∃ e, r = some e ∧ (e.isTransient = true ∨ e = .protocol .closedEarly)) ∨
      (sent es).Settles defaultMaxLineLength ∧ r = verdict command (sent es) ∧
        ∀ e ∈ r, e.isTransient = false) ∧
    (∀ c' e, c.step? .turn = some c' → c'.handshake.phase = .ended (some e) →
      (e = .protocol .closedEarly → c.wire.pieceLimit ≠ some 0 →
        c.content = [] ∧ (c.wire.farShut = true ∨ c.wire.farGone = true)) ∧
      (e = .replyTimeout → now + timeout.nanos ≤ c.clock)) ∧
    (c.step? .turn = none →
      (∃ r, c.handshake.phase = .ended r) ∨ c.wire.stalled = true ∨ c.wire.flushHangs = true ∨
      ∃ reader deadline, c.handshake.phase = .awaiting reader deadline ∧ c.content = [] ∧
        (c.wire.readFault = none ∧ c.wire.farShut = false ∧ c.wire.farGone = false) ∧
        c.clock < deadline ∧ deadline ≤ c.clock + timeout.nanos) ∧
    (∀ n, (c.run? (List.replicate n .turn)).isSome →
      n ≤ (Bytes.ofText command.toLine).length + (sent es).length + 2) ∧
    (∀ host target e, Client.dial host (.tcp target) = .error e → e.isTransient = true) ∧
    ∀ b k, (∀ e : Error, e.isTransient = true →
        Agent.report b k (.failed e) = (.failed (b.delay k), min (k + 1) Agent.maxAttempt)) ∧
      Agent.report b k (.failed (.protocol .closedEarly)) =
        (.refused (.protocol .closedEarly) b.max, k) := by
  have course : c.Course command timeout now (sent es) := (course_dialled command timeout peer now).run run
  refine ⟨fun r ended => ?_, fun c' e step ended => ?_, fun rests => ?_, fun n turns => ?_,
    fun host target e failed => ?_, fun b k => ⟨fun e transient => ?_, rfl⟩⟩
  case refine_1 =>
    cases course.stage.of_ended ended
    case lost transient  => exact .inl ⟨_, rfl, .inl transient⟩
    case closed          => exact .inl ⟨_, rfl, .inr rfl⟩
    case settled settled => exact .inr ⟨settled, rfl, fun _ h => not_transient_of_verdict h⟩
  case refine_2 =>
    obtain ⟨⟨h', cs'⟩, ht, rfl⟩ := Option.map_eq_some_iff.mp step
    exact course.cause (turn_turns ht) ended
  case refine_3 =>
    obtain ended | held | held | ⟨reader, deadline, phase, read, early⟩ :=
      of_turn_none (Option.map_eq_none_iff.mp rests)
    · exact .inl ended
    · exact .inr <| .inl held
    · exact .inr <| .inr <| .inl held
    · obtain ⟨_, _, _, due⟩ := course.stage.of_awaiting phase
      obtain ⟨unread, there⟩ := Stream.read_waits read
      exact .inr <| .inr <| .inr ⟨reader, deadline, phase, unread, there, early, due.right⟩
  case refine_4 => exact Nat.le_trans (turns_le turns) course.left_le
  case refine_5 => exact transient_of_dial failed
  case refine_6 => simp only [Agent.report, transient, if_true]

def camera : Call := dialled (.register ⟨"cam", by decide⟩) (.ofSeconds 1) {} 0

def forsaken : List Event := [.turn, .turn, .far (.send (Bytes.ofText "OK:Serv")), .turn, .far .shut]

def unreachable : Fault := ⟨.networkUnreachable, some "Network is unreachable (os error 101)"⟩

theorem unsettled_forsaken : ¬(sent forsaken).Settles defaultMaxLineLength := by
  have within : Bytes.newline ∉ sent forsaken := by decide +kernel
  have fits : (sent forsaken).length ≤ defaultMaxLineLength := by decide +kernel
  simp [Bytes.Settles, within, fits]

theorem ended_forsaken : ∃ c c', camera.run? forsaken = some c ∧ c.wire.pieceLimit ≠ some 0 ∧
    c.step? .turn = some c' ∧ c'.handshake.phase = .ended (some (.protocol .closedEarly)) := by
  have course : (camera.run? forsaken).map
      (fun c => (c.wire.pieceLimit, (c.step? .turn).map (·.handshake.phase))) =
        some (none, some (.ended (some (.protocol .closedEarly)))) := by
    decide +kernel
  obtain ⟨c, run, facts⟩ := Option.map_eq_some_iff.mp course
  obtain ⟨moves, turn⟩ := Prod.mk.inj facts
  obtain ⟨c', step, ended⟩ := Option.map_eq_some_iff.mp turn
  exact ⟨c, c', run, by simp [moves], step, ended⟩

-- A connection that was lost in the middle of a reply may leave an error after which nobody tries again.
theorem not_every_lost_handshake_transient :
    ¬ ∀ command timeout peer now es c e, (dialled command timeout peer now).run? es = some c →
      ¬(sent es).Settles defaultMaxLineLength → c.handshake.phase = .ended (some e) →
      e.isTransient = true := by
  intro transient
  obtain ⟨c, c', run, -, step, ended⟩ := ended_forsaken
  have run : camera.run? (forsaken ++ [.turn]) = some c' := by
    rw [run?_append, run, Option.bind_some, run?, step]
    rfl
  have unsettled : ¬(sent (forsaken ++ [.turn])).Settles defaultMaxLineLength := by
    simpa [sent, Event.sent] using unsettled_forsaken
  cases transient _ _ _ _ _ _ _ run unsettled ended

theorem failures_of_handshake_forsaken :
    ∃ c c', camera.run? forsaken = some c ∧ c.wire.pieceLimit ≠ some 0 ∧ c.step? .turn = some c' ∧
      c'.handshake.phase = .ended (some (.protocol .closedEarly)) ∧
      c.content = [] ∧ (c.wire.farShut = true ∨ c.wire.farGone = true) ∧
      (c.run? (List.replicate 1 .turn)).isSome ∧ 1 ≤ 13 + (sent forsaken).length + 2 ∧
      Client.dial Host.isolated (.tcp "127.0.0.1:1") = .error (.connect "127.0.0.1:1" unreachable) ∧
      (Error.connect "127.0.0.1:1" unreachable).isTransient = true ∧
      Agent.report {} 2 (.failed (.connect "127.0.0.1:1" unreachable)) = (.failed (Backoff.delay {} 2), 3) := by
  obtain ⟨c, c', run, moves, step, ended⟩ := ended_forsaken
  obtain ⟨-, cause, -, turns, dial, reports⟩ := failures_of_handshake run
  obtain ⟨unread, lost⟩ := (cause c' _ step ended).left rfl moves
  have again : (c.run? (List.replicate 1 .turn)).isSome := by
    rw [List.replicate_one, run?, step]
    rfl
  have gone : Client.dial Host.isolated (.tcp "127.0.0.1:1") = .error (.connect "127.0.0.1:1" unreachable) :=
    rfl
  have transient := dial _ _ _ gone
  exact ⟨c, c', run, moves, step, ended, unread, lost, again, turns 1 again, gone, transient,
    (reports {} 2).left _ transient⟩

end Call
end Handshake
end Rendezvous
