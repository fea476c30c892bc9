import Rendezvous.Broker.Bridge
import Rendezvous.Proofs.Stream

namespace Rendezvous

def CopyPhase.unsent? : CopyPhase → Option Bytes
  | .reading => some []
  | .writing unsent => some unsent
  | .closing _ | .ended => none

def CopyLoop.taken (l : CopyLoop) : Bytes := Bytes.joined l.chunks

namespace Bridge

inductive Ends (br : Bridge) (d : Direction) (cs : Connections) : Option Fault → Prop
  | eof {s cs'} (phase : (br.loop d).phase = .reading)
      (read : (br.source d).read cs br.bufferSize = .done ([], s, cs')) : Ends br d cs none
  | unread {e} (phase : (br.loop d).phase = .reading)
      (read : (br.source d).read cs br.bufferSize = .fails e) : Ends br d cs (some e)
  | unwritten {unsent e} (phase : (br.loop d).phase = .writing unsent)
      (send : (br.sink d).deliver cs unsent = .fails e) : Ends br d cs (some e)

inductive Copies (now : Instant) (br : Bridge) (d : Direction) (cs : Connections) :
    Bridge → Connections → Prop
  | reads {chunk s cs'} (phase : (br.loop d).phase = .reading) (runs : br.stopped = false)
      (read : (br.source d).read cs br.bufferSize = .done (chunk, s, cs')) (some : chunk ≠ []) :
    Copies now br d cs
      ((br.setSource d s).setLoop d
        { br.loop d with phase := .writing chunk, chunks := chunk :: (br.loop d).chunks }) cs'
  | exhausts {s cs'} (phase : (br.loop d).phase = .reading) (runs : br.stopped = false)
      (read : (br.source d).read cs br.bufferSize = .done ([], s, cs')) :
    Copies now br d cs ((br.setSource d s).stop d now none) cs'
  | heeds {unsent} (phase : (br.loop d).phase.unsent? = some unsent) (stopped : br.stopped = true) :
    Copies now br d cs (br.stop d now none) cs
  | fails {e} (runs : br.stopped = false) (ends : br.Ends d cs (some e)) :
    Copies now br d cs (br.stop d now (some e)) cs
  | writes {unsent rest cs'} (phase : (br.loop d).phase = .writing unsent)
      (runs : br.stopped = false) (send : (br.sink d).deliver cs unsent = .done (some rest, cs')) :
    Copies now br d cs (br.setLoop d { br.loop d with phase := .writing rest }) cs'
  | flushes {unsent} (phase : (br.loop d).phase = .writing unsent) (runs : br.stopped = false)
      (send : (br.sink d).deliver cs unsent = .done (none, cs)) :
    Copies now br d cs
      (br.setLoop d
        { br.loop d with
          phase := .reading
          counted := (br.loop d).counted + ((br.loop d).chunks.headD []).length }) cs
  | closes {t cs'} (phase : (br.loop d).phase = .closing t)
      (close : (br.sink d).close cs = .done cs' ∨ cs' = cs ∧
        ((∃ e, (br.sink d).close cs = .fails e) ∨
          (br.sink d).close cs = .waits ∧ t ≤ now)) :
    Copies now br d cs (br.setLoop d { br.loop d with phase := .ended }) cs'

variable {br br' : Bridge} {d d' : Direction} {cs cs' : Connections} {now : Instant}

theorem turn_copies (h : br.turn now d cs = some (br', cs')) : br.Copies now d cs br' cs' := by
  unfold turn at h
  simp only at h
  split at h
  case h_1 hp =>
    split at h
    case isTrue hs =>
      cases h
      exact .heeds (by rw [hp]; rfl) hs
    case isFalse hs =>
      have hs := Bool.eq_false_iff.mpr hs
      split at h <;> cases h
      case h_2 e hr       => exact .fails hs (.unread hp hr)
      case h_3 hr         => exact .exhausts hp hs hr
      case h_4 chunk s hn hr => exact .reads hp hs hr hn
  case h_2 unsent hp =>
    split at h
    case isTrue hs =>
      cases h
      exact .heeds (by rw [hp]; rfl) hs
    case isFalse hs =>
      have hs := Bool.eq_false_iff.mpr hs
      split at h <;> cases h
      case h_2 e hd    => exact .fails hs (.unwritten hp hd)
      case h_3 hd      =>
        cases (Stream.deliver_none hd).right
        exact .flushes hp hs hd
      case h_4 rest hd => exact .writes hp hs hd
  case h_3 t hp =>
    split at h
    case h_1 hc =>
      cases h
      exact .closes hp (.inl hc)
    case h_2 e hc =>
      cases h
      exact .closes hp (.inr ⟨rfl, .inl ⟨e, hc⟩⟩)
    case h_3 hc =>
      split at h <;> cases h
      exact .closes hp (.inr ⟨rfl, .inr ⟨hc, ‹_›⟩⟩)
  case h_4 => cases h

section

variable {s : Stream} {l : CopyLoop} {e : Option Fault}

@[simp]
theorem loop_setLoop : (br.setLoop d l).loop d = l := by cases d <;> rfl

@[simp]
theorem loop_setLoop_opposite : (br.setLoop d l).loop d.opposite = br.loop d.opposite := by
  cases d <;> rfl

@[simp]
theorem source_setLoop : (br.setLoop d l).source d' = br.source d' := by cases d <;> cases d' <;> rfl

@[simp]
theorem loop_setSource : (br.setSource d s).loop d' = br.loop d' := by cases d <;> cases d' <;> rfl

@[simp]
theorem source_setSource : (br.setSource d s).source d = s := by cases d <;> rfl

@[simp]
theorem sink_setSource : (br.setSource d s).sink d = br.sink d := by cases d <;> rfl

@[simp]
theorem sink_setLoop : (br.setLoop d l).sink d' = br.sink d' := source_setLoop

@[simp]
theorem loop_stop : (br.stop d now e).loop d =
    { br.loop d with phase := .closing (now + closeGrace.nanos), error := e } := by
  cases d <;> rfl

@[simp]
theorem loop_stop_opposite : (br.stop d now e).loop d.opposite = br.loop d.opposite := by
  cases d <;> rfl

@[simp]
theorem source_stop : (br.stop d now e).source d' = br.source d' := by cases d <;> cases d' <;> rfl

@[simp]
theorem sink_stop : (br.stop d now e).sink d' = br.sink d' := source_stop

end

-- What a turn of a loop does to the bytes: some are read and some are written, and what a running
-- loop has left to write is what it had, with what was read and without what was written.
structure Moved (br : Bridge) (d : Direction) (cs : Connections) (got put : Bytes) (br' : Bridge)
    (cs' : Connections) : Prop where
  source   : (br'.source d).wire = (br.source d).wire
  sink     : br'.sink d = br.sink d
  other    : br'.loop d.opposite = br.loop d.opposite
  taken    : (br'.loop d).taken = (br.loop d).taken ++ got
  unsent   : ∀ {left}, (br'.loop d).phase.unsent? = some left →
    ∃ unsent, (br.loop d).phase.unsent? = some unsent ∧ unsent ++ got = put ++ left
  silent   : (br'.loop d).phase.unsent? = none → put = []
  content  : (br.source d).content cs = got ++ (br'.source d).content cs'
  written  : (cs'.get (br.sink d).wire).received = (cs.get (br.sink d).wire).received ++ put
  length   : cs'.length = cs.length
  inbox    : ∀ {j}, j ≠ (br.source d).wire → (cs'.get j).inbox = (cs.get j).inbox
  received : ∀ {j}, j ≠ (br.sink d).wire → (cs'.get j).received = (cs.get j).received

namespace Moved

variable {got put : Bytes}

theorem of_took (t : (br.source d).Took cs got (br'.source d) cs') (hk : br'.sink d = br.sink d)
    (ho : br'.loop d.opposite = br.loop d.opposite)
    (ht : (br'.loop d).taken = (br.loop d).taken ++ got)
    (hu : ∀ {left}, (br'.loop d).phase.unsent? = some left →
      ∃ unsent, (br.loop d).phase.unsent? = some unsent ∧ unsent ++ got = left) :
    br.Moved d cs got [] br' cs' where
  source     := t.wire
  sink       := hk
  other      := ho
  taken      := ht
  unsent     := hu
  silent _   := rfl
  content    := t.content
  written    := (t.received_eq _).trans (List.append_nil _).symm
  length     := t.length
  inbox hj   := by rw [t.elsewhere hj]
  received _ := t.received_eq _

theorem of_wrote (w : Wrote (br.sink d).wire cs put cs') (hs : br'.source d = br.source d)
    (hk : br'.sink d = br.sink d) (ho : br'.loop d.opposite = br.loop d.opposite)
    (ht : (br'.loop d).chunks = (br.loop d).chunks)
    (hu : ∀ {left}, (br'.loop d).phase.unsent? = some left →
      (br.loop d).phase.unsent? = some (put ++ left))
    (hn : (br'.loop d).phase.unsent? = none → put = []) :
    br.Moved d cs [] put br' cs' where
  source      := by rw [hs]
  sink        := hk
  other       := ho
  taken       := by simp [CopyLoop.taken, ht]
  unsent h    := ⟨_, hu h, List.append_nil _⟩
  silent      := hn
  content     := by rw [hs, Stream.content, Stream.content, w.inbox_eq, List.nil_append]
  written     := w.received
  length      := w.length
  inbox _     := w.inbox_eq _
  received hj := by rw [w.elsewhere hj]

end Moved

theorem Moved.grows {got put : Bytes} (m : br.Moved d cs got put br' cs') (j : Nat) :
    (cs.get j).received <+: (cs'.get j).received := by
  by_cases hj : j = (br.sink d).wire
  case pos => rw [hj, m.written]; exact List.prefix_append ..
  case neg => exact m.received hj ▸ List.prefix_rfl

theorem Copies.moved (h : br.Copies now d cs br' cs') : ∃ got put, br.Moved d cs got put br' cs' := by
  cases h
  case reads chunk s phase _ _ read =>
    refine ⟨chunk, [], .of_took (by simpa using Stream.read_done read) ?_ ?_ ?_ ?_⟩ <;>
      simp [CopyLoop.taken, CopyPhase.unsent?, phase]
  case exhausts s phase _ read =>
    refine ⟨[], [], .of_took (by simpa using Stream.read_done read) ?_ ?_ ?_ ?_⟩ <;>
      simp [CopyLoop.taken, CopyPhase.unsent?]
  case heeds | fails =>
    refine ⟨[], [], .of_wrote (.refl ..) ?_ ?_ ?_ ?_ ?_ ?_⟩ <;> simp [CopyPhase.unsent?]
  case writes unsent rest phase _ send =>
    have ⟨put, hu, w⟩ := Stream.deliver_some send
    refine ⟨[], put, .of_wrote w ?_ ?_ ?_ ?_ ?_ ?_⟩ <;> simp [CopyPhase.unsent?, phase, hu]
  case flushes unsent phase _ send =>
    have hu := (Stream.deliver_none send).left
    refine ⟨[], [], .of_wrote (.refl ..) ?_ ?_ ?_ ?_ ?_ ?_⟩ <;> simp [CopyPhase.unsent?, phase, hu]
  case closes t phase close =>
    have w : Wrote (br.sink d).wire cs [] cs' := by
      obtain hc | ⟨rfl, -⟩ := close
      · exact Stream.close_done hc
      · exact .refl ..
    refine ⟨[], [], .of_wrote w ?_ ?_ ?_ ?_ ?_ ?_⟩ <;> simp [CopyPhase.unsent?]

-- One direction has carried a payload up to some point: the sink's far end has received the head and
-- then a prefix of what has been read, and a loop that still runs holds the rest of it.
structure Carries (br : Bridge) (d : Direction) (cs : Connections) (head payload : Bytes) : Prop where
  read    : payload = (br.loop d).taken ++ (br.source d).content cs
  led     : head <+: (cs.get (br.sink d).wire).received
  written : (cs.get (br.sink d).wire).received <+: head ++ (br.loop d).taken
  held    : ∀ {unsent}, (br.loop d).phase.unsent? = some unsent →
    (cs.get (br.sink d).wire).received ++ unsent = head ++ (br.loop d).taken

variable {head payload got put : Bytes}

theorem source_opposite : br.source d.opposite = br.sink d := rfl

theorem sink_opposite : br.sink d.opposite = br.source d := by cases d <;> rfl

theorem Moved.carries (m : br.Moved d cs got put br' cs') (c : br.Carries d cs head payload) :
    br'.Carries d cs' head payload where
  read := by rw [c.read, m.content, m.taken, List.append_assoc]
  led := by rw [m.sink]; exact c.led.trans (m.grows _)
  written := by
    rw [m.sink, m.written, m.taken, ← List.append_assoc]
    cases hu : (br'.loop d).phase.unsent?
    case none =>
      rw [m.silent hu, List.append_nil]
      exact c.written.trans (List.prefix_append ..)
    case some left =>
      have ⟨unsent, hu, he⟩ := m.unsent hu
      exact ⟨left, by rw [← c.held hu, List.append_assoc, List.append_assoc, he]⟩
  held h := by
    have ⟨unsent, hu, he⟩ := m.unsent h
    rw [m.sink, m.written, m.taken, ← List.append_assoc, ← c.held hu, List.append_assoc,
      List.append_assoc, he]

-- The other direction reads where this one writes and writes where this one reads.
theorem Moved.carries_opposite (m : br.Moved d cs got put br' cs')
    (ne : (br.source d).wire ≠ (br.sink d).wire) (c : br.Carries d.opposite cs head payload) :
    br'.Carries d.opposite cs' head payload := by
  have hw : (cs'.get (br'.sink d.opposite).wire).received =
      (cs.get (br.sink d.opposite).wire).received := by
    rw [sink_opposite, sink_opposite, m.source, m.received ne]
  have hc : (br'.source d.opposite).content cs' = (br.source d.opposite).content cs := by
    rw [source_opposite, source_opposite, m.sink, Stream.content, Stream.content, m.inbox ne.symm]
  constructor
  case read    => rw [m.other, hc, c.read]
  case led     => rw [hw]; exact c.led
  case written => rw [m.other, hw]; exact c.written
  case held    => rw [m.other, hw]; exact c.held

end Bridge
end Rendezvous
