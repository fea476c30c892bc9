import Rendezvous.Proofs.Accounting
import Rendezvous.Proofs.Promptness

namespace Rendezvous

def BridgeStats.join (s : BridgeStats) (l : CopyLoop) : Direction → BridgeStats
  | .aToB => { s with aToB := l.counted, firstError := s.firstError.or l.error }
  | .bToA => { s with bToA := l.counted, firstError := s.firstError.or l.error }

-- The turns that a loop still takes once it is told to stop: one to end and one to close its sink.
def CopyPhase.left : CopyPhase → Nat
  | .reading | .writing _ => 2
  | .closing _ => 1
  | .ended => 0

theorem CopyPhase.left_of_unsent {p : CopyPhase} (h : p.unsent? ≠ none) : p.left = 2 := by
  cases p
  case reading | writing => rfl
  case closing | ended   => exact absurd rfl h

namespace Bridge

def left (br : Bridge) : Nat := br.forth.phase.left + br.back.phase.left

variable {br br' : Bridge} {d : Direction} {now : Instant} {cs cs' : Connections} {error : Option Fault}

structure Running (br : Bridge) : Prop where
  stopped : br.stopped = false
  phase   : ∀ d, (br.loop d).phase.unsent? ≠ none
  clean   : ∀ d, (br.loop d).error = none

theorem Running.new {x y : Stream} {bufferSize : Nat} : (Bridge.new x y bufferSize).Running :=
  ⟨rfl, fun d => by cases d <;> nofun, fun d => by cases d <;> rfl⟩

theorem Running.not_closing {t : Instant} (h : br.Running) : (br.loop d).phase ≠ .closing t :=
  fun hp => h.phase d (by rw [hp, CopyPhase.unsent?])

theorem Running.not_ended (h : br.Running) : (br.loop d).phase ≠ .ended :=
  fun hp => h.phase d (by rw [hp, CopyPhase.unsent?])

theorem Running.left (h : br.Running) : br.left = 4 := by
  have forth := CopyPhase.left_of_unsent (h.phase .aToB)
  have back := CopyPhase.left_of_unsent (h.phase .bToA)
  exact congrArg₂ (· + ·) forth back

theorem isOver_iff : br.isOver = true ↔ ∀ d, (br.loop d).phase = .ended := by
  simp only [isOver, Bool.and_eq_true, beq_iff_eq]
  exact ⟨fun ⟨forth, back⟩ d => by cases d <;> assumption, fun h => ⟨h .aToB, h .bToA⟩⟩

def closed (br : Bridge) (d : Direction) : Bridge :=
  br.setLoop d { br.loop d with phase := .ended }

def joined (br : Bridge) (d : Direction) : BridgeStats :=
  (({ aToB := 0, bToA := 0, firstError := none } : BridgeStats).join (br.loop d) d).join
    (br.loop d.opposite) d.opposite

theorem joined_eq (clean : (br.loop d.opposite).error = none) (d' : Direction) :
    br.joined d' = br.stats := by
  cases d <;> cases d' <;> simp_all [joined, stats, BridgeStats.join, loop, Direction.opposite]

theorem firstError_stats (own : (br.loop d).error = error)
    (clean : (br.loop d.opposite).error = none) : br.stats.firstError = error := by
  cases d <;> simp_all [stats, loop, Direction.opposite]

section

variable {d' : Direction}

theorem loop_setLoop_eq {l : CopyLoop} :
    (br.setLoop d l).loop d' = if d' = d then l else br.loop d' := by
  cases d <;> cases d' <;> rfl

theorem phase_stop : ((br.stop d now error).loop d').phase =
    if d' = d then .closing (now + closeGrace.nanos) else (br.loop d').phase := by
  cases d <;> cases d' <;> rfl

theorem left_stop (runs : (br.loop d).phase.unsent? ≠ none) :
    (br.stop d now error).left + 1 = br.left := by
  have phase := CopyPhase.left_of_unsent runs
  cases d
  all_goals
    simp only [left, stop, setLoop, loop, CopyPhase.left] at phase ⊢
    omega

theorem closing_of_stop {t : Instant} (h : ((br.stop d now error).loop d').phase = .closing t) :
    t = now + closeGrace.nanos ∨ (br.loop d').phase = .closing t := by
  rw [phase_stop] at h
  split at h
  case isTrue  => exact .inl (CopyPhase.closing.inj h).symm
  case isFalse => exact .inr h

theorem ended_of_stop (h : ((br.stop d now error).loop d').phase = .ended) :
    (br.loop d').phase = .ended := by
  rw [phase_stop] at h
  split at h
  case isTrue  => cases h
  case isFalse => exact h

theorem runs_of_stop (h : ((br.stop d now error).loop d').phase.unsent? ≠ none) :
    (br.loop d').phase.unsent? ≠ none := by
  rw [phase_stop] at h
  split at h
  case isTrue  => exact absurd rfl h
  case isFalse => exact h

@[simp]
theorem taken_stop : ((br.stop d now error).loop d').taken = (br.loop d').taken := by
  cases d <;> cases d' <;> rfl

theorem phase_closed : ((br.closed d).loop d').phase = if d' = d then .ended else (br.loop d').phase := by
  cases d <;> cases d' <;> rfl

theorem left_closed {t : Instant} (phase : (br.loop d).phase = .closing t) :
    (br.closed d).left + 1 = br.left := by
  have one : (br.loop d).phase.left = 1 := congrArg CopyPhase.left phase
  cases d
  all_goals
    simp only [left, closed, setLoop, loop, CopyPhase.left] at one ⊢
    omega

theorem closing_of_closed {t : Instant} (h : ((br.closed d).loop d').phase = .closing t) :
    (br.loop d').phase = .closing t := by
  rw [phase_closed] at h
  split at h
  case isTrue  => cases h
  case isFalse => exact h

theorem ended_of_closed (h : ((br.closed d).loop d').phase = .ended) :
    d' = d ∨ (br.loop d').phase = .ended := by
  rw [phase_closed] at h
  split at h
  case isTrue here => exact .inl here
  case isFalse     => exact .inr h

theorem runs_of_closed (h : ((br.closed d).loop d').phase.unsent? ≠ none) :
    (br.loop d').phase.unsent? ≠ none := by
  rw [phase_closed] at h
  split at h
  case isTrue  => exact absurd rfl h
  case isFalse => exact h

@[simp]
theorem taken_closed : ((br.closed d).loop d').taken = (br.loop d').taken := by
  cases d <;> cases d' <;> rfl

@[simp]
theorem error_closed : ((br.closed d).loop d').error = (br.loop d').error := by
  cases d <;> cases d' <;> rfl

end

theorem Running.setSource {s : Stream} (h : br.Running) : (br.setSource d s).Running where
  stopped := by cases d <;> exact h.stopped
  phase d := loop_setSource.symm ▸ h.phase d
  clean d := loop_setSource.symm ▸ h.clean d

theorem Running.setLoop {l : CopyLoop} (h : br.Running) (phase : l.phase.unsent? ≠ none)
    (clean : l.error = none) : (br.setLoop d l).Running := by
  have loop d' : ((br.setLoop d l).loop d').phase.unsent? ≠ none ∧
      ((br.setLoop d l).loop d').error = none := by
    rw [loop_setLoop_eq]
    split
    case isTrue  => exact ⟨phase, clean⟩
    case isFalse => exact ⟨h.phase d', h.clean d'⟩
  exact ⟨by cases d <;> exact h.stopped, fun d => (loop d).left, fun d => (loop d).right⟩

theorem Ends.turn (ends : br.Ends d cs error) (runs : br.stopped = false) (now : Instant) :
    ∃ s cs', br.turn now d cs = some ((br.setSource d s).stop d now error, cs') ∧
      (br.source d).Took cs [] s cs' := by
  have same : br.setSource d (br.source d) = br := by cases d <;> rfl
  have idle : (br.source d).Took cs [] (br.source d) cs := ⟨rfl, rfl, rfl, rfl, fun _ => rfl, rfl⟩
  cases ends
  case eof s cs' phase read =>
    exact ⟨s, cs', by simp [Bridge.turn, phase, runs, read], Stream.read_done read⟩
  case unread phase read =>
    exact ⟨br.source d, cs, by simp [Bridge.turn, phase, runs, read, same], idle⟩
  case unwritten phase send =>
    exact ⟨br.source d, cs, by simp [Bridge.turn, phase, runs, send, same], idle⟩

def Unclosable (br : Bridge) (d : Direction) (cs : Connections) (t now : Instant) : Prop :=
  (∃ e, (br.sink d).close cs = .fails e) ∨ (br.sink d).close cs = .waits ∧ t ≤ now

theorem Unclosable.of_le {t t' : Instant} (h : br.Unclosable d cs t now) (le : t' ≤ t) :
    br.Unclosable d cs t' now :=
  h.imp_right fun ⟨waits, late⟩ => ⟨waits, Nat.le_trans le late⟩

-- Once a bridge is stopped, its loops only stop and close.
theorem Copies.of_stopped (h : br.Copies now d cs br' cs') (stopped : br.stopped = true) :
    ((br.loop d).phase.unsent? ≠ none ∧ br' = br.stop d now none ∧ cs' = cs) ∨
    ∃ t, (br.loop d).phase = .closing t ∧ br' = br.closed d ∧
      ((br.sink d).close cs = .done cs' ∨ cs' = cs ∧ br.Unclosable d cs t now) := by
  cases h
  case heeds phase _      => exact .inl ⟨by simp [phase], rfl, rfl⟩
  case closes phase close => exact .inr ⟨_, phase, rfl, close⟩
  all_goals cases stopped.symm.trans ‹br.stopped = false›

end Bridge

namespace Broker

variable {a b b' b₀ c : Broker} {e : Event} {es fs : List Event} {br br' br₀ : Bridge} {d d' : Direction}
variable {error : Option Fault} {st : Stream}

def GivesUp (i : Nat) (d : Direction) (t : Instant) : Happening := fun b e _ =>
  e = .turn (.copy i d) ∧ ∃ br, b.bridge? i = some br ∧ br.Unclosable d b.wires t b.clock

def Event.isCopy : Event → Bool
  | .turn (.copy ..) => true
  | _ => false

-- What a bridge is from when its first loop has ended, and what it then leaves as it was.
structure Halted (b₀ : Broker) (es : List Event) (b : Broker) (br₀ br : Bridge) (d : Direction)
    (error : Option Fault) : Prop where
  hosts    : b.Hosts br
  stopped  : br.stopped = true
  halts    : (br.loop d).phase.unsent? = none
  own      : (br.loop d).error = error
  other    : (br.loop d.opposite).error = none
  wire     : ∀ d', (br.source d').wire = (br₀.source d').wire
  there    : ∀ d', (br.source d').wire < b.wires.length
  taken    : ∀ d', (br.loop d').taken = (br₀.loop d').taken
  received : ∀ j, (b.wires.get j).received = (b₀.wires.get j).received
  turns    : es.countP Event.isCopy + br.left = 4
  later    : b₀.clock ≤ b.clock
  grace    : ∀ {d' t}, (br.loop d').phase = .closing t → b₀.clock + Bridge.closeGrace.nanos ≤ t
  closed   : ∀ {d'}, (br.loop d').phase = .ended →
    (b.wires.get (br₀.sink d').wire).nearShut = true ∨
      b₀.Occurs es (GivesUp 0 d' (b₀.clock + Bridge.closeGrace.nanos))

namespace Halted

theorem rests (x : Halted b₀ es b br₀ br d error) (hosts : b'.Hosts br) (age : Age b.wires b'.wires)
    (received : ∀ j, (b'.wires.get j).received = (b.wires.get j).received)
    (later : b.clock ≤ b'.clock) (length : b'.wires.length = b.wires.length)
    (still : e.isCopy = false) : Halted b₀ (es ++ [e]) b' br₀ br d error :=
  { x with
    hosts
    turns := by
      rw [List.countP_append, List.countP_singleton, still, if_neg (by decide)]
      exact x.turns
    there d := length ▸ x.there d
    received j := (received j).trans (x.received j)
    later := Nat.le_trans x.later later
    closed hp := (x.closed hp).imp (age _).near Occurs.append }

theorem turns_snoc (x : Halted b₀ es b br₀ br d error) (here : e = .turn (.copy 0 d'))
    (turn : br'.left + 1 = br.left) : (es ++ [e]).countP Event.isCopy + br'.left = 4 := by
  have turns := x.turns
  rw [List.countP_append, List.countP_singleton, here, if_pos (by rfl)]
  omega

theorem heeds (here : e = .turn (.copy 0 d')) (x : Halted b₀ es b br₀ br d error)
    (hosts : b'.Hosts (br.stop d' b.clock none)) (runs : (br.loop d').phase.unsent? ≠ none)
    (wires : b'.wires = b.wires) (clock : b'.clock = b.clock) :
    Halted b₀ (es ++ [e]) b' br₀ (br.stop d' b.clock none) d error := by
  obtain rfl | rfl := d.eq_or_opposite d'
  case inl => exact absurd x.halts runs
  case inr =>
    have same : (br.stop d' b.clock none).loop d'.opposite = br.loop d'.opposite :=
      Bridge.loop_stop_opposite
    constructor
    case hosts    => exact hosts
    case stopped  => rfl
    case halts    => exact same ▸ x.halts
    case own      => exact same ▸ x.own
    case other    => cases d' <;> rfl
    case wire     => exact fun d => (congrArg Stream.wire Bridge.source_stop).trans (x.wire d)
    case taken    => exact fun d => Bridge.taken_stop.trans (x.taken d)
    case received => exact fun j => wires ▸ x.received j
    case later    => exact clock ▸ x.later
    case turns    => exact x.turns_snoc here (Bridge.left_stop runs)
    case there =>
      intro d
      rw [Bridge.source_stop, wires]
      exact x.there d
    case closed =>
      intro d hp
      exact wires ▸ (x.closed (Bridge.ended_of_stop hp)).imp id Occurs.append
    case grace =>
      intro d t hp
      obtain rfl | hp := Bridge.closing_of_stop hp
      · exact Nat.add_le_add_right x.later _
      · exact x.grace hp

theorem closes (run : b₀.run? es = some b) (next : b.step? e = some b') (here : e = .turn (.copy 0 d'))
    (x : Halted b₀ es b br₀ br d error) (hosts : b'.Hosts (br.closed d')) (clock : b'.clock = b.clock)
    (age : Age b.wires b'.wires) (length : b'.wires.length = b.wires.length) {t : Instant}
    (phase : (br.loop d').phase = .closing t)
    (close : (br.sink d').close b.wires = .done b'.wires ∨
      b'.wires = b.wires ∧ br.Unclosable d' b.wires t b.clock) :
    Halted b₀ (es ++ [e]) b' br₀ (br.closed d') d error := by
  constructor
  case hosts   => exact hosts
  case stopped => cases d' <;> exact x.stopped
  case halts =>
    rw [Bridge.phase_closed]
    split
    case isTrue  => rfl
    case isFalse => exact x.halts
  case own   => exact Bridge.error_closed.trans x.own
  case other => exact Bridge.error_closed.trans x.other
  case wire  => exact fun d => (congrArg Stream.wire Bridge.source_setLoop).trans (x.wire d)
  case taken => exact fun d => Bridge.taken_closed.trans (x.taken d)
  case there =>
    intro d
    rw [Bridge.closed, Bridge.source_setLoop, length]
    exact x.there d
  case received =>
    intro j
    obtain done | ⟨same, _⟩ := close
    · exact ((Stream.close_done done).received_eq j).trans (x.received j)
    · exact same ▸ x.received j
  case later => exact clock ▸ x.later
  case turns => exact x.turns_snoc here (Bridge.left_closed phase)
  case grace => exact fun hp => x.grace (Bridge.closing_of_closed hp)
  case closed =>
    intro d hp
    obtain rfl | hp := Bridge.ended_of_closed hp
    case inr => exact (x.closed hp).imp (age _).near Occurs.append
    case inl =>
      obtain done | ⟨-, given⟩ := close
      · have sink : (br.sink d).wire = (br₀.sink d).wire := x.wire d.opposite
        exact .inl (sink ▸ Stream.nearShut_close done (x.there d.opposite))
      · have gives : GivesUp 0 d (b₀.clock + Bridge.closeGrace.nanos) b e b' :=
          ⟨here, br, x.hosts.bridge?_eq, given.of_le (x.grace phase)⟩
        exact .inr ((occurs_snoc_iff run next).mpr (.inr gives))

theorem step (run : b₀.run? es = some b) (next : b.step? e = some b') (hosts : b'.Hosts br')
    (step : b.HostStep br e b' br') (x : Halted b₀ es b br₀ br d error) :
    Halted b₀ (es ++ [e]) b' br₀ br' d error := by
  have age := step.age
  have length := step.length
  cases step
  case leaves wires clock =>
    have kept j : Kept j b.wires b'.wires :=
      wires ▸ (Bridge.abandon_within (l := [])).kept List.not_mem_nil
    exact x.rests hosts age (fun j => (kept j).received) clock.ge length rfl
  case changes change =>
    refine x.rests hosts age (fun j => ?_) (Nat.le_refl _) length rfl
    have arrived : Arrived j (fun _ => []) .. := Accounted.arrived_change change
    exact arrived.received
  case waits later => exact x.rests hosts age (fun _ => rfl) later length rfl
  case copies d' clock turn =>
    obtain ⟨runs, rfl, same⟩ | ⟨t, phase, rfl, close⟩ := turn.of_stopped x.stopped
    case inl => exact x.heeds rfl hosts runs same clock
    case inr => exact x.closes run next rfl hosts clock age length phase close

end Halted

section

variable (own : b.sessions = [⟨st, .bridging br⟩])
include own

theorem turn_of_stopped (stopped : br.stopped = true) (runs : (br.loop d).phase.unsent? ≠ none) :
    b.turn (.copy 0 d) ≠ none := by
  cases hp : (br.loop d).phase <;> simp_all [turn, copyTurn, Bridge.turn, CopyPhase.unsent?]

theorem clock_lt_of_closing {t : Instant} (phase : (br.loop d).phase = .closing t)
    (rests : b.turn (.copy 0 d) = none) : b.clock < t := by
  refine Nat.lt_of_not_le fun late => ?_
  cases hc : (br.sink d).close b.wires <;> simp [turn, copyTurn, own, Bridge.turn, phase, hc, late] at rests

theorem due_of_closing {t : Instant} (phase : (br.loop d).phase = .closing t) :
    b.due? (.copy 0 d) = some t := by
  simp [due?, own, Bridge.deadline?, phase]

theorem turn_of_isOver (isOver : br.isOver = true) : b.turn (.session 0) ≠ none := by
  simp [turn, sessionTurn, own, leaveBridge, isOver]

end

structure Winds (b : Broker) (br : Bridge) (start : Instant) : Prop where
  stopped : br.stopped = true
  runs    : ∀ {d}, (br.loop d).phase.unsent? ≠ none → b.clock ≤ start
  closes  : ∀ {d t}, (br.loop d).phase = .closing t → t ≤ start + Bridge.closeGrace.nanos
  lives   : ∀ {st}, b.sessions = [⟨st, .bridging br⟩] → b.clock ≤ start + Bridge.closeGrace.nanos

namespace Winds

variable {start : Instant}

-- As long as its session lives there is a task that does not let the time go by.
theorem busy (w : Winds b br start) (own : b.sessions = [⟨st, .bridging br⟩]) :
    ∃ k, b.turn k ≠ none ∨
      ∃ t, b.due? k = some t ∧ b.clock < t ∧ t ≤ start + Bridge.closeGrace.nanos := by
  by_cases isOver : br.isOver = true
  case pos => exact ⟨_, .inl (turn_of_isOver own isOver)⟩
  case neg =>
    have ⟨d, hd⟩ := not_forall.mp fun ended => isOver (Bridge.isOver_iff.mpr ended)
    refine ⟨.copy 0 d, ?_⟩
    by_cases runs : (br.loop d).phase.unsent? = none
    case neg => exact .inl (turn_of_stopped own w.stopped runs)
    case pos =>
      cases hp : (br.loop d).phase
      case reading | writing => simp [hp, CopyPhase.unsent?] at runs
      case ended => exact absurd hp hd
      case closing t =>
        by_cases rests : b.turn (.copy 0 d) = none
        case neg => exact .inl rests
        case pos => exact .inr ⟨t, due_of_closing own hp, clock_lt_of_closing own hp rests, w.closes hp⟩

theorem stands (w : Winds b br start) (clock : b'.clock = b.clock)
    (lives : ∀ {st}, b'.sessions = [⟨st, .bridging br⟩] →
      b'.clock ≤ start + Bridge.closeGrace.nanos) : Winds b' br start :=
  { w with runs := fun h => clock ▸ w.runs h, lives }

theorem heeds (w : Winds b br start) (clock : b'.clock = b.clock)
    (runs : (br.loop d).phase.unsent? ≠ none)
    (lives : ∀ {st}, b'.sessions = [⟨st, .bridging (br.stop d b.clock none)⟩] →
      b'.clock ≤ start + Bridge.closeGrace.nanos) : Winds b' (br.stop d b.clock none) start := by
  constructor
  case stopped => rfl
  case lives   => exact lives
  case runs    => exact fun hp => clock ▸ w.runs (Bridge.runs_of_stop hp)
  case closes =>
    intro d' t hp
    obtain rfl | hp := Bridge.closing_of_stop hp
    · exact Nat.add_le_add_right (w.runs runs) _
    · exact w.closes hp

theorem finishes (w : Winds b br start) (clock : b'.clock = b.clock)
    (lives : ∀ {st}, b'.sessions = [⟨st, .bridging (br.closed d)⟩] →
      b'.clock ≤ start + Bridge.closeGrace.nanos) : Winds b' (br.closed d) start := by
  constructor
  case stopped => cases d <;> exact w.stopped
  case lives   => exact lives
  case runs    => exact fun hp => clock ▸ w.runs (Bridge.runs_of_closed hp)
  case closes  => exact fun hp => w.closes (Bridge.closing_of_closed hp)

theorem in_grace (w : Winds b br start) (hosts : b.Hosts br) (next : b.step? e = some b')
    (awake : ∀ k, ¬Oversleeps k b e b') (own : b'.sessions = [⟨st, .bridging br'⟩]) :
    b'.clock ≤ start + Bridge.closeGrace.nanos := by
  have step := step_of_step? next
  cases hosts
  case past own' _ =>
    have ended := step.ended (i := 0) (by rw [own']; rfl)
    simp [own] at ended
  case runs own' =>
    obtain ⟨k, turns | ⟨t, due, before, within⟩⟩ := w.busy own'
    · exact in_time step (awake k) (w.lives own') (.inl turns)
    · have time := in_time step (awake k) (Nat.le_of_lt before) (.inr ⟨due, before⟩)
      exact Nat.le_trans time within

theorem step (w : Winds b br start) (hosts : b.Hosts br) (next : b.step? e = some b')
    (step : b.HostStep br e b' br') (awake : ∀ k, ¬Oversleeps k b e b') : Winds b' br' start := by
  have lives {st : Stream} : b'.sessions = [⟨st, .bridging br'⟩] → _ := w.in_grace hosts next awake
  cases step
  case leaves clock => exact w.stands clock lives
  case changes      => exact w.stands rfl lives
  case copies d clock turn =>
    obtain ⟨runs, rfl, -⟩ | ⟨_, -, rfl, -⟩ := turn.of_stopped w.stopped
    · exact w.heeds clock runs lives
    · exact w.finishes clock lives
  case waits t later =>
    refine { w with lives, runs := fun {d} runs => ?_ }
    cases hosts
    case runs own =>
      have ⟨rests, _⟩ := awake_of_wait (awake (.copy 0 d))
      exact absurd rests (turn_of_stopped own w.stopped runs)
    case past isOver =>
      rw [Bridge.isOver_iff.mp isOver d] at runs
      exact absurd rfl runs

theorem ended (w : Winds b br start) (hosts : b.Hosts br)
    (late : start + Bridge.closeGrace.nanos < b.clock ∨
      start + Bridge.closeGrace.nanos ≤ b.clock ∧ ∀ k, b.turn k = none) :
    ∃ st, b.sessions = [⟨st, .ended (.regular (.bridged br))⟩] := by
  cases hosts
  case past own _ => exact ⟨_, own⟩
  case runs own =>
    obtain past | ⟨past, rests⟩ := late
    · exact absurd (w.lives own) (Nat.not_le_of_lt past)
    · obtain ⟨k, turns | ⟨t, -, before, within⟩⟩ := w.busy own
      · exact absurd (rests k) turns
      · exact absurd (Nat.le_trans within past) (Nat.not_le_of_lt before)

end Winds

theorem Halted.start (own : b.sessions = [⟨st, .bridging br⟩])
    (there : ∀ d', (br.source d').wire < b.wires.length) (running : br.Running)
    (ends : br.Ends d b.wires error) (next : b.step? (.turn (.copy 0 d)) = some b') :
    ∃ br', Halted b [.turn (.copy 0 d)] b' br br' d error ∧ Winds b' br' b.clock := by
  have ⟨s, ws, turns, took⟩ := ends.turn running.stopped b.clock
  simp only [step?, turn, copyTurn, own, List.getElem?_cons_zero, turns, Option.map_some,
    Option.some.injEq] at next
  subst next
  have running' : (br.setSource d s).Running := running.setSource
  have closing {d' t} (hp : (((br.setSource d s).stop d b.clock error).loop d').phase = .closing t) :
      t = b.clock + Bridge.closeGrace.nanos :=
    (Bridge.closing_of_stop hp).resolve_right running'.not_closing
  have wire d' : (((br.setSource d s).stop d b.clock error).source d').wire = (br.source d').wire := by
    rw [Bridge.source_stop]
    obtain rfl | rfl := d.eq_or_opposite d'
    · rw [Bridge.source_setSource, took.wire]
    · cases d' <;> rfl
  refine ⟨(br.setSource d s).stop d b.clock error, ?_, rfl, fun _ => Nat.le_refl _,
    fun hp => (closing hp).le, fun _ => Nat.le_add_right ..⟩
  constructor
  case hosts    => exact .runs rfl
  case stopped  => cases d <;> rfl
  case halts    => simp [CopyPhase.unsent?]
  case own      => simp
  case other    => simp [running.clean d.opposite]
  case wire     => exact wire
  case there    => exact fun d' => wire d' ▸ took.length ▸ there d'
  case taken    => exact fun d' => Bridge.taken_stop.trans (congrArg CopyLoop.taken Bridge.loop_setSource)
  case received => exact fun j => took.received_eq j
  case later    => exact Nat.le_refl _
  case turns =>
    have left : ((br.setSource d s).stop d b.clock error).left + 1 = 4 :=
      running'.left ▸ Bridge.left_stop (running'.phase d)
    exact (Nat.add_comm ..).trans left
  case grace    => exact fun hp => (closing hp).ge
  case closed   => exact fun hp => absurd (Bridge.ended_of_stop hp) running'.not_ended

theorem Hosts.own (h : b.Hosts br) (running : br.Running) :
    ∃ st, b.sessions = [⟨st, .bridging br⟩] := by
  cases h
  case runs own  => exact ⟨_, own⟩
  case past isOver => exact absurd (Bridge.isOver_iff.mp isOver .aToB) running.not_ended

theorem Halted.of_run (hosts : b.Hosts br₀) (running : br₀.Running)
    (there : ∀ d', (br₀.source d').wire < b.wires.length) (ends : br₀.Ends d b.wires error)
    (next : b.step? (.turn (.copy 0 d)) = some b') (run : b'.run? es = some c)
    (keeps : ∀ e ∈ es, e.keepsSessions = true) :
    ∃ br, Halted b (.turn (.copy 0 d) :: es) c br₀ br d error ∧
      ((∀ k, ¬b.Occurs (.turn (.copy 0 d) :: es) (Oversleeps k)) → Winds c br b.clock) := by
  have ⟨st, own⟩ := hosts.own running
  refine prefix_induction
    (P := fun fs c => ∃ br, Halted b (.turn (.copy 0 d) :: fs) c br₀ br d error ∧
      ((∀ k, ¬b.Occurs (.turn (.copy 0 d) :: fs) (Oversleeps k)) → Winds c br b.clock))
    ?_ ?_ List.prefix_rfl run
  case refine_1 =>
    have ⟨br, halted, winds⟩ := Halted.start own there running ends next
    exact ⟨br, halted, fun _ => winds⟩
  case refine_2 =>
    intro fs c e c' part run later ⟨br, halted, winds⟩
    have ⟨br', hosts', step⟩ := halted.hosts.step later (keeps e (part.subset (by simp)))
    have whole : b.run? (.turn (.copy 0 d) :: fs) = some c := by
      rw [run?_cons, next, Option.bind_some, run]
    refine ⟨br', halted.step whole later hosts' step, fun prompt => ?_⟩
    have before k : ¬b.Occurs (.turn (.copy 0 d) :: fs) (Oversleeps k) :=
      fun sleeps => prompt k sleeps.append
    have awake k : ¬Oversleeps k c e c' := not_of_not_occurs (prompt k) List.prefix_rfl whole later
    exact (winds before).step halted.hosts later step awake

inductive Progress (a : Broker) (es : List Event) (br : Bridge) : Prop
  | runs (running : br.Running)
  | stops {d : Direction} {error : Option Fault} (stopped : br.stopped = true)
      (first : a.Occurs es (Stops 0 d error))

namespace Progress

theorem copies (run : a.run? es = some b) (next : b.step? e = some b') (hosts : b.Hosts br)
    (here : e = .turn (.copy 0 d)) (turn : br.Copies b.clock d b.wires br' b'.wires)
    (p : Progress a es br) : Progress a (es ++ [e]) br' := by
  cases p
  case stops stopped first =>
    refine .stops ?_ first.append
    obtain ⟨-, rfl, -⟩ | ⟨_, -, rfl, -⟩ := turn.of_stopped stopped
    · rfl
    · cases d <;> exact stopped
  case runs running =>
    have first {error} (ends : br.Ends d b.wires error) : a.Occurs (es ++ [e]) (Stops 0 d error) :=
      (occurs_snoc_iff run next).mpr (.inr ((stops_iff hosts).mpr ⟨here, running.stopped, ends⟩))
    generalize b'.wires = ws at turn
    cases turn
    case reads                 => exact .runs (running.setSource.setLoop nofun (running.clean d))
    case exhausts phase _ read => exact .stops rfl (first (.eof phase read))
    case heeds stopped         => cases running.stopped.symm.trans stopped
    case fails ends            => exact .stops rfl (first ends)
    case writes | flushes      => exact .runs (running.setLoop nofun (running.clean d))
    case closes phase _        => exact absurd phase running.not_closing

theorem step (run : a.run? es = some b) (next : b.step? e = some b') (hosts : b.Hosts br)
    (step : b.HostStep br e b' br') (p : Progress a es br) : Progress a (es ++ [e]) br' := by
  have stays : Progress a (es ++ [e]) br := by
    cases p
    case runs running        => exact .runs running
    case stops stopped first => exact .stops stopped first.append
  cases step
  case copies turn             => exact p.copies run next hosts rfl turn
  case leaves | changes | waits => exact stays

theorem of_run {x y : Stream} {bufferSize : Nat}
    (alone : a.sessions = [⟨st, .bridging (.new x y bufferSize)⟩])
    (there : ∀ d, ((Bridge.new x y bufferSize).source d).wire < a.wires.length)
    (run : a.run? es = some b) (keeps : ∀ e ∈ es, e.keepsSessions = true) :
    ∃ br, b.Hosts br ∧ (∀ d, (br.source d).wire < b.wires.length) ∧ Progress a es br := by
  refine prefix_induction
    (P := fun es b => ∃ br, b.Hosts br ∧ (∀ d, (br.source d).wire < b.wires.length) ∧
      Progress a es br)
    ⟨_, .runs alone, there, .runs .new⟩ ?_ List.prefix_rfl run
  intro fs c e c' part run next ⟨br, hosts, there, p⟩
  have ⟨br', hosts', step⟩ := hosts.step next (keeps e (part.subset (by simp)))
  exact ⟨br', hosts', fun d => step.wire ▸ step.length ▸ there d, p.step run next hosts step⟩

end Progress

-- What holds of a bridge from the turn on in which its first loop ends, with the failure if there is
-- one. No byte is read and none is written, and the loops take four turns at most. The other loop reports
-- nothing, so the account tells that failure, in whatever order the loops are joined. The bridge returns
-- within the grace period, and then each side is closed, or that was given up because it failed or hung
-- for as long.
structure Concludes (b : Broker) (es : List Event) (c : Broker) (br₀ br : Bridge) (d : Direction)
    (error : Option Fault) : Prop where
  taken      : ∀ d', (br.loop d').taken = (br₀.loop d').taken
  unread     : ∀ d', (br.source d').content c.wires =
    (br₀.source d').content b.wires ++ b.sent (br₀.source d').wire es
  received   : ∀ j, (c.wires.get j).received = (b.wires.get j).received
  turns      : es.countP Event.isCopy ≤ 4
  other      : (br.loop d.opposite).error = none
  firstError : br.stats.firstError = error
  joined     : ∀ d', br.joined d' = br.stats
  returns    : (∀ k, ¬b.Occurs es (Oversleeps k)) →
    (b.clock + Bridge.closeGrace.nanos < c.clock ∨
      b.clock + Bridge.closeGrace.nanos ≤ c.clock ∧ ∀ k, c.turn k = none) →
    ∃ st, c.sessions = [⟨st, .ended (.regular (.bridged br))⟩]
  closed     : ∀ {st}, c.sessions = [⟨st, .ended (.regular (.bridged br))⟩] →
    ∀ d', (br.loop d').phase = .ended ∧ ((c.wires.get (br₀.sink d').wire).nearShut = true ∨
      b.Occurs es (GivesUp 0 d' (b.clock + Bridge.closeGrace.nanos)))

theorem Concludes.of_halted {x y : Stream} {bufferSize : Nat}
    (alone : a.sessions = [⟨st, .bridging (.new x y bufferSize)⟩]) (apart : x.wire ≠ y.wire)
    (before : a.run? fs = some b) (after : b.run? es = some c)
    (keeps : ∀ e ∈ fs ++ es, e.keepsSessions = true) (hosts : b.Hosts br₀)
    (halted : Halted b es c br₀ br d error)
    (winds : (∀ k, ¬b.Occurs es (Oversleeps k)) → Winds c br b.clock) :
    Concludes b es c br₀ br d error := by
  have run : a.run? (fs ++ es) = some c := by rw [run?_append, before, Option.bind_some, after]
  have ⟨br₁, relayed⟩ :=
    Relayed.of_run alone apart before fun e he => keeps e (List.mem_append_left _ he)
  have ⟨br₂, relayed'⟩ := Relayed.of_run alone apart run keeps
  cases hosts.bridge?_eq.symm.trans relayed.hosts.bridge?_eq
  cases halted.hosts.bridge?_eq.symm.trans relayed'.hosts.bridge?_eq
  constructor
  case taken      => exact halted.taken
  case received   => exact halted.received
  case turns      => exact halted.turns ▸ Nat.le_add_right ..
  case other      => exact halted.other
  case firstError => exact Bridge.firstError_stats halted.own halted.other
  case joined     => exact Bridge.joined_eq halted.other
  case returns    => exact fun prompt => (winds prompt).ended halted.hosts
  case unread =>
    intro d
    have read := (relayed.carries d).read
    have read' := (relayed'.carries d).read
    rw [sent_append before, ← List.append_assoc, read, halted.taken d, List.append_assoc] at read'
    exact relayed.wire d ▸ (List.append_cancel_left read').symm
  case closed =>
    intro st own d
    have ended : (br.loop d).phase = .ended := by
      cases halted.hosts
      case runs own' => cases own.symm.trans own'
      case past isOver => exact Bridge.isOver_iff.mp isOver d
    exact ⟨ended, halted.closed ended⟩

-- A bridge runs until one of its loops ends, and from then on it only comes to its end.
theorem bridge_stops_as_one {x y : Stream} {bufferSize : Nat}
    (alone : a.sessions = [⟨st, .bridging (.new x y bufferSize)⟩]) (apart : x.wire ≠ y.wire)
    (there : x.wire < a.wires.length ∧ y.wire < a.wires.length) (run : a.run? es = some b)
    (keeps : ∀ e ∈ es, e.keepsSessions = true) :
    ∃ br, b.bridge? 0 = some br ∧ (br.Running ∨ ∃ d error, a.Occurs es (Stops 0 d error)) ∧
      ∀ {fs e gs c c' d error}, es = fs ++ e :: gs → a.run? fs = some c → c.step? e = some c' →
        Stops 0 d error c e c' →
        ∃ br₀, c.bridge? 0 = some br₀ ∧ Concludes c (e :: gs) b br₀ br d error := by
  have there d : ((Bridge.new x y bufferSize).source d).wire < a.wires.length := by
    cases d
    case aToB => exact there.left
    case bToA => exact there.right
  have ⟨br, hosts, _, progress⟩ := Progress.of_run alone there run keeps
  refine ⟨br, hosts.bridge?_eq, ?_, ?_⟩
  case refine_1 =>
    cases progress
    case runs running => exact .inl running
    case stops first  => exact .inr ⟨_, _, first⟩
  case refine_2 =>
    intro fs e gs c c' d error hl before next stops
    subst hl
    have ⟨br₀, hosts₀, there₀, progress₀⟩ :=
      Progress.of_run alone there before fun e he => keeps e (List.mem_append_left _ he)
    obtain ⟨rfl, runs, ends⟩ := (stops_iff hosts₀).mp stops
    have whole : c.run? (.turn (.copy 0 d) :: gs) = some b := by
      rwa [run?_append, before, Option.bind_some] at run
    have after : c'.run? gs = some b := by rwa [run?_cons, next, Option.bind_some] at whole
    cases progress₀
    case stops stopped _ => cases runs.symm.trans stopped
    case runs running =>
      have ⟨br', halted, winds⟩ :=
        Halted.of_run hosts₀ running there₀ ends next after fun e he => keeps e (by simp [he])
      cases hosts.bridge?_eq.symm.trans halted.hosts.bridge?_eq
      exact ⟨br₀, hosts₀.bridge?_eq, .of_halted alone apart before whole keeps hosts₀ halted winds⟩

def hanging : List Event :=
  [.change 0 .hangClose, .change 1 .hangClose, .change 1 .stall, .turn (.copy 0 .aToB),
    .wait 5000000000, .change 1 (.failReads ⟨.connectionReset, none⟩)]

def unwinding : List Event :=
  [.turn (.copy 0 .aToB), .wait 6000000000, .turn (.copy 0 .aToB), .turn (.copy 0 .bToA),
    .turn (.session 0)]

theorem bridge_stops_as_one_hanging :
    ∃ b br st, (bridgeOnly { inbox := Bytes.ofText "hello" } {} 16).run?
        (hanging ++ .turn (.copy 0 .bToA) :: unwinding) = some b ∧
      b.clock = 6000000000 ∧ b.sessions = [⟨st, .ended (.regular (.bridged br))⟩] ∧
      br.stats.firstError = some ⟨.connectionReset, none⟩ ∧
      (∀ d, br.joined d = br.stats) ∧ (b.wires.get 1).received = [] := by
  have hung : ∃ c,
      (bridgeOnly { inbox := Bytes.ofText "hello" } {} 16).run? hanging = some c ∧
        (c.bridge? 0, c.wires.get 1, c.clock) =
          (some
            { a := { wire := 0 }, b := { wire := 1 }, bufferSize := 16
              forth :=
                { phase := .writing (Bytes.ofText "hello"), chunks := [Bytes.ofText "hello"] } },
            { stalled := true, closeHangs := true, readFault := some ⟨.connectionReset, none⟩ },
            5000000000) :=
    Option.map_eq_some_iff.mp (by decide +kernel)
  obtain ⟨c, before, was⟩ := hung
  obtain ⟨hosts, wire, clock⟩ := by simpa only [Prod.mk.injEq] using was
  have stopped : ∃ c',
      (bridgeOnly { inbox := Bytes.ofText "hello" } {} 16).run? (hanging ++ [.turn (.copy 0 .bToA)]) =
        some c' ∧ c'.clock = 5000000000 :=
    Option.map_eq_some_iff.mp (by decide +kernel)
  obtain ⟨c', here, _⟩ := stopped
  have next : c.step? (.turn (.copy 0 .bToA)) = some c' := run?_snoc before ▸ here
  have stops : Stops 0 .bToA (some ⟨.connectionReset, none⟩) c (.turn (.copy 0 .bToA)) c' :=
    ⟨rfl, _, hosts, rfl, .unread rfl (by
      simp [Stream.read, Bridge.source, wire, Connection.read, Attempt.map])⟩
  have unwound : ∃ b, (bridgeOnly { inbox := Bytes.ofText "hello" } {} 16).run?
      (hanging ++ .turn (.copy 0 .bToA) :: unwinding) = some b ∧
        (b.clock, b.idleNow, (b.wires.get 1).received) = (6000000000, true, []) :=
    Option.map_eq_some_iff.mp (by decide +kernel)
  obtain ⟨b, run, later⟩ := unwound
  obtain ⟨due, idle, received⟩ := by simpa only [Prod.mk.injEq] using later
  have after : c.run? (.turn (.copy 0 .bToA) :: unwinding) = some b := by
    rwa [run?_append, before] at run
  have prompt : c.isPrompt (.turn (.copy 0 .bToA) :: unwinding) = true := by
    have whole : (bridgeOnly { inbox := Bytes.ofText "hello" } {} 16).isPrompt
        (hanging ++ .turn (.copy 0 .bToA) :: unwinding) = true := by decide +kernel
    rw [isPrompt_append before, Bool.and_eq_true] at whole
    exact whole.right
  obtain ⟨br, _, _, ends⟩ :=
    bridge_stops_as_one (rfl : (bridgeOnly _ _ 16).sessions =
      [⟨{ wire := 0 }, .bridging (.new { wire := 0 } { wire := 1 } 16)⟩]) (by decide) (by decide) run
      (by decide)
  obtain ⟨_, _, concludes⟩ := ends rfl before next stops
  obtain ⟨st, own⟩ := concludes.returns (fun _ => not_oversleeps_of_isPrompt after prompt)
    (.inr ⟨by rw [clock, due]; decide, fun _ => turn_eq_none_of_idleNow idle⟩)
  exact ⟨b, br, st, run, due, own, concludes.firstError, concludes.joined, received⟩

end Broker
end Rendezvous
