import Rendezvous.Proofs.Acceptance
import Rendezvous.Proofs.Payload
import Rendezvous.Proofs.Promptness

namespace Rendezvous.Broker

variable {b b' : Broker} {e : Event} {i : Nat} {q : Stake} {s s' : Session} {reply : Reply}
variable {cause : Error} {st : Stream} {r : Registry} {hs : List Handle} {ws : Connections}
variable {target : Instant}

-- The connection of a session accepts as long as the session has it to itself.
def Answerable (i : Nat) (b : Broker) : Prop :=
  ∀ s, b.sessions[i]? = some s → s.phase.IsOpen → (b.wires.get i).Accepts

structure Dismissed (b : Broker) (i : Nat) (reply : Reply) (cause : Error) : Prop where
  ended    : ∃ st, b.sessions[i]? = some ⟨st, .ended (.failed cause)⟩
  received : (b.wires.get i).received = reply.bytes
  shut     : (b.wires.get i).nearShut = true

-- A session that fails, from its refusal to its end.
inductive Refused (b : Broker) (i : Nat) (reply : Reply) (cause : Error) : Prop
  | tells {st : Stream} {unsent : Bytes}
      (own : b.sessions[i]? = some ⟨st, .refusing unsent cause⟩)
      (received : (b.wires.get i).received ++ unsent = reply.bytes)
  | closes {st : Stream} (own : b.sessions[i]? = some ⟨st, .closing (.failed cause) none⟩)
      (received : (b.wires.get i).received = reply.bytes)
  | past (dismissed : b.Dismissed i reply cause) (gone : b.Gone i)

theorem Gone.of_ends (m : b.Matched) (h : b.Shift e b') (hi : b.stake i = some q) (hq : q ≠ .ended)
    (light : ∀ h, q ≠ .provides h) (hi' : b'.stake i = some .ended) : b'.Gone i := by
  refine ⟨hi', fun x hx => ?_⟩
  have apart {x} (hx : b.Holds i x) : False :=
    hq <| Option.some.inj <| hi.symm.trans (m.ended hx)
  cases h
  case rests registry handles kept fresh =>
    exact hq <| Option.some.inj <| (kept hi).symm.trans hi'
  case moves place before move after others =>
    obtain hx | ⟨h, -, rfl, hp, -⟩ | ⟨-, _, hx, -⟩ := move.holds before after others hx
    · exact apart hx
    · exact light h <| Option.some.inj <| hi.symm.trans (hp ▸ before)
    · exact apart hx

theorem Dismissed.step (d : b.Dismissed i reply cause) (g : b.Gone i) (wired : b.Wired)
    (h : b.Step e b') : b'.Dismissed i reply cause := by
  have ⟨st, hi⟩ := d.ended
  have same : (b'.wires.get i).received = (b.wires.get i).received ∧
      (b'.wires.get i).nearShut = (b.wires.get i).nearShut := by
    have step := h
    cases h
    case turn own t =>
      have same := t.elsewhere (wired.bridge_of own) (wired.own own ▸ t.ne_of_ended own g.ended)
        fun hg => g.free _ (holds_guest own hg)
      exact ⟨congrArg Connection.received same, congrArg Connection.nearShut same⟩
    all_goals exact ⟨step.received nofun, step.unclosed nofun i⟩
  exact ⟨⟨st, h.ended hi⟩, same.left.trans d.received, same.right.trans d.shut⟩

namespace Refused

section

variable (sound : b.Sound) (answers : Answerable i b)
include sound answers

theorem close (own : b.sessions[i]? = some s) (ho : s.phase.IsOpen) :
    ∃ ws, s.stream.close b.wires = .done ws ∧ (ws.get i).nearShut = true := by
  have wire := sound.wired.own own
  have ⟨ws, hc, hn⟩ := Stream.close_of_accepts (wire.symm ▸ answers s own ho)
  exact ⟨ws, hc, wire ▸ hn⟩

variable (unshut : b.Unshut)
include unshut

theorem deliver (own : b.sessions[i]? = some s) (ho : s.phase.IsOpen) (unsent : Bytes) :
    ∃ left ws, s.stream.deliver b.wires unsent = .done (left, ws) := by
  have wire := sound.wired.own own
  exact Stream.deliver_of_accepts (wire ▸ answers s own ho) (wire ▸ unshut own ho)

theorem turn (f : b.Refused i reply cause) (own : b.sessions[i]? = some s)
    (t : b.Turn i s.stream s.phase s' r hs ws) (h : b.Step e (b.after i s' r hs ws)) :
    (b.after i s' r hs ws).Refused i reply cause := by
  have wire := sound.wired.own own
  cases f
  case tells st unsent own' received =>
    cases own.symm.trans own'
    have ⟨left, ws', sends⟩ := deliver sound answers unshut own trivial unsent
    cases t
    case answers send =>
      exact .tells (getElem?_after own) (wire ▸ received_deliver send (wire.symm ▸ received))
    case answered send =>
      obtain send | ⟨_, fails⟩ := send
      · exact .closes (getElem?_after own) (wire ▸ received_delivered send (wire.symm ▸ received))
      · cases sends.symm.trans fails
  case closes st own' received =>
    cases own.symm.trans own'
    have ⟨ws', ends, shut⟩ := close sound answers own trivial
    cases t
    case closes close' =>
      obtain done | ⟨-, ⟨_, fails⟩ | ⟨waits, -⟩⟩ := close'
      · cases ends.symm.trans done
        have ended : (b.after i ⟨st, .ended (.failed cause)⟩ b.registry b.handles
            (st.abandon ws')).sessions[i]? = _ := getElem?_after own
        refine .past ⟨⟨st, ended⟩, ?_, ?_⟩ ?_
        · exact (Stream.abandon_wrote.received_eq i).trans <|
            ((Stream.close_done ends).received_eq i).trans received
        · exact (Stream.abandon_unclosed i).trans shut
        · exact .of_ends sound.matched (h.shift sound.wired) (stake_of own) nofun nofun (stake_of ended)
      · cases ends.symm.trans fails
      · cases ends.symm.trans waits
  case past dismissed gone =>
    have ⟨_, own'⟩ := dismissed.ended
    cases own.symm.trans own'
    cases t

theorem step (f : b.Refused i reply cause) (h : b.Step e b') (runs : e ≠ .abort i) :
    b'.Refused i reply cause := by
  by_cases place : e.place? = some i
  case pos =>
    cases h <;> cases place
    case turn own t => exact f.turn sound answers unshut own t (.turn own t)
    case abort      => exact absurd rfl runs
    case spare      => exact absurd rfl runs
  case neg =>
    cases f
    case tells own received =>
      have ⟨own', same⟩ := h.others sound own trivial place
      exact .tells own' (same ▸ received)
    case closes own received =>
      have ⟨own', same⟩ := h.others sound own trivial place
      exact .closes own' (same ▸ received)
    case past dismissed gone =>
      exact .past (dismissed.step gone sound.wired h) (gone.step (h.shift sound.wired))

theorem dismissed (f : b.Refused i reply cause) (rests : b.turn (.session i) = none) :
    b.Dismissed i reply cause := by
  cases f
  case past dismissed _ => exact dismissed
  case tells st unsent own _ =>
    have ⟨left, ws, send⟩ := deliver sound answers unshut own trivial unsent
    cases left <;> simp [Broker.turn, sessionTurn, own, writeRefusal, send] at rests
  case closes st own _ =>
    have ⟨ws, close, _⟩ := close sound answers own trivial
    simp [Broker.turn, sessionTurn, own, closeSession, close] at rests

theorem turn_of_runs (f : b.Refused i reply cause) (runs : b.stake i ≠ some .ended) :
    b.turn (.session i) ≠ none := fun rests =>
  have ⟨_, ended⟩ := (f.dismissed sound answers unshut rests).ended
  runs (stake_of ended)

theorem in_time (f : b.Refused i reply cause) (h : b.Step e b')
    (awake : ¬Oversleeps (.session i) b e b') (time : b.stake i ≠ some .ended → b.clock ≤ target)
    (runs : b'.stake i ≠ some .ended) : b'.clock ≤ target := by
  have runs : b.stake i ≠ some .ended := fun ended => runs ((h.shift sound.wired).ended ended)
  exact Broker.in_time h awake (time runs) (.inl (f.turn_of_runs sound answers unshut runs))

theorem dismissed_of_late (f : b.Refused i reply cause)
    (time : b.stake i ≠ some .ended → b.clock ≤ target)
    (late : target < b.clock ∨ b.turn (.session i) = none) : b.Dismissed i reply cause := by
  obtain late | rests := late
  case inr => exact f.dismissed sound answers unshut rests
  case inl =>
    have ended : b.stake i = some .ended := Classical.byContradiction fun runs =>
      Nat.not_le_of_lt late (time runs)
    cases f
    case past dismissed _ => exact dismissed
    case tells own _      => cases (stake_of own).symm.trans ended
    case closes own _     => cases (stake_of own).symm.trans ended

end

theorem received_prefix (f : b.Refused i reply cause) : (b.wires.get i).received <+: reply.bytes := by
  cases f
  case tells _ received  => exact received ▸ List.prefix_append ..
  case closes _ received => exact received ▸ List.prefix_rfl
  case past dismissed _  => exact dismissed.received ▸ List.prefix_rfl

section

variable {config : Config} {policy : Policy} {es fs : List Event} {d : Broker}
variable (before : (fresh config policy).run? es = some b) (f : b.Refused i reply cause)
variable (after : b.run? fs = some d) (stays : .abort i ∉ fs) (accepts : b.Throughout (Answerable i) fs)
include before f after stays accepts

-- What is refused stays so, and no time passes for a session that is prompt until the refusal is over.
theorem of_run : d.Refused i reply cause ∧ (¬b.Occurs fs (Oversleeps (.session i)) →
    d.stake i ≠ some .ended → d.clock ≤ b.clock) := by
  refine prefix_induction (P := fun gs d => d.Refused i reply cause ∧
    (¬b.Occurs gs (Oversleeps (.session i)) → d.stake i ≠ some .ended → d.clock ≤ b.clock))
    ⟨f, fun _ _ => Nat.le_refl _⟩ ?_ List.prefix_rfl after
  intro gs c e c' part run next ⟨f, time⟩
  have here : (fresh config policy).run? (es ++ gs) = some c := by rwa [run?_append, before]
  have sound := Sound.of_run here
  have unshut : c.Unshut := Unshut.of_run here
  have answers := accepts gs c ((List.prefix_append ..).trans part) run
  have step := step_of_step? next
  refine ⟨f.step sound answers unshut step fun he => stays ?_, fun prompt => ?_⟩
  · exact he ▸ part.subset (by simp)
  · rw [occurs_snoc run, not_or] at prompt
    exact f.in_time sound answers unshut step (fun sleeps => prompt.right ⟨_, next, sleeps⟩)
      (time prompt.left)

-- A refusal is over as soon as there is nothing to wait for, and at once for a session that is prompt.
theorem dismissed_of_run (settled : d.turn (.session i) = none ∨
    b.clock < d.clock ∧ ¬b.Occurs fs (Oversleeps (.session i))) : d.Dismissed i reply cause := by
  have ⟨f', time⟩ := f.of_run before after stays accepts
  have here : (fresh config policy).run? (es ++ fs) = some d := by rwa [run?_append, before]
  have unshut : d.Unshut := Unshut.of_run here
  obtain rests | ⟨late, prompt⟩ := settled
  · exact f'.dismissed (.of_run here) (accepts.last after) unshut rests
  · exact f'.dismissed_of_late (.of_run here) (accepts.last after) unshut (time prompt) (.inl late)

end
end Refused
end Rendezvous.Broker
