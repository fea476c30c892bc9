import Rendezvous.Proofs.Turn

namespace Rendezvous.Broker

def dropped (b : Broker) (i : Nat) (s : Session) : Broker :=
  b.after i ⟨s.stream, .ended .aborted⟩ b.registry (b.release s.phase).handles
    (s.stream.abandon (b.release s.phase).wires)

inductive Step (b : Broker) : Event → Broker → Prop
  | turn {k s s' r hs ws} (session : b.sessions[k.place]? = some s)
      (turn : b.Turn k.place s.stream s.phase s' r hs ws) :
    Step b (.turn k) (b.after k.place s' r hs ws)
  | accept {wire peer} (fresh : wire.isFresh = true) : Step b (.accept wire peer) (b.accept wire peer)
  | change {j what c} (change : (b.wires.get j).apply what = .ok c) :
    Step b (.change j what) (b.touch j fun _ => c)
  | abort {i s} (session : b.sessions[i]? = some s) (runs : s.isOver = false) :
    Step b (.abort i) (b.dropped i s)
  | spare {i} (ended : ∀ s, b.sessions[i]? = some s → s.isOver = true) : Step b (.abort i) b
  | wait {t} (later : b.clock ≤ t) : Step b (.wait t) { b with clock := t }

variable {b b' : Broker} {e : Event} {i : Nat} {s : Session} {p : Phase}

theorem release_eq :
    b.release p = { b with handles := (b.release p).handles, wires := (b.release p).wires } := by
  unfold release
  split <;> try rfl
  simp only
  split <;> rfl

theorem abort_eq (hs : b.sessions[i]? = some s) (ho : s.isOver = false) :
    b.abort i = b.dropped i s := by
  simp only [abort, hs, ho, Bool.false_eq_true, if_false]
  rw [release_eq]
  exact finish_eq
    (b := { b with handles := (b.release s.phase).handles, wires := (b.release s.phase).wires }) hs

theorem step_of_step? (h : b.step? e = some b') : b.Step e b' := by
  cases e
  case turn k =>
    have ⟨s, hs, s', r, hds, ws, t, he⟩ := turn_turns h
    exact he ▸ .turn hs t
  case accept wire peer =>
    simp only [step?] at h
    split at h <;> cases h
    exact .accept ‹_›
  case change j what =>
    simp only [step?] at h
    split at h <;> cases h
    exact .change ‹_›
  case abort i =>
    cases h
    cases hs : b.sessions[i]?
    case none =>
      simpa [abort, hs] using Step.spare (b := b) (i := i) (by simp [hs])
    case some s =>
      cases ho : s.isOver
      case false => exact abort_eq hs ho ▸ .abort hs ho
      case true  => simpa [abort, hs, ho] using Step.spare (b := b) (i := i) (by simp [hs, ho])
  case wait t =>
    simp only [step?] at h
    split at h <;> cases h
    exact .wait ‹_›

theorem of_getElem?_accept {wire : Connection} {peer : Peer} {j : Nat}
    (h : (b.accept wire peer).sessions[j]? = some s) :
    b.sessions[j]? = some s ∨ j = b.sessions.length ∧
      s = ⟨{ wire := b.wires.length, peer },
        .identifying {} (b.clock + b.config.identificationTimeout.nanos)⟩ := by
  simp only [accept, List.getElem?_append] at h
  split at h
  case isTrue => exact .inl h
  case isFalse hj =>
    rw [List.getElem?_singleton] at h
    split at h <;> cases h
    exact .inr ⟨by omega, rfl⟩

theorem getElem?_accept_lt {wire : Connection} {peer : Peer} (h : b.sessions[i]? = some s) :
    (b.accept wire peer).sessions[i]? = some s := by
  have ⟨hi, _⟩ := List.getElem?_eq_some_iff.mp h
  simp [accept, List.getElem?_append_left hi, h]

-- How a session has come to be as it is after a step: it has been so before, it has taken a turn, its
-- connection has just been accepted, or it has been dropped.
inductive Origin (b : Broker) (e : Event) (i : Nat) : Session → Prop
  | stays {s : Session} (own : b.sessions[i]? = some s) : Origin b e i s
  | turns {k : Task} {s s' : Session} {r hs ws} (event : e = .turn k) (place : k.place = i)
      (own : b.sessions[i]? = some s)
      (turn : b.Turn i s.stream s.phase s' r hs ws) : Origin b e i s'
  | accepted {peer t} : Origin b e i ⟨{ wire := b.wires.length, peer }, .identifying {} t⟩
  | dropped {st} : Origin b e i ⟨st, .ended .aborted⟩

theorem Step.origin (h : b.Step e b') (own : b'.sessions[i]? = some s) : b.Origin e i s := by
  cases h
  case turn own₀ turn =>
    obtain ⟨rfl, rfl⟩ | ⟨-, own⟩ := of_getElem?_after own
    · exact .turns rfl rfl own₀ turn
    · exact .stays own
  case accept =>
    obtain own | ⟨-, rfl⟩ := of_getElem?_accept own
    · exact .stays own
    · exact .accepted
  case abort =>
    obtain ⟨-, rfl⟩ | ⟨-, own⟩ := of_getElem?_after own
    · exact .dropped
    · exact .stays own
  case change | spare | wait => exact .stays own

theorem Step.settings (h : b.Step e b') : b'.config = b.config ∧ b'.policy = b.policy := by
  cases h <;> exact ⟨rfl, rfl⟩

theorem Step.clock (h : b.Step e b') : b'.clock = b.clock ∨ e = .wait b'.clock := by
  cases h
  case wait => exact .inr rfl
  all_goals exact .inl rfl

theorem Step.clock_le (h : b.Step e b') : b.clock ≤ b'.clock := by
  cases h
  case wait later => exact later
  all_goals exact Nat.le_refl _

-- A session that is over stays so, and how it has ended does not change.
theorem Step.ended {st : Stream} {how : Ending} (h : b.Step e b')
    (hi : b.sessions[i]? = some ⟨st, .ended how⟩) : b'.sessions[i]? = some ⟨st, .ended how⟩ := by
  cases h
  case turn k s s' r hds ws own t =>
    refine (getElem?_after_ne fun hk => ?_).trans hi
    cases hi.symm.trans (hk ▸ own)
    cases t
  case accept => exact getElem?_accept_lt hi
  case abort j s own runs =>
    refine (getElem?_after_ne fun hj => ?_).trans hi
    cases hi.symm.trans (hj ▸ own)
    cases runs
  case change | spare | wait => exact hi

end Rendezvous.Broker
