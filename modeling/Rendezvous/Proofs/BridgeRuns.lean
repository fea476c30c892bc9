import Rendezvous.Proofs.Ledger

namespace Rendezvous

namespace Connection

variable {c c' : Connection} {bs : Bytes} {limit : Nat}

structure Ages (c c' : Connection) : Prop where
  far  : c.farShut = true ∨ c.farGone = true → c'.farShut = true ∨ c'.farGone = true
  near : c.nearShut = true → c'.nearShut = true

theorem Ages.refl (c : Connection) : c.Ages c := ⟨id, id⟩

theorem ages_read (h : c.read limit = .done (bs, c')) : c.Ages c' := by
  simp only [read] at h
  (repeat' split at h) <;> cases h <;> exact ⟨id, id⟩

theorem ages_write {n : Nat} (h : c.write bs = .done (n, c')) : c.Ages c' := by
  unfold Connection.write at h
  (repeat' split at h) <;> cases h
  exact ⟨id, id⟩

theorem ages_close (h : c.close = .done c') : c.Ages c' :=
  close_done h ▸ ⟨id, fun _ => rfl⟩

theorem ages_apply {what : Change} (h : c.apply what = .ok c') : c.Ages c' := by
  cases what
  case send bs =>
    simp only [apply, send] at h
    (repeat' split at h) <;> cases h
    exact ⟨id, id⟩
  case shut =>
    cases h
    exact ⟨fun _ => .inl rfl, id⟩
  case drop =>
    cases h
    exact ⟨fun _ => .inr rfl, id⟩
  all_goals
    cases h
    exact ⟨id, id⟩

end Connection

def Age (cs cs' : Connections) : Prop := ∀ j, (cs.get j).Ages (cs'.get j)

namespace Age

variable {cs cs' cs'' : Connections} {c : Connection} {f : Connection → Connection} {w : Nat}

theorem refl (cs : Connections) : Age cs cs := fun _ => .refl _

theorem trans (h : Age cs cs') (h' : Age cs' cs'') : Age cs cs'' := fun j =>
  ⟨(h' j).far ∘ (h j).far, (h' j).near ∘ (h j).near⟩

theorem of_set (h : (cs.get w).Ages c) : Age cs (cs.set w c) := by
  intro j
  by_cases hj : j = w
  case neg => exact Connections.get_set_ne hj ▸ .refl _
  case pos =>
    subst hj
    by_cases hl : j < cs.length
    case pos => exact Connections.get_set_self hl ▸ h
    case neg =>
      rw [Connections.set_of_length_le (Nat.le_of_not_lt hl)]
      exact .refl _

theorem of_update (h : (cs.get w).Ages (f (cs.get w))) : Age cs (cs.update w f) := by
  intro j
  by_cases hj : j = w
  case neg => exact Connections.get_update_ne hj ▸ .refl _
  case pos =>
    subst hj
    by_cases hl : j < cs.length
    case pos => exact Connections.get_update_self hl ▸ h
    case neg =>
      rw [Connections.update_of_length_le (Nat.le_of_not_lt hl)]
      exact .refl _

end Age

namespace Stream

variable {s s' : Stream} {cs cs' : Connections} {bs unsent : Bytes} {left : Option Bytes} {limit : Nat}

theorem age_read (h : s.read cs limit = .done (bs, s', cs')) : Age cs cs' := by
  unfold read at h
  split at h
  case isFalse => cases h; exact .refl cs
  case isTrue =>
    cases hr : (cs.get s.wire).read limit <;> rw [hr] at h <;> cases h
    exact .of_set (Connection.ages_read hr)

theorem age_advance (h : s.advance cs unsent = .done (bs, cs')) : Age cs cs' := by
  unfold advance write at h
  cases hw : (cs.get s.wire).write unsent <;> simp only [hw, Attempt.map] at h <;> try cases h
  split at h <;> cases h
  exact .of_set (Connection.ages_write hw)

theorem age_deliver (h : s.deliver cs unsent = .done (left, cs')) : Age cs cs' := by
  unfold deliver at h
  split at h
  case isTrue =>
    cases hf : (cs.get s.wire).flush <;> rw [hf] at h <;> cases h
    exact .refl cs
  case isFalse =>
    cases ha : s.advance cs unsent <;> rw [ha] at h <;> cases h
    exact age_advance ha

theorem age_close (h : s.close cs = .done cs') : Age cs cs' := by
  unfold close at h
  cases hc : (cs.get s.wire).close <;> rw [hc] at h <;> cases h
  exact .of_set (Connection.ages_close hc)

theorem nearShut_close (h : s.close cs = .done cs') (there : s.wire < cs.length) :
    (cs'.get s.wire).nearShut = true := by
  unfold close at h
  cases hc : (cs.get s.wire).close <;> rw [hc] at h <;> cases h
  rw [Connections.get_set_self there, Connection.close_done hc]

theorem age_abandon : Age cs (s.abandon cs) := .of_update ⟨id, id⟩

end Stream

theorem Direction.eq_or_opposite (d d' : Direction) : d' = d ∨ d = d'.opposite := by
  cases d <;> cases d' <;> simp [opposite]

namespace Bridge

variable {br br' : Bridge} {d : Direction} {now : Instant} {cs cs' : Connections}

theorem Copies.bufferSize (h : br.Copies now d cs br' cs') : br'.bufferSize = br.bufferSize := by
  cases h <;> cases d <;> rfl

theorem wire_ne (apart : br.a.wire ≠ br.b.wire) : (br.source d).wire ≠ (br.sink d).wire := by
  cases d
  case aToB => exact apart
  case bToA => exact apart.symm

theorem Copies.age (h : br.Copies now d cs br' cs') : Age cs cs' := by
  cases h
  case reads read => exact Stream.age_read read
  case exhausts read => exact Stream.age_read read
  case writes send => exact Stream.age_deliver send
  case closes close =>
    obtain hc | ⟨rfl, -⟩ := close
    · exact Stream.age_close hc
    · exact .refl _
  case heeds | fails | flushes => exact .refl _

end Bridge

namespace Broker

variable {a b b' : Broker} {e : Event} {es : List Event} {i : Nat} {br br' : Bridge} {d : Direction}
variable {head payload written : Bytes} {error : Option Fault}

def bridge? (b : Broker) (i : Nat) : Option Bridge :=
  match b.sessions[i]? with
  | some { phase := .bridging br, .. } => some br
  | some { phase := .ended (.regular (.bridged br)), .. } => some br
  | _ => none

def Event.keepsSessions : Event → Bool
  | .accept .. | .abort _ => false
  | _ => true

inductive Hosts (b : Broker) (br : Bridge) : Prop
  | runs {st} (own : b.sessions = [⟨st, .bridging br⟩])
  | past {st} (own : b.sessions = [⟨st, .ended (.regular (.bridged br))⟩]) (isOver : br.isOver = true)

theorem Hosts.bridge?_eq (h : b.Hosts br) : b.bridge? 0 = some br := by
  cases h <;> simp [bridge?, *]

-- What an event does to a bridge that is by itself.
inductive HostStep (b : Broker) (br : Bridge) : Event → Broker → Bridge → Prop
  | copies {d b₁ br₁} (turn : br.Copies b.clock d b.wires br₁ b₁.wires) (clock : b₁.clock = b.clock) :
    HostStep b br (.turn (.copy 0 d)) b₁ br₁
  | leaves {b₁} (isOver : br.isOver = true) (wires : b₁.wires = br.abandon b.wires)
      (clock : b₁.clock = b.clock) : HostStep b br (.turn (.session 0)) b₁ br
  | changes {j what c} (change : (b.wires.get j).apply what = .ok c) :
    HostStep b br (.change j what) (b.touch j fun _ => c) br
  | waits {t} (later : b.clock ≤ t) : HostStep b br (.wait t) { b with clock := t } br

theorem Hosts.of_sessions (h : b.Hosts br) (same : b'.sessions = b.sessions) : b'.Hosts br := by
  cases h
  case runs own      => exact .runs (same.trans own)
  case past own isOver => exact .past (same.trans own) isOver

theorem Hosts.step (h : b.Hosts br) (next : b.step? e = some b') (keeps : e.keepsSessions = true) :
    ∃ br', b'.Hosts br' ∧ b.HostStep br e b' br' := by
  cases e
  case accept | abort => cases keeps
  case change =>
    simp only [step?] at next
    split at next <;> cases next
    exact ⟨br, h.of_sessions rfl, .changes ‹_›⟩
  case wait =>
    simp only [step?] at next
    split at next <;> cases next
    exact ⟨br, h.of_sessions rfl, .waits ‹_›⟩
  case turn k =>
    obtain ⟨s, hs, s', r, hds, ws, turn, _⟩ := turn_turns next
    have alone {x} (own : b.sessions = [x]) : k.place = 0 ∧ x = s := by
      rw [own, List.getElem?_singleton] at hs
      split at hs <;> cases hs
      exact ⟨‹_›, rfl⟩
    cases h
    case past own _ =>
      obtain ⟨-, rfl⟩ := alone own
      cases turn
    case runs st own =>
      obtain ⟨hk, rfl⟩ := alone own
      cases k <;> cases hk
      case session =>
        simp only [step?, Broker.turn, sessionTurn, own, List.getElem?_cons_zero, leaveBridge] at next
        split at next <;> cases next
        exact ⟨br, .past rfl ‹_›, .leaves ‹_› rfl rfl⟩
      case copy d =>
        simp only [step?, Broker.turn, copyTurn, own, List.getElem?_cons_zero] at next
        obtain ⟨⟨br', ws'⟩, copies, he⟩ := Option.map_eq_some_iff.mp next
        subst he
        exact ⟨br', .runs rfl, .copies (Bridge.turn_copies copies) rfl⟩

namespace HostStep

variable (h : b.HostStep br e b' br')
include h

theorem bufferSize : br'.bufferSize = br.bufferSize := by
  cases h
  case copies _ turn             => exact turn.bufferSize
  case leaves | changes | waits  => rfl

theorem wire : (br'.source d).wire = (br.source d).wire := by
  cases h
  case copies _ turn =>
    have ⟨ha, hb⟩ := turn.wires
    cases d <;> assumption
  case leaves | changes | waits  => rfl

theorem length : b'.wires.length = b.wires.length := by
  cases h
  case copies _ turn  => exact turn.within.length
  case leaves wires _ => exact wires ▸ (Bridge.abandon_within (l := [])).length
  case changes        => exact Connections.length_update
  case waits          => rfl

theorem age : Age b.wires b'.wires := by
  cases h
  case copies _ turn  => exact turn.age
  case leaves wires _ => exact wires ▸ Stream.age_abandon.trans Stream.age_abandon
  case changes change => exact .of_update (Connection.ages_apply change)
  case waits          => exact .refl _

theorem takes : ∃ got, (br'.loop d).taken = (br.loop d).taken ++ got := by
  cases h
  case copies d' _ turn =>
    have ⟨got, _, m⟩ := turn.moved
    obtain rfl | rfl := d.eq_or_opposite d'
    · exact ⟨got, m.taken⟩
    · exact ⟨[], m.other ▸ (List.append_nil _).symm⟩
  case leaves | changes | waits => exact ⟨[], (List.append_nil _).symm⟩

theorem sends_nothing {w : Nat} (far : (b.wires.get w).farShut = true ∨ (b.wires.get w).farGone = true) :
    b.sentBy w e = [] := by
  cases h
  case copies | leaves | waits => rfl
  case changes j what c change =>
    cases what <;> try rfl
    case send bs =>
      refine if_neg fun hj => ?_
      subst hj
      simp only [Connection.apply, Connection.send] at change
      (repeat' split at change) <;> cases change
      simp_all

variable (apart : br.a.wire ≠ br.b.wire)
include apart

theorem carries (c : br.Carries d b.wires head payload) :
    br'.Carries d b'.wires head (payload ++ b.sentBy (br.source d).wire e) := by
  cases h
  case copies d' _ turn =>
    have ⟨_, _, m⟩ := turn.moved
    obtain rfl | rfl := d.eq_or_opposite d'
    · simpa [sentBy] using m.carries c
    · simpa [sentBy] using m.carries_opposite (Bridge.wire_ne apart) c
  case leaves wires _ =>
    have arrived j : Arrived j (fun _ => []) b.wires (fun _ => []) b'.wires [] :=
      wires ▸ (Bridge.abandon_within (l := [])).kept List.not_mem_nil |>.arrived
    exact c.arrived (arrived _) (arrived _)
  case changes change =>
    have arrived w : Arrived w (fun _ => []) .. := Accounted.arrived_change change
    exact c.arrived (arrived _) (arrived _)
  case waits => simpa [sentBy] using c

theorem others (hn : e ≠ .turn (.copy 0 d)) : br'.loop d = br.loop d ∧
    (b'.wires.get (br.sink d).wire).received = (b.wires.get (br.sink d).wire).received := by
  cases h
  case copies d' _ turn =>
    have ⟨_, _, m⟩ := turn.moved
    obtain rfl | rfl := d.eq_or_opposite d'
    · exact absurd rfl hn
    · refine ⟨m.other, ?_⟩
      rw [Bridge.sink_opposite]
      exact m.received (Bridge.wire_ne apart)
  case leaves wires _ =>
    have kept j : Kept j b.wires b'.wires :=
      wires ▸ (Bridge.abandon_within (l := [])).kept List.not_mem_nil
    exact ⟨rfl, (kept _).received⟩
  case changes change =>
    have arrived : Arrived (br.sink d).wire (fun _ => []) .. := Accounted.arrived_change change
    exact ⟨rfl, arrived.received⟩
  case waits          => exact ⟨rfl, rfl⟩

end HostStep

def Stops (i : Nat) (d : Direction) (error : Option Fault) : Happening := fun b e _ =>
  e = .turn (.copy i d) ∧ ∃ br, b.bridge? i = some br ∧ br.stopped = false ∧ br.Ends d b.wires error

theorem stops_iff (hosts : b.Hosts br) : Stops 0 d error b e b' ↔
    e = .turn (.copy 0 d) ∧ br.stopped = false ∧ br.Ends d b.wires error := by
  simp [Stops, hosts.bridge?_eq]

end Broker
end Rendezvous
