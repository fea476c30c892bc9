import Rendezvous.Proofs.Pairing

namespace Rendezvous

-- Two far ends that have named the same service: what each has received behind its reply is a prefix
-- of what the other has sent behind its command.
structure Paired (sent : Nat → Bytes) (cs : Connections) (c p : Nat) (n : Name) : Prop where
  request    : Command.first? (sent c) = some (.request n)
  register   : Command.first? (sent p) = some (.register n)
  connected  : Reply.connectedToService.bytes <+: (cs.get c).received
  registered : Reply.serviceRegistered.bytes <+: (cs.get p).received
  toConsumer : (cs.get c).received <+: Reply.connectedToService.bytes ++ (sent p).afterLine
  toProvider : (cs.get p).received <+: Reply.serviceRegistered.bytes ++ (sent c).afterLine

section

variable {sent sent' : Nat → Bytes} {cs cs' : Connections} {br : Bridge} {n : Name} {c p : Nat}
variable {more more' head payload : Bytes} {d : Direction}

theorem Bridge.Carries.received (r : br.Carries d cs head payload) :
    (cs.get (br.sink d).wire).received <+: head ++ payload := by
  rw [r.read, ← List.append_assoc]
  exact r.written.trans (List.prefix_append ..)

theorem Bridge.Carries.complete {unsent : Bytes} (r : br.Carries d cs head payload)
    (h : (br.loop d).phase.unsent? = some unsent) :
    (cs.get (br.sink d).wire).received ++ unsent ++ (br.source d).content cs = head ++ payload := by
  rw [r.held h, r.read, List.append_assoc]

theorem Relays.paired (r : Relays sent cs br n) : Paired sent cs br.a.wire br.b.wire n where
  request    := r.request
  register   := r.register
  connected  := r.back.led
  registered := r.forth.led
  toConsumer := r.back.received
  toProvider := r.forth.received

theorem Paired.arrived (h : Paired sent cs c p n) (hc : Arrived c sent cs sent' cs' more)
    (hp : Arrived p sent cs sent' cs' more') : Paired sent' cs' c p n where
  request    := hc.sent ▸ Command.first?_append h.request
  register   := hp.sent ▸ Command.first?_append h.register
  connected  := hc.received ▸ h.connected
  registered := hp.received ▸ h.registered
  toConsumer := by
    rw [hc.received, hp.sent, Command.afterLine_append h.register, ← List.append_assoc]
    exact h.toConsumer.trans (List.prefix_append ..)
  toProvider := by
    rw [hp.received, hc.sent, Command.afterLine_append h.request, ← List.append_assoc]
    exact h.toProvider.trans (List.prefix_append ..)

end

namespace Broker

variable {b b' : Broker} {e : Event} {es fs : List Event} {config : Config} {policy : Policy}
variable {c p w : Nat} {sent : Nat → Bytes}

structure Gone (b : Broker) (w : Nat) : Prop where
  ended : b.stake w = some .ended
  free : ∀ x, ¬b.Holds w x

theorem Gone.step (g : b.Gone w) (h : b.Shift e b') : b'.Gone w := by
  refine ⟨h.ended g.ended, fun x hx => ?_⟩
  cases h
  case rests registry handles kept fresh =>
    refine g.free x ?_
    cases x
    case guest => exact (fresh hx).resolve_right nofun
    case desk  => simpa [Holds, handles] using hx
  case moves place before move after others =>
    obtain hx | ⟨_, _, rfl, rfl, _⟩ | ⟨_, _, hx, _⟩ := move.holds before after others hx
    · exact g.free x hx
    · cases g.ended.symm.trans before
    · exact g.free _ hx

-- When a session that serves another one's connection is over, both connections are nobody's.
theorem gone_of_served (m : b.Matched) (h : b.Shift e b') (hc : b.stake c = some (.serves p))
    (hc' : b'.stake c = some .ended) : b'.Gone c ∧ b'.Gone p := by
  have served : b.Holds p (.guest c) := hc
  cases h
  case rests registry handles kept fresh => cases hc'.symm.trans (kept hc)
  case moves i q q' place before move after others =>
    have hi : i = c := by
      refine Decidable.byContradiction fun hi => ?_
      cases (others (Ne.symm hi)).symm.trans hc' |>.symm.trans hc
    subst hi
    cases before.symm.trans hc
    constructor
    case left =>
      refine ⟨hc', fun x hx => ?_⟩
      obtain hx | ⟨_, _, _, hq, _⟩ | ⟨_, _, hx, _⟩ := move.holds before after others hx
      · cases (m.ended hx).symm.trans hc
      · cases hq
      · cases (m.ended hx).symm.trans hc
    case right =>
      have ended := Shift.ended (.moves place before move after others) (m.ended served)
      refine ⟨ended, fun x hx => ?_⟩
      obtain hx' | ⟨_, _, _, hq, _⟩ | ⟨rfl, _⟩ := move.holds before after others hx
      · cases m.sole hx' served
        cases hc'.symm.trans hx
      · cases hq
      · cases hc'.symm.trans hx

theorem Gone.arrived (g : b.Gone w) (wired : b.Wired) (h : b.Step e b') :
    Arrived w sent b.wires (fun w => sent w ++ b.sentBy w e) b'.wires (b.sentBy w e) := by
  obtain ⟨k, s, s', r, hs, ws, rfl, hi, t, rfl⟩ | arrived := Accounted.arrived_step sent h
  case inr => exact arrived w
  case inl =>
    have kept : Kept w b.wires ws :=
      t.kept hi wired (t.ne_of_ended hi g.ended) fun hg => g.free _ (holds_guest hi hg)
    exact .of ⟨kept.inbox.trans (List.append_nil _).symm, kept.received⟩

-- A consumer's session starts to bridge its connection with one that a provider has handed over.
def StartsBridge (c p : Nat) : Happening := fun b e b' =>
  e.place? = some c ∧ ∃ st provider unsent st' br,
    b.sessions[c]? = some ⟨st, .connecting provider unsent⟩ ∧ provider.wire = p ∧
      b'.sessions[c]? = some ⟨st', .bridging br⟩

def Linked (sent : Nat → Bytes) (b : Broker) (c p : Nat) : Prop :=
  (∃ st br, b.sessions[c]? = some ⟨st, .bridging br⟩ ∧ br.b.wire = p) ∨
    b.Gone c ∧ b.Gone p ∧ ∃ n, Paired sent b.wires c p n

theorem Linked.paired (l : Linked sent b c p) (a : Accounted sent b) (wired : b.Wired) :
    ∃ n, Paired sent b.wires c p n := by
  obtain ⟨st, br, hs, rfl⟩ | ⟨_, _, h⟩ := l
  · have ⟨n, r⟩ := a.session hs
    exact ⟨n, wired.bridge hs ▸ r.paired⟩
  · exact h

theorem Linked.step (l : Linked sent b c p) (a : Accounted sent b) (sound : b.Sound)
    (h : b.Step e b') : Linked (fun w => sent w ++ b.sentBy w e) b' c p := by
  have ⟨n, paired⟩ := l.paired a sound.wired
  obtain ⟨st, br, hs, hw⟩ | ⟨gc, gp, -⟩ := l
  case inr =>
    have shift := h.shift sound.wired
    exact .inr ⟨gc.step shift, gp.step shift, n,
      paired.arrived (gc.arrived sound.wired h) (gp.arrived sound.wired h)⟩
  case inl =>
    -- The bridge's end moves no bytes and leaves both connections to nobody.
    have ends (hn : ∀ w, b.sentBy w e = []) (k : ∀ w, Kept w b.wires b'.wires)
        (hc' : b'.stake c = some .ended) : Linked (fun w => sent w ++ b.sentBy w e) b' c p := by
      have hc : b.stake c = some (.serves p) := hw ▸ stake_of hs
      have ⟨gc, gp⟩ := gone_of_served sound.matched (h.shift sound.wired) hc hc'
      refine .inr ⟨gc, gp, n, ?_⟩
      simpa [hn] using paired.arrived (k c).arrived (k p).arrived
    cases h
    case turn k s s' r hds ws hi t =>
      by_cases hk : c = k.place
      case neg => exact .inl ⟨st, br, (getElem?_after_ne hk).trans hs, hw⟩
      case pos =>
        subst hk
        cases hs.symm.trans hi
        cases t
        case copies turn =>
          exact .inl ⟨st, _, getElem?_after hs, (Bridge.turn_copies turn).wires.right.trans hw⟩
        case parts =>
          exact ends (fun _ => rfl)
            (fun _ => (Bridge.abandon_within (l := [])).kept List.not_mem_nil)
            (stake_of (getElem?_after hs))
    case accept => exact .inl ⟨st, br, getElem?_accept_lt hs, hw⟩
    case change | spare | wait => exact .inl ⟨st, br, hs, hw⟩
    case abort i s hi ho =>
      by_cases hk : c = i
      case neg => exact .inl ⟨st, br, (getElem?_after_ne hk).trans hs, hw⟩
      case pos =>
        subst hk
        exact ends (fun _ => rfl) (fun _ => (dropped_within (l := [])).kept List.not_mem_nil)
          (stake_of (getElem?_after hs))

theorem Linked.of_starts (h : b.Step e b') (starts : StartsBridge c p b e b') :
    Linked sent b' c p := by
  obtain ⟨place, st, provider, unsent, st', br, hs, rfl, hs'⟩ := starts
  cases h <;> cases place
  case turn k s s' r hds ws hi t =>
    cases hs.symm.trans hi
    cases (getElem?_after hs).symm.trans hs'
    cases t
    exact .inl ⟨st, _, hs', rfl⟩
  case abort s ho hi =>
    cases (getElem?_after hi).symm.trans hs'
  case spare ended =>
    cases ended _ hs

section

variable (run : (fresh config policy).run? es = some b)
include run

theorem linked_of_run (starts : (fresh config policy).Occurs es (StartsBridge c p)) :
    Linked (fun w => (fresh config policy).sent w es) b c p := by
  refine run_induction (P := fun es b => (fresh config policy).Occurs es (StartsBridge c p) →
    Linked (fun w => (fresh config policy).sent w es) b c p)
    (fun h => (not_occurs_nil h).elim) ?_ run starts
  intro es b e b' run hi hs starts
  have sound := Sound.of_run run
  have step := step_of_step? hs
  simp only [sent_snoc run]
  obtain starts | ⟨b'', hs'', starts⟩ := (occurs_snoc run).mp starts
  · exact (hi starts).step (.of_run run) sound step
  · cases hs.symm.trans hs''
    exact .of_starts step starts

theorem received_of_reaches (reach : b.Reaches b') (w : Nat) :
    (b.wires.get w).received <+: (b'.wires.get w).received := by
  refine (Sound.of_run run).stable
    (Q := fun b' => (b.wires.get w).received <+: (b'.wires.get w).received) ?_ reach List.prefix_rfl
  intro b₁ e b₂ sound h before
  refine before.trans ?_
  obtain ⟨k, s, s', r, hs, ws, rfl, hi, t, rfl⟩ | arrived :=
    Accounted.arrived_step (fun _ => []) h
  · exact (t.within (sound.wired.bridge_of hi)).right.grows w
  · exact (arrived w).received ▸ List.prefix_rfl

-- While a loop of a bridge runs, what its sink has not received yet is what it holds and what it can
-- still read.
theorem bridge_loses_nothing {i : Nat} {st : Stream} {br : Bridge} {unsent : Bytes}
    (hs : b.sessions[i]? = some ⟨st, .bridging br⟩) :
    (br.back.phase.unsent? = some unsent →
      (b.wires.get br.a.wire).received ++ unsent ++ br.b.content b.wires =
        Reply.connectedToService.bytes ++ ((fresh config policy).sent br.b.wire es).afterLine) ∧
    (br.forth.phase.unsent? = some unsent →
      (b.wires.get br.b.wire).received ++ unsent ++ br.a.content b.wires =
        Reply.serviceRegistered.bytes ++ ((fresh config policy).sent br.a.wire es).afterLine) := by
  have ⟨_, relays⟩ := (Accounted.of_run run).session hs
  exact ⟨relays.back.complete, relays.forth.complete⟩

end

-- In every state of a run in which a consumer gets to be bridged to a provider, each of the two far
-- ends has received, behind the reply that it was due, a prefix of what the other one has sent behind
-- its command. From the start of the bridge on the replies are complete.
theorem bridge_relays_payload
    (starts : (fresh config policy).Occurs (es ++ fs) (StartsBridge c p))
    (now : (fresh config policy).run? es = some b) :
    (b.wires.get c).received <+:
      Reply.connectedToService.bytes ++ ((fresh config policy).sent p es).afterLine ∧
    (b.wires.get p).received <+:
      Reply.serviceRegistered.bytes ++ ((fresh config policy).sent c es).afterLine ∧
    ((fresh config policy).Occurs es (StartsBridge c p) →
      (∃ n, Command.first? ((fresh config policy).sent c es) = some (.request n) ∧
        Command.first? ((fresh config policy).sent p es) = some (.register n)) ∧
      Reply.connectedToService.bytes <+: (b.wires.get c).received ∧
      Reply.serviceRegistered.bytes <+: (b.wires.get p).received) := by
  have started (starts : (fresh config policy).Occurs es (StartsBridge c p)) :
      ∃ n, Paired (fun w => (fresh config policy).sent w es) b.wires c p n :=
    (linked_of_run now starts).paired (.of_run now) (Sound.of_run now).wired
  have prefixes : (b.wires.get c).received <+:
      Reply.connectedToService.bytes ++ ((fresh config policy).sent p es).afterLine ∧
      (b.wires.get p).received <+:
        Reply.serviceRegistered.bytes ++ ((fresh config policy).sent c es).afterLine := by
    obtain starts | ⟨before, _, _, b₀, _, _, h₀, _, _, starts⟩ := starts.of_append now
    case inl =>
      have ⟨n, paired⟩ := started starts
      exact ⟨paired.toConsumer, paired.toProvider⟩
    case inr =>
      -- Before the bridge has started neither far end has received more than its reply.
      obtain ⟨st, provider, unsent, st', br, hs, rfl, _⟩ := starts
      have run₀ : (fresh config policy).run? (es ++ before) = some b₀ := by
        rw [run?_append, now]
        exact h₀
      have sound₀ := Sound.of_run run₀
      have ⟨n, _, hc, offered⟩ := (Accounted.of_run run₀).session hs
      rw [sound₀.wired.own hs] at hc
      have grows := received_of_reaches now ⟨before, h₀⟩
      constructor
      · exact ((grows c).trans ⟨unsent, hc⟩).trans (List.prefix_append ..)
      · exact (offered.received ▸ grows provider.wire).trans (List.prefix_append ..)
  refine ⟨prefixes.left, prefixes.right, fun starts => ?_⟩
  have ⟨n, paired⟩ := started starts
  exact ⟨⟨n, paired.request, paired.register⟩, paired.connected, paired.registered⟩

def greeting : List Event :=
  [.turn (.session 1), .turn (.copy 1 .bToA), .turn (.copy 1 .aToB), .turn (.copy 1 .bToA),
    .turn (.copy 1 .aToB)]

def greeter (wire : Nat) (greeting : String) : Stream := .unread { wire } (Bytes.ofText greeting)

theorem meeting_starts_bridge :
    (fresh {} Policy.allowAll).Occurs (meeting ++ greeting) (StartsBridge 1 0) := by
  have ⟨b, hb, before⟩ : ∃ b, (fresh {} Policy.allowAll).run? meeting = some b ∧
      b.sessions[1]? = some ⟨greeter 1 "hi", .connecting (greeter 0 "hello") []⟩ :=
    Option.map_eq_some_iff.mp (by decide +kernel)
  have ⟨b', hb', after⟩ :
      ∃ b', (fresh {} Policy.allowAll).run? (meeting ++ [.turn (.session 1)]) = some b' ∧
        b'.sessions[1]? = some ⟨greeter 1 "hi",
          .bridging (.new (greeter 1 "hi") (greeter 0 "hello") defaultBufferSize)⟩ :=
    Option.map_eq_some_iff.mp (by decide +kernel)
  exact ⟨meeting, .turn (.session 1), greeting.tail, b, b', rfl, hb, run?_snoc hb ▸ hb', rfl,
    _, _, _, _, _, before, rfl, after⟩

theorem bridge_relays_payload_greetings :
    ∃ b, (fresh {} Policy.allowAll).run? (meeting ++ greeting) = some b ∧
      (b.wires.get 1).received = Bytes.ofText "OK:Connected to service\nhello" ∧
      (b.wires.get 1).received <+: Reply.connectedToService.bytes ++
        ((fresh {} Policy.allowAll).sent 0 (meeting ++ greeting)).afterLine ∧
      (b.wires.get 0).received <+: Reply.serviceRegistered.bytes ++
        ((fresh {} Policy.allowAll).sent 1 (meeting ++ greeting)).afterLine := by
  have ⟨b, hb, received⟩ : ∃ b, (fresh {} Policy.allowAll).run? (meeting ++ greeting) = some b ∧
      (b.wires.get 1).received = Bytes.ofText "OK:Connected to service\nhello" :=
    Option.map_eq_some_iff.mp (by decide +kernel)
  have starts : (fresh {} Policy.allowAll).Occurs ((meeting ++ greeting) ++ []) (StartsBridge 1 0) :=
    meeting_starts_bridge.append
  have ⟨forth, back, _⟩ := bridge_relays_payload starts hb
  exact ⟨b, hb, received, forth, back⟩

end Broker
end Rendezvous
