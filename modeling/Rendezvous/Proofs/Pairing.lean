import Rendezvous.Proofs.Encounters
import Rendezvous.Proofs.Ledger

namespace Rendezvous

def Phase.IsSilent : Phase → Prop
  | .closing _ _ | .ended _ => True
  | _ => False

section

variable {sent : Nat → Bytes} {hs : List Handle} {cs : Connections} {st : Stream} {p : Phase}
variable {bs rest : Bytes} {w : Nat}

theorem Reply.not_connected_of_registered (h : serviceRegistered.bytes <+: bs) :
    ¬connectedToService.bytes <+: bs :=
  have ⟨more, he⟩ := h
  he ▸ connected_not_prefix_registered more

theorem Reply.not_connected_of_registering (h : bs ++ rest = serviceRegistered.bytes) :
    ¬connectedToService.bytes <+: bs :=
  fun hc => not_connected_of_registered List.prefix_rfl (hc.trans ⟨rest, h⟩)

theorem Reply.not_connected_of_refusing {text : String} (h : bs ++ rest = (Reply.error text).bytes) :
    ¬connectedToService.bytes <+: bs :=
  fun hc => connected_not_prefix_error text [] <|
    (hc.trans ⟨rest, h⟩).trans (List.prefix_append ..)

-- While a session runs, its far end is told of a connection only if the session has been given one.
theorem Phase.Accounts.connected (f : p.Accounts sent hs cs st) (hp : ¬p.IsSilent)
    (h : Reply.connectedToService.bytes <+: (cs.get st.wire).received) :
    ∃ w, p.stake = .serves w := by
  cases p
  case identifying =>
    have hr := f.right.right
    exact absurd h <| Reply.not_connected_of_registering (hr ▸ List.nil_append _)
  case refusing => exact absurd h <| Reply.not_connected_of_refusing f.choose_spec
  case welcoming =>
    have ⟨_, _, _, hr⟩ := f
    exact absurd h <| Reply.not_connected_of_registering hr
  case idling | overflowing =>
    have ⟨_, _, o⟩ := f
    exact absurd h <| Reply.not_connected_of_registered (o.received ▸ List.prefix_rfl)
  case claiming =>
    have hr := f.right
    exact absurd h <| Reply.not_connected_of_registering (hr ▸ List.nil_append _)
  case connecting | bridging => exact ⟨_, rfl⟩
  case closing | ended       => exact absurd trivial hp

theorem Phase.Accounts.registered (f : p.Accounts sent hs cs st) (hg : p.guest? = some w) :
    Reply.serviceRegistered.bytes <+: (cs.get w).received := by
  cases p <;> cases hg
  case connecting =>
    have ⟨_, _, _, o⟩ := f
    exact o.received ▸ List.prefix_rfl
  case bridging =>
    have ⟨_, r⟩ := f
    exact r.forth.led

end

namespace Broker

variable {b b' : Broker} {e : Event} {es : List Event} {config : Config} {policy : Policy}
variable {i p p' c c' w : Nat} {x x' : Registration} {st : Stream} {ph : Phase} {s' : Session}
variable {r : Registry} {hs : List Handle} {ws : Connections} {sent : Nat → Bytes}

theorem Turn.received_of_silent (t : b.Turn i st ph s' r hs ws) (h : s'.phase.IsSilent) :
    (ws.get w).received = (b.wires.get w).received := by
  cases t <;> try cases h
  case closes close | overflowed close =>
    rw [Stream.abandon_wrote.received_eq]
    obtain hc | ⟨rfl, -⟩ := close
    · exact (Stream.close_done hc).received_eq w
    · rfl
  case leaves fill =>
    rw [Stream.abandon_wrote.received_eq]
    obtain hf | ⟨-, rfl, -⟩ := fill
    · exact (Stream.fill_done hf).received_eq w
    · rfl
  case unheard => exact Stream.abandon_wrote.received_eq w
  case untold  => rw [Stream.abandon_wrote.received_eq, Stream.abandon_wrote.received_eq]
  case parts   => exact (Bridge.abandon_within (l := [])).kept List.not_mem_nil |>.received
  all_goals rfl

theorem Turn.guest (t : b.Turn i st ph s' r hs ws) (h : ph.guest? = some w) :
    s'.phase.IsSilent ∨ s'.phase.guest? = some w := by
  cases t <;> cases h
  case tells | bridges => exact .inr rfl
  case copies turn     => exact .inr <| congrArg some (Bridge.turn_copies turn).wires.right
  case untold | parts  => exact .inl trivial

theorem Turn.connected (t : b.Turn i st ph s' r hs ws)
    (f : s'.phase.Accounts sent hs ws s'.stream) (hb : ∀ br, ph = .bridging br → br.a.wire = st.wire)
    (h : Reply.connectedToService.bytes <+: (ws.get w).received) :
    Reply.connectedToService.bytes <+: (b.wires.get w).received ∨
      w = st.wire ∧ ∃ p, s'.phase.stake = .serves p := by
  have ⟨own, within⟩ := t.within hb
  by_cases silent : s'.phase.IsSilent
  case pos => exact .inl <| t.received_of_silent silent ▸ h
  case neg =>
    by_cases hw : w ∈ st.wire :: ph.guest?.toList
    case neg => exact .inl <| (within.kept hw).received ▸ h
    case pos =>
      simp only [List.mem_cons, Option.mem_toList] at hw
      obtain rfl | hg := hw
      · exact .inr ⟨rfl, f.connected silent (own ▸ h)⟩
      · have hg := (t.guest hg).resolve_left silent
        exact absurd h <| Reply.not_connected_of_registered (f.registered hg)

theorem occurs_handsOver_of_connected (run : (fresh config policy).run? es = some b)
    (h : Reply.connectedToService.bytes <+: (b.wires.get c).received) :
    ∃ p x, (fresh config policy).Occurs es (HandsOver p c x) := by
  refine run_induction (P := fun es b => Reply.connectedToService.bytes <+: (b.wires.get c).received →
    ∃ p x, (fresh config policy).Occurs es (HandsOver p c x)) (fun h => ?_) ?_ run h
  case refine_1 =>
    exact absurd h <| Reply.not_connected_of_registering (List.nil_append _)
  intro es b e b' run hi hs h
  have old (h : Reply.connectedToService.bytes <+: (b.wires.get c).received) :
      ∃ p x, (fresh config policy).Occurs (es ++ [e]) (HandsOver p c x) :=
    have ⟨p, x, ho⟩ := hi h
    ⟨p, x, ho.append⟩
  have run' := (run?_snoc run).trans hs
  have wired := (Sound.of_run run).wired
  obtain ⟨k, s, s', r, hds, ws, rfl, hk, t, rfl⟩ | arrived :=
    Accounted.arrived_step (fun _ => []) (step_of_step? hs)
  · have f := (Accounted.of_run run').session (getElem?_after hk)
    obtain h | ⟨rfl, p, hp⟩ := t.connected f (wired.bridge_of hk) h
    · exact old h
    · have stake : (b.after k.place s' r hds ws).stake k.place = some (.serves p) :=
        hp ▸ stake_of (getElem?_after hk)
      have ⟨x, ho⟩ := occurs_handsOver run' stake
      exact ⟨p, x, wired.own hk ▸ ho⟩
  · exact old <| (arrived c).received ▸ h

theorem first?_of_handsOver (h : (fresh config policy).Occurs es (HandsOver p c x)) :
    Command.first? ((fresh config policy).sent p es) = some (.register x.name) ∧
      Command.first? ((fresh config policy).sent c es) = some (.request x.name) := by
  obtain ⟨before, e, after, b, b', rfl, run, -, -, hc, st, m, t, -, hp, -⟩ := h
  have sound := Sound.of_run run
  have account := Accounted.of_run run
  rw [sent_append run, sent_append run]
  constructor
  case left =>
    have ⟨hd, hh, offered⟩ := account.session hp
    have ⟨hd', hh', hn, _⟩ := sound.tended.claimed hc
    cases hh.symm.trans hh'
    have first := offered.intact.first
    rw [sound.wired.own hp, hn] at first
    exact Command.first?_append first
  case right =>
    have ⟨⟨st', ph⟩, hs, hq⟩ := stake_eq_some.mp hc
    cases ph <;> cases hq
    have first := (account.session hs).left.first
    rw [sound.wired.own hs] at first
    exact Command.first?_append first

-- Hand-overs pair providers and consumers off, one for each registration: the provider is the one who
-- registered it, and the consumer the only one who has claimed it; both have named the service. A
-- session that has got another one's connection, and one whose far end has been told so, are the
-- consumers of a hand-over.
theorem hand_overs_pair_off (run : (fresh config policy).run? es = some b) :
    (∀ p c x, (fresh config policy).Occurs es (HandsOver p c x) →
      (fresh config policy).Occurs es (Registers p x) ∧
      (fresh config policy).Occurs es (Claims c x) ∧
      (∀ c', (fresh config policy).Occurs es (Claims c' x) → c' = c) ∧
      Command.first? ((fresh config policy).sent p es) = some (.register x.name) ∧
      Command.first? ((fresh config policy).sent c es) = some (.request x.name)) ∧
    (∀ p c x p' c' x', (fresh config policy).Occurs es (HandsOver p c x) →
      (fresh config policy).Occurs es (HandsOver p' c' x') →
      p = p' ∨ c = c' ∨ x.handle = x'.handle → p = p' ∧ c = c' ∧ x = x') ∧
    (∀ c w, b.stake c = some (.serves w) →
      ∃ x, (fresh config policy).Occurs es (HandsOver w c x)) ∧
    ∀ c, Reply.connectedToService.bytes <+: (b.wires.get c).received →
      ∃ p x, (fresh config policy).Occurs es (HandsOver p c x) := by
  refine ⟨fun p c x h => ?_, fun p c x p' c' x' h h' same => ?_, fun c w hc => occurs_handsOver run hc,
    fun c hc => occurs_handsOver_of_connected run hc⟩
  case refine_1 =>
    have ⟨registers, claims⟩ := occurs_of_handsOver h
    exact ⟨registers, claims, fun c' hc => claims_alone hc claims rfl, first?_of_handsOver h⟩
  case refine_2 =>
    obtain rfl | rfl | hx := same
    · have ⟨hc, hx⟩ := handsOver_of_provider h h'
      exact ⟨rfl, hc, hx⟩
    · have ⟨hp, hx⟩ := handsOver_of_consumer h h'
      exact ⟨hp, rfl, hx⟩
    · obtain ⟨rfl, hc⟩ := handsOver_of_registration h h' hx
      exact ⟨rfl, hc, (handsOver_of_provider h h').right⟩

def meeting : List Event :=
  [.accept {} {}, .accept {} {}, .change 0 (.send (Bytes.ofText "REGISTER:cam1\nhello")),
    .turn (.session 0), .turn (.session 0), .turn (.session 0),
    .change 1 (.send (Bytes.ofText "REQUEST:cam1\nhi")), .turn (.session 1), .turn (.session 0),
    .turn (.session 1), .turn (.session 1)]

theorem hand_overs_pair_off_meeting :
    ∃ b, (fresh {} Policy.allowAll).run? meeting = some b ∧
      Reply.connectedToService.bytes <+: (b.wires.get 1).received ∧
      ∃ p x, (fresh {} Policy.allowAll).Occurs meeting (HandsOver p 1 x) ∧
        (fresh {} Policy.allowAll).Occurs meeting (Registers p x) ∧
        (fresh {} Policy.allowAll).Occurs meeting (Claims 1 x) := by
  have ⟨b, hb, received⟩ : ∃ b, (fresh {} Policy.allowAll).run? meeting = some b ∧
      (b.wires.get 1).received = Reply.connectedToService.bytes :=
    Option.map_eq_some_iff.mp (by decide +kernel)
  have connected : Reply.connectedToService.bytes <+: (b.wires.get 1).received :=
    received ▸ List.prefix_rfl
  have ⟨who, _, _, told⟩ := hand_overs_pair_off hb
  have ⟨p, x, ho⟩ := told 1 connected
  have ⟨registers, claims, _⟩ := who p 1 x ho
  exact ⟨b, hb, connected, p, x, ho, registers, claims⟩

end Broker
end Rendezvous
