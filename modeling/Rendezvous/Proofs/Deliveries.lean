import Rendezvous.Proofs.Answers
import Rendezvous.Proofs.Departures

namespace Rendezvous

def Reply.standing : List Reply :=
  [serviceRegistered, connectedToService, serviceNotFound, invalidProtocol, invalidServiceName,
    accessDenied]

theorem CommandError.reply_mem_standing (e : CommandError) : e.reply ∈ Reply.standing := by
  cases e <;> simp [Reply.standing, reply]

namespace Broker

variable {b b' : Broker} {e : Event} {es : List Event} {config : Config} {policy : Policy}
variable {c i p w : Nat} {st : Stream} {ph : Phase} {s s' : Session} {r : Registry} {hs : List Handle}
variable {ws : Connections} {br : Bridge} {sent sent' : Nat → Bytes} {k : Task} {x : Registration}

theorem Turn.unwritten (turn : b.Turn i st ph s' r hs ws)
    (hb : ∀ br, ph = .bridging br → br.a.wire = st.wire) (own : w ≠ st.wire)
    (guest : ∀ br, ph = .bridging br → br.b.wire ≠ w) :
    (ws.get w).received = (b.wires.get w).received := by
  by_cases hg : ph.guest? = some w
  case neg => rw [turn.elsewhere hb own hg]
  case pos =>
    cases turn <;> cases hg
    case tells send      => rw [(Stream.deliver_some send).choose_spec.right.elsewhere own]
    case bridges         => rfl
    case untold          => rw [Stream.abandon_wrote.received_eq, Stream.abandon_wrote.received_eq]
    case copies | parts  => exact absurd rfl (guest _ rfl)

def IsBridged (a : Broker) (es : List Event) (w : Nat) : Prop :=
  ∃ c p, a.Occurs es (StartsBridge c p) ∧ (w = c ∨ w = p)

theorem IsBridged.append {a : Broker} {fs : List Event} (h : a.IsBridged es w) :
    a.IsBridged (es ++ fs) w :=
  have ⟨c, p, starts, which⟩ := h
  ⟨c, p, starts.append, which⟩

theorem occurs_startsBridge (run : (fresh config policy).run? es = some b)
    (own : b.sessions[c]? = some ⟨st, .bridging br⟩) :
    (fresh config policy).Occurs es (StartsBridge c br.b.wire) := by
  refine run_induction (P := fun es b => ∀ st br, b.sessions[c]? = some ⟨st, .bridging br⟩ →
    (fresh config policy).Occurs es (StartsBridge c br.b.wire)) (fun _ _ own => by cases own) ?_
    run st br own
  intro es b e b' run hi next st br own
  have now := own
  cases (step_of_step? next).origin own
  case stays own => exact (hi _ _ own).append
  case turns k s₀ r hs ws event place own₀ turn =>
    subst event place
    obtain ⟨st₀, ph⟩ := s₀
    cases turn
    case bridges provider unsent send =>
      exact (occurs_snoc run).mpr <| .inr ⟨b', next, rfl, _, _, _, _, _, own₀, rfl, now⟩
    case copies turn =>
      rw [(Bridge.turn_copies turn).wires.right]
      exact (hi _ _ own₀).append

theorem occurs_handsOver_of_startsBridge
    (starts : (fresh config policy).Occurs es (StartsBridge c p)) :
    ∃ x, (fresh config policy).Occurs es (HandsOver p c x) := by
  obtain ⟨before, e, after, b, b', rfl, run, -, -, st, provider, unsent, -, -, own, rfl, -⟩ := starts
  have ⟨x, handed⟩ := occurs_handsOver run (stake_of own)
  exact ⟨x, handed.append⟩

-- What a far end has received is the beginning of a reply, and as long as that is a refusal its session
-- holds the rest.
def Answered (b : Broker) (w : Nat) : Prop :=
  ∃ reply ∈ Reply.standing, ∃ rest, (b.wires.get w).received ++ rest = reply.bytes ∧
    ∀ st unsent cause, b.sessions[w]? = some ⟨st, .refusing unsent cause⟩ → unsent = rest

theorem Answered.of_same (h : b.Answered w)
    (received : (b'.wires.get w).received = (b.wires.get w).received)
    (refuses : ∀ st unsent cause, b'.sessions[w]? = some ⟨st, .refusing unsent cause⟩ →
      b.sessions[w]? = some ⟨st, .refusing unsent cause⟩) : b'.Answered w := by
  have ⟨reply, standing, rest, whole, held⟩ := h
  exact ⟨reply, standing, rest, received ▸ whole, fun st unsent cause own =>
    held st unsent cause (refuses st unsent cause own)⟩

theorem Answered.received_prefix (h : b.Answered w) :
    ∃ reply ∈ Reply.standing, (b.wires.get w).received <+: reply.bytes :=
  have ⟨reply, standing, rest, whole, _⟩ := h
  ⟨reply, standing, rest, whole⟩

-- The far end of the session that takes a turn is told a reply, or a part of it.
theorem Turn.tells_reply (turn : b.Turn i st ph s' r hs ws) (own : b.sessions[i]? = some ⟨st, ph⟩)
    (wire : st.wire = i) (f : ph.Accounts sent b.handles b.wires st)
    (f' : s'.phase.Accounts sent' hs ws s'.stream) (wire' : s'.stream.wire = i)
    (answered : b.Answered i) (unbridged : ∀ br, s'.phase ≠ .bridging br) :
    (b.after i s' r hs ws).Answered i := by
  have own' : (b.after i s' r hs ws).sessions[i]? = some s' := getElem?_after own
  -- Who does not refuse holds nothing that a refusal would need.
  have tells (reply : Reply) {rest : Bytes} (standing : reply ∈ Reply.standing)
      (whole : (ws.get i).received ++ rest = reply.bytes)
      (goes : ∀ unsent cause, s'.phase = .refusing unsent cause → unsent = rest) :
      (b.after i s' r hs ws).Answered i := by
    refine ⟨reply, standing, rest, whole, fun st₁ unsent cause here => ?_⟩
    cases own'.symm.trans here
    exact goes _ _ rfl
  have speaks (reply : Reply) {rest : Bytes} (standing : reply ∈ Reply.standing)
      (whole : (ws.get i).received ++ rest = reply.bytes) (busy : s'.phase.stake ≠ .free) :
      (b.after i s' r hs ws).Answered i := by
    refine tells reply standing whole fun unsent cause hp => absurd ?_ busy
    rw [hp, Phase.stake]
  have frozen (silent : s'.phase.IsSilent) : (b.after i s' r hs ws).Answered i := by
    refine answered.of_same (turn.received_of_silent silent) fun st₁ unsent cause here => ?_
    cases own'.symm.trans here
    exact silent.elim
  have refuses {reply : Reply} {cause : Error} (standing : reply ∈ Reply.standing)
      (hp : s'.phase = .refusing reply.bytes cause) (nothing : (ws.get s'.stream.wire).received = []) :
      (b.after i s' r hs ws).Answered i := by
    have whole : (ws.get i).received ++ reply.bytes = reply.bytes := by
      rw [← wire', nothing, List.nil_append]
    refine tells _ standing whole fun unsent cause' hp' => ?_
    cases hp.symm.trans hp'
    rfl
  cases turn
  case mishears why   => exact refuses (by simp [Reply.standing]) rfl (why.received f)
  case misreads hears => exact refuses (CommandError.reply_mem_standing _) rfl (hears.received f)
  case denies hears   => exact refuses (by simp [Reply.standing]) rfl (hears.received f)
  case misses hears | seeks hears => exact refuses (by simp [Reply.standing]) rfl (hears.received f)
  case givesUp | despairs => exact refuses (by simp [Reply.standing]) rfl f.right
  case answers send =>
    obtain ⟨reply, standing, rest, whole, held⟩ := answered
    cases held _ _ _ own
    subst wire
    refine tells _ standing (received_deliver send whole) fun unsent cause hp => ?_
    cases hp
    rfl
  case bridges | copies => exact absurd rfl (unbridged _)
  case closes | answered | unheard | handsOver | offers | evicted | leaves | timesOut | overflowed |
      untold | parts => exact frozen trivial
  case reads =>
    exact speaks .serviceRegistered (by simp [Reply.standing])
      (wire' ▸ congrArg (· ++ _) f'.right.right) (by simp [Phase.stake])
  case claims =>
    exact speaks .serviceRegistered (by simp [Reply.standing])
      (wire' ▸ congrArg (· ++ _) f'.right) (by simp [Phase.stake])
  case registers | greets =>
    obtain ⟨_, _, _, whole⟩ := f'
    exact speaks .serviceRegistered (by simp [Reply.standing]) (wire' ▸ whole) (by simp [Phase.stake])
  case greeted | holds | overflows | listens =>
    obtain ⟨_, _, o⟩ := f'
    exact speaks .serviceRegistered (by simp [Reply.standing])
      (wire' ▸ (List.append_nil _).trans o.received) (by simp [Phase.stake])
  case picksUp | tells =>
    obtain ⟨_, _, whole, _⟩ := f'
    exact speaks .connectedToService (by simp [Reply.standing]) (wire' ▸ whole) (by simp [Phase.stake])

-- A far end has received one reply at the most, unless its connection is bridged.
theorem answered_or_bridged (run : (fresh config policy).run? es = some b) (w : Nat) :
    b.Answered w ∨ (fresh config policy).IsBridged es w := by
  refine run_induction (P := fun es b => b.Answered w ∨ (fresh config policy).IsBridged es w) ?_ ?_ run
  · exact .inl ⟨.serviceRegistered, by simp [Reply.standing], _, rfl, fun _ _ _ own => by cases own⟩
  intro es b e b' run hi next
  have run' := (run?_snoc run).trans next
  by_cases bridged : (fresh config policy).IsBridged (es ++ [e]) w
  case pos => exact .inr bridged
  case neg =>
    have answered := hi.resolve_right fun before => bridged before.append
    have sound := Sound.of_run run
    have sound' := Sound.of_run run'
    refine .inl ?_
    have step := step_of_step? next
    cases step_of_step? next
    case turn k s s' r hs ws own turn =>
      by_cases hk : w = k.place
      case pos =>
        subst hk
        have own' : (b.after k.place s' r hs ws).sessions[k.place]? = some s' := getElem?_after own
        refine turn.tells_reply own (sound.wired.own own) ((Accounted.of_run run).session own)
          ((Accounted.of_run run').session own') (sound'.wired.own own') answered fun br hp => ?_
        obtain ⟨st', _⟩ := s'
        subst hp
        exact bridged ⟨_, _, occurs_startsBridge run' own', .inl rfl⟩
      case neg =>
        refine answered.of_same ?_ fun _ _ _ here => (getElem?_after_ne hk).symm.trans here
        refine turn.unwritten (sound.wired.bridge_of own) (sound.wired.own own ▸ hk) fun br hp hw => ?_
        obtain ⟨st, _⟩ := s
        subst hp
        exact bridged (IsBridged.append ⟨_, _, occurs_startsBridge run own, .inr hw.symm⟩)
    case accept =>
      refine answered.of_same (step.received nofun) fun _ _ _ here => ?_
      obtain here | ⟨-, hs⟩ := of_getElem?_accept here
      · exact here
      · cases hs
    case abort =>
      refine answered.of_same (step.received nofun) fun _ _ _ here => ?_
      obtain ⟨-, hs⟩ | ⟨-, here⟩ := of_getElem?_after here
      · cases hs
      · exact here
    case change | spare | wait => exact answered.of_same (step.received nofun) fun _ _ _ => id

-- What a far end has received is the beginning of a reply, or it is paired with another far end and has
-- received what that one has sent.
theorem received_cases (run : (fresh config policy).run? es = some b) (w : Nat) :
    (∃ reply ∈ Reply.standing, (b.wires.get w).received <+: reply.bytes) ∨
      ∃ c p n, (w = c ∨ w = p) ∧ (fresh config policy).Occurs es (StartsBridge c p) ∧
        Paired (fun w => (fresh config policy).sent w es) b.wires c p n := by
  obtain answered | ⟨c, p, starts, which⟩ := answered_or_bridged run w
  · exact .inl answered.received_prefix
  · have ⟨n, paired⟩ := (linked_of_run run starts).paired (.of_run run) (Sound.of_run run).wired
    exact .inr ⟨c, p, n, which, starts, paired⟩

theorem not_startsBridge_of_registers (hp : (fresh config policy).Occurs es (Registers c x)) :
    ¬(fresh config policy).Occurs es (StartsBridge c p) := by
  intro starts
  have ⟨y, handed⟩ := occurs_handsOver_of_startsBridge starts
  have claims := (occurs_of_handsOver handed).right
  cases learns_once (claims.mono Claims.learns) (hp.mono Registers.learns)

theorem received_of_not_handsOver (run : (fresh config policy).run? es = some b)
    (hp : (fresh config policy).Occurs es (Registers p x))
    (kept : ∀ c y, ¬(fresh config policy).Occurs es (HandsOver p c y)) :
    (∃ reply ∈ Reply.standing, (b.wires.get p).received <+: reply.bytes) ∧
    ∀ w, (∃ reply ∈ Reply.standing, (b.wires.get w).received <+: reply.bytes) ∨
      ∃ c q n, c ≠ p ∧ q ≠ p ∧ (w = c ∨ w = q) ∧
        Paired (fun w => (fresh config policy).sent w es) b.wires c q n := by
  have elsewhere {c q} (starts : (fresh config policy).Occurs es (StartsBridge c q)) : c ≠ p ∧ q ≠ p := by
    refine ⟨fun he => not_startsBridge_of_registers hp (he ▸ starts), fun he => ?_⟩
    have ⟨y, handed⟩ := occurs_handsOver_of_startsBridge starts
    exact kept c y (he ▸ handed)
  refine ⟨?_, fun w => ?_⟩
  case refine_1 =>
    refine (received_cases run p).resolve_right ?_
    rintro ⟨c, q, n, which, starts, -⟩
    have ⟨hc, hq⟩ := elsewhere starts
    exact which.elim (fun he => hc he.symm) (fun he => hq he.symm)
  case refine_2 =>
    refine (received_cases run w).imp_right ?_
    rintro ⟨c, q, n, which, starts, paired⟩
    have ⟨hc, hq⟩ := elsewhere starts
    exact ⟨c, q, n, hc, hq, which, paired⟩

end Broker
end Rendezvous
