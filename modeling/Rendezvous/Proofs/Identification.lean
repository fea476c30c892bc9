import Rendezvous.Proofs.Encounters
import Rendezvous.Proofs.Refusals
import Rendezvous.Proofs.Verdicts

namespace Rendezvous.Broker

variable {a b b' b₀ b₁ d : Broker} {e : Event} {es fs gs : List Event} {i : Nat} {peer : Peer}
variable {st : Stream} {rd : LineReader} {t deadline : Instant} {cause : Error} {c : Command}
variable {config : Config} {policy : Policy} {wire : Connection} {reply : Reply} {q q' : Stake}
variable {r : Registry} {hs : List Handle} {bs : Bytes}

-- A session calls the registry, or changes it or a handle in whatever way.
def Touches (i : Nat) : Happening := fun b e b' =>
  (∃ c, Calls i c b e b') ∨ e.place? = some i ∧ (b'.registry ≠ b.registry ∨ b'.handles ≠ b.handles)

theorem Calls.place (calls : Calls i c b e b') : e.place? = some i := by
  cases c <;> exact calls.left

theorem Calls.new (calls : Calls i c b e b') : b.stake i = some .new := by
  cases c <;> exact calls.right.left

theorem Calls.told (calls : Calls i c b e b') : ∃ q, b'.stake i = some q ∧ q ≠ .new ∧ q ≠ .ended := by
  cases c
  case register =>
    have ⟨_, _, _, holds, _⟩ := calls
    exact ⟨_, holds, nofun, nofun⟩
  case request =>
    obtain ⟨-, -, -, ⟨_, holds⟩ | ⟨_, _, own⟩⟩ := calls
    · exact ⟨_, holds, nofun, nofun⟩
    · exact ⟨_, stake_of own, nofun, nofun⟩

theorem Fails.free (fails : Fails i cause b e b') : b'.stake i = some .free :=
  have ⟨_, _, ⟨_, _, own⟩, _⟩ := fails
  stake_of own

theorem Fails.not_calls (fails : Fails i cause b e b') : ¬Calls i c b e b' := by
  have ⟨_, _, ⟨st, unsent, own⟩, ne⟩ := fails
  intro calls
  cases c
  case register =>
    have ⟨_, _, _, holds, _⟩ := calls
    cases (stake_of own).symm.trans holds
  case request n =>
    obtain ⟨-, -, -, ⟨_, holds⟩ | ⟨_, _, own'⟩⟩ := calls
    · cases (stake_of own).symm.trans holds
    · cases own.symm.trans own'
      exact ne n rfl

-- A session without its command takes the next turn in reading its control line, or is dropped, and
-- nothing that it shares is touched.
theorem reads_or_dropped (h : b.Step e b') (place : e.place? = some i) (new : b.stake i = some .new) :
    (∃ st rd t s r hs ws, b.sessions[i]? = some ⟨st, .identifying rd t⟩ ∧
      b.Turn i st (.identifying rd t) s r hs ws ∧ b' = b.after i s r hs ws) ∨
    (b'.registry = b.registry ∧ b'.handles = b.handles) ∧ e = .abort i ∧ b'.stake i = some .ended := by
  have ⟨⟨st, p⟩, own, hp⟩ := stake_eq_some.mp new
  cases p <;> cases hp
  cases h
  case turn own' t =>
    cases place
    cases own.symm.trans own'
    exact .inl ⟨_, _, _, _, _, _, _, own, t, rfl⟩
  case abort own' _ =>
    cases place
    cases own.symm.trans own'
    exact .inr ⟨⟨rfl, rfl⟩, rfl, stake_of (getElem?_after own)⟩
  case spare ended =>
    cases place
    cases ended _ own
  all_goals cases place

theorem Touches.calls (touches : Touches i b e b') (h : b.Step e b') (new : b.stake i = some .new) :
    ∃ c, Calls i c b e b' := by
  obtain calls | ⟨place, changed⟩ := touches
  case inl => exact calls
  case inr =>
    have apart (same : b'.registry = b.registry ∧ b'.handles = b.handles) : False :=
      changed.elim (· same.left) (· same.right)
    obtain ⟨st, rd, t, s, r, hs, ws, own, turn, rfl⟩ | ⟨same, -⟩ := reads_or_dropped h place new
    · exact (turn.judged own place).resolve_left fun ⟨same, _⟩ => apart same
    · exact (apart same).elim

theorem Fails.not_touches (fails : Fails i cause b e b') (h : b.Step e b') : ¬Touches i b e b' :=
  fun touches =>
    have ⟨_, calls⟩ := touches.calls h fails.right.left
    fails.not_calls calls

def Spent (i : Nat) (b : Broker) : Prop := b.stake i = some .free ∨ b.stake i = some .ended

theorem Move.spent (m : b.Move i e q q' r hs) (hq : q = .free ∨ q = .ended) :
    (q' = .free ∨ q' = .ended) ∧ r = b.registry ∧ hs = b.handles := by
  cases m
  case stays => exact ⟨hq, rfl, rfl⟩
  case ends  => exact ⟨.inr rfl, rfl, rfl⟩
  all_goals obtain hq | hq := hq <;> cases hq

theorem Spent.step (h : b.Shift e b') (spent : Spent i b) : Spent i b' ∧ ¬Touches i b e b' := by
  have silent (same : e.place? = some i → b'.registry = b.registry ∧ b'.handles = b.handles) :
      ¬Touches i b e b' := by
    rintro (⟨_, calls⟩ | ⟨place, changed⟩)
    · obtain spent | spent := spent <;> cases calls.new.symm.trans spent
    · exact changed.elim (· (same place).left) (· (same place).right)
  cases h
  case rests registry handles kept fresh =>
    exact ⟨spent.imp kept kept, silent fun _ => ⟨registry, handles⟩⟩
  case moves j q q' place before move after others =>
    by_cases hj : i = j
    case neg =>
      exact ⟨spent.imp (others hj).trans (others hj).trans,
        silent fun he => absurd (Option.some.inj (he.symm.trans place)) hj⟩
    case pos =>
      subst hj
      have hq : q = .free ∨ q = .ended := spent.imp
        (fun hs => Option.some.inj (before.symm.trans hs)) fun hs => Option.some.inj (before.symm.trans hs)
      have ⟨hq', same⟩ := move.spent hq
      exact ⟨hq'.imp (fun hq => after.trans (congrArg some hq)) fun hq => after.trans (congrArg some hq),
        silent fun _ => same⟩

theorem Spent.not_occurs (sound : b.Sound) (spent : Spent i b) : ¬b.Occurs gs (Touches i) := by
  rintro ⟨_, e, _, c, c', -, run, next, touches⟩
  have reach : b.Reaches c := .of_run run
  have spent : Spent i c := sound.stable (fun s h hs => (hs.step (h.shift s.wired)).left) reach spent
  have sound : c.Sound := sound.stable (fun s h _ => s.step h) reach sound
  exact (spent.step ((step_of_step? next).shift sound.wired)).right touches

-- What is known of a session as long as it reads its control line: its far end, its deadline, and that
-- the line has not become too long.
structure Expects (b : Broker) (i : Nat) (peer : Peer) (deadline : Instant) : Prop where
  there : ∃ s, b.sessions[i]? = some s
  reads : ∀ {st rd t}, b.sessions[i]? = some ⟨st, .identifying rd t⟩ →
    st.peer = peer ∧ t = deadline ∧ rd.size ≤ b.config.maxLineLength

namespace Expects

theorem step (x : b.Expects i peer deadline) (h : b.Step e b') : b'.Expects i peer deadline := by
  have ⟨s, there⟩ := x.there
  by_cases place : e.place? = some i
  case neg =>
    have same := h.same (List.getElem?_eq_some_iff.mp there).choose place
    exact ⟨⟨s, same.trans there⟩, fun own => h.settings.left ▸ x.reads (same ▸ own)⟩
  case pos =>
    cases h
    case turn s _ _ _ _ own t =>
      cases place
      refine ⟨⟨_, getElem?_after own⟩, fun own' => ?_⟩
      cases Option.some.inj <| (getElem?_after own).symm.trans own'
      obtain ⟨st, p⟩ := s
      obtain ⟨peer, rd, rfl, fits⟩ := t.reads_on
      have ⟨peer', due, size⟩ := x.reads own
      exact ⟨peer.trans peer', due, fits size⟩
    case abort own _ =>
      cases place
      refine ⟨⟨_, getElem?_after own⟩, fun own' => ?_⟩
      cases (getElem?_after own).symm.trans own'
    case spare => exact x
    all_goals cases place

theorem start (h : b.step? (.accept wire peer) = some b') :
    b'.Expects b.sessions.length peer (b.clock + b.config.identificationTimeout.nanos) := by
  simp only [step?] at h
  split at h <;> cases h
  have own : (b.accept wire peer).sessions[b.sessions.length]? =
      some ⟨{ wire := b.wires.length, peer },
        .identifying {} (b.clock + b.config.identificationTimeout.nanos)⟩ := by
    simp [accept]
  refine ⟨⟨_, own⟩, fun own' => ?_⟩
  cases own.symm.trans own'
  exact ⟨rfl, rfl, Nat.zero_le _⟩

theorem of_run (start : b₀.step? (.accept wire peer) = some b₁) (here : b₁.run? fs = some b) :
    b.Expects b₀.sessions.length peer (b₀.clock + b₀.config.identificationTimeout.nanos) :=
  (Reaches.of_run here).stable
    (Q := fun b => b.Expects b₀.sessions.length peer (b₀.clock + b₀.config.identificationTimeout.nanos))
    (fun hs x => x.step (step_of_step? hs)) (.start start)

theorem reads_of_new (x : b.Expects i peer deadline) (new : b.stake i = some .new) :
    ∃ st rd, b.sessions[i]? = some ⟨st, .identifying rd deadline⟩ ∧ st.peer = peer ∧
      rd.size ≤ b.config.maxLineLength := by
  have ⟨⟨st, p⟩, own, hp⟩ := stake_eq_some.mp new
  cases p <;> cases hp
  obtain ⟨peer, rfl, fits⟩ := x.reads own
  exact ⟨st, _, own, peer, fits⟩

end Expects

-- How far a session has come with its control line.
inductive Course (a : Broker) (es : List Event) (b : Broker) (i : Nat) : Prop
  | reads (new : b.stake i = some .new)
  | refused (spent : Spent i b) (fails : ∃ cause, a.Occurs es (Fails i cause))
  | dropped (spent : Spent i b) (abort : .abort i ∈ es)
  | called (calls : a.Occurs es fun b e b' => ∃ c, Calls i c b e b')

namespace Course

theorem step (x : b.Expects i peer deadline) (sound : b.Sound) (run : a.run? es = some b)
    (h : b.step? e = some b') (course : Course a es b i) : Course a (es ++ [e]) b' i := by
  have step := step_of_step? h
  have spends (spent : Spent i b) : Spent i b' := (spent.step (step.shift sound.wired)).left
  cases course
  case refused spent fails =>
    have ⟨cause, fails⟩ := fails
    exact .refused (spends spent) ⟨cause, fails.append⟩
  case dropped spent abort => exact .dropped (spends spent) (List.mem_append_left _ abort)
  case called calls        => exact .called calls.append
  case reads new =>
    by_cases place : e.place? = some i
    case neg =>
      have ⟨s, there⟩ := x.there
      have same := step.same (List.getElem?_eq_some_iff.mp there).choose place
      exact .reads ((congrArg (Option.map _) same).trans new)
    case pos =>
      obtain ⟨st, rd, t, s, r, hs, ws, own, turn, rfl⟩ | ⟨-, rfl, ended⟩ :=
        reads_or_dropped step place new
      case inr => exact .dropped (.inr ended) (by simp)
      case inl =>
        obtain ⟨-, ⟨_, _, rfl⟩ | ⟨cause, fails⟩⟩ | calls := turn.judged own place
        · exact .reads (stake_of (getElem?_after own))
        · exact .refused (.inl fails.free) ⟨cause, (occurs_snoc run).mpr (.inr ⟨_, h, fails⟩)⟩
        · exact .called ((occurs_snoc run).mpr (.inr ⟨_, h, calls⟩))

theorem of_run (sound : b₁.Sound) (start : b₀.step? (.accept wire peer) = some b₁)
    (here : b₁.run? fs = some b) : Course b₁ fs b b₀.sessions.length := by
  refine run_induction (P := fun fs b => Course b₁ fs b b₀.sessions.length) (.reads ?_) ?_ here
  case refine_1 =>
    simp only [step?] at start
    split at start <;> cases start
    simp [stake, accept, Phase.stake]
  case refine_2 =>
    intro gs b₂ f b₃ run course next
    exact course.step (.of_run start run) (sound.stable (fun s h _ => s.step h) (.of_run run) sound) run next

end Course

section

variable (start : b₀.step? (.accept wire peer) = some b₁) (sound : b₁.Sound)
variable (here : b₁.run? fs = some b) (place : b₀.sessions.length = i)
include start sound here place

theorem untouched_of_new (new : b.stake i = some .new) : ¬b₁.Occurs fs (Touches i) := by
  rintro ⟨gs, e, hs, c, c', rfl, run, next, touches⟩
  have step := step_of_step? next
  have soundly : c.Sound := sound.stable (fun s h _ => s.step h) (.of_run run) sound
  have told : Told i c' := by
    have ⟨s, there⟩ := place ▸ (Expects.of_run start run).there
    by_cases hq : s.phase.stake = .new
    case neg => exact Told.step soundly step ⟨_, stake_of there, hq⟩
    case pos =>
      have ⟨_, calls⟩ := touches.calls step ((stake_of there).trans (congrArg some hq))
      have ⟨q, hq, hn, _⟩ := calls.told
      exact ⟨q, hq, hn⟩
  have reach : c'.Reaches b := ⟨hs, by simpa [run?_append, run, next] using here⟩
  have ⟨q, hq, hn⟩ : Told i b := (soundly.step step).stable (fun s h t => t.step s h) reach told
  exact hn <| Option.some.inj <| hq.symm.trans new

theorem calls_of_touches (next : b.step? e = some b') (touches : Touches i b e b') :
    b₁.Occurs (fs ++ [e]) fun b e b' => ∃ c, Calls i c b e b' := by
  have step := step_of_step? next
  have soundly : b.Sound := sound.stable (fun s h _ => s.step h) (.of_run here) sound
  cases place ▸ Course.of_run sound start here
  case reads new =>
    exact (occurs_snoc here).mpr (.inr ⟨_, next, touches.calls step new⟩)
  case called calls => exact calls.append
  case refused spent _ | dropped spent _ =>
    exact absurd touches (spent.step (step.shift soundly.wired)).right

-- A session that gives up on its far end never touches what it shares.
theorem untouched_of_fails (next : b.step? e = some b')
    (fails : Fails i cause b e b') : ¬b₁.Occurs (fs ++ e :: gs) (Touches i) := by
  have step := step_of_step? next
  have soundly : b'.Sound := (sound.stable (fun s h _ => s.step h) (.of_run here) sound).step step
  rw [List.append_cons]
  intro touches
  obtain before | later := touches.of_append ((run?_snoc here).trans next)
  case inr => exact Spent.not_occurs soundly (.inl fails.free) later
  case inl =>
    obtain before | ⟨_, next', now⟩ := (occurs_snoc here).mp before
    · exact untouched_of_new start sound here place fails.right.left before
    · cases next.symm.trans next'
      exact fails.not_touches step now

end

section

variable (before : (fresh config policy).run? es = some b₀)
variable (start : b₀.step? (.accept wire peer) = some b₁) (here : b₁.run? fs = some b)
include before start here

theorem run_of_accept : (fresh config policy).run? (es ++ .accept wire peer :: fs) = some b := by
  rw [run?_append, before]
  exact (congrArg (Option.bind · _) start).trans here

omit start here in
theorem sent_of_accept (place : b₀.sessions.length = i) :
    (fresh config policy).sent i (es ++ .accept wire peer :: fs) =
      b₀.sent i (.accept wire peer :: fs) := by
  rw [sent_append before, (Accounted.of_run before).unmade, List.nil_append]
  exact ((Sound.of_run before).wired.length.trans place).le

variable (place : b₀.sessions.length = i)
variable (due : b₀.clock + config.identificationTimeout.nanos = deadline)
variable (sends : b₀.sent i (.accept wire peer :: fs) = bs)
include place due sends

theorem reading_of_new (new : b.stake i = some .new) :
    ∃ st rd, ∃ sent : Nat → Bytes, b.sessions[i]? = some ⟨st, .identifying rd deadline⟩ ∧
      st.peer = peer ∧ st.wire = i ∧ rd.size ≤ b.config.maxLineLength ∧
      sent st.wire = bs ∧ (Phase.identifying rd deadline).Accounts sent b.handles b.wires st := by
  have run := run_of_accept before start here
  have expects : b.Expects i peer deadline := by
    have expects := Expects.of_run start here
    rwa [place, (settings_of_run before).left, due] at expects
  have ⟨st, rd, own, hp, fits⟩ := expects.reads_of_new new
  have wire := (Sound.of_run run).wired.own own
  refine ⟨st, rd, _, own, hp, wire, fits, ?_, (Accounted.of_run run).session own⟩
  exact wire ▸ (sent_of_accept before place).trans sends

theorem undecided_of_new (new : b.stake i = some .new) (rests : b.turn (.session i) = none) :
    Undecided config deadline b.clock (b.wires.get i) bs := by
  have ⟨st, rd, sent, own, _, wire, fits, sends, f⟩ := reading_of_new before start here place due sends new
  have undecided := undecided_of_rests f fits own rests
  rwa [sends, wire, (settings_of_run (run_of_accept before start here)).left] at undecided

theorem allowed_of_calls (next : b.step? e = some b') (calls : Calls i c b e b') :
    ∃ text, Says config.maxLineLength bs text ∧
      Command.ofLine text = .ok c ∧ policy i (c.asks peer) = none := by
  have ⟨hc, hp⟩ := settings_of_run (run_of_accept before start here)
  have ⟨st, rd, sent, own, peer, wire, fits, sends, f⟩ :=
    reading_of_new before start here place due sends calls.new
  obtain ⟨_, _, _, s, r, hs, ws, own', turn, rfl⟩ | ⟨-, rfl, ended⟩ :=
    reads_or_dropped (step_of_step? next) calls.place calls.new
  case inl =>
    cases own.symm.trans own'
    have allowed := turn.allowed own f fits calls
    rwa [hc, hp, peer, sends] at allowed
  case inr =>
    have ⟨_, told, _, runs⟩ := calls.told
    exact absurd (Option.some.inj (told.symm.trans ended)) runs

-- A session that gives up on its far end has grounds to, and starts to tell it.
theorem refused_of_fails (next : b.step? e = some b') (fails : Fails i cause b e b')
    (answers : Answerable i b) :
    ∃ reply, Unfit config (policy i) peer deadline b.clock (b.wires.get i) bs reply cause ∧
      b'.Refused i reply cause := by
  have ⟨hc, hp⟩ := settings_of_run (run_of_accept before start here)
  have ⟨place', new, _, _⟩ := fails
  have ⟨st, rd, sent, own, peer, wire, fits, sends, f⟩ := reading_of_new before start here place due sends new
  obtain ⟨_, _, _, s, r, hs, ws, own', turn, rfl⟩ | ⟨-, rfl, ended⟩ :=
    reads_or_dropped (step_of_step? next) place' new
  case inl =>
    cases own.symm.trans own'
    have moves := (answers _ own trivial).moves
    have ⟨reply, refusing, received, unfit⟩ := turn.unfit own f fits (wire ▸ moves) fails
    have own' : (b.after i s r hs ws).sessions[i]? = some s := getElem?_after own
    have wire' : s.stream.wire = i :=
      (Sound.of_run (run_of_accept before start ((run?_snoc here).trans next))).wired.own own'
    obtain ⟨st', p⟩ := s
    subst refusing
    rw [wire'] at received
    refine ⟨reply, ?_, .tells own' (congrArg (· ++ _) received)⟩
    rwa [hc, hp, peer, sends, wire] at unfit
  case inr => cases fails.free.symm.trans ended

end

-- As long as it has no command, a session is in time.
theorem in_time_of_new (before : (fresh config policy).run? es = some b₀)
    (start : b₀.step? (.accept wire peer) = some b₁) (here : b₁.run? fs = some b)
    (place : b₀.sessions.length = i) (due : b₀.clock + config.identificationTimeout.nanos = deadline)
    (new : b.stake i = some .new) (prompt : ¬b₁.Occurs fs (Oversleeps (.session i))) :
    b.clock ≤ deadline := by
  refine run_induction (P := fun fs b => ¬b₁.Occurs fs (Oversleeps (.session i)) →
    b.stake i = some .new → b.clock ≤ deadline) ?_ ?_ here prompt new
  case refine_1 =>
    intro _ _
    have clock : b₁.clock = b₀.clock := by
      simp only [step?] at start
      split at start <;> cases start
      rfl
    exact clock ▸ due ▸ Nat.le_add_right ..
  case refine_2 =>
    intro gs b₂ f b₃ run hi next prompt new'
    have step := step_of_step? next
    have sound := Sound.of_run (run_of_accept before start run)
    obtain ⟨s, there⟩ := place ▸ (Expects.of_run start run).there
    have new : b₂.stake i = some .new := by
      refine Classical.byContradiction fun hn => ?_
      have known : Told i b₂ :=
        ⟨_, stake_of there, fun hs => hn <| (stake_of there).trans (congrArg some hs)⟩
      obtain ⟨q, hq, told⟩ := Told.step sound step known
      exact told <| Option.some.inj <| hq.symm.trans new'
    obtain ⟨st, rd, _, own, _⟩ := reading_of_new before start run place due rfl new
    rw [occurs_snoc run, not_or] at prompt
    refine in_time_of_deadline step (fun sleeps => prompt.right ⟨_, next, sleeps⟩) own rfl
      (hi prompt.left new) fun late rests => ?_
    exact Nat.not_lt_of_le late (undecided_of_new before start run place due rfl new rests).early

-- The identification of a session. As long as nothing that its far end has sent decides, it waits, for no
-- longer than up to its deadline. Then it calls, or it gives up. It calls for the command that the far end
-- has sent and that the policy allows for just this name and role, and touches what the sessions share
-- only after that. It gives up on a far end that is unfit, which gets the one reply that it is due and
-- then the end of the stream, and never touches what the sessions share.
theorem identification_gates_registry
    (before : (fresh config policy).run? es = some b₀)
    (start : b₀.step? (.accept wire peer) = some b₁) (here : b₁.run? fs = some b)
    (next : b.step? e = some b') (after : b'.run? gs = some d)
    (place : b₀.sessions.length = i) (due : b₀.clock + config.identificationTimeout.nanos = deadline)
    (sends : b₀.sent i (.accept wire peer :: fs) = bs) :
    (b.stake i = some .new →
      (b.turn (.session i) = none → Undecided config deadline b.clock (b.wires.get i) bs) ∧
      (¬b₁.Occurs fs (Oversleeps (.session i)) → b.clock ≤ deadline)) ∧
    (.abort i ∉ fs → b.stake i = some .new ∨ (∃ cause, b₁.Occurs fs (Fails i cause)) ∨
      b₁.Occurs fs fun b e b' => ∃ c, Calls i c b e b') ∧
    (∀ c, Calls i c b e b' → ∃ text, Says config.maxLineLength bs text ∧ Command.ofLine text = .ok c ∧
      policy i (c.asks peer) = none) ∧
    (Touches i b e b' → b₁.Occurs (fs ++ [e]) fun b e b' => ∃ c, Calls i c b e b') ∧
    ∀ cause, Fails i cause b e b' → ¬b₁.Occurs (fs ++ e :: gs) (Touches i) ∧
      (Answerable i b → ∃ reply, Unfit config (policy i) peer deadline b.clock (b.wires.get i) bs reply cause ∧
        (.abort i ∉ gs → b'.Throughout (Answerable i) gs →
          (d.wires.get i).received <+: reply.bytes ∧
          (d.turn (.session i) = none ∨ b'.clock < d.clock ∧ ¬b'.Occurs gs (Oversleeps (.session i)) →
            d.Dismissed i reply cause))) := by
  have sound := Sound.of_run (run_of_accept before start (run?_nil b₁))
  refine ⟨fun new => ⟨?_, ?_⟩, fun stays => ?_, fun c calls => ?_, fun touches => ?_,
    fun cause fails => ⟨?_, fun answers => ?_⟩⟩
  · exact undecided_of_new before start here place due sends new
  · exact in_time_of_new before start here place due new
  · cases place ▸ Course.of_run sound start here
    case reads new       => exact .inl new
    case refused _ fails => exact .inr <| .inl fails
    case dropped _ abort => exact absurd abort stays
    case called calls    => exact .inr <| .inr calls
  · exact allowed_of_calls before start here place due sends next calls
  · exact calls_of_touches start sound here place next touches
  · exact untouched_of_fails start sound here place next fails
  · have ⟨reply, unfit, refused⟩ := refused_of_fails before start here place due sends next fails answers
    have now := run_of_accept before start ((run?_snoc here).trans next)
    exact ⟨reply, unfit, fun stays accepts =>
      ⟨(refused.of_run now after stays accepts).left.received_prefix,
        refused.dismissed_of_run now after stays accepts⟩⟩

example : Reply.invalidProtocol.bytes = Bytes.ofText "ERROR:Invalid protocol\n" := by decide +kernel

example : Reply.invalidServiceName.bytes = Bytes.ofText "ERROR:Invalid service name\n" := by
  decide +kernel

example : Reply.accessDenied.bytes = Bytes.ofText "ERROR:Access denied\n" := by decide +kernel

def denyAll : Policy := Policy.ofRules [{ reason := "closed" }]

def asking : List Event :=
  [.change 0 (.send (Bytes.ofText "REQUEST:")), .turn (.session 0), .wait 10000000000,
    .change 0 (.send (Bytes.ofText "cam1\n"))]

def parting : List Event := [.turn (.session 0), .turn (.session 0), .turn (.session 0)]

theorem identification_gates_registry_denied :
    ∃ d, (fresh {} denyAll).run? (.accept {} {} :: (asking ++ .turn (.session 0) :: parting)) = some d ∧
      (d.wires.get 0).received = Bytes.ofText "ERROR:Access denied\n" ∧
      d.Dismissed 0 .accessDenied (.accessDenied "closed") ∧
      ¬((fresh {} denyAll).accept {} {}).Occurs (asking ++ .turn (.session 0) :: parting) (Touches 0) := by
  have start : (fresh {} denyAll).step? (.accept {} {}) = some ((fresh {} denyAll).accept {} {}) := rfl
  have ⟨b, here, was⟩ : ∃ b, ((fresh {} denyAll).accept {} {}).run? asking = some b ∧
      (b.sessions[0]?, decide (b.wires.get 0).Accepts) = (some ⟨{ wire := 0 },
        .identifying ((Bytes.ofText "REQUEST:").foldl LineReader.add {}) 30000000000⟩, true) :=
    Option.map_eq_some_iff.mp (by decide +kernel)
  have ⟨own, accepting⟩ := Prod.mk.inj was
  have ⟨b', here', own'⟩ : ∃ b,
      ((fresh {} denyAll).accept {} {}).run? (asking ++ [.turn (.session 0)]) = some b ∧
        b.sessions[0]? = some ⟨{ wire := 0 }, .refusing (Bytes.ofText "ERROR:Access denied\n")
          (.accessDenied "closed")⟩ :=
    Option.map_eq_some_iff.mp (by decide +kernel)
  have next : b.step? (.turn (.session 0)) = some b' := run?_snoc here ▸ here'
  have ⟨d, run, later⟩ : ∃ d,
      ((fresh {} denyAll).accept {} {}).run? (asking ++ .turn (.session 0) :: parting) = some d ∧
        ((d.turn (.session 0)).isNone, (d.wires.get 0).received) =
          (true, Bytes.ofText "ERROR:Access denied\n") :=
    Option.map_eq_some_iff.mp (by decide +kernel)
  have ⟨rests, received⟩ := Prod.mk.inj later
  have after : b'.run? parting = some d := by
    rwa [List.append_cons, run?_append, here'] at run
  have fails : Fails 0 (.accessDenied "closed") b (.turn (.session 0)) b' :=
    ⟨rfl, stake_of own, ⟨_, _, own'⟩, nofun⟩
  have accepts : b'.Throughout (Answerable 0) parting :=
    (throughout_of_all (Q := fun b => (b.wires.get 0).Accepts) here' (by decide +kernel)).imp
      fun _ accepts _ _ _ => accepts
  have answers : Answerable 0 b := fun _ _ _ => of_decide_eq_true accepting
  have ⟨_, _, _, _, refuses⟩ :=
    identification_gates_registry (run?_nil _) start here next after rfl rfl rfl
  have ⟨untouched, tells⟩ := refuses _ fails
  have ⟨reply, unfit, dismissed⟩ := tells answers
  cases unfit
  have ⟨_, dismissed⟩ := dismissed (by decide) accepts
  exact ⟨d, run, received, dismissed (.inl (Option.isNone_iff_eq_none.mp rests)), untouched⟩

end Rendezvous.Broker
