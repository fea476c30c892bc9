import Rendezvous.Proofs.Deliveries
import Rendezvous.Proofs.KeepAlive

namespace Rendezvous

theorem Stream.size_fill {s s' : Stream} {cs cs' : Connections} {limit n : Nat}
    (h : s.fill cs limit = .done (n, s', cs')) :
    s'.pending.size = s.pending.size + n ∧ n ≤ limit := by
  obtain ⟨bs, rfl, within, pending, -⟩ := fill_parts h
  have size := congrArg List.length pending
  rw [List.length_append, ByteQueue.length_toList, ByteQueue.length_toList] at size
  exact ⟨size, within⟩

def Phase.Waits : Phase → Prop
  | .welcoming _ _ | .idling _ _ _ => True
  | _ => False

namespace Broker

variable {a b b' : Broker} {e : Event} {es fs : List Event} {config : Config} {policy : Policy}
variable {c h i m p n₀ : Nat} {t : Instant} {x y : Registration} {st : Stream} {s s' : Session}
variable {ph : Phase} {r : Registry} {hs : List Handle} {ws : Connections} {q : Happening}

def Enters (p : Nat) (x : Registration) (n : Nat) : Happening := fun b e b' =>
  Registers p x b e b' ∧ ∃ st ph, b'.sessions[p]? = some ⟨st, ph⟩ ∧ st.pending.size = n

-- What is pending at each stage of a provider's session that has entered with so many bytes.
inductive Hoards (a : Broker) (es : List Event) (b : Broker) (p n₀ : Nat) : Prop
  | early {st : Stream} {ph : Phase} (own : b.sessions[p]? = some ⟨st, ph⟩) (waits : ph.Waits)
      (ungained : ∀ st', ¬a.Occurs es (Gains p st')) (size : st.pending.size = n₀)
  | kept {st : Stream} {ph : Phase} (own : b.sessions[p]? = some ⟨st, ph⟩) (waits : ph.Waits)
      (few : st.pending.size ≤ b.config.maxPendingBytes)
  | late {st : Stream} {ph : Phase} (own : b.sessions[p]? = some ⟨st, ph⟩)
      (past : ph.IsSilent ∨ ∃ h, ph = .overflowing h)
      (size : st.pending.size ≤ max b.config.maxPendingBytes n₀ + b.config.bufferSize)

theorem told_of_occurs (run : (fresh config policy).run? es = some b)
    (tells : ∀ {b e b'}, q b e b' → Told p b ∨ Told p b')
    (h : (fresh config policy).Occurs es q) : Told p b := by
  obtain ⟨before, c, e, c', run₁, next, later, happens⟩ := h.within run
  have sound := Sound.of_run run₁
  have step := step_of_step? next
  have told : Told p c' := (tells happens).elim (fun told => told.step sound step) id
  exact (sound.step step).stable (fun s h t => t.step s h) later told

theorem Told.of_idling (own : b.sessions[p]? = some ⟨st, .idling h m t⟩) : Told p b :=
  ⟨_, stake_of own, nofun⟩

theorem Gains.told {st' : Stream} (gains : Gains p st' b e b') : Told p b :=
  have ⟨_, _, _, _, _, _, _, _, own, _⟩ := gains
  .of_idling own

theorem Told.not_new_now (told : Told p b) : b.stake p ≠ some .new := fun new =>
  have ⟨_, hq, hn⟩ := told
  hn <| Option.some.inj <| hq.symm.trans new

theorem Registers.welcoming (registers : Registers p x b e b') (step : b.Step e b') :
    ∃ st, b'.sessions[p]? = some ⟨st, .welcoming x.handle Reply.serviceRegistered.bytes⟩ := by
  obtain ⟨place, new, told, -⟩ := registers
  cases step <;> cases place
  case turn s s' r hs ws own turn =>
    rw [stake_of own, Option.some.injEq] at new
    rw [stake_of (getElem?_after own), Option.some.injEq] at told
    obtain ⟨st, ph⟩ := s
    cases turn <;> try cases new
    case registers =>
      rw [← Stake.provides.inj told]
      exact ⟨_, getElem?_after own⟩
    all_goals cases told
  case abort own =>
    rw [dropped, stake_of (getElem?_after own)] at told
    cases told
  case spare => cases new.symm.trans told

-- Only a keep-alive read adds to what is pending, and after it there is no more than may be, or the
-- session comes to its end.
theorem Turn.of_waits (turn : b.Turn i st ph s' r hs ws) (waits : ph.Waits) :
    s'.phase.Waits ∧ s'.stream = st ∧
        (∀ h m t, ph = .idling h m t → st.fill b.wires b.config.bufferSize = .waits) ∨
      s'.phase.Waits ∧ s'.stream.pending.size ≤ b.config.maxPendingBytes ∨
      (s'.phase.IsSilent ∨ ∃ h, s'.phase = .overflowing h) ∧
        s'.stream.pending.size ≤ st.pending.size + b.config.bufferSize := by
  have past {ph' : Phase} (silent : ph'.IsSilent ∨ ∃ h, ph' = .overflowing h) :
      (ph'.IsSilent ∨ ∃ h, ph' = .overflowing h) ∧
        st.pending.size ≤ st.pending.size + b.config.bufferSize := ⟨silent, Nat.le_add_right ..⟩
  cases turn <;> try cases waits
  case greets | greeted => exact .inl ⟨trivial, rfl, nofun⟩
  case listens fill _ _ => exact .inl ⟨trivial, rfl, fun _ _ _ _ => fill⟩
  case holds some calm few fill => exact .inr <| .inl ⟨trivial, few⟩
  case overflows h m t n st' some much calm fill =>
    have ⟨size, within⟩ := Stream.size_fill fill
    exact .inr <| .inr ⟨.inr ⟨h, rfl⟩, by simp only [size]; omega⟩
  case leaves fill =>
    obtain fill | ⟨rfl, -⟩ := fill
    · have ⟨size, _⟩ := Stream.size_fill fill
      exact .inr <| .inr ⟨.inl trivial, by simp only [size]; omega⟩
    · exact .inr <| .inr <| past <| .inl trivial
  all_goals exact .inr <| .inr <| past <| .inl trivial

theorem Turn.of_past (turn : b.Turn i st ph s' r hs ws) (past : ph.IsSilent ∨ ∃ h, ph = .overflowing h) :
    s'.phase.IsSilent ∧ s'.stream = st := by
  cases turn <;> first | exact ⟨trivial, rfl⟩ | (obtain silent | ⟨_, ⟨⟩⟩ := past; exact silent.elim)

namespace Hoards

theorem start (run : (fresh config policy).run? es = some b) (next : b.step? e = some b')
    (enters : Enters p x n₀ b e b') : Hoards (fresh config policy) (es ++ [e]) b' p n₀ := by
  obtain ⟨registers, st, ph, own, rfl⟩ := enters
  have ⟨_, own'⟩ := registers.welcoming (step_of_step? next)
  cases own.symm.trans own'
  refine .early own trivial (fun st' gains => ?_) rfl
  obtain gains | ⟨_, _, gains⟩ := (occurs_snoc run).mp gains
  · have told := told_of_occurs run (fun gains => .inl (Gains.told gains)) gains
    exact told.not_new_now registers.right.left
  · exact (Gains.told gains).not_new_now registers.right.left

theorem bound (hoards : Hoards a es b p n₀) (own : b.sessions[p]? = some ⟨st, ph⟩) :
    st.pending.size ≤ max b.config.maxPendingBytes n₀ + b.config.bufferSize := by
  cases hoards
  case early own' _ _ size =>
    cases own.symm.trans own'
    omega
  case kept own' _ few =>
    cases own.symm.trans own'
    omega
  case late own' _ size =>
    cases own.symm.trans own'
    exact size

theorem waiting (hoards : Hoards a es b p n₀) (own : b.sessions[p]? = some ⟨st, ph⟩)
    (waits : ph.Waits) : (∀ st', ¬a.Occurs es (Gains p st')) ∧ st.pending.size = n₀ ∨
      st.pending.size ≤ b.config.maxPendingBytes := by
  cases hoards
  case early own' _ ungained size =>
    cases own.symm.trans own'
    exact .inl ⟨ungained, size⟩
  case kept own' _ few =>
    cases own.symm.trans own'
    exact .inr few
  case late own' past _ =>
    cases own.symm.trans own'
    obtain silent | ⟨_, rfl⟩ := past
    · cases ph <;> first | exact waits.elim | exact silent.elim
    · exact waits.elim

theorem of_same (hoards : Hoards a es b p n₀) (same : b'.sessions[p]? = b.sessions[p]?)
    (settings : b'.config = b.config) (ungains : ∀ st', a.Occurs (es ++ [e]) (Gains p st') →
      a.Occurs es (Gains p st')) : Hoards a (es ++ [e]) b' p n₀ := by
  cases hoards
  case early own waits ungained size =>
    exact .early (same.trans own) waits (fun st' gains => ungained st' (ungains st' gains)) size
  case kept own waits few => exact .kept (same.trans own) waits (settings ▸ few)
  case late own past size => exact .late (same.trans own) past (settings ▸ size)

theorem lt_length (hoards : Hoards a es b p n₀) : p < b.sessions.length := by
  cases hoards
  case early own _ _ _ | kept own _ _ | late own _ _ => exact (List.getElem?_eq_some_iff.mp own).choose

theorem turn (hoards : Hoards a es b i n₀) (own : b.sessions[i]? = some s)
    (turn : b.Turn i s.stream s.phase s' r hs ws)
    (ungained : ∀ st', ¬Gains i st' b e (b.after i s' r hs ws) →
      a.Occurs (es ++ [e]) (Gains i st') → a.Occurs es (Gains i st')) :
    Hoards a (es ++ [e]) (b.after i s' r hs ws) i n₀ := by
  have own' : (b.after i s' r hs ws).sessions[i]? = some s' := getElem?_after own
  obtain ⟨st', ph'⟩ := s'
  cases hoards
  case early st ph own₀ waits none size =>
    cases own.symm.trans own₀
    obtain ⟨waits', rfl, rests⟩ | ⟨waits', few⟩ | ⟨past, more⟩ := turn.of_waits waits
    · refine .early own' waits' (fun st₁ gains => none st₁ (ungained st₁ ?_ gains)) size
      rintro ⟨n, ws, some, -, st₂, h, m, t, own₂, -, fill⟩
      cases own.symm.trans own₂
      cases (rests _ _ _ rfl).symm.trans fill
    · exact .kept own' waits' few
    · exact .late own' past (Nat.le_trans more (Nat.add_le_add_right (size ▸ Nat.le_max_right ..) _))
  case kept st ph own₀ waits few =>
    cases own.symm.trans own₀
    obtain ⟨waits', rfl, -⟩ | ⟨waits', few⟩ | ⟨past, more⟩ := turn.of_waits waits
    · exact .kept own' waits' few
    · exact .kept own' waits' few
    · have under := Nat.le_trans few (Nat.le_max_left _ n₀)
      exact .late own' past (Nat.le_trans more (Nat.add_le_add_right under _))
  case late st ph own₀ past size =>
    cases own.symm.trans own₀
    obtain ⟨silent, rfl⟩ := turn.of_past past
    exact .late own' (.inl silent) size

theorem step (run : a.run? es = some b) (next : b.step? e = some b') (hoards : Hoards a es b p n₀) :
    Hoards a (es ++ [e]) b' p n₀ := by
  have ungained (st') (now : ¬Gains p st' b e b') (gains : a.Occurs (es ++ [e]) (Gains p st')) :
      a.Occurs es (Gains p st') := ((occurs_snoc_iff run next).mp gains).resolve_right now
  by_cases place : e.place? = some p
  case neg =>
    have step := step_of_step? next
    refine hoards.of_same (step.same hoards.lt_length place) step.settings.left fun st' => ungained st' ?_
    rintro ⟨_, _, _, rfl, -⟩
    exact place rfl
  case pos =>
    cases step_of_step? next <;> cases place
    case turn own turn => exact hoards.turn own turn ungained
    case abort own     => exact .late (getElem?_after own) (.inl trivial) (hoards.bound own)
    case spare         =>
      refine hoards.of_same rfl rfl fun st' => ungained st' ?_
      rintro ⟨_, _, _, he, -⟩
      cases he

theorem of_run (run : (fresh config policy).run? es = some b)
    (enters : (fresh config policy).Occurs es (Enters p x n₀)) :
    Hoards (fresh config policy) es b p n₀ := by
  refine run_induction (P := fun es b => (fresh config policy).Occurs es (Enters p x n₀) →
    Hoards (fresh config policy) es b p n₀) (fun enters => (not_occurs_nil enters).elim) ?_ run enters
  intro es b e b' run hi next enters
  obtain before | ⟨c, next', now⟩ := (occurs_snoc run).mp enters
  · exact (hi before).step run next
  · cases next.symm.trans next'
    exact .start run next now

end Hoards

theorem pending_of_new (run : (fresh config policy).run? es = some b)
    (own : b.sessions[p]? = some ⟨st, ph⟩) (new : ph.stake = .new) : st.pending.size = 0 := by
  refine run_induction (P := fun _ b => ∀ st ph, b.sessions[p]? = some ⟨st, ph⟩ → ph.stake = .new →
    st.pending.size = 0) (fun _ _ own => by cases own) ?_ run st ph own new
  intro es b e b' run hi next st ph own new
  cases (step_of_step? next).origin own
  case stays own => exact hi _ _ own new
  case accepted  => rfl
  case dropped   => cases new
  case turns k s₀ r hs ws event place own₀ turn =>
    obtain ⟨st₀, ph₀⟩ := s₀
    cases turn
    case reads read =>
      have dry : st₀.pending.toList = [] := by
        rw [← List.length_eq_zero_iff, ByteQueue.length_toList]
        exact hi _ _ own₀ rfl
      rw [← ByteQueue.length_toList, List.length_eq_zero_iff]
      obtain ⟨full, _⟩ | ⟨_, empty, _⟩ := Stream.read_parts read
      · exact absurd dry full
      · exact empty
    all_goals cases new

inductive Rejected (b : Broker) (p h : Nat) : Prop
  | closing {st : Stream} (own : b.sessions[p]? = some ⟨st, .overflowing h⟩)
  | left {st : Stream} (own : b.sessions[p]? = some ⟨st, .ended (.regular .providerLeft)⟩)
  | dropped (dropped : b.IsDropped p)

theorem Overflows.overflowing (overflows : Overflows p b e b') (step : b.Step e b') :
    ∃ st h, b.Idles p h ∧ b'.sessions[p]? = some ⟨st, .overflowing h⟩ := by
  obtain ⟨st', ⟨n, ws, gained, rfl, st, h, m, t, own, calm, fill⟩, much⟩ := overflows
  refine ⟨st', h, ⟨st, m, t, own⟩, ?_⟩
  cases step
  case turn s s' r hs ws' own₀ turn =>
    cases own.symm.trans own₀
    obtain ⟨rfl, -⟩ | ⟨-, few⟩ := turn.of_gains calm fill gained
    · exact getElem?_after own
    · exact absurd much (Nat.not_lt_of_le few)

namespace Rejected

theorem step (rejected : b.Rejected p h) (step : b.Step e b') : b'.Rejected p h := by
  cases rejected
  case left own        => exact .left (step.ended own)
  case dropped dropped => exact .dropped (dropped.step step)
  case closing st own  =>
    by_cases place : e.place? = some p
    case neg => exact .closing ((step.same (List.getElem?_eq_some_iff.mp own).choose place).trans own)
    case pos =>
      cases step <;> cases place
      case turn own₀ turn =>
        cases own.symm.trans own₀
        cases turn
        exact .left (getElem?_after own)
      case abort own₀ => exact .dropped ⟨_, getElem?_after own₀⟩
      case spare      => exact .closing own

theorem not_idles (rejected : b.Rejected p h) {h' : Nat} : ¬b.Idles p h' := by
  rintro ⟨st, m, t, own⟩
  cases rejected
  case closing own'    => cases own.symm.trans own'
  case left own'       => cases own.symm.trans own'
  case dropped dropped =>
    have ⟨_, own'⟩ := dropped
    cases own.symm.trans own'

theorem of_reaches (rejected : b.Rejected p h) (reach : b.Reaches b') : b'.Rejected p h :=
  reach.stable (Q := fun b => b.Rejected p h) (fun next rejected => rejected.step (step_of_step? next))
    rejected

end Rejected

theorem rejected_of_run (run : (fresh config policy).run? es = some b)
    (overflows : (fresh config policy).Occurs es (Overflows p))
    (hp : (fresh config policy).Occurs es (Registers p x)) : b.Rejected p x.handle := by
  obtain ⟨before, e, after, c, c', rfl, run₁, next, now⟩ := overflows
  have ⟨st, h, idles, own⟩ := now.overflowing (step_of_step? next)
  have ⟨hd, hh, registers⟩ := occurs_registers run₁ idles.stake
  have same : x.handle = h := congrArg Registration.handle (registers_once hp registers.append)
  rw [run?_append, run₁, Option.bind_some, run?_cons, next, Option.bind_some] at run
  exact same ▸ Rejected.of_reaches (.closing own) (.of_run run)

theorem HandsOver.ended (handed : HandsOver p c x b e b') (sound : b.Sound) (sound' : b'.Sound) :
    b'.stake p = some .ended := by
  obtain ⟨-, -, st, m, t, hd, own, hh, given⟩ := handed
  exact sound'.matched.ended (x := .desk x.handle) ⟨hd, st, hh, given, sound.wired.own own⟩

theorem not_handsOver_of_overflows (overflows : (fresh config policy).Occurs es (Overflows p)) :
    ¬(fresh config policy).Occurs es (HandsOver p c y) := by
  intro handed
  have idles {b e b'} (handed : HandsOver p c y b e b') : b.Idles p y.handle :=
    have ⟨_, _, st, m, t, _, own, _⟩ := handed
    ⟨st, m, t, own⟩
  -- The provider is over once it has handed over, and never waits again once it has sent too much.
  have apart {b e b' d f d'} (reach : (fresh config policy).Reaches b) (next : b.step? e = some b')
      (handed : HandsOver p c y b e b') (later : b'.Reaches d) (overflows : Overflows p d f d') : False := by
    have sound := Sound.of_reaches reach
    have sound' := sound.step (step_of_step? next)
    have ended := sound'.stable (Q := fun b => b.stake p = some .ended)
      (fun s h ended => (h.shift s.wired).ended ended) later (handed.ended sound sound')
    obtain ⟨_, ⟨_, _, _, _, _, _, _, _, own, _⟩, _⟩ := overflows
    cases ended.symm.trans (stake_of own)
  have apart' {b e b' d f d'} (_ : (fresh config policy).Reaches b) (next : b.step? e = some b')
      (overflows : Overflows p b e b') (later : b'.Reaches d) (handed : HandsOver p c y d f d') : False := by
    have ⟨st, h, _, own⟩ := overflows.overflowing (step_of_step? next)
    exact (Rejected.of_reaches (.closing own) later).not_idles (idles handed)
  have ⟨b, e, b', reach, next, handed, overflows⟩ := handed.meet overflows apart apart'
  have sound := Sound.of_reaches reach
  have ⟨_, _, _, own⟩ := overflows.overflowing (step_of_step? next)
  cases (handed.ended sound (sound.step (step_of_step? next))).symm.trans (stake_of own)

-- What is pending has come with the command, or there is no more of it than may be.
def Moderate (a : Broker) (es : List Event) (p n₀ : Nat) (st : Stream) : Prop :=
  (∀ st', ¬a.Occurs es (Gains p st')) ∧ st.pending.size = n₀ ∨
    st.pending.size ≤ a.config.maxPendingBytes

section

variable (run : (fresh config policy).run? es = some b)
variable (enters : (fresh config policy).Occurs (es ++ fs) (Enters p x n₀))
include run enters

theorem enters_or_untold : (fresh config policy).Occurs es (Enters p x n₀) ∨ ¬Told p b := by
  refine (enters.of_append run).imp_right ?_
  rintro ⟨before, _, _, c, _, -, later, -, ⟨_, new, _⟩, -⟩ told
  have told : Told p c := (Sound.of_run run).stable (fun s h t => t.step s h) (.of_run later) told
  exact told.not_new_now new

theorem size_pending_le (own : b.sessions[p]? = some s) :
    s.stream.pending.size ≤ max config.maxPendingBytes n₀ + config.bufferSize := by
  obtain enters | untold := enters_or_untold run enters
  case inl => exact (settings_of_run run).left ▸ (Hoards.of_run run enters).bound own
  case inr =>
    have new : s.phase.stake = .new := by
      by_contra told
      exact untold ⟨_, stake_of own, told⟩
    exact pending_of_new run own new ▸ Nat.zero_le _

theorem moderate_of_idling (own : b.sessions[p]? = some ⟨st, .idling h m t⟩) :
    Moderate (fresh config policy) es p n₀ st := by
  obtain enters | untold := enters_or_untold run enters
  case inl =>
    have few := (Hoards.of_run run enters).waiting own trivial
    rwa [(settings_of_run run).left] at few
  case inr => exact absurd (.of_idling own) untold

theorem registers_of_overflows (overflows : (fresh config policy).Occurs es (Overflows p)) :
    (fresh config policy).Occurs es (Registers p x) := by
  have told : Told p b := told_of_occurs run (fun ⟨_, gains, _⟩ => .inl gains.told) overflows
  exact ((enters_or_untold run enters).resolve_right fun untold => untold told).mono And.left

end

theorem lacks_of_ended {how : Ending} (run : (fresh config policy).run? es = some b)
    (hp : (fresh config policy).Occurs es (Registers p x))
    (own : b.sessions[p]? = some ⟨st, .ended how⟩) (returns : how ≠ .aborted) :
    b.registry.Lacks x.handle := by
  obtain ⟨-, provides | ⟨_, own'⟩ | lacks⟩ := departs_of_run run hp
  · cases (stake_of own).symm.trans provides
  · cases own.symm.trans own'
    exact absurd rfl returns
  · exact lacks

-- Only a connection that cannot be closed yet keeps the session of a provider that sent too much from its
-- end.
theorem turn_of_overflowing (own : b.sessions[p]? = some ⟨st, .overflowing h⟩)
    (closes : st.close b.wires ≠ .waits) : ∃ b', b.turn (.session p) = some b' ∧
      ∃ st', b'.sessions[p]? = some ⟨st', .ended (.regular .providerLeft)⟩ := by
  have ⟨b', next⟩ : ∃ b', b.turn (.session p) = some b' := by
    simp only [turn, sessionTurn, own, overflow]
    cases hc : st.close b.wires
    case waits => exact absurd hc closes
    all_goals exact ⟨_, rfl⟩
  obtain ⟨s, own₀, s', r, hds, ws, turn, rfl⟩ := turn_turns next
  cases own.symm.trans own₀
  have own' : (b.after p s' r hds ws).sessions[p]? = some s' := getElem?_after own
  cases turn
  exact ⟨_, next, _, own'⟩

-- The bytes that a provider sends early are bounded at all times, and whoever sends too many of them is
-- shut out: nobody ever gets any of them, and the session ends as if the provider had left.
theorem early_bytes_bounded (run : (fresh config policy).run? es = some b)
    (enters : (fresh config policy).Occurs (es ++ fs) (Enters p x n₀)) :
    (∀ s, b.sessions[p]? = some s →
      s.stream.pending.size ≤ max config.maxPendingBytes n₀ + config.bufferSize) ∧
    (∀ st h m t, b.sessions[p]? = some ⟨st, .idling h m t⟩ →
      Moderate (fresh config policy) es p n₀ st) ∧
    (∀ before e after b₁ b₂ c y, es = before ++ e :: after →
      (fresh config policy).run? before = some b₁ → b₁.step? e = some b₂ → HandsOver p c y b₁ e b₂ →
      ∃ st hd, b₂.handles[y.handle]? = some hd ∧ hd.claim = .given st ∧
        Moderate (fresh config policy) before p n₀ st) ∧
    ((fresh config policy).Occurs es (Overflows p) →
      (∀ c y, ¬(fresh config policy).Occurs es (HandsOver p c y)) ∧
      (∀ w, (∃ reply ∈ Reply.standing, (b.wires.get w).received <+: reply.bytes) ∨
        ∃ c q n, c ≠ p ∧ q ≠ p ∧ (w = c ∨ w = q) ∧
          Paired (fun w => (fresh config policy).sent w es) b.wires c q n) ∧
      b.Rejected p x.handle ∧
      (∀ st how, b.sessions[p]? = some ⟨st, .ended how⟩ → how ≠ .aborted →
        how = .regular .providerLeft ∧ b.registry.Lacks x.handle) ∧
      ∀ st h, b.sessions[p]? = some ⟨st, .overflowing h⟩ → st.close b.wires ≠ .waits →
        ∃ b', b.turn (.session p) = some b' ∧ b'.registry.Lacks x.handle ∧
          ∃ st', b'.sessions[p]? = some ⟨st', .ended (.regular .providerLeft)⟩) := by
  refine ⟨fun s => size_pending_le run enters, fun st h m t => moderate_of_idling run enters, ?_, ?_⟩
  case refine_1 =>
    rintro before e after b₁ b₂ c y rfl run₁ next ⟨-, -, st, m, t, hd, own, hh, given⟩
    rw [List.append_assoc] at enters
    exact ⟨st, hd, hh, given, moderate_of_idling run₁ enters own⟩
  case refine_2 =>
    intro overflows
    have hp := registers_of_overflows run enters overflows
    have kept {c y} := not_handsOver_of_overflows (c := c) (y := y) overflows
    have rejected := rejected_of_run run overflows hp
    refine ⟨fun _ _ => kept, (received_of_not_handsOver run hp fun _ _ => kept).right, rejected,
      fun st how own returns => ⟨?_, lacks_of_ended run hp own returns⟩, fun st h own closes => ?_⟩
    case refine_1 =>
      cases rejected
      case closing own' => cases own.symm.trans own'
      case left own'    =>
        cases own.symm.trans own'
        rfl
      case dropped dropped =>
        have ⟨_, own'⟩ := dropped
        cases own.symm.trans own'
        exact absurd rfl returns
    case refine_2 =>
      have ⟨b', next, st', own'⟩ := turn_of_overflowing own closes
      have run' : (fresh config policy).run? (es ++ [.turn (.session p)]) = some b' :=
        (run?_snoc run).trans next
      exact ⟨b', next, lacks_of_ended run' hp.append own' nofun, st', own'⟩

def hoarding : List Event :=
  [.accept {} {}, .change 0 (.send (Bytes.ofText "REGISTER:cam1\nhi")), .turn (.session 0),
    .turn (.session 0), .turn (.session 0), .change 0 (.send (Bytes.ofText "hello")), .turn (.session 0)]

theorem early_bytes_bounded_hoarding :
    ∃ b, (fresh { maxPendingBytes := 4 } Policy.allowAll).run? hoarding = some b ∧
      (fresh { maxPendingBytes := 4 } Policy.allowAll).Occurs hoarding (Enters 0 ⟨0, cam1⟩ 2) ∧
      (fresh { maxPendingBytes := 4 } Policy.allowAll).Occurs hoarding (Overflows 0) ∧
      (∀ s, b.sessions[0]? = some s → s.stream.pending.size ≤ max 4 2 + defaultBufferSize) ∧
      (∀ c y, ¬(fresh { maxPendingBytes := 4 } Policy.allowAll).Occurs hoarding (HandsOver 0 c y)) ∧
      ∃ b', b.turn (.session 0) = some b' ∧ b'.registry.Lacks 0 ∧ b'.EndsAs 0 .providerLeft := by
  have ⟨b₀, run₀, was⟩ : ∃ b, (fresh { maxPendingBytes := 4 } Policy.allowAll).run? (hoarding.take 2) =
      some b ∧ (b.sessions[0]?, b.handles.length, b.registry) =
        (some ⟨{ wire := 0 }, .identifying {} 30000000000⟩, 0, {}) :=
    Option.map_eq_some_iff.mp (by decide +kernel)
  have ⟨b₁, run₁, is⟩ : ∃ b, (fresh { maxPendingBytes := 4 } Policy.allowAll).run?
      (hoarding.take 2 ++ [.turn (.session 0)]) = some b ∧ (b.sessions[0]?, b.registry) =
        (some ⟨.unread { wire := 0 } (Bytes.ofText "hi"), .welcoming 0 Reply.serviceRegistered.bytes⟩,
          ⟨[⟨0, cam1⟩]⟩) :=
    Option.map_eq_some_iff.mp (by decide +kernel)
  have ⟨b, run, now⟩ : ∃ b, (fresh { maxPendingBytes := 4 } Policy.allowAll).run? hoarding = some b ∧
      (b.sessions[0]?.map fun s => (s.phase, s.stream.close b.wires == .waits)) =
        some (.overflowing 0, false) :=
    Option.map_eq_some_iff.mp (by decide +kernel)
  obtain ⟨own₀, handles₀, registry₀⟩ := by simpa only [Prod.mk.injEq] using was
  obtain ⟨own₁, registry₁⟩ := by simpa only [Prod.mk.injEq] using is
  obtain ⟨⟨st, _⟩, own, now⟩ := Option.map_eq_some_iff.mp now
  obtain ⟨rfl, closes⟩ := by simpa only [Prod.mk.injEq] using now
  have enters : (fresh { maxPendingBytes := 4 } Policy.allowAll).Occurs hoarding (Enters 0 ⟨0, cam1⟩ 2) := by
    refine ⟨hoarding.take 2, .turn (.session 0), hoarding.drop 3, b₀, b₁, rfl, run₀,
      run?_snoc run₀ ▸ run₁, ⟨rfl, stake_of own₀, stake_of own₁, handles₀.symm, ?_⟩, _, _, own₁, rfl⟩
    rw [registry₀, registry₁]
    rfl
  have overflows := occurs_overflows run own
  have entered : (fresh { maxPendingBytes := 4 } Policy.allowAll).Occurs (hoarding ++ [])
      (Enters 0 ⟨0, cam1⟩ 2) := enters.append
  obtain ⟨bound, -, -, shut⟩ := early_bytes_bounded run entered
  obtain ⟨kept, -, -, -, leaves⟩ := shut overflows
  obtain ⟨b', next, lacks, st', own'⟩ := leaves st 0 own (by simpa using closes)
  exact ⟨b, run, enters, overflows, bound, kept, b', next, lacks, _, own', rfl⟩

end Broker
end Rendezvous
