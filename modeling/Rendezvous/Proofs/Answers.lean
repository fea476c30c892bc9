import Rendezvous.Proofs.Orphans
import Rendezvous.Proofs.Refusals

namespace Rendezvous

namespace Handle

variable {hd : Handle} {st : Stream}

theorem given_take (h : hd.claim = .given st) : hd.take.2.claim = .given st := by
  unfold take
  split
  · exact h
  · simp [h]

theorem given_dropLease (h : hd.claim = .given st) : hd.dropLease.claim = .given st := by
  simp [dropLease, h]

end Handle

namespace Broker

variable {a b b' b₀ b₁ : Broker} {e : Event} {es fs : List Event} {config : Config} {policy : Policy}
variable {c i h h' p : Nat} {n : Name} {x : Registration} {st : Stream} {hd hd' : Handle} {q q' : Stake}
variable {r : Registry} {hs : List Handle} {due : Instant} {s : Session}
variable {ws : Connections}

def Removes (c : Nat) (x : Registration) : Happening := fun b e b' =>
  e.place? = some c ∧ b.stake c = some .new ∧ b.registry.find? x.name = some x ∧
    b'.registry = b.registry.erase x.name

theorem Move.given (m : b.Move i e q q' r hs) (hq : ∀ n, q ≠ .claims h n)
    (hh : b.handles[h]? = some hd) (hg : hd.claim = .given st) :
    ∃ hd', hs[h]? = some hd' ∧ hd'.claim = .given st := by
  -- What a move does to a handle that it changes, it does not undo this.
  have modify {h' : Nat} {f : Handle → Handle}
      (hf : h = h' → (f hd).claim = .given st) :
      ∃ hd', (b.handles.modify h' f)[h]? = some hd' ∧ hd'.claim = .given st := by
    by_cases he : h = h'
    case pos =>
      subst he
      exact ⟨f hd, getElem?_modify_self hh, hf rfl⟩
    case neg => exact ⟨hd, (getElem?_modify_ne he).trans hh, hg⟩
  cases m
  case stays | refuses | ends => exact ⟨hd, hh, hg⟩
  case registers n p =>
    have old : (b.handles ++ [{ name := n, peer := p }])[h]? = some hd := by
      rw [List.getElem?_append_left (List.getElem?_eq_some_iff.mp hh).choose, hh]
    rw [getElem?_closeReplaced, old]
    split <;> exact ⟨_, rfl, hg⟩
  case claims => exact modify fun _ => Handle.given_take hg
  case misses =>
    rw [List.modify_modify_eq]
    exact modify fun _ => Handle.given_take hg
  case leaves | drops => exact modify fun _ => Handle.given_dropLease hg
  case handsOver handle _ claim | offers handle _ claim =>
    refine modify fun he => ?_
    cases (he ▸ hh).symm.trans handle
    cases hg.symm.trans claim
  case picksUp h' n _ _ _ _ => exact modify fun he => absurd (he ▸ rfl) (hq n)
  case givesUp h' n _ _ _ =>
    rw [List.modify_modify_eq]
    exact modify fun he => absurd (he ▸ rfl) (hq n)
  case despairs => exact modify fun _ => hg
  case forgoes h' n _ => exact modify fun he => absurd (he ▸ rfl) (hq n)

theorem given_of_step (sound : b.Sound) (h : b.Step e b') (hc : b.stake c = some (.claims h' n))
    (hn : e.place? ≠ some c) (hh : b.handles[h']? = some hd) (hg : hd.claim = .given st) :
    ∃ hd', b'.handles[h']? = some hd' ∧ hd'.claim = .given st := by
  cases h.shift sound.wired
  case rests handles _ _ => exact ⟨hd, handles ▸ hh, hg⟩
  case moves i q q' place before move after others =>
    refine move.given (fun m hq => ?_) hh hg
    have same := sound.matched.alone hc (hq ▸ before)
    exact hn (place.trans (congrArg some same.symm))

-- A registration that is taken out is claimed for the consumer, or its provider has gone already.
theorem Turn.removes {t : Instant} {rd : LineReader} {sent : Nat → Bytes}
    (turn : b.Turn i st (.identifying rd t) s r hs ws) (tended : b.Tended)
    (found : b.registry.find? x.name = some x) (hr : r = b.registry.erase x.name)
    (f : (Phase.identifying rd t).Accounts sent b.handles b.wires st) :
    s.phase = .claiming x.handle x.name (b.clock + b.config.identificationTimeout.nanos) ∨
      s.phase = .refusing Reply.serviceNotFound.bytes (.notFound x.name) ∧
        (ws.get s.stream.wire).received = [] ∧
        ∃ hd, hs[x.handle]? = some hd ∧ hd.closed = true := by
  have listed := Registry.mem_of_find? found
  have gone : x ∉ r.entries := fun hx => (Registry.mem_erase.mp (hr ▸ hx)).right rfl
  have eq_of_find {n y} (hf : b.registry.find? n = some y) (hn : x ∉ (b.registry.erase n).entries) :
      n = x.name ∧ y = x := by
    have name : x.name = n := Decidable.byContradiction fun ne =>
      hn (Registry.mem_erase.mpr ⟨listed, ne⟩)
    subst name
    exact ⟨rfl, Option.some.inj (hf.symm.trans found)⟩
  cases turn
  case reads | mishears | misreads | denies | seeks => exact absurd listed gone
  case registers n _ _ _ =>
    have new : (⟨b.handles.length, n⟩ : Registration) ∈ (b.registry.erase x.name).entries :=
      hr ▸ Registry.mem_register.mpr (.inl rfl)
    exact absurd (tended.handle_lt (Registry.mem_erase.mp new).left) (Nat.lt_irrefl _)
  case claims hf _ _ _ =>
    obtain ⟨rfl, rfl⟩ := eq_of_find hf gone
    exact .inl rfl
  case misses hf take hears =>
    obtain ⟨rfl, rfl⟩ := eq_of_find hf gone
    have ⟨hd, hh, _⟩ := tended.enrolled listed
    refine .inr ⟨rfl, hears.received f, (Handle.close hd.take.2), ?_, rfl⟩
    simp [hh]

theorem turn_of_claiming (own : b.sessions[c]? = some ⟨st, .claiming h n due⟩) (late : due ≤ b.clock) :
    b.turn (.session c) ≠ none := by
  simp only [turn, sessionTurn, own, await]
  split
  case h_2 => simp [late]
  all_goals exact Option.some_ne_none _

theorem turn_of_connecting {provider : Stream} {unsent : Bytes} (sound : b.Sound)
    (answers : Answerable c b) (unshut : b.Unshut)
    (own : b.sessions[c]? = some ⟨st, .connecting provider unsent⟩) : b.turn (.session c) ≠ none := by
  have ⟨left, ws, sends⟩ := Refused.deliver sound answers unshut own trivial unsent
  cases left <;> simp [turn, sessionTurn, own, connect, sends]

theorem HandsOver.place_ne (handed : HandsOver p c x b e b') : e.place? ≠ some c := by
  have ⟨place, hc, _, _, _, _, hp, _⟩ := handed
  rintro he
  cases place.symm.trans he
  cases (stake_of hp).symm.trans hc

theorem Refused.not_handsOver {reply : Reply} {cause : Error} (f : b.Refused c reply cause) :
    ¬HandsOver p c x b e b' := by
  rintro ⟨-, hc, -⟩
  cases f
  case tells own _     => cases (stake_of own).symm.trans hc
  case closes own _    => cases (stake_of own).symm.trans hc
  case past _ gone     => cases gone.ended.symm.trans hc

-- What becomes of a claim up to the time when it is due: the consumer waits, or it is told that it is
-- connected and then is bridged, or it is refused.
inductive Pursued (a : Broker) (es : List Event) (b : Broker) (c : Nat) (x : Registration)
    (due : Instant) : Prop
  | waits {st : Stream} (own : b.sessions[c]? = some ⟨st, .claiming x.handle x.name due⟩)
      (time : b.clock ≤ due)
      (given : ∀ p, a.Occurs es (HandsOver p c x) →
        ∃ hd st, b.handles[x.handle]? = some hd ∧ hd.claim = .given st)
  | connects {st provider : Stream} {unsent : Bytes}
      (own : b.sessions[c]? = some ⟨st, .connecting provider unsent⟩) (time : b.clock ≤ due)
      (handed : a.Occurs es (HandsOver provider.wire c x))
  | bridged {p : Nat} (handed : a.Occurs es (HandsOver p c x))
      (starts : a.Occurs es (StartsBridge c p))
  | refused (refused : b.Refused c .serviceNotFound (.notFound x.name))
      (time : b.stake c ≠ some .ended → b.clock ≤ due)
      (closed : ∃ hd, b.handles[x.handle]? = some hd ∧ hd.closed = true)
      (unserved : ∀ p, ¬a.Occurs es (HandsOver p c x))

namespace Pursued

section

variable (run : (fresh config policy).run? es = some b) (next : b.step? e = some b')
variable (stays : e ≠ .abort c) (awake : ¬Oversleeps (.session c) b e b')
include run next stays awake

omit stays in
theorem waits_on (own : b.sessions[c]? = some ⟨st, .claiming x.handle x.name due⟩)
    (time : b.clock ≤ due)
    (given : ∀ p, (fresh config policy).Occurs es (HandsOver p c x) →
      ∃ hd st, b.handles[x.handle]? = some hd ∧ hd.claim = .given st)
    (place : e.place? ≠ some c) : Pursued (fresh config policy) (es ++ [e]) b' c x due := by
  have sound := Sound.of_run run
  have step := step_of_step? next
  have ⟨own', _⟩ := step.others sound own trivial place
  have time' := in_time_of_deadline step awake own rfl time (turn_of_claiming own)
  refine .waits own' time' fun p handed => ?_
  obtain before | ⟨_, next', -, -, st, _, _, hd, -, hh, hg⟩ := (occurs_snoc run).mp handed
  · obtain ⟨hd, st, hh, hg⟩ := given p before
    obtain ⟨hd', hh', hg'⟩ := given_of_step sound step (stake_of own) place hh hg
    exact ⟨hd', st, hh', hg'⟩
  · cases next.symm.trans next'
    exact ⟨hd, st, hh, hg⟩

theorem of_waits (own : b.sessions[c]? = some ⟨st, .claiming x.handle x.name due⟩)
    (time : b.clock ≤ due)
    (given : ∀ p, (fresh config policy).Occurs es (HandsOver p c x) →
      ∃ hd st, b.handles[x.handle]? = some hd ∧ hd.claim = .given st) :
    Pursued (fresh config policy) (es ++ [e]) b' c x due := by
  have sound := Sound.of_run run
  by_cases place : e.place? = some c
  case neg => exact waits_on run next awake own time given place
  case pos =>
    have unserved (nothing : ∀ hd st, b.handles[x.handle]? = some hd → hd.claim ≠ .given st) (p : Nat) :
        ¬(fresh config policy).Occurs (es ++ [e]) (HandsOver p c x) := by
      intro handed
      obtain before | ⟨_, _, handed⟩ := (occurs_snoc run).mp handed
      · obtain ⟨hd, st, hh, hg⟩ := given p before
        exact nothing hd st hh hg
      · exact handed.place_ne place
    have received : (b.wires.get c).received = [] :=
      sound.wired.own own ▸ ((Accounted.of_run run).session own).right
    cases step_of_step? next <;> cases place
    case turn k s s' r hds ws own' t =>
      cases own.symm.trans own'
      cases t
      case picksUp claim handle =>
        obtain ⟨c', n', hc', handed⟩ := occurs_handsOver_given run handle claim
        cases sound.matched.alone (stake_of own) hc'
        cases (stake_of own).symm.trans hc'
        exact .connects (getElem?_after own) time handed.append
      case givesUp hd waits handle late =>
        refine .refused (.tells (getElem?_after own) (congrArg (· ++ _) received)) (fun _ => time)
          ⟨Handle.close hd.abandonTake.2, by simp [after, handle], rfl⟩ (unserved fun hd' st hh hg => ?_)
        cases handle.symm.trans hh
        simp [Handle.taking, hg] at waits
      case despairs nothing =>
        obtain ⟨hd, hh, _⟩ := sound.tended.claimed (stake_of own)
        refine .refused (.tells (getElem?_after own) (congrArg (· ++ _) received)) (fun _ => time)
          ⟨hd.close, by simp [after, hh], rfl⟩ (unserved fun hd' st hh' hg => ?_)
        cases (nothing _ hh').symm.trans hg
    case abort => exact absurd rfl stays
    case spare => exact absurd rfl stays

variable (answers : Answerable c b)
include answers

theorem of_connects {provider : Stream} {unsent : Bytes}
    (own : b.sessions[c]? = some ⟨st, .connecting provider unsent⟩) (time : b.clock ≤ due)
    (handed : (fresh config policy).Occurs es (HandsOver provider.wire c x)) :
    Pursued (fresh config policy) (es ++ [e]) b' c x due := by
  have sound := Sound.of_run run
  have step := step_of_step? next
  by_cases place : e.place? = some c
  case neg =>
    have ⟨own', _⟩ := step.others sound own trivial place
    have busy := turn_of_connecting sound answers (Unshut.of_run run) own
    exact .connects own' (in_time step awake time (.inl busy)) handed.append
  case pos =>
    cases step <;> cases place
    case turn k s s' r hds ws own' t =>
      cases own.symm.trans own'
      cases t
      case tells => exact .connects (getElem?_after own) time handed.append
      case bridges =>
        refine .bridged handed.append ((occurs_snoc run).mpr <| .inr ⟨_, next, rfl, ?_⟩)
        exact ⟨st, provider, unsent, _, _, own, rfl, getElem?_after own⟩
      case untold fails =>
        have ⟨_, _, sends⟩ := Refused.deliver sound answers (Unshut.of_run run) own trivial unsent
        cases sends.symm.trans fails
    case abort => exact absurd rfl stays
    case spare => exact absurd rfl stays

theorem of_refused (f : b.Refused c .serviceNotFound (.notFound x.name))
    (time : b.stake c ≠ some .ended → b.clock ≤ due)
    (closed : ∃ hd, b.handles[x.handle]? = some hd ∧ hd.closed = true)
    (unserved : ∀ p, ¬(fresh config policy).Occurs es (HandsOver p c x)) :
    Pursued (fresh config policy) (es ++ [e]) b' c x due := by
  have sound := Sound.of_run run
  have step := step_of_step? next
  have shift := step.shift sound.wired
  refine .refused (f.step sound answers (Unshut.of_run run) step stays)
    (f.in_time sound answers (Unshut.of_run run) step awake time) ?_ fun p handed => ?_
  · have ⟨hd, hh, closed⟩ := closed
    have ⟨hd', hh', follows⟩ := shift.trails _ _ hh
    exact ⟨hd', hh', follows.closed closed⟩
  · obtain before | ⟨_, _, handed⟩ := (occurs_snoc run).mp handed
    · exact unserved p before
    · exact f.not_handsOver handed

theorem step (h : Pursued (fresh config policy) es b c x due) :
    Pursued (fresh config policy) (es ++ [e]) b' c x due := by
  cases h
  case waits own time given              => exact of_waits run next stays awake own time given
  case connects own time handed          => exact of_connects run next stays awake answers own time handed
  case bridged handed starts             => exact .bridged handed.append starts.append
  case refused f time closed unserved    =>
    exact of_refused run next stays awake answers f time closed unserved

end

section

variable (before : (fresh config policy).run? es = some b₀) (removes : Removes c x b₀ e b₁)
include before removes

-- Before a consumer has its command nobody has handed over to it.
theorem unserved_of_removes : ¬(fresh config policy).Occurs (es ++ [e]) (HandsOver p c x) := by
  have ⟨place, new, _⟩ := removes
  intro handed
  obtain ⟨fs, f, gs, b₂, b₃, rfl, run₂, step₂, _, hc, _⟩ | ⟨_, _, handed⟩ :=
    (occurs_snoc before).mp handed
  case inr => exact handed.place_ne place
  case inl =>
    have reach : b₂.Reaches b₀ := ⟨f :: gs, by rwa [run?_append, run₂] at before⟩
    have ⟨q, hq, told⟩ := (Sound.of_run run₂).stable (Q := Told c) (fun s h t => t.step s h) reach
      ⟨_, hc, nofun⟩
    exact told <| Option.some.inj <| hq.symm.trans new

theorem start (claim : b₀.step? e = some b₁) :
    Pursued (fresh config policy) (es ++ [e]) b₁ c x
      (b₀.clock + b₀.config.identificationTimeout.nanos) := by
  have sound := Sound.of_run before
  have unserved p := unserved_of_removes (p := p) before removes
  have ⟨place, new, found, erased⟩ := removes
  have changed : b₁.registry ≠ b₀.registry := fun same =>
    (Registry.mem_erase.mp (erased ▸ same ▸ Registry.mem_of_find? found)).right rfl
  cases step_of_step? claim <;> cases place
  case turn k s s' r hds ws own t =>
    obtain ⟨st, rd, t₀, rfl⟩ : ∃ st rd t₀, s = ⟨st, .identifying rd t₀⟩ := by
      obtain ⟨st, p⟩ := s
      rw [stake_of own, Option.some.injEq] at new
      cases p <;> cases new
      exact ⟨_, _, _, rfl⟩
    have own' : (b₀.after k.place s' r hds ws).sessions[k.place]? = some s' := getElem?_after own
    have wire : s'.stream.wire = k.place := ((sound.step (step_of_step? claim)).wired.own own')
    obtain ⟨st', p⟩ := s'
    obtain rfl | ⟨rfl, received, closed⟩ :=
      t.removes sound.tended found erased ((Accounted.of_run before).session own)
    · exact .waits own' (Nat.le_add_right ..) fun p handed => absurd handed (unserved p)
    · refine .refused (.tells own' (congrArg (· ++ _) (wire ▸ received))) (fun _ => Nat.le_add_right ..)
        closed unserved
  case abort => exact absurd rfl changed
  case spare => exact absurd rfl changed

theorem of_run (claim : b₀.step? e = some b₁) (after : b₁.run? fs = some b) (stays : .abort c ∉ fs)
    (accepts : b₁.Throughout (Answerable c) fs) (prompt : ¬b₁.Occurs fs (Oversleeps (.session c))) :
    Pursued (fresh config policy) (es ++ e :: fs) b c x
      (b₀.clock + config.identificationTimeout.nanos) := by
  have here : (fresh config policy).run? (es ++ [e]) = some b₁ := run?_snoc before ▸ claim
  rw [List.append_cons]
  refine prefix_induction (P := fun gs b => Pursued (fresh config policy) ((es ++ [e]) ++ gs) b c x _)
    ?_ ?_ List.prefix_rfl after
  case refine_1 => simpa [(settings_of_run before).left] using start before removes claim
  case refine_2 =>
    intro gs b₂ f b₃ part run₂ step₂ hi
    have run₂' : (fresh config policy).run? ((es ++ [e]) ++ gs) = some b₂ := by
      rw [run?_append, here]
      exact run₂
    rw [← List.append_assoc]
    refine hi.step run₂' step₂ (fun hf => stays ?_) (not_of_not_occurs prompt part run₂ step₂)
      (accepts gs b₂ ((List.prefix_append ..).trans part) run₂)
    exact hf ▸ part.subset (by simp)

end
end Pursued

-- The provider of a registration has handed its connection over to a consumer, which has been told that
-- it is connected and has been bridged to it.
def Served (a : Broker) (es : List Event) (b : Broker) (c : Nat) (x : Registration) : Prop :=
  ∃ p, a.Occurs es (Registers p x) ∧ a.Occurs es (HandsOver p c x) ∧ a.Occurs es (StartsBridge c p) ∧
    Reply.connectedToService.bytes <+: (b.wires.get c).received

-- A consumer has been told that there is no such service. Nobody has handed over to it, and a provider
-- that still waits leaves as soon as it looks at its lease.
structure TurnedAway (a : Broker) (es : List Event) (b : Broker) (c : Nat) (x : Registration) :
    Prop where
  unserved  : ∀ p, ¬a.Occurs es (HandsOver p c x)
  dismissed : b.Dismissed c .serviceNotFound (.notFound x.name)
  closed    : ∃ hd, b.handles[x.handle]? = some hd ∧ hd.closed = true
  leaves    : ∀ i, b.Idles i x.handle → ∃ b' st, b.turn (.session i) = some b' ∧
    b'.sessions[i]? = some ⟨st, .closing (.regular .providerEvicted) none⟩

theorem Turn.evicts {m : Nat} {t : Instant} (turn : b.Turn i st (.idling h m t) s r hs ws)
    (hh : b.handles[h]? = some hd) (closed : hd.closed = true) :
    s = ⟨st, .closing (.regular .providerEvicted) none⟩ := by
  have awake : ¬b.Calm h := fun calm => by cases closed.symm.trans (calm hd hh).left
  cases turn
  case evicted => rfl
  case handsOver «open» _ handle | offers «open» _ handle =>
    cases hh.symm.trans handle
    cases closed.symm.trans «open»
  all_goals exact absurd ‹b.Calm h› awake

theorem Idles.evicted (hi : b.Idles i h) (hh : b.handles[h]? = some hd) (closed : hd.closed = true) :
    ∃ b' st, b.turn (.session i) = some b' ∧
      b'.sessions[i]? = some ⟨st, .closing (.regular .providerEvicted) none⟩ := by
  have ⟨st, m, t, own⟩ := hi
  have ⟨b', turns, _⟩ := hi.wakesNext hh (.inl closed)
  obtain ⟨s, own', s', r, hds, ws, turn, rfl⟩ := turn_turns turns
  cases own.symm.trans own'
  exact ⟨_, st, turns, turn.evicts hh closed ▸ getElem?_after own⟩

-- Every claim is answered in time, and in one way: the provider hands its connection over and the two
-- are bridged, or the consumer is told that there is no such service and the provider, whatever it has
-- done meanwhile, does not stay behind.
theorem every_claim_answered
    (before : (fresh config policy).run? es = some b₀) (claim : b₀.step? e = some b₁)
    (removes : Removes c x b₀ e b₁) (after : b₁.run? fs = some b) (stays : .abort c ∉ fs)
    (accepts : b₁.Throughout (Answerable c) fs) (prompt : ¬b₁.Occurs fs (Oversleeps (.session c)))
    (due : b₀.clock + config.identificationTimeout.nanos < b.clock ∨
      b₀.clock + config.identificationTimeout.nanos ≤ b.clock ∧ b.turn (.session c) = none) :
    (Served (fresh config policy) (es ++ e :: fs) b c x ∨
      TurnedAway (fresh config policy) (es ++ e :: fs) b c x) ∧
    ¬(Served (fresh config policy) (es ++ e :: fs) b c x ∧
      TurnedAway (fresh config policy) (es ++ e :: fs) b c x) := by
  have run : (fresh config policy).run? (es ++ e :: fs) = some b := by
    rw [run?_append, before]
    exact (congrArg (Option.bind · _) claim).trans after
  have sound := Sound.of_run run
  have unshut : b.Unshut := Unshut.of_run run
  have answers : Answerable c b := accepts.last after
  have pursued := Pursued.of_run before removes claim after stays accepts prompt
  constructor
  case right =>
    rintro ⟨⟨p, _, handed, _⟩, away⟩
    exact away.unserved p handed
  case left =>
    cases pursued
    case waits own time given =>
      obtain late | ⟨late, rests⟩ := due
      · exact absurd time (Nat.not_le_of_lt late)
      · exact absurd rests (turn_of_claiming own late)
    case connects own time handed =>
      obtain late | ⟨late, rests⟩ := due
      · exact absurd time (Nat.not_le_of_lt late)
      · exact absurd rests (turn_of_connecting sound answers unshut own)
    case bridged p handed starts =>
      have ⟨_, paired⟩ := (linked_of_run run starts).paired (.of_run run) sound.wired
      exact .inl ⟨p, (occurs_of_handsOver handed).left, handed, starts, paired.connected⟩
    case refused f time closed unserved =>
      have ⟨hd, hh, asked⟩ := closed
      have late : b₀.clock + config.identificationTimeout.nanos < b.clock ∨ b.turn (.session c) = none :=
        due.imp_right And.right
      have dismissed := f.dismissed_of_late sound answers unshut time late
      exact .inr ⟨unserved, dismissed, closed, fun i hi => hi.evicted hh asked⟩

def calling : List Event :=
  [.accept {} {}, .change 0 .stall, .change 0 (.send (Bytes.ofText "REGISTER:cam1\n")),
    .turn (.session 0), .accept {} {}, .change 1 (.send (Bytes.ofText "REQUEST:cam1\n"))]

def givingUp : List Event :=
  [.wait 30000000000, .turn (.session 1), .turn (.session 1), .turn (.session 1), .turn (.session 1)]

def cam1 : Name := ⟨"cam1", by decide⟩

theorem every_claim_answered_stalled :
    ∃ b, (fresh {} Policy.allowAll).run? (calling ++ .turn (.session 1) :: givingUp) = some b ∧
      b.clock = 30000000000 ∧
      (b.wires.get 1).received = Bytes.ofText "ERROR:Service not found\n" ∧
      TurnedAway (fresh {} Policy.allowAll) (calling ++ .turn (.session 1) :: givingUp) b 1 ⟨0, cam1⟩ := by
  have called : ∃ b, (fresh {} Policy.allowAll).run? calling = some b ∧
      (b.sessions[1]?, b.registry, b.clock) =
        (some ⟨{ wire := 1 }, .identifying {} 30000000000⟩, ⟨[⟨0, cam1⟩]⟩, 0) :=
    Option.map_eq_some_iff.mp (by decide +kernel)
  obtain ⟨b₀, before, was⟩ := called
  obtain ⟨own, registry, clock⟩ := by simpa only [Prod.mk.injEq] using was
  have claimed : ∃ b,
      (fresh {} Policy.allowAll).run? (calling ++ [.turn (.session 1)]) = some b ∧ b.registry = {} :=
    Option.map_eq_some_iff.mp (by decide +kernel)
  obtain ⟨b₁, here, erased⟩ := claimed
  have claim : b₀.step? (.turn (.session 1)) = some b₁ := run?_snoc before ▸ here
  have removes : Removes 1 ⟨0, cam1⟩ b₀ (.turn (.session 1)) b₁ :=
    ⟨rfl, stake_of own, by rw [registry]; decide +kernel, by rw [erased, registry]; decide +kernel⟩
  have refused : ∃ b,
      (fresh {} Policy.allowAll).run? (calling ++ .turn (.session 1) :: givingUp) = some b ∧
        (b.clock, (b.wires.get 1).received, (b.turn (.session 1)).isNone) =
          (30000000000, Bytes.ofText "ERROR:Service not found\n", true) :=
    Option.map_eq_some_iff.mp (by decide +kernel)
  obtain ⟨b, run, later⟩ := refused
  obtain ⟨due, received, rests⟩ := by simpa only [Prod.mk.injEq] using later
  have after : b₁.run? givingUp = some b := by
    rwa [List.append_cons, run?_append, here] at run
  have accepts : b₁.Throughout (Answerable 1) givingUp :=
    (throughout_of_all (Q := fun b => (b.wires.get 1).Accepts) here (by decide +kernel)).imp
      fun _ accepts _ _ _ => accepts
  have prompt : b₁.isPrompt givingUp = true := by
    have whole : (fresh {} Policy.allowAll).isPrompt
        ((calling ++ [.turn (.session 1)]) ++ givingUp) = true := by decide +kernel
    rw [isPrompt_append here, Bool.and_eq_true] at whole
    exact whole.right
  obtain ⟨answered, _⟩ := every_claim_answered before claim removes after (by decide) accepts
    (not_oversleeps_of_isPrompt after prompt)
    (.inr ⟨by rw [clock, due]; decide, Option.isNone_iff_eq_none.mp rests⟩)
  refine ⟨b, run, due, received, answered.resolve_left ?_⟩
  rintro ⟨_, _, _, _, connected⟩
  rw [received] at connected
  exact absurd connected (by decide +kernel)

end Broker
end Rendezvous
