import Rendezvous.Proofs.Deliveries
import Rendezvous.Proofs.KeepAlive
import Rendezvous.Proofs.Lapses

namespace Rendezvous

theorem Handle.closed_dropLease {hd : Handle} : hd.dropLease.closed = hd.closed := by
  unfold dropLease
  split <;> rfl

theorem Handle.closed_take {hd : Handle} : hd.take.2.closed = hd.closed := by
  unfold take
  repeat' split
  all_goals rfl

theorem Handle.closed_abandonTake {hd : Handle} : hd.abandonTake.2.closed = hd.closed := by
  unfold abandonTake
  split <;> rfl

theorem Handle.take_of_unmade {hd : Handle} («open» : hd.closed = false) (unmade : hd.claim = .unmade)
    (leased : hd.leased = true) : hd.take.1 = true := by
  simp [take, «open», unmade, leased]

namespace Broker

variable {b b' : Broker} {e : Event} {es : List Event} {config : Config} {policy : Policy}
variable {c h i p q : Nat} {n : Name} {x y : Registration} {s s' : Stake} {r : Registry}
variable {hs : List Handle} {hd hd' : Handle}

def StopsWaiting (c : Nat) (x : Registration) : Happening := fun b e b' =>
  e = .turn (.session c) ∧
    (∃ st due, b.sessions[c]? = some ⟨st, .claiming x.handle x.name due⟩ ∧ due ≤ b.clock) ∧
    (∃ hd, b.handles[x.handle]? = some hd ∧ hd.taking = .waiting) ∧
    ∃ hd, b'.handles[x.handle]? = some hd ∧ hd.closed = true

theorem open_of_modify {f : Handle → Handle} (hf : ∀ hd, (f hd).closed = hd.closed)
    (hh : hs[h]? = some hd) («open» : hd.closed = false) (hh' : (hs.modify i f)[h]? = some hd') :
    hd'.closed = false := by
  obtain ⟨-, hd₀, h₀, rfl⟩ | ⟨-, h₀⟩ := of_getElem?_modify hh'
  all_goals cases hh.symm.trans h₀
  · exact (hf hd).trans «open»
  · exact «open»

theorem stopsWaiting_of_step (next : b.step? e = some b') (place : e.place? = some c)
    (waits : b.stake c = some (.claims h n)) (free : b'.stake c = some .free)
    (hh : b.handles[h]? = some hd) (unanswered : hd.taking = .waiting)
    (hh' : b'.handles[h]? = some hd') (closed : hd'.closed = true) : StopsWaiting c ⟨h, n⟩ b e b' := by
  cases step_of_step? next <;> cases place
  case spare => cases waits.symm.trans free
  case abort own =>
    rw [dropped, stake_of (getElem?_after own)] at free
    cases free
  case turn s s' r hs ws own turn =>
    rw [stake_of own, Option.some.injEq] at waits
    rw [stake_of (getElem?_after own), Option.some.injEq] at free
    obtain ⟨st, ph⟩ := s
    cases ph <;> cases waits
    case claiming due =>
      cases turn
      case picksUp => cases free
      case givesUp late =>
        have event := congrArg Event.turn (session_of_turn own next rfl)
        exact ⟨event, ⟨st, due, own, late⟩, ⟨hd, hh, unanswered⟩, hd', hh', closed⟩
      case despairs nothing => simp [Handle.taking, nothing hd hh] at unanswered

-- An open handle with a provider is closed for one of two reasons. A request does not fail while the
-- provider is there, and a consumer that finds nothing any more has been left by the provider.
theorem closed_cause (sound : b.Sound) (next : b.step? e = some b') (hp : b.stake p = some (.provides h))
    (hh : b.handles[h]? = some hd) («open» : hd.closed = false) (hh' : b'.handles[h]? = some hd')
    (closed : hd'.closed = true) :
    Displaces ⟨h, hd.name⟩ b e b' ∨ ∃ c, StopsWaiting c ⟨h, hd.name⟩ b e b' := by
  have tended := sound.tended
  have ⟨hd₁, h₁, leased, attended⟩ := tended.leased hp
  cases hh.symm.trans h₁
  have stays (same : some hd = some hd') : False := by
    rw [← Option.some.inj same, «open»] at closed
    cases closed
  cases (step_of_step? next).shift sound.wired
  case rests registry handles kept fresh => exact (stays (hh.symm.trans (handles ▸ hh'))).elim
  case moves i s s' place before move after others =>
    generalize hr : b'.registry = r, hb : b'.handles = hds at move hh'
    have keeps {f : Handle → Handle} {j : Nat} (hh' : (b.handles.modify j f)[h]? = some hd')
        (hf : ∀ hd, (f hd).closed = hd.closed) : False := by
      cases (open_of_modify hf hh «open» hh').symm.trans closed
    cases move
    case stays | refuses | ends => exact (stays (hh.symm.trans hh')).elim
    case claims                 => exact (keeps hh' fun _ => Handle.closed_take).elim
    case leaves | drops         => exact (keeps hh' fun _ => Handle.closed_dropLease).elim
    case handsOver | offers     => exact (keeps hh' fun _ => rfl).elim
    case picksUp                => exact (keeps hh' fun _ => rfl).elim
    case forgoes                => exact (keeps hh' fun _ => Handle.closed_abandonTake).elim
    case registers n peer =>
      rw [getElem?_closeReplaced_old hh] at hh'
      split at hh'
      case isFalse => exact (stays hh').elim
      case isTrue replaced =>
        obtain ⟨y, found, rfl⟩ := Option.map_eq_some_iff.mp replaced
        obtain rfl := Registry.name_eq_of_find? found
        have ⟨hd₂, h₂, named, _⟩ := tended.enrolled (Registry.mem_of_find? found)
        cases hh.symm.trans h₂
        rw [named]
        exact .inl ⟨i, ⟨b.handles.length, y.name⟩, ⟨place, before, after, rfl, hr⟩, rfl, found⟩
    case misses n y found take =>
      rw [List.modify_modify_eq] at hh'
      obtain ⟨rfl, -⟩ | ⟨-, same⟩ := of_getElem?_modify hh'
      · have ⟨hd₂, h₂, _, _, unmade⟩ := tended.enrolled (Registry.mem_of_find? found)
        cases hh.symm.trans h₂
        cases (take hd hh).symm.trans (Handle.take_of_unmade «open» unmade leased)
      · exact (stays (hh.symm.trans same)).elim
    case givesUp h' n hd₀ handle waits =>
      have now := hh'
      rw [List.modify_modify_eq] at hh'
      obtain ⟨rfl, -⟩ | ⟨-, same⟩ := of_getElem?_modify hh'
      · cases hh.symm.trans handle
        have ⟨hd₂, h₂, named, _⟩ := tended.claimed before
        cases hh.symm.trans h₂
        rw [named]
        exact .inr ⟨i, stopsWaiting_of_step next place before after hh waits (hb ▸ now) closed⟩
      · exact (stays (hh.symm.trans same)).elim
    case despairs h' n nothing =>
      obtain ⟨rfl, -⟩ | ⟨-, same⟩ := of_getElem?_modify hh'
      · have settled := nothing hd hh
        obtain listed | shut | ⟨w, asked⟩ := attended
        · have ⟨hd₂, h₂, _, _, unmade⟩ := tended.enrolled listed
          cases hh.symm.trans h₂
          cases settled.symm.trans unmade
        · cases shut.symm.trans «open»
        · cases settled.symm.trans asked
      · exact (stays (hh.symm.trans same)).elim

theorem occurs_of_closed (run : (fresh config policy).run? es = some b)
    (hp : b.stake p = some (.provides h)) (hh : b.handles[h]? = some hd) (closed : hd.closed = true) :
    (fresh config policy).Occurs es (Displaces ⟨h, hd.name⟩) ∨
      ∃ c, (fresh config policy).Occurs es (StopsWaiting c ⟨h, hd.name⟩) := by
  refine run_induction (P := fun es b => ∀ hd, b.stake p = some (.provides h) →
    b.handles[h]? = some hd → hd.closed = true →
      (fresh config policy).Occurs es (Displaces ⟨h, hd.name⟩) ∨
        ∃ c, (fresh config policy).Occurs es (StopsWaiting c ⟨h, hd.name⟩))
    (fun _ hp => by cases hp) ?_ run hd hp hh closed
  intro es b e b' run hi next hd' hp' hh' closed
  have sound := Sound.of_run run
  have step := step_of_step? next
  have now {q : Happening} (hq : q b e b') : (fresh config policy).Occurs (es ++ [e]) q :=
    (occurs_snoc run).mpr <| .inr ⟨b', next, hq⟩
  by_cases hp : b.stake p = some (.provides h)
  case pos =>
    have ⟨hd, hh, _⟩ := sound.tended.leased hp
    have ⟨hd₁, h₁, follows⟩ := (step.shift sound.wired).trails _ _ hh
    cases hh'.symm.trans h₁
    rw [follows.name]
    cases ho : hd.closed
    case true =>
      obtain displaces | ⟨c, stops⟩ := hi hd hp hh ho
      · exact .inl displaces.append
      · exact .inr ⟨c, stops.append⟩
    case false =>
      obtain displaces | ⟨c, stops⟩ := closed_cause sound next hp hh ho hh' closed
      · exact .inl (now displaces)
      · exact .inr ⟨c, now stops⟩
  case neg =>
    -- A provider that has just registered has not been asked to leave.
    cases step.shift sound.wired
    case rests registry handles kept fresh => exact absurd ((fresh hp').resolve_right nofun) hp
    case moves i s s' place before move after others =>
      have hi : p = i := Decidable.byContradiction fun ne => hp ((others ne).symm.trans hp')
      subst hi
      obtain ⟨rfl, -⟩ | ⟨-, -, hd, hh, -, hr⟩ := move.provides (Option.some.inj <| after.symm.trans hp')
      · exact absurd before hp
      · cases hh.symm.trans hh'
        have listed := Registry.mem_register (r := b.registry).mpr (.inl (Eq.refl ⟨h, hd'.name⟩))
        have ⟨hd₁, h₁, _, ho, _⟩ := (sound.step step).tended.enrolled (hr ▸ listed)
        cases hh'.symm.trans h₁
        cases ho.symm.trans closed

theorem StopsWaiting.claims (run : (fresh config policy).run? es = some b)
    (stops : StopsWaiting c x b e b') :
    (fresh config policy).Occurs es (Claims c x) :=
  have ⟨_, ⟨_, _, own, _⟩, _⟩ := stops
  occurs_claims run (stake_of own)

theorem closed_of_displaces (run : (fresh config policy).run? es = some b)
    (displaces : (fresh config policy).Occurs es (Displaces x)) :
    ∃ hd, b.handles[x.handle]? = some hd ∧ hd.closed = true := by
  obtain ⟨before, b₁, e, b₂, run₁, next, reach, q, y, registers, named, found⟩ := displaces.within run
  have sound := Sound.of_run run₁
  have step := step_of_step? next
  have ⟨peer, handles⟩ := registers.handles sound step
  have ⟨hd, hh, _⟩ := sound.tended.enrolled (Registry.mem_of_find? found)
  have shut : b₂.handles[x.handle]? = some hd.close := by
    rw [handles, getElem?_closeReplaced_old hh, named, found]
    simp
  have ⟨hd', hh', follows⟩ := (sound.step step).trails reach _ _ shut
  exact ⟨hd', hh', follows.closed rfl⟩

-- No registration changes anything for a provider that has been claimed.
theorem untouched_of_removes (run : (fresh config policy).run? es = some b)
    (removes : (fresh config policy).Occurs es (Removes c x)) (next : b.step? e = some b')
    (registers : Registers q y b e b') : b'.handles[x.handle]? = b.handles[x.handle]? := by
  have ⟨lt, lacks⟩ := lacks_of_lapses run (removes.mono Removes.lapses)
  have hh := List.getElem?_eq_getElem lt
  rw [hh]
  exact registers.getElem? (Sound.of_run run) (step_of_step? next) hh fun z found =>
    lacks z (Registry.mem_of_find? found)

theorem occurs_removes (run : (fresh config policy).run? es = some b)
    (claimed : b.EndsAs p .providerClaimed) :
    ∃ c x, (fresh config policy).Occurs es (Registers p x) ∧
      (fresh config policy).Occurs es (Removes c x) := by
  obtain ⟨before, e, after, b₁, b₂, rfl, run₁, -, quits⟩ := occurs_quits run claimed
  cases quits
  case claimed st h m t hd w own handle «open» claim =>
    have hp : b₁.stake p = some (.provides h) := stake_of own
    have ⟨hd₁, h₁, registers⟩ := occurs_registers run₁ hp
    have ⟨hd₂, h₂, gone⟩ := registered_of_provides run₁ hp
    cases handle.symm.trans h₁
    cases handle.symm.trans h₂
    obtain listed | displaces | ⟨c, removes⟩ := gone
    · have ⟨hd₃, h₃, _, _, unmade⟩ := (Sound.of_run run₁).tended.enrolled listed
      cases handle.symm.trans h₃
      cases claim.symm.trans unmade
    · have ⟨hd₃, h₃, closed⟩ := closed_of_displaces run₁ displaces
      cases handle.symm.trans h₃
      cases closed.symm.trans «open»
    · exact ⟨c, _, registers.append, removes.append⟩

-- A provider that is asked to leave has been replaced, or its consumer has waited for too long.
theorem occurs_cause_of_evicted (run : (fresh config policy).run? es = some b)
    (evicted : b.EndsAs p .providerEvicted) :
    ∃ x, (fresh config policy).Occurs es (Registers p x) ∧
      ((fresh config policy).Occurs es (Displaces x) ∨
        ∃ c, (fresh config policy).Occurs es (Claims c x) ∧
          (fresh config policy).Occurs es (StopsWaiting c x)) := by
  obtain ⟨before, e, after, b₁, b₂, rfl, run₁, -, quits⟩ := occurs_quits run evicted
  cases quits
  case evicted st h m t hd own handle closed =>
    have hp : b₁.stake p = some (.provides h) := stake_of own
    have ⟨hd₁, h₁, registers⟩ := occurs_registers run₁ hp
    cases handle.symm.trans h₁
    refine ⟨_, registers.append, ?_⟩
    obtain displaces | ⟨c, stops⟩ := occurs_of_closed run₁ hp handle closed
    · exact .inl displaces.append
    · exact .inr ⟨c, (stops.of_before fun run _ stops => stops.claims run).append, stops.append⟩

theorem Registers.lacks (registers : Registers q y b e b') (sound : b.Sound) (step : b.Step e b')
    (lt : x.handle < b.handles.length) (named : y.name = x.name)
    (here : x ∈ b.registry.entries ∨ b.registry.Lacks x.handle) : b'.registry.Lacks x.handle := by
  obtain hx | lacks := here
  · have displaces : Displaces x b e b' :=
      ⟨q, y, registers, named, sound.tended.unique.find?_of_mem hx⟩
    exact (displaces.lapses sound.tended).lacks sound step
  · exact lacks_step lacks sound lt step

theorem last_of_registered (run : (fresh config policy).run? es = some b)
    (registers : (fresh config policy).Occurs es (Registers p x)) (hx : x ∈ b.registry.entries) :
    ∃ before e after b₁ b₂, es = before ++ e :: after ∧ (fresh config policy).run? before = some b₁ ∧
      b₁.step? e = some b₂ ∧ Registers p x b₁ e b₂ ∧
      ∀ q y, y.name = x.name → ¬b₂.Occurs after (Registers q y) := by
  obtain ⟨before, e, after, b₁, b₂, rfl, run₁, next, registers⟩ := registers
  refine ⟨before, e, after, b₁, b₂, rfl, run₁, next, registers, ?_⟩
  rintro q y named ⟨fs, f, gs, c, c', rfl, run₂, next', again⟩
  have sound₂ := (Sound.of_run run₁).step (step_of_step? next)
  have listed : x ∈ b₂.registry.entries := by
    have ⟨_, _, _, _, hr⟩ := registers
    exact hr ▸ Registry.mem_register.mpr (.inl rfl)
  have reach : b₂.Reaches c := .of_run run₂
  have sound : c.Sound := Sound.of_reaches (((Reaches.of_run run₁).trans (.of_step next)).trans reach)
  have step := step_of_step? next'
  have ⟨_, hh, _⟩ := sound₂.trails reach _ _ (List.getElem?_eq_getElem (sound₂.tended.handle_lt listed))
  have lt := (List.getElem?_eq_some_iff.mp hh).choose
  have lacks := again.lacks sound step lt named (mem_or_lacks sound₂ reach listed)
  have ⟨_, hh', _⟩ := (step.shift sound.wired).trails _ _ hh
  rw [run?_append, run₁, Option.bind_some, run?_cons, next, Option.bind_some, run?_append, run₂,
    Option.bind_some, run?_cons, next', Option.bind_some] at run
  exact lacks_of_reaches (sound.step step) (.of_run run) (List.getElem?_eq_some_iff.mp hh').choose lacks
    x hx rfl

-- Who is replaced stays so: its connection is not handed over, and it is sent nothing but its reply. Who
-- has been claimed is not replaced any more. Whoever is asked to leave has been replaced or given up on,
-- and whoever is told of a claim has been taken out of the registry by a consumer. Of all who have
-- registered a name the one that is registered is the last, and it has not been asked to leave.
theorem evictions_final_and_justified (run : (fresh config policy).run? es = some b) :
    (∀ p x, (fresh config policy).Occurs es (Registers p x) →
      (fresh config policy).Occurs es (Displaces x) →
      (∀ c y, ¬(fresh config policy).Occurs es (HandsOver p c y)) ∧
      (∃ reply ∈ Reply.standing, (b.wires.get p).received <+: reply.bytes) ∧
      ∀ w, (∃ reply ∈ Reply.standing, (b.wires.get w).received <+: reply.bytes) ∨
        ∃ c q n, c ≠ p ∧ q ≠ p ∧ (w = c ∨ w = q) ∧
          Paired (fun w => (fresh config policy).sent w es) b.wires c q n) ∧
    (∀ c x, (fresh config policy).Occurs es (Removes c x) →
      ¬(fresh config policy).Occurs es (Displaces x) ∧
      ∀ q y e b', b.step? e = some b' → Registers q y b e b' →
        b'.handles[x.handle]? = b.handles[x.handle]?) ∧
    (∀ p, b.EndsAs p .providerEvicted → ∃ x, (fresh config policy).Occurs es (Registers p x) ∧
      ((fresh config policy).Occurs es (Displaces x) ∨
        ∃ c, (fresh config policy).Occurs es (Claims c x) ∧
          (fresh config policy).Occurs es (StopsWaiting c x))) ∧
    (∀ p, b.EndsAs p .providerClaimed → ∃ c x, (fresh config policy).Occurs es (Registers p x) ∧
      (fresh config policy).Occurs es (Removes c x)) ∧
    ∀ p x, (fresh config policy).Occurs es (Registers p x) → x ∈ b.registry.entries →
      (∃ hd, b.handles[x.handle]? = some hd ∧ hd.closed = false) ∧
      (∀ q y, (fresh config policy).Occurs es (Registers q y) → y.name = x.name →
        y ∈ b.registry.entries → q = p ∧ y = x) ∧
      ∃ before e after b₁ b₂, es = before ++ e :: after ∧
        (fresh config policy).run? before = some b₁ ∧ b₁.step? e = some b₂ ∧ Registers p x b₁ e b₂ ∧
        ∀ q y, y.name = x.name → ¬b₂.Occurs after (Registers q y) := by
  have sound := Sound.of_run run
  refine ⟨fun p x registers displaces => ?_, fun c x removes => ?_,
    fun p evicted => occurs_cause_of_evicted run evicted, fun p claimed => occurs_removes run claimed,
    fun p x registers hx => ?_⟩
  case refine_1 =>
    have kept c y : ¬(fresh config policy).Occurs es (HandsOver p c y) := by
      intro handed
      obtain rfl := registers_once (occurs_of_handsOver handed).left registers
      exact not_handsOver_of_displaces displaces handed
    exact ⟨kept, received_of_not_handsOver run registers kept⟩
  case refine_2 =>
    exact ⟨fun displaces => not_removes_of_displaces displaces removes,
      fun q y e b' next registers => untouched_of_removes run removes next registers⟩
  case refine_3 =>
    have ⟨hd, hh, _, «open», _⟩ := sound.tended.enrolled hx
    refine ⟨⟨hd, hh, «open»⟩, fun q y again named hy => ?_, last_of_registered run registers hx⟩
    obtain rfl := sound.tended.unique.eq_of_name_eq hy hx named
    exact ⟨registers_alone again registers rfl, rfl⟩

def contending : List Event :=
  registering ++ [.accept {} {}, .change 1 (.send (Bytes.ofText "REGISTER:cam1\n")),
    .turn (.session 1), .turn (.session 0), .turn (.session 0), .turn (.session 1), .turn (.session 1),
    .accept {} {}, .change 2 (.send (Bytes.ofText "REQUEST:cam1\n")), .turn (.session 2), .accept {} {},
    .change 3 (.send (Bytes.ofText "REGISTER:cam1\n")), .turn (.session 3), .turn (.session 1)]

theorem evictions_final_and_justified_contending :
    ∃ b, (fresh {} Policy.allowAll).run? contending = some b ∧
      ((fresh {} Policy.allowAll).Occurs contending (Displaces ⟨0, cam1⟩) ∧ b.EndsAs 0 .providerEvicted ∧
        ∀ c y, ¬(fresh {} Policy.allowAll).Occurs contending (HandsOver 0 c y)) ∧
      (b.EndsAs 1 .providerClaimed ∧ ∃ c y, (fresh {} Policy.allowAll).Occurs contending (Registers 1 y) ∧
        (fresh {} Policy.allowAll).Occurs contending (Removes c y) ∧
        ¬(fresh {} Policy.allowAll).Occurs contending (Displaces y)) ∧
      ⟨2, cam1⟩ ∈ b.registry.entries ∧
        ∀ q y, (fresh {} Policy.allowAll).Occurs contending (Registers q y) → y.name = cam1 →
          y ∈ b.registry.entries → q = 3 ∧ y = ⟨2, cam1⟩ := by
  have before : ∃ b, (fresh {} Policy.allowAll).run? (contending.take 7) = some b ∧
      (b.sessions.map Session.phase, b.handles.map Handle.name, b.registry) =
        ([.idling 0 0 30000000000, .identifying {} 30000000000], [cam1], ⟨[⟨0, cam1⟩]⟩) :=
    Option.map_eq_some_iff.mp (by decide +kernel)
  have after : ∃ b, (fresh {} Policy.allowAll).run?
      (contending.take 7 ++ [.turn (.session 1)]) = some b ∧ (b.sessions.map Session.phase, b.registry) =
        ([.idling 0 0 30000000000, .welcoming 1 Reply.serviceRegistered.bytes], ⟨[⟨1, cam1⟩]⟩) :=
    Option.map_eq_some_iff.mp (by decide +kernel)
  have last : ∃ b, (fresh {} Policy.allowAll).run? contending = some b ∧
      (b.sessions.map Session.phase, b.handles.map Handle.name, b.registry) =
        ([.ended (.regular .providerEvicted), .ended (.regular .providerClaimed),
          .claiming 1 cam1 30000000000, .welcoming 2 Reply.serviceRegistered.bytes],
          [cam1, cam1, cam1], ⟨[⟨2, cam1⟩]⟩) :=
    Option.map_eq_some_iff.mp (by decide +kernel)
  obtain ⟨b₀, run₀, was⟩ := before
  obtain ⟨b₁, run₁, is⟩ := after
  obtain ⟨b, run, now⟩ := last
  obtain ⟨phases₀, names₀, registry₀⟩ := by simpa only [Prod.mk.injEq] using was
  obtain ⟨phases₁, registry₁⟩ := by simpa only [Prod.mk.injEq] using is
  obtain ⟨phases, names, registry⟩ := by simpa only [Prod.mk.injEq] using now
  have phase {b : Broker} {i : Nat} {ps : List Phase} (h : b.sessions.map Session.phase = ps) :
      b.sessions[i]?.map Session.phase = ps[i]? := by rw [← h, List.getElem?_map]
  have stake {b : Broker} {i : Nat} {ps : List Phase} (h : b.sessions.map Session.phase = ps) :
      b.stake i = ps[i]?.map Phase.stake := by rw [Broker.stake, ← phase h, Option.map_map]; rfl
  have registers {es b p h} (run : (fresh {} Policy.allowAll).run? es = some b)
      (hp : b.stake p = some (.provides h)) (named : (b.handles.map Handle.name)[h]? = some cam1) :
      (fresh {} Policy.allowAll).Occurs es (Registers p ⟨h, cam1⟩) := by
    obtain ⟨hd, hh, registers⟩ := occurs_registers run hp
    rw [List.getElem?_map, hh, Option.map_some, Option.some.injEq] at named
    exact named ▸ registers
  have first : (fresh {} Policy.allowAll).Occurs (contending.take 7 ++ contending.drop 7)
      (Registers 0 ⟨0, cam1⟩) := (registers run₀ (stake phases₀) (by rw [names₀]; rfl)).append
  have last := registers (p := 3) (h := 2) run (stake phases) (by rw [names]; rfl)
  have displaces : (fresh {} Policy.allowAll).Occurs contending (Displaces ⟨0, cam1⟩) := by
    refine ⟨contending.take 7, .turn (.session 1), contending.drop 8, b₀, b₁, rfl, run₀,
      run?_snoc run₀ ▸ run₁, 1, ⟨1, cam1⟩, ⟨rfl, stake phases₀, stake phases₁, ?_, ?_⟩, rfl, ?_⟩
    · rw [← List.length_map Handle.name, names₀]
      rfl
    · rw [registry₀, registry₁]
      decide +kernel
    · rw [registry₀]
      decide +kernel
  have listed : (⟨2, cam1⟩ : Registration) ∈ b.registry.entries := by simp [registry]
  have evicted : b.EndsAs 0 .providerEvicted := endsAs_of_phase (phase phases) rfl
  have claimed : b.EndsAs 1 .providerClaimed := endsAs_of_phase (phase phases) rfl
  obtain ⟨final, safe, -, justified, alone⟩ := evictions_final_and_justified run
  obtain ⟨kept, _⟩ := final 0 _ first displaces
  obtain ⟨c, y, registers, removes⟩ := justified 1 claimed
  exact ⟨b, run, ⟨displaces, evicted, kept⟩, ⟨claimed, c, y, registers, removes, (safe c y removes).left⟩,
    listed, (alone 3 _ last listed).right.left⟩

end Broker
end Rendezvous
