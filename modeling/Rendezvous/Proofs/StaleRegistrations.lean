import Rendezvous.Proofs.Departures

namespace Rendezvous.Broker

variable {config : Config} {policy : Policy} {b b' c : Broker} {e : Event} {es fs : List Event}
variable {i j h : Nat} {q q' : Stake} {r : Registry} {hs : List Handle} {hd : Handle}
variable {x : Registration} {is : List Nat}

theorem unleased_modify {f : Handle → Handle} (hf : ∀ hd, hd.leased = false → (f hd).leased = false)
    (hh : ∃ hd, hs[h]? = some hd ∧ hd.leased = false) :
    ∃ hd, (hs.modify j f)[h]? = some hd ∧ hd.leased = false := by
  have ⟨hd, hh, hl⟩ := hh
  by_cases hj : h = j
  case pos => exact ⟨f hd, hj ▸ getElem?_modify_self (hj ▸ hh), hf hd hl⟩
  case neg => exact ⟨hd, (getElem?_modify_ne hj).trans hh, hl⟩

theorem leased_dropLease (hd : Handle) : hd.dropLease.leased = false := by
  unfold Handle.dropLease
  split <;> rfl

theorem Move.unleased (m : b.Move i e q q' r hs)
    (hh : ∃ hd, b.handles[h]? = some hd ∧ hd.leased = false) :
    ∃ hd, hs[h]? = some hd ∧ hd.leased = false := by
  cases m
  case stays | refuses | ends => exact hh
  case registers n p =>
    have ⟨hd, hh, hl⟩ := hh
    rw [getElem?_closeReplaced_old hh]
    split
    · exact ⟨_, rfl, hl⟩
    · exact ⟨_, rfl, hl⟩
  case claims => exact unleased_modify (fun _ => Handle.leased_take.trans) hh
  case misses =>
    exact unleased_modify (fun _ => id) (unleased_modify (fun _ => Handle.leased_take.trans) hh)
  case leaves | drops => exact unleased_modify (fun hd _ => leased_dropLease hd) hh
  case handsOver | offers => exact unleased_modify (fun _ _ => rfl) hh
  case picksUp | despairs => exact unleased_modify (fun _ => id) hh
  case givesUp =>
    exact unleased_modify (fun _ => id)
      (unleased_modify (fun _ => Handle.leased_abandonTake.trans) hh)
  case forgoes => exact unleased_modify (fun _ => Handle.leased_abandonTake.trans) hh

def Leases (b : Broker) : Prop :=
  ∀ h hd, b.handles[h]? = some hd → hd.leased = true → ∃ i, b.stake i = some (.provides h)

theorem leased_of_modify {f : Handle → Handle} (hf : ∀ hd, (f hd).leased = true → hd.leased = true)
    (hh : ∃ hd, (hs.modify j f)[h]? = some hd ∧ hd.leased = true) :
    ∃ hd, hs[h]? = some hd ∧ hd.leased = true := by
  have ⟨hd', hh', hl⟩ := hh
  obtain ⟨-, hd, hh, rfl⟩ | ⟨-, hh⟩ := of_getElem?_modify hh'
  · exact ⟨hd, hh, hf hd hl⟩
  · exact ⟨hd', hh, hl⟩

theorem leased_of_given_up {f : Handle → Handle} (hf : ∀ hd, (f hd).leased = false)
    (hh : ∃ hd, (hs.modify j f)[h]? = some hd ∧ hd.leased = true) :
    h ≠ j ∧ ∃ hd, hs[h]? = some hd ∧ hd.leased = true := by
  have ⟨hd', hh', hl⟩ := hh
  obtain ⟨-, hd, hh, rfl⟩ | ⟨hj, hh⟩ := of_getElem?_modify hh'
  · rw [hf] at hl
    cases hl
  · exact ⟨hj, hd', hh, hl⟩

theorem Move.leased (m : b.Move i e q q' r hs) (hh : ∃ hd, hs[h]? = some hd ∧ hd.leased = true) :
    q' = .provides h ∨ q ≠ .provides h ∧ ∃ hd, b.handles[h]? = some hd ∧ hd.leased = true := by
  cases m
  case stays =>
    by_cases hq : q = .provides h
    · exact .inl hq
    · exact .inr ⟨hq, hh⟩
  case refuses => exact .inr ⟨nofun, hh⟩
  case ends light => obtain rfl | rfl | ⟨_, rfl⟩ := light <;> exact .inr ⟨nofun, hh⟩
  case registers n p =>
    have ⟨hd', hh', hl⟩ := hh
    have old {hd} (hh : (b.handles ++ [{ name := n, peer := p }])[h]? = some hd)
        (hl : hd.leased = true) :
        Stake.provides b.handles.length = .provides h ∨
          Stake.new ≠ .provides h ∧ ∃ hd, b.handles[h]? = some hd ∧ hd.leased = true := by
      rw [List.getElem?_append] at hh
      split at hh
      case isTrue => exact .inr ⟨nofun, hd, hh, hl⟩
      case isFalse =>
        rw [List.getElem?_singleton] at hh
        split at hh <;> cases hh
        exact .inl (by congr 1; omega)
    rw [getElem?_closeReplaced] at hh'
    split at hh'
    case isTrue =>
      have ⟨hd, hh, he⟩ := Option.map_eq_some_iff.mp hh'
      exact old hh (by rw [← he] at hl; exact hl)
    case isFalse => exact old hh' hl
  case claims => exact .inr ⟨nofun, leased_of_modify (fun _ => Handle.leased_take.symm.trans) hh⟩
  case misses =>
    exact .inr ⟨nofun, leased_of_modify (fun _ => Handle.leased_take.symm.trans)
      (leased_of_modify (f := Handle.close) (fun _ => id) hh)⟩
  case leaves | drops =>
    have ⟨hj, hh⟩ := leased_of_given_up leased_dropLease hh
    exact .inr ⟨fun hq => hj (Stake.provides.inj hq).symm, hh⟩
  case handsOver | offers =>
    have ⟨hj, hh⟩ := leased_of_given_up (fun _ => rfl) hh
    exact .inr ⟨fun hq => hj (Stake.provides.inj hq).symm, hh⟩
  case picksUp => exact .inr ⟨nofun, leased_of_modify (f := Handle.pickUp) (fun _ => id) hh⟩
  case despairs => exact .inr ⟨nofun, leased_of_modify (f := Handle.close) (fun _ => id) hh⟩
  case givesUp =>
    exact .inr ⟨nofun, leased_of_modify (fun _ => Handle.leased_abandonTake.symm.trans)
      (leased_of_modify (f := Handle.close) (fun _ => id) hh)⟩
  case forgoes =>
    exact .inr ⟨nofun, leased_of_modify (fun _ => Handle.leased_abandonTake.symm.trans) hh⟩

theorem Leases.step (l : b.Leases) (w : b.Wired) (h : b.Step e b') : b'.Leases := by
  intro h' hd hh hl
  cases h.shift w
  case rests registry handles kept fresh =>
    have ⟨i, hi⟩ := l h' hd (handles ▸ hh) hl
    exact ⟨i, kept hi⟩
  case moves i q q' place before move after others =>
    obtain rfl | ⟨hq, hd, hh, hl⟩ := move.leased ⟨hd, hh, hl⟩
    · exact ⟨i, after⟩
    · have ⟨j, hj⟩ := l h' hd hh hl
      have ne : j ≠ i := fun he => hq <| Option.some.inj <| before.symm.trans (he ▸ hj)
      exact ⟨j, (others ne).trans hj⟩

theorem Leases.of_run (run : (fresh config policy).run? es = some b) : b.Leases :=
  run_induction (P := fun _ b => b.Leases) (fun _ _ hh => by cases hh)
    (fun run l hs => l.step (Sound.of_run run).wired (step_of_step? hs)) run

theorem Leases.of_reaches (reach : (fresh config policy).Reaches b) : b.Leases :=
  have ⟨_, run⟩ := reach
  .of_run run

def Stale (b : Broker) (x : Registration) : Prop :=
  x ∈ b.registry.entries ∧ ∃ hd, b.handles[x.handle]? = some hd ∧ hd.leased = false

theorem stale_of_unserved (l : b.Leases) (t : b.Tended) (hx : x ∈ b.registry.entries)
    (hn : ∀ i, b.stake i ≠ some (.provides x.handle)) : b.Stale x := by
  have ⟨hd, hh, _⟩ := t.enrolled hx
  refine ⟨hx, hd, hh, Bool.eq_false_iff.mpr fun hl => ?_⟩
  have ⟨i, hi⟩ := l _ hd hh hl
  exact hn i hi

def Clears (x : Registration) : Happening := fun b e b' =>
  ∃ i, e.place? = some i ∧
    ((∃ y, Registers i y b e b' ∧ y.name = x.name) ∨
      b'.registry = b.registry.erase x.name ∧ ∃ st, b'.sessions[i]? =
        some ⟨st, .refusing Reply.serviceNotFound.bytes (.notFound x.name)⟩)

theorem Step.unleased (step : b.Step e b') (w : b.Wired)
    (hh : ∃ hd, b.handles[h]? = some hd ∧ hd.leased = false) :
    ∃ hd, b'.handles[h]? = some hd ∧ hd.leased = false := by
  cases step.shift w
  case rests registry handles kept fresh => exact handles ▸ hh
  case moves move _ _                    => exact move.unleased hh

theorem Stale.unregister (s : b.Stale x) (t : b.Tended) (hi : b.stake i = some (.provides h)) :
    x ∈ (b.unregister h).registry.entries := by
  have ⟨hx, hd, hh, hl⟩ := s
  have ⟨hd', hh', hl', _⟩ := t.leased hi
  refine (t.mem_unregister hh').mpr ⟨hx, fun he => ?_⟩
  cases (he.right ▸ hh).symm.trans hh'
  cases hl.symm.trans hl'

theorem Stale.step (s : b.Stale x) (sound : b.Sound) (step : b.Step e b') :
    b'.Stale x ∨ Clears x b e b' := by
  have ⟨hx, unleased⟩ := s
  refine Or.imp_left (fun hx => ⟨hx, step.unleased sound.wired unleased⟩) ?_
  cases step
  case turn k s₀ s' r hs ws hi t =>
    obtain ⟨st, ph⟩ := s₀
    have stake := stake_of hi
    have found : b.registry.find? x.name = some x := sound.tended.unique.find?_of_mem hx
    cases t
    case registers n command policy hears =>
      by_cases hn : x.name = n
      case pos =>
        refine .inr ⟨k.place, rfl, .inl ⟨⟨b.handles.length, n⟩, ⟨rfl, stake, ?_, rfl, rfl⟩, hn.symm⟩⟩
        exact stake_of (getElem?_after hi)
      case neg => exact .inl <| Registry.mem_register.mpr <| .inr ⟨hx, hn⟩
    case claims n y hd command policy found' handle take hears =>
      refine .inl <| Registry.mem_erase.mpr ⟨hx, fun hn => ?_⟩
      -- A request that can be answered needs a provider with its lease.
      subst hn
      cases found.symm.trans found'
      have ⟨hd', hh', hl⟩ := unleased
      cases handle.symm.trans hh'
      cases hl.symm.trans (Handle.take_eq take).right.right.left
    case misses n y command policy found' take hears =>
      by_cases hn : x.name = n
      case pos =>
        subst hn
        exact .inr ⟨k.place, rfl, .inr ⟨rfl, _, getElem?_after hi⟩⟩
      case neg => exact .inl <| Registry.mem_erase.mpr ⟨hx, hn⟩
    case unheard | evicted | leaves | timesOut | overflowed =>
      exact .inl <| s.unregister sound.tended stake
    all_goals exact .inl hx
  case accept | change | abort | spare | wait => exact .inl hx

theorem Stale.stays_or_cleared (s : b.Stale x) (reach : (fresh config policy).Reaches b)
    (run : b.run? fs = some c) : c.Stale x ∨ b.Occurs fs (Clears x) := by
  refine run_induction (P := fun fs c => c.Stale x ∨ b.Occurs fs (Clears x)) (.inl s) ?_ run
  intro fs c e c' run hi hs
  have sound := Sound.of_reaches (reach.trans (.of_run run))
  obtain hi | ho := hi
  · exact (hi.step sound (step_of_step? hs)).imp_right fun hc =>
      (occurs_snoc run).mpr <| .inr ⟨c', hs, hc⟩
  · exact .inr ho.append

@[simp]
theorem registry_release {p : Phase} : (b.release p).registry = b.registry := by
  rw [release_eq]

@[simp]
theorem registry_abort : (b.abort i).registry = b.registry := by
  unfold abort
  split
  · rfl
  · split
    · rfl
    · exact registry_release

theorem ended_of_abort (sound : b.Sound) (hi : i < b.sessions.length) :
    (b.abort i).stake i = some .ended := by
  have step : b.Step (.abort i) (b.abort i) := step_of_step? rfl
  have hs := List.getElem?_eq_getElem hi
  by_cases hq : b.sessions[i].phase.stake = .ended
  case pos => exact (step.shift sound.wired).ended (stake_eq_some.mpr ⟨_, hs, hq⟩)
  case neg =>
    have ⟨st, dropped⟩ := isDropped_of_abort step hs hq
    exact stake_of dropped

-- Nobody else has held the lease that a session gives up.
theorem unserved_of_ended (t : b.Tended) (shift : b.Shift (.abort i) b')
    (hi : b.stake i = some (.provides h)) (he : b'.stake i = some .ended) :
    b'.stake j ≠ some (.provides h) := by
  intro hj
  have ne : j ≠ i := fun hji => by cases (hji ▸ hj).symm.trans he
  cases shift
  case rests registry handles kept fresh => cases (kept hi).symm.trans he
  case moves place before move after others =>
    cases place
    exact ne (t.alone ((others ne).symm.trans hj) hi)

theorem run?_aborts : b.run? (is.map .abort) = some (is.foldl abort b) := by
  induction is generalizing b
  case nil       => rfl
  case cons i is hi => exact hi

theorem length_abort : (b.abort i).sessions.length = b.sessions.length := by
  have step : b.Step (.abort i) (b.abort i) := step_of_step? rfl
  generalize b.abort i = b' at step
  cases step
  case abort => exact List.length_set
  case spare => rfl

theorem registry_aborts : (is.foldl abort b).registry = b.registry := by
  induction is generalizing b
  case nil       => rfl
  case cons i is hi => exact hi.trans registry_abort

theorem ended_of_aborts (sound : b.Sound) (hj : b.stake j = some .ended ∨ j ∈ is)
    (hl : j < b.sessions.length) : (is.foldl abort b).stake j = some .ended := by
  induction is generalizing b
  case nil => exact hj.resolve_right List.not_mem_nil
  case cons i is hi =>
    have step : b.Step (.abort i) (b.abort i) := step_of_step? rfl
    refine hi (sound.step step) ?_ (by rwa [length_abort])
    obtain hj | hj := hj
    · exact .inl <| (step.shift sound.wired).ended hj
    · obtain rfl | hj := List.mem_cons.mp hj
      · exact .inl <| ended_of_abort sound hl
      · exact .inr hj

theorem length_aborts : (is.foldl abort b).sessions.length = b.sessions.length := by
  induction is generalizing b
  case nil       => rfl
  case cons i is hi => exact hi.trans length_abort

theorem registry_shutdown : b.shutdown.registry = b.registry := registry_aborts

theorem reaches_shutdown : b.Reaches b.shutdown := .of_run run?_aborts

theorem ended_of_shutdown (sound : b.Sound) (h : b.shutdown.stake j = some q) : q = .ended := by
  have ⟨_, hs, _⟩ := stake_eq_some.mp h
  have hl : j < b.sessions.length := length_aborts (b := b) ▸ (List.getElem?_eq_some_iff.mp hs).choose
  exact Option.some.inj <| h.symm.trans <|
    ended_of_aborts sound (.inr (List.mem_range.mpr hl)) hl

-- Dropping a provider's session leaves the registry as it was. So a provider that was registered stays
-- registered, until its name is registered anew or somebody asks for it and is turned away; and a
-- shutdown of the broker leaves behind all that was registered with it.
theorem dropped_providers_stay_registered (run : (fresh config policy).run? es = some b) :
    (∀ i h, b.stake i = some (.provides h) → ∃ b', b.step? (.abort i) = some b' ∧ b'.IsDropped i ∧
      b'.registry = b.registry ∧ ∀ x ∈ b.registry.entries, x.handle = h →
        ∀ fs c, b'.run? fs = some c → c.Stale x ∨ b'.Occurs fs (Clears x)) ∧
    b.Reaches b.shutdown ∧ b.shutdown.registry = b.registry ∧
    (∀ i q, b.shutdown.stake i = some q → q = .ended) ∧
    ∀ x ∈ b.registry.entries, ∀ fs c, b.shutdown.run? fs = some c →
      c.Stale x ∨ b.shutdown.Occurs fs (Clears x) := by
  have sound := Sound.of_run run
  have leases := Leases.of_run run
  refine ⟨fun i h hi => ?_, reaches_shutdown, registry_shutdown, fun _ _ => ended_of_shutdown sound,
    fun x hx fs c later => ?_⟩
  case refine_1 =>
    have step : b.Step (.abort i) (b.abort i) := step_of_step? rfl
    have ⟨s, hs, hq⟩ := stake_eq_some.mp hi
    have dropped := isDropped_of_abort step hs (hq ▸ nofun)
    refine ⟨b.abort i, rfl, dropped, registry_abort, fun x hx he fs c later => ?_⟩
    refine Stale.stays_or_cleared ?_ ((Reaches.of_run run).trans (.of_step (e := .abort i) rfl)) later
    have ⟨_, ended⟩ := dropped
    refine stale_of_unserved (leases.step sound.wired step) (sound.step step).tended
      (by rwa [registry_abort]) fun j => ?_
    rw [he]
    exact unserved_of_ended sound.tended (step.shift sound.wired) hi (stake_of ended)
  case refine_2 =>
    have reach := (Reaches.of_run run).trans reaches_shutdown
    refine Stale.stays_or_cleared ?_ reach later
    refine stale_of_unserved (.of_reaches reach) (Sound.of_reaches reach).tended
      (by rwa [registry_shutdown]) fun i hi => ?_
    cases ended_of_shutdown sound hi

theorem run_registering :
    ∃ b x, (fresh {} Policy.allowAll).run? registering = some b ∧ b.stake 0 = some (.provides 0) ∧
      x ∈ b.registry.entries ∧ x.handle = 0 := by
  have ⟨b, hb, now⟩ : ∃ b, (fresh {} Policy.allowAll).run? registering = some b ∧
      (b.sessions[0]?.map Session.phase, b.registry.entries.map Registration.handle) =
        (some (.idling 0 0 30000000000), [0]) :=
    Option.map_eq_some_iff.mp (by decide +kernel)
  have ⟨hi, handles⟩ := Prod.mk.inj now
  have ⟨s, hs, hp⟩ := Option.map_eq_some_iff.mp hi
  have ⟨x, hx, he⟩ := List.mem_map.mp (handles ▸ List.mem_singleton_self 0)
  exact ⟨b, x, hb, by rw [stake_of hs, hp, Phase.stake], hx, he⟩

theorem dropped_providers_stay_registered_registering :
    ∃ b x, (fresh {} Policy.allowAll).run? registering = some b ∧
      b.stake 0 = some (.provides 0) ∧ x ∈ b.registry.entries ∧ x.handle = 0 ∧
      b.shutdown.registry = b.registry ∧
      ∃ b', b.step? (.abort 0) = some b' ∧ b'.IsDropped 0 ∧ b'.Stale x := by
  have ⟨b, x, hb, provides, hx, he⟩ := run_registering
  have ⟨drops, _, kept, _⟩ := dropped_providers_stay_registered hb
  have ⟨b', hb', dropped, _, stays⟩ := drops 0 0 provides
  have stale := (stays x hx he [] b' rfl).resolve_right not_occurs_nil
  exact ⟨b, x, hb, provides, hx, he, kept, b', hb', dropped, stale⟩

-- Dropping its session does not take a provider out of the registry, and neither does a shutdown.
theorem not_unregistered_by_dropping :
    ¬((∀ es b i h b', (fresh {} Policy.allowAll).run? es = some b → b.stake i = some (.provides h) →
        b.step? (.abort i) = some b' → b'.registry.Lacks h) ∨
      ∀ es b i h, (fresh {} Policy.allowAll).run? es = some b → b.stake i = some (.provides h) →
        b.shutdown.registry.Lacks h) := by
  have ⟨b, x, hb, provides, hx, he⟩ := run_registering
  rintro (unregisters | empties)
  · exact unregisters _ b 0 0 _ hb provides rfl x (by rwa [registry_abort]) he
  · exact empties _ b 0 0 hb provides x (by rwa [registry_shutdown]) he

end Rendezvous.Broker
