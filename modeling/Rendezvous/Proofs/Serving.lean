import Rendezvous.Proofs.Encounters
import Rendezvous.Proofs.Orphans

namespace Rendezvous.Broker

variable {config : Config} {policy : Policy} {b b' : Broker} {e : Event} {es : List Event}
variable {c i j h : Nat} {q q' : Stake} {r : Registry} {hs : List Handle} {s : Session}
variable {x : Registration} {hd : Handle} {n : Name}

def Serves (s : Session) (h : Nat) : Prop :=
  (∃ unsent, s.phase = .welcoming h unsent) ∨ ∃ m t, s.phase = .idling h m t

theorem serves_or_overflows (hq : s.phase.stake = .provides h) :
    Serves s h ∨ s.phase = .overflowing h := by
  cases hp : s.phase <;> rw [hp] at hq <;> cases hq
  case welcoming   => exact .inl <| .inl ⟨_, hp⟩
  case idling      => exact .inl <| .inr ⟨_, _, hp⟩
  case overflowing => exact .inr rfl

theorem Serves.stake (hs : Serves s h) : s.phase.stake = .provides h := by
  obtain ⟨_, hp⟩ | ⟨_, _, hp⟩ := hs <;> rw [hp, Phase.stake]

theorem Serves.not_overflowing (hs : Serves s h) : s.phase ≠ .overflowing j := by
  obtain ⟨_, hp⟩ | ⟨_, _, hp⟩ := hs <;> rw [hp] <;> nofun

def Staffed (b : Broker) : Prop :=
  ∀ x ∈ b.registry.entries, ∃ i, b.stake i = some (.provides x.handle)

-- A session leaves the registry before it lets go of its lease, unless it is dropped.
theorem Move.staffed (m : b.Move i e q q' r hs) (t : b.Tended) (ha : ∀ i, e ≠ .abort i)
    (hi : b.stake i = some q) {x : Registration} (hx : x ∈ r.entries) :
    q' = .provides x.handle ∨ x ∈ b.registry.entries ∧ q ≠ .provides x.handle := by
  have kept (hx : x ∈ b.registry.entries) (hq : ∀ h, q ≠ .provides h) :
      q' = .provides x.handle ∨ x ∈ b.registry.entries ∧ q ≠ .provides x.handle :=
    .inr ⟨hx, hq _⟩
  cases m
  case stays =>
    by_cases hq : q = .provides x.handle
    · exact .inl hq
    · exact .inr ⟨hx, hq⟩
  case refuses => exact kept hx nofun
  case ends light =>
    obtain rfl | rfl | ⟨_, rfl⟩ := light <;> exact kept hx nofun
  case registers =>
    obtain rfl | ⟨hx, -⟩ := Registry.mem_register.mp hx
    · exact .inl rfl
    · exact kept hx nofun
  case claims | misses => exact kept (Registry.mem_erase.mp hx).left nofun
  case leaves =>
    have ⟨hx, hn⟩ := t.handle_ne_of_unregister hx
    exact .inr ⟨hx, fun hq => hn (Stake.provides.inj hq).symm⟩
  case drops abort => exact absurd abort (ha i)
  case handsOver handle _ claim | offers handle _ claim =>
    refine .inr ⟨hx, fun hq => ?_⟩
    exact t.handle_ne_of_claim_ne hx handle (by simp [claim]) (Stake.provides.inj hq).symm
  case picksUp | givesUp | despairs | forgoes => exact kept hx nofun

theorem Staffed.step (w : b.Wired) (t : b.Tended) (staffed : b.Staffed) (ha : ∀ i, e ≠ .abort i)
    (h : b.Step e b') : b'.Staffed := by
  intro x hx
  cases h.shift w
  case rests registry handles kept fresh =>
    have ⟨i, hi⟩ := staffed x (registry ▸ hx)
    exact ⟨i, kept hi⟩
  case moves i q q' place before move after others =>
    obtain hq | ⟨hx, hq⟩ := move.staffed t ha before hx
    · exact ⟨i, hq ▸ after⟩
    · have ⟨j, hj⟩ := staffed x hx
      have ne : j ≠ i := fun he => hq <| Option.some.inj <| before.symm.trans (he ▸ hj)
      exact ⟨j, (others ne).trans hj⟩

-- A provider whose session closes its connection for having sent too much has done so.
def Justified (b : Broker) : Prop :=
  ∀ (i : Nat) (s : Session) (h : Nat), b.sessions[i]? = some s → s.phase = .overflowing h →
    b.config.maxPendingBytes < s.stream.pending.size

theorem Justified.step (justified : b.Justified) (h : b.Step e b') : b'.Justified := by
  intro j s h' hs hp
  cases h
  case turn k s₀ s' r hds ws hi t =>
    obtain ⟨-, rfl⟩ | ⟨-, hs⟩ := of_getElem?_after hs
    · obtain ⟨st, p⟩ := s₀
      cases t <;> cases hp
      assumption
    · exact justified j s h' hs hp
  case accept =>
    obtain hs | ⟨-, rfl⟩ := of_getElem?_accept hs
    · exact justified j s h' hs hp
    · cases hp
  case abort =>
    obtain ⟨-, rfl⟩ | ⟨-, hs⟩ := of_getElem?_after hs
    · cases hp
    · exact justified j s h' hs hp
  case change | spare | wait => exact justified j s h' hs hp

-- A provider that waits hands itself over in its next turn once a consumer has asked for it.
theorem Idles.handsOver (hi : b.Idles i h) (hh : b.handles[h]? = some hd) (ho : hd.closed = false)
    (hq : hd.claim = .asked true) (hc : b.stake c = some (.claims h n)) :
    ∃ b', b.turn (.session i) = some b' ∧ HandsOver i c ⟨h, n⟩ b (.turn (.session i)) b' := by
  obtain ⟨b', hb, -⟩ := hi.wakesNext hh (.inr ⟨true, hq⟩)
  have ⟨st, m, t, hs⟩ := hi
  refine ⟨b', hb, rfl, hc, st, m, t, { hd with leased := false, claim := .given st }, hs, ?_, rfl⟩
  obtain ⟨s, hs₀, s', r, hds, ws, turn, rfl⟩ := turn_turns hb
  cases hs.symm.trans hs₀
  cases turn
  case handsOver => exact getElem?_modify_self hh
  case offers claim handle =>
    cases hh.symm.trans handle
    cases hq.symm.trans claim
  case evicted closed handle =>
    cases hh.symm.trans handle
    cases ho.symm.trans closed
  all_goals exact absurd hq ((‹b.Calm h› hd hh).right true)

theorem Claims.answered (w : b.Wired) (t : b.Tended) (h : b.Step e b') (claims : Claims c x b e b')
    (hi : b.Idles i x.handle) :
    ∃ b'', b'.turn (.session i) = some b'' ∧ HandsOver i c x b' (.turn (.session i)) b'' := by
  have ⟨place, new, claims', _⟩ := claims
  have ne : i ≠ c := fun he => by cases new.symm.trans (he ▸ hi.stake)
  have hi' : b'.Idles i x.handle := by
    have ⟨st, m, t, hs⟩ := hi
    cases h <;> cases place
    case turn  => exact ⟨st, m, t, (getElem?_after_ne ne).trans hs⟩
    case abort => exact ⟨st, m, t, (getElem?_after_ne ne).trans hs⟩
    case spare => exact ⟨st, m, t, hs⟩
  cases h.shift w
  case rests registry handles kept fresh => cases new.symm.trans <| (fresh claims').resolve_right nofun
  case moves j q q' place' before move after others =>
    cases place.symm.trans place'
    obtain ⟨rfl, -⟩ | ⟨-, -, -, hd, hh, -, ho, hq⟩ :=
      move.claims_of t (Option.some.inj <| after.symm.trans claims')
    · cases new.symm.trans before
    · exact hi'.handsOver hh ho hq claims'

theorem staffed_of_run (run : (fresh config policy).run? es = some b) (ha : ∀ i, .abort i ∉ es) :
    b.Staffed ∧ b.Justified := by
  refine run_induction (P := fun es b => (∀ i, .abort i ∉ es) → b.Staffed ∧ b.Justified)
    (fun _ => ⟨fun _ hx => (by cases hx), fun _ _ _ hs => (by cases hs)⟩) ?_ run ha
  intro es b e b' run hi hs ha
  have sound := Sound.of_run run
  have step := step_of_step? hs
  have ⟨staffed, justified⟩ := hi fun i h => ha i (List.mem_append_left _ h)
  have ne i (he : e = .abort i) : False := ha i (by simp [he])
  exact ⟨staffed.step sound.wired sound.tended ne step, justified.step step⟩

-- As long as no session is dropped, behind each registration is the session that has registered it.
-- That session serves its provider, or closes its connection because the provider has sent too much.
-- In the first case it answers a claim in its next turn, once it waits for one. So all that is
-- registered is served exactly as long as no such connection is being closed.
theorem registered_serves_or_overflows (run : (fresh config policy).run? es = some b)
    (ha : ∀ i, .abort i ∉ es) :
    (∀ x ∈ b.registry.entries, ∃ i s, b.sessions[i]? = some s ∧
      (∀ j, (fresh config policy).Occurs es (Registers j x) ↔ j = i) ∧
      (Serves s x.handle ∨
        s.phase = .overflowing x.handle ∧ b.config.maxPendingBytes < s.stream.pending.size)) ∧
    (∀ c x e b', b.step? e = some b' → Claims c x b e b' → ∀ i, b.Idles i x.handle →
      ∃ b'', b'.turn (.session i) = some b'' ∧ HandsOver i c x b' (.turn (.session i)) b'') ∧
    ((∀ x ∈ b.registry.entries, ∃ (i : Nat) (s : Session),
        b.sessions[i]? = some s ∧ Serves s x.handle) ↔
      ∀ x ∈ b.registry.entries, ∀ (i : Nat) (s : Session),
        b.sessions[i]? = some s → s.phase ≠ .overflowing x.handle) := by
  have sound := Sound.of_run run
  have ⟨staffed, justified⟩ := staffed_of_run run ha
  have behind {x} (hx : x ∈ b.registry.entries) : ∃ i s, b.sessions[i]? = some s ∧
      s.phase.stake = .provides x.handle ∧ (fresh config policy).Occurs es (Registers i x) := by
    have ⟨i, hi⟩ := staffed x hx
    have ⟨s, hs, hq⟩ := stake_eq_some.mp hi
    have ⟨hd, hh, ho⟩ := occurs_registers run hi
    have ⟨hd', hh', hn, _⟩ := sound.tended.enrolled hx
    cases hh.symm.trans hh'
    rw [hn] at ho
    exact ⟨i, s, hs, hq, ho⟩
  refine ⟨fun x hx => ?_, fun c x e b' hs hc i hi => ?_, ?_⟩
  case refine_1 =>
    have ⟨i, s, hs, hq, ho⟩ := behind hx
    refine ⟨i, s, hs, fun j => ⟨fun hj => registers_alone hj ho rfl, fun hj => hj ▸ ho⟩, ?_⟩
    exact (serves_or_overflows hq).imp_right fun hp => ⟨hp, justified i s _ hs hp⟩
  case refine_2 => exact hc.answered sound.wired sound.tended (step_of_step? hs) hi
  case refine_3 =>
    constructor
    case mp =>
      intro served x hx i s hs hp
      have ⟨j, s', hs', serves⟩ := served x hx
      have hj : b.stake j = some (.provides x.handle) := serves.stake ▸ stake_of hs'
      have hi : b.stake i = some (.provides x.handle) :=
        (stake_of hs).trans (by rw [hp, Phase.stake])
      cases sound.tended.alone hi hj
      cases hs.symm.trans hs'
      exact serves.not_overflowing hp
    case mpr =>
      intro calm x hx
      have ⟨i, s, hs, hq, _⟩ := behind hx
      exact ⟨i, s, hs, (serves_or_overflows hq).resolve_right (calm x hx i s hs)⟩

theorem registered_serves_or_overflows_registering :
    ∃ b, (fresh {} Policy.allowAll).run? registering = some b ∧ (∀ i, .abort i ∉ registering) ∧
      ∃ x ∈ b.registry.entries, ∃ (i : Nat) (s : Session),
        b.sessions[i]? = some s ∧ Serves s x.handle := by
  have ⟨b, hb, now⟩ : ∃ b, (fresh {} Policy.allowAll).run? registering = some b ∧
      (b.registry.entries.map Registration.handle, b.sessions.map Session.phase) =
        ([0], [.idling 0 0 30000000000]) :=
    Option.map_eq_some_iff.mp (by decide +kernel)
  have ⟨handles, phases⟩ := Prod.mk.inj now
  have aborts i : Event.abort i ∉ registering := by simp [registering]
  have ⟨x, hx, _⟩ := List.mem_map.mp (handles ▸ List.mem_singleton_self 0)
  have ⟨i, s, hs, _, serves⟩ := (registered_serves_or_overflows hb aborts).left x hx
  refine ⟨b, hb, aborts, x, hx, i, s, hs, serves.resolve_right fun ⟨hp, _⟩ => ?_⟩
  have idles : s.phase ∈ b.sessions.map Session.phase :=
    List.mem_map_of_mem (List.mem_of_getElem? hs)
  rw [phases, List.mem_singleton, hp] at idles
  cases idles

def flooding : List Event :=
  registering ++ [.change 0 .hangClose,
    .change 0 (.send (Bytes.ofText "more than can be kept")), .turn (.session 0)]

-- A provider that sent too much stays registered for good if its connection cannot be closed.
theorem overflowing_stays_registered :
    (∃ b, (fresh { maxPendingBytes := 8 } Policy.allowAll).run? flooding = some b ∧
      b.turn (.session 0) = none) ∧
    ¬∀ (config : Config) (policy : Policy) (es : List Event) (b : Broker),
      (fresh config policy).run? es = some b → (∀ i, .abort i ∉ es) →
      ∀ x ∈ b.registry.entries, ∃ (i : Nat) (s : Session),
        b.sessions[i]? = some s ∧ Serves s x.handle := by
  have ⟨b, hb, now⟩ : ∃ b, (fresh { maxPendingBytes := 8 } Policy.allowAll).run? flooding = some b ∧
      (b.registry.entries.map Registration.handle, b.sessions.map Session.phase,
        (b.turn (.session 0)).isNone) = ([0], [.overflowing 0], true) :=
    Option.map_eq_some_iff.mp (by decide +kernel)
  have ⟨handles, now⟩ := Prod.mk.inj now
  have ⟨phases, stuck⟩ := Prod.mk.inj now
  refine ⟨⟨b, hb, Option.isNone_iff_eq_none.mp stuck⟩, fun serve => ?_⟩
  have aborts i : Event.abort i ∉ flooding := by simp [flooding, registering]
  have ⟨x, hx, _⟩ := List.mem_map.mp (handles ▸ List.mem_singleton_self 0)
  have ⟨i, s, hs, serves⟩ := serve _ _ _ _ hb aborts x hx
  have overflows : s.phase ∈ b.sessions.map Session.phase :=
    List.mem_map_of_mem (List.mem_of_getElem? hs)
  rw [phases, List.mem_singleton] at overflows
  exact serves.not_overflowing overflows

end Rendezvous.Broker
