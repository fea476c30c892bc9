import Rendezvous.Proofs.Encounters
import Rendezvous.Proofs.Orphans

namespace Rendezvous

def Registry.Lacks (r : Registry) (h : Nat) : Prop := ∀ y ∈ r.entries, y.handle ≠ h

namespace Broker

variable {config : Config} {policy : Policy} {b b' : Broker} {e : Event} {es : List Event}
variable {i p p' h : Nat} {q q' : Stake} {r : Registry} {hs : List Handle} {x y : Registration}

def IsDropped (b : Broker) (p : Nat) : Prop := ∃ st, b.sessions[p]? = some ⟨st, .ended .aborted⟩

-- Only a handle that nobody has had before is ever put into the registry.
theorem Move.listed (m : b.Move i e q q' r hs) (t : b.Tended) (hx : x ∈ r.entries) :
    x ∈ b.registry.entries ∨ x.handle = b.handles.length := by
  cases m
  case registers =>
    obtain rfl | ⟨hx, -⟩ := Registry.mem_register.mp hx
    · exact .inr rfl
    · exact .inl hx
  case claims | misses => exact .inl (Registry.mem_erase.mp hx).left
  case leaves          => exact .inl (t.handle_ne_of_unregister hx).left
  all_goals exact .inl hx

theorem lacks_step (l : b.registry.Lacks h) (sound : b.Sound) (hl : h < b.handles.length)
    (step : b.Step e b') : b'.registry.Lacks h := by
  intro y hy
  cases step.shift sound.wired
  case rests registry handles kept fresh => exact l y (registry ▸ hy)
  case moves place before move after others =>
    obtain hy | hy := move.listed sound.tended hy
    · exact l y hy
    · exact hy ▸ Nat.ne_of_gt hl

theorem IsDropped.step (d : b.IsDropped p) (h : b.Step e b') : b'.IsDropped p :=
  have ⟨st, hs⟩ := d
  ⟨st, h.ended hs⟩

theorem isDropped_of_abort {s : Session} (h : b.Step (.abort p) b') (hi : b.sessions[p]? = some s)
    (hq : s.phase.stake ≠ .ended) : b'.IsDropped p := by
  cases h
  case abort runs hi' => exact ⟨_, getElem?_after hi'⟩
  case spare ended =>
    have gone := ended s hi
    unfold Session.isOver at gone
    split at gone
    case h_1 hp => exact absurd (Phase.stake_eq_ended.mpr ⟨_, hp⟩) hq
    case h_2    => cases gone

-- A provider's session that does not hold its lease any more has left the registry, unless it has been
-- dropped.
def Departs (b : Broker) (p h : Nat) : Prop :=
  h < b.handles.length ∧ (b.stake p = some (.provides h) ∨ b.IsDropped p ∨ b.registry.Lacks h)

theorem Move.departs (m : b.Move p e (.provides h) q' r hs) (t : b.Tended) (ha : e ≠ .abort p) :
    q' = .provides h ∨ r.Lacks h := by
  cases m
  case stays => exact .inl rfl
  case leaves => exact .inr fun y hy => (t.handle_ne_of_unregister hy).right
  case drops abort => exact absurd abort ha
  case handsOver claim _ handle | offers claim handle =>
    exact .inr fun y hy => t.handle_ne_of_claim_ne hy handle (by simp [claim])
  case ends light => obtain h | h | ⟨_, h⟩ := light <;> cases h

theorem Departs.step (d : b.Departs p h) (sound : b.Sound) (step : b.Step e b') : b'.Departs p h := by
  have ⟨hl, where_⟩ := d
  have shift := step.shift sound.wired
  have ⟨_, hh, _⟩ := shift.trails h _ (List.getElem?_eq_getElem hl)
  refine ⟨(List.getElem?_eq_some_iff.mp hh).choose, ?_⟩
  obtain hp | dropped | lacks := where_
  case inr.inl => exact .inr <| .inl <| dropped.step step
  case inr.inr => exact .inr <| .inr <| lacks_step lacks sound hl step
  case inl =>
    cases shift
    case rests registry handles kept fresh => exact .inl (kept hp)
    case moves i q q' place before move after others =>
      by_cases hi : p = i
      case neg => exact .inl ((others hi).trans hp)
      case pos =>
        subst hi
        cases before.symm.trans hp
        by_cases ha : e = .abort p
        case pos =>
          have ⟨s, hs, hq⟩ := stake_eq_some.mp hp
          exact .inr <| .inl <| isDropped_of_abort (ha ▸ step) hs (hq ▸ nofun)
        case neg =>
          obtain rfl | lacks := move.departs sound.tended ha
          · exact .inl after
          · exact .inr <| .inr lacks

section

variable (run : (fresh config policy).run? es = some b)
variable (hp : (fresh config policy).Occurs es (Registers p x))
include run hp

theorem departs_of_run : b.Departs p x.handle := by
  refine run_induction (P := fun es b => (fresh config policy).Occurs es (Registers p x) →
    b.Departs p x.handle) (fun h => (not_occurs_nil h).elim) ?_ run hp
  intro es b e b' run hi hs hp
  have sound := Sound.of_run run
  have step := step_of_step? hs
  obtain hp | ⟨b'', hs', -, -, hp, -⟩ := (occurs_snoc run).mp hp
  · exact (hi hp).step sound step
  · cases hs.symm.trans hs'
    have ⟨_, hh, _⟩ := (sound.step step).tended.leased hp
    exact ⟨(List.getElem?_eq_some_iff.mp hh).choose, .inl hp⟩

end

def Learns (p : Nat) (q : Stake) : Happening := fun b e b' =>
  e.place? = some p ∧ b.stake p = some .new ∧ b'.stake p = some q ∧ q ≠ .new

theorem Registers.learns (h : Registers p x b e b') : Learns p (.provides x.handle) b e b' :=
  have ⟨place, new, told, _⟩ := h
  ⟨place, new, told, nofun⟩

theorem Claims.learns (h : Claims p x b e b') : Learns p (.claims x.handle x.name) b e b' :=
  have ⟨place, new, told, _⟩ := h
  ⟨place, new, told, nofun⟩

theorem learns_once (h : (fresh config policy).Occurs es (Learns p q))
    (h' : (fresh config policy).Occurs es (Learns p q')) : q = q' := by
  have apart {q q' b e b' c f c'} (reach : (fresh config policy).Reaches b)
      (hs : b.step? e = some b') (hq : Learns p q b e b') (r : b'.Reaches c)
      (hq' : Learns p q' c f c') : False :=
    have ⟨_, _, after, told⟩ := hq
    Told.not_new reach hs after told r hq'.right.left
  have ⟨b, e, b', _, _, ⟨_, _, hq, _⟩, ⟨_, _, hq', _⟩⟩ := h.meet h' apart apart
  exact Option.some.inj <| hq.symm.trans hq'

def Disturbs (p : Nat) (x : Registration) : Happening := fun b e b' =>
  e.place? = some p ∧ ¬Registers p x b e b' ∧ ∃ n y, y.handle ≠ x.handle ∧
    ¬(b.registry.find? n = some y ↔ b'.registry.find? n = some y)

theorem not_disturbs (hp : (fresh config policy).Occurs es (Registers p x)) :
    ¬(fresh config policy).Occurs es (Disturbs p x) := by
  rintro ⟨before, e, after, b, b', rfl, run, hs, place, ne, n, y, hy, hn⟩
  have sound := Sound.of_run run
  have sound' := sound.step (step_of_step? hs)
  have now {Q : Happening} (hq : Q b e b') :
      (fresh config policy).Occurs (before ++ e :: after) Q :=
    ⟨before, e, after, b, b', rfl, run, hs, hq⟩
  have learns := hp.mono Registers.learns
  cases (step_of_step? hs).shift sound.wired
  case rests registry handles kept fresh => exact hn (registry ▸ Iff.rfl)
  case moves i q q' place' hq move hq' others =>
    cases place.symm.trans place'
    generalize hr : b'.registry = r, b'.handles = hds at move
    cases move
    case registers m peer =>
      have again : Registers p ⟨b.handles.length, m⟩ b e b' := ⟨place, hq, hq', rfl, hr⟩
      exact ne <| registers_once (now again) hp ▸ again
    case claims => cases learns_once (now ⟨place, hq, hq', nofun⟩) learns
    case misses => cases learns_once (now ⟨place, hq, hq', nofun⟩) learns
    case leaves h gone =>
      -- What the session gives up is its own registration.
      have ⟨hd, hh, ho⟩ := occurs_registers run hq
      have own : Registration.handle ⟨h, hd.name⟩ = x.handle := by
        rw [registers_once ho.append hp]
      refine hn ?_
      rw [sound.tended.unique.find?_eq_some_iff, sound'.tended.unique.find?_eq_some_iff, hr,
        sound.tended.mem_unregister hh]
      have other : ¬(y.name = hd.name ∧ y.handle = h) := fun he => hy (he.right.trans own)
      simp [other]
    all_goals exact hn (hr ▸ Iff.rfl)

-- A provider's session that has returned is not registered any more. In between it has changed nothing
-- that others have registered, and the handles of others are not its own.
theorem returned_providers_unregistered (run : (fresh config policy).run? es = some b)
    (hp : (fresh config policy).Occurs es (Registers p x)) :
    (∀ s how, b.sessions[p]? = some s → s.phase = .ended how → how ≠ .aborted →
      b.registry.Lacks x.handle) ∧
    ¬(fresh config policy).Occurs es (Disturbs p x) ∧
    ∀ p' y, p' ≠ p → (fresh config policy).Occurs es (Registers p' y) → y.handle ≠ x.handle := by
  refine ⟨fun s how hs he ha => ?_, not_disturbs hp, fun p' y ne hy he => ne (registers_alone hy hp he)⟩
  obtain ⟨-, hq | ⟨st, hd⟩ | lacks⟩ := departs_of_run run hp
  · rw [stake_of hs, he] at hq
    cases hq
  · cases hs.symm.trans hd
    cases he
    exact absurd rfl ha
  · exact lacks

def replacing : List Event :=
  registering ++ [.accept {} {}, .change 1 (.send (Bytes.ofText "REGISTER:cam1\n")),
    .turn (.session 1), .turn (.session 0), .turn (.session 0)]

theorem returned_providers_unregistered_replacing :
    ∃ b x, (fresh {} Policy.allowAll).run? replacing = some b ∧
      (fresh {} Policy.allowAll).Occurs replacing (Registers 0 x) ∧
      (∃ st, b.sessions[0]? = some ⟨st, .ended (.regular .providerEvicted)⟩) ∧
      b.registry.entries.map Registration.handle = [1] ∧ b.registry.Lacks x.handle ∧
      ¬(fresh {} Policy.allowAll).Occurs replacing (Disturbs 0 x) := by
  have registered : ∃ b, (fresh {} Policy.allowAll).run? registering = some b ∧
      b.sessions[0]?.map Session.phase = some (.idling 0 0 30000000000) :=
    Option.map_eq_some_iff.mp (by decide +kernel)
  obtain ⟨b₀, hb₀, hi⟩ := registered
  obtain ⟨s₀, hs₀, hp₀⟩ := Option.map_eq_some_iff.mp hi
  have provides : b₀.stake 0 = some (.provides 0) := by rw [stake_of hs₀, hp₀, Phase.stake]
  obtain ⟨_, _, registers⟩ := occurs_registers hb₀ provides
  have returned : ∃ b, (fresh {} Policy.allowAll).run? replacing = some b ∧
      (b.sessions[0]?.map Session.phase, b.registry.entries.map Registration.handle) =
        (some (.ended (.regular .providerEvicted)), [1]) :=
    Option.map_eq_some_iff.mp (by decide +kernel)
  obtain ⟨b, hb, now⟩ := returned
  obtain ⟨hi, handles⟩ := Prod.mk.inj now
  obtain ⟨⟨st, _⟩, hs, hp⟩ := Option.map_eq_some_iff.mp hi
  have registers : (fresh {} Policy.allowAll).Occurs replacing _ := registers.append
  obtain ⟨gone, calm, _⟩ := returned_providers_unregistered hb registers
  exact ⟨b, _, hb, registers, ⟨st, by rw [hs, ← hp]⟩, handles, gone _ _ hs hp (by decide), calm⟩

end Broker
end Rendezvous
