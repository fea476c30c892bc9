import Rendezvous.Proofs.Handoffs

namespace Rendezvous.Broker

variable {a b b' : Broker} {e : Event} {es : List Event} {config : Config} {policy : Policy}
variable {p p' c c' h w : Nat} {n : Name} {x x' : Registration} {st : Stream} {hd : Handle}
variable {q q' : Stake}

def Registers (p : Nat) (x : Registration) : Happening := fun b e b' =>
  e.place? = some p ∧ b.stake p = some .new ∧ b'.stake p = some (.provides x.handle) ∧
    x.handle = b.handles.length ∧ b'.registry = (b.registry.register x).2

def Claims (c : Nat) (x : Registration) : Happening := fun b e b' =>
  e.place? = some c ∧ b.stake c = some .new ∧ b'.stake c = some (.claims x.handle x.name) ∧
    b.registry.find? x.name = some x ∧ b'.registry = b.registry.erase x.name

-- A provider's session gives its connection to the consumer that waits for it.
def HandsOver (p c : Nat) (x : Registration) : Happening := fun b e b' =>
  e.place? = some p ∧ b.stake c = some (.claims x.handle x.name) ∧
    ∃ st m t hd, b.sessions[p]? = some ⟨st, .idling x.handle m t⟩ ∧
      b'.handles[x.handle]? = some hd ∧ hd.claim = .given st

def Told (p : Nat) (b : Broker) : Prop := ∃ q, b.stake p = some q ∧ q ≠ .new

theorem Move.ne_new {i : Nat} {r : Registry} {hs : List Handle} (m : b.Move i e q q' r hs)
    (hq : q ≠ .new) : q' ≠ .new := by
  cases m
  case stays       => exact hq
  case leaves gone => obtain rfl | rfl := gone <;> simp
  all_goals simp

theorem Told.step (s : b.Sound) (h : b.Step e b') (t : Told p b) : Told p b' := by
  have ⟨q, hq, hn⟩ := t
  cases h.shift s.wired
  case rests registry handles kept fresh => exact ⟨q, kept hq, hn⟩
  case moves i q₁ q₂ place before move after others =>
    by_cases hi : p = i
    case neg => exact ⟨q, (others hi).trans hq, hn⟩
    case pos =>
      subst hi
      cases before.symm.trans hq
      exact ⟨q₂, after, move.ne_new hn⟩

def Gets (i : Nat) (q : Stake) : Happening := fun b e b' =>
  e.place? = some i ∧ b'.stake i = some q ∧
    ∃ q', q' ≠ q ∧ b.stake i = some q' ∧ b.Move i e q' q b'.registry b'.handles

section

variable (run : (fresh config policy).run? es = some b)
include run

theorem occurs_gets {i : Nat} (hi : b.stake i = some q) (hq : q ≠ .new) :
    (fresh config policy).Occurs es (Gets i q) := by
  refine run_induction (P := fun es b => b.stake i = some q → (fresh config policy).Occurs es (Gets i q))
    (fun hi => by cases hi) ?_ run hi
  intro es b e b' run old hs hi
  cases (step_of_step? hs).shift (Sound.of_run run).wired
  case rests registry handles kept fresh => exact (old ((fresh hi).resolve_right hq)).append
  case moves j q' q'' place before move after others =>
    by_cases hj : i = j
    case neg => exact (old ((others hj).symm.trans hi)).append
    case pos =>
      subst hj
      cases after.symm.trans hi
      by_cases same : q' = q
      case pos => exact (old (same ▸ before)).append
      case neg => exact (occurs_snoc run).mpr <| .inr ⟨b', hs, place, after, q', same, before, move⟩

theorem occurs_registers (hp : b.stake p = some (.provides h)) :
    ∃ hd, b.handles[h]? = some hd ∧ (fresh config policy).Occurs es (Registers p ⟨h, hd.name⟩) := by
  have ⟨hd, hh, _⟩ := (Tended.of_run run).leased hp
  refine ⟨hd, hh, (occurs_gets run hp nofun).imp run ?_⟩
  intro fs b₁ e b₂ run₁ hs reach ⟨place, after, q, ne, before, move⟩
  obtain ⟨same, -⟩ | ⟨rfl, hl, hd₂, h₂, -, hr⟩ := move.provides rfl
  · exact absurd same ne
  · have ⟨hd', hh', follows⟩ := ((Sound.of_run run₁).step (step_of_step? hs)).trails reach _ _ h₂
    cases hh.symm.trans hh'
    exact ⟨place, before, after, hl, follows.name ▸ hr⟩

theorem occurs_claims (hc : b.stake c = some (.claims h n)) :
    (fresh config policy).Occurs es (Claims c ⟨h, n⟩) := by
  refine (occurs_gets run hc nofun).imp run ?_
  intro fs b₁ e b₂ run₁ hs _ ⟨place, after, q, ne, before, move⟩
  obtain ⟨same, -⟩ | ⟨rfl, hf, hr, -⟩ := move.claims_of (Tended.of_run run₁) rfl
  · exact absurd same ne
  · exact ⟨place, before, after, hf, hr⟩

theorem occurs_handsOver_given (hh : b.handles[h]? = some hd) (hc : hd.claim = .given st) :
    ∃ c n, b.stake c = some (.claims h n) ∧
      (fresh config policy).Occurs es (HandsOver st.wire c ⟨h, n⟩) := by
  refine run_induction (P := fun es b => ∀ h hd st, b.handles[h]? = some hd → hd.claim = .given st →
    ∃ c n, b.stake c = some (.claims h n) ∧
      (fresh config policy).Occurs es (HandsOver st.wire c ⟨h, n⟩))
    (fun h hd st hh => by cases hh) ?_ run h hd st hh hc
  intro es b e b' run hi hs h hd st hh hc
  have sound := Sound.of_run run
  cases (step_of_step? hs).shift sound.wired
  case rests registry handles kept fresh =>
    have ⟨c, n, hq, ho⟩ := hi h hd st (handles ▸ hh) hc
    exact ⟨c, n, kept hq, ho.append⟩
  case moves i q q' place before move after others =>
    have arises := move.arises hh (.inr ⟨st, hc⟩)
    obtain ⟨rfl, -, rfl, own, hd₀, h₀, hc₀⟩ | ⟨hd₀, h₀, hc₀⟩ := arises.of_given hc
    case inl =>
      have ⟨c, n, hq⟩ := sound.matched.awaited h₀ (.inl hc₀)
      have ne : c ≠ st.wire := fun he => by cases before.symm.trans (he ▸ hq)
      refine ⟨c, n, (others ne).trans hq, (occurs_snoc run).mpr <| .inr ⟨b', hs, ?_⟩⟩
      have ⟨m, t, own⟩ := own
      exact ⟨place, hq, st, m, t, hd, own, hh, hc⟩
    case inr =>
      have ⟨c, n, hq, ho⟩ := hi h hd₀ st h₀ hc₀
      refine ⟨c, n, ?_, ho.append⟩
      by_cases he : c = i
      case neg => exact (others he).trans hq
      case pos =>
        have hq := Option.some.inj <| before.symm.trans (he ▸ hq)
        rw [he, after, arises.waits hc n hq, hq]

theorem occurs_handsOver (hc : b.stake c = some (.serves w)) :
    ∃ x, (fresh config policy).Occurs es (HandsOver w c x) := by
  obtain ⟨before, e, after, b₁, b₂, rfl, run₁, -, -, -, q, ne, hq, move⟩ := occurs_gets run hc nofun
  obtain same | ⟨h, n, hd, st, rfl, hh, hg, rfl, -⟩ := move.serves rfl
  · exact absurd same ne
  · have ⟨c', n', hc', ho⟩ := occurs_handsOver_given run₁ hh hg
    exact ⟨⟨h, n'⟩, (Sound.of_run run₁).matched.alone hq hc' ▸ ho.append⟩

end

theorem Told.not_new {b' : Broker} (reach : (fresh config policy).Reaches b)
    (hs : b.step? e = some b') (hp : b'.stake p = some q) (hq : q ≠ .new) (r : b'.Reaches a) :
    a.stake p ≠ some .new := by
  have told : Told p a := ((Sound.of_reaches reach).step (step_of_step? hs)).stable
    (fun s h t => t.step s h) r ⟨q, hp, hq⟩
  have ⟨q', hq', hn⟩ := told
  exact fun hn' => hn <| Option.some.inj <| hq'.symm.trans hn'

theorem registers_once (h : (fresh config policy).Occurs es (Registers p x))
    (h' : (fresh config policy).Occurs es (Registers p x')) : x = x' := by
  have ⟨b, e, b', _, _, ⟨_, _, _, _, hr⟩, ⟨_, _, _, _, hr'⟩⟩ := h.meet h'
    (fun reach hs hq r hq' => Told.not_new reach hs hq.right.right.left nofun r hq'.right.left)
    (fun reach hs hq r hq' => Told.not_new reach hs hq.right.right.left nofun r hq'.right.left)
  have he := congrArg Registry.entries (hr.symm.trans hr')
  exact (List.cons.inj he).left

theorem claims_once (h : (fresh config policy).Occurs es (Claims c x))
    (h' : (fresh config policy).Occurs es (Claims c x')) : x = x' := by
  have ⟨b, e, b', _, _, ⟨_, _, hq, _⟩, ⟨_, _, hq', _⟩⟩ := h.meet h'
    (fun reach hs hq r hq' => Told.not_new reach hs hq.right.right.left nofun r hq'.right.left)
    (fun reach hs hq r hq' => Told.not_new reach hs hq.right.right.left nofun r hq'.right.left)
  have ⟨hh, hn⟩ := Stake.claims.inj <| Option.some.inj <| hq.symm.trans hq'
  cases x
  cases x'
  cases hh
  cases hn
  rfl

-- A handle is given to one provider, since no later registration gets the same one.
theorem registers_alone (h : (fresh config policy).Occurs es (Registers p x))
    (h' : (fresh config policy).Occurs es (Registers p' x')) (hx : x.handle = x'.handle) :
    p = p' := by
  have apart {p p' x x' b e b' c f c'} (hx : x.handle = x'.handle)
      (reach : (fresh config policy).Reaches b) (hs : b.step? e = some b')
      (hq : Registers p x b e b') (r : b'.Reaches c) (hq' : Registers p' x' c f c') : False := by
    have sound := (Sound.of_reaches reach).step (step_of_step? hs)
    have ⟨hd, hh, _⟩ := sound.tended.leased hq.right.right.left
    have ⟨hd', hh', _⟩ := sound.trails r _ _ hh
    rw [hx, hq'.right.right.right.left] at hh'
    exact Nat.lt_irrefl _ (List.getElem?_eq_some_iff.mp hh').choose
  have ⟨b, e, b', _, _, ⟨hp, _⟩, ⟨hp', _⟩⟩ := h.meet h' (apart hx) (apart hx.symm)
  exact Option.some.inj <| hp.symm.trans hp'

-- A registration is claimed by one consumer, since it has gone once it has been claimed.
theorem claims_alone (h : (fresh config policy).Occurs es (Claims c x))
    (h' : (fresh config policy).Occurs es (Claims c' x')) (hx : x.handle = x'.handle) :
    c = c' := by
  have apart {c c' x x' b e b' d f d'} (hx : x.handle = x'.handle)
      (reach : (fresh config policy).Reaches b) (hs : b.step? e = some b')
      (hq : Claims c x b e b') (r : b'.Reaches d) (hq' : Claims c' x' d f d') : False := by
    have sound := (Sound.of_reaches reach).step (step_of_step? hs)
    have ⟨hd, hh, _, hm⟩ := sound.tended.claimed hq.right.right.left
    have ⟨hd', hh', hf⟩ := sound.trails r _ _ hh
    have sound' := Sound.of_reaches ((reach.trans (.of_step hs)).trans r)
    have hx' := Registry.mem_of_find? hq'.right.right.right.left
    exact sound'.tended.handle_ne_of_claim_ne hx' hh' (hf.claim_ne_unmade hm) hx.symm
  have ⟨b, e, b', _, _, ⟨hp, _⟩, ⟨hp', _⟩⟩ := h.meet h' (apart hx) (apart hx.symm)
  exact Option.some.inj <| hp.symm.trans hp'

theorem occurs_of_handsOver (h : (fresh config policy).Occurs es (HandsOver p c x)) :
    (fresh config policy).Occurs es (Registers p x) ∧ (fresh config policy).Occurs es (Claims c x) := by
  constructor
  case left =>
    refine h.of_before fun run _ hq => ?_
    have ⟨_, hc, _, _, _, _, hp, _⟩ := hq
    have ⟨hd, hh, ho⟩ := occurs_registers run (stake_of hp)
    have ⟨hd', hh', hn, _⟩ := (Tended.of_run run).claimed hc
    cases hh.symm.trans hh'
    rw [hn] at ho
    exact ho
  case right => exact h.of_before fun run _ hq => occurs_claims run hq.right.left

theorem handsOver_of_provider (h : (fresh config policy).Occurs es (HandsOver p c x))
    (h' : (fresh config policy).Occurs es (HandsOver p c' x')) : c = c' ∧ x = x' :=
  have ⟨hr, hc⟩ := occurs_of_handsOver h
  have ⟨hr', hc'⟩ := occurs_of_handsOver h'
  have hx := registers_once hr hr'
  ⟨claims_alone hc hc' (hx ▸ rfl), hx⟩

theorem handsOver_of_consumer (h : (fresh config policy).Occurs es (HandsOver p c x))
    (h' : (fresh config policy).Occurs es (HandsOver p' c x')) : p = p' ∧ x = x' :=
  have ⟨hr, hc⟩ := occurs_of_handsOver h
  have ⟨hr', hc'⟩ := occurs_of_handsOver h'
  have hx := claims_once hc hc'
  ⟨registers_alone hr hr' (hx ▸ rfl), hx⟩

theorem handsOver_of_registration (h : (fresh config policy).Occurs es (HandsOver p c x))
    (h' : (fresh config policy).Occurs es (HandsOver p' c' x')) (hx : x.handle = x'.handle) :
    p = p' ∧ c = c' :=
  have ⟨hr, hc⟩ := occurs_of_handsOver h
  have ⟨hr', hc'⟩ := occurs_of_handsOver h'
  ⟨registers_alone hr hr' hx, claims_alone hc hc' hx⟩

end Rendezvous.Broker
