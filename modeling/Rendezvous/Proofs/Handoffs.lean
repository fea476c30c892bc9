import Rendezvous.Proofs.Leases

namespace Rendezvous

-- Where a connection is that its session has handed over.
inductive Holder where
  | desk (h : Nat)
  | guest (i : Nat)

namespace Broker

variable {b b' : Broker} {e : Event} {i j h w : Nat} {q q' : Stake} {r : Registry}
variable {hs : List Handle} {hd hd' : Handle} {n : Name} {st : Stream} {x y : Holder}

theorem of_getElem?_modify {f : Handle → Handle} {h' : Nat}
    (hh : (hs.modify h' f)[h]? = some hd') :
    h = h' ∧ (∃ hd, hs[h]? = some hd ∧ hd' = f hd) ∨ h ≠ h' ∧ hs[h]? = some hd' := by
  by_cases he : h = h'
  case neg => exact .inr ⟨he, (getElem?_modify_ne he).symm.trans hh⟩
  case pos =>
    subst he
    rw [List.getElem?_modify_eq] at hh
    have ⟨hd, hh, hf⟩ := Option.map_eq_some_iff.mp hh
    exact .inl ⟨rfl, hd, hh, hf.symm⟩

theorem claim_of_closeReplaced {previous : Option Registration}
    (hh : (closeReplaced previous (hs ++ [hd]))[h]? = some hd') (hc : hd'.claim ≠ hd.claim) :
    ∃ hd₀, hs[h]? = some hd₀ ∧ hd₀.claim = hd'.claim := by
  have claim_of {hd₀} (h₀ : (hs ++ [hd])[h]? = some hd₀) (he : hd₀.claim = hd'.claim) :
      ∃ hd₀, hs[h]? = some hd₀ ∧ hd₀.claim = hd'.claim := by
    rw [List.getElem?_append] at h₀
    split at h₀
    case isTrue => exact ⟨hd₀, h₀, he⟩
    case isFalse =>
      rw [List.getElem?_singleton] at h₀
      split at h₀ <;> cases h₀
      exact absurd he.symm hc
  rw [getElem?_closeReplaced] at hh
  split at hh
  case isFalse => exact claim_of hh rfl
  case isTrue  =>
    have ⟨hd₀, h₀, he⟩ := Option.map_eq_some_iff.mp hh
    exact claim_of h₀ (he ▸ rfl)

-- Where a live claim comes from: the consumer has just asked, or the provider has just handed over,
-- or it has been there before, and then the session that waits for it goes on waiting.
inductive Arises (b : Broker) (i h : Nat) : Stake → Stake → Claim → Prop
  | asks {n : Name} : Arises b i h .new (.claims h n) (.asked true)
  | hands {st : Stream} {hd : Handle} (own : ∃ m t, b.sessions[i]? = some ⟨st, .idling h m t⟩)
      (wire : st.wire = i) (handle : b.handles[h]? = some hd)
      (claim : hd.claim = .asked true) : Arises b i h (.provides h) .ended (.given st)
  | stands {q q' : Stake} {hd : Handle} (handle : b.handles[h]? = some hd)
      (waits : ∀ n, q = .claims h n → q' = q) : Arises b i h q q' hd.claim

theorem Move.arises (m : b.Move i e q q' r hs) (hh : hs[h]? = some hd') (hl : hd'.claim.IsLive) :
    b.Arises i h q q' hd'.claim := by
  cases m
  case stays => exact .stands hh fun _ _ => rfl
  case refuses => exact .stands hh nofun
  case ends light => obtain rfl | rfl | ⟨_, rfl⟩ := light <;> exact .stands hh nofun
  case registers =>
    obtain ⟨hd, hh, he⟩ := claim_of_closeReplaced hh (by obtain hc | ⟨_, hc⟩ := hl <;> simp [hc])
    exact he ▸ .stands hh nofun
  case claims n y hd found handle take =>
    obtain ⟨rfl, hd₀, h₀, rfl⟩ | ⟨-, hh⟩ := of_getElem?_modify hh
    · cases handle.symm.trans h₀
      rw [(Handle.take_eq take).right.right.right]
      exact .asks
    · exact .stands hh nofun
  case misses n y found take =>
    rw [List.modify_modify_eq] at hh
    obtain ⟨rfl, hd, h₀, rfl⟩ | ⟨-, hh⟩ := of_getElem?_modify hh
    · have he := Handle.claim_of_take (take hd h₀) hl
      exact (show (Handle.close hd.take.2).claim = hd.claim from he) ▸ .stands h₀ nofun
    · exact .stands hh nofun
  case leaves | drops =>
    obtain ⟨rfl, hd, h₀, rfl⟩ | ⟨-, hh⟩ := of_getElem?_modify hh
    · exact (Handle.claim_of_dropLease hl).left ▸ .stands h₀ nofun
    · exact .stands hh nofun
  case handsOver hd st own wire handle _ claim =>
    obtain ⟨rfl, hd₀, h₀, rfl⟩ | ⟨-, hh⟩ := of_getElem?_modify hh
    · exact .hands own wire handle claim
    · exact .stands hh nofun
  case offers =>
    obtain ⟨rfl, hd, h₀, rfl⟩ | ⟨-, hh⟩ := of_getElem?_modify hh
    · obtain hc | ⟨_, hc⟩ := hl <;> cases hc
    · exact .stands hh nofun
  case picksUp =>
    obtain ⟨rfl, hd, h₀, rfl⟩ | ⟨hn, hh⟩ := of_getElem?_modify hh
    · obtain hc | ⟨_, hc⟩ := hl <;> cases hc
    · exact .stands hh fun _ hq => absurd (Stake.claims.inj hq).left.symm hn
  case givesUp =>
    rw [List.modify_modify_eq] at hh
    obtain ⟨rfl, hd, h₀, rfl⟩ | ⟨hn, hh⟩ := of_getElem?_modify hh
    · exact absurd hl Handle.not_live_abandonTake
    · exact .stands hh fun _ hq => absurd (Stake.claims.inj hq).left.symm hn
  case despairs nothing =>
    obtain ⟨rfl, hd, h₀, rfl⟩ | ⟨hn, hh⟩ := of_getElem?_modify hh
    · have settled := nothing hd h₀
      obtain hc | ⟨_, hc⟩ := hl <;> cases settled.symm.trans hc
    · exact .stands hh fun _ hq => absurd (Stake.claims.inj hq).left.symm hn
  case forgoes =>
    obtain ⟨rfl, hd, h₀, rfl⟩ | ⟨hn, hh⟩ := of_getElem?_modify hh
    · exact absurd hl Handle.not_live_abandonTake
    · exact .stands hh fun _ hq => absurd (Stake.claims.inj hq).left.symm hn

theorem Arises.of_given {c : Claim} (a : b.Arises i h q q' c) (hc : c = .given st) :
    (q = .provides h ∧ q' = .ended ∧ st.wire = i ∧
        (∃ m t, b.sessions[i]? = some ⟨st, .idling h m t⟩) ∧
        ∃ hd, b.handles[h]? = some hd ∧ hd.claim = .asked true) ∨
      ∃ hd, b.handles[h]? = some hd ∧ hd.claim = .given st := by
  cases a
  case asks => cases hc
  case hands hd own wire handle claim =>
    cases hc
    exact .inl ⟨rfl, rfl, wire, own, hd, handle, claim⟩
  case stands hd handle _ => exact .inr ⟨hd, handle, hc⟩

theorem Arises.waits {c : Claim} (a : b.Arises i h q q' c) (hc : c = .given st) (n : Name)
    (hq : q = .claims h n) : q' = q := by
  cases a
  case asks         => cases hc
  case hands        => cases hq
  case stands waits => exact waits n hq

theorem Move.ended (m : b.Move i e q q' r hs) (hq : q = .ended) : q' = .ended := by
  cases m <;> try cases hq
  case stays      => exact rfl
  case ends light => rfl

theorem Move.serves (m : b.Move i e q q' r hs) (hq : q' = .serves w) :
    q = .serves w ∨ ∃ h n hd st, q = .claims h n ∧ b.handles[h]? = some hd ∧ hd.claim = .given st ∧
      st.wire = w ∧ hs = b.handles.modify h Handle.pickUp := by
  cases m <;> try cases hq
  case stays => exact .inl rfl
  case leaves gone => obtain hg | hg := gone <;> cases hg
  case picksUp h n hd st handle claim => exact .inr ⟨h, n, hd, st, rfl, handle, claim, rfl, rfl⟩

theorem Shift.trails (h : b.Shift e b') : Trails b.handles b'.handles := by
  cases h
  case rests registry handles kept fresh => exact handles ▸ .refl _
  case moves move _ _                    => exact move.trails

theorem Shift.ended (h : b.Shift e b') (hw : b.stake w = some .ended) : b'.stake w = some .ended := by
  cases h
  case rests registry handles kept fresh => exact kept hw
  case moves i q q' _ before move after others =>
    by_cases hi : w = i
    case neg => exact (others hi).trans hw
    case pos =>
      subst hi
      exact move.ended (Option.some.inj <| before.symm.trans hw) ▸ after

def Holds (b : Broker) (w : Nat) : Holder → Prop
  | .desk h  => ∃ hd st, b.handles[h]? = some hd ∧ hd.claim = .given st ∧ st.wire = w
  | .guest i => b.stake i = some (.serves w)

theorem Move.holds (m : b.Move i e q q' b'.registry b'.handles) (before : b.stake i = some q)
    (after : b'.stake i = some q') (others : ∀ {j}, j ≠ i → b'.stake j = b.stake j)
    (hx : b'.Holds w x) :
    b.Holds w x ∨ (∃ h, x = .desk h ∧ w = i ∧ q = .provides h ∧ q' = .ended) ∨
      x = .guest i ∧ ∃ h, b.Holds w (.desk h) ∧ ¬b'.Holds w (.desk h) := by
  cases x
  case desk h =>
    have ⟨hd, st, hh, hc, hw⟩ := hx
    obtain ⟨hq, hq', hi, -⟩ | ⟨hd, hh, hc⟩ := (m.arises hh (.inr ⟨st, hc⟩)).of_given hc
    · exact .inr <| .inl ⟨h, rfl, hw.symm.trans hi, hq, hq'⟩
    · exact .inl ⟨hd, st, hh, hc, hw⟩
  case guest j =>
    by_cases hj : j = i
    case neg => exact .inl <| (others hj).symm.trans hx
    case pos =>
      subst hj
      obtain rfl | ⟨h, n, hd, st, rfl, hh, hc, hw, he⟩ :=
        m.serves (Option.some.inj <| after.symm.trans hx)
      · exact .inl before
      · refine .inr <| .inr ⟨rfl, h, ⟨hd, st, hh, hc, hw⟩, fun ⟨hd', st', hh', hc', _⟩ => ?_⟩
        rw [he, getElem?_modify_self hh] at hh'
        cases hh'
        cases hc'

structure Matched (b : Broker) : Prop where
  alone   : ∀ {i j h n m}, b.stake i = some (.claims h n) → b.stake j = some (.claims h m) → i = j
  awaited : ∀ {h hd}, b.handles[h]? = some hd → hd.claim.IsLive →
    ∃ i n, b.stake i = some (.claims h n)
  ended   : ∀ {w x}, b.Holds w x → b.stake w = some .ended
  sole    : ∀ {w x y}, b.Holds w x → b.Holds w y → x = y

namespace Matched

theorem start {config : Config} {policy : Policy} : (fresh config policy).Matched where
  alone h        := by cases h
  awaited h      := by cases h
  ended {_ x} h  := by cases x <;> simp [Holds, fresh, Broker.stake] at h
  sole {_ x _} h := by cases x <;> simp [Holds, fresh, Broker.stake] at h

theorem rests (m : b.Matched) (handles : b'.handles = b.handles)
    (kept : ∀ {j q}, b.stake j = some q → b'.stake j = some q)
    (fresh : ∀ {j q}, b'.stake j = some q → b.stake j = some q ∨ q = .new) : b'.Matched := by
  have old {w x} (hx : b'.Holds w x) : b.Holds w x := by
    cases x
    case guest => exact (fresh hx).resolve_right nofun
    case desk  => simpa [Holds, handles] using hx
  constructor
  case alone =>
    exact fun hi hj => m.alone ((fresh hi).resolve_right nofun) ((fresh hj).resolve_right nofun)
  case awaited =>
    intro h hd hh hl
    have ⟨i, n, hi⟩ := m.awaited (handles ▸ hh) hl
    exact ⟨i, n, kept hi⟩
  case ended => exact fun hx => kept (m.ended (old hx))
  case sole  => exact fun hx hy => m.sole (old hx) (old hy)

section

variable (m : b.Matched) (before : b.stake i = some q)
variable (move : b.Move i e q q' b'.registry b'.handles) (after : b'.stake i = some q')
include m before move after

-- Who asks for a registration is the only one: nobody has claimed it before.
theorem claims_apart (t : b.Tended) {n n' : Name} (hj : j ≠ i)
    (hb : b.stake j = some (.claims h n)) : b'.stake i ≠ some (.claims h n') := by
  intro hi
  obtain ⟨hq, -⟩ | ⟨-, hf, -⟩ := move.claims_of t (Option.some.inj <| after.symm.trans hi)
  · exact hj <| m.alone hb (hq ▸ before)
  · exact t.handle_ne_of_claims (Registry.mem_of_find? hf) hb rfl

variable (others : ∀ {j}, j ≠ i → b'.stake j = b.stake j)
include others

theorem awaited_of_moves (hh : b'.handles[h]? = some hd) (hl : hd.claim.IsLive) :
    ∃ j n, b'.stake j = some (.claims h n) := by
  generalize hc : hd.claim = c at hl
  cases hc ▸ move.arises hh (hc ▸ hl)
  case asks n => exact ⟨i, n, after⟩
  case hands own wire handle claim =>
    have ⟨j, n, hj⟩ := m.awaited handle (.inl claim)
    have hn : j ≠ i := fun he => by cases before.symm.trans (he ▸ hj)
    exact ⟨j, n, (others hn).trans hj⟩
  case stands handle waits =>
    have ⟨j, n, hj⟩ := m.awaited handle hl
    by_cases hn : j = i
    case neg => exact ⟨j, n, (others hn).trans hj⟩
    case pos =>
      have hq := Option.some.inj <| before.symm.trans (hn ▸ hj)
      exact ⟨i, n, hq ▸ waits n hq ▸ after⟩

theorem sole_of_moves (hx : b'.Holds w x) (hy : b'.Holds w y) : x = y := by
  -- A session that has handed its connection over is over, and does not do it again.
  have busy {x h} (hx : b.Holds w x) (hw : w = i) (hq : q = .provides h) : False := by
    cases (hw ▸ m.ended hx).symm.trans (hq ▸ before)
  obtain ox | ⟨h, rfl, hw, hq, _⟩ | ⟨rfl, h, od, nd⟩ := move.holds before after others hx <;>
    obtain oy | ⟨h', rfl, hw', hq', _⟩ | ⟨rfl, h', od', nd'⟩ := move.holds before after others hy
  · exact m.sole ox oy
  · exact (busy ox hw' hq').elim
  · exact absurd (m.sole ox od' ▸ hx) nd'
  · exact (busy oy hw hq).elim
  · rw [Stake.provides.inj (hq.symm.trans hq')]
  · exact (busy od' hw hq).elim
  · exact absurd (m.sole oy od ▸ hy) nd
  · exact (busy od hw' hq').elim
  · rfl

end

theorem step (m : b.Matched) (t : b.Tended) (w : b.Wired) (h : b.Step e b') : b'.Matched := by
  have shift := h.shift w
  cases h.shift w
  case rests registry handles kept fresh => exact m.rests handles kept fresh
  case moves i q q' place before move after others =>
    constructor
    case alone =>
      intro j k h n n'
      exact alone_of_moves (P := fun q => ∃ n, q = .claims h n) others
        (fun ⟨_, hq⟩ ⟨_, hr⟩ hj hk => m.alone (hq ▸ hj) (hr ▸ hk))
        (fun hk ⟨_, hq⟩ ⟨_, hr⟩ hb => hr ▸ m.claims_apart before move after t hk (hq ▸ hb))
        ⟨n, rfl⟩ ⟨n', rfl⟩
    case awaited => exact fun hh hl => m.awaited_of_moves before move after others hh hl
    case ended =>
      intro w x hx
      obtain hx | ⟨_, _, rfl, _, rfl⟩ | ⟨_, _, hd, _⟩ := move.holds before after others hx
      · exact shift.ended (m.ended hx)
      · exact after
      · exact shift.ended (m.ended hd)
    case sole => exact fun hx hy => m.sole_of_moves before move after others hx hy

end Matched

-- What holds in every state that a broker gets to.
structure Sound (b : Broker) : Prop where
  wired   : b.Wired
  tended  : b.Tended
  matched : b.Matched

namespace Sound

variable {a : Broker} {config : Config} {policy : Policy} {es : List Event}

theorem step (s : b.Sound) (h : b.Step e b') : b'.Sound where
  wired   := s.wired.step h
  tended  := s.tended.step s.wired h
  matched := s.matched.step s.tended s.wired h

theorem of_run (h : (fresh config policy).run? es = some b) : b.Sound :=
  run_induction (P := fun _ b => b.Sound) ⟨.start, .start, .start⟩
    (fun _ s hs => s.step (step_of_step? hs)) h

theorem of_reaches (r : (fresh config policy).Reaches b) : b.Sound :=
  have ⟨_, h⟩ := r
  of_run h

theorem stable {Q : Broker → Prop} (keep : ∀ {b e b'}, b.Sound → b.Step e b' → Q b → Q b')
    (s : a.Sound) (r : a.Reaches b) (h : Q a) : Q b :=
  (r.stable (Q := fun b => b.Sound ∧ Q b)
    (fun hs h => ⟨h.left.step (step_of_step? hs), keep h.left (step_of_step? hs) h.right⟩)
    ⟨s, h⟩).right

theorem trails (s : a.Sound) (r : a.Reaches b) : Trails a.handles b.handles :=
  s.stable (Q := fun b => Trails a.handles b.handles)
    (fun s h t => t.trans (h.shift s.wired).trails) r (.refl _)

end Sound
end Broker
end Rendezvous
