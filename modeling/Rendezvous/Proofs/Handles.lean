import Rendezvous.Broker.Handoff

namespace Rendezvous

namespace Claim

def IsLive (c : Claim) : Prop := c = asked true ∨ ∃ st, c = given st

def stage : Claim → Nat
  | unmade  => 0
  | asked w => if w then 1 else 2
  | held w  => if w then 3 else 4
  | given _ => 5
  | settled => 6

variable {c : Claim}

theorem eq_unmade (h : c.stage = 0) : c = unmade := by
  cases c
  case unmade           => rfl
  case asked w | held w => cases w <;> cases h
  case given | settled  => cases h

end Claim

namespace Handle

variable {hd hd' hd'' : Handle} {st : Stream}

-- A handle as it was and as it is later.
structure Follows (hd hd' : Handle) : Prop where
  name   : hd'.name = hd.name
  closed : hd.closed = true → hd'.closed = true
  claim  : hd'.claim = hd.claim ∨ hd.claim.stage < hd'.claim.stage

namespace Follows

theorem refl (hd : Handle) : hd.Follows hd := ⟨rfl, id, .inl rfl⟩

theorem trans (h : hd.Follows hd') (h' : hd'.Follows hd'') : hd.Follows hd'' where
  name     := h'.name.trans h.name
  closed c := h'.closed (h.closed c)
  claim    := by
    cases h.claim <;> cases h'.claim
    case inl.inl hc hc' => exact .inl (hc'.trans hc)
    case inl.inr hc hc' => exact .inr (hc ▸ hc')
    case inr.inl hc hc' => exact .inr (hc' ▸ hc)
    case inr.inr hc hc' => exact .inr (Nat.lt_trans hc hc')

theorem stage_le (h : hd.Follows hd') : hd.claim.stage ≤ hd'.claim.stage := by
  cases h.claim
  case inl hc => exact hc ▸ Nat.le_refl _
  case inr hc => exact Nat.le_of_lt hc

theorem claim_ne_unmade (h : hd.Follows hd') (hc : hd.claim ≠ .unmade) : hd'.claim ≠ .unmade := by
  intro hu
  have hs := h.stage_le
  rw [hu] at hs
  exact hc <| Claim.eq_unmade (Nat.le_zero.mp hs)

end Follows

theorem close_follows : hd.Follows hd.close := ⟨rfl, fun _ => rfl, .inl rfl⟩

theorem settle_follows {leased : Bool} : hd.Follows { hd with leased, claim := .settled } := by
  refine ⟨rfl, id, ?_⟩
  cases hc : hd.claim
  case settled => exact .inl rfl
  case asked w | held w => cases w <;> exact .inr (by simp [Claim.stage])
  all_goals exact .inr (by simp [Claim.stage])

theorem take_follows : hd.Follows hd.take.2 := by
  unfold take
  split
  case isTrue => exact .refl hd
  case isFalse =>
    split
    case h_2 => exact .refl hd
    case h_1 hc =>
      split
      · exact ⟨rfl, id, .inr (by simp [hc, Claim.stage])⟩
      · exact settle_follows

theorem dropLease_follows : hd.Follows hd.dropLease := by
  unfold dropLease
  split
  · exact settle_follows
  · exact ⟨rfl, id, .inl rfl⟩

theorem pickUp_follows : hd.Follows hd.pickUp := settle_follows

theorem abandonTake_follows : hd.Follows hd.abandonTake.2 := by
  unfold abandonTake
  split
  case h_1 w hc | h_2 w hc =>
    cases w
    · exact ⟨rfl, id, .inl hc.symm⟩
    · exact ⟨rfl, id, .inr (by simp [hc, Claim.stage])⟩
  case h_3 st hc => exact settle_follows
  case h_4 => exact .refl hd

theorem give_follows {leased : Bool} (hc : hd.claim = .asked true) :
    hd.Follows { hd with leased, claim := .given st } :=
  ⟨rfl, id, .inr (by simp [hc, Claim.stage])⟩

theorem event_follows : hd.Follows hd.event.2 := by
  unfold event
  split
  case isTrue => exact .refl hd
  case isFalse =>
    split
    case h_1 w hc => exact ⟨rfl, id, .inr (by cases w <;> simp [hc, Claim.stage])⟩
    case h_2      => exact .refl hd

theorem handOver_follows : hd.Follows (hd.handOver st).2 := by
  unfold handOver
  split
  case h_1 hc => exact ⟨rfl, id, .inr (by simp [hc, Claim.stage])⟩
  case h_2    => exact settle_follows
  case h_3    => exact .refl hd

theorem dropClaim_follows : hd.Follows hd.dropClaim := by
  unfold dropClaim
  split
  case h_1 => exact settle_follows
  case h_2 => exact .refl hd

@[simp]
theorem leased_take : hd.take.2.leased = hd.leased := by
  unfold take
  repeat' split
  all_goals rfl

@[simp]
theorem leased_abandonTake : hd.abandonTake.2.leased = hd.leased := by
  unfold abandonTake
  split <;> rfl

theorem take_eq (h : hd.take.1 = true) :
    hd.closed = false ∧ hd.claim = .unmade ∧ hd.leased = true ∧
      hd.take.2 = { hd with claim := .asked true } := by
  unfold take at h ⊢
  (repeat' split at h) <;> simp_all

theorem abandonTake_asked {w : Bool} (h : hd.claim = .asked w) :
    hd.abandonTake.2 = { hd with claim := .asked false } := by
  simp [abandonTake, h]

theorem given_of_abandonTake (h : hd.abandonTake.1 = some st) : hd.claim = .given st := by
  unfold abandonTake at h
  split at h <;> cases h
  assumption

theorem claim_of_take (h : hd.take.1 = false) (hl : hd.take.2.claim.IsLive) :
    hd.take.2.claim = hd.claim := by
  unfold take at h hl ⊢
  (repeat' split) <;> simp_all [Claim.IsLive]

theorem claim_of_dropLease (h : hd.dropLease.claim.IsLive) :
    hd.dropLease.claim = hd.claim ∧ hd.claim ≠ .asked true := by
  unfold dropLease at h ⊢
  split <;> simp_all [Claim.IsLive]

theorem not_live_abandonTake : ¬hd.abandonTake.2.claim.IsLive := by
  unfold abandonTake
  split <;> simp_all [Claim.IsLive]

theorem event_some (h : hd.closed = true ∨ ∃ w, hd.claim = .asked w) :
    ∃ found after, hd.event = (some found, after) := by
  unfold event
  split
  case isTrue     => exact ⟨_, _, rfl⟩
  case isFalse ho =>
    have ⟨w, hw⟩ := h.resolve_left ho
    simp only [hw]
    exact ⟨_, _, rfl⟩

end Handle

def Trails (hs hs' : List Handle) : Prop :=
  ∀ (h : Nat) (hd : Handle), hs[h]? = some hd → ∃ hd', hs'[h]? = some hd' ∧ hd.Follows hd'

namespace Trails

variable {hs hs' hs'' : List Handle} {f : Handle → Handle} {hd : Handle} {h : Nat}

theorem refl (hs : List Handle) : Trails hs hs := fun _ _ hh => ⟨_, hh, .refl _⟩

theorem trans (t : Trails hs hs') (t' : Trails hs' hs'') : Trails hs hs'' := fun _ _ hh =>
  have ⟨_, hh, hf⟩ := t _ _ hh
  have ⟨_, hh, hf'⟩ := t' _ _ hh
  ⟨_, hh, hf.trans hf'⟩

theorem of_modify (hf : ∀ hd, hs[h]? = some hd → hd.Follows (f hd)) : Trails hs (hs.modify h f) := by
  intro j hd hj
  refine ⟨if h = j then f hd else hd, by simp [List.getElem?_modify, hj], ?_⟩
  split
  case isTrue hh => exact hf hd (hh ▸ hj)
  case isFalse   => exact .refl hd

theorem of_append : Trails hs (hs ++ [hd]) := by
  intro j hd hj
  have ⟨hl, _⟩ := List.getElem?_eq_some_iff.mp hj
  exact ⟨hd, by rw [List.getElem?_append_left hl, hj], .refl hd⟩

end Trails
end Rendezvous
