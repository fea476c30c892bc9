import Rendezvous.Proofs.Handles
import Rendezvous.Proofs.Registry
import Rendezvous.Proofs.Stakes

namespace Rendezvous.Broker

variable {b b' : Broker} {e : Event} {i j h : Nat} {q q' : Stake} {r : Registry}
variable {hs : List Handle} {hd : Handle} {x : Registration} {n : Name}

theorem getElem?_closeReplaced {previous : Option Registration} :
    (closeReplaced previous hs)[h]? =
      if previous.map Registration.handle = some h then hs[h]?.map Handle.close else hs[h]? := by
  cases previous <;> simp [closeReplaced, List.getElem?_modify]
  split <;> simp_all

theorem getElem?_closeReplaced_old {previous : Option Registration} {new : Handle}
    (hh : hs[h]? = some hd) : (closeReplaced previous (hs ++ [new]))[h]? =
      some (if previous.map Registration.handle = some h then hd.close else hd) := by
  have lt := (List.getElem?_eq_some_iff.mp hh).choose
  rw [getElem?_closeReplaced, List.getElem?_append_left lt, hh]
  split <;> rfl

theorem getElem?_closeReplaced_new (previous : Option Registration) (hs : List Handle)
    (hd : Handle) :
    ∃ hd', (closeReplaced previous (hs ++ [hd]))[hs.length]? = some hd' ∧ hd'.name = hd.name := by
  rw [getElem?_closeReplaced, List.getElem?_concat_length]
  split <;> exact ⟨_, rfl, rfl⟩

theorem getElem?_modify_self {f : Handle → Handle} (hh : hs[h]? = some hd) :
    (hs.modify h f)[h]? = some (f hd) := by
  simp [hh]

theorem getElem?_modify_ne {f : Handle → Handle} (hj : j ≠ h) : (hs.modify h f)[j]? = hs[j]? := by
  simp [hj.symm]

theorem Move.trails (m : b.Move i e q q' r hs) : Trails b.handles hs := by
  cases m
  case stays | refuses | ends => exact .refl _
  case registers n p =>
    refine .trans .of_append (?_ : Trails (b.handles ++ [{ name := n, peer := p }]) _)
    cases b.registry.find? n
    case none => exact .refl _
    case some => exact .of_modify fun _ _ => Handle.close_follows
  case claims => exact .of_modify fun _ _ => Handle.take_follows
  case misses =>
    exact .trans (.of_modify fun _ _ => Handle.take_follows)
      (.of_modify fun _ _ => Handle.close_follows)
  case leaves | drops => exact .of_modify fun _ _ => Handle.dropLease_follows
  case handsOver wire handle «open» claim =>
    refine .of_modify fun hd' hh => Handle.give_follows ?_
    exact Option.some.inj (hh.symm.trans handle) ▸ claim
  case offers   => exact .of_modify fun _ _ => Handle.settle_follows
  case picksUp  => exact .of_modify fun _ _ => Handle.pickUp_follows
  case givesUp  =>
    exact .trans (.of_modify fun _ _ => Handle.abandonTake_follows)
      (.of_modify fun _ _ => Handle.close_follows)
  case despairs => exact .of_modify fun _ _ => Handle.close_follows
  case forgoes  => exact .of_modify fun _ _ => Handle.abandonTake_follows

-- Somebody can find a provider, has asked it to leave, or has left a request at its lease.
def Attended (r : Registry) (h : Nat) (hd : Handle) : Prop :=
  ⟨h, hd.name⟩ ∈ r.entries ∨ hd.closed = true ∨ ∃ w, hd.claim = .asked w

-- The registry and the leases: what is registered can be claimed, and a provider that cannot be
-- found any more has been asked to leave or has a request at its lease.
structure Tended (b : Broker) : Prop where
  unique   : b.registry.Unique
  enrolled : ∀ {x}, x ∈ b.registry.entries → ∃ hd, b.handles[x.handle]? = some hd ∧
    hd.name = x.name ∧ hd.closed = false ∧ hd.claim = .unmade
  leased   : ∀ {i h}, b.stake i = some (.provides h) → ∃ hd, b.handles[h]? = some hd ∧
    hd.leased = true ∧ Attended b.registry h hd
  alone    : ∀ {i j h}, b.stake i = some (.provides h) → b.stake j = some (.provides h) → i = j
  claimed  : ∀ {i h n}, b.stake i = some (.claims h n) → ∃ hd, b.handles[h]? = some hd ∧
    hd.name = n ∧ hd.claim ≠ .unmade

namespace Tended

theorem start {config : Config} {policy : Policy} : (fresh config policy).Tended where
  unique     := .empty
  enrolled h := by cases h
  leased h   := by cases h
  alone h    := by cases h
  claimed h  := by cases h

variable (t : b.Tended)
include t

theorem name_eq_of_handle_eq {y : Registration} (hx : x ∈ b.registry.entries)
    (hy : y ∈ b.registry.entries) (he : x.handle = y.handle) : x.name = y.name := by
  have ⟨hd, hh, hn, _⟩ := t.enrolled hx
  have ⟨hd', hh', hn', _⟩ := t.enrolled hy
  rw [he, hh'] at hh
  cases hh
  exact hn.symm.trans hn'

theorem handle_ne_of_name_ne {y : Registration} (hf : b.registry.find? n = some y)
    (hx : x ∈ b.registry.entries) (hn : x.name ≠ n) : x.handle ≠ y.handle := fun he =>
  hn <| (t.name_eq_of_handle_eq hx (Registry.mem_of_find? hf) he).trans <|
    Registry.name_eq_of_find? hf

theorem mem_erase {y : Registration} (hf : b.registry.find? n = some y)
    (hx : x ∈ b.registry.entries) (hh : x.handle ≠ y.handle) : x ∈ (b.registry.erase n).entries := by
  refine Registry.mem_erase.mpr ⟨hx, fun hn => hh ?_⟩
  have hn := hn.trans (Registry.name_eq_of_find? hf).symm
  rw [t.unique.eq_of_name_eq hx (Registry.mem_of_find? hf) hn]

theorem handle_ne_of_claim_ne (hx : x ∈ b.registry.entries) (hh : b.handles[h]? = some hd)
    (hc : hd.claim ≠ .unmade) : x.handle ≠ h := by
  intro he
  have ⟨_, hh', _, _, hu⟩ := t.enrolled hx
  rw [he, hh] at hh'
  cases hh'
  exact hc hu

theorem handle_ne_of_claims (hx : x ∈ b.registry.entries) (hq : b.stake i = some (.claims h n)) :
    x.handle ≠ h :=
  have ⟨_, hh, _, hc⟩ := t.claimed hq
  t.handle_ne_of_claim_ne hx hh hc

theorem handle_lt (hx : x ∈ b.registry.entries) : x.handle < b.handles.length :=
  have ⟨_, hh, _⟩ := t.enrolled hx
  (List.getElem?_eq_some_iff.mp hh).choose

theorem mem_unregister (hh : b.handles[h]? = some hd) :
    x ∈ (b.unregister h).registry.entries ↔
      x ∈ b.registry.entries ∧ ¬(x.name = hd.name ∧ x.handle = h) := by
  simp only [unregister, hh]
  exact t.unique.mem_unregister

theorem handle_ne_of_unregister (hx : x ∈ (b.unregister h).registry.entries) :
    x ∈ b.registry.entries ∧ x.handle ≠ h := by
  cases hh : b.handles[h]?
  case none =>
    have hx : x ∈ b.registry.entries := by simpa [unregister, hh] using hx
    refine ⟨hx, fun he => ?_⟩
    have hl := t.handle_lt hx
    rw [he] at hl
    exact Nat.not_lt.mpr (List.getElem?_eq_none_iff.mp hh) hl
  case some hd =>
    have ⟨hx, hn⟩ := (t.mem_unregister hh).mp hx
    refine ⟨hx, fun he => hn ⟨?_, he⟩⟩
    have ⟨hd', hh', hn', _⟩ := t.enrolled hx
    rw [he, hh] at hh'
    cases hh'
    exact hn'.symm

end Tended

theorem Move.unique (m : b.Move i e q q' r hs) (t : b.Tended) : r.Unique := by
  cases m
  case registers       => exact t.unique.register
  case claims | misses => exact t.unique.erase
  case leaves h _      =>
    unfold unregister
    split
    · exact t.unique.unregister
    · exact t.unique
  all_goals exact t.unique

theorem Move.enrolled (m : b.Move i e q q' r hs) (t : b.Tended) (hi : b.stake i = some q)
    (hx : x ∈ r.entries) :
    ∃ hd, hs[x.handle]? = some hd ∧ hd.name = x.name ∧ hd.closed = false ∧ hd.claim = .unmade := by
  cases m
  case stays | refuses | ends => exact t.enrolled hx
  case registers n p =>
    rw [getElem?_closeReplaced]
    obtain rfl | ⟨hx, hn⟩ := Registry.mem_register.mp hx
    · have hc : ¬(b.registry.find? n).map Registration.handle = some b.handles.length := by
        intro hc
        have ⟨y, hf, hy⟩ := Option.map_eq_some_iff.mp hc
        exact Nat.ne_of_lt (t.handle_lt (Registry.mem_of_find? hf)) hy
      rw [if_neg hc, List.getElem?_concat_length]
      exact ⟨_, rfl, rfl, rfl, rfl⟩
    · have hc : ¬(b.registry.find? n).map Registration.handle = some x.handle := by
        intro hc
        have ⟨y, hf, hy⟩ := Option.map_eq_some_iff.mp hc
        exact t.handle_ne_of_name_ne hf hx hn hy.symm
      rw [if_neg hc, List.getElem?_append_left (t.handle_lt hx)]
      exact t.enrolled hx
  case claims n y hd found handle take =>
    have ⟨hx, hn⟩ := Registry.mem_erase.mp hx
    rw [getElem?_modify_ne (t.handle_ne_of_name_ne found hx hn)]
    exact t.enrolled hx
  case misses n y found take =>
    have ⟨hx, hn⟩ := Registry.mem_erase.mp hx
    have hy := t.handle_ne_of_name_ne found hx hn
    rw [getElem?_modify_ne hy, getElem?_modify_ne hy]
    exact t.enrolled hx
  case leaves h _ =>
    have ⟨hx, hn⟩ := t.handle_ne_of_unregister hx
    rw [getElem?_modify_ne hn]
    exact t.enrolled hx
  case drops h _ =>
    have ⟨hd, hh, hn, hc, hu⟩ := t.enrolled hx
    by_cases he : x.handle = h
    case neg => exact ⟨hd, by rw [getElem?_modify_ne he, hh], hn, hc, hu⟩
    case pos =>
      refine ⟨hd.dropLease, he ▸ getElem?_modify_self (he ▸ hh), ?_⟩
      simpa [Handle.dropLease, hu] using ⟨hn, hc⟩
  case handsOver handle _ claim | offers handle _ claim =>
    rw [getElem?_modify_ne (t.handle_ne_of_claim_ne hx handle (by simp [claim]))]
    exact t.enrolled hx
  case picksUp | despairs | forgoes =>
    rw [getElem?_modify_ne (t.handle_ne_of_claims hx hi)]
    exact t.enrolled hx
  case givesUp =>
    have hn := t.handle_ne_of_claims hx hi
    rw [getElem?_modify_ne hn, getElem?_modify_ne hn]
    exact t.enrolled hx

theorem attended_modify {f : Handle → Handle} {h' : Nat} (hh : hs[h]? = some hd)
    (other : h ≠ h' → hd.leased = true ∧ Attended r h hd)
    (own : h = h' → (f hd).leased = true ∧ Attended r h (f hd)) :
    ∃ hd', (hs.modify h' f)[h]? = some hd' ∧ hd'.leased = true ∧ Attended r h hd' := by
  by_cases he : h = h'
  case pos => exact ⟨f hd, he ▸ getElem?_modify_self (he ▸ hh), own he⟩
  case neg => exact ⟨hd, (getElem?_modify_ne he).trans hh, other he⟩

-- What other sessions do leaves a lease to its provider, and the provider attended.
theorem Move.attended (m : b.Move i e q q' r hs) (t : b.Tended) (hi : b.stake i = some q)
    (hq : q ≠ .provides h) (hh : b.handles[h]? = some hd) (hl : hd.leased = true)
    (ha : Attended b.registry h hd) :
    ∃ hd', hs[h]? = some hd' ∧ hd'.leased = true ∧ Attended r h hd' := by
  cases m
  case stays | refuses | ends => exact ⟨hd, hh, hl, ha⟩
  case registers n p =>
    rw [getElem?_closeReplaced_old hh]
    split
    case isTrue hc  => exact ⟨hd.close, rfl, hl, .inr <| .inl rfl⟩
    case isFalse hc =>
      refine ⟨hd, rfl, hl, ha.imp_left fun hx => ?_⟩
      refine Registry.mem_register.mpr <| .inr ⟨hx, fun hn => hc ?_⟩
      rw [← (show hd.name = n from hn), t.unique.find?_of_mem hx]
      rfl
  case claims n y hd' found handle take =>
    refine attended_modify hh (fun he => ⟨hl, ha.imp_left fun hx => t.mem_erase found hx he⟩) fun he => ?_
    cases (he ▸ hh).symm.trans handle
    have ⟨_, _, _, ht⟩ := Handle.take_eq take
    exact ⟨Handle.leased_take.trans hl, .inr <| .inr ⟨true, by rw [ht]⟩⟩
  case misses n y found take =>
    rw [List.modify_modify_eq]
    refine attended_modify hh (fun he => ⟨hl, ha.imp_left fun hx => t.mem_erase found hx he⟩) fun _ => ?_
    exact ⟨Handle.leased_take.trans hl, .inr <| .inl rfl⟩
  case leaves h' _ =>
    refine attended_modify hh (fun he => ⟨hl, ha.imp_left fun hx => ?_⟩)
      fun he => absurd (congrArg _ he.symm) hq
    cases hh' : b.handles[h']?
    case none     => simpa [unregister, hh'] using hx
    case some hd' => exact (t.mem_unregister hh').mpr ⟨hx, fun hc => he hc.right⟩
  case drops | handsOver | offers =>
    exact attended_modify hh (fun _ => ⟨hl, ha⟩) fun he => absurd (congrArg _ he.symm) hq
  case picksUp h' n hd' st handle claim =>
    refine attended_modify hh (fun _ => ⟨hl, ha⟩) fun he => ⟨hl, ?_⟩
    cases (he ▸ hh).symm.trans handle
    -- The provider has handed over already, so there is neither a registration nor a request.
    obtain hx | hc | ⟨w, hw⟩ := ha
    · exact absurd rfl <| t.handle_ne_of_claim_ne hx hh (by simp [claim])
    · exact .inr <| .inl hc
    · simp [claim] at hw
  case givesUp =>
    rw [List.modify_modify_eq]
    exact attended_modify hh (fun _ => ⟨hl, ha⟩) fun _ =>
      ⟨Handle.leased_abandonTake.trans hl, .inr <| .inl rfl⟩
  case despairs =>
    exact attended_modify hh (fun _ => ⟨hl, ha⟩) fun _ => ⟨hl, .inr <| .inl rfl⟩
  case forgoes h' n _ =>
    refine attended_modify hh (fun _ => ⟨hl, ha⟩) fun he => ⟨Handle.leased_abandonTake.trans hl, ?_⟩
    obtain hx | hc | ⟨w, hw⟩ := ha
    · exact absurd he <| t.handle_ne_of_claims hx hi
    · exact .inr <| .inl <| Handle.abandonTake_follows.closed hc
    · exact .inr <| .inr ⟨false, by rw [Handle.abandonTake_asked hw]⟩

-- Only a registration makes a provider, with a handle that nobody has had before.
theorem Move.provides (m : b.Move i e q q' r hs) (hq : q' = .provides h) :
    q = .provides h ∧ r = b.registry ∧ hs = b.handles ∨
      q = .new ∧ h = b.handles.length ∧ ∃ hd, hs[h]? = some hd ∧ hd.leased = true ∧
        r = (b.registry.register ⟨h, hd.name⟩).2 := by
  cases m <;> try cases hq
  case stays => exact .inl ⟨rfl, rfl, rfl⟩
  case leaves gone => obtain hg | hg := gone <;> cases hg
  case registers n p =>
    refine .inr ⟨rfl, rfl, ?_⟩
    rw [getElem?_closeReplaced, List.getElem?_concat_length]
    split
    all_goals exact ⟨_, rfl, rfl, rfl⟩

theorem Move.claims_of (m : b.Move i e q q' r hs) (t : b.Tended) (hq : q' = .claims h n) :
    q = .claims h n ∧ r = b.registry ∧ hs = b.handles ∨
      q = .new ∧ b.registry.find? n = some ⟨h, n⟩ ∧ r = b.registry.erase n ∧
        ∃ hd, hs[h]? = some hd ∧ hd.name = n ∧ hd.closed = false ∧ hd.claim = .asked true := by
  cases m <;> try cases hq
  case stays => exact .inl ⟨rfl, rfl, rfl⟩
  case leaves gone => obtain hg | hg := gone <;> cases hg
  case claims y hd handle take found =>
    have hy := Registry.name_eq_of_find? found
    have ⟨hd', hh, hn, _⟩ := t.enrolled <| Registry.mem_of_find? found
    cases handle.symm.trans hh
    refine .inr ⟨rfl, hy ▸ found, rfl, _, getElem?_modify_self hh, ?_⟩
    have ⟨ho, _, _, ht⟩ := Handle.take_eq take
    rw [ht]
    exact ⟨hn.trans hy, ho, rfl⟩

namespace Tended

theorem rests (t : b.Tended) (registry : b'.registry = b.registry) (handles : b'.handles = b.handles)
    (fresh : ∀ {j q}, b'.stake j = some q → b.stake j = some q ∨ q = .new) : b'.Tended where
  unique      := registry ▸ t.unique
  enrolled hx := handles ▸ t.enrolled (registry ▸ hx)
  leased hj   := handles ▸ registry ▸ t.leased ((fresh hj).resolve_right nofun)
  alone hj hk := t.alone ((fresh hj).resolve_right nofun) ((fresh hk).resolve_right nofun)
  claimed hj  := handles ▸ t.claimed ((fresh hj).resolve_right nofun)

section

variable (t : b.Tended) (before : b.stake i = some q)
variable (move : b.Move i e q q' b'.registry b'.handles) (after : b'.stake i = some q')
include t before move after

theorem provides_apart (hj : j ≠ i) (hb : b.stake j = some (.provides h)) :
    b'.stake i ≠ some (.provides h) := by
  intro hi
  obtain ⟨hq, -⟩ | ⟨-, rfl, -⟩ := move.provides (Option.some.inj <| after.symm.trans hi)
  · exact hj <| t.alone hb (hq ▸ before)
  · have ⟨_, hh, _⟩ := t.leased hb
    exact Nat.lt_irrefl _ (List.getElem?_eq_some_iff.mp hh).choose

variable (others : ∀ {j}, j ≠ i → b'.stake j = b.stake j)
include others

theorem leased_of_moves (hj : b'.stake j = some (.provides h)) :
    ∃ hd, b'.handles[h]? = some hd ∧ hd.leased = true ∧ Attended b'.registry h hd := by
  by_cases he : j = i
  case pos =>
    subst he
    obtain ⟨hq, hr, hs⟩ | ⟨-, -, hd, hh, hl, hr⟩ :=
      move.provides (Option.some.inj <| after.symm.trans hj)
    · exact hr ▸ hs ▸ t.leased (hq ▸ before)
    · exact ⟨hd, hh, hl, .inl <| hr ▸ Registry.mem_register.mpr (.inl rfl)⟩
  case neg =>
    have hj := (others he).symm.trans hj
    have ⟨hd, hh, hl, ha⟩ := t.leased hj
    exact move.attended t before (fun hq => he <| t.alone hj (hq ▸ before)) hh hl ha

theorem claimed_of_moves (hj : b'.stake j = some (.claims h n)) :
    ∃ hd, b'.handles[h]? = some hd ∧ hd.name = n ∧ hd.claim ≠ .unmade := by
  by_cases he : j = i
  case pos =>
    subst he
    obtain ⟨hq, hr, hs⟩ | ⟨-, -, -, hd, hh, hn, -, hc⟩ :=
      move.claims_of t (Option.some.inj <| after.symm.trans hj)
    · exact hs ▸ t.claimed (hq ▸ before)
    · exact ⟨hd, hh, hn, by simp [hc]⟩
  case neg =>
    have ⟨hd, hh, hn, hc⟩ := t.claimed ((others he).symm.trans hj)
    have ⟨hd', hh', hf⟩ := move.trails _ _ hh
    exact ⟨hd', hh', hf.name.trans hn, hf.claim_ne_unmade hc⟩

theorem moves : b'.Tended where
  unique      := move.unique t
  enrolled hx := move.enrolled t before hx
  leased hj   := t.leased_of_moves before move after others hj
  alone {_ _ h} hj hk :=
    alone_of_moves (P := (· = .provides h)) others
      (fun hq hr hj hk => t.alone (hq ▸ hj) (hr ▸ hk))
      (fun hk hq hr hb => hr ▸ t.provides_apart before move after hk (hq ▸ hb)) rfl rfl hj hk
  claimed hj  := t.claimed_of_moves before move after others hj

end

theorem step (t : b.Tended) (w : b.Wired) (h : b.Step e b') : b'.Tended := by
  cases h.shift w
  case rests registry handles kept fresh              => exact t.rests registry handles fresh
  case moves i q q' place before move after others    => exact t.moves before move after others

theorem of_run {config : Config} {policy : Policy} {es : List Event}
    (h : (fresh config policy).run? es = some b) : b.Tended :=
  run_induction (P := fun _ b => b.Tended) .start
    (fun hr t hs => t.step (.of_run hr) (step_of_step? hs)) h

end Tended

end Rendezvous.Broker
