import Rendezvous.Proofs.Leases

namespace Rendezvous.Broker

variable {config : Config} {policy : Policy} {b b' : Broker} {es : List Event} {i h m : Nat}
variable {st : Stream} {t : Instant} {hd : Handle}

def Idles (b : Broker) (i h : Nat) : Prop :=
  ∃ st m t, b.sessions[i]? = some ⟨st, .idling h m t⟩

theorem Idles.stake (hi : b.Idles i h) : b.stake i = some (.provides h) :=
  have ⟨_, _, _, hs⟩ := hi
  stake_of hs

-- The provider's next turn ends its wait, and nothing has to happen first.
def WakesNext (b : Broker) (i h : Nat) : Prop :=
  ∃ b', b.turn (.session i) = some b' ∧ ¬b'.Idles i h

theorem Calm.of_turn {s' : Session} {r : Registry} {hs : List Handle} {ws : Connections}
    (turn : b.Turn i st (.idling h m t) s' r hs ws) (hi : ∃ m t, s'.phase = .idling h m t) :
    b.Calm h := by
  have ⟨_, _, hp⟩ := hi
  cases turn <;> first | assumption | cases hp

theorem Idles.wakesNext (hi : b.Idles i h) (hh : b.handles[h]? = some hd)
    (hc : hd.closed = true ∨ ∃ w, hd.claim = .asked w) : b.WakesNext i h := by
  have ⟨st, m, t, hs⟩ := hi
  have ⟨b', hb⟩ : ∃ b', b.turn (.session i) = some b' := by
    have ⟨found, after, he⟩ := Handle.event_some hc
    simp only [turn, sessionTurn, hs, idle, hh, Option.map_some, he]
    cases found <;> exact ⟨_, rfl⟩
  refine ⟨b', hb, fun ⟨st', m', t', hs'⟩ => ?_⟩
  -- Every turn that leaves the provider waiting has found nothing at the lease.
  obtain ⟨s, hs₀, s', r, hds, ws, turn, rfl⟩ := turn_turns hb
  cases hs.symm.trans hs₀
  cases (getElem?_after hs).symm.trans hs'
  have ⟨ho, hw⟩ := Calm.of_turn turn ⟨m', t', rfl⟩ hd hh
  obtain hc | ⟨w, hc⟩ := hc
  · exact absurd hc (by simp [ho])
  · exact hw w hc

-- Nothing that is registered has been asked to leave, and a provider that waits is registered, or
-- has been asked to leave, or has a request at its lease. If it is not registered its next turn ends
-- its wait.
theorem no_provider_orphaned (run : (fresh config policy).run? es = some b) :
    (∀ x ∈ b.registry.entries, ∃ hd, b.handles[x.handle]? = some hd ∧ hd.closed = false) ∧
    ∀ i h, b.Idles i h → ∃ hd, b.handles[h]? = some hd ∧
      (b.registry.find? hd.name = some ⟨h, hd.name⟩ ∨ hd.closed = true ∨
        ∃ w, hd.claim = .asked w) ∧
      (b.registry.find? hd.name ≠ some ⟨h, hd.name⟩ → b.WakesNext i h) := by
  have tended := Tended.of_run run
  constructor
  case left =>
    intro x hx
    have ⟨hd, hh, _, ho, _⟩ := tended.enrolled hx
    exact ⟨hd, hh, ho⟩
  case right =>
    intro i h hi
    have ⟨hd, hh, _, ha⟩ := tended.leased hi.stake
    have ha := ha.imp_left fun hx => tended.unique.find?_of_mem hx
    exact ⟨hd, hh, ha, fun hn => hi.wakesNext hh (ha.resolve_left hn)⟩

def registering : List Event :=
  [.accept {} {}, .change 0 (.send (Bytes.ofText "REGISTER:cam1\n")), .turn (.session 0),
    .turn (.session 0), .turn (.session 0)]

theorem no_provider_orphaned_registering :
    ∃ b, (fresh {} Policy.allowAll).run? registering = some b ∧ b.Idles 0 0 ∧
      ∃ hd, b.handles[0]? = some hd ∧
        (b.registry.find? hd.name = some ⟨0, hd.name⟩ ∨ hd.closed = true ∨
          ∃ w, hd.claim = .asked w) := by
  have ⟨b, hb, hi⟩ : ∃ b, (fresh {} Policy.allowAll).run? registering = some b ∧
      b.sessions[0]?.map Session.phase = some (.idling 0 0 30000000000) :=
    Option.map_eq_some_iff.mp (by decide +kernel)
  have ⟨⟨st, _⟩, hs, hp⟩ := Option.map_eq_some_iff.mp hi
  have idles : b.Idles 0 0 := ⟨st, 0, 30000000000, by rw [hs, ← hp]⟩
  have ⟨hd, hh, ha, _⟩ := (no_provider_orphaned hb).right 0 0 idles
  exact ⟨b, hb, idles, hd, hh, ha⟩

end Rendezvous.Broker
