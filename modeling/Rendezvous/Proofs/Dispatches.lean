import Rendezvous.Proofs.Encounters
import Rendezvous.Proofs.SlicedStep

namespace Rendezvous.Broker

variable {a b b' : Broker} {e : Event} {es : List Event} {config : Config} {policy : Policy}
variable {i h w : Nat} {n m : Name} {c : Command} {x : Registration} {st : Stream} {s s' : Session}
variable {p : Phase} {r : Registry} {hs : List Handle} {ws : Connections} {hd : Handle}

def dispatchedBy (b : Broker) : Event → List (Nat × Name)
  | .turn (.session i) => (b.dispatches? i).toList.map fun c => (i, c.name)
  | _ => []

def dispatched (b : Broker) (es : List Event) : List (Nat × Name) := b.along dispatchedBy es

def Dispatches (i : Nat) (n : Name) : Happening := fun b e _ => (i, n) ∈ b.dispatchedBy e

theorem mem_dispatched (run : a.run? es = some b) :
    (i, n) ∈ a.dispatched es ↔ a.Occurs es (Dispatches i n) := mem_along run

theorem dispatches_iff :
    Dispatches i n b e b' ↔ e = .turn (.session i) ∧ ∃ c, b.dispatches? i = some c ∧ c.name = n := by
  unfold Dispatches dispatchedBy
  split
  case h_1 j =>
    simp only [List.mem_map, Option.mem_toList, Prod.mk.injEq, Event.turn.injEq,
      Task.session.injEq]
    constructor
    · rintro ⟨c, hc, rfl, hn⟩
      exact ⟨rfl, c, hc, hn⟩
    · rintro ⟨rfl, c, hc, hn⟩
      exact ⟨c, hc, rfl, hn⟩
  case h_2 other => exact ⟨nofun, fun ⟨he, _⟩ => absurd he (other i)⟩

theorem hears_of_dispatches? (h : b.dispatches? i = some c) :
    ∃ st rd t text st' ws, b.sessions[i]? = some ⟨st, .identifying rd t⟩ ∧
      b.Hears st rd text st' ws ∧ b.allowed? i st'.peer text = some c := by
  unfold dispatches? at h
  split at h <;> try cases h
  split at h <;> try cases h
  split at h <;> try cases h
  exact ⟨_, _, _, _, _, _, ‹_›, ⟨_, _, _, ‹_›, ‹_›, rfl⟩, h⟩

theorem of_allowed? {peer : Peer} {line : String} (h : b.allowed? i peer line = some c) :
    Command.ofLine line = .ok c ∧
      ∀ role, (c = .register c.name ∧ role = .provider ∨ c = .request c.name ∧ role = .consumer) →
        b.policy i ⟨role, c.name, peer⟩ = none := by
  unfold allowed? at h
  split at h <;> try cases h
  all_goals
    split at h <;> cases h
    refine ⟨‹_›, fun role asks => ?_⟩
    obtain ⟨he, rfl⟩ | ⟨he, rfl⟩ := asks <;> first | assumption | cases he

theorem Hears.not_mishears {rd : LineReader} {text : String} {t : Instant} {st' st'' : Stream}
    {ws' : Connections} {cause : Error} (hears : b.Hears st rd text st' ws)
    (why : b.Mishears st rd t cause st'' ws') : False := by
  obtain ⟨bs, rest, st₁, read, push, -⟩ := hears
  cases why
  case fault read'         => cases read.symm.trans read'
  case late read' _        => cases read.symm.trans read'
  case ended read'         =>
    cases read.symm.trans read'
    cases push
  case refused push' read' =>
    cases read.symm.trans read'
    cases push.symm.trans push'

-- A session that dispatches a command has it from then on, and a provider has got a handle for it.
theorem Turn.of_dispatches? (t : b.Turn i st p s' r hs ws) (own : b.sessions[i]? = some ⟨st, p⟩)
    (h : b.dispatches? i = some c) :
    s'.phase.stake ≠ .new ∧
      ∀ n, c = .register n → ∃ hd, hs[b.handles.length]? = some hd ∧ hd.name = n := by
  obtain ⟨_, rd, t₀, text, _, _, own', heard, _⟩ := hears_of_dispatches? h
  cases own.symm.trans own'
  have said {text' st₂ ws₂} (hears : b.Hears st rd text' st₂ ws₂) :
      b.allowed? i st₂.peer text' = some c :=
    (dispatches?_of_hears own hears).symm.trans h
  cases t
  case reads push' read' =>
    have ⟨_, _, _, read, push, _⟩ := heard
    cases read.symm.trans read'
    cases push.symm.trans push'
  case mishears why => exact (heard.not_mishears why).elim
  case misreads command hears => cases command.symm.trans (of_allowed? (said hears)).left
  case denies command asks policy hears =>
    have ⟨hc, allowed⟩ := of_allowed? (said hears)
    cases command.symm.trans hc
    cases policy.symm.trans (allowed _ asks)
  case registers command policy hears =>
    refine ⟨nofun, fun n hn => ?_⟩
    cases command.symm.trans (of_allowed? (said hears)).left
    cases hn
    exact getElem?_closeReplaced_new ..
  case claims command _ _ _ _ hears | misses command _ _ _ hears | seeks command _ _ hears =>
    refine ⟨nofun, fun n hn => ?_⟩
    cases command.symm.trans (of_allowed? (said hears)).left
    cases hn

theorem Turn.dispatches? (t : b.Turn i st p s' r hs ws) (own : b.sessions[i]? = some ⟨st, p⟩)
    (new : p.stake = .new) :
    (∀ h, s'.phase.stake = .provides h → ∃ n, b.dispatches? i = some (.register n) ∧
      r = (b.registry.register ⟨h, n⟩).2) ∧
    ∀ h n, s'.phase.stake = .claims h n → b.dispatches? i = some (.request n) := by
  cases t <;> try cases new
  case registers command policy hears =>
    have dispatches := (dispatches?_of_hears own hears).trans (allowed?_register command policy)
    exact ⟨fun h hq => ⟨_, dispatches, by cases hq; rfl⟩, nofun⟩
  case claims command policy _ _ _ hears =>
    have dispatches := (dispatches?_of_hears own hears).trans (allowed?_request command policy)
    exact ⟨nofun, fun h n hq => by cases hq; exact dispatches⟩
  all_goals exact ⟨nofun, nofun⟩

theorem dispatches?_of_sessionTurn (h : b.sessionTurn i = none) : b.dispatches? i = none := by
  cases hd : b.dispatches? i
  case none => rfl
  case some =>
    have ⟨_, _, _, _, _, _, own, ⟨bs, _, _, read, push, _⟩, _⟩ := hears_of_dispatches? hd
    cases bs <;> simp [sessionTurn, own, identify, read, push] at h

theorem eq_session_of_new {k : Task} (hs : b.turn k = some b') (new : b.stake k.place = some .new) :
    k = .session k.place := by
  cases k
  case session => rfl
  case copy i d =>
    simp only [turn, copyTurn] at hs
    split at hs
    case h_1 own => cases (stake_of own).symm.trans new
    case h_2     => cases hs

theorem turn_of_new {q : Stake} (step : b.step? e = some b') (place : e.place? = some i)
    (before : b.stake i = some .new) (after : b'.stake i = some q) (hn : q ≠ .new) (he : q ≠ .ended) :
    e = .turn (.session i) ∧ ∃ s s' r hs ws, b.sessions[i]? = some s ∧
      b.Turn i s.stream s.phase s' r hs ws ∧ s.phase.stake = .new ∧ s'.phase.stake = q ∧
      b'.registry = r := by
  cases step_of_step? step <;> cases place
  case turn k s s' r hs ws own t =>
    have own' : (b.after k.place s' r hs ws).stake k.place = some s'.phase.stake :=
      stake_of (getElem?_after own)
    refine ⟨congrArg _ (eq_session_of_new step before), s, s', r, hs, ws, own, t, ?_, ?_, rfl⟩
    · exact Option.some.inj <| (stake_of own).symm.trans before
    · exact Option.some.inj <| own'.symm.trans after
  case abort s _ own =>
    exact absurd (Option.some.inj <| after.symm.trans (stake_of (getElem?_after own))) he
  case spare => exact absurd (Option.some.inj <| after.symm.trans before) hn

theorem dispatches_of_registers (step : b.step? e = some b') (h : Registers i x b e b') :
    Dispatches i x.name b e b' := by
  have ⟨place, before, after, hl, hr⟩ := h
  have ⟨he, s, s', r, hs, ws, own, t, new, hq, hr'⟩ := turn_of_new step place before after nofun nofun
  have ⟨n, dispatches, hn⟩ := (t.dispatches? own new).left _ hq
  have same := congrArg Registry.entries (hn.symm.trans (hr'.symm.trans hr))
  have hx : ⟨x.handle, n⟩ = x := (List.cons.inj same).left
  exact dispatches_iff.mpr ⟨he, _, dispatches, congrArg Registration.name hx⟩

theorem dispatches_of_claims (step : b.step? e = some b') (h : Claims i x b e b') :
    Dispatches i x.name b e b' := by
  have ⟨place, before, after, _⟩ := h
  have ⟨he, s, s', r, hs, ws, own, t, new, hq, _⟩ := turn_of_new step place before after nofun nofun
  exact dispatches_iff.mpr ⟨he, _, (t.dispatches? own new).right _ _ hq, rfl⟩

theorem new_of_dispatches (h : Dispatches i n b e b') : b.stake i = some .new := by
  have ⟨_, _, hc, _⟩ := dispatches_iff.mp h
  have ⟨_, _, _, _, _, _, own, _⟩ := hears_of_dispatches? hc
  exact stake_of own

theorem told_of_dispatches (step : b.step? e = some b') (h : Dispatches i n b e b') : Told i b' := by
  obtain ⟨rfl, c, hc, _⟩ := dispatches_iff.mp h
  have ⟨s, own, s', r, hs, ws, t, he⟩ := turn_turns (k := .session i) step
  exact ⟨s'.phase.stake, he ▸ stake_of (getElem?_after own), (t.of_dispatches? own hc).left⟩

theorem dispatches_once (h : (fresh config policy).Occurs es (Dispatches i n))
    (h' : (fresh config policy).Occurs es (Dispatches i m)) : n = m := by
  have apart {n m b e b' c f c'} (reach : (fresh config policy).Reaches b) (step : b.step? e = some b')
      (hd : Dispatches i n b e b') (later : b'.Reaches c) (hd' : Dispatches i m c f c') : False :=
    have ⟨_, hq, hn⟩ := told_of_dispatches step hd
    Told.not_new reach step hq hn later (new_of_dispatches hd')
  have ⟨b, e, b', _, _, hd, hd'⟩ := h.meet h' apart apart
  have ⟨_, c, hc, hn⟩ := dispatches_iff.mp hd
  have ⟨_, c', hc', hm⟩ := dispatches_iff.mp hd'
  cases hc.symm.trans hc'
  exact hn.symm.trans hm

section

variable (run : (fresh config policy).run? es = some b)
include run

theorem occurs_dispatches_of_provides (hi : b.stake i = some (.provides h)) :
    ∃ hd, b.handles[h]? = some hd ∧ (fresh config policy).Occurs es (Dispatches i hd.name) :=
  have ⟨hd, hh, ho⟩ := occurs_registers run hi
  ⟨hd, hh, ho.imp run fun _ step _ hr => dispatches_of_registers step hr⟩

theorem occurs_dispatches_of_claims (hi : b.stake i = some (.claims h n)) :
    (fresh config policy).Occurs es (Dispatches i n) :=
  (occurs_claims run hi).imp run fun _ step _ hc => dispatches_of_claims step hc

theorem occurs_dispatches_of_handsOver (ho : (fresh config policy).Occurs es (HandsOver w i x)) :
    (fresh config policy).Occurs es (Dispatches w x.name) ∧
      (fresh config policy).Occurs es (Dispatches i x.name) :=
  have ⟨registers, claims⟩ := occurs_of_handsOver ho
  ⟨registers.imp run fun _ step _ hr => dispatches_of_registers step hr,
    claims.imp run fun _ step _ hc => dispatches_of_claims step hc⟩

end

end Rendezvous.Broker
