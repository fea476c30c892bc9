import Rendezvous.Proofs.Wiring

namespace Rendezvous

-- What a session holds beside its own connection.
inductive Stake where
  | new
  | free
  | provides (h : Nat)
  -- It waits for the provider of a handle that was registered under a name.
  | claims (h : Nat) (n : Name)
  | serves (w : Nat)
  | ended

def Phase.stake : Phase → Stake
  | .identifying .. => .new
  | .refusing .. | .closing .. => .free
  | .welcoming h _ | .idling h _ _ | .overflowing h => .provides h
  | .claiming h n _ => .claims h n
  | .connecting provider _ => .serves provider.wire
  | .bridging br => .serves br.b.wire
  | .ended _ => .ended

theorem Phase.stake_eq_ended {p : Phase} : p.stake = .ended ↔ ∃ how, p = .ended how := by
  cases p <;> simp [stake]

namespace Broker

variable {b b' : Broker} {e : Event} {i j : Nat} {s s' : Session} {st : Stream} {p : Phase}
variable {r : Registry} {hs : List Handle} {ws : Connections}

def stake (b : Broker) (i : Nat) : Option Stake := (b.sessions[i]?).map fun s => s.phase.stake

theorem stake_of (h : b.sessions[i]? = some s) : b.stake i = some s.phase.stake := by
  simp [stake, h]

theorem stake_eq_some {q : Stake} :
    b.stake i = some q ↔ ∃ s, b.sessions[i]? = some s ∧ s.phase.stake = q :=
  Option.map_eq_some_iff

-- What the session at place `i` does by an event: its stake before and afterwards, and the registry
-- and the handles afterwards.
inductive Move (b : Broker) (i : Nat) (e : Event) : Stake → Stake → Registry → List Handle → Prop
  | stays {q} : Move b i e q q b.registry b.handles
  | refuses : Move b i e .new .free b.registry b.handles
  | ends {q} (light : q = .new ∨ q = .free ∨ ∃ w, q = .serves w) :
    Move b i e q .ended b.registry b.handles
  | registers {n p} :
    Move b i e .new (.provides b.handles.length)
      (b.registry.register ⟨b.handles.length, n⟩).2
      (closeReplaced (b.registry.find? n) (b.handles ++ [{ name := n, peer := p }]))
  | claims {n x hd} (found : b.registry.find? n = some x)
      (handle : b.handles[x.handle]? = some hd) (take : hd.take.1 = true) :
    Move b i e .new (.claims x.handle n) (b.registry.erase n)
      (b.handles.modify x.handle fun hd => hd.take.2)
  | misses {n x} (found : b.registry.find? n = some x)
      (take : ∀ hd, b.handles[x.handle]? = some hd → hd.take.1 = false) :
    Move b i e .new .free (b.registry.erase n)
      ((b.handles.modify x.handle fun hd => hd.take.2).modify x.handle Handle.close)
  | leaves {h q} (gone : q = .free ∨ q = .ended) :
    Move b i e (.provides h) q (b.unregister h).registry (b.handles.modify h Handle.dropLease)
  | drops {h} (abort : e = .abort i) :
    Move b i e (.provides h) .ended b.registry (b.handles.modify h Handle.dropLease)
  | handsOver {h hd st} (own : ∃ m t, b.sessions[i]? = some ⟨st, .idling h m t⟩)
      (wire : st.wire = i) (handle : b.handles[h]? = some hd)
      («open» : hd.closed = false) (claim : hd.claim = .asked true) :
    Move b i e (.provides h) .ended b.registry
      (b.handles.modify h fun hd => { hd with leased := false, claim := .given st })
  | offers {h hd} (handle : b.handles[h]? = some hd) («open» : hd.closed = false)
      (claim : hd.claim = .asked false) :
    Move b i e (.provides h) .free b.registry
      (b.handles.modify h fun hd => { hd with leased := false, claim := .settled })
  | picksUp {h n hd st} (handle : b.handles[h]? = some hd) (claim : hd.claim = .given st) :
    Move b i e (.claims h n) (.serves st.wire) b.registry (b.handles.modify h Handle.pickUp)
  | givesUp {h n hd} (handle : b.handles[h]? = some hd) (waits : hd.taking = .waiting) :
    Move b i e (.claims h n) .free b.registry
      ((b.handles.modify h fun hd => hd.abandonTake.2).modify h Handle.close)
  | despairs {h n} (nothing : ∀ hd, b.handles[h]? = some hd → hd.claim = .settled) :
    Move b i e (.claims h n) .free b.registry (b.handles.modify h Handle.close)
  | forgoes {h n} (abort : e = .abort i) :
    Move b i e (.claims h n) .ended b.registry (b.handles.modify h fun hd => hd.abandonTake.2)

theorem Turn.move (t : b.Turn i st p s' r hs ws) (hi : b.sessions[i]? = some ⟨st, p⟩)
    (hw : st.wire = i) : b.Move i e p.stake s'.phase.stake r hs := by
  cases t
  case mishears | misreads | denies | seeks => exact .refuses
  case registers => exact .registers
  case claims found handle take _ => exact .claims found handle take
  case misses found take _ => exact .misses found take
  case handsOver handle «open» claim => exact .handsOver ⟨_, _, hi⟩ hw handle «open» claim
  case offers handle «open» claim => exact .offers handle «open» claim
  case picksUp handle claim => exact .picksUp handle claim
  case givesUp handle waits late => exact .givesUp handle waits
  case despairs nothing => exact .despairs nothing
  case unheard | leaves | overflowed => exact .leaves (.inr rfl)
  case evicted | timesOut => exact .leaves (.inl rfl)
  case closes => exact .ends (.inr <| .inl rfl)
  case untold | parts => exact .ends (.inr <| .inr ⟨_, rfl⟩)
  case copies turn =>
    simpa [Phase.stake, (Bridge.turn_copies turn).wires.right] using Move.stays
  all_goals exact .stays

theorem release_move (ho : p.stake ≠ .ended) :
    b.Move i (.abort i) p.stake .ended b.registry (b.release p).handles := by
  cases p
  case welcoming | idling | overflowing => exact .drops rfl
  case claiming h n t =>
    have : (b.release (.claiming h n t)).handles = b.handles.modify h fun hd => hd.abandonTake.2 := by
      simp only [release]
      split <;> rfl
    rw [this]
    exact .forgoes rfl
  case connecting | bridging => exact .ends (.inr <| .inr ⟨_, rfl⟩)
  case identifying => exact .ends (.inl rfl)
  case refusing | closing => exact .ends (.inr <| .inl rfl)
  case ended => exact absurd rfl ho

def Event.place? : Event → Option Nat
  | .turn k => some k.place
  | .abort i => some i
  | _ => none

inductive Shift (b : Broker) (e : Event) (b' : Broker) : Prop
  | moves {i q q'} (place : e.place? = some i) (before : b.stake i = some q)
      (move : b.Move i e q q' b'.registry b'.handles) (after : b'.stake i = some q')
      (others : ∀ {j}, j ≠ i → b'.stake j = b.stake j)
  | rests (registry : b'.registry = b.registry) (handles : b'.handles = b.handles)
      (kept : ∀ {j q}, b.stake j = some q → b'.stake j = some q)
      (fresh : ∀ {j q}, b'.stake j = some q → b.stake j = some q ∨ q = .new)

theorem Step.same (h : b.Step e b') (hi : i < b.sessions.length) (hn : e.place? ≠ some i) :
    b'.sessions[i]? = b.sessions[i]? := by
  have act {j : Nat} (hj : e.place? = some j) : i ≠ j := fun he => hn (hj.trans (congrArg some he.symm))
  cases h
  case turn                 => exact getElem?_after_ne (act rfl)
  case abort                => exact getElem?_after_ne (act rfl)
  case accept               => exact List.getElem?_append_left hi
  case change | spare | wait => rfl

theorem Step.shift (w : b.Wired) (h : b.Step e b') : b.Shift e b' := by
  cases h
  case turn k s s' r hs ws hi t =>
    refine .moves rfl (stake_of hi) (t.move hi (w.own hi)) ?_ fun hj => ?_
    · simp [stake, getElem?_after hi]
    · simp [stake, getElem?_after_ne hj]
  case abort i s hi ho =>
    refine .moves rfl (stake_of hi) (release_move (p := s.phase) ?_) ?_ fun hj => ?_
    · intro h
      obtain ⟨how, h⟩ := Phase.stake_eq_ended.mp h
      simp [Session.isOver, h] at ho
    · simp [dropped, stake, getElem?_after hi, Phase.stake]
    · simp [dropped, stake, getElem?_after_ne hj]
  case accept =>
    refine .rests rfl rfl (fun h => ?_) (fun h => ?_) <;> have ⟨s, hs, hq⟩ := stake_eq_some.mp h
    · exact stake_eq_some.mpr ⟨s, getElem?_accept_lt hs, hq⟩
    · obtain hs | ⟨-, rfl⟩ := of_getElem?_accept hs
      · exact .inl <| stake_eq_some.mpr ⟨s, hs, hq⟩
      · exact .inr hq.symm
  case change | spare | wait => exact .rests rfl rfl id .inl

-- What only one session has held at a time stays so if the session that moves does not take up what
-- another one holds.
theorem alone_of_moves {P : Stake → Prop} (others : ∀ {j}, j ≠ i → b'.stake j = b.stake j)
    (alone : ∀ {j k q r}, P q → P r → b.stake j = some q → b.stake k = some r → j = k)
    (apart : ∀ {k q r}, k ≠ i → P q → P r → b.stake k = some q → b'.stake i ≠ some r)
    {j k : Nat} {q r : Stake} (hq : P q) (hr : P r) (hj : b'.stake j = some q)
    (hk : b'.stake k = some r) : j = k := by
  by_cases hji : j = i
  case pos =>
    by_cases hki : k = i
    case pos => exact hji.trans hki.symm
    case neg => exact absurd (hji ▸ hj) (apart hki hr hq ((others hki).symm.trans hk))
  case neg =>
    have hj := (others hji).symm.trans hj
    by_cases hki : k = i
    case pos => exact absurd (hki ▸ hk) (apart hji hq hr hj)
    case neg => exact alone hq hr hj ((others hki).symm.trans hk)

end Broker
end Rendezvous
