import Rendezvous.Proofs.Ledger

namespace Rendezvous

structure Connection.Accepts (c : Connection) : Prop where
  present : c.farGone = false
  moves   : c.pieceLimit ≠ some 0
  flows   : c.stalled = false
  flushes : c.flushHangs = false
  closes  : c.closeHangs = false
  noWriteFault : c.writeFault = none
  noFlushFault : c.flushFault = none
  noCloseFault : c.closeFault = none

instance (c : Connection) : Decidable c.Accepts :=
  decidable_of_iff (c.farGone = false ∧ c.pieceLimit ≠ some 0 ∧ c.stalled = false ∧
      c.flushHangs = false ∧ c.closeHangs = false ∧ c.writeFault = none ∧ c.flushFault = none ∧
      c.closeFault = none)
    ⟨fun ⟨h₁, h₂, h₃, h₄, h₅, h₆, h₇, h₈⟩ => ⟨h₁, h₂, h₃, h₄, h₅, h₆, h₇, h₈⟩,
      fun ⟨h₁, h₂, h₃, h₄, h₅, h₆, h₇, h₈⟩ => ⟨h₁, h₂, h₃, h₄, h₅, h₆, h₇, h₈⟩⟩

namespace Connection

variable {c c' : Connection} {bs : Bytes} {limit n : Nat} {what : Change}

theorem Accepts.write (a : c.Accepts) (hs : c.nearShut = false) (hb : bs ≠ []) :
    ∃ n c', c.write bs = .done (n, c') ∧ n ≠ 0 := by
  refine ⟨(c.piece bs).length, { c with written := c.piece bs :: c.written }, ?_, ?_⟩
  · simp [Connection.write, a.noWriteFault, a.flows, a.present, hs]
  · unfold piece
    cases hp : c.pieceLimit
    case none => simpa using hb
    case some n =>
      have hn : n ≠ 0 := fun hn => a.moves (hn ▸ hp)
      simpa [hn] using hb

theorem Accepts.flush (a : c.Accepts) : c.flush = .done () := by
  simp [Connection.flush, a.noFlushFault, a.flushes]

theorem Accepts.close (a : c.Accepts) : c.close = .done { c with nearShut := true } := by
  simp [Connection.close, a.noCloseFault, a.closes]

theorem nearShut_read (h : c.read limit = .done (bs, c')) : c'.nearShut = c.nearShut := by
  simp only [read] at h
  (repeat' split at h) <;> cases h <;> rfl

theorem nearShut_write (h : c.write bs = .done (n, c')) : c'.nearShut = c.nearShut := by
  unfold Connection.write at h
  (repeat' split at h) <;> cases h
  rfl

theorem nearShut_apply (h : c.apply what = .ok c') : c'.nearShut = c.nearShut := by
  cases what
  case send bs =>
    simp only [apply, send] at h
    (repeat' split at h) <;> cases h
    rfl
  all_goals
    cases h
    rfl

end Connection

def Unclosed (cs cs' : Connections) : Prop := ∀ j, (cs'.get j).nearShut = (cs.get j).nearShut

namespace Unclosed

variable {cs cs' cs'' : Connections} {c : Connection} {f : Connection → Connection} {w : Nat}

theorem refl (cs : Connections) : Unclosed cs cs := fun _ => rfl

theorem trans (h : Unclosed cs cs') (h' : Unclosed cs' cs'') : Unclosed cs cs'' :=
  fun j => (h' j).trans (h j)

theorem of_set (h : c.nearShut = (cs.get w).nearShut) : Unclosed cs (cs.set w c) := by
  intro j
  by_cases hj : j = w
  case neg => rw [Connections.get_set_ne hj]
  case pos =>
    subst hj
    by_cases hl : j < cs.length
    case pos => rw [Connections.get_set_self hl, h]
    case neg => rw [Connections.set_of_length_le (Nat.le_of_not_lt hl)]

theorem of_update (h : ∀ c, (f c).nearShut = c.nearShut) : Unclosed cs (cs.update w f) := by
  intro j
  by_cases hj : j = w
  case neg => rw [Connections.get_update_ne hj]
  case pos =>
    subst hj
    by_cases hl : j < cs.length
    case pos => rw [Connections.get_update_self hl, h]
    case neg => rw [Connections.update_of_length_le (Nat.le_of_not_lt hl)]

end Unclosed

namespace Stream

variable {s s' : Stream} {cs cs' : Connections} {bs unsent : Bytes} {left : Option Bytes}
variable {limit n : Nat}

theorem read_unclosed (h : s.read cs limit = .done (bs, s', cs')) : Unclosed cs cs' := by
  unfold read at h
  split at h
  case isFalse => cases h; exact .refl cs
  case isTrue =>
    cases hr : (cs.get s.wire).read limit <;> rw [hr] at h <;> cases h
    exact .of_set (Connection.nearShut_read hr)

theorem fill_unclosed (h : s.fill cs limit = .done (n, s', cs')) : Unclosed cs cs' := by
  unfold fill at h
  split at h
  case isTrue => cases h; exact .refl cs
  case isFalse =>
    cases hr : (cs.get s.wire).read limit <;> rw [hr] at h <;> cases h
    exact .of_set (Connection.nearShut_read hr)

theorem advance_unclosed (h : s.advance cs unsent = .done (bs, cs')) : Unclosed cs cs' := by
  unfold advance write at h
  cases hw : (cs.get s.wire).write unsent <;> simp only [hw, Attempt.map] at h <;> try cases h
  split at h <;> cases h
  exact .of_set (Connection.nearShut_write hw)

theorem deliver_unclosed (h : s.deliver cs unsent = .done (left, cs')) : Unclosed cs cs' := by
  unfold deliver at h
  split at h
  case isTrue =>
    cases hf : (cs.get s.wire).flush <;> rw [hf] at h <;> cases h
    exact .refl cs
  case isFalse =>
    cases ha : s.advance cs unsent <;> rw [ha] at h <;> cases h
    exact advance_unclosed ha

theorem abandon_unclosed : Unclosed cs (s.abandon cs) := .of_update fun _ => rfl

theorem lt_of_accepts (a : (cs.get s.wire).Accepts) : s.wire < cs.length := by
  refine Nat.lt_of_not_le fun hl => ?_
  have present := a.present
  rw [Connections.get_of_length_le hl] at present
  cases present

theorem deliver_of_accepts (a : (cs.get s.wire).Accepts) (hs : (cs.get s.wire).nearShut = false) :
    ∃ left cs', s.deliver cs unsent = .done (left, cs') := by
  unfold deliver
  split
  case isTrue  => exact ⟨none, cs, by rw [a.flush, Attempt.map]⟩
  case isFalse hu =>
    obtain ⟨n, c, hw, hn⟩ := a.write hs hu
    exact ⟨some (unsent.drop n), cs.set s.wire c, by simp [advance, write, hw, Attempt.map, hn]⟩

theorem close_of_accepts (a : (cs.get s.wire).Accepts) :
    ∃ cs', s.close cs = .done cs' ∧ (cs'.get s.wire).nearShut = true := by
  refine ⟨cs.set s.wire { cs.get s.wire with nearShut := true }, by rw [close, a.close, Attempt.map], ?_⟩
  rw [Connections.get_set_self (lt_of_accepts a)]

end Stream

theorem Bridge.Copies.elsewhere {br br' : Bridge} {d : Direction} {now : Instant}
    {cs cs' : Connections} {j : Nat} (h : br.Copies now d cs br' cs') (ha : j ≠ br.a.wire)
    (hb : j ≠ br.b.wire) : cs'.get j = cs.get j := by
  have hs : j ≠ (br.source d).wire := by cases d <;> assumption
  have hk : j ≠ (br.sink d).wire := by cases d <;> assumption
  cases h
  case reads read     => exact (Stream.read_done read).elsewhere hs
  case exhausts read  => exact (Stream.read_done read).elsewhere hs
  case writes send    => exact (Stream.deliver_some send).choose_spec.right.elsewhere hk
  case closes close =>
    obtain hc | ⟨rfl, -⟩ := close
    · exact (Stream.close_done hc).elsewhere hk
    · rfl
  case heeds | fails | flushes => rfl

def Phase.IsOpen : Phase → Prop
  | .bridging _ | .ended _ => False
  | _ => True

namespace Broker

variable {b b' : Broker} {e : Event} {i j : Nat} {s s' : Session} {st st' : Stream} {p : Phase}
variable {r : Registry} {hs : List Handle} {ws : Connections} {rd : LineReader} {text : String}
variable {t : Instant} {cause : Error}

theorem Hears.read (h : b.Hears st rd text st' ws) : ∃ bs st₁,
    st.read b.wires rd.room = .done (bs, st₁, ws) :=
  have ⟨bs, _, st₁, read, _⟩ := h
  ⟨bs, st₁, read⟩

theorem Mishears.read (h : b.Mishears st rd t cause st' ws) :
    ws = b.wires ∨ ∃ bs st₁, st.read b.wires rd.room = .done (bs, st₁, ws) := by
  cases h
  case fault | late => exact .inl rfl
  case ended read   => exact .inr ⟨_, _, read⟩
  case refused read => exact .inr ⟨_, _, read⟩

-- A turn leaves all connections alone but the session's own and the one that was handed over to it.
theorem Turn.elsewhere (t : b.Turn i st p s' r hs ws)
    (hb : ∀ br, p = .bridging br → br.a.wire = st.wire) (hj : j ≠ st.wire) (hg : p.guest? ≠ some j) :
    ws.get j = b.wires.get j := by
  have abandon {cs : Connections} : (st.abandon cs).get j = cs.get j := Connections.get_update_ne hj
  cases t
  case reads read => exact (Stream.read_done read).elsewhere hj
  case mishears why =>
    obtain rfl | ⟨_, _, read⟩ := why.read
    · rfl
    · exact (Stream.read_done read).elsewhere hj
  case misreads hears | denies hears | registers hears | claims hears | misses hears | seeks hears =>
    have ⟨_, _, read⟩ := hears.read
    exact (Stream.read_done read).elsewhere hj
  case answers send | greets send | tells send =>
    exact (Stream.deliver_some send).choose_spec.right.elsewhere hj
  case closes close =>
    obtain hc | ⟨rfl, -⟩ := close
    · exact abandon.trans <| (Stream.close_done hc).elsewhere hj
    · exact abandon
  case overflowed close =>
    obtain hc | ⟨rfl, -⟩ := close
    · exact abandon.trans <| (Stream.close_done hc).elsewhere hj
    · exact abandon
  case leaves fill =>
    obtain hf | ⟨rfl, rfl, -⟩ := fill
    · have took := Stream.fill_done hf
      exact (Connections.get_update_ne (took.wire ▸ hj)).trans (took.elsewhere hj)
    · exact abandon
  case overflows fill | holds fill => exact (Stream.fill_done fill).elsewhere hj
  case unheard => exact abandon
  case untold  =>
    exact abandon.trans <| Connections.get_update_ne fun he => hg (congrArg some he.symm)
  case copies turn =>
    exact (Bridge.turn_copies turn).elsewhere (hb _ rfl ▸ hj) fun he => hg (congrArg some he.symm)
  case parts =>
    exact (Connections.get_update_ne fun he => hg (congrArg some he.symm)).trans <|
      Connections.get_update_ne (hb _ rfl ▸ hj)
  all_goals rfl

theorem not_ended_of_isOpen (hi : b.sessions[i]? = some s) (ho : s.phase.IsOpen) :
    b.stake i ≠ some .ended := by
  intro ended
  rw [stake_of hi, Option.some.injEq, Phase.stake_eq_ended] at ended
  obtain ⟨how, hp⟩ := ended
  exact (hp ▸ ho : (Phase.ended how).IsOpen)

theorem Turn.unclosed (t : b.Turn i st p s' r hs ws) (ho : s'.phase.IsOpen) :
    Unclosed b.wires ws := by
  cases t <;> try cases ho
  case reads read => exact Stream.read_unclosed read
  case mishears why =>
    obtain rfl | ⟨_, _, read⟩ := why.read
    · exact .refl _
    · exact Stream.read_unclosed read
  case misreads hears | denies hears | registers hears | claims hears | misses hears | seeks hears =>
    have ⟨_, _, read⟩ := hears.read
    exact Stream.read_unclosed read
  case answers send | greets send | tells send => exact Stream.deliver_unclosed send
  case overflows fill | holds fill => exact Stream.fill_unclosed fill
  all_goals exact .refl _

theorem release_unclosed : Unclosed b.wires (b.release p).wires := by
  unfold release
  split
  case h_4 =>
    simp only
    split
    · exact Stream.abandon_unclosed
    · exact .refl _
  case h_5 => exact Stream.abandon_unclosed
  case h_6 => exact Stream.abandon_unclosed.trans Stream.abandon_unclosed
  all_goals exact .refl _

theorem accept_unclosed {wire : Connection} {peer : Peer} (fresh : wire.isFresh = true) :
    Unclosed b.wires (b.accept wire peer).wires := by
  intro j
  obtain hj | rfl | hj := Nat.lt_trichotomy j b.wires.length
  · rw [Accounted.get_accept_lt hj]
  · simp only [Connection.isFresh, Bool.and_eq_true, Bool.not_eq_true'] at fresh
    rw [Accounted.get_accept_self, Connections.get_of_length_le (Nat.le_refl _)]
    exact fresh.left.right
  · have hl : (b.accept wire peer).wires.length ≤ j := by
      rw [accept, List.length_append]
      exact Nat.succ_le_of_lt hj
    rw [Connections.get_of_length_le hl, Connections.get_of_length_le (Nat.le_of_lt hj)]

theorem change_unclosed {what : Connection.Change} {c : Connection}
    (h : (b.wires.get j).apply what = .ok c) : Unclosed b.wires (b.touch j fun _ => c).wires := by
  intro w
  by_cases hw : w = j
  case neg => rw [touch, Connections.get_update_ne hw]
  case pos =>
    subst hw
    by_cases hl : w < b.wires.length
    case pos => rw [touch, Connections.get_update_self hl, Connection.nearShut_apply h]
    case neg => rw [touch, Connections.update_of_length_le (Nat.le_of_not_lt hl)]

theorem dropped_unclosed : Unclosed b.wires (b.dropped i s).wires :=
  release_unclosed.trans Stream.abandon_unclosed

theorem Step.unclosed (h : b.Step e b') (hn : ∀ k, e ≠ .turn k) : Unclosed b.wires b'.wires := by
  cases h
  case turn               => exact absurd rfl (hn _)
  case accept fresh       => exact accept_unclosed fresh
  case change what change => exact change_unclosed change
  case abort              => exact dropped_unclosed
  case spare | wait       => exact .refl _

theorem Step.received (h : b.Step e b') (hn : ∀ k, e ≠ .turn k) :
    (b'.wires.get j).received = (b.wires.get j).received := by
  obtain ⟨k, _, _, _, _, _, he, _⟩ | arrived := Accounted.arrived_step (fun _ => []) h
  · exact absurd he (hn k)
  · exact (arrived j).received

-- What others do touches neither a session that has its connection to itself nor what its far end has
-- received.
theorem Step.others (h : b.Step e b') (sound : b.Sound) (hi : b.sessions[i]? = some s)
    (ho : s.phase.IsOpen) (hn : e.place? ≠ some i) :
    b'.sessions[i]? = some s ∧ (b'.wires.get i).received = (b.wires.get i).received := by
  refine ⟨(h.same (List.getElem?_eq_some_iff.mp hi).choose hn).trans hi, ?_⟩
  have step := h
  cases h
  case turn k x s' r hs ws own t =>
    have hk : i ≠ k.place := fun hk => hn (congrArg some hk.symm)
    have free : x.phase.guest? ≠ some i := fun hg =>
      not_ended_of_isOpen hi ho (sound.matched.ended (holds_guest own hg))
    have same := t.elsewhere (sound.wired.bridge_of own) (sound.wired.own own ▸ hk) free
    exact congrArg Connection.received same
  all_goals exact step.received nofun

def Unshut (b : Broker) : Prop :=
  ∀ {i s}, b.sessions[i]? = some s → s.phase.IsOpen → (b.wires.get i).nearShut = false

namespace Unshut

variable {config : Config} {policy : Policy} {es : List Event}

theorem turn {k : Task} (u : b.Unshut) (sound : b.Sound) (hi : b.sessions[k.place]? = some s)
    (t : b.Turn k.place s.stream s.phase s' r hs ws) : (b.after k.place s' r hs ws).Unshut := by
  intro j x hx ho
  obtain ⟨rfl, rfl⟩ | ⟨hj, hx⟩ := of_getElem?_after hx
  case inl =>
    -- A session that goes on has gone on before.
    have before : s.phase.IsOpen := by
      cases hp : s.phase <;> rw [hp] at t <;> cases t <;> trivial
    exact (t.unclosed ho k.place).trans (u hi before)
  case inr =>
    have free : s.phase.guest? ≠ some j := fun hg =>
      not_ended_of_isOpen hx ho (sound.matched.ended (holds_guest hi hg))
    have same := t.elsewhere (sound.wired.bridge_of hi) (sound.wired.own hi ▸ hj) free
    exact (congrArg Connection.nearShut same).trans (u hx ho)

theorem step (u : b.Unshut) (sound : b.Sound) (h : b.Step e b') : b'.Unshut := by
  cases h
  case turn hi t => exact u.turn sound hi t
  case accept wire peer fresh =>
    intro j x hx ho
    refine (accept_unclosed fresh j).trans ?_
    obtain hx | ⟨rfl, -⟩ := of_getElem?_accept hx
    · exact u hx ho
    · rw [← sound.wired.length, Connections.get_of_length_le (Nat.le_refl _)]
      rfl
  case change what change => exact fun hx ho => (change_unclosed change _).trans (u hx ho)
  case abort i s hi _ =>
    intro j x hx ho
    obtain ⟨-, rfl⟩ | ⟨-, hx⟩ := of_getElem?_after hx
    · exact ho.elim
    · exact (dropped_unclosed j).trans (u hx ho)
  case spare | wait => exact u

theorem of_run (run : (fresh config policy).run? es = some b) : b.Unshut :=
  run_induction (P := fun _ b => b.Unshut) (fun h => by cases h)
    (fun run u hs => u.step (.of_run run) (step_of_step? hs)) run

end Unshut
end Broker
end Rendezvous
