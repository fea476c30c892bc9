import Rendezvous.Proofs.Copying
import Rendezvous.Proofs.History
import Rendezvous.Proofs.Step

namespace Rendezvous

structure Kept (j : Nat) (cs cs' : Connections) : Prop where
  inbox    : (cs'.get j).inbox = (cs.get j).inbox
  received : (cs'.get j).received = (cs.get j).received

theorem Kept.of_eq {j : Nat} {cs cs' : Connections} (h : cs'.get j = cs.get j) : Kept j cs cs' :=
  ⟨by rw [h], by rw [h]⟩

-- At most the bytes of these connections have changed, and no far end has lost any.
structure Within (touched : List Nat) (cs cs' : Connections) : Prop where
  length : cs'.length = cs.length
  kept   : ∀ {j}, j ∉ touched → Kept j cs cs'
  grows  : ∀ j, (cs.get j).received <+: (cs'.get j).received

namespace Within

variable {cs cs' cs'' : Connections} {s s' : Stream} {bs : Bytes} {w : Nat} {l : List Nat}

theorem rfl : Within l cs cs := ⟨.refl _, fun _ => .of_eq (.refl _), fun _ => List.prefix_rfl⟩

theorem trans (h : Within l cs cs') (h' : Within l cs' cs'') : Within l cs cs'' where
  length  := h'.length.trans h.length
  kept hj := ⟨(h'.kept hj).inbox.trans (h.kept hj).inbox,
    (h'.kept hj).received.trans (h.kept hj).received⟩
  grows j := (h.grows j).trans (h'.grows j)

theorem of_took (h : s.Took cs bs s' cs') : Within (s.wire :: l) cs cs' where
  length  := h.length
  kept hj := .of_eq <| h.elsewhere (List.ne_of_not_mem_cons hj)
  grows j := h.received_eq j ▸ List.prefix_rfl

theorem of_wrote (h : Wrote w cs bs cs') : Within (w :: l) cs cs' where
  length  := h.length
  kept hj := .of_eq <| h.elsewhere (List.ne_of_not_mem_cons hj)
  grows j := by
    by_cases hj : j = w
    case pos => rw [hj, h.received]; exact List.prefix_append ..
    case neg => exact h.elsewhere hj ▸ List.prefix_rfl

theorem of_wrote_nil (h : Wrote w cs [] cs') : Within l cs cs' where
  length  := h.length
  kept _  := ⟨h.inbox_eq _, h.received_eq _⟩
  grows j := h.received_eq j ▸ List.prefix_rfl

end Within

def Phase.guest? : Phase → Option Nat
  | .connecting provider _ => some provider.wire
  | .bridging br => some br.b.wire
  | _ => none

namespace Bridge

variable {br br' : Bridge} {d : Direction} {now : Instant} {cs cs' : Connections}

theorem Copies.wires (h : br.Copies now d cs br' cs') :
    br'.a.wire = br.a.wire ∧ br'.b.wire = br.b.wire := by
  have ⟨_, _, m⟩ := h.moved
  cases d
  case aToB => exact ⟨m.source, congrArg Stream.wire m.sink⟩
  case bToA => exact ⟨congrArg Stream.wire m.sink, m.source⟩

theorem Copies.within (h : br.Copies now d cs br' cs') :
    Within [br.a.wire, br.b.wire] cs cs' := by
  have ⟨_, _, m⟩ := h.moved
  refine ⟨m.length, fun hj => ?_, m.grows⟩
  simp only [List.mem_cons, List.not_mem_nil, or_false, not_or] at hj
  cases d
  case aToB => exact ⟨m.inbox hj.left, m.received hj.right⟩
  case bToA => exact ⟨m.inbox hj.right, m.received hj.left⟩

theorem abandon_within {l : List Nat} : Within l cs (br.abandon cs) :=
  .trans (.of_wrote_nil Stream.abandon_wrote) (.of_wrote_nil Stream.abandon_wrote)

end Bridge

namespace Broker

variable {b b' : Broker} {i j : Nat} {s s' : Session} {st st' : Stream} {p : Phase} {r : Registry}
variable {hs : List Handle} {ws : Connections} {rd : LineReader} {text : String} {t : Instant}
variable {cause : Error} {l : List Nat}

theorem Hears.within (h : b.Hears st rd text st' ws) :
    st'.wire = st.wire ∧ Within (st.wire :: l) b.wires ws :=
  have ⟨_, _, _, hr, _, he⟩ := h
  have ht := Stream.read_done hr
  ⟨he ▸ ht.wire, .of_took ht⟩

theorem Mishears.within (h : b.Mishears st rd t cause st' ws) :
    st'.wire = st.wire ∧ Within (st.wire :: l) b.wires ws := by
  cases h
  case fault | late => exact ⟨rfl, .rfl⟩
  case ended read   => exact ⟨rfl, .of_took <| Stream.read_done read⟩
  case refused read =>
    have ht := Stream.read_done read
    exact ⟨ht.wire, .of_took ht⟩

-- A turn stays with the session's own connection and the one that was handed over to it.
theorem Turn.within (t : b.Turn i st p s' r hs ws) (hb : ∀ br, p = .bridging br → br.a.wire = st.wire) :
    s'.stream.wire = st.wire ∧ Within (st.wire :: p.guest?.toList) b.wires ws := by
  cases t
  case reads push read => exact ⟨(Stream.read_done read).wire, .of_took <| Stream.read_done read⟩
  case mishears why => exact why.within
  case misreads hears | denies hears | registers hears | claims hears | misses hears | seeks hears =>
    exact hears.within
  case answers send | greets send | tells send =>
    have ⟨_, _, w⟩ := Stream.deliver_some send
    exact ⟨rfl, .of_wrote w⟩
  case closes close =>
    refine ⟨rfl, .trans ?_ (.of_wrote_nil Stream.abandon_wrote)⟩
    obtain hc | ⟨rfl, -⟩ := close
    · exact .of_wrote_nil <| Stream.close_done hc
    · exact .rfl
  case overflowed close =>
    refine ⟨rfl, .trans ?_ (.of_wrote_nil Stream.abandon_wrote)⟩
    obtain hc | ⟨rfl, -⟩ := close
    · exact .of_wrote_nil <| Stream.close_done hc
    · exact .rfl
  case leaves fill =>
    obtain hf | ⟨rfl, rfl, -⟩ := fill
    · have ht := Stream.fill_done hf
      exact ⟨ht.wire, .trans (.of_took ht) (.of_wrote_nil Stream.abandon_wrote)⟩
    · exact ⟨rfl, .of_wrote_nil Stream.abandon_wrote⟩
  case overflows fill | holds fill =>
    have ht := Stream.fill_done fill
    exact ⟨ht.wire, .of_took ht⟩
  case unheard => exact ⟨rfl, .of_wrote_nil Stream.abandon_wrote⟩
  case untold =>
    exact ⟨rfl, .trans (.of_wrote_nil Stream.abandon_wrote) (.of_wrote_nil Stream.abandon_wrote)⟩
  case parts => exact ⟨rfl, Bridge.abandon_within⟩
  case copies turn => exact ⟨rfl, hb _ rfl ▸ (Bridge.turn_copies turn).within⟩
  all_goals exact ⟨rfl, .rfl⟩

theorem Turn.bridge_wire {br : Bridge} (t : b.Turn i st p s' r hs ws)
    (hb : ∀ br, p = .bridging br → br.a.wire = st.wire) (hp : s'.phase = .bridging br) :
    br.a.wire = st.wire := by
  cases t <;> cases hp
  case bridges                => rfl
  case copies turn            => exact (Bridge.turn_copies turn).wires.left.trans (hb _ rfl)

theorem release_within : Within l b.wires (b.release p).wires := by
  unfold release
  split
  case h_4 =>
    simp only
    split
    · exact .of_wrote_nil Stream.abandon_wrote
    · exact .rfl
  case h_5 => exact .of_wrote_nil Stream.abandon_wrote
  case h_6 => exact Bridge.abandon_within
  all_goals exact .rfl

theorem dropped_within : Within l b.wires (b.dropped i s).wires :=
  release_within.trans (.of_wrote_nil Stream.abandon_wrote)

-- Sessions and connections stand at the same places.
structure Wired (b : Broker) : Prop where
  length : b.wires.length = b.sessions.length
  own    : ∀ {i : Nat} {s : Session}, b.sessions[i]? = some s → s.stream.wire = i
  bridge : ∀ {i : Nat} {st : Stream} {br : Bridge},
    b.sessions[i]? = some ⟨st, .bridging br⟩ → br.a.wire = i

namespace Wired

variable {e : Event}

theorem start {config : Config} {policy : Policy} : (fresh config policy).Wired where
  length   := rfl
  own h    := by cases h
  bridge h := by cases h

theorem bridge_of (w : b.Wired) (hi : b.sessions[i]? = some s) (br : Bridge)
    (hp : s.phase = .bridging br) : br.a.wire = s.stream.wire := by
  obtain ⟨st, p⟩ := s
  cases hp
  exact (w.bridge hi).trans (w.own hi).symm

theorem set (w : b.Wired) (hl : ws.length = b.wires.length) (hs' : s'.stream.wire = i)
    (hb : ∀ br, s'.phase = .bridging br → br.a.wire = i) : (b.after i s' r hs ws).Wired := by
  constructor
  case length => simpa [after, hl] using w.length
  case own =>
    intro j x h
    obtain ⟨rfl, rfl⟩ | ⟨-, h⟩ := of_getElem?_after h
    · exact hs'
    · exact w.own h
  case bridge =>
    intro j st br h
    obtain ⟨rfl, rfl⟩ | ⟨-, h⟩ := of_getElem?_after h
    · exact hb br rfl
    · exact w.bridge h

theorem step (w : b.Wired) (h : b.Step e b') : b'.Wired := by
  cases h
  case turn k s s' r hs ws hi t =>
    have ⟨hs', hl⟩ := t.within (w.bridge_of hi)
    exact w.set hl.length (hs'.trans (w.own hi)) fun br hp =>
      (t.bridge_wire (w.bridge_of hi) hp).trans (w.own hi)
  case accept wire peer =>
    constructor
    case length => simp [accept, w.length]
    case own =>
      intro j s h
      obtain h | ⟨rfl, rfl⟩ := of_getElem?_accept h
      · exact w.own h
      · exact w.length
    case bridge =>
      intro j st br h
      obtain h | ⟨-, h⟩ := of_getElem?_accept h
      · exact w.bridge h
      · cases h
  case change =>
    exact { w with length := Connections.length_update.trans w.length }
  case abort i s hi ho =>
    have hw : s.stream.wire = i := w.own hi
    refine w.set ?_ hw (fun _ h => by cases h)
    exact (dropped_within (i := i) (l := [])).length
  case spare | wait => exact { w with }

theorem of_run {config : Config} {policy : Policy} {es : List Event}
    (h : (fresh config policy).run? es = some b) : b.Wired :=
  run_induction (P := fun _ b => b.Wired) .start (fun _ w hs => w.step (step_of_step? hs)) h

end Wired
end Broker
end Rendezvous
