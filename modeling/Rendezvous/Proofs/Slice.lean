import Rendezvous.Proofs.Handoffs
import Rendezvous.Proofs.Sift

namespace Rendezvous

-- A service, and which sessions and handles have to do with it. A session goes with its connection.
structure Slice where
  name : Name
  session : Nat → Bool
  handle : Nat → Bool

namespace Slice

def place (v : Slice) (i : Nat) : Nat := rank v.session i

def desk (v : Slice) (h : Nat) : Nat := rank v.handle h

end Slice

def Stream.slice (v : Slice) (s : Stream) : Stream := { s with wire := v.place s.wire }

def Bridge.slice (v : Slice) (br : Bridge) : Bridge :=
  { br with a := br.a.slice v, b := br.b.slice v }

def SessionEnd.slice (v : Slice) : SessionEnd → SessionEnd
  | .bridged br => .bridged (br.slice v)
  | how => how

def Ending.slice (v : Slice) : Ending → Ending
  | .regular how => .regular (how.slice v)
  | how => how

def Phase.slice (v : Slice) : Phase → Phase
  | .closing how t => .closing (how.slice v) t
  | .welcoming h unsent => .welcoming (v.desk h) unsent
  | .idling h m t => .idling (v.desk h) m t
  | .overflowing h => .overflowing (v.desk h)
  | .claiming h n t => .claiming (v.desk h) n t
  | .connecting provider unsent => .connecting (provider.slice v) unsent
  | .bridging br => .bridging (br.slice v)
  | .ended how => .ended (how.slice v)
  | p => p

def Session.slice (v : Slice) (s : Session) : Session := ⟨s.stream.slice v, s.phase.slice v⟩

def Claim.slice (v : Slice) : Claim → Claim
  | .given s => .given (s.slice v)
  | c => c

def Taking.slice (v : Slice) : Taking → Taking
  | .got s => .got (s.slice v)
  | t => t

def Handle.slice (v : Slice) (hd : Handle) : Handle := { hd with claim := hd.claim.slice v }

def Registration.slice (v : Slice) (x : Registration) : Registration := ⟨v.desk x.handle, x.name⟩

def Registry.slice (v : Slice) (r : Registry) : Registry :=
  ⟨(r.entries.filter fun x => decide (x.name = v.name)).map (Registration.slice v)⟩

def Connections.slice (v : Slice) (cs : Connections) : Connections := sift v.session id cs

def Broker.slice (v : Slice) (b : Broker) : Broker :=
  { b with
    registry := b.registry.slice v
    handles := sift v.handle (Handle.slice v) b.handles
    wires := b.wires.slice v
    sessions := sift v.session (Session.slice v) b.sessions }

variable {v : Slice} {cs cs' : Connections} {i h : Nat}

theorem Attempt.map_map {α β γ : Type} {a : Attempt α} {f : α → β} {g : β → γ} :
    (a.map f).map g = a.map fun x => g (f x) := by
  cases a <;> rfl

namespace Connections

theorem get_slice (hi : v.session i = true) : (cs.slice v).get (v.place i) = cs.get i := by
  rw [get, get, List.getD_eq_getElem?_getD, List.getD_eq_getElem?_getD, slice, Slice.place,
    getElem?_sift hi, Option.map_id]
  rfl

theorem slice_set {c : Connection} (hi : v.session i = true) :
    Connections.slice v (cs.set i c) = List.set (cs.slice v) (v.place i) c := sift_set hi

theorem slice_update {f : Connection → Connection} (hi : v.session i = true) :
    (cs.update i f).slice v = (cs.slice v).update (v.place i) f := sift_modify hi fun _ => rfl

theorem slice_set_of_not {c : Connection} (hi : v.session i = false) :
    Connections.slice v (cs.set i c) = cs.slice v := sift_set_of_not hi

theorem slice_update_of_not {f : Connection → Connection} (hi : v.session i = false) :
    (cs.update i f).slice v = cs.slice v := sift_modify_of_not hi

end Connections

namespace Stream

variable {s s' : Stream} {limit n : Nat} {bs unsent : Bytes} {o : Option Bytes}

@[simp]
theorem peer_slice : (s.slice v).peer = s.peer := rfl

section

variable (hw : v.session s.wire = true)
include hw

theorem read_slice : (s.slice v).read (cs.slice v) limit =
    (s.read cs limit).map fun p => (p.1, p.2.1.slice v, p.2.2.slice v) := by
  unfold read slice
  simp only [Connections.get_slice hw]
  split
  · simp only [Attempt.map_map, Connections.slice_set hw]
  · rfl

theorem fill_slice : (s.slice v).fill (cs.slice v) limit =
    (s.fill cs limit).map fun p => (p.1, p.2.1.slice v, p.2.2.slice v) := by
  unfold fill slice
  simp only [Connections.get_slice hw]
  split
  · rfl
  · simp only [Attempt.map_map, Connections.slice_set hw]

theorem advance_slice : (s.slice v).advance (cs.slice v) unsent =
    (s.advance cs unsent).map fun p => (p.1, p.2.slice v) := by
  unfold advance write slice
  simp only [Connections.get_slice hw]
  cases (cs.get s.wire).write unsent
  case waits | fails => rfl
  case done p =>
    simp only [Attempt.map]
    split
    · rfl
    · exact congrArg (fun cs => Attempt.done (_, cs)) (Connections.slice_set hw).symm

theorem deliver_slice : (s.slice v).deliver (cs.slice v) unsent =
    (s.deliver cs unsent).map fun p => (p.1, p.2.slice v) := by
  unfold deliver
  rw [advance_slice hw, slice, Connections.get_slice hw]
  split
  · rw [Attempt.map_map]
  · rw [Attempt.map_map, Attempt.map_map]

theorem close_slice : (s.slice v).close (cs.slice v) =
    (s.close cs).map fun cs => cs.slice v := by
  unfold close slice
  simp only [Connections.get_slice hw, Attempt.map_map, Connections.slice_set hw]

theorem slice_abandon : (s.abandon cs).slice v = (s.slice v).abandon (cs.slice v) :=
  Connections.slice_update hw

end

section

variable (hw : v.session s.wire = false)
include hw

theorem slice_of_read (h : s.read cs limit = .done (bs, s', cs')) : cs'.slice v = cs.slice v := by
  unfold read at h
  split at h
  · cases hr : (cs.get s.wire).read limit <;> rw [hr] at h <;> cases h
    exact Connections.slice_set_of_not hw
  · cases h
    rfl

theorem slice_of_fill (h : s.fill cs limit = .done (n, s', cs')) : cs'.slice v = cs.slice v := by
  unfold fill at h
  split at h
  · cases h
    rfl
  · cases hr : (cs.get s.wire).read limit <;> rw [hr] at h <;> cases h
    exact Connections.slice_set_of_not hw

theorem slice_of_advance (h : s.advance cs unsent = .done (bs, cs')) :
    cs'.slice v = cs.slice v := by
  unfold advance write at h
  cases hr : (cs.get s.wire).write unsent <;> simp only [hr, Attempt.map] at h <;> try cases h
  case done p =>
    split at h <;> cases h
    exact Connections.slice_set_of_not hw

theorem slice_of_deliver (h : s.deliver cs unsent = .done (o, cs')) : cs'.slice v = cs.slice v := by
  unfold deliver at h
  split at h
  · cases hf : (cs.get s.wire).flush <;> rw [hf] at h <;> cases h
    rfl
  · cases ha : s.advance cs unsent <;> rw [ha] at h <;> cases h
    exact slice_of_advance hw ha

theorem slice_of_close (h : s.close cs = .done cs') : cs'.slice v = cs.slice v := by
  unfold close at h
  cases hc : (cs.get s.wire).close <;> rw [hc] at h <;> cases h
  exact Connections.slice_set_of_not hw

theorem slice_abandon_of_not : (s.abandon cs).slice v = cs.slice v :=
  Connections.slice_update_of_not hw

end

end Stream

namespace Bridge

variable {br br' : Bridge} {d : Direction} {now : Instant} {l : CopyLoop} {s : Stream}
variable {e : Option Fault}

@[simp]
theorem source_slice : (br.slice v).source d = (br.source d).slice v := by cases d <;> rfl

@[simp]
theorem sink_slice : (br.slice v).sink d = (br.sink d).slice v := source_slice

@[simp]
theorem loop_slice : (br.slice v).loop d = br.loop d := by cases d <;> rfl

@[simp]
theorem slice_setLoop : (br.setLoop d l).slice v = (br.slice v).setLoop d l := by cases d <;> rfl

@[simp]
theorem slice_setSource : (br.setSource d s).slice v = (br.slice v).setSource d (s.slice v) := by
  cases d <;> rfl

@[simp]
theorem slice_stop : (br.stop d now e).slice v = (br.slice v).stop d now e := by cases d <;> rfl

@[simp]
theorem isOver_slice : (br.slice v).isOver = br.isOver := rfl

@[simp]
theorem stopped_slice : (br.slice v).stopped = br.stopped := rfl

@[simp]
theorem bufferSize_slice : (br.slice v).bufferSize = br.bufferSize := rfl

theorem turn_slice (ha : v.session br.a.wire = true) (hb : v.session br.b.wire = true) :
    (br.slice v).turn now d (cs.slice v) =
      (br.turn now d cs).map fun p => (p.1.slice v, p.2.slice v) := by
  have kept (d : Direction) : v.session (br.source d).wire = true := by cases d <;> assumption
  unfold turn
  cases hl : (br.loop d).phase
  case reading =>
    cases hs : br.stopped
    case true => simp [hl, hs]
    case false =>
      cases hr : (br.source d).read cs br.bufferSize
      case waits | fails => simp [hl, hs, Stream.read_slice (kept d), hr, Attempt.map]
      case done p =>
        obtain ⟨bs, s, cs'⟩ := p
        cases bs <;> simp [hl, hs, Stream.read_slice (kept d), hr, Attempt.map]
  case writing unsent =>
    have hk : v.session (br.sink d).wire = true := kept _
    cases hs : br.stopped
    case true => simp [hl, hs]
    case false =>
      cases hr : (br.sink d).deliver cs unsent
      case waits | fails => simp [hl, hs, Stream.deliver_slice hk, hr, Attempt.map]
      case done p =>
        obtain ⟨o, cs'⟩ := p
        cases o <;> simp [hl, hs, Stream.deliver_slice hk, hr, Attempt.map]
  case closing deadline =>
    have hk : v.session (br.sink d).wire = true := kept _
    cases hr : (br.sink d).close cs
    case waits => by_cases ht : deadline ≤ now <;> simp [hl, Stream.close_slice hk, hr, Attempt.map, ht]
    case fails | done => simp [hl, Stream.close_slice hk, hr, Attempt.map]
  case ended => simp [hl]

theorem slice_abandon (ha : v.session br.a.wire = true) (hb : v.session br.b.wire = true) :
    (br.abandon cs).slice v = (br.slice v).abandon (cs.slice v) := by
  rw [abandon, Stream.slice_abandon hb, Stream.slice_abandon ha]
  rfl

section

variable (ha : v.session br.a.wire = false) (hb : v.session br.b.wire = false)
include ha hb

theorem slice_of_turn (h : br.turn now d cs = some (br', cs')) : cs'.slice v = cs.slice v := by
  have others (d : Direction) : v.session (br.source d).wire = false := by cases d <;> assumption
  have sink : v.session (br.sink d).wire = false := others _
  unfold turn at h
  cases hl : (br.loop d).phase <;> simp only [hl] at h
  case reading =>
    split at h
    · cases h; rfl
    · split at h <;> cases h
      case h_2 => rfl
      case h_3 hr | h_4 hr => exact Stream.slice_of_read (others d) hr
  case writing unsent =>
    split at h
    · cases h; rfl
    · split at h <;> cases h
      case h_2 => rfl
      case h_3 hr | h_4 hr => exact Stream.slice_of_deliver sink hr
  case closing deadline =>
    split at h
    case h_1 hr => cases h; exact Stream.slice_of_close sink hr
    case h_2 => cases h; rfl
    case h_3 => split at h <;> cases h; rfl
  case ended => cases h

theorem slice_abandon_of_not : (br.abandon cs).slice v = cs.slice v := by
  rw [abandon, Stream.slice_abandon_of_not hb, Stream.slice_abandon_of_not ha]

end

end Bridge

namespace Handle

variable {hd : Handle} {st : Stream}

theorem slice_close : hd.close.slice v = (hd.slice v).close := rfl

theorem slice_pickUp : hd.pickUp.slice v = (hd.slice v).pickUp := rfl

theorem take_slice : (hd.slice v).take = (hd.take.1, hd.take.2.slice v) := by
  obtain ⟨n, p, c, l, claim⟩ := hd
  cases c <;> cases l <;> cases claim <;> rfl

theorem taking_slice : (hd.slice v).taking = hd.taking.slice v := by
  obtain ⟨n, p, c, l, claim⟩ := hd
  cases claim <;> rfl

theorem abandonTake_slice : (hd.slice v).abandonTake =
    (hd.abandonTake.1.map (Stream.slice v), hd.abandonTake.2.slice v) := by
  obtain ⟨n, p, c, l, claim⟩ := hd
  cases claim <;> rfl

theorem event_slice : (hd.slice v).event = (hd.event.1, hd.event.2.slice v) := by
  obtain ⟨n, p, c, l, claim⟩ := hd
  cases c <;> cases claim <;> rfl

theorem handOver_slice : (hd.slice v).handOver (st.slice v) =
    ((hd.handOver st).1, (hd.handOver st).2.slice v) := by
  obtain ⟨n, p, c, l, claim⟩ := hd
  cases claim
  case held awaited => cases awaited <;> rfl
  all_goals rfl

theorem slice_dropLease : hd.dropLease.slice v = (hd.slice v).dropLease := by
  obtain ⟨n, p, c, l, claim⟩ := hd
  cases claim <;> rfl

end Handle

namespace Registry

variable {r : Registry} {x : Registration} {n : Name}

theorem mem_slice {y : Registration} :
    y ∈ (r.slice v).entries ↔ ∃ x ∈ r.entries, x.name = v.name ∧ x.slice v = y := by
  simp [slice, and_assoc]

theorem find?_slice : (r.slice v).find? v.name = (r.find? v.name).map (Registration.slice v) := by
  unfold find? slice
  rw [List.find?_map, List.find?_filter]
  congr 2
  funext x
  by_cases hx : x.name = v.name <;> simp [hx, Registration.slice]

theorem find?_slice_of_ne (hn : n ≠ v.name) : (r.slice v).find? n = none := by
  refine List.find?_eq_none.mpr fun y hy => ?_
  obtain ⟨x, _, hx, rfl⟩ := mem_slice.mp hy
  exact fun he => hn <| (of_decide_eq_true he).symm.trans hx

theorem slice_erase : (r.erase v.name).slice v = (r.slice v).erase v.name := by
  simp only [erase, slice, List.filter_map, List.filter_filter, Function.comp_def, Registration.slice,
    Bool.and_comm]
  rfl

theorem slice_erase_of_ne (hn : n ≠ v.name) : (r.erase n).slice v = r.slice v := by
  have same (x : Registration) :
      (decide (x.name = v.name) && decide (x.name ≠ n)) = decide (x.name = v.name) := by
    by_cases hx : x.name = v.name <;> simp [hx, hn.symm]
  simp only [erase, slice, List.filter_filter, same]

theorem slice_cons_erase (r : Registry) (x : Registration) (n : Name) :
    slice v ⟨x :: (r.erase n).entries⟩ =
      ⟨(if x.name = v.name then [x.slice v] else []) ++ ((r.erase n).slice v).entries⟩ := by
  unfold slice
  rw [List.filter_cons]
  by_cases hx : x.name = v.name <;> simp [hx]

theorem slice_register (hx : x.name = v.name) :
    (r.register x).2.slice v = ((r.slice v).register (x.slice v)).2 := by
  rw [register, slice_cons_erase, if_pos hx, hx, slice_erase, register, Registration.slice, hx]
  rfl

theorem slice_register_of_ne (hx : x.name ≠ v.name) : (r.register x).2.slice v = r.slice v := by
  rw [register, slice_cons_erase, if_neg hx, slice_erase_of_ne hx]
  rfl

theorem slice_unregister (hh : v.handle h = true)
    (hr : ∀ x, r.find? v.name = some x → v.handle x.handle = true) :
    (r.unregister v.name h).2.slice v = ((r.slice v).unregister v.name (v.desk h)).2 := by
  unfold unregister
  rw [find?_slice]
  cases hf : r.find? v.name
  case none => rfl
  case some x =>
    have same : v.desk x.handle = v.desk h ↔ x.handle = h := rank_inj (hr x hf) hh
    by_cases hx : x.handle = h
    · simp [Registration.slice, hx, slice_erase]
    · simp [Registration.slice, hx, same]

theorem slice_unregister_of_ne (hn : n ≠ v.name) : (r.unregister n h).2.slice v = r.slice v := by
  unfold unregister
  split
  · split
    · exact slice_erase_of_ne hn
    · rfl
  · rfl

end Registry

end Rendezvous
