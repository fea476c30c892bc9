import Rendezvous.Network.Stream

namespace Rendezvous

namespace Connections

variable {cs : Connections} {c : Connection} {f : Connection → Connection} {i j : Nat}

theorem get_set_ne (h : j ≠ i) : Connections.get (cs.set i c) j = cs.get j := by
  simp [get, List.getD_eq_getElem?_getD, List.getElem?_set_ne h.symm]

theorem get_set_self (h : i < cs.length) : Connections.get (cs.set i c) i = c := by
  simp [get, List.getD_eq_getElem?_getD, h]

theorem get_of_length_le (h : cs.length ≤ i) : cs.get i = nowhere := by
  simp [get, List.getD_eq_getElem?_getD, h]

theorem set_of_length_le (h : cs.length ≤ i) : List.set cs i c = cs :=
  List.set_eq_of_length_le h

theorem get_update_ne (h : j ≠ i) : (cs.update i f).get j = cs.get j := by
  simp [get, update, List.getD_eq_getElem?_getD, h.symm]

theorem get_update_self (h : i < cs.length) : (cs.update i f).get i = f (cs.get i) := by
  simp [get, update, List.getD_eq_getElem?_getD, h]

theorem update_of_length_le (h : cs.length ≤ i) : cs.update i f = cs :=
  List.modify_eq_self h

@[simp]
theorem length_update : (cs.update i f).length = cs.length := List.length_modify ..

end Connections

namespace Connection

variable {c c' : Connection} {bs taken : Bytes} {limit n : Nat}

theorem read_done (h : c.read limit = .done (bs, c')) :
    c.inbox = bs ++ c'.inbox ∧ c'.written = c.written := by
  simp only [read] at h
  (repeat' split at h) <;> cases h <;> simp

theorem clip_le : c.clip limit ≤ limit := by
  unfold clip
  cases c.pieceLimit
  case none   => exact Nat.le_refl _
  case some n => exact Nat.min_le_left ..

theorem length_read (h : c.read limit = .done (bs, c')) : bs.length ≤ limit := by
  simp only [read] at h
  (repeat' split at h) <;> cases h <;> try exact Nat.zero_le _
  exact Nat.le_trans (List.length_take_le ..) clip_le

theorem write_done (h : c.write bs = .done (n, c')) :
    c'.inbox = c.inbox ∧ c'.received = c.received ++ bs.take n := by
  unfold write at h
  (repeat' split at h) <;> cases h
  cases hl : c.pieceLimit <;> simp [received, piece, hl, ← List.take_eq_take_min]

theorem close_done (h : c.close = .done c') : c' = { c with nearShut := true } := by
  unfold close at h
  (repeat' split at h) <;> cases h
  rfl

theorem nowhere_read (h : Connections.nowhere.read limit = .done (bs, c')) :
    c' = Connections.nowhere ∧ bs = [] := by
  simp only [read, Connections.nowhere] at h
  (repeat' split at h) <;> cases h <;> simp_all [Connections.nowhere]

theorem nowhere_write (h : Connections.nowhere.write bs = .done (n, c')) : False := by
  simp [write, Connections.nowhere] at h

end Connection

structure Wrote (w : Nat) (cs : Connections) (bs : Bytes) (cs' : Connections) : Prop where
  length    : cs'.length = cs.length
  elsewhere : ∀ {j}, j ≠ w → cs'.get j = cs.get j
  inbox     : (cs'.get w).inbox = (cs.get w).inbox
  received  : (cs'.get w).received = (cs.get w).received ++ bs

namespace Wrote

variable {cs cs' : Connections} {bs : Bytes} {w j : Nat}

theorem refl (w : Nat) (cs : Connections) : Wrote w cs [] cs where
  length      := rfl
  elsewhere _ := rfl
  inbox       := rfl
  received    := (List.append_nil _).symm

theorem inbox_eq (h : Wrote w cs bs cs') (j : Nat) : (cs'.get j).inbox = (cs.get j).inbox := by
  by_cases hj : j = w
  case pos => exact hj ▸ h.inbox
  case neg => rw [h.elsewhere hj]

theorem received_eq (h : Wrote w cs [] cs') (j : Nat) :
    (cs'.get j).received = (cs.get j).received := by
  by_cases hj : j = w
  case pos => exact hj ▸ h.received.trans (List.append_nil _)
  case neg => rw [h.elsewhere hj]

end Wrote

namespace Stream

variable {s s' : Stream} {cs cs' : Connections} {bs unsent rest : Bytes} {limit n j : Nat}

structure Took (s : Stream) (cs : Connections) (bs : Bytes) (s' : Stream) (cs' : Connections) :
    Prop where
  wire      : s'.wire = s.wire
  peer      : s'.peer = s.peer
  content   : s.content cs = bs ++ s'.content cs'
  length    : cs'.length = cs.length
  elsewhere : ∀ {j}, j ≠ s.wire → cs'.get j = cs.get j
  received  : (cs'.get s.wire).received = (cs.get s.wire).received

theorem Took.received_eq (h : s.Took cs bs s' cs') (j : Nat) :
    (cs'.get j).received = (cs.get j).received := by
  by_cases hj : j = s.wire
  case pos => exact hj ▸ h.received
  case neg => rw [h.elsewhere hj]

theorem took_of_read {c : Connection} (h : (cs.get s.wire).read limit = .done (bs, c)) :
    (Connections.get (cs.set s.wire c) s.wire).inbox = c.inbox ∧
    (Connections.get (cs.set s.wire c) s.wire).received = (cs.get s.wire).received := by
  by_cases hl : s.wire < cs.length
  case pos =>
    rw [Connections.get_set_self hl]
    exact ⟨rfl, by rw [Connection.received, Connection.received, (Connection.read_done h).right]⟩
  case neg =>
    have hl := Nat.le_of_not_lt hl
    rw [Connections.get_of_length_le hl] at h
    rw [Connections.set_of_length_le hl, Connections.get_of_length_le hl]
    exact ⟨by rw [(Connection.nowhere_read h).left], rfl⟩

theorem read_done (h : s.read cs limit = .done (bs, s', cs')) : s.Took cs bs s' cs' := by
  unfold read at h
  split at h
  case isTrue hp =>
    cases hr : (cs.get s.wire).read limit <;> rw [hr] at h <;> cases h
    case done p =>
    have ⟨hi, hw⟩ := took_of_read hr
    constructor <;> try rfl
    case content =>
      simp only [content, hi, ByteQueue.isEmpty_iff.mp hp, List.nil_append]
      exact (Connection.read_done hr).left
    case length        => exact List.length_set
    case elsewhere     => exact Connections.get_set_ne
    case received      => exact hw
  case isFalse =>
    cases h
    constructor <;> try exact fun _ => rfl
    all_goals try rfl
    show s.pending.toList ++ _ = s.pending.toList.take limit ++ ((s.pending.take limit).2.toList ++ _)
    rw [ByteQueue.toList_take_snd, ← List.append_assoc, List.take_append_drop]

theorem length_read (h : s.read cs limit = .done (bs, s', cs')) : bs.length ≤ limit := by
  unfold read at h
  split at h
  case isTrue =>
    cases hr : (cs.get s.wire).read limit <;> rw [hr] at h <;> cases h
    exact Connection.length_read hr
  case isFalse =>
    cases h
    exact List.length_take_le ..

theorem fill_done (h : s.fill cs limit = .done (n, s', cs')) : s.Took cs [] s' cs' := by
  unfold fill at h
  split at h
  case isTrue =>
    cases h
    constructor <;> simp
  case isFalse =>
    cases hr : (cs.get s.wire).read limit <;> rw [hr] at h <;> cases h
    case done p =>
    have ⟨hi, hw⟩ := took_of_read hr
    constructor <;> try rfl
    case content       => simp [content, hi, (Connection.read_done hr).left]
    case length        => exact List.length_set
    case elsewhere     => exact Connections.get_set_ne
    case received      => exact hw

@[simp]
theorem wire_unread : (s.unread bs).wire = s.wire := rfl

@[simp]
theorem content_unread : (s.unread bs).content cs = bs ++ s.content cs := by
  simp [content, unread]

theorem advance_done (h : s.advance cs unsent = .done (rest, cs')) :
    ∃ taken, unsent = taken ++ rest ∧ Wrote s.wire cs taken cs' := by
  unfold advance write at h
  cases hw : (cs.get s.wire).write unsent <;> simp only [hw, Attempt.map] at h <;> try cases h
  case done p =>
  have ⟨k, c⟩ := p
  split at h <;> cases h
  have hl : s.wire < cs.length := Nat.lt_of_not_le fun hl =>
    Connection.nowhere_write <| Connections.get_of_length_le hl ▸ hw
  have ⟨hi, hr⟩ := Connection.write_done hw
  refine ⟨unsent.take k, (List.take_append_drop ..).symm, ?_⟩
  constructor
  case length    => exact List.length_set
  case elsewhere => exact Connections.get_set_ne
  case inbox     => rw [Connections.get_set_self hl, hi]
  case received  => rw [Connections.get_set_self hl, hr]

theorem deliver_some (h : s.deliver cs unsent = .done (some rest, cs')) :
    ∃ taken, unsent = taken ++ rest ∧ Wrote s.wire cs taken cs' := by
  unfold deliver at h
  split at h
  · cases hf : (cs.get s.wire).flush <;> rw [hf] at h <;> cases h
  · cases ha : s.advance cs unsent <;> rw [ha] at h <;> cases h
    exact advance_done ha

theorem deliver_none (h : s.deliver cs unsent = .done (none, cs')) : unsent = [] ∧ cs' = cs := by
  unfold deliver at h
  split at h
  · cases hf : (cs.get s.wire).flush <;> rw [hf] at h <;> cases h
    exact ⟨‹_›, rfl⟩
  · cases ha : s.advance cs unsent <;> rw [ha] at h <;> cases h

theorem wrote_update {f : Connection → Connection} (hi : ∀ c, (f c).inbox = c.inbox)
    (hr : ∀ c, (f c).received = c.received) (w : Nat) : Wrote w cs [] (cs.update w f) := by
  by_cases hl : w < cs.length
  case pos =>
    constructor
    case length    => exact Connections.length_update
    case elsewhere => exact Connections.get_update_ne
    case inbox     => rw [Connections.get_update_self hl, hi]
    case received  => rw [Connections.get_update_self hl, hr, List.append_nil]
  case neg =>
    rw [Connections.update_of_length_le (Nat.le_of_not_lt hl)]
    exact .refl w cs

theorem abandon_wrote : Wrote s.wire cs [] (s.abandon cs) :=
  wrote_update (f := Connection.abandon) (fun _ => rfl) (fun _ => rfl) s.wire

theorem close_done (h : s.close cs = .done cs') : Wrote s.wire cs [] cs' := by
  unfold close at h
  cases hc : (cs.get s.wire).close <;> rw [hc] at h <;> cases h
  cases Connection.close_done hc
  by_cases hl : s.wire < cs.length
  case pos =>
    constructor
    case length    => exact List.length_set
    case elsewhere => exact Connections.get_set_ne
    case inbox     => rw [Connections.get_set_self hl]
    case received  => rw [Connections.get_set_self hl, List.append_nil]; rfl
  case neg =>
    simp only [Connections.set_of_length_le (Nat.le_of_not_lt hl)]
    exact .refl s.wire cs

end Stream
end Rendezvous
