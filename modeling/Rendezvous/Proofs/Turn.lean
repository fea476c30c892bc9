import Mathlib.Tactic.ByContra
import Rendezvous.Broker.Run
import Rendezvous.Proofs.ControlLine
import Rendezvous.Proofs.Stream

namespace Rendezvous.Broker

def after (b : Broker) (i : Nat) (s : Session) (r : Registry) (hs : List Handle)
    (ws : Connections) : Broker :=
  { b with registry := r, handles := hs, wires := ws, sessions := b.sessions.set i s }

def Hears (b : Broker) (st : Stream) (rd : LineReader) (text : String) (st' : Stream)
    (ws : Connections) : Prop :=
  ∃ bs rest st₁, st.read b.wires rd.room = .done (bs, st₁, ws) ∧
    rd.push b.config.maxLineLength bs = .line text rest ∧ st' = st₁.unread rest

inductive Mishears (b : Broker) (st : Stream) (rd : LineReader) (deadline : Instant) :
    Error → Stream → Connections → Prop
  | fault {e} (read : st.read b.wires rd.room = .fails e) :
    Mishears b st rd deadline (.fault e) st b.wires
  | ended {st' ws} (read : st.read b.wires rd.room = .done ([], st', ws)) :
    Mishears b st rd deadline (.protocol .closedEarly) st ws
  | refused {bs st' ws cause} (read : st.read b.wires rd.room = .done (bs, st', ws))
      (some : bs ≠ []) (push : rd.push b.config.maxLineLength bs = .refused cause) :
    Mishears b st rd deadline (.protocol cause) st' ws
  | late (read : st.read b.wires rd.room = .waits) (late : deadline ≤ b.clock) :
    Mishears b st rd deadline (.protocol .noIdentification) st b.wires

def Calm (b : Broker) (h : Nat) : Prop :=
  ∀ hd, b.handles[h]? = some hd → hd.closed = false ∧ ∀ w, hd.claim ≠ .asked w

def closeReplaced (previous : Option Registration) (hs : List Handle) : List Handle :=
  match previous with
  | some e => hs.modify e.handle Handle.close
  | none => hs

-- The turns of the session at place `i` with the stream `st`: its phase before, and afterwards the
-- session, the registry, the handles and the connections.
inductive Turn (b : Broker) (i : Nat) (st : Stream) :
    Phase → Session → Registry → List Handle → Connections → Prop
  | reads {rd t bs st' ws rd'} (read : st.read b.wires rd.room = .done (bs, st', ws))
      (some : bs ≠ []) (push : rd.push b.config.maxLineLength bs = .incomplete rd') :
    Turn b i st (.identifying rd t) ⟨st', .identifying rd' t⟩ b.registry b.handles ws
  | mishears {rd t cause st' ws} (why : b.Mishears st rd t cause st' ws) :
    Turn b i st (.identifying rd t) ⟨st', .refusing Reply.invalidProtocol.bytes cause⟩
      b.registry b.handles ws
  | misreads {rd t text st' ws e} (hears : b.Hears st rd text st' ws)
      (command : Command.ofLine text = .error e) :
    Turn b i st (.identifying rd t)
      ⟨st', .refusing e.reply.bytes (.protocol (.refusedLine e text))⟩ b.registry b.handles ws
  | denies {rd t text st' ws role c reason} (hears : b.Hears st rd text st' ws)
      (command : Command.ofLine text = .ok c)
      (asks : c = .register c.name ∧ role = .provider ∨ c = .request c.name ∧ role = .consumer)
      (policy : b.policy i ⟨role, c.name, st'.peer⟩ = some reason) :
    Turn b i st (.identifying rd t)
      ⟨st', .refusing Reply.accessDenied.bytes (.accessDenied reason)⟩ b.registry b.handles ws
  | registers {rd t text st' ws n} (hears : b.Hears st rd text st' ws)
      (command : Command.ofLine text = .ok (.register n))
      (policy : b.policy i ⟨.provider, n, st'.peer⟩ = none) :
    Turn b i st (.identifying rd t)
      ⟨st', .welcoming b.handles.length Reply.serviceRegistered.bytes⟩
      (b.registry.register ⟨b.handles.length, n⟩).2
      (closeReplaced (b.registry.find? n) (b.handles ++ [{ name := n, peer := st'.peer }])) ws
  | claims {rd t text st' ws n e hd} (hears : b.Hears st rd text st' ws)
      (command : Command.ofLine text = .ok (.request n))
      (policy : b.policy i ⟨.consumer, n, st'.peer⟩ = none) (found : b.registry.find? n = some e)
      (handle : b.handles[e.handle]? = some hd) (take : hd.take.1 = true) :
    Turn b i st (.identifying rd t)
      ⟨st', .claiming e.handle n (b.clock + b.config.identificationTimeout.nanos)⟩
      (b.registry.erase n) (b.handles.modify e.handle fun hd => hd.take.2) ws
  | misses {rd t text st' ws n e} (hears : b.Hears st rd text st' ws)
      (command : Command.ofLine text = .ok (.request n))
      (policy : b.policy i ⟨.consumer, n, st'.peer⟩ = none) (found : b.registry.find? n = some e)
      (take : ∀ hd, b.handles[e.handle]? = some hd → hd.take.1 = false) :
    Turn b i st (.identifying rd t) ⟨st', .refusing Reply.serviceNotFound.bytes (.notFound n)⟩
      (b.registry.erase n)
      ((b.handles.modify e.handle fun hd => hd.take.2).modify e.handle Handle.close) ws
  | seeks {rd t text st' ws n} (hears : b.Hears st rd text st' ws)
      (command : Command.ofLine text = .ok (.request n))
      (policy : b.policy i ⟨.consumer, n, st'.peer⟩ = none) (found : b.registry.find? n = none) :
    Turn b i st (.identifying rd t) ⟨st', .refusing Reply.serviceNotFound.bytes (.notFound n)⟩
      b.registry b.handles ws
  | answers {unsent cause rest ws} (send : st.deliver b.wires unsent = .done (some rest, ws)) :
    Turn b i st (.refusing unsent cause) ⟨st, .refusing rest cause⟩ b.registry b.handles ws
  | answered {unsent cause}
      (send : st.deliver b.wires unsent = .done (none, b.wires) ∨
        ∃ e, st.deliver b.wires unsent = .fails e) :
    Turn b i st (.refusing unsent cause) ⟨st, .closing (.failed cause) none⟩
      b.registry b.handles b.wires
  | closes {how t ws}
      (close : st.close b.wires = .done ws ∨ ws = b.wires ∧
        ((∃ e, st.close b.wires = .fails e) ∨
          st.close b.wires = .waits ∧ ∃ d, t = some d ∧ d ≤ b.clock)) :
    Turn b i st (.closing how t) ⟨st, .ended how⟩ b.registry b.handles (st.abandon ws)
  | greets {h unsent rest ws} (send : st.deliver b.wires unsent = .done (some rest, ws)) :
    Turn b i st (.welcoming h unsent) ⟨st, .welcoming h rest⟩ b.registry b.handles ws
  | greeted {h unsent} (send : st.deliver b.wires unsent = .done (none, b.wires)) :
    Turn b i st (.welcoming h unsent)
      ⟨st, .idling h 0 (b.clock + b.config.keepaliveInterval.nanos)⟩ b.registry b.handles b.wires
  | unheard {h unsent e} (send : st.deliver b.wires unsent = .fails e) :
    Turn b i st (.welcoming h unsent) ⟨st, .ended (.failed (.fault e))⟩ (b.unregister h).registry
      (b.handles.modify h Handle.dropLease) (st.abandon b.wires)
  | handsOver {h m t hd} (handle : b.handles[h]? = some hd) («open» : hd.closed = false)
      (claim : hd.claim = .asked true) :
    Turn b i st (.idling h m t) ⟨st, .ended (.regular .providerClaimed)⟩ b.registry
      (b.handles.modify h fun hd => { hd with leased := false, claim := .given st }) b.wires
  | offers {h m t hd} (handle : b.handles[h]? = some hd) («open» : hd.closed = false)
      (claim : hd.claim = .asked false) :
    Turn b i st (.idling h m t) ⟨st, .closing (.regular .providerClaimed) none⟩ b.registry
      (b.handles.modify h fun hd => { hd with leased := false, claim := .settled }) b.wires
  | evicted {h m t hd} (handle : b.handles[h]? = some hd) (closed : hd.closed = true) :
    Turn b i st (.idling h m t) ⟨st, .closing (.regular .providerEvicted) none⟩
      (b.unregister h).registry (b.handles.modify h Handle.dropLease) b.wires
  | leaves {h m t st' ws} (calm : b.Calm h)
      (fill : st.fill b.wires b.config.bufferSize = .done (0, st', ws) ∨
        st' = st ∧ ws = b.wires ∧ ∃ e, st.fill b.wires b.config.bufferSize = .fails e) :
    Turn b i st (.idling h m t) ⟨st', .ended (.regular .providerLeft)⟩ (b.unregister h).registry
      (b.handles.modify h Handle.dropLease) (st'.abandon ws)
  | overflows {h m t n st' ws} (calm : b.Calm h)
      (fill : st.fill b.wires b.config.bufferSize = .done (n, st', ws)) (some : n ≠ 0)
      (much : b.config.maxPendingBytes < st'.pending.size) :
    Turn b i st (.idling h m t) ⟨st', .overflowing h⟩ b.registry b.handles ws
  | holds {h m t n st' ws} (calm : b.Calm h)
      (fill : st.fill b.wires b.config.bufferSize = .done (n, st', ws)) (some : n ≠ 0)
      (few : st'.pending.size ≤ b.config.maxPendingBytes) :
    Turn b i st (.idling h m t)
      ⟨st', .idling h 0 (b.clock + b.config.keepaliveInterval.nanos)⟩ b.registry b.handles ws
  | listens {h m t} (calm : b.Calm h) (fill : st.fill b.wires b.config.bufferSize = .waits)
      (late : t ≤ b.clock) (few : m + 1 < b.missLimit) :
    Turn b i st (.idling h m t)
      ⟨st, .idling h (m + 1) (b.clock + b.config.keepaliveInterval.nanos)⟩
      b.registry b.handles b.wires
  | timesOut {h m t} (calm : b.Calm h) (fill : st.fill b.wires b.config.bufferSize = .waits)
      (late : t ≤ b.clock) (many : b.missLimit ≤ m + 1) :
    Turn b i st (.idling h m t)
      ⟨st, .closing (.regular .providerTimedOut)
        (some (b.clock + b.config.keepaliveInterval.nanos))⟩
      (b.unregister h).registry (b.handles.modify h Handle.dropLease) b.wires
  | overflowed {h ws}
      (close : st.close b.wires = .done ws ∨ ws = b.wires ∧ ∃ e, st.close b.wires = .fails e) :
    Turn b i st (.overflowing h) ⟨st, .ended (.regular .providerLeft)⟩ (b.unregister h).registry
      (b.handles.modify h Handle.dropLease) (st.abandon ws)
  | picksUp {h n t hd provider} (handle : b.handles[h]? = some hd)
      (claim : hd.claim = .given provider) :
    Turn b i st (.claiming h n t) ⟨st, .connecting provider Reply.connectedToService.bytes⟩
      b.registry (b.handles.modify h Handle.pickUp) b.wires
  | givesUp {h n t hd} (handle : b.handles[h]? = some hd) (waits : hd.taking = .waiting)
      (late : t ≤ b.clock) :
    Turn b i st (.claiming h n t) ⟨st, .refusing Reply.serviceNotFound.bytes (.notFound n)⟩
      b.registry ((b.handles.modify h fun hd => hd.abandonTake.2).modify h Handle.close) b.wires
  | despairs {h n t} (nothing : ∀ hd, b.handles[h]? = some hd → hd.claim = .settled) :
    Turn b i st (.claiming h n t) ⟨st, .refusing Reply.serviceNotFound.bytes (.notFound n)⟩
      b.registry (b.handles.modify h Handle.close) b.wires
  | tells {provider unsent rest ws} (send : st.deliver b.wires unsent = .done (some rest, ws)) :
    Turn b i st (.connecting provider unsent) ⟨st, .connecting provider rest⟩
      b.registry b.handles ws
  | bridges {provider unsent} (send : st.deliver b.wires unsent = .done (none, b.wires)) :
    Turn b i st (.connecting provider unsent)
      ⟨st, .bridging (Bridge.new st provider b.config.bufferSize)⟩ b.registry b.handles b.wires
  | untold {provider unsent e} (send : st.deliver b.wires unsent = .fails e) :
    Turn b i st (.connecting provider unsent) ⟨st, .ended (.failed (.fault e))⟩
      b.registry b.handles (st.abandon (provider.abandon b.wires))
  | copies {br d br' ws} (turn : br.turn b.clock d b.wires = some (br', ws)) :
    Turn b i st (.bridging br) ⟨st, .bridging br'⟩ b.registry b.handles ws
  | parts {br} (ended : br.isOver = true) :
    Turn b i st (.bridging br) ⟨st, .ended (.regular (.bridged br))⟩ b.registry b.handles
      (br.abandon b.wires)

def Task.place : Task → Nat
  | .session i | .copy i _ => i

variable {b b' : Broker} {s : Session} {i : Nat}

def Turns (b : Broker) (i : Nat) (s : Session) (b' : Broker) : Prop :=
  ∃ s' r hs ws, b.Turn i s.stream s.phase s' r hs ws ∧ b' = b.after i s' r hs ws

theorem Turns.intro {p : Phase} {s' : Session} {r : Registry} {hs : List Handle} {ws : Connections}
    (hp : s.phase = p) (t : b.Turn i s.stream p s' r hs ws) (h : b' = b.after i s' r hs ws) :
    b.Turns i s b' :=
  ⟨s', r, hs, ws, hp ▸ t, h⟩

theorem modify_eq_set {α : Type} {l : List α} {a : α} {f : α → α} (h : l[i]? = some a) :
    l.modify i f = l.set i (f a) := by
  have ⟨hi, ha⟩ := List.getElem?_eq_some_iff.mp h
  rw [List.modify_eq_take_cons_drop hi, List.set_eq_take_append_cons_drop, if_pos hi, ha]

@[simp]
theorem modify_set {α : Type} {l : List α} {a : α} {f : α → α} :
    (l.set i a).modify i f = l.set i (f a) := by
  by_cases hi : i < l.length
  case pos => rw [modify_eq_set (List.getElem?_set_self hi), List.set_set]
  case neg =>
    have hi := Nat.le_of_not_lt hi
    rw [List.set_eq_of_length_le hi, List.set_eq_of_length_le hi, List.modify_eq_self hi]

section

variable (hs : b.sessions[i]? = some s)
include hs

theorem setPhase_eq {p : Phase} :
    b.setPhase i p = b.after i ⟨s.stream, p⟩ b.registry b.handles b.wires := by
  simp [setPhase, after, modify_eq_set hs]

theorem refuse_eq {reply : Reply} {cause : Error} :
    b.refuse i reply cause =
      b.after i ⟨s.stream, .refusing reply.bytes cause⟩ b.registry b.handles b.wires := by
  simp [refuse, Session.refuse, after, Reply.bytes, modify_eq_set hs]

theorem finish_eq {how : Ending} :
    b.finish i how =
      b.after i ⟨s.stream, .ended how⟩ b.registry b.handles (s.stream.abandon b.wires) := by
  simp [finish, hs, after, modify_eq_set hs]

theorem setStream_eq {st : Stream} :
    b.setStream i st = b.after i ⟨st, s.phase⟩ b.registry b.handles b.wires := by
  simp [setStream, after, modify_eq_set hs]

theorem getElem?_after {s' : Session} {r : Registry} {hds : List Handle} {ws : Connections} :
    (b.after i s' r hds ws).sessions[i]? = some s' := by
  have ⟨hi, _⟩ := List.getElem?_eq_some_iff.mp hs
  simp [after, hi]

end

theorem getElem?_after_ne {j : Nat} {s' : Session} {r : Registry} {hds : List Handle}
    {ws : Connections} (h : j ≠ i) : (b.after i s' r hds ws).sessions[j]? = b.sessions[j]? :=
  List.getElem?_set_ne h.symm

theorem of_getElem?_after {j : Nat} {s' x : Session} {r : Registry} {hds : List Handle}
    {ws : Connections} (h : (b.after i s' r hds ws).sessions[j]? = some x) :
    j = i ∧ x = s' ∨ j ≠ i ∧ b.sessions[j]? = some x := by
  by_cases hj : j = i
  case neg => exact .inr ⟨hj, (getElem?_after_ne hj).symm.trans h⟩
  case pos =>
    obtain ⟨hi, rfl⟩ := List.getElem?_eq_some_iff.mp h
    exact .inl ⟨hj, by simp [after, hj]⟩

@[simp]
theorem after_after {s' s'' : Session} {r r' : Registry} {hds hds' : List Handle}
    {ws ws' : Connections} :
    (b.after i s' r hds ws).after i s'' r' hds' ws' = b.after i s'' r' hds' ws' := by
  simp [after]

theorem unregister_eq (b : Broker) (h : Nat) :
    b.unregister h = { b with registry := (b.unregister h).registry } := by
  unfold unregister
  split <;> rfl

theorem registry_unregister {c : Broker} (hr : c.registry = b.registry)
    (hh : c.handles = b.handles) (h : Nat) :
    (c.unregister h).registry = (b.unregister h).registry := by
  unfold unregister
  rw [hr, hh]
  split
  · rfl
  · exact hr

section

variable {rd : LineReader} {t : Instant} {st' : Stream} {ws : Connections} {text : String}
variable {unsent : Bytes} {h : Nat}

theorem leave_eq {c : Broker} {how : SessionEnd} (hr : c.registry = b.registry)
    (hh : c.handles = b.handles) (hc : c.sessions[i]? = some s) :
    (c.unregister h).finishProvider i h how =
      c.after i ⟨s.stream, .ended (.regular how)⟩ (b.unregister h).registry
        (b.handles.modify h Handle.dropLease) (s.stream.abandon c.wires) := by
  rw [unregister_eq, finishProvider, ← registry_unregister hr hh, ← hh]
  exact finish_eq (b := setHandle { c with registry := _ } h _) hc

theorem beginProviding_turns {n : Name} (hp : s.phase = .identifying rd t)
    (hears : b.Hears s.stream rd text st' ws) (hc : Command.ofLine text = .ok (.register n))
    (policy : b.policy i ⟨.provider, n, st'.peer⟩ = none) :
    b.Turns i s ((b.after i ⟨st', s.phase⟩ b.registry b.handles ws).beginProviding i
      { s with stream := st' } n) := by
  refine .intro hp (.registers hears hc policy) ?_
  cases hf : b.registry.find? n <;>
    simp [beginProviding, enroll, Registry.register, evict, setHandle, closeReplaced, after, setPhase,
      hf, Reply.bytes]

variable (hs : b.sessions[i]? = some s)
include hs

theorem beginConsuming_turns {n : Name} (hp : s.phase = .identifying rd t)
    (hears : b.Hears s.stream rd text st' ws) (hc : Command.ofLine text = .ok (.request n))
    (policy : b.policy i ⟨.consumer, n, st'.peer⟩ = none) :
    b.Turns i s ((b.after i ⟨st', s.phase⟩ b.registry b.handles ws).beginConsuming i n) := by
  have hs' : (b.after i ⟨st', s.phase⟩ b.registry b.handles ws).sessions[i]? = _ := getElem?_after hs
  unfold beginConsuming Registry.claim
  cases hf : b.registry.find? n
  case none =>
    refine .intro hp (.seeks hears hc policy hf) ?_
    simp only [after, hf]
    simp [refuse, Session.refuse, Reply.bytes]
  case some e =>
    simp only [after, hf]
    cases hh : b.handles[e.handle]?
    case none =>
      refine .intro hp (.misses hears hc policy hf (by simp [hh])) ?_
      have hl := List.getElem?_eq_none_iff.mp hh
      simp [vanish, refuse, Session.refuse, setHandle, after, Reply.bytes, List.modify_eq_self hl]
    case some hd =>
      simp only
      split
      case isTrue ht =>
        refine .intro hp (.claims hears hc policy hf hh ht) ?_
        simp [setPhase, setHandle, after]
      case isFalse ht =>
        refine .intro hp (.misses hears hc policy hf (by simp_all)) ?_
        simp [vanish, refuse, Session.refuse, setHandle, after, Reply.bytes]

theorem dispatch_turns (hp : s.phase = .identifying rd t) (hears : b.Hears s.stream rd text st' ws) :
    b.Turns i s ((b.after i ⟨st', s.phase⟩ b.registry b.handles ws).dispatch i
      { s with stream := st' } text) := by
  have hs' : (b.after i ⟨st', s.phase⟩ b.registry b.handles ws).sessions[i]? = _ := getElem?_after hs
  unfold dispatch
  split
  case h_1 e hc =>
    exact .intro hp (.misreads hears hc) (by rw [refuse_eq hs', after_after]; rfl)
  case h_2 n hc =>
    split
    case h_1 reason hr =>
      exact .intro hp (.denies hears hc (.inl ⟨rfl, rfl⟩) hr) (by rw [refuse_eq hs', after_after]; rfl)
    case h_2 hr => exact beginProviding_turns hp hears hc hr
  case h_3 n hc =>
    split
    case h_1 reason hr =>
      exact .intro hp (.denies hears hc (.inr ⟨rfl, rfl⟩) hr) (by rw [refuse_eq hs', after_after]; rfl)
    case h_2 hr => exact beginConsuming_turns hs hp hears hc hr

theorem identify_turns (hp : s.phase = .identifying rd t) (h : b.identify i s rd t = some b') :
    b.Turns i s b' := by
  unfold identify at h
  split at h
  case h_1 e hr =>
    cases h
    exact .intro hp (.mishears (.fault hr)) (refuse_eq hs)
  case h_2 st ws hr =>
    cases h
    exact .intro hp (.mishears (.ended hr)) (refuse_eq (b := { b with wires := ws }) hs)
  case h_3 bs st ws hn hr =>
    have he (st : Stream) : { b with wires := ws }.setStream i st =
        b.after i ⟨st, s.phase⟩ b.registry b.handles ws :=
      setStream_eq (b := { b with wires := ws }) hs
    have hs' : (b.after i ⟨st, s.phase⟩ b.registry b.handles ws).sessions[i]? = _ := getElem?_after hs
    simp only at h
    split at h <;> cases h
    case h_1 text rest hl =>
      rw [he]
      exact dispatch_turns hs hp ⟨bs, rest, st, hr, hl, rfl⟩
    case h_2 cause hl =>
      rw [he, refuseLine, refuse_eq hs']
      exact .intro hp (.mishears (.refused hr hn hl)) after_after
    case h_3 rd' hl =>
      rw [he, setPhase_eq hs']
      exact .intro hp (.reads hr hn hl) after_after
  case h_4 hr =>
    split at h <;> cases h
    exact .intro hp (.mishears (.late hr ‹_›)) (refuse_eq hs)

theorem writeRefusal_turns {cause : Error} (hp : s.phase = .refusing unsent cause)
    (h : b.writeRefusal i s unsent cause = some b') : b.Turns i s b' := by
  unfold writeRefusal at h
  split at h <;> cases h
  case h_2 e hd => exact .intro hp (.answered (.inr ⟨e, hd⟩)) (setPhase_eq hs)
  case h_3 ws hd =>
    cases (Stream.deliver_none hd).right
    exact .intro hp (.answered (.inl hd)) (setPhase_eq hs)
  case h_4 rest ws hd => exact .intro hp (.answers hd) (setPhase_eq (b := { b with wires := ws }) hs)

theorem closeSession_turns {how : Ending} {t : Option Instant} (hp : s.phase = .closing how t)
    (h : b.closeSession i s how t = some b') : b.Turns i s b' := by
  unfold closeSession at h
  split at h
  case h_1 ws hc =>
    cases h
    exact .intro hp (.closes (.inl hc)) (finish_eq (b := { b with wires := ws }) hs)
  case h_2 e hc =>
    cases h
    exact .intro hp (.closes (.inr ⟨rfl, .inl ⟨e, hc⟩⟩)) (finish_eq hs)
  case h_3 hc =>
    split at h <;> cases h
    cases t
    case isTrue.refl.none ht => cases ht
    case isTrue.refl.some d ht =>
      have ht := of_decide_eq_true (Option.any_some.symm.trans ht)
      exact .intro hp (.closes (.inr ⟨rfl, .inr ⟨hc, d, rfl, ht⟩⟩)) (finish_eq hs)

theorem welcome_turns (hp : s.phase = .welcoming h unsent)
    (hw : b.welcome i s h unsent = some b') : b.Turns i s b' := by
  unfold welcome at hw
  split at hw <;> cases hw
  case h_2 e hd =>
    refine .intro hp (.unheard hd) ?_
    rw [unregister_eq, finish_eq (b := setHandle { b with registry := _ } h _) hs]
    rfl
  case h_3 ws hd =>
    cases (Stream.deliver_none hd).right
    exact .intro hp (.greeted hd) (setPhase_eq hs)
  case h_4 rest ws hd => exact .intro hp (.greets hd) (setPhase_eq (b := { b with wires := ws }) hs)

theorem handOver_turns {m : Nat} {hd hd' : Handle} (hp : s.phase = .idling h m t)
    (hh : b.handles[h]? = some hd) (he : hd.event = (some .claimed, hd')) :
    b.Turns i s (b.handOver i s h hd') := by
  unfold Handle.event at he
  split at he
  case isTrue => cases he
  case isFalse hc =>
    have hc : hd.closed = false := Bool.eq_false_iff.mpr hc
    split at he <;> cases he
    case h_1 w ha =>
    cases w
    case true =>
      refine .intro hp (.handsOver hh hc ha) ?_
      simp [handOver, Handle.handOver, Handle.dropLease, setPhase, setHandle, after,
        modify_eq_set hs, modify_eq_set hh]
    case false =>
      refine .intro hp (.offers hh hc ha) ?_
      simp [handOver, Handle.handOver, Handle.dropLease, setPhase, setHandle, after,
        modify_eq_set hs, modify_eq_set hh]

theorem idle_turns {m : Nat} (hp : s.phase = .idling h m t)
    (hi : b.idle i s h m t = some b') : b.Turns i s b' := by
  unfold idle at hi
  split at hi
  case h_1 hd' he =>
    cases hi
    have ⟨hd, hh, he⟩ := Option.map_eq_some_iff.mp he
    exact handOver_turns hs hp hh he
  case h_2 hd' he =>
    cases hi
    have ⟨hd, hh, he⟩ := Option.map_eq_some_iff.mp he
    have hc : hd.closed = true := by
      unfold Handle.event at he
      by_contra hc
      rw [if_neg hc] at he
      split at he <;> cases he
    refine .intro hp (.evicted hh hc) ?_
    rw [unregister_eq, setPhase_eq (b := setHandle { b with registry := _ } h _) hs]
    rfl
  case h_3 hn hn' =>
    have calm : b.Calm h := by
      intro hd hh
      simp only [hh, Option.map_some, Option.some.injEq] at hn hn'
      cases hc : hd.closed
      case true  => exact (hn' _ (if_pos hc)).elim
      case false => exact ⟨rfl, fun w hw => hn _ (by simp [Handle.event, hc, hw]; rfl)⟩
    split at hi
    case h_1 e hf =>
      cases hi
      refine .intro hp (.leaves calm (.inr ⟨rfl, rfl, e, hf⟩)) ?_
      exact leave_eq rfl rfl hs
    case h_2 st ws hf =>
      cases hi
      rw [setStream_eq (b := { b with wires := ws }) hs]
      refine .intro hp (.leaves calm (.inl hf)) ?_
      exact (leave_eq (b := b) (c := b.after i ⟨st, s.phase⟩ b.registry b.handles ws) rfl rfl
        (getElem?_after hs)).trans after_after
    case h_3 n st ws hn hf =>
      have he : { b with wires := ws }.setStream i st =
          b.after i ⟨st, s.phase⟩ b.registry b.handles ws :=
        setStream_eq (b := { b with wires := ws }) hs
      have hs' : (b.after i ⟨st, s.phase⟩ b.registry b.handles ws).sessions[i]? = _ := getElem?_after hs
      simp only [he] at hi
      split at hi <;> cases hi
      case isTrue hm  => exact .intro hp (.overflows calm hf hn hm) ((setPhase_eq hs').trans after_after)
      case isFalse hm =>
        exact .intro hp (.holds calm hf hn (Nat.le_of_not_lt hm)) ((setPhase_eq hs').trans after_after)
    case h_4 hf =>
      split at hi
      case isFalse => cases hi
      case isTrue ht =>
        split at hi <;> cases hi
        case isTrue hm =>
          refine .intro hp (.timesOut calm hf ht hm) ?_
          rw [unregister_eq, setPhase_eq (b := setHandle { b with registry := _ } h _) hs]
          rfl
        case isFalse hm =>
          exact .intro hp (.listens calm hf ht (Nat.lt_of_not_le hm)) (setPhase_eq hs)

theorem overflow_turns (hp : s.phase = .overflowing h)
    (ho : b.overflow i s h = some b') : b.Turns i s b' := by
  unfold overflow at ho
  split at ho <;> cases ho
  case h_2 e hc => exact .intro hp (.overflowed (.inr ⟨rfl, e, hc⟩)) (leave_eq rfl rfl hs)
  case h_3 ws hc =>
    exact .intro hp (.overflowed (.inl hc)) (leave_eq (c := { b with wires := ws }) rfl rfl hs)

theorem await_turns {n : Name} (hp : s.phase = .claiming h n t)
    (ha : b.await i h n t = some b') : b.Turns i s b' := by
  unfold await at ha
  split at ha
  case h_1 provider he =>
    cases ha
    have ⟨hd, hh, he⟩ := Option.map_eq_some_iff.mp he
    have hg : hd.claim = .given provider := by
      unfold Handle.taking at he
      split at he <;> cases he
      assumption
    exact .intro hp (.picksUp hh hg) (setPhase_eq (b := setHandle b h _) hs)
  case h_2 he =>
    have ⟨hd, hh, he⟩ := Option.map_eq_some_iff.mp he
    split at ha <;> cases ha
    exact .intro hp (.givesUp hh he ‹_›) (refuse_eq (b := setHandle (setHandle b h _) h _) hs)
  case h_3 hn hn' =>
    cases ha
    refine .intro hp (.despairs ?_) (refuse_eq (b := setHandle b h _) hs)
    intro hd hh
    simp only [hh, Option.map_some, Option.some.injEq] at hn hn'
    cases hc : hd.claim <;> simp [Handle.taking, hc] at hn hn'
    rfl

theorem connect_turns {provider : Stream} (hp : s.phase = .connecting provider unsent)
    (h : b.connect i s provider unsent = some b') : b.Turns i s b' := by
  unfold connect at h
  split at h <;> cases h
  case h_2 e hd =>
    exact .intro hp (.untold hd) (finish_eq (b := { b with wires := provider.abandon b.wires }) hs)
  case h_3 ws hd =>
    cases (Stream.deliver_none hd).right
    exact .intro hp (.bridges hd) (setPhase_eq hs)
  case h_4 rest ws hd => exact .intro hp (.tells hd) (setPhase_eq (b := { b with wires := ws }) hs)

theorem leaveBridge_turns {br : Bridge} (hp : s.phase = .bridging br)
    (h : b.leaveBridge i br = some b') : b.Turns i s b' := by
  unfold leaveBridge at h
  split at h <;> cases h
  exact .intro hp (.parts ‹_›) (setPhase_eq (b := { b with wires := br.abandon b.wires }) hs)

end

theorem sessionTurn_turns (h : b.sessionTurn i = some b') :
    ∃ s, b.sessions[i]? = some s ∧ b.Turns i s b' := by
  unfold sessionTurn at h
  split at h
  case h_1 => cases h
  case h_2 s hs =>
    refine ⟨s, hs, ?_⟩
    split at h
    case h_1 hp  => exact identify_turns hs hp h
    case h_2 hp  => exact writeRefusal_turns hs hp h
    case h_3 hp  => exact closeSession_turns hs hp h
    case h_4 hp  => exact welcome_turns hs hp h
    case h_5 hp  => exact idle_turns hs hp h
    case h_6 hp  => exact overflow_turns hs hp h
    case h_7 hp  => exact await_turns hs hp h
    case h_8 hp  => exact connect_turns hs hp h
    case h_9 hp  => exact leaveBridge_turns hs hp h
    case h_10    => cases h

theorem copyTurn_turns {d : Direction} (h : b.copyTurn i d = some b') :
    ∃ s, b.sessions[i]? = some s ∧ b.Turns i s b' := by
  unfold copyTurn at h
  split at h
  case h_2 => cases h
  case h_1 st br hs =>
    have ⟨p, ht, he⟩ := Option.map_eq_some_iff.mp h
    exact ⟨_, hs, .intro rfl (.copies ht)
      (he.symm.trans <| setPhase_eq (b := { b with wires := p.2 }) hs)⟩

-- Every turn of a task is one of those that `Turn` lists.
theorem turn_turns {k : Task} (h : b.turn k = some b') :
    ∃ s, b.sessions[k.place]? = some s ∧ b.Turns k.place s b' :=
  match k with
  | .session _ => sessionTurn_turns h
  | .copy .. => copyTurn_turns h

end Rendezvous.Broker
