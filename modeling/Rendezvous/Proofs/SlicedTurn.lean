import Rendezvous.Proofs.Slice

namespace Rendezvous

-- A slice agrees with a broker: its handles are those with the name of its service, and whoever has to
-- do with one of them belongs to it.
structure Slice.Fits (v : Slice) (b : Broker) : Prop where
  sound    : b.Sound
  steady   : b.policy.Steady
  named    : ∀ {h hd}, b.handles[h]? = some hd → (v.handle h = true ↔ hd.name = v.name)
  provides : ∀ {i h}, b.stake i = some (.provides h) → v.session i = v.handle h
  claims   : ∀ {i h n}, b.stake i = some (.claims h n) → v.session i = v.handle h
  serves   : ∀ {i w}, b.stake i = some (.serves w) → v.session i = v.session w
  given    : ∀ {h hd st}, b.handles[h]? = some hd → hd.claim = .given st →
    v.session st.wire = v.handle h

structure Slice.Keeps (v : Slice) (b : Broker) (h : Nat) : Prop where
  handle : v.handle h = true
  named  : ∀ hd, b.handles[h]? = some hd → hd.name = v.name
  listed : ∀ x, b.registry.find? v.name = some x → v.handle x.handle = true

namespace Broker

variable {v : Slice} {b b' : Broker} {i h : Nat} {s : Session} {st : Stream} {hd : Handle}
variable {ws : Connections} {p : Phase} {n : Name} {x : Registration}

def allowed? (b : Broker) (i : Nat) (peer : Peer) (line : String) : Option Command :=
  match Command.ofLine line with
  | .ok (.register n) => if b.policy i ⟨.provider, n, peer⟩ = none then some (.register n) else none
  | .ok (.request n) => if b.policy i ⟨.consumer, n, peer⟩ = none then some (.request n) else none
  | .error _ => none

theorem allowed?_register {peer : Peer} {line : String} (hc : Command.ofLine line = .ok (.register n))
    (policy : b.policy i ⟨.provider, n, peer⟩ = none) : b.allowed? i peer line = some (.register n) := by
  rw [allowed?, hc]
  exact if_pos policy

theorem allowed?_request {peer : Peer} {line : String} (hc : Command.ofLine line = .ok (.request n))
    (policy : b.policy i ⟨.consumer, n, peer⟩ = none) : b.allowed? i peer line = some (.request n) := by
  rw [allowed?, hc]
  exact if_pos policy

def dispatches? (b : Broker) (i : Nat) : Option Command :=
  match b.sessions[i]? with
  | some ⟨st, .identifying rd _⟩ =>
    match st.read b.wires rd.room with
    | .done (bs, st', _) =>
      match rd.push b.config.maxLineLength bs with
      | .line text _ => b.allowed? i st'.peer text
      | _ => none
    | _ => none
  | _ => none

theorem dispatches?_of_hears {rd : LineReader} {t : Instant} {text : String} {st' : Stream}
    (hs : b.sessions[i]? = some ⟨st, .identifying rd t⟩) (hears : b.Hears st rd text st' ws) :
    b.dispatches? i = b.allowed? i st'.peer text := by
  obtain ⟨bs, rest, st₁, hr, hl, rfl⟩ := hears
  simp only [dispatches?, hs, hr, hl]
  rfl

@[simp]
theorem config_slice : (b.slice v).config = b.config := rfl

@[simp]
theorem policy_slice : (b.slice v).policy = b.policy := rfl

@[simp]
theorem clock_slice : (b.slice v).clock = b.clock := rfl

@[simp]
theorem wires_slice : (b.slice v).wires = b.wires.slice v := rfl

@[simp]
theorem stream_slice : (s.slice v).stream = s.stream.slice v := rfl

@[simp]
theorem slice_wires : Broker.slice v { b with wires := ws } =
    { b.slice v with wires := ws.slice v } := rfl

theorem getElem?_sessions_slice (hi : v.session i = true) :
    (b.slice v).sessions[v.place i]? = b.sessions[i]?.map (Session.slice v) := getElem?_sift hi

theorem getElem?_handles_slice (hh : v.handle h = true) :
    (b.slice v).handles[v.desk h]? = b.handles[h]?.map (Handle.slice v) := getElem?_sift hh

theorem slice_setHandle {f f' : Handle → Handle} (hh : v.handle h = true)
    (hf : ∀ hd, (f hd).slice v = f' (hd.slice v)) :
    (b.setHandle h f).slice v = (b.slice v).setHandle (v.desk h) f' :=
  congrArg (fun hs => { b.slice v with handles := hs }) (sift_modify hh hf)

section

variable (hi : v.session i = true)
include hi

theorem slice_modify {f f' : Session → Session} (hf : ∀ s, (f s).slice v = f' (s.slice v)) :
    Broker.slice v { b with sessions := b.sessions.modify i f } =
      { b.slice v with sessions := (b.slice v).sessions.modify (v.place i) f' } :=
  congrArg (fun ss => { b.slice v with sessions := ss }) (sift_modify hi hf)

theorem slice_setPhase :
    (b.setPhase i p).slice v = (b.slice v).setPhase (v.place i) (p.slice v) :=
  slice_modify hi fun _ => rfl

theorem slice_setStream :
    (b.setStream i st).slice v = (b.slice v).setStream (v.place i) (st.slice v) :=
  slice_modify hi fun _ => rfl

theorem slice_refuse {reply : Reply} {cause : Error} :
    (b.refuse i reply cause).slice v = (b.slice v).refuse (v.place i) reply cause :=
  slice_modify hi fun _ => rfl

theorem slice_after {r : Registry} {hs : List Handle} :
    (b.after i s r hs ws).slice v = (b.slice v).after (v.place i) (s.slice v) (r.slice v)
      (sift v.handle (Handle.slice v) hs) (ws.slice v) :=
  congrArg (fun ss => Broker.mk _ _ _ _ _ _ ss) (sift_set hi)

theorem slice_finish {how : Ending} (hs : b.sessions[i]? = some s)
    (hw : v.session s.stream.wire = true) :
    (b.finish i how).slice v = (b.slice v).finish (v.place i) (how.slice v) := by
  have hs' : (b.slice v).sessions[v.place i]? = some (s.slice v) := by
    rw [getElem?_sessions_slice hi, hs, Option.map_some]
  rw [finish_eq hs, finish_eq hs', slice_after hi, Stream.slice_abandon hw]
  rfl

end

theorem slice_unregister (k : v.Keeps b h) :
    (b.unregister h).slice v = (b.slice v).unregister (v.desk h) := by
  unfold unregister
  rw [getElem?_handles_slice k.handle]
  cases hd : b.handles[h]?
  case none => rfl
  case some =>
    have he := Registry.slice_unregister k.handle k.listed
    rw [← k.named _ hd] at he
    exact congrArg (fun r => { b.slice v with registry := r }) he

theorem slice_leave (k : v.Keeps b h) : ((b.unregister h).setHandle h Handle.dropLease).slice v =
    ((b.slice v).unregister (v.desk h)).setHandle (v.desk h) Handle.dropLease := by
  rw [slice_setHandle k.handle fun _ => Handle.slice_dropLease, slice_unregister k]

theorem slice_finish_leave (how : Ending) (k : v.Keeps b h) (hs : b.sessions[i]? = some s)
    (hi : v.session i = true) (hw : v.session s.stream.wire = true) :
    (((b.unregister h).setHandle h Handle.dropLease).finish i how).slice v =
      (((b.slice v).unregister (v.desk h)).setHandle (v.desk h) Handle.dropLease).finish (v.place i)
        (how.slice v) := by
  have hs' : ((b.unregister h).setHandle h Handle.dropLease).sessions[i]? = some s := by
    rw [unregister_eq]
    exact hs
  rw [slice_finish hi hs' hw, slice_leave k]

theorem slice_vanish (hi : v.session i = true) (hh : v.handle h = true) :
    (b.vanish i h n).slice v = (b.slice v).vanish (v.place i) (v.desk h) n := by
  rw [vanish, slice_refuse hi, slice_setHandle hh fun _ => Handle.slice_close, vanish]

theorem slice_idleOn {m : Nat} (hi : v.session i = true) :
    (b.idleOn i h m).slice v = (b.slice v).idleOn (v.place i) (v.desk h) m := slice_setPhase hi

theorem slice_handOver (hi : v.session i = true) (hh : v.handle h = true) :
    (b.handOver i s h hd).slice v =
      (b.slice v).handOver (v.place i) (s.slice v) (v.desk h) (hd.slice v) := by
  have set : (b.setHandle h fun _ => (hd.handOver s.stream).2.dropLease).slice v =
      (b.slice v).setHandle (v.desk h) fun _ => ((hd.handOver s.stream).2.slice v).dropLease :=
    slice_setHandle hh fun _ => Handle.slice_dropLease
  unfold handOver
  simp only [stream_slice, Handle.handOver_slice]
  split <;> rw [slice_setPhase hi, set] <;> rfl

section

variable (hs : b.sessions[i]? = some s) (hi : v.session i = true)
variable (hw : v.session s.stream.wire = true)

section

include hi hw

theorem writeRefusal_slice {unsent : Bytes} {cause : Error} :
    (b.slice v).writeRefusal (v.place i) (s.slice v) unsent cause =
      (b.writeRefusal i s unsent cause).map (Broker.slice v) := by
  unfold writeRefusal
  rw [stream_slice, wires_slice, Stream.deliver_slice hw]
  cases s.stream.deliver b.wires unsent
  case waits => rfl
  case fails => simp only [Attempt.map, Option.map_some, slice_setPhase hi, Phase.slice, Ending.slice]
  case done p =>
    obtain ⟨o, ws⟩ := p
    cases o <;>
      simp only [Attempt.map, Option.map_some, slice_setPhase hi, slice_wires, Phase.slice, Ending.slice]

end

include hs hi hw

theorem closeSession_slice {how : Ending} {t : Option Instant} :
    (b.slice v).closeSession (v.place i) (s.slice v) (how.slice v) t =
      (b.closeSession i s how t).map (Broker.slice v) := by
  unfold closeSession
  rw [stream_slice, wires_slice, Stream.close_slice hw]
  cases s.stream.close b.wires
  case waits =>
    change (if t.any (fun t => decide (t ≤ b.clock)) then _ else none) = Option.map _ (ite _ _ _)
    split
    · exact congrArg some (slice_finish hi hs hw).symm
    · rfl
  case fails   => exact congrArg some (slice_finish hi hs hw).symm
  case done ws => exact congrArg some (slice_finish (b := { b with wires := ws }) hi hs hw).symm

theorem welcome_slice {unsent : Bytes} (k : v.Keeps b h) :
    (b.slice v).welcome (v.place i) (s.slice v) (v.desk h) unsent =
      (b.welcome i s h unsent).map (Broker.slice v) := by
  unfold welcome
  rw [stream_slice, wires_slice, Stream.deliver_slice hw]
  cases s.stream.deliver b.wires unsent
  case waits => rfl
  case fails => exact congrArg some (slice_finish_leave (.failed _) k hs hi hw).symm
  case done p =>
    have ⟨o, ws⟩ := p
    cases o <;>
      simp only [Attempt.map, Option.map_some, slice_idleOn hi, slice_setPhase hi, slice_wires,
        Phase.slice]

theorem overflow_slice (k : v.Keeps b h) :
    (b.slice v).overflow (v.place i) (s.slice v) (v.desk h) =
      (b.overflow i s h).map (Broker.slice v) := by
  unfold overflow
  rw [stream_slice, wires_slice, Stream.close_slice hw]
  cases s.stream.close b.wires
  case waits => rfl
  case fails => exact congrArg some (slice_finish_leave (.regular .providerLeft) k hs hi hw).symm
  case done ws =>
    have k : v.Keeps { b with wires := ws } h := ⟨k.handle, k.named, k.listed⟩
    exact congrArg some (slice_finish_leave (.regular .providerLeft) k hs hi hw).symm

theorem idle_slice {m : Nat} {t : Instant} (k : v.Keeps b h) :
    (b.slice v).idle (v.place i) (s.slice v) (v.desk h) m t =
      (b.idle i s h m t).map (Broker.slice v) := by
  have event : ((b.slice v).handles[v.desk h]?).map Handle.event =
      ((b.handles[h]?).map Handle.event).map fun p => (p.1, p.2.slice v) := by
    rw [getElem?_handles_slice k.handle, Option.map_map, Option.map_map]
    exact congrArg (fun f => Option.map f b.handles[h]?) (funext fun _ => Handle.event_slice)
  unfold idle
  rw [stream_slice, wires_slice, event, config_slice, Stream.fill_slice hw]
  match (b.handles[h]?).map Handle.event with
  | some (some .claimed, hd) => exact congrArg some (slice_handOver hi k.handle).symm
  | some (some .closed, _) =>
    simp only [Option.map_some, slice_setPhase hi, slice_leave k, Phase.slice, Ending.slice,
      SessionEnd.slice]
  | some (none, _) | none =>
    -- Nothing has happened at the lease, and the connection decides.
    cases hf : s.stream.fill b.wires b.config.bufferSize
    case fails => exact congrArg some (slice_finish_leave (.regular .providerLeft) k hs hi hw).symm
    case waits =>
      change (if t ≤ b.clock then if b.missLimit ≤ m + 1 then _ else _ else none) =
        Option.map _ (ite _ (ite _ _ _) _)
      split <;> try split
      · simp only [Option.map_some, slice_setPhase hi, slice_leave k, Phase.slice, Ending.slice,
          SessionEnd.slice, clock_slice]
      · exact congrArg some (slice_idleOn hi).symm
      · rfl
    case done p =>
      have ⟨n, st, ws⟩ := p
      have set : ({ b with wires := ws }.setStream i st).slice v =
          { b.slice v with wires := ws.slice v }.setStream (v.place i) (st.slice v) :=
        slice_setStream hi
      cases n
      case zero =>
        have hs' : ({ b with wires := ws }.setStream i st).sessions[i]? = some ⟨st, s.phase⟩ := by
          rw [setStream_eq (b := { b with wires := ws }) hs]
          exact getElem?_after hs
        have k' : v.Keeps ({ b with wires := ws }.setStream i st) h := ⟨k.handle, k.named, k.listed⟩
        have left := slice_finish_leave (.regular .providerLeft) k' hs' hi
          ((Stream.fill_done hf).wire ▸ hw)
        rw [set] at left
        exact congrArg some left.symm
      case succ n =>
        change (if b.config.maxPendingBytes < st.pending.size then _ else _) =
          Option.map _ (if b.config.maxPendingBytes < st.pending.size then _ else _)
        split
        · refine congrArg some (.symm <| (slice_setPhase hi).trans ?_)
          rw [set]
          rfl
        · refine congrArg some (.symm <| (slice_idleOn hi).trans ?_)
          rw [set]
          rfl

omit hs hw in
theorem await_slice {t : Instant} (hh : v.handle h = true) :
    (b.slice v).await (v.place i) (v.desk h) n t = (b.await i h n t).map (Broker.slice v) := by
  have taking : ((b.slice v).handles[v.desk h]?).map Handle.taking =
      ((b.handles[h]?).map Handle.taking).map (Taking.slice v) := by
    rw [getElem?_handles_slice hh, Option.map_map, Option.map_map]
    exact congrArg (fun f => Option.map f b.handles[h]?) (funext fun _ => Handle.taking_slice)
  unfold await
  rw [taking]
  match (b.handles[h]?).map Handle.taking with
  | some (.got provider) =>
    refine congrArg some (.symm <| (slice_setPhase hi).trans ?_)
    rw [slice_setHandle hh fun _ => Handle.slice_pickUp]
    rfl
  | some .waiting =>
    have left : (b.setHandle h fun hd => hd.abandonTake.2).slice v =
        (b.slice v).setHandle (v.desk h) fun hd => hd.abandonTake.2 :=
      slice_setHandle hh fun _ => congrArg Prod.snd Handle.abandonTake_slice.symm
    change (if t ≤ b.clock then _ else none) = Option.map _ (if t ≤ b.clock then _ else none)
    split
    · exact congrArg some (left ▸ slice_vanish hi hh).symm
    · rfl
  | some .nothing | none => exact congrArg some (slice_vanish hi hh).symm

theorem connect_slice {unsent : Bytes} (hp : v.session st.wire = true) :
    (b.slice v).connect (v.place i) (s.slice v) (st.slice v) unsent =
      (b.connect i s st unsent).map (Broker.slice v) := by
  unfold connect
  rw [stream_slice, wires_slice, Stream.deliver_slice hw]
  cases s.stream.deliver b.wires unsent
  case waits => rfl
  case fails e =>
    refine congrArg some (.symm ?_)
    refine (slice_finish (b := { b with wires := st.abandon b.wires }) hi hs hw).trans ?_
    rw [slice_wires, Stream.slice_abandon hp]
    rfl
  case done p =>
    have ⟨o, ws⟩ := p
    cases o <;> exact congrArg some (.symm <| slice_setPhase (b := { b with wires := ws }) hi)

omit hs hw in
theorem leaveBridge_slice {br : Bridge} (ha : v.session br.a.wire = true)
    (hb : v.session br.b.wire = true) :
    (b.slice v).leaveBridge (v.place i) (br.slice v) = (b.leaveBridge i br).map (Broker.slice v) := by
  unfold leaveBridge
  rw [Bridge.isOver_slice]
  split
  · refine congrArg some (.symm ?_)
    refine (slice_setPhase (b := { b with wires := br.abandon b.wires }) hi).trans ?_
    rw [slice_wires, Bridge.slice_abandon ha hb]
    rfl
  · rfl

end

theorem copyTurn_slice {d : Direction} (hi : v.session i = true)
    (hb : ∀ st br, b.sessions[i]? = some ⟨st, .bridging br⟩ →
      v.session br.a.wire = true ∧ v.session br.b.wire = true) :
    (b.slice v).copyTurn (v.place i) d = (b.copyTurn i d).map (Broker.slice v) := by
  unfold copyTurn
  rw [getElem?_sessions_slice hi]
  cases hs : b.sessions[i]?
  case none => rfl
  case some s =>
    obtain ⟨st, p⟩ := s
    cases p
    case bridging br =>
      have ⟨ha, hb⟩ := hb st br hs
      simp only [Option.map_some, Session.slice, Phase.slice, wires_slice, clock_slice,
        Bridge.turn_slice ha hb]
      cases br.turn b.clock d b.wires
      case none => rfl
      case some p => exact congrArg some (.symm <| slice_setPhase (b := { b with wires := p.2 }) hi)
    all_goals rfl

theorem enroll_slice (hd : Handle) (hn : hd.name = v.name) (hl : v.handle b.handles.length = true) :
    (b.slice v).enroll (hd.slice v) =
      ((b.enroll hd).1.map (Registration.slice v), (b.enroll hd).2.slice v) := by
  have length : (b.slice v).handles.length = v.desk b.handles.length := length_sift
  have registry := Registry.slice_register (v := v) (r := b.registry)
    (x := ⟨b.handles.length, hd.name⟩) hn
  have handles : sift v.handle (Handle.slice v) (b.handles ++ [hd]) =
      (b.slice v).handles ++ [hd.slice v] := by
    rw [sift_append_singleton, if_pos hl]
    rfl
  have found : (b.slice v).registry.find? hd.name =
      (b.registry.find? hd.name).map (Registration.slice v) := by
    rw [hn]
    exact Registry.find?_slice
  unfold enroll
  refine Prod.ext found ?_
  rw [length]
  exact (congrArg₂ (fun r hs => { b.slice v with registry := r, handles := hs }) registry handles).symm

theorem slice_evict {o : Option Registration} (ho : ∀ x, o = some x → v.handle x.handle = true) :
    (b.evict o).slice v = (b.slice v).evict (o.map (Registration.slice v)) := by
  cases o
  case none   => rfl
  case some x => exact slice_setHandle (ho x rfl) fun _ => Handle.slice_close

section

variable (listed : ∀ x, b.registry.find? v.name = some x → v.handle x.handle = true)
variable (hi : v.session i = true)
include listed hi

theorem slice_beginProviding (hl : v.handle b.handles.length = true) :
    (b.beginProviding i s v.name).slice v =
      (b.slice v).beginProviding (v.place i) (s.slice v) v.name := by
  have length : (b.slice v).handles.length = v.desk b.handles.length := length_sift
  have enrolled : (b.slice v).enroll { name := v.name, peer := s.stream.peer } = _ :=
    enroll_slice { name := v.name, peer := s.stream.peer } rfl hl
  have evicted := slice_evict (b := (b.enroll { name := v.name, peer := s.stream.peer }).2)
    (o := (b.enroll { name := v.name, peer := s.stream.peer }).1) listed
  unfold beginProviding
  refine (slice_setPhase hi).trans ?_
  rw [show (b.slice v).enroll { name := v.name, peer := (s.slice v).stream.peer } = _ from enrolled,
    length]
  exact congrArg (fun c => setPhase c _ _) evicted

theorem slice_beginConsuming :
    (b.beginConsuming i v.name).slice v = (b.slice v).beginConsuming (v.place i) v.name := by
  unfold beginConsuming Registry.claim
  have found : (b.slice v).registry.find? v.name =
      (b.registry.find? v.name).map (Registration.slice v) := Registry.find?_slice
  rw [found]
  cases hf : b.registry.find? v.name
  case none => exact slice_refuse hi
  case some x =>
    have hh := listed x hf
    have erased : Broker.slice v { b with registry := b.registry.erase v.name } =
        { b.slice v with registry := (b.slice v).registry.erase v.name } :=
      congrArg (fun r => { b.slice v with registry := r }) Registry.slice_erase
    simp only [Option.map_some, Registration.slice, getElem?_handles_slice hh]
    cases b.handles[x.handle]?
    case none =>
      refine (slice_vanish hi hh).trans ?_
      rw [erased]
      rfl
    case some hd =>
      have taken : Broker.slice v (setHandle { b with registry := b.registry.erase v.name } x.handle
          fun hd => hd.take.2) = setHandle (Broker.slice v { b with
            registry := b.registry.erase v.name }) (v.desk x.handle) fun hd => hd.take.2 :=
        slice_setHandle hh fun _ => congrArg Prod.snd Handle.take_slice.symm
      rw [erased] at taken
      simp only [Option.map_some, Handle.take_slice]
      split
      · refine (slice_setPhase hi).trans ?_
        rw [taken]
        rfl
      · refine (slice_vanish hi hh).trans ?_
        rw [taken]

theorem slice_dispatch {line : String} (steady : b.policy.Steady)
    (registers : ∀ n, Command.ofLine line = .ok (.register n) →
      b.policy i ⟨.provider, n, s.stream.peer⟩ = none → n = v.name ∧ v.handle b.handles.length = true)
    (requests : ∀ n, Command.ofLine line = .ok (.request n) →
      b.policy i ⟨.consumer, n, s.stream.peer⟩ = none → n = v.name) :
    (b.dispatch i s line).slice v = (b.slice v).dispatch (v.place i) (s.slice v) line := by
  unfold dispatch
  cases hc : Command.ofLine line
  case error => exact slice_refuse hi
  case ok c =>
    cases c
    case register n =>
      simp only [policy_slice, steady (v.place i) i, stream_slice, Stream.peer_slice]
      cases hp : b.policy i ⟨.provider, n, s.stream.peer⟩
      case some => exact slice_refuse hi
      case none =>
        obtain ⟨rfl, hl⟩ := registers n hc hp
        exact slice_beginProviding listed hi hl
    case request n =>
      simp only [policy_slice, steady (v.place i) i, stream_slice, Stream.peer_slice]
      cases hp : b.policy i ⟨.consumer, n, s.stream.peer⟩
      case some => exact slice_refuse hi
      case none =>
        cases requests n hc hp
        exact slice_beginConsuming listed hi

end

def Suits (v : Slice) (b : Broker) (i : Nat) : Prop :=
  ∀ c, b.dispatches? i = some c → (c.name = v.name ↔ v.session i = true) ∧
    ∀ n, c = .register n → v.handle b.handles.length = v.session i

section

variable {rd : LineReader} {t : Instant}
variable (hs : b.sessions[i]? = some s) (hp : s.phase = .identifying rd t) (hi : v.session i = true)
variable (hw : v.session s.stream.wire = true) (suits : Suits v b i)
variable (listed : ∀ x, b.registry.find? v.name = some x → v.handle x.handle = true)
variable (steady : b.policy.Steady)
include hs hp hi hw suits listed steady

theorem identify_slice : (b.slice v).identify (v.place i) (s.slice v) rd t =
    (b.identify i s rd t).map (Broker.slice v) := by
  unfold identify
  rw [stream_slice, wires_slice, Stream.read_slice hw]
  cases hr : s.stream.read b.wires rd.room
  case fails => exact congrArg some (slice_refuse hi).symm
  case waits =>
    change (if t ≤ b.clock then _ else none) = Option.map _ (if t ≤ b.clock then _ else none)
    split
    · exact congrArg some (slice_refuse hi).symm
    · rfl
  case done p =>
    obtain ⟨bs, st, ws⟩ := p
    cases bs
    case nil => exact congrArg some (slice_refuse (b := { b with wires := ws }) hi).symm
    case cons x bs =>
      have set (st : Stream) : ({ b with wires := ws }.setStream i st).slice v =
          { b.slice v with wires := ws.slice v }.setStream (v.place i) (st.slice v) :=
        slice_setStream hi
      simp only [Attempt.map, config_slice]
      cases hl : rd.push b.config.maxLineLength (x :: bs)
      case incomplete =>
        refine congrArg some (.symm <| (slice_setPhase hi).trans ?_)
        rw [set]
        rfl
      case refused =>
        refine congrArg some (.symm <| (slice_refuse hi).trans ?_)
        rw [set]
        rfl
      case line text rest =>
        have hears : b.Hears s.stream rd text (st.unread rest) ws := ⟨x :: bs, rest, st, hr, hl, rfl⟩
        have heard := dispatches?_of_hears (hs.trans (by rw [← hp])) hears
        refine congrArg some (.symm <| (slice_dispatch
          (b := { b with wires := ws }.setStream i (st.unread rest)) listed hi steady ?_ ?_).trans ?_)
        · intro n hc policy
          obtain ⟨hn, hl⟩ := suits _ (heard.trans (allowed?_register hc policy))
          exact ⟨hn.mpr hi, (hl n rfl).trans hi⟩
        · intro n hc policy
          exact (suits _ (heard.trans (allowed?_request hc policy))).left.mpr hi
        · rw [set]
          rfl

end

end Broker

namespace Slice.Fits

open Broker

variable {v : Slice} {b : Broker} {i h w : Nat} {n : Name} {s : Session} {x : Registration}
variable (f : v.Fits b)
include f

theorem listed (hf : b.registry.find? v.name = some x) : v.handle x.handle = true :=
  have ⟨_, hh, hn, _⟩ := f.sound.tended.enrolled (Registry.mem_of_find? hf)
  (f.named hh).mpr (hn.trans (Registry.name_eq_of_find? hf))

theorem keeps (hh : v.handle h = true) : v.Keeps b h where
  handle     := hh
  named _ he := (f.named he).mp hh
  listed _   := f.listed

theorem unlisted (hf : b.registry.find? n = some x) (hn : n ≠ v.name) : v.handle x.handle = false := by
  have ⟨_, hh, hx, _⟩ := f.sound.tended.enrolled (Registry.mem_of_find? hf)
  have other : ¬v.handle x.handle = true := fun hv =>
    hn <| (Registry.name_eq_of_find? hf).symm.trans (hx.symm.trans ((f.named hh).mp hv))
  exact Bool.eq_false_iff.mpr other

variable {c : Bool} (hs : b.sessions[i]? = some s) (hi : v.session i = c)
include hs hi

theorem own : v.session s.stream.wire = c := by rwa [f.sound.wired.own hs]

theorem provided (hq : s.phase.stake = .provides h) : v.handle h = c := by
  rwa [← f.provides (hq ▸ stake_of hs)]

theorem claimed (hq : s.phase.stake = .claims h n) : v.handle h = c := by
  rwa [← f.claims (hq ▸ stake_of hs)]

theorem served (hq : s.phase.stake = .serves w) : v.session w = c := by
  rwa [← f.serves (hq ▸ stake_of hs)]

theorem bridged {br : Bridge} (hp : s.phase = .bridging br) :
    v.session br.a.wire = c ∧ v.session br.b.wire = c := by
  rw [f.sound.wired.bridge_of hs br hp]
  exact ⟨f.own hs hi, f.served hs hi (hp ▸ rfl)⟩

end Slice.Fits

namespace Broker

variable {v : Slice} {b : Broker} {i : Nat} {s : Session} {k : Task}

def Task.slice (v : Slice) : Task → Task
  | .session i => .session (v.place i)
  | .copy i d => .copy (v.place i) d

theorem sessionTurn_slice (f : v.Fits b) (hi : v.session i = true) (suits : Suits v b i) :
    (b.slice v).sessionTurn (v.place i) = (b.sessionTurn i).map (Broker.slice v) := by
  unfold sessionTurn
  rw [getElem?_sessions_slice hi]
  cases hs : b.sessions[i]?
  case none => rfl
  case some s =>
    have hw := f.own hs hi
    simp only [Option.map_some]
    cases hp : s.phase <;> simp only [Session.slice, hp, Phase.slice]
    case identifying => exact identify_slice hs hp hi hw suits (fun _ => f.listed) f.steady
    case refusing    => exact writeRefusal_slice hi hw
    case closing     => exact closeSession_slice hs hi hw
    case welcoming h unsent =>
      exact welcome_slice hs hi hw (f.keeps (f.provided hs hi (hp ▸ rfl)))
    case idling h m t => exact idle_slice hs hi hw (f.keeps (f.provided hs hi (hp ▸ rfl)))
    case overflowing h => exact overflow_slice hs hi hw (f.keeps (f.provided hs hi (hp ▸ rfl)))
    case claiming h n t => exact await_slice hi (f.claimed (n := n) hs hi (hp ▸ rfl))
    case connecting st unsent => exact connect_slice hs hi hw (f.served hs hi (hp ▸ rfl))
    case bridging br =>
      have ⟨ha, hb⟩ := f.bridged hs hi hp
      exact leaveBridge_slice hi ha hb
    case ended => rfl

-- Whatever a task of the slice does, it does there as well.
theorem turn_slice (f : v.Fits b) (hi : v.session k.place = true) (suits : Suits v b k.place) :
    (b.slice v).turn (k.slice v) = (b.turn k).map (Broker.slice v) := by
  cases k
  case session i => exact sessionTurn_slice f hi suits
  case copy i d  => exact copyTurn_slice hi fun _ _ hs => f.bridged hs hi rfl

end Broker
end Rendezvous
