import Rendezvous.Proofs.ControlLine
import Rendezvous.Proofs.Handoffs

namespace Rendezvous

-- The far end of a stream has sent a command, and what it sent behind that line is what the stream
-- still has to yield.
structure Intact (sent : Nat → Bytes) (cs : Connections) (st : Stream) (c : Command) : Prop where
  first   : Command.first? (sent st.wire) = some c
  content : (sent st.wire).afterLine = st.content cs

structure Offered (sent : Nat → Bytes) (cs : Connections) (st : Stream) (n : Name) : Prop where
  intact   : Intact sent cs st (.register n)
  received : (cs.get st.wire).received = Reply.serviceRegistered.bytes

structure Relays (sent : Nat → Bytes) (cs : Connections) (br : Bridge) (n : Name) : Prop where
  request  : Command.first? (sent br.a.wire) = some (.request n)
  register : Command.first? (sent br.b.wire) = some (.register n)
  forth    : br.Carries .aToB cs Reply.serviceRegistered.bytes (sent br.a.wire).afterLine
  back     : br.Carries .bToA cs Reply.connectedToService.bytes (sent br.b.wire).afterLine

-- What a phase accounts for. At the end of a session its bytes are nobody's concern any more.
def Phase.Accounts (sent : Nat → Bytes) (hs : List Handle) (cs : Connections) (st : Stream) :
    Phase → Prop
  | .identifying rd _ =>
    sent st.wire = rd.held ++ st.content cs ∧ Bytes.newline ∉ rd.held ∧
      (cs.get st.wire).received = []
  | .refusing unsent _ => ∃ text, (cs.get st.wire).received ++ unsent = (Reply.error text).bytes
  | .welcoming h unsent => ∃ hd, hs[h]? = some hd ∧ Intact sent cs st (.register hd.name) ∧
      (cs.get st.wire).received ++ unsent = Reply.serviceRegistered.bytes
  | .idling h _ _ | .overflowing h => ∃ hd, hs[h]? = some hd ∧ Offered sent cs st hd.name
  | .claiming _ n _ => Intact sent cs st (.request n) ∧ (cs.get st.wire).received = []
  | .connecting provider unsent => ∃ n, Intact sent cs st (.request n) ∧
      (cs.get st.wire).received ++ unsent = Reply.connectedToService.bytes ∧
      Offered sent cs provider n
  | .bridging br => ∃ n, Relays sent cs br n
  | .closing _ _ | .ended _ => True

structure Arrived (w : Nat) (sent : Nat → Bytes) (cs : Connections) (sent' : Nat → Bytes)
    (cs' : Connections) (more : Bytes) : Prop where
  sent     : sent' w = sent w ++ more
  inbox    : (cs'.get w).inbox = (cs.get w).inbox ++ more
  received : (cs'.get w).received = (cs.get w).received

section

variable {sent sent' : Nat → Bytes} {cs cs' : Connections} {st st' : Stream} {c : Command} {n : Name}
variable {more : Bytes} {br : Bridge} {hs hs' : List Handle} {p : Phase} {bs : Bytes} {w : Nat}

theorem Kept.arrived (k : Kept w cs cs') : Arrived w sent cs sent cs' [] :=
  ⟨(List.append_nil _).symm, k.inbox.trans (List.append_nil _).symm, k.received⟩

theorem Arrived.of {arrivals : Nat → Bytes} (h : (cs'.get w).inbox = (cs.get w).inbox ++ arrivals w ∧
    (cs'.get w).received = (cs.get w).received) :
    Arrived w sent cs (fun w => sent w ++ arrivals w) cs' (arrivals w) :=
  ⟨rfl, h.left, h.right⟩

theorem Arrived.content (a : Arrived st.wire sent cs sent' cs' more) :
    st.content cs' = st.content cs ++ more := by
  rw [Stream.content, Stream.content, a.inbox, List.append_assoc]

theorem Intact.arrived (i : Intact sent cs st c) (a : Arrived st.wire sent cs sent' cs' more) :
    Intact sent' cs' st c where
  first   := a.sent ▸ Command.first?_append i.first
  content := by rw [a.sent, Command.afterLine_append i.first, i.content, a.content]

theorem Offered.arrived (o : Offered sent cs st n) (a : Arrived st.wire sent cs sent' cs' more) :
    Offered sent' cs' st n :=
  ⟨o.intact.arrived a, a.received.trans o.received⟩

theorem Bridge.Carries.arrived {d : Direction} {head payload more' : Bytes}
    (r : br.Carries d cs head payload) (a : Arrived (br.source d).wire sent cs sent' cs' more)
    (k : Arrived (br.sink d).wire sent cs sent' cs' more') :
    br.Carries d cs' head (payload ++ more) where
  read    := by rw [r.read, a.content, List.append_assoc]
  led     := k.received ▸ r.led
  written := k.received ▸ r.written
  held h  := k.received ▸ r.held h

theorem Relays.arrived {more' : Bytes} (r : Relays sent cs br n)
    (a : Arrived br.a.wire sent cs sent' cs' more) (k : Arrived br.b.wire sent cs sent' cs' more') :
    Relays sent' cs' br n where
  request  := a.sent ▸ Command.first?_append r.request
  register := k.sent ▸ Command.first?_append r.register
  forth    := by
    rw [a.sent, Command.afterLine_append r.request]
    exact r.forth.arrived a k
  back     := by
    rw [k.sent, Command.afterLine_append r.register]
    exact r.back.arrived k a

-- A session's account is settled by its own connection and the one that was handed over to it.
theorem Phase.Accounts.arrived (arrivals : Nat → Bytes) (f : p.Accounts sent hs cs st)
    (own : Arrived st.wire sent cs sent' cs' (arrivals st.wire))
    (guest : ∀ g, p.guest? = some g → Arrived g sent cs sent' cs' (arrivals g))
    (hb : ∀ br, p = .bridging br → br.a.wire = st.wire) (t : Trails hs hs') :
    p.Accounts sent' hs' cs' st := by
  cases p
  case identifying =>
    have ⟨hs, hn, hr⟩ := f
    exact ⟨by rw [own.sent, hs, own.content, List.append_assoc], hn, own.received.trans hr⟩
  case refusing =>
    have ⟨text, hr⟩ := f
    exact ⟨text, own.received ▸ hr⟩
  case welcoming =>
    have ⟨hd, hh, i, hr⟩ := f
    have ⟨hd', hh', hf⟩ := t _ _ hh
    exact ⟨hd', hh', hf.name ▸ i.arrived own, own.received ▸ hr⟩
  case idling | overflowing =>
    have ⟨hd, hh, o⟩ := f
    have ⟨hd', hh', hf⟩ := t _ _ hh
    exact ⟨hd', hh', hf.name ▸ o.arrived own⟩
  case claiming => exact ⟨f.left.arrived own, own.received.trans f.right⟩
  case connecting =>
    have ⟨n, i, hr, o⟩ := f
    exact ⟨n, i.arrived own, own.received ▸ hr, o.arrived (guest _ rfl)⟩
  case bridging br =>
    have ⟨n, r⟩ := f
    exact ⟨n, r.arrived (hb br rfl ▸ own) (guest _ rfl)⟩
  case closing | ended => trivial

theorem Intact.took (i : Intact sent cs st c) (t : st.Took cs [] st' cs') :
    Intact sent cs' st' c where
  first   := t.wire ▸ i.first
  content := by rw [t.wire, i.content, t.content, List.nil_append]

theorem Intact.wrote (i : Intact sent cs st c) (w : Wrote w cs bs cs') : Intact sent cs' st c where
  first   := i.first
  content := by rw [i.content, Stream.content, Stream.content, w.inbox_eq]

theorem Offered.took (o : Offered sent cs st n) (t : st.Took cs [] st' cs') :
    Offered sent cs' st' n :=
  ⟨o.intact.took t, t.wire ▸ t.received.trans o.received⟩

theorem Relays.start (i : Intact sent cs st (.request n))
    (hr : (cs.get st.wire).received = Reply.connectedToService.bytes) (o : Offered sent cs st' n)
    (bufferSize : Nat) : Relays sent cs (.new st st' bufferSize) n where
  request  := i.first
  register := o.intact.first
  forth    := ⟨i.content, o.received ▸ List.prefix_rfl,
    o.received ▸ List.prefix_append .., fun h => by cases h; exact congrArg (· ++ _) o.received⟩
  back     := ⟨o.intact.content, hr ▸ List.prefix_rfl, hr ▸ List.prefix_append ..,
    fun h => by cases h; exact congrArg (· ++ _) hr⟩

theorem Relays.copies {br' : Bridge} {d : Direction} {now : Instant} (r : Relays sent cs br n)
    (h : br.Copies now d cs br' cs') (ne : br.a.wire ≠ br.b.wire) : Relays sent cs' br' n := by
  have ⟨ha, hb⟩ := h.wires
  have ⟨_, _, m⟩ := h.moved
  cases d
  case aToB =>
    exact ⟨ha ▸ r.request, hb ▸ r.register, ha ▸ m.carries r.forth, hb ▸ m.carries_opposite ne r.back⟩
  case bToA =>
    exact ⟨ha ▸ r.request, hb ▸ r.register, ha ▸ m.carries_opposite ne.symm r.forth,
      hb ▸ m.carries r.back⟩

end

namespace Broker

variable {b b' : Broker} {e : Event} {i : Nat} {s s' : Session} {st st' : Stream} {p : Phase}
variable {r : Registry} {hs : List Handle} {ws : Connections} {sent : Nat → Bytes} {rd : LineReader}
variable {t : Instant} {text : String} {c : Command} {cause : Error}

section

variable (f : (Phase.identifying rd t).Accounts sent hs b.wires st)
include f

theorem Hears.received (h : b.Hears st rd text st' ws) : (ws.get st'.wire).received = [] :=
  have ⟨_, _, _, hr, _, he⟩ := h
  have ht := Stream.read_done hr
  he ▸ ht.wire ▸ ht.received.trans f.right.right

theorem Hears.intact (h : b.Hears st rd text st' ws) (hc : Command.ofLine text = .ok c) :
    Intact sent ws st' c := by
  obtain ⟨bs, rest, st₁, hr, hp, rfl⟩ := h
  have ⟨hs, hn, _⟩ := f
  have ht := Stream.read_done hr
  obtain ⟨l, rfl, hl, htext⟩ := LineReader.push_line hp
  have hs : sent st₁.wire = (rd.held ++ l) ++ Bytes.newline :: (st₁.unread rest).content ws := by
    rw [ht.wire, hs, ht.content, Stream.content_unread]
    simp
  have hn : Bytes.newline ∉ rd.held ++ l := by simp [hn, hl]
  constructor
  case first =>
    refine Command.first?_eq_some ?_ htext hc
    rw [Stream.wire_unread, hs, Bytes.line?_append_newline hn]
  case content => rw [Stream.wire_unread, hs, Bytes.afterLine_append_newline hn]

theorem Mishears.received (h : b.Mishears st rd t cause st' ws) :
    (ws.get st'.wire).received = [] := by
  cases h
  case fault | late => exact f.right.right
  case ended read   => rw [(Stream.read_done read).received_eq]; exact f.right.right
  case refused read =>
    have ht := Stream.read_done read
    rw [ht.received_eq, ht.wire]
    exact f.right.right

end

theorem accounts_refusing {reply : Reply} (hr : (ws.get st.wire).received = [])
    (he : ∃ text, reply = .error text) :
    (Phase.refusing reply.bytes cause).Accounts sent hs ws st :=
  have ⟨text, he⟩ := he
  ⟨text, by rw [hr, he, List.nil_append]⟩

theorem reply_error (e : CommandError) : ∃ text, e.reply = .error text := by
  cases e <;> exact ⟨_, rfl⟩

theorem received_deliver {unsent rest line : Bytes}
    (h : st.deliver b.wires unsent = .done (some rest, ws))
    (hr : (b.wires.get st.wire).received ++ unsent = line) :
    (ws.get st.wire).received ++ rest = line := by
  have ⟨taken, hu, w⟩ := Stream.deliver_some h
  rw [w.received, List.append_assoc, ← hu, hr]

theorem received_delivered {unsent line : Bytes}
    (h : st.deliver b.wires unsent = .done (none, b.wires))
    (hr : (b.wires.get st.wire).received ++ unsent = line) :
    (b.wires.get st.wire).received = line := by
  rw [← hr, (Stream.deliver_none h).left, List.append_nil]

-- The session that takes a turn accounts for its bytes afterwards.
theorem Turn.accounts (t : b.Turn i st p s' r hs ws) (f : p.Accounts sent b.handles b.wires st)
    (hb : ∀ br, p = .bridging br → br.a.wire = st.wire)
    (hg : ∀ g, p.guest? = some g → g ≠ st.wire)
    (desk : ∀ (h : Nat) (hd : Handle) (provider : Stream), b.handles[h]? = some hd →
      hd.claim = .given provider → Offered sent b.wires provider hd.name)
    (name : ∀ h n t, p = .claiming h n t → ∃ hd, b.handles[h]? = some hd ∧ hd.name = n) :
    s'.phase.Accounts sent hs ws s'.stream := by
  cases t
  case reads some push read =>
    have ⟨hs, hn, hr⟩ := f
    have ht := Stream.read_done read
    have ⟨hh, hm⟩ := LineReader.push_incomplete push
    refine ⟨?_, by simp [hh, hn, hm], ht.wire ▸ ht.received.trans hr⟩
    rw [ht.wire, hs, hh, ht.content, List.append_assoc]
  case mishears why                => exact accounts_refusing (why.received f) ⟨_, rfl⟩
  case misreads hears              => exact accounts_refusing (hears.received f) (reply_error _)
  case denies hears                => exact accounts_refusing (hears.received f) ⟨_, rfl⟩
  case misses hears | seeks hears  => exact accounts_refusing (hears.received f) ⟨_, rfl⟩
  case registers st' n command policy hears =>
    have ⟨hd, hh, hn⟩ :=
      getElem?_closeReplaced_new (b.registry.find? n) b.handles { name := n, peer := st'.peer }
    refine ⟨hd, hh, hn ▸ hears.intact f command, ?_⟩
    rw [hears.received f, List.nil_append]
  case claims command _ _ _ _ hears => exact ⟨hears.intact f command, hears.received f⟩
  case answers send =>
    have ⟨text, hr⟩ := f
    exact ⟨text, received_deliver send hr⟩
  case answered | closes => trivial
  case greets send =>
    have ⟨hd, hh, i, hr⟩ := f
    have ⟨_, _, w⟩ := Stream.deliver_some send
    exact ⟨hd, hh, i.wrote w, received_deliver send hr⟩
  case greeted send =>
    have ⟨hd, hh, i, hr⟩ := f
    exact ⟨hd, hh, i, received_delivered send hr⟩
  case unheard | handsOver | offers | evicted | leaves => trivial
  case overflows fill | holds fill =>
    have ⟨hd, hh, o⟩ := f
    exact ⟨hd, hh, o.took (Stream.fill_done fill)⟩
  case listens => exact f
  case timesOut | overflowed => trivial
  case picksUp handle claim =>
    have ⟨hd, hh, hn⟩ := name _ _ _ rfl
    cases handle.symm.trans hh
    exact ⟨_, f.left, by rw [f.right, List.nil_append], hn ▸ desk _ _ _ handle claim⟩
  case givesUp | despairs => exact accounts_refusing f.right ⟨_, rfl⟩
  case tells send =>
    have ⟨n, i, hr, o⟩ := f
    have ⟨_, _, w⟩ := Stream.deliver_some send
    refine ⟨n, i.wrote w, received_deliver send hr, o.intact.wrote w, ?_⟩
    rw [w.elsewhere (hg _ rfl), o.received]
  case bridges send =>
    have ⟨n, i, hr, o⟩ := f
    exact ⟨n, .start i (received_delivered send hr) o _⟩
  case untold => trivial
  case copies turn =>
    have ⟨n, r⟩ := f
    exact ⟨n, r.copies (Bridge.turn_copies turn) (hb _ rfl ▸ (hg _ rfl).symm)⟩
  case parts => trivial

theorem Turn.not_ended (t : b.Turn i st p s' r hs ws) : p.stake ≠ .ended := by
  cases t <;> nofun

section

variable {k : Task} {w : Nat} (hi : b.sessions[k.place]? = some s)
variable (turn : b.Turn k.place s.stream s.phase s' r hs ws)
include hi turn

theorem Turn.ne_of_ended (hw : b.stake w = some .ended) : w ≠ k.place :=
  fun he => turn.not_ended <| Option.some.inj <| (stake_of hi).symm.trans (he ▸ hw)

theorem Turn.kept (wired : b.Wired) (hw : w ≠ k.place) (hg : s.phase.guest? ≠ some w) :
    Kept w b.wires ws := by
  refine (turn.within (wired.bridge_of hi)).right.kept ?_
  simp only [List.mem_cons, Option.mem_toList, not_or]
  exact ⟨wired.own hi ▸ hw, hg⟩

end

theorem Turn.wires_of_given {h m : Nat} {t' : Instant} {hd hd' : Handle} {provider : Stream}
    (t : b.Turn i st (.idling h m t') s' r hs ws) (hh : b.handles[h]? = some hd)
    (hc : hd.claim = .asked true) (hh' : hs[h]? = some hd') (hc' : hd'.claim = .given provider) :
    ws = b.wires := by
  cases t
  case handsOver | offers | evicted | timesOut | listens => rfl
  case leaves =>
    rw [getElem?_modify_self hh] at hh'
    cases hh'
    exact absurd hc (Handle.claim_of_dropLease (.inr ⟨_, hc'⟩)).right
  case overflows | holds =>
    cases hh.symm.trans hh'
    cases hc.symm.trans hc'

theorem holds_guest {w : Nat} (hs : b.sessions[i]? = some s) (hg : s.phase.guest? = some w) :
    b.Holds w (.guest i) := by
  have hq : s.phase.stake = .serves w := by
    cases hp : s.phase <;> rw [hp] at hg <;> cases hg <;> rfl
  exact (stake_of hs).trans (congrArg some hq)

structure Accounted (sent : Nat → Bytes) (b : Broker) : Prop where
  session : ∀ {i : Nat} {s : Session}, b.sessions[i]? = some s →
    s.phase.Accounts sent b.handles b.wires s.stream
  desk    : ∀ {h : Nat} {hd : Handle} {st : Stream}, b.handles[h]? = some hd →
    hd.claim = .given st → Offered sent b.wires st hd.name
  unmade  : ∀ {w : Nat}, b.wires.length ≤ w → sent w = []

namespace Accounted

theorem start {config : Config} {policy : Policy} : Accounted (fun _ => []) (fresh config policy) where
  session h := by cases h
  desk h    := by cases h
  unmade _  := rfl

theorem arrived_change {j w : Nat} {what : Connection.Change} {c : Connection}
    (h : (b.wires.get j).apply what = .ok c) :
    Arrived w sent b.wires (fun w => sent w ++ b.sentBy w (.change j what))
      (b.touch j fun _ => c).wires (b.sentBy w (.change j what)) := by
  apply Arrived.of
  by_cases hw : w = j
  case neg =>
    have hn : b.sentBy w (.change j what) = [] := by cases what <;> simp [sentBy, Ne.symm hw]
    rw [hn, touch, Connections.get_update_ne hw]
    exact ⟨(List.append_nil _).symm, rfl⟩
  case pos =>
    subst hw
    by_cases hl : w < b.wires.length
    case pos =>
      rw [touch, Connections.get_update_self hl]
      cases what
      case send bs =>
        simp only [Connection.apply, Connection.send] at h
        (repeat' split at h) <;> cases h
        simp [sentBy, Connection.received]
      all_goals
        cases h
        exact ⟨(List.append_nil _).symm, rfl⟩
    case neg =>
      have hl := Nat.le_of_not_lt hl
      have hn : b.sentBy w (.change w what) = [] := by
        cases what <;> try rfl
        simp [Connections.get_of_length_le hl, Connection.apply, Connection.send,
          Connections.nowhere] at h
      rw [hn, touch, Connections.update_of_length_le hl]
      exact ⟨(List.append_nil _).symm, rfl⟩

theorem get_accept_lt {wire : Connection} {peer : Peer} {w : Nat} (hw : w < b.wires.length) :
    (b.accept wire peer).wires.get w = b.wires.get w := by
  simp [accept, Connections.get, List.getD_eq_getElem?_getD, List.getElem?_append_left hw]

theorem get_accept_self {wire : Connection} {peer : Peer} :
    (b.accept wire peer).wires.get b.wires.length = wire := by
  simp [accept, Connections.get, List.getD_eq_getElem?_getD]

theorem received_of_isFresh {wire : Connection} (hf : wire.isFresh = true) : wire.received = [] := by
  simp only [Connection.isFresh, Bool.and_eq_true, beq_iff_eq] at hf
  simp [Connection.received, hf.left.left, Bytes.joined]

theorem arrived_accept {wire : Connection} {peer : Peer} {w : Nat} (hf : wire.isFresh = true) :
    Arrived w sent b.wires (fun w => sent w ++ b.sentBy w (.accept wire peer))
      (b.accept wire peer).wires (b.sentBy w (.accept wire peer)) := by
  apply Arrived.of
  obtain hw | rfl | hw := Nat.lt_trichotomy w b.wires.length
  · have hn : b.sentBy w (.accept wire peer) = [] := if_neg (Nat.ne_of_gt hw)
    rw [hn, get_accept_lt hw]
    exact ⟨(List.append_nil _).symm, rfl⟩
  · have hn : b.sentBy b.wires.length (.accept wire peer) = wire.inbox := if_pos rfl
    rw [hn, get_accept_self, Connections.get_of_length_le (Nat.le_refl _)]
    exact ⟨rfl, received_of_isFresh hf⟩
  · have hn : b.sentBy w (.accept wire peer) = [] := if_neg (Nat.ne_of_lt hw)
    have hl : (b.accept wire peer).wires.length ≤ w := by simpa [accept] using Nat.succ_le_of_lt hw
    rw [hn, Connections.get_of_length_le hl, Connections.get_of_length_le (Nat.le_of_lt hw)]
    exact ⟨rfl, rfl⟩

theorem arrived_step (sent : Nat → Bytes) (h : b.Step e b') :
    (∃ k s s' r hs ws, e = .turn k ∧ b.sessions[k.place]? = some s ∧
      b.Turn k.place s.stream s.phase s' r hs ws ∧ b' = b.after k.place s' r hs ws) ∨
    ∀ w, Arrived w sent b.wires (fun w => sent w ++ b.sentBy w e) b'.wires (b.sentBy w e) := by
  cases h
  case turn hi t          => exact .inl ⟨_, _, _, _, _, _, rfl, hi, t, rfl⟩
  case accept fresh       => exact .inr fun _ => arrived_accept fresh
  case change what change => exact .inr fun _ => arrived_change change
  case abort i s _ _ =>
    have within : Within [] b.wires (b.dropped i s).wires := dropped_within
    refine .inr fun w => .of ?_
    have kept := within.kept (j := w) List.not_mem_nil
    exact ⟨kept.inbox.trans (List.append_nil _).symm, kept.received⟩
  case spare | wait       => exact .inr fun _ => .of ⟨(List.append_nil _).symm, rfl⟩

-- Where an event only lets bytes arrive, all accounts go on.
theorem of_arrived (arrivals : Nat → Bytes) (a : Accounted sent b) (wired : b.Wired)
    (hs : b'.sessions = b.sessions) (hh : b'.handles = b.handles) (hl : b'.wires.length = b.wires.length)
    (arr : ∀ w, Arrived w sent b.wires (fun w => sent w ++ arrivals w) b'.wires (arrivals w)) :
    Accounted (fun w => sent w ++ arrivals w) b' := by
  constructor
  case session =>
    intro i s hi
    have hi := hs ▸ hi
    exact (a.session hi).arrived arrivals (arr _) (fun g _ => arr g)
      (wired.bridge_of hi) (hh ▸ .refl _)
  case desk   => exact fun hd hc => (a.desk (hh ▸ hd) hc).arrived (arr _)
  case unmade =>
    intro w hw
    have hi := (arr w).inbox
    rw [Connections.get_of_length_le hw, Connections.get_of_length_le (hl ▸ hw)] at hi
    rw [a.unmade (hl ▸ hw)]
    exact hi.symm

section

variable {k : Task} (a : Accounted sent b) (sound : b.Sound) (hi : b.sessions[k.place]? = some s)
variable (turn : b.Turn k.place s.stream s.phase s' r hs ws)
include sound hi turn

theorem kept_of_holds {w : Nat} {x : Holder} (hx : b.Holds w x) (hn : x ≠ .guest k.place) :
    Kept w b.wires ws :=
  turn.kept hi sound.wired (turn.ne_of_ended hi (sound.matched.ended hx))
    fun hg => hn <| sound.matched.sole hx (holds_guest hi hg)

include a

theorem session_of_turn {j : Nat} {x : Session}
    (hx : (b.after k.place s' r hs ws).sessions[j]? = some x) :
    x.phase.Accounts sent hs ws x.stream := by
  have own := sound.wired.own hi
  obtain ⟨rfl, rfl⟩ | ⟨hj, hx⟩ := of_getElem?_after hx
  case inl =>
    refine turn.accounts (a.session hi) (sound.wired.bridge_of hi) (fun g hg hw => ?_)
      (fun _ _ _ => a.desk) (fun h n t hp => ?_)
    · exact turn.ne_of_ended hi (sound.matched.ended (holds_guest hi hg)) (hw.trans own)
    · have ⟨hd, hh, hn, _⟩ := sound.tended.claimed (hp ▸ stake_of hi)
      exact ⟨hd, hh, hn⟩
  case inr =>
    by_cases ho : x.phase.stake = .ended
    case pos =>
      have ⟨how, hp⟩ := Phase.stake_eq_ended.mp ho
      rw [hp]
      trivial
    case neg =>
      have hw := sound.wired.own hx
      have kept : Kept x.stream.wire b.wires ws := by
        refine turn.kept hi sound.wired (hw ▸ hj) fun hg => ho ?_
        have ended := sound.matched.ended (holds_guest hi hg)
        rw [hw, stake_of hx] at ended
        exact Option.some.inj ended
      have guest {g} (hg : x.phase.guest? = some g) : Kept g b.wires ws :=
        kept_of_holds sound hi turn (holds_guest hx hg) fun he => hj (Holder.guest.inj he)
      exact (a.session hx).arrived (fun _ => []) kept.arrived (fun g hg => (guest hg).arrived)
        (sound.wired.bridge_of hx) (turn.move (e := .turn k) hi own).trails

theorem desk_of_turn {h : Nat} {hd' : Handle} {provider : Stream} (hh' : hs[h]? = some hd')
    (hc' : hd'.claim = .given provider) : Offered sent ws provider hd'.name := by
  have move := turn.move (e := .turn k) hi (sound.wired.own hi)
  obtain ⟨-, -, -, ⟨m, t', hs⟩, hd, hh, hc⟩ | ⟨hd, hh, hc⟩ :=
    (move.arises hh' (.inr ⟨provider, hc'⟩)).of_given hc'
  case inl =>
    cases hi.symm.trans hs
    have ⟨hd₀, hh₀, offered⟩ := a.session hs
    cases hh.symm.trans hh₀
    have ⟨hd₁, hh₁, hf⟩ := move.trails _ _ hh
    cases hh'.symm.trans hh₁
    exact turn.wires_of_given hh hc hh' hc' ▸ hf.name ▸ offered
  case inr =>
    have ⟨hd₁, hh₁, hf⟩ := move.trails _ _ hh
    cases hh'.symm.trans hh₁
    have held : b.Holds provider.wire (.desk h) := ⟨hd, provider, hh, hc, rfl⟩
    exact hf.name ▸ (a.desk hh hc).arrived (kept_of_holds sound hi turn held nofun).arrived

theorem turns : Accounted sent (b.after k.place s' r hs ws) where
  session hx    := a.session_of_turn sound hi turn hx
  desk hh' hc'  := a.desk_of_turn sound hi turn hh' hc'
  unmade hw     := a.unmade ((turn.within (sound.wired.bridge_of hi)).right.length ▸ hw)

end

theorem accept {wire : Connection} {peer : Peer} (a : Accounted sent b) (wired : b.Wired)
    (fresh : wire.isFresh = true) :
    Accounted (fun w => sent w ++ b.sentBy w (.accept wire peer)) (b.accept wire peer) := by
  have arr w : Arrived w sent b.wires (fun w => sent w ++ b.sentBy w (.accept wire peer))
      (b.accept wire peer).wires (b.sentBy w (.accept wire peer)) := arrived_accept fresh
  constructor
  case session =>
    intro i s hi
    obtain hi | ⟨-, rfl⟩ := of_getElem?_accept hi
    case inl =>
      exact (a.session hi).arrived _ (arr _) (fun g _ => arr g) (wired.bridge_of hi) (.refl _)
    case inr =>
      have first : sent b.wires.length ++ b.sentBy b.wires.length (.accept wire peer) = wire.inbox := by
        rw [a.unmade (Nat.le_refl _), sentBy, if_pos rfl, List.nil_append]
      refine ⟨?_, List.not_mem_nil, ?_⟩
      · rw [Stream.content, get_accept_self]
        exact first
      · rw [get_accept_self, received_of_isFresh fresh]
  case desk   => exact fun hd hc => (a.desk hd hc).arrived (arr _)
  case unmade =>
    intro w hw
    have hw : b.wires.length < w := Nat.lt_of_succ_le (by simpa [Broker.accept] using hw)
    rw [a.unmade (Nat.le_of_lt hw), sentBy, if_neg (Nat.ne_of_lt hw)]
    rfl

theorem abort (a : Accounted sent b) (sound : b.Sound) (hi : b.sessions[i]? = some s)
    (ho : s.isOver = false) : Accounted sent (b.dropped i s) := by
  have within : Within [] b.wires (b.dropped i s).wires := dropped_within
  have kept w : Kept w b.wires (b.dropped i s).wires := within.kept List.not_mem_nil
  have move : b.Move i (.abort i) s.phase.stake .ended b.registry (b.release s.phase).handles := by
    refine release_move fun hp => ?_
    obtain ⟨how, hp⟩ := Phase.stake_eq_ended.mp hp
    simp [Session.isOver, hp] at ho
  constructor
  case session =>
    intro j x hx
    obtain ⟨-, rfl⟩ | ⟨-, hx⟩ := of_getElem?_after hx
    · trivial
    · exact (a.session hx).arrived (fun _ => []) (kept _).arrived
        (fun g _ => (kept g).arrived) (sound.wired.bridge_of hx) move.trails
  case desk =>
    intro h hd' provider hh' hc'
    obtain ⟨-, -, -, ⟨m, t', hs⟩, hd, hh, hc⟩ | ⟨hd, hh, hc⟩ :=
      (move.arises hh' (.inr ⟨provider, hc'⟩)).of_given hc'
    case inl =>
      cases hi.symm.trans hs
      cases hh'.symm.trans (getElem?_modify_self hh)
      exact absurd hc (Handle.claim_of_dropLease (.inr ⟨_, hc'⟩)).right
    case inr =>
      obtain ⟨hd₁, hh₁, hf⟩ := move.trails _ _ hh
      cases hh'.symm.trans hh₁
      exact hf.name ▸ (a.desk hh hc).arrived (kept _).arrived
  case unmade => exact fun hw => a.unmade (within.length ▸ hw)

theorem step (a : Accounted sent b) (sound : b.Sound) (h : b.Step e b') :
    Accounted (fun w => sent w ++ b.sentBy w e) b' := by
  cases h
  case turn hi t        => simpa [sentBy] using a.turns sound hi t
  case accept fresh     => exact a.accept sound.wired fresh
  case change j what c change =>
    exact a.of_arrived _ sound.wired rfl rfl Connections.length_update fun _ => arrived_change change
  case abort hi ho      => simpa [sentBy] using a.abort sound hi ho
  case spare | wait     =>
    exact a.of_arrived (fun w => b.sentBy w _) sound.wired rfl rfl rfl fun w =>
      .of ⟨(List.append_nil _).symm, rfl⟩

theorem of_run {config : Config} {policy : Policy} {es : List Event}
    (run : (fresh config policy).run? es = some b) :
    Accounted (fun w => (fresh config policy).sent w es) b := by
  refine run_induction (P := fun es b => Accounted (fun w => (fresh config policy).sent w es) b)
    .start (fun run a hs => ?_) run
  simpa only [sent_snoc run] using a.step (.of_run run) (step_of_step? hs)

end Accounted
end Broker
end Rendezvous
