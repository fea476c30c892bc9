import Rendezvous.Proofs.Departures
import Rendezvous.Proofs.Promptness
import Rendezvous.Proofs.StreamRuns

namespace Rendezvous

namespace Connection

variable {c c' : Connection} {limit : Nat} {e : Fault}

def DeliversEnd (c : Connection) : Prop :=
  ∀ limit, 0 < limit → (∃ e, c.read limit = .fails e) ∨ ∃ c', c.read limit = .done ([], c')

theorem DeliversEnd.of_fails (h : c.read limit = .fails e) : c.DeliversEnd :=
  fun _ _ => .inl ⟨e, by simp [read, read_fails h]⟩

theorem DeliversEnd.of_nil (h : c.read limit = .done ([], c')) (hl : 0 < limit) : c.DeliversEnd := by
  intro n _
  by_cases moves : c.pieceLimit = some 0
  case pos =>
    cases hf : c.readFault
    case some e => exact .inl ⟨e, by simp [read, hf]⟩
    case none   => exact .inr ⟨c, by simp [read, hf, clip, moves]⟩
  case neg =>
    obtain ⟨inbox, gone⟩ := read_nil h rfl hl moves
    cases hf : c.readFault
    case some e => exact .inl ⟨e, by simp [read, hf]⟩
    case none   => exact .inr ⟨c, by simp [read, hf, inbox, gone]⟩

def isUp (c : Connection) : Bool :=
  c.readFault == none && c.pieceLimit != some 0 && !c.farShut && !c.farGone

theorem not_deliversEnd_of_isUp (up : c.isUp = true) : ¬c.DeliversEnd := by
  simp only [isUp, Bool.and_eq_true, beq_iff_eq, bne_iff_ne, Bool.not_eq_true'] at up
  obtain ⟨⟨⟨sound, moves⟩, shut⟩, gone⟩ := up
  intro ends
  obtain ⟨e, fails⟩ | ⟨c', nothing⟩ := ends 1 Nat.one_pos
  · cases sound.symm.trans (read_fails fails)
  · obtain ⟨-, h | h⟩ := read_nil nothing rfl Nat.one_pos moves
    · cases shut.symm.trans h
    · cases gone.symm.trans h

end Connection

namespace Stream

variable {s : Stream} {cs : Connections} {limit : Nat}

theorem fill_zero : s.fill cs 0 = .done (0, s, cs) := if_pos rfl

theorem deliversEnd_of_fill (hl : limit ≠ 0)
    (h : (∃ s' cs', s.fill cs limit = .done (0, s', cs')) ∨ ∃ e, s.fill cs limit = .fails e) :
    (cs.get s.wire).DeliversEnd := by
  simp only [fill, if_neg hl] at h
  cases hr : (cs.get s.wire).read limit <;> rw [hr] at h
  case waits => obtain ⟨_, _, h⟩ | ⟨_, h⟩ := h <;> cases h
  case fails => exact .of_fails hr
  case done found =>
    obtain ⟨bs, c⟩ := found
    obtain ⟨_, _, h⟩ | ⟨_, h⟩ := h
    · simp only [Attempt.map, Attempt.done.injEq, Prod.mk.injEq, List.length_eq_zero_iff] at h
      rw [h.left] at hr
      exact .of_nil hr (Nat.pos_of_ne_zero hl)
    · cases h

end Stream

def Phase.EndsAs : Phase → SessionEnd → Prop
  | .closing (.regular how') _, how | .ended (.regular how'), how => how' = how
  | _, _ => False

def SessionEnd.OfProvider : SessionEnd → Prop
  | .bridged _ => False
  | _ => True

namespace Broker

def EndsAs (b : Broker) (p : Nat) (how : SessionEnd) : Prop :=
  ∃ s, b.sessions[p]? = some s ∧ s.phase.EndsAs how

def Greets (p h : Nat) : Happening := fun b e b' =>
  e.place? = some p ∧ (∃ st unsent, b.sessions[p]? = some ⟨st, .welcoming h unsent⟩) ∧ b'.Idles p h

def ReadsAhead (p : Nat) (found : Attempt (Nat × Stream × Connections)) : Happening := fun b e _ =>
  e = .turn (.session p) ∧ ∃ st h m t, b.sessions[p]? = some ⟨st, .idling h m t⟩ ∧ b.Calm h ∧
    st.fill b.wires b.config.bufferSize = found

def FindsEnd (p : Nat) : Happening := fun b e b' =>
  (∃ found, ReadsAhead p found b e b') ∧ (b.wires.get p).DeliversEnd

def Gains (p : Nat) (st : Stream) : Happening := fun b e b' =>
  ∃ n ws, n ≠ 0 ∧ ReadsAhead p (.done (n, st, ws)) b e b'

def Overflows (p : Nat) : Happening := fun b e b' =>
  ∃ st, Gains p st b e b' ∧ b.config.maxPendingBytes < st.pending.size

-- A session comes to its end, and why.
inductive Quits (p : Nat) (b : Broker) (e : Event) (b' : Broker) : SessionEnd → Prop
  | claimed {st h m t hd w} (own : b.sessions[p]? = some ⟨st, .idling h m t⟩)
      (handle : b.handles[h]? = some hd) («open» : hd.closed = false) (claim : hd.claim = .asked w) :
    Quits p b e b' .providerClaimed
  | evicted {st h m t hd} (own : b.sessions[p]? = some ⟨st, .idling h m t⟩)
      (handle : b.handles[h]? = some hd) (closed : hd.closed = true) : Quits p b e b' .providerEvicted
  | timedOut {st h m t} (own : b.sessions[p]? = some ⟨st, .idling h m t⟩)
      (reads : ReadsAhead p .waits b e b') (late : t ≤ b.clock) (many : b.missLimit ≤ m + 1) :
    Quits p b e b' .providerTimedOut
  | left {found} (reads : ReadsAhead p found b e b')
      (nothing : (∃ st ws, found = .done (0, st, ws)) ∨ ∃ f, found = .fails f) :
    Quits p b e b' .providerLeft
  | overflowed {st h} (own : b.sessions[p]? = some ⟨st, .overflowing h⟩) : Quits p b e b' .providerLeft
  | bridged {st br} (own : b.sessions[p]? = some ⟨st, .bridging br⟩) (over' : br.isOver = true) :
    Quits p b e b' (.bridged br)

-- Where a provider's session is after it has welcomed its provider.
inductive Retained (b : Broker) (p h : Nat) : Prop
  | waits (idles : b.Idles p h)
  | overflowing {st} (own : b.sessions[p]? = some ⟨st, .overflowing h⟩)
  | quit {how} (ends : b.EndsAs p how) (kind : how.OfProvider)
  | dropped (dropped : b.IsDropped p)

variable {b b' : Broker} {e : Event} {es : List Event} {config : Config} {policy : Policy}
variable {i p h m : Nat} {t : Instant} {st st' : Stream} {s s' : Session} {ph : Phase} {k : Task}
variable {r : Registry} {hs : List Handle} {ws : Connections} {how : SessionEnd}
variable {found : Attempt (Nat × Stream × Connections)}

theorem session_of_turn (own : b.sessions[k.place]? = some ⟨st, ph⟩) (h : b.turn k = some b')
    (hg : ph.guest? = none) : k = .session k.place := by
  cases k
  case session => rfl
  case copy i d =>
    simp only [turn, copyTurn] at h
    split at h
    case h_1 own' =>
      cases own.symm.trans own'
      cases hg
    case h_2 => cases h

theorem Turn.quits (turn : b.Turn k.place st ph s' r hs ws)
    (own : b.sessions[k.place]? = some ⟨st, ph⟩) (next : b.turn k = some b')
    (h : s'.phase.EndsAs how) : ph.EndsAs how ∨ Quits k.place b (.turn k) b' how := by
  -- Whatever a session that waits finds, it finds in a turn of its own.
  have reads {h m t} (hp : ph = .idling h m t) (calm : b.Calm h) :
      ReadsAhead k.place (st.fill b.wires b.config.bufferSize) b (.turn k) b' := by
    subst hp
    refine ⟨congrArg Event.turn ?_, st, h, m, t, own, calm, rfl⟩
    exact session_of_turn own next rfl
  cases turn <;> try cases h
  case closes how' _ _ _ =>
    cases how' <;> cases h
    exact .inl rfl
  case handsOver handle «open» claim => exact .inr <| .claimed own handle «open» claim
  case offers handle «open» claim    => exact .inr <| .claimed own handle «open» claim
  case evicted handle closed         => exact .inr <| .evicted own handle closed
  case timesOut calm fill late many  => exact .inr <| .timedOut own (fill ▸ reads rfl calm) late many
  case overflowed                    => exact .inr <| .overflowed own
  case parts ended                   => exact .inr <| .bridged own ended
  case leaves calm fill =>
    refine .inr <| .left (reads rfl calm) ?_
    obtain fill | ⟨-, -, f, fill⟩ := fill
    · exact .inl ⟨_, _, fill⟩
    · exact .inr ⟨f, fill⟩

theorem Turn.of_gains {n : Nat} {ws' : Connections} (turn : b.Turn i st (.idling h m t) s' r hs ws)
    (calm : b.Calm h) (fill : st.fill b.wires b.config.bufferSize = .done (n, st', ws')) (gained : n ≠ 0) :
    s' = ⟨st', .overflowing h⟩ ∧ b.config.maxPendingBytes < st'.pending.size ∨
      s' = ⟨st', .idling h 0 (b.clock + b.config.keepaliveInterval.nanos)⟩ ∧
        st'.pending.size ≤ b.config.maxPendingBytes := by
  cases turn
  case overflows much _ fill' =>
    cases fill.symm.trans fill'
    exact .inl ⟨rfl, much⟩
  case holds few _ fill' =>
    cases fill.symm.trans fill'
    exact .inr ⟨rfl, few⟩
  case handsOver claim handle | offers claim handle => exact absurd claim ((calm _ handle).right _)
  case evicted closed handle => cases (calm _ handle).left.symm.trans closed
  case leaves fill' _ =>
    obtain fill' | ⟨-, -, _, fill'⟩ := fill' <;> cases fill.symm.trans fill'
    exact absurd rfl gained
  case listens fill' _ _ _ | timesOut fill' _ _ _ => cases fill.symm.trans fill'

theorem quits_of_step (next : b.step? e = some b') (h : b'.EndsAs p how) :
    b.EndsAs p how ∨ Quits p b e b' how := by
  have ⟨s, own, ends⟩ := h
  cases (step_of_step? next).origin own
  case stays own => exact .inl ⟨s, own, ends⟩
  case turns k s₀ r hs ws event place own₀ turn =>
    subst event place
    exact (turn.quits own₀ next ends).imp_left fun old => ⟨s₀, own₀, old⟩
  case accepted | dropped => cases ends

theorem occurs_quits (run : (fresh config policy).run? es = some b) (h : b.EndsAs p how) :
    (fresh config policy).Occurs es fun b e b' => Quits p b e b' how := by
  refine run_induction (P := fun es b => b.EndsAs p how →
    (fresh config policy).Occurs es fun b e b' => Quits p b e b' how) ?_ ?_ run h
  · rintro ⟨_, own, _⟩
    cases own
  · intro es b e b' run hi next h
    obtain before | quits := quits_of_step next h
    · exact (hi before).append
    · exact (occurs_snoc run).mpr <| .inr ⟨b', next, quits⟩

theorem occurs_overflows (run : (fresh config policy).run? es = some b)
    (own : b.sessions[p]? = some ⟨st, .overflowing h⟩) : (fresh config policy).Occurs es (Overflows p) := by
  refine run_induction (P := fun es b => ∀ st h, b.sessions[p]? = some ⟨st, .overflowing h⟩ →
    (fresh config policy).Occurs es (Overflows p)) (fun _ _ own => by cases own) ?_ run st h own
  intro es b e b' run hi next st h own
  cases (step_of_step? next).origin own
  case stays own => exact (hi _ _ own).append
  case turns k s₀ r hs ws event place own₀ turn =>
    subst event place
    obtain ⟨st₀, ph⟩ := s₀
    cases turn
    case overflows m t n gained much calm fill =>
      have event := congrArg Event.turn (session_of_turn own₀ next rfl)
      exact (occurs_snoc run).mpr <|
        .inr ⟨b', next, st, ⟨n, ws, gained, event, st₀, h, m, t, own₀, calm, fill⟩, much⟩

-- A keep-alive read asks for bytes, unless the broker is set not to. So who is taken for gone has gone,
-- or has sent more than may be pending.
theorem occurs_of_left (run : (fresh config policy).run? es = some b) (hb : config.bufferSize ≠ 0)
    (left : b.EndsAs p .providerLeft) :
    (fresh config policy).Occurs es (FindsEnd p) ∨ (fresh config policy).Occurs es (Overflows p) := by
  obtain ⟨before, e, after, c, c', rfl, run', next, quits⟩ := occurs_quits run left
  cases quits
  case overflowed own => exact .inr (occurs_overflows run' own).append
  case left found reads nothing =>
    refine .inl ⟨before, e, after, c, c', rfl, run', next, ⟨found, reads⟩, ?_⟩
    obtain ⟨-, st, h, m, t, own, -, rfl⟩ := reads
    have ⟨settings, _⟩ := settings_of_run run'
    rw [settings] at nothing
    rw [← (Sound.of_run run').wired.own own]
    exact Stream.deliversEnd_of_fill hb nothing

namespace Retained

theorem of_same (kept : b.Retained p h) (same : b'.sessions[p]? = b.sessions[p]?) : b'.Retained p h := by
  cases kept
  case waits idles =>
    have ⟨st, m, t, own⟩ := idles
    exact .waits ⟨st, m, t, same.trans own⟩
  case overflowing own => exact .overflowing (same.trans own)
  case quit ends kind  =>
    have ⟨s, own, ends⟩ := ends
    exact .quit ⟨s, same.trans own, ends⟩ kind
  case dropped dropped =>
    have ⟨st, own⟩ := dropped
    exact .dropped ⟨st, same.trans own⟩

theorem lt_length (kept : b.Retained p h) : p < b.sessions.length := by
  have lt {s} (own : b.sessions[p]? = some s) := (List.getElem?_eq_some_iff.mp own).choose
  cases kept
  case waits idles =>
    have ⟨_, _, _, own⟩ := idles
    exact lt own
  case overflowing own => exact lt own
  case quit ends _     =>
    have ⟨_, own, _⟩ := ends
    exact lt own
  case dropped dropped =>
    have ⟨_, own⟩ := dropped
    exact lt own

theorem turn (kept : b.Retained i h) (own : b.sessions[i]? = some s)
    (turn : b.Turn i s.stream s.phase s' r hs ws) : (b.after i s' r hs ws).Retained i h := by
  have own' : (b.after i s' r hs ws).sessions[i]? = some s' := getElem?_after own
  cases kept
  case waits idles =>
    have ⟨st, m, t, here⟩ := idles
    cases own.symm.trans here
    cases turn
    case holds | listens => exact .waits ⟨_, _, _, own'⟩
    case overflows       => exact .overflowing own'
    all_goals exact .quit ⟨_, own', rfl⟩ trivial
  case overflowing here =>
    cases own.symm.trans here
    cases turn
    exact .quit ⟨_, own', rfl⟩ trivial
  case quit ends kind =>
    obtain ⟨⟨st, ph⟩, here, ends⟩ := ends
    cases own.symm.trans here
    cases turn <;> try cases ends
    case closes how' _ _ _ =>
      cases how' <;> cases ends
      exact .quit ⟨_, own', rfl⟩ kind
  case dropped dropped =>
    have ⟨st, here⟩ := dropped
    cases own.symm.trans here
    cases turn

theorem step (kept : b.Retained p h) (step : b.Step e b') : b'.Retained p h := by
  by_cases place : e.place? = some p
  case neg => exact kept.of_same (step.same kept.lt_length place)
  case pos =>
    cases step <;> cases place
    case turn own turn => exact kept.turn own turn
    case abort own     => exact .dropped ⟨_, getElem?_after own⟩
    case spare         => exact kept

end Retained

-- A provider that has been welcomed is kept waiting until its session quits.
theorem retained_of_run (run : (fresh config policy).run? es = some b)
    (greets : (fresh config policy).Occurs es (Greets p h)) : b.Retained p h := by
  refine run_induction (P := fun es b => (fresh config policy).Occurs es (Greets p h) → b.Retained p h)
    (fun greets => (not_occurs_nil greets).elim) ?_ run greets
  intro es b e b' run hi next greets
  obtain before | ⟨c, next', -, -, idles⟩ := (occurs_snoc run).mp greets
  · exact (hi before).step (step_of_step? next)
  · cases next.symm.trans next'
    exact .waits idles

theorem turn_of_idling (own : b.sessions[p]? = some ⟨st, .idling h m t⟩)
    (busy : t ≤ b.clock ∨ st.fill b.wires b.config.bufferSize ≠ .waits) :
    b.turn (.session p) ≠ none := by
  simp only [turn, sessionTurn, own, idle]
  split
  case h_1 | h_2 => exact Option.some_ne_none _
  case h_3 =>
    split
    case h_1 | h_2 => exact Option.some_ne_none _
    case h_3       => split <;> exact Option.some_ne_none _
    case h_4 waits =>
      rw [if_pos (busy.resolve_right fun reads => reads waits)]
      split <;> exact Option.some_ne_none _

theorem left_of_no_buffer (hb : b.config.bufferSize = 0) (idles : b.Idles p h) (calm : b.Calm h) :
    ∃ b', b.turn (.session p) = some b' ∧
      ∃ st, b'.sessions[p]? = some ⟨st, .ended (.regular .providerLeft)⟩ := by
  have ⟨st, m, t, own⟩ := idles
  have fill : st.fill b.wires b.config.bufferSize = .done (0, st, b.wires) := by rw [hb, Stream.fill_zero]
  have ⟨b', next⟩ := Option.ne_none_iff_exists'.mp (turn_of_idling own (.inr (by rw [fill]; nofun)))
  refine ⟨b', next, ?_⟩
  obtain ⟨s, own₀, s', r, hds, ws, turn, rfl⟩ := turn_turns next
  cases own.symm.trans own₀
  have own' : (b.after p s' r hds ws).sessions[p]? = some s' := getElem?_after own
  cases turn
  case leaves => exact ⟨_, own'⟩
  case overflows gained _ _ fill' | holds gained _ _ fill' =>
    cases fill.symm.trans fill'
    exact absurd rfl gained
  case handsOver claim handle | offers claim handle => exact absurd claim ((calm _ handle).right _)
  case evicted closed handle => cases (calm _ handle).left.symm.trans closed
  case listens fill' _ _ _ | timesOut fill' _ _ _ => cases fill.symm.trans fill'

-- Who is taken for gone has gone or has sent too much, and who is still there is kept until it is asked
-- to leave, is claimed or misses its keep-alives. This is so unless a broker is set to read nothing at a
-- time: then every provider that is not claimed or asked to leave counts as gone as soon as its session
-- looks for bytes.
theorem kept_while_there (run : (fresh config policy).run? es = some b) :
    (config.bufferSize ≠ 0 →
      (b.EndsAs p .providerLeft → (fresh config policy).Occurs es (FindsEnd p) ∨
        (fresh config policy).Occurs es (Overflows p)) ∧
      ((fresh config policy).Occurs es (Greets p h) → ¬(fresh config policy).Occurs es (FindsEnd p) →
        ¬(fresh config policy).Occurs es (Overflows p) →
        b.Idles p h ∨ b.IsDropped p ∨
          ∃ how, (how = .providerEvicted ∨ how = .providerClaimed ∨ how = .providerTimedOut) ∧
            b.EndsAs p how ∧ (fresh config policy).Occurs es fun b e b' => Quits p b e b' how)) ∧
    (config.bufferSize = 0 → b.Idles p h → b.Calm h → ∃ b', b.turn (.session p) = some b' ∧
      ∃ st, b'.sessions[p]? = some ⟨st, .ended (.regular .providerLeft)⟩) := by
  refine ⟨fun hb => ⟨occurs_of_left run hb, fun greets there few => ?_⟩, fun hb => ?_⟩
  case refine_1 =>
    cases retained_of_run run greets
    case waits idles     => exact .inl idles
    case overflowing own => exact absurd (occurs_overflows run own) few
    case dropped dropped => exact .inr <| .inl dropped
    case quit how ends kind =>
      refine .inr <| .inr ⟨how, ?_, ends, occurs_quits run ends⟩
      cases how
      case providerLeft => exact ((occurs_of_left run hb ends).elim there few).elim
      case bridged      => exact kind.elim
      all_goals simp
  case refine_2 => exact left_of_no_buffer ((settings_of_run run).left ▸ hb)

def isUntouched (b : Broker) : Bool := b.handles.all fun hd => !hd.closed && hd.claim == .unmade

theorem calm_of_isUntouched (untouched : b.isUntouched = true) : b.Calm h := by
  intro hd hh
  have := List.all_eq_true.mp untouched hd (List.mem_of_getElem? hh)
  simp only [Bool.and_eq_true, Bool.not_eq_true', beq_iff_eq] at this
  exact ⟨this.left, fun w hw => by cases this.right.symm.trans hw⟩

def isQuiet (b : Broker) (p : Nat) : Bool :=
  match b.sessions[p]? with
  | some ⟨_, .idling ..⟩ => (b.wires.get p).inbox == [] && (b.wires.get p).isUp
  | _ => true

theorem not_findsEnd_of_isQuiet (quiet : b.isQuiet p = true) : ¬FindsEnd p b e b' := by
  rintro ⟨⟨_, -, _, _, _, _, own, -⟩, ends⟩
  have ⟨_, up⟩ : (b.wires.get p).inbox = [] ∧ (b.wires.get p).isUp = true := by
    simpa [isQuiet, own] using quiet
  exact Connection.not_deliversEnd_of_isUp up ends

theorem not_gains_of_isQuiet (quiet : b.isQuiet p = true) (sound : b.Sound) : ¬Gains p st b e b' := by
  rintro ⟨n, ws, gained, -, st₀, h, m, t, own, -, fill⟩
  have ⟨nothing, _⟩ : (b.wires.get p).inbox = [] ∧ (b.wires.get p).isUp = true := by
    simpa [isQuiet, own] using quiet
  obtain ⟨bs, rfl, -, -, taken⟩ := Stream.fill_parts fill
  rw [sound.wired.own own, nothing] at taken
  obtain ⟨rfl, -⟩ := List.append_eq_nil_iff.mp taken.symm
  exact gained rfl

theorem not_occurs_of_isQuiet
    (quiet : (fresh config policy).Throughout (fun b => b.isQuiet p = true) es) :
    ¬(fresh config policy).Occurs es (FindsEnd p) ∧ ¬(fresh config policy).Occurs es (Overflows p) :=
  ⟨quiet.not_occurs fun _ => not_findsEnd_of_isQuiet, quiet.not_occurs fun reach quiet ⟨_, gains, _⟩ =>
    not_gains_of_isQuiet quiet (.of_reaches reach) gains⟩

theorem idles_of_phase (hp : b.sessions[p]?.map Session.phase = some (.idling h m t)) : b.Idles p h := by
  obtain ⟨⟨st, ph⟩, own, rfl⟩ := Option.map_eq_some_iff.mp hp
  exact ⟨st, m, t, own⟩

theorem endsAs_of_phase (hp : b.sessions[p]?.map Session.phase = some ph) (ends : ph.EndsAs how) :
    b.EndsAs p how := by
  obtain ⟨s, own, rfl⟩ := Option.map_eq_some_iff.mp hp
  exact ⟨s, own, ends⟩

theorem greets_registering
    (told : ((fresh config policy).run? registering.dropLast).bind
      (fun b => b.sessions[0]?.map Session.phase) = some (.welcoming 0 []))
    (run : (fresh config policy).run? registering = some b)
    (waits : b.sessions[0]?.map Session.phase = some (.idling 0 0 t)) :
    (fresh config policy).Occurs registering (Greets 0 0) := by
  have ⟨b₀, run₀, own₀⟩ := Option.bind_eq_some_iff.mp told
  have ⟨⟨st, _⟩, own₀, hp⟩ := Option.map_eq_some_iff.mp own₀
  have whole : registering = registering.dropLast ++ [.turn (.session 0)] := rfl
  rw [whole, run?_snoc run₀] at run
  rw [whole]
  refine (occurs_snoc run₀).mpr <| .inr ⟨b, run, rfl, ⟨st, [], ?_⟩, idles_of_phase waits⟩
  rw [own₀, ← hp]

def missing : List Event := registering ++ [.wait 30000000000, .turn (.session 0)]

def leaving : List Event := registering ++ [.change 0 .shut, .turn (.session 0)]

theorem kept_while_there_missing :
    (∃ b, (fresh {} Policy.allowAll).run? missing = some b ∧ b.Idles 0 0 ∧
      (fresh {} Policy.allowAll).Occurs missing (Greets 0 0) ∧
      ¬(fresh {} Policy.allowAll).Occurs missing (FindsEnd 0) ∧
      ¬(fresh {} Policy.allowAll).Occurs missing (Overflows 0)) ∧
    (∃ b, (fresh {} Policy.allowAll).run? leaving = some b ∧ b.EndsAs 0 .providerLeft ∧
      ((fresh {} Policy.allowAll).Occurs leaving (FindsEnd 0) ∨
        (fresh {} Policy.allowAll).Occurs leaving (Overflows 0))) ∧
    ∃ b b', (fresh { bufferSize := 0 } Policy.allowAll).run? registering = some b ∧
      b.turn (.session 0) = some b' ∧ b'.EndsAs 0 .providerLeft := by
  refine ⟨?_, ?_, ?_⟩
  case refine_1 =>
    have ⟨b₀, run₀, hp₀⟩ : ∃ b, (fresh {} Policy.allowAll).run? registering = some b ∧
        b.sessions[0]?.map Session.phase = some (.idling 0 0 30000000000) :=
      Option.map_eq_some_iff.mp (by decide +kernel)
    have ⟨b, run, hp⟩ : ∃ b, (fresh {} Policy.allowAll).run? missing = some b ∧
        b.sessions[0]?.map Session.phase = some (.idling 0 1 60000000000) :=
      Option.map_eq_some_iff.mp (by decide +kernel)
    have greets : (fresh {} Policy.allowAll).Occurs missing (Greets 0 0) :=
      (greets_registering (by decide +kernel) run₀ hp₀).append
    have quiet : (fresh {} Policy.allowAll).Throughout (fun b => b.isQuiet 0 = true) missing :=
      throughout_of_all (run?_nil _) (by decide +kernel)
    have ⟨there, few⟩ := not_occurs_of_isQuiet quiet
    have kept := ((kept_while_there run).left (by decide)).right greets there few
    have idles := kept.resolve_right fun gone => by
      obtain ⟨_, own⟩ | ⟨how, -, ⟨_, own, ends⟩, -⟩ := gone
      · rw [own] at hp
        cases hp
      · rw [own, Option.map_some, Option.some.injEq] at hp
        rw [hp] at ends
        exact ends
    exact ⟨b, run, idles, greets, there, few⟩
  case refine_2 =>
    have ⟨b, run, hp⟩ : ∃ b, (fresh {} Policy.allowAll).run? leaving = some b ∧
        b.sessions[0]?.map Session.phase = some (.ended (.regular .providerLeft)) :=
      Option.map_eq_some_iff.mp (by decide +kernel)
    have left := endsAs_of_phase hp rfl
    exact ⟨b, run, left, ((kept_while_there (h := 0) run).left (by decide)).left left⟩
  case refine_3 =>
    have ⟨b, run, hp⟩ : ∃ b, (fresh { bufferSize := 0 } Policy.allowAll).run? registering = some b ∧
        (b.sessions[0]?.map Session.phase, b.isUntouched) = (some (.idling 0 0 30000000000), true) :=
      Option.map_eq_some_iff.mp (by decide +kernel)
    obtain ⟨hp, untouched⟩ := Prod.mk.inj hp
    have ⟨b', next, st, own⟩ := (kept_while_there run).right rfl (idles_of_phase hp)
      (calm_of_isUntouched untouched)
    exact ⟨b, b', run, next, _, own, rfl⟩

theorem taken_for_gone_without_buffer :
    ¬∀ (config : Config) (policy : Policy) (es : List Event) (b : Broker) (p h : Nat),
      (fresh config policy).run? es = some b → (fresh config policy).Occurs es (Greets p h) →
      b.EndsAs p .providerLeft →
      (fresh config policy).Occurs es (FindsEnd p) ∨ (fresh config policy).Occurs es (Overflows p) := by
  intro claim
  have ⟨b₀, run₀, hp₀⟩ : ∃ b, (fresh { bufferSize := 0 } Policy.allowAll).run? registering = some b ∧
      b.sessions[0]?.map Session.phase = some (.idling 0 0 30000000000) :=
    Option.map_eq_some_iff.mp (by decide +kernel)
  have ⟨b, run, hp⟩ : ∃ b, (fresh { bufferSize := 0 } Policy.allowAll).run?
      (registering ++ [.turn (.session 0)]) = some b ∧
        b.sessions[0]?.map Session.phase = some (.ended (.regular .providerLeft)) :=
    Option.map_eq_some_iff.mp (by decide +kernel)
  have greets := greets_registering (by decide +kernel) run₀ hp₀
  have quiet : (fresh { bufferSize := 0 } Policy.allowAll).Throughout (fun b => b.isQuiet 0 = true)
      (registering ++ [.turn (.session 0)]) := throughout_of_all (run?_nil _) (by decide +kernel)
  have ⟨there, few⟩ := not_occurs_of_isQuiet quiet
  exact (claim _ _ _ b 0 0 run greets.append (endsAs_of_phase hp rfl)).elim there few

end Broker
end Rendezvous
