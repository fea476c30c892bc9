import Rendezvous.Proofs.KeepAlive
import Rendezvous.Proofs.Lapses

namespace Rendezvous

namespace Connection

variable {c : Connection} {limit : Nat}

theorem read_of_inbox (arrived : c.inbox ≠ []) (there : ¬c.DeliversEnd) (hl : 0 < limit) :
    ∃ bs c', c.read limit = .done (bs, c') ∧ bs ≠ [] := by
  cases hr : c.read limit
  case waits =>
    simp only [read] at hr
    (repeat' split at hr) <;> cases hr
  case fails => exact absurd (.of_fails hr) there
  case done found =>
    obtain ⟨bs, c'⟩ := found
    refine ⟨bs, c', rfl, fun nothing => there ?_⟩
    subst nothing
    exact .of_nil hr hl

end Connection

theorem Stream.fill_of_inbox {s : Stream} {cs : Connections} {limit : Nat}
    (arrived : (cs.get s.wire).inbox ≠ []) (there : ¬(cs.get s.wire).DeliversEnd) (hl : limit ≠ 0) :
    ∃ n s' cs', s.fill cs limit = .done (n, s', cs') ∧ n ≠ 0 := by
  have ⟨bs, c, read, gained⟩ := Connection.read_of_inbox arrived there (Nat.pos_of_ne_zero hl)
  refine ⟨bs.length, { s with pending := s.pending.append bs }, cs.set s.wire c, ?_, ?_⟩
  · simp only [fill, if_neg hl, read, Attempt.map]
  · exact fun nothing => gained (List.length_eq_zero_iff.mp nothing)

def Config.patience (config : Config) : Nat :=
  max config.maxMissedKeepalives 1 * config.keepaliveInterval.nanos

namespace Broker

variable {b b' b₀ b₁ : Broker} {e : Event} {es fs : List Event} {config : Config} {policy : Policy}
variable {p h m : Nat} {t since due : Instant} {x : Registration} {st : Stream} {quick : Prop}
variable {how : Ending}

-- The count of missed keep-alives of a provider starts: its reply has been flushed, or a read has
-- brought bytes and it is kept.
def Stirs (p h : Nat) : Happening := fun b e b' =>
  Greets p h b e b' ∨ (∃ st, Gains p st b e b') ∧ b'.Idles p h

def TimesOut (p : Nat) (x : Registration) (due : Instant) : Happening := fun b e b' =>
  Quits p b e b' .providerTimedOut ∧ Lapses x b e b' ∧ b.clock = due

-- A session has done all that it had to do up to some time.
def HasPassed (b : Broker) (p : Nat) (t : Instant) : Prop :=
  t < b.clock ∨ t ≤ b.clock ∧ b.turn (.session p) = none

def ClosesAtOnce (p : Nat) (b : Broker) : Prop :=
  ∀ st how t, b.sessions[p]? = some ⟨st, .closing how t⟩ → st.close b.wires ≠ .waits

theorem turn_of_closing (own : b.sessions[p]? = some ⟨st, .closing how (some t)⟩)
    (busy : t ≤ b.clock ∨ st.close b.wires ≠ .waits) : b.turn (.session p) ≠ none := by
  simp only [turn, sessionTurn, own, closeSession]
  split
  case h_1 | h_2 => exact Option.some_ne_none _
  case h_3 waits => simp [busy.resolve_right fun closes => closes waits]

theorem missed_lt (run : (fresh config policy).run? es = some b)
    (own : b.sessions[p]? = some ⟨st, .idling h m t⟩) : m < max config.maxMissedKeepalives 1 := by
  refine run_induction (P := fun _ b => ∀ st h m t, b.sessions[p]? = some ⟨st, .idling h m t⟩ →
    m < max config.maxMissedKeepalives 1) (fun _ _ _ _ own => by cases own) ?_ run st h m t own
  intro es b e b' run hi next st h m t own
  cases (step_of_step? next).origin own
  case stays own => exact hi _ _ _ _ own
  case turns k s₀ r hs ws event place own₀ turn =>
    obtain ⟨st₀, ph⟩ := s₀
    cases turn
    case greeted | holds => exact Nat.lt_of_lt_of_le Nat.one_pos (Nat.le_max_right ..)
    case listens few _ _ =>
      rw [missLimit, (settings_of_run run).left] at few
      exact few

section

variable (run : (fresh config policy).run? es = some b)
variable (registers : (fresh config policy).Occurs es (Registers p x))
variable (unclaimed : ∀ c, ¬(fresh config policy).Occurs es (Removes c x))
variable (unreplaced : ¬(fresh config policy).Occurs es (Displaces x))
include run registers unclaimed unreplaced

theorem mem_of_provides (hp : b.stake p = some (.provides h)) :
    x.handle = h ∧ x ∈ b.registry.entries := by
  have ⟨hd, hh, registers'⟩ := occurs_registers run hp
  have ⟨hd', hh', here⟩ := registered_of_provides run hp
  cases hh.symm.trans hh'
  obtain rfl := registers_once registers registers'
  obtain listed | displaces | ⟨c, removes⟩ := here
  · exact ⟨rfl, listed⟩
  · exact absurd displaces unreplaced
  · exact absurd removes (unclaimed c)

theorem calm_of_provides (hp : b.stake p = some (.provides x.handle)) : b.Calm x.handle := by
  have ⟨_, listed⟩ := mem_of_provides run registers unclaimed unreplaced hp
  have ⟨hd, hh, _, «open», unmade⟩ := (Sound.of_run run).tended.enrolled listed
  intro hd' hh'
  cases hh.symm.trans hh'
  exact ⟨«open», fun w asked => by cases unmade.symm.trans asked⟩

end

theorem ReadsAhead.waits {found : Attempt (Nat × Stream × Connections)} (reads : ReadsAhead p found b e b')
    (sound : b.Sound) (buffer : b.config.bufferSize ≠ 0) (silent : ∀ st, ¬Gains p st b e b')
    (there : ¬FindsEnd p b e b') : found = .waits := by
  have ⟨_, st, h, m, t, own, _, fill⟩ := reads
  have ends (he : (∃ st' ws, found = .done (0, st', ws)) ∨ ∃ f, found = .fails f) : False := by
    refine there ⟨⟨found, reads⟩, ?_⟩
    rw [← sound.wired.own own]
    rw [← fill] at he
    exact Stream.deliversEnd_of_fill buffer he
  cases found
  case waits   => rfl
  case fails f => exact (ends <| .inr ⟨f, rfl⟩).elim
  case done found =>
    obtain ⟨n, st', ws⟩ := found
    by_cases gained : n = 0
    case pos => exact (ends <| .inl ⟨st', ws, gained ▸ rfl⟩).elim
    case neg => exact absurd ⟨n, ws, gained, reads⟩ (silent st')

-- A provider that waits and sends nothing misses a keep-alive when it is time for one.
theorem Turn.of_silence {s' : Session} {r : Registry} {hs : List Handle} {ws : Connections} {i : Nat}
    (turn : b.Turn i st (.idling h m t) s' r hs ws) (calm : b.Calm h)
    (fill : st.fill b.wires b.config.bufferSize = .waits) : t ≤ b.clock ∧
      (s' = ⟨st, .idling h (m + 1) (b.clock + b.config.keepaliveInterval.nanos)⟩ ∨
        s' = ⟨st, .closing (.regular .providerTimedOut)
          (some (b.clock + b.config.keepaliveInterval.nanos))⟩ ∧
          b.missLimit ≤ m + 1 ∧ r = (b.unregister h).registry) := by
  cases turn
  case listens late             => exact ⟨late, .inl rfl⟩
  case timesOut many late       => exact ⟨late, .inr ⟨rfl, many, rfl⟩⟩
  case handsOver claim handle | offers claim handle => exact absurd claim ((calm _ handle).right _)
  case evicted closed handle    => cases (calm _ handle).left.symm.trans closed
  case overflows fill' | holds fill' => cases fill.symm.trans fill'
  case leaves fill' _ =>
    obtain fill' | ⟨-, -, _, fill'⟩ := fill' <;> cases fill.symm.trans fill'

-- Where the session of a provider is that has been silent since some time: it counts, or the provider
-- has been taken out when its patience was at an end and the connection is closed, which takes no longer
-- than one more keep-alive, and no time at all if it can be done at once.
inductive Silent (config : Config) (a : Broker) (es : List Event) (b : Broker) (p : Nat)
    (x : Registration) (since : Instant) (quick : Prop) : Prop
  | waits {st : Stream} {m : Nat} (own : b.sessions[p]? = some ⟨st, .idling x.handle m
        (since + (m + 1) * config.keepaliveInterval.nanos)⟩)
      (time : b.clock ≤ since + (m + 1) * config.keepaliveInterval.nanos)
  | closes {st : Stream} (own : b.sessions[p]? = some ⟨st, .closing (.regular .providerTimedOut)
        (some (since + config.patience + config.keepaliveInterval.nanos))⟩)
      (late : since + config.patience ≤ b.clock)
      (time : b.clock ≤ since + config.patience + config.keepaliveInterval.nanos)
      (soon : quick → b.clock ≤ since + config.patience)
      (left : a.Occurs es (TimesOut p x (since + config.patience)))
  | past {st : Stream} (own : b.sessions[p]? = some ⟨st, .ended (.regular .providerTimedOut)⟩)
      (late : since + config.patience ≤ b.clock)
      (left : a.Occurs es (TimesOut p x (since + config.patience)))

namespace Silent

section

variable (next : b.step? e = some b') (stays : e ≠ .abort p)
variable (awake : ¬Oversleeps (.session p) b e b')
include next stays awake

theorem of_closes (closes : quick → ClosesAtOnce p b)
    (own : b.sessions[p]? = some ⟨st, .closing (.regular .providerTimedOut)
      (some (since + config.patience + config.keepaliveInterval.nanos))⟩)
    (late : since + config.patience ≤ b.clock)
    (time : b.clock ≤ since + config.patience + config.keepaliveInterval.nanos)
    (soon : quick → b.clock ≤ since + config.patience)
    (left : (fresh config policy).Occurs es (TimesOut p x (since + config.patience))) :
    Silent config (fresh config policy) (es ++ [e]) b' p x since quick := by
  have step := step_of_step? next
  have late' := Nat.le_trans late step.clock_le
  by_cases place : e.place? = some p
  case neg =>
    have same := step.same (List.getElem?_eq_some_iff.mp own).choose place
    have time' := in_time_of_deadline step awake own rfl time fun late => turn_of_closing own (.inl late)
    refine .closes (same.trans own) late' time' (fun hq => ?_) left.append
    exact in_time step awake (soon hq) (.inl (turn_of_closing own (.inr (closes hq _ _ _ own))))
  case pos =>
    cases step <;> cases place
    case abort | spare => exact absurd rfl stays
    case turn k s s' r hs ws own₀ turn =>
      cases own.symm.trans own₀
      cases turn
      exact .past (getElem?_after own) late' left.append

section

variable (run : (fresh config policy).run? es = some b) (buffer : config.bufferSize ≠ 0)
variable (registers : (fresh config policy).Occurs es (Registers p x))
variable (unclaimed : ∀ c, ¬(fresh config policy).Occurs es (Removes c x))
variable (unreplaced : ¬(fresh config policy).Occurs es (Displaces x))
variable (silent : ∀ st, ¬Gains p st b e b') (there : ¬FindsEnd p b e b')
include run buffer registers unclaimed unreplaced silent there

theorem of_waits (own : b.sessions[p]? = some ⟨st, .idling x.handle m
      (since + (m + 1) * config.keepaliveInterval.nanos)⟩)
    (time : b.clock ≤ since + (m + 1) * config.keepaliveInterval.nanos) :
    Silent config (fresh config policy) (es ++ [e]) b' p x since quick := by
  have sound := Sound.of_run run
  have step := step_of_step? next
  have ⟨settings, _⟩ := settings_of_run run
  by_cases place : e.place? = some p
  case neg =>
    have same := step.same (List.getElem?_eq_some_iff.mp own).choose place
    exact .waits (same.trans own) <|
      in_time_of_deadline step awake own rfl time fun late => turn_of_idling own (.inl late)
  case pos =>
    have hp : b.stake p = some (.provides x.handle) := stake_of own
    have calm := calm_of_provides run registers unclaimed unreplaced hp
    cases step <;> cases place
    case abort | spare => exact absurd rfl stays
    case turn k s s' r hs ws own₀ turn =>
      cases own.symm.trans own₀
      have own' : (b.after k.place s' r hs ws).sessions[k.place]? = some s' := getElem?_after own
      have reads : ReadsAhead k.place (st.fill b.wires b.config.bufferSize) b (.turn k)
          (b.after k.place s' r hs ws) :=
        ⟨congrArg Event.turn (session_of_turn own next rfl), st, _, _, _, own, calm, rfl⟩
      have fill := reads.waits sound (settings ▸ buffer) silent there
      obtain ⟨late, rfl | ⟨rfl, many, rfl⟩⟩ := turn.of_silence calm fill
      all_goals have now := Nat.le_antisymm time late
      case inl =>
        have due : b.clock + b.config.keepaliveInterval.nanos =
            since + (m + 1 + 1) * config.keepaliveInterval.nanos := by
          rw [now, settings, Nat.add_assoc, ← Nat.succ_mul]
        exact .waits (own'.trans (by rw [due])) (due ▸ Nat.le_add_right ..)
      case inr =>
        -- The last keep-alive is missed when the provider's patience is at its end.
        have missed : m + 1 = max config.maxMissedKeepalives 1 := by
          rw [missLimit, settings] at many
          exact Nat.le_antisymm (missed_lt run own) many
        have due : b.clock = since + config.patience := by rw [now, missed, Config.patience]
        have ⟨_, listed⟩ := mem_of_provides run registers unclaimed unreplaced hp
        have gone : x ∉ (b.unregister x.handle).registry.entries := fun hx =>
          (sound.tended.handle_ne_of_unregister hx).right rfl
        refine .closes (own'.trans (by rw [settings, due])) (Nat.le_of_eq due.symm) ?_
          (fun _ => Nat.le_of_eq due) ?_
        · exact due ▸ Nat.le_add_right ..
        · refine (occurs_snoc run).mpr <| .inr ⟨_, next, ?_, ⟨listed, gone⟩, due⟩
          exact .timedOut own (fill ▸ reads) late many

theorem step (closes : quick → ClosesAtOnce p b)
    (h : Silent config (fresh config policy) es b p x since quick) :
    Silent config (fresh config policy) (es ++ [e]) b' p x since quick := by
  cases h
  case waits own time =>
    exact of_waits next stays awake run buffer registers unclaimed unreplaced silent there own time
  case closes own late time soon left => exact of_closes next stays awake closes own late time soon left
  case past own late left =>
    have step := step_of_step? next
    exact .past (step.ended own) (Nat.le_trans late step.clock_le) left.append

end
end

theorem start (stir : b₀.step? e = some b₁) (stirs : Stirs p h b₀ e b₁) :
    b₁.clock = b₀.clock ∧
      ∃ st, b₁.sessions[p]? = some ⟨st, .idling h 0 (b₀.clock + b₀.config.keepaliveInterval.nanos)⟩ := by
  obtain ⟨place, ⟨st, unsent, own⟩, st', m, t, idles⟩ |
    ⟨⟨st', n, ws, gained, rfl, st, h', m, t, own, -, fill⟩, st₁, m₁, t₁, idles⟩ := stirs
  case inl =>
    cases step_of_step? stir <;> cases place
    case turn own₀ turn =>
      cases own.symm.trans own₀
      cases turn <;> cases (getElem?_after own).symm.trans idles
      exact ⟨rfl, _, getElem?_after own⟩
    case abort own₀ => cases (getElem?_after own₀).symm.trans idles
    case spare      => cases own.symm.trans idles
  case inr =>
    cases step_of_step? stir
    case turn own₀ turn =>
      cases own.symm.trans own₀
      cases turn
      case holds =>
        cases (getElem?_after own).symm.trans idles
        exact ⟨rfl, _, idles⟩
      case listens waits _ _ _ => cases waits.symm.trans fill
      all_goals cases (getElem?_after own).symm.trans idles

theorem of_run (before : (fresh config policy).run? es = some b₀) (stir : b₀.step? e = some b₁)
    (stirs : Stirs p x.handle b₀ e b₁) (after : b₁.run? fs = some b)
    (registers : (fresh config policy).Occurs es (Registers p x)) (buffer : config.bufferSize ≠ 0)
    (unclaimed : ∀ c, ¬(fresh config policy).Occurs (es ++ e :: fs) (Removes c x))
    (unreplaced : ¬(fresh config policy).Occurs (es ++ e :: fs) (Displaces x))
    (silent : ∀ st, ¬b₁.Occurs fs (Gains p st)) (there : ¬b₁.Occurs fs (FindsEnd p))
    (stays : .abort p ∉ fs) (prompt : ¬b₁.Occurs fs (Oversleeps (.session p))) :
    Silent config (fresh config policy) (es ++ e :: fs) b p x b₀.clock
      (b₁.Throughout (ClosesAtOnce p) fs) := by
  have here : (fresh config policy).run? (es ++ [e]) = some b₁ := run?_snoc before ▸ stir
  have ⟨settings, _⟩ := settings_of_run before
  have ⟨now, st, own⟩ := start stir stirs
  rw [List.append_cons] at unclaimed unreplaced ⊢
  refine prefix_induction (P := fun gs b => Silent config (fresh config policy) ((es ++ [e]) ++ gs) b p x
    b₀.clock (b₁.Throughout (ClosesAtOnce p) fs)) ?_ ?_ List.prefix_rfl after
  case refine_1 =>
    rw [settings, ← Nat.one_mul config.keepaliveInterval.nanos] at own
    exact .waits (m := 0) own (now ▸ Nat.le_add_right ..)
  case refine_2 =>
    intro gs b₂ f b₃ part run₂ step₂ hi
    have run₂' : (fresh config policy).run? ((es ++ [e]) ++ gs) = some b₂ := by
      rw [run?_append, here]
      exact run₂
    obtain ⟨rest, rfl⟩ := part
    have split : (es ++ [e]) ++ (gs ++ [f] ++ rest) = ((es ++ [e]) ++ gs) ++ (f :: rest) := by simp
    rw [split] at unclaimed unreplaced
    rw [← List.append_assoc]
    have part : gs ++ [f] <+: gs ++ [f] ++ rest := List.prefix_append ..
    exact hi.step step₂ (fun hf => stays (hf ▸ part.subset (by simp)))
      (not_of_not_occurs prompt part run₂ step₂) run₂' buffer registers.append.append
      (fun c removes => unclaimed c removes.append) (fun displaces => unreplaced displaces.append)
      (fun st => not_of_not_occurs (silent st) part run₂ step₂) (not_of_not_occurs there part run₂ step₂)
      fun quick => quick gs b₂ ((List.prefix_append ..).trans part) run₂

end Silent

-- What has arrived is read in the next turn. Unless there is too much of it, the provider is kept and its
-- count starts again.
theorem stirs_of_inbox (buffer : b.config.bufferSize ≠ 0) (own : b.sessions[p]? = some ⟨st, .idling h m t⟩)
    (wire : st.wire = p) (calm : b.Calm h) (arrived : (b.wires.get p).inbox ≠ [])
    (there : ¬(b.wires.get p).DeliversEnd) :
    ∃ b' st', b.turn (.session p) = some b' ∧ Gains p st' b (.turn (.session p)) b' ∧
      (st'.pending.size ≤ b.config.maxPendingBytes → Stirs p h b (.turn (.session p)) b' ∧
        b'.sessions[p]? = some ⟨st', .idling h 0 (b.clock + b.config.keepaliveInterval.nanos)⟩) := by
  have ⟨n, st', ws', fill, gained⟩ := Stream.fill_of_inbox (wire ▸ arrived) (wire ▸ there) buffer
  have ⟨b', next⟩ := Option.ne_none_iff_exists'.mp (turn_of_idling own (.inr (by rw [fill]; nofun)))
  have gains : Gains p st' b (.turn (.session p)) b' :=
    ⟨n, ws', gained, rfl, st, h, m, t, own, calm, fill⟩
  refine ⟨b', st', next, gains, fun few => ?_⟩
  obtain ⟨s, own₀, s', r, hds, ws, turn, rfl⟩ := turn_turns next
  cases own.symm.trans own₀
  have own' : (b.after p s' r hds ws).sessions[p]? = some s' := getElem?_after own
  obtain ⟨-, much⟩ | ⟨rfl, -⟩ := turn.of_gains calm fill gained
  · exact absurd much (Nat.not_lt_of_le few)
  · exact ⟨.inr ⟨⟨st', gains⟩, _, _, _, own'⟩, own'⟩

namespace Silent

theorem not_hasPassed (run : (fresh config policy).run? es = some b)
    (own : b.sessions[p]? = some ⟨st, .idling h m (since + (m + 1) * config.keepaliveInterval.nanos)⟩)
    (time : b.clock ≤ since + (m + 1) * config.keepaliveInterval.nanos) :
    ¬b.HasPassed p (since + config.patience) := by
  have le : since + (m + 1) * config.keepaliveInterval.nanos ≤ since + config.patience :=
    Nat.add_le_add_left (Nat.mul_le_mul_right _ (missed_lt run own)) since
  rintro (over' | ⟨over', rests⟩)
  · exact absurd (Nat.le_trans time le) (Nat.not_le_of_lt over')
  · exact turn_of_idling own (.inl (Nat.le_trans le over')) rests

theorem of_hasPassed (h : Silent config (fresh config policy) es b p x since quick)
    (run : (fresh config policy).run? es = some b) (over' : b.HasPassed p (since + config.patience)) :
    (fresh config policy).Occurs es (TimesOut p x (since + config.patience)) ∧
      b.EndsAs p .providerTimedOut := by
  cases h
  case waits own time        => exact absurd over' (not_hasPassed run own time)
  case closes own _ _ _ left => exact ⟨left, _, own, rfl⟩
  case past own _ left       => exact ⟨left, _, own, rfl⟩

end Silent

-- A provider that sends nothing any more is registered and is kept waiting until its patience is at an
-- end, and at that very time it is taken out. Its session has returned then, or one keep-alive later if
-- the connection cannot be closed. Whatever arrives before starts the whole count again.
theorem silence_times_out_exactly
    (before : (fresh config policy).run? es = some b₀) (stir : b₀.step? e = some b₁)
    (stirs : Stirs p x.handle b₀ e b₁) (after : b₁.run? fs = some b)
    (registers : (fresh config policy).Occurs es (Registers p x)) (buffer : config.bufferSize ≠ 0)
    (unclaimed : ∀ c, ¬(fresh config policy).Occurs (es ++ e :: fs) (Removes c x))
    (unreplaced : ¬(fresh config policy).Occurs (es ++ e :: fs) (Displaces x))
    (silent : ∀ st, ¬b₁.Occurs fs (Gains p st)) (there : ¬b₁.Occurs fs (FindsEnd p))
    (stays : .abort p ∉ fs) (prompt : ¬b₁.Occurs fs (Oversleeps (.session p))) :
    (b.clock < b₀.clock + config.patience → b.Idles p x.handle ∧ x ∈ b.registry.entries) ∧
    (b.HasPassed p (b₀.clock + config.patience) →
      (fresh config policy).Occurs (es ++ e :: fs) (TimesOut p x (b₀.clock + config.patience)) ∧
        b.registry.Lacks x.handle ∧ b.EndsAs p .providerTimedOut) ∧
    ¬(fresh config policy).Occurs (es ++ e :: fs) (fun c f c' =>
      Lapses x c f c' ∧ c.clock ≠ b₀.clock + config.patience) ∧
    (b₁.Throughout (ClosesAtOnce p) fs → b.HasPassed p (b₀.clock + config.patience) →
      ∃ st, b.sessions[p]? = some ⟨st, .ended (.regular .providerTimedOut)⟩) ∧
    (b.HasPassed p (b₀.clock + config.patience + config.keepaliveInterval.nanos) →
      ∃ st, b.sessions[p]? = some ⟨st, .ended (.regular .providerTimedOut)⟩) ∧
    ∀ st m t, b.sessions[p]? = some ⟨st, .idling x.handle m t⟩ → m < max config.maxMissedKeepalives 1 ∧
      ((b.wires.get p).inbox ≠ [] → ¬(b.wires.get p).DeliversEnd →
        ∃ b' st', b.turn (.session p) = some b' ∧ Gains p st' b (.turn (.session p)) b' ∧
          (st'.pending.size ≤ config.maxPendingBytes → Stirs p x.handle b (.turn (.session p)) b' ∧
            b'.sessions[p]? = some ⟨st', .idling x.handle 0
              (b.clock + config.keepaliveInterval.nanos)⟩)) := by
  have here := Silent.of_run before stir stirs after registers buffer unclaimed unreplaced silent there stays
    prompt
  have run : (fresh config policy).run? (es ++ e :: fs) = some b := by
    rw [run?_append, before]
    exact (congrArg (Option.bind · _) stir).trans after
  have registers : (fresh config policy).Occurs (es ++ e :: fs) (Registers p x) := registers.append
  have ⟨settings, _⟩ := settings_of_run run
  have sooner {t : Instant} (over' : b.HasPassed p (t + config.keepaliveInterval.nanos)) : b.HasPassed p t :=
    over'.imp (Nat.lt_of_le_of_lt (Nat.le_add_right ..)) fun ⟨over', rests⟩ =>
      ⟨Nat.le_trans (Nat.le_add_right ..) over', rests⟩
  refine ⟨fun early => ?_, fun over' => ?_, fun elsewhere => ?_, fun quick over' => ?_, fun over' => ?_,
    fun st m t own => ⟨missed_lt run own, fun arrived there => ?_⟩⟩
  case refine_1 =>
    cases here
    case waits own _ =>
      exact ⟨⟨_, _, _, own⟩, (mem_of_provides run registers unclaimed unreplaced (stake_of own)).right⟩
    case closes late _ _ _ | past late _ => exact absurd early (Nat.not_lt_of_le late)
  case refine_2 =>
    have ⟨left, ends⟩ := here.of_hasPassed run over'
    exact ⟨left, (lacks_of_lapses run (left.mono fun out => out.right.left)).right, ends⟩
  case refine_3 =>
    have only (left : (fresh config policy).Occurs (es ++ e :: fs)
        (TimesOut p x (b₀.clock + config.patience))) : False := by
      have ⟨_, _, _, _, _, ⟨_, ne⟩, ⟨_, _, due⟩⟩ := meet_of_lapses (x := x)
        (fun _ h => And.left h) (fun _ h => h.right.left) elsewhere left
      exact ne due
    cases here
    case waits own _ =>
      have ⟨_, listed⟩ := mem_of_provides run registers unclaimed unreplaced (stake_of own)
      exact (lacks_of_lapses run (elsewhere.mono And.left)).right x listed rfl
    case closes left => exact only left
    case past left   => exact only left
  case refine_4 =>
    cases here
    case waits own time       => exact absurd over' (Silent.not_hasPassed run own time)
    case past own _ _         => exact ⟨_, own⟩
    case closes own _ _ soon _ =>
      obtain later | ⟨-, rests⟩ := over'
      · exact absurd (soon quick) (Nat.not_le_of_lt later)
      · exact absurd rests (turn_of_closing own (.inr (quick.last after _ _ _ own)))
  case refine_5 =>
    cases here
    case waits own time       => exact absurd (sooner over') (Silent.not_hasPassed run own time)
    case past own _ _         => exact ⟨_, own⟩
    case closes own _ time _ _ =>
      obtain later | ⟨late, rests⟩ := over'
      · exact absurd time (Nat.not_le_of_lt later)
      · exact absurd rests (turn_of_closing own (.inl late))
  case refine_6 =>
    have calm := calm_of_provides run registers unclaimed unreplaced (stake_of own)
    have ⟨b', st', next, gains, kept⟩ := stirs_of_inbox (settings ▸ buffer) own
      ((Sound.of_run run).wired.own own) calm arrived there
    rw [settings] at kept
    exact ⟨b', st', next, gains, kept⟩

def isUnsought (b : Broker) : Bool :=
  b.registry.entries.isEmpty || b.sessions.all fun s =>
    match s.phase with
    | .identifying .. => false
    | _ => true

theorem not_found_of_isUnsought {c : Nat} (unsought : b.isUnsought = true) (new : b.stake c = some .new) :
    b.registry.find? x.name ≠ some x := by
  intro found
  have ⟨⟨st, ph⟩, own, hq⟩ := stake_eq_some.mp new
  simp only [isUnsought, Bool.or_eq_true, List.all_eq_true, List.isEmpty_iff] at unsought
  obtain nobody | told := unsought
  · simpa [nobody] using Registry.mem_of_find? found
  · have told := told _ (List.mem_of_getElem? own)
    cases ph <;> cases hq
    cases told

def murmuring : List Event :=
  registering ++ [.wait 30000000000, .turn (.session 0), .wait 50000000000,
    .change 0 (.send (Bytes.ofText "hi"))]

def expiring : List Event :=
  [.wait 80000000000, .turn (.session 0), .wait 110000000000, .turn (.session 0), .turn (.session 0)]

theorem silence_times_out_exactly_murmuring :
    ∃ b, (fresh { maxMissedKeepalives := 2 } Policy.allowAll).run?
        (murmuring ++ .turn (.session 0) :: expiring) = some b ∧ b.clock = 110000000000 ∧
      (fresh { maxMissedKeepalives := 2 } Policy.allowAll).Occurs
        (murmuring ++ .turn (.session 0) :: expiring) (TimesOut 0 ⟨0, cam1⟩ 110000000000) ∧
      b.registry.Lacks 0 ∧ ∃ st, b.sessions[0]? = some ⟨st, .ended (.regular .providerTimedOut)⟩ := by
  let a := fresh { maxMissedKeepalives := 2 } Policy.allowAll
  obtain ⟨b₀, before, was⟩ : ∃ b, a.run? murmuring = some b ∧
      (b.clock, b.sessions[0]?.map Session.phase, b.handles.map Handle.name,
        b.isUntouched, (b.wires.get 0).isUp, (b.wires.get 0).inbox.isEmpty) =
        (50000000000, some (.idling 0 1 60000000000), [cam1], true, true, false) :=
    Option.map_eq_some_iff.mp (by decide +kernel)
  obtain ⟨b₁, here, is⟩ : ∃ b, a.run? (murmuring ++ [.turn (.session 0)]) = some b ∧
      b.sessions[0]?.map Session.phase = some (.idling 0 0 80000000000) :=
    Option.map_eq_some_iff.mp (by decide +kernel)
  obtain ⟨b, run, now⟩ : ∃ b, a.run? (murmuring ++ .turn (.session 0) :: expiring) = some b ∧
      (b.clock, (b.turn (.session 0)).isNone) = (110000000000, true) :=
    Option.map_eq_some_iff.mp (by decide +kernel)
  obtain ⟨clock₀, phase₀, names₀, untouched, up, arrived⟩ := by simpa only [Prod.mk.injEq] using was
  obtain ⟨clock, rests⟩ := by simpa only [Prod.mk.injEq] using now
  obtain ⟨⟨st, _⟩, own₀, rfl⟩ := Option.map_eq_some_iff.mp phase₀
  have stir : b₀.step? (.turn (.session 0)) = some b₁ := run?_snoc before ▸ here
  have after : b₁.run? expiring = some b := by
    rwa [List.append_cons, run?_append, here] at run
  have registers : a.Occurs murmuring (Registers 0 ⟨0, cam1⟩) := by
    obtain ⟨hd, hh, registers⟩ := occurs_registers before (stake_of own₀)
    have named : (b₀.handles.map Handle.name)[0]? = some hd.name := by rw [List.getElem?_map, hh]; rfl
    rw [names₀] at named
    exact Option.some.inj named ▸ registers
  have stirs : Stirs 0 0 b₀ (.turn (.session 0)) b₁ := by
    obtain ⟨b', st', next, gains, _⟩ := stirs_of_inbox ((settings_of_run before).left ▸ by decide) own₀
      ((Sound.of_run before).wired.own own₀) (calm_of_isUntouched untouched) (by simpa using arrived)
      (Connection.not_deliversEnd_of_isUp up)
    cases stir.symm.trans next
    exact .inr ⟨⟨st', gains⟩, idles_of_phase is⟩
  have unsought : a.Throughout (fun b => b.isUnsought = true)
      (murmuring ++ .turn (.session 0) :: expiring) := throughout_of_all (run?_nil _) (by decide +kernel)
  have quiet : b₁.Throughout (fun b => b.isQuiet 0 = true) expiring :=
    throughout_of_all here (by decide +kernel)
  have closes : b₁.Throughout (fun b => (b.wires.get 0).close ≠ .waits) expiring :=
    throughout_of_all here (by decide +kernel)
  have prompt : b₁.isPrompt expiring = true := by
    have whole : a.isPrompt ((murmuring ++ [.turn (.session 0)]) ++ expiring) = true := by decide +kernel
    rw [isPrompt_append here, Bool.and_eq_true] at whole
    exact whole.right
  have sound {c : Broker} (reach : b₁.Reaches c) : c.Sound := .of_reaches ((Reaches.of_run here).trans reach)
  obtain ⟨-, out, -, ended, -⟩ := silence_times_out_exactly (x := ⟨0, cam1⟩) before stir stirs after registers
    (by decide)
    (fun c => unsought.not_occurs fun _ unsought ⟨_, new, found, _⟩ =>
      not_found_of_isUnsought unsought new found)
    (unsought.not_occurs fun _ unsought ⟨_, _, ⟨_, new, _⟩, _, found⟩ =>
      not_found_of_isUnsought unsought new found)
    (fun st => quiet.not_occurs fun reach quiet => not_gains_of_isQuiet quiet (sound reach))
    (quiet.not_occurs fun _ => not_findsEnd_of_isQuiet) (by decide)
    (not_oversleeps_of_isPrompt after prompt)
  have due : b.HasPassed 0 (b₀.clock + Config.patience { maxMissedKeepalives := 2 }) := by
    refine .inr ⟨?_, Option.isNone_iff_eq_none.mp rests⟩
    rw [clock₀, clock]
    decide
  have quick : b₁.Throughout (ClosesAtOnce 0) expiring := by
    intro fs c part run st how t own waits
    refine closes fs c part run ?_
    have wired := (sound (.of_run run)).wired.own own
    simp only at wired
    rw [Stream.close, wired] at waits
    cases hc : (c.wires.get 0).close <;> rw [hc] at waits <;> first | rfl | cases waits
  obtain ⟨left, gone, _⟩ := out due
  rw [clock₀] at left
  exact ⟨b, run, clock, left, gone, ended quick due⟩

end Broker
end Rendezvous
