import Rendezvous.Control.ReadLine
import Rendezvous.Proofs.ControlLine
import Rendezvous.Proofs.Stream

namespace Rendezvous

namespace Bytes

variable {bs l more : Bytes}

def lead (bs : Bytes) : Bytes := bs.takeWhile (· ≠ newline)

theorem lead_append (h : newline ∉ l) : lead (l ++ bs) = l ++ bs.lead :=
  List.takeWhile_append_of_pos fun _ hb => decide_eq_true fun he => h (he ▸ hb)

theorem lead_eq_self (h : newline ∉ bs) : bs.lead = bs := by
  have whole : lead (bs ++ []) = bs ++ lead [] := lead_append h
  simpa [lead] using whole

theorem line?_eq_none : bs.line? = none ↔ newline ∉ bs := by
  unfold line?
  split <;> simp_all

theorem lead_of_line? (h : bs.line? = some l) : bs.lead = l := by
  unfold line? at h
  split at h <;> cases h
  rfl

theorem length_lead_append : bs.lead.length ≤ (bs ++ more).lead.length := by
  by_cases hn : newline ∈ bs
  case neg => simp [lead_append hn, lead_eq_self hn]
  case pos =>
    have hl : bs.line? = some bs.lead := if_pos hn
    exact Nat.le_of_eq <| congrArg List.length (lead_of_line? (line?_append hl)).symm

end Bytes

namespace LineReader

variable {r r' : LineReader} {bs l more rest : Bytes} {text : String} {maxLength : Nat}

theorem feed_append_newline (hn : Bytes.newline ∉ l) (hl : r.size + l.length ≤ maxLength) :
    feed maxLength r (l ++ Bytes.newline :: rest) = complete (r.held ++ l) rest := by
  induction l generalizing r
  case nil => simp [feed]
  case cons b l hi =>
    rw [List.mem_cons, not_or] at hn
    rw [List.length_cons] at hl
    have hi := hi (r := r.add b) hn.right (by simp only [add]; omega)
    rw [List.cons_append, feed, if_neg (Ne.symm hn.left), if_neg (by omega), hi, held_add,
      List.append_assoc, List.singleton_append]

theorem feed_within (hn : Bytes.newline ∉ bs) (hl : r.size + bs.length ≤ maxLength) :
    ∃ r', feed maxLength r bs = .incomplete r' ∧ r'.held = r.held ++ bs := by
  induction bs generalizing r
  case nil => exact ⟨r, rfl, (List.append_nil _).symm⟩
  case cons b bs hi =>
    rw [List.mem_cons, not_or] at hn
    rw [List.length_cons] at hl
    have ⟨r', hr, held⟩ := hi (r := r.add b) hn.right (by simp only [add]; omega)
    refine ⟨r', by rw [feed, if_neg (Ne.symm hn.left), if_neg (by omega), hr], ?_⟩
    rw [held, held_add, List.append_assoc, List.singleton_append]

theorem push_append_newline (hn : Bytes.newline ∉ l) (hl : r.size + l.length ≤ maxLength) :
    r.push maxLength (l ++ Bytes.newline :: rest) = complete (r.held ++ l) rest :=
  feed_append_newline (r := { r with capacity := r.grown }) hn hl

theorem push_within (hn : Bytes.newline ∉ bs) (hl : r.size + bs.length ≤ maxLength) :
    ∃ r', r.push maxLength bs = .incomplete r' ∧ r'.held = r.held ++ bs :=
  feed_within (r := { r with capacity := r.grown }) hn hl

-- What reading some bytes comes to. A line is too long from its first byte too many on.
theorem feed_cases (hr : r.size ≤ maxLength) (bs : Bytes) :
    (maxLength < r.size + bs.lead.length ∧ feed maxLength r bs = .refused .lineTooLong) ∨
    (∃ l rest, bs = l ++ Bytes.newline :: rest ∧ Bytes.newline ∉ l ∧ r.size + l.length ≤ maxLength ∧
      feed maxLength r bs = complete (r.held ++ l) rest) ∨
    ∃ r', Bytes.newline ∉ bs ∧ r'.size ≤ maxLength ∧ feed maxLength r bs = .incomplete r' := by
  induction bs generalizing r
  case nil => exact .inr <| .inr ⟨r, List.not_mem_nil, hr, rfl⟩
  case cons b bs hi =>
    by_cases hb : b = Bytes.newline
    case pos =>
      subst hb
      exact .inr <| .inl ⟨[], bs, rfl, List.not_mem_nil, hr, by simp [feed]⟩
    case neg =>
      have lead : Bytes.lead (b :: bs) = b :: Bytes.lead bs := by simp [Bytes.lead, hb]
      by_cases full : maxLength ≤ r.size
      case pos => exact .inl ⟨by simp [lead]; omega, by simp [feed, hb, full]⟩
      case neg =>
        have next : feed maxLength r (b :: bs) = feed maxLength (r.add b) bs := by simp [feed, hb, full]
        have size : (r.add b).size = r.size + 1 := rfl
        rw [next]
        obtain ⟨long, h⟩ | ⟨l, rest, rfl, hl, fits, h⟩ | ⟨r', hn, fits, h⟩ :=
          hi (r := r.add b) (by omega)
        · exact .inl ⟨by rw [lead, List.length_cons]; omega, h⟩
        · refine .inr <| .inl ⟨b :: l, rest, rfl, by simp [hl, Ne.symm hb], ?_, ?_⟩
          · rw [List.length_cons]
            omega
          · rw [h, held_add, List.append_assoc, List.singleton_append]
        · exact .inr <| .inr ⟨r', by simp [hn, Ne.symm hb], fits, h⟩

theorem push_cases (hr : r.size ≤ maxLength) (bs : Bytes) :
    (maxLength < r.size + bs.lead.length ∧ r.push maxLength bs = .refused .lineTooLong) ∨
    (∃ l rest, bs = l ++ Bytes.newline :: rest ∧ Bytes.newline ∉ l ∧ r.size + l.length ≤ maxLength ∧
      r.push maxLength bs = complete (r.held ++ l) rest) ∨
    ∃ r', Bytes.newline ∉ bs ∧ r'.size ≤ maxLength ∧ r.push maxLength bs = .incomplete r' :=
  feed_cases (r := { r with capacity := r.grown }) hr bs

-- Some bytes are all that a reader lacks of a line that spells a text.
structure Awaits (maxLength : Nat) (r : LineReader) (text : String) (l : Bytes) : Prop where
  within : Bytes.newline ∉ l
  fits   : r.size + l.length ≤ maxLength
  spells : Bytes.text? (r.held ++ l) = some text

-- A piece of what a reader waits for either completes the line or leaves less of it to wait for.
theorem Awaits.push (a : r.Awaits maxLength text l)
    (h : bs ++ more = l ++ Bytes.newline :: rest) :
    (∃ beyond, r.push maxLength bs = .line text beyond ∧ beyond ++ more = rest) ∨
      ∃ r' l', r.push maxLength bs = .incomplete r' ∧ r'.Awaits maxLength text l' ∧
        more = l' ++ Bytes.newline :: rest := by
  have part {l'} (hl : l = bs ++ l') (hm : more = l' ++ Bytes.newline :: rest) :
      ∃ r' l', r.push maxLength bs = .incomplete r' ∧ r'.Awaits maxLength text l' ∧
        more = l' ++ Bytes.newline :: rest := by
    have ⟨within, fits, spells⟩ := a
    rw [hl, List.mem_append, not_or] at within
    rw [hl, List.length_append] at fits
    have fits : r.size + bs.length ≤ maxLength := by omega
    have ⟨r', hr, held⟩ := push_within within.left fits
    refine ⟨r', l', hr, ⟨within.right, ?_, by rw [held, List.append_assoc, ← hl, spells]⟩, hm⟩
    have size := congrArg List.length held
    rw [List.length_append, length_held, length_held] at size
    omega
  obtain ⟨l', hl, hm⟩ | ⟨beyond, hb, hr⟩ := List.append_eq_append_iff.mp h
  case inl => exact .inr <| part hl hm
  case inr =>
    cases beyond
    case nil =>
      have whole : l = bs ++ [] := by simp [hb]
      exact .inr <| part whole hr.symm
    case cons =>
      cases (List.cons.inj hr).left
      refine .inl ⟨_, ?_, (List.cons.inj hr).right.symm⟩
      rw [hb, push_append_newline a.within a.fits, complete, a.spells]

theorem room_pos : 0 < r.room := by
  unfold room grown leastRoom
  split <;> omega

end LineReader

open LineReader in
theorem Arrivals.readOn_line {r : LineReader} {maxLength : Nat} {text : String} {l payload : Bytes}
    {as : Arrivals} (a : r.Awaits maxLength text l)
    (h : as.untilFault = l ++ Bytes.newline :: payload) :
    ∃ beyond rest, readOn maxLength r as = (.ok (text, beyond), rest) ∧
      beyond ++ rest.untilFault = payload := by
  induction as generalizing r l
  case nil => simp [untilFault] at h
  case cons piece as hi =>
    cases piece
    case error => simp [untilFault] at h
    case ok bs =>
      obtain ⟨beyond, hp, hr⟩ | ⟨r', l', hp, a', hm⟩ := a.push h
      · exact ⟨beyond, as, by simp only [readOn, hp], hr⟩
      · simpa only [readOn, hp] using hi a' hm

structure Connection.Yields (c : Connection) : Prop where
  sound : c.readFault = none
  moves : c.pieceLimit ≠ some 0

namespace Connection

variable {c : Connection} {limit : Nat}

theorem Yields.clip_pos (y : c.Yields) (hl : 0 < limit) : 0 < c.clip limit := by
  unfold clip
  cases hp : c.pieceLimit
  case none => exact hl
  case some n =>
    have : n ≠ 0 := fun hn => y.moves (hn ▸ hp)
    simp only [Option.map_some, Option.getD_some]
    omega

theorem Yields.read_some (y : c.Yields) (hl : 0 < limit) (hi : c.inbox ≠ []) :
    ∃ bs c', c.read limit = .done (bs, c') ∧ bs ≠ [] ∧ c'.Yields := by
  have hn := y.clip_pos hl
  refine ⟨c.inbox.take (c.clip limit), { c with inbox := c.inbox.drop (c.clip limit) }, ?_, ?_,
    ⟨y.sound, y.moves⟩⟩
  · simp only [read, y.sound, if_neg (Nat.ne_of_gt hn), if_neg hi]
  · simp [hi, Nat.ne_of_gt hn]

end Connection

namespace Stream

variable {s s' : Stream} {cs cs' : Connections} {bs payload l : Bytes} {limit bound maxLength : Nat}
variable {r : LineReader} {text : String} {got : List Bytes}

theorem read_ahead (cs : Connections) (h : s.pending.toList ≠ []) (hl : 0 < limit) :
    ∃ bs s', s.read cs limit = .done (bs, s', cs) ∧ bs ≠ [] ∧ s'.wire = s.wire ∧
      s.pending.toList = bs ++ s'.pending.toList := by
  refine ⟨s.pending.toList.take limit, { s with pending := (s.pending.take limit).2 }, ?_, ?_, rfl, ?_⟩
  · rw [read, if_neg fun hp => h (ByteQueue.isEmpty_iff.mp hp)]
    rfl
  · simp [h, Nat.ne_of_gt hl]
  · rw [ByteQueue.toList_take_snd]
    exact (List.take_append_drop ..).symm

theorem read_some (y : (cs.get s.wire).Yields) (hl : 0 < limit) (hc : s.content cs ≠ []) :
    ∃ bs s' cs', s.read cs limit = .done (bs, s', cs') ∧ bs ≠ [] ∧ (cs'.get s'.wire).Yields := by
  by_cases hp : s.pending.toList = []
  case pos =>
    rw [content, hp, List.nil_append] at hc
    obtain ⟨bs, c, hr, hb, y'⟩ := y.read_some hl hc
    have hw : s.wire < cs.length := Nat.lt_of_not_le fun hw =>
      hc (Connections.get_of_length_le hw ▸ rfl)
    refine ⟨bs, s, cs.set s.wire c, ?_, hb, ?_⟩
    · rw [read, if_pos (ByteQueue.isEmpty_iff.mpr hp), hr, Attempt.map]
    · rwa [Connections.get_set_self hw]
  case neg =>
    obtain ⟨bs, s', hr, hb, wire, _⟩ := read_ahead cs hp hl
    exact ⟨bs, s', cs, hr, hb, wire ▸ y⟩

theorem read_none (hc : s.content cs = []) (h : s.read cs limit = .done (bs, s', cs')) : bs = [] :=
  (List.append_eq_nil_iff.mp <| (read_done h).content ▸ hc).left

-- A view of what there is to read, of which every read has some and what is put back becomes a part.
structure Feeds (view : Stream → Connections → Bytes → Prop) : Prop where
  read {s cs bytes limit} (there : view s cs bytes) (some : bytes ≠ []) (hl : 0 < limit) :
    ∃ bs s' cs' more, s.read cs limit = .done (bs, s', cs') ∧ bs ≠ [] ∧ bytes = bs ++ more ∧
      view s' cs' more
  unread {s cs bytes} (there : view s cs bytes) (beyond : Bytes) :
    view (s.unread beyond) cs (beyond ++ bytes)

theorem Feeds.readLineOn {view : Stream → Connections → Bytes → Prop} (feeds : Feeds view)
    (a : r.Awaits maxLength text l) (there : view s cs (l ++ Bytes.newline :: payload))
    (hb : l.length < bound) :
    ∃ s' cs', readLineOn maxLength bound r s cs = (.line text, s', cs') ∧ view s' cs' payload := by
  induction bound generalizing r l s cs
  case zero => omega
  case succ bound hi =>
    obtain ⟨bs, s', cs', more, hr, ne, took, there'⟩ := feeds.read there (by simp) r.room_pos
    obtain ⟨b, rest, hbs⟩ := List.exists_cons_of_ne_nil ne
    subst hbs
    obtain ⟨beyond, hp, hm⟩ | ⟨r', l', hp, a', hm⟩ := a.push took.symm
    · refine ⟨s'.unread beyond, cs', by simp only [Stream.readLineOn, hr, hp], ?_⟩
      exact hm ▸ feeds.unread there' beyond
    · have shorter := congrArg List.length took
      simp only [hm, List.length_append, List.length_cons] at shorter
      simpa only [Stream.readLineOn, hr, hp] using hi a' (hm ▸ there') (by omega)

theorem feeds_content : Feeds fun s cs bytes => s.content cs = bytes ∧ (cs.get s.wire).Yields where
  read := by
    rintro s cs _ limit ⟨rfl, y⟩ some hl
    obtain ⟨bs, s', cs', hr, ne, y'⟩ := read_some y hl some
    exact ⟨bs, s', cs', _, hr, ne, (read_done hr).content, rfl, y'⟩
  unread := by
    rintro s cs _ ⟨rfl, y⟩ beyond
    exact ⟨content_unread .., y⟩

theorem feeds_ahead (i : Nat) (cs : Connections) :
    Feeds fun s cs' bytes => s.pending.toList = bytes ∧ s.wire = i ∧ cs' = cs where
  read := by
    rintro s cs _ limit ⟨rfl, rfl, rfl⟩ some hl
    obtain ⟨bs, s', hr, ne, wire, took⟩ := read_ahead cs some hl
    exact ⟨bs, s', cs, _, hr, ne, took, rfl, wire, rfl⟩
  unread := by
    rintro s _ _ ⟨rfl, wire, rfl⟩ beyond
    exact ⟨ByteQueue.toList_prepend .., wire, rfl⟩

theorem readLineOn_line (a : r.Awaits maxLength text l) (y : (cs.get s.wire).Yields)
    (h : s.content cs = l ++ Bytes.newline :: payload) (hb : (s.content cs).length < bound) :
    ∃ s' cs', readLineOn maxLength bound r s cs = (.line text, s', cs') ∧
      s'.content cs' = payload ∧ (cs'.get s'.wire).Yields := by
  have short : l.length ≤ (s.content cs).length := by simp [h]
  exact feeds_content.readLineOn a ⟨h, y⟩ (Nat.lt_of_le_of_lt short hb)

theorem readLineOn_ahead {ahead : Bytes} (a : r.Awaits maxLength text l)
    (h : s.pending.toList = l ++ Bytes.newline :: ahead) (hb : l.length < bound) :
    ∃ s', readLineOn maxLength bound r s cs = (.line text, s', cs) ∧ s'.wire = s.wire ∧
      s'.pending.toList = ahead := by
  obtain ⟨s', _, read, left, wire, rfl⟩ := (feeds_ahead s.wire cs).readLineOn a ⟨h, rfl, rfl⟩ hb
  exact ⟨s', read, wire, left⟩

theorem drainOn_content (y : (cs.get s.wire).Yields) (hl : 0 < limit)
    (hb : (s.content cs).length < bound) :
    Bytes.joined (drainOn limit bound got s cs).1 = Bytes.joined got ++ s.content cs := by
  induction bound generalizing s cs got
  case zero => omega
  case succ bound hi =>
    by_cases hc : s.content cs = []
    case pos =>
      rw [hc, List.append_nil, drainOn]
      cases hr : s.read cs limit
      case waits | fails => rfl
      case done p =>
        have ⟨bs, s', cs'⟩ := p
        cases read_none hc hr
        rfl
    case neg =>
      have ⟨bs, s', cs', hr, ne, y'⟩ := read_some y hl hc
      have took := (read_done hr).content
      have ⟨b, rest, hbs⟩ := List.exists_cons_of_ne_nil ne
      subst hbs
      have := congrArg List.length took
      simp only [List.length_append, List.length_cons] at this
      rw [drainOn, hr, took]
      exact (hi y' (by omega)).trans (by rw [Bytes.joined_cons, List.append_assoc])

theorem drain_content (y : (cs.get s.wire).Yields) (hl : 0 < limit) :
    (s.drain limit cs).1 = s.content cs :=
  drainOn_content y hl (Nat.lt_succ_self _)

end Stream

namespace Connection

variable {c c' : Connection} {bs : Bytes} {limit : Nat} {e : Fault}

theorem read_fails (h : c.read limit = .fails e) : c.readFault = some e := by
  unfold read at h
  split at h
  case h_1 hf =>
    cases h
    exact hf
  case h_2 =>
    simp only at h
    (repeat' split at h) <;> cases h

theorem read_waits (h : c.read limit = .waits) :
    c.inbox = [] ∧ c.readFault = none ∧ c.farShut = false ∧ c.farGone = false := by
  unfold read at h
  split at h
  case h_1 => cases h
  case h_2 hf =>
    simp only at h
    (repeat' split at h) <;> cases h
    simp_all

theorem read_nil (h : c.read limit = .done (bs, c')) (hb : bs = []) (hl : 0 < limit)
    (moves : c.pieceLimit ≠ some 0) : c.inbox = [] ∧ (c.farShut = true ∨ c.farGone = true) := by
  unfold read at h
  split at h
  case h_1 => cases h
  case h_2 hf =>
    have clip : c.clip limit ≠ 0 := Nat.ne_of_gt <| Yields.clip_pos ⟨hf, moves⟩ hl
    simp only [clip] at h
    (repeat' split at h) <;> cases h <;> simp_all

end Connection

namespace Stream

variable {s s' : Stream} {cs cs' : Connections} {bs : Bytes} {limit : Nat} {e : Fault}

theorem read_fails (h : s.read cs limit = .fails e) : (cs.get s.wire).readFault = some e := by
  unfold read at h
  split at h
  case isFalse => cases h
  case isTrue =>
    cases hr : (cs.get s.wire).read limit <;> rw [hr] at h <;> cases h
    exact Connection.read_fails hr

theorem read_waits (h : s.read cs limit = .waits) :
    s.content cs = [] ∧ (cs.get s.wire).readFault = none ∧ (cs.get s.wire).farShut = false ∧
      (cs.get s.wire).farGone = false := by
  unfold read at h
  split at h
  case isFalse => cases h
  case isTrue hp =>
    cases hr : (cs.get s.wire).read limit <;> rw [hr] at h <;> cases h
    have ⟨inbox, rest⟩ := Connection.read_waits hr
    exact ⟨by rw [content, ByteQueue.isEmpty_iff.mp hp, inbox]; rfl, rest⟩

theorem read_nil (h : s.read cs limit = .done (bs, s', cs')) (hb : bs = []) (hl : 0 < limit)
    (moves : (cs.get s.wire).pieceLimit ≠ some 0) :
    s.content cs = [] ∧ ((cs.get s.wire).farShut = true ∨ (cs.get s.wire).farGone = true) := by
  unfold read at h
  split at h
  case isTrue hp =>
    cases hr : (cs.get s.wire).read limit <;> rw [hr] at h <;> cases h
    have ⟨inbox, gone⟩ := Connection.read_nil hr hb hl moves
    exact ⟨by rw [content, ByteQueue.isEmpty_iff.mp hp, inbox]; rfl, gone⟩
  case isFalse hp =>
    cases h
    rw [ByteQueue.isEmpty_iff] at hp
    simp [hp, Nat.ne_of_gt hl] at hb

end Stream

end Rendezvous
