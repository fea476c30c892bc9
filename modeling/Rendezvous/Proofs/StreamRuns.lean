import Rendezvous.Proofs.LineReading

namespace Rendezvous

namespace Connection

variable {c c' c'' : Connection} {cs : Connections} {bs : Bytes} {limit n w : Nat}

structure SameFar (c c' : Connection) : Prop where
  shut  : c'.farShut = c.farShut
  gone  : c'.farGone = c.farGone
  limit : c'.pieceLimit = c.pieceLimit

namespace SameFar

theorem refl (c : Connection) : c.SameFar c := ⟨rfl, rfl, rfl⟩

theorem trans (h : c.SameFar c') (h' : c'.SameFar c'') : c.SameFar c'' :=
  ⟨h'.shut.trans h.shut, h'.gone.trans h.gone, h'.limit.trans h.limit⟩

theorem get_set (h : (cs.get w).SameFar c) :
    (cs.get w).SameFar (Connections.get (cs.set w c) w) := by
  by_cases hw : w < cs.length
  case pos => rwa [Connections.get_set_self hw]
  case neg => rw [Connections.set_of_length_le (Nat.le_of_not_lt hw)]; exact refl _

end SameFar

theorem sameFar_read (h : c.read limit = .done (bs, c')) : c.SameFar c' := by
  simp only [read] at h
  (repeat' split at h) <;> cases h <;> exact ⟨rfl, rfl, rfl⟩

theorem sameFar_write (h : c.write bs = .done (n, c')) : c.SameFar c' := by
  unfold write at h
  (repeat' split at h) <;> cases h
  exact ⟨rfl, rfl, rfl⟩

theorem sameFar_close (h : c.close = .done c') : c.SameFar c' :=
  close_done h ▸ ⟨rfl, rfl, rfl⟩

end Connection

namespace Stream

open Connection (SameFar)

variable {s s' : Stream} {cs cs' : Connections} {bs : Bytes} {limit n : Nat}

theorem sameFar_read (h : s.read cs limit = .done (bs, s', cs')) :
    (cs.get s.wire).SameFar (cs'.get s'.wire) := by
  unfold read at h
  split at h
  case isTrue =>
    cases hr : (cs.get s.wire).read limit <;> rw [hr] at h <;> cases h
    exact .get_set (Connection.sameFar_read hr)
  case isFalse =>
    cases h
    exact .refl _

theorem sameFar_fill (h : s.fill cs limit = .done (n, s', cs')) :
    (cs.get s.wire).SameFar (cs'.get s'.wire) := by
  unfold fill at h
  split at h
  case isTrue =>
    cases h
    exact .refl _
  case isFalse =>
    cases hr : (cs.get s.wire).read limit <;> rw [hr] at h <;> cases h
    exact .get_set (Connection.sameFar_read hr)

theorem sameFar_write (h : s.write cs bs = .done (n, cs')) :
    (cs.get s.wire).SameFar (cs'.get s.wire) := by
  unfold write at h
  cases hw : (cs.get s.wire).write bs <;> rw [hw] at h <;> cases h
  exact .get_set (Connection.sameFar_write hw)

theorem sameFar_close (h : s.close cs = .done cs') :
    (cs.get s.wire).SameFar (cs'.get s.wire) := by
  unfold close at h
  cases hc : (cs.get s.wire).close <;> rw [hc] at h <;> cases h
  exact .get_set (Connection.sameFar_close hc)

-- What is read comes from what was read ahead, as long as there is any, and else from the connection.
theorem read_parts (h : s.read cs limit = .done (bs, s', cs')) :
    (s.pending.toList ≠ [] ∧ s.pending.toList = bs ++ s'.pending.toList ∧ (0 < limit → bs ≠ []) ∧
      cs'.get s'.wire = cs.get s.wire) ∨
    (s.pending.toList = [] ∧ s'.pending.toList = [] ∧
      (cs.get s.wire).inbox = bs ++ (cs'.get s'.wire).inbox) := by
  unfold read at h
  split at h
  case isTrue hp =>
    rw [ByteQueue.isEmpty_iff] at hp
    cases hr : (cs.get s.wire).read limit <;> rw [hr] at h <;> cases h
    exact .inr ⟨hp, hp, (took_of_read hr).left ▸ (Connection.read_done hr).left⟩
  case isFalse hp =>
    rw [ByteQueue.isEmpty_iff] at hp
    cases h
    refine .inl ⟨hp, ?_, fun hl => by simp [hp, Nat.ne_of_gt hl], rfl⟩
    show _ = s.pending.toList.take limit ++ (s.pending.take limit).2.toList
    rw [ByteQueue.toList_take_snd, List.take_append_drop]

theorem spares_of_read (h : s.read cs limit = .done (bs, s', cs'))
    (there : s.pending.toList ≠ []) : cs'.get s'.wire = cs.get s.wire := by
  obtain ⟨_, _, _, same⟩ | ⟨dry, _⟩ := read_parts h
  case inl => exact same
  case inr => exact absurd dry there

theorem pending_of_read (h : s.read cs limit = .waits ∨ ∃ e, s.read cs limit = .fails e) :
    s.pending.toList = [] := by
  unfold read at h
  split at h
  case isTrue hp  => exact ByteQueue.isEmpty_iff.mp hp
  case isFalse hp => simp at h

theorem fill_parts (h : s.fill cs limit = .done (n, s', cs')) :
    ∃ bs, bs.length = n ∧ n ≤ limit ∧ s'.pending.toList = s.pending.toList ++ bs ∧
      (cs.get s.wire).inbox = bs ++ (cs'.get s'.wire).inbox := by
  unfold fill at h
  split at h
  case isTrue =>
    cases h
    exact ⟨[], rfl, Nat.zero_le _, (List.append_nil _).symm, rfl⟩
  case isFalse =>
    cases hr : (cs.get s.wire).read limit <;> rw [hr] at h <;> cases h
    exact ⟨_, rfl, Connection.length_read hr, ByteQueue.toList_append ..,
      (took_of_read hr).left ▸ (Connection.read_done hr).left⟩

theorem inbox_write (h : s.write cs bs = .done (n, cs')) :
    (cs'.get s.wire).inbox = (cs.get s.wire).inbox := by
  unfold write at h
  cases hw : (cs.get s.wire).write bs <;> rw [hw] at h <;> cases h
  have hl : s.wire < cs.length := Nat.lt_of_not_le fun hl =>
    Connection.nowhere_write <| Connections.get_of_length_le hl ▸ hw
  rw [Connections.get_set_self hl, (Connection.write_done hw).left]

end Stream

def Bytes.Splits (bs : Bytes) (text : String) (rest : Bytes) : Prop :=
  ∃ l, newline ∉ l ∧ text? l = some text ∧ bs = l ++ newline :: rest

theorem Bytes.Splits.append {bs rest : Bytes} {text : String} (h : bs.Splits text rest)
    (more : Bytes) : (bs ++ more).Splits text (rest ++ more) := by
  obtain ⟨l, whole, spells, rfl⟩ := h
  exact ⟨l, whole, spells, by simp⟩

-- A stream in the hands of its holder, and the line that is being waited for, as far as it was read.
structure Desk where
  stream : Stream
  wires : Connections
  reader : Option LineReader := none

namespace Desk

inductive Use where
  | unread (bs : Bytes)
  | fill (limit : Nat)
  | read (limit : Nat)
  -- Reads a line if all of it has come; otherwise what was read of it is lost.
  | readLine (maxLength : Nat)
  | write (bs : Bytes)
  | close
deriving DecidableEq

inductive Act where
  | use (use : Use)
  | awaitLine (maxLength : Nat)
  | giveUp
  | far (change : Connection.Change)
deriving DecidableEq

inductive Answer where
  | done
  | waits
  | fails (fault : Fault)
  | count (n : Nat)
  | bytes (bs : Bytes)
  | line (text : String)
  | part
  | refused (cause : Error)
  | busy
deriving DecidableEq

def Answer.ofLine : Stream.LineResult → Answer
  | .waits => waits
  | .fails cause => refused cause
  | .line text => line text

def settle {α : Type} (d : Desk) (a : Attempt α) (f : α → Answer × Desk) : Answer × Desk :=
  match a with
  | .waits => (.waits, d)
  | .fails e => (.fails e, d)
  | .done p => f p

def perform (d : Desk) : Use → Answer × Desk
  | .unread bs => (.done, { d with stream := d.stream.unread bs })
  | .fill limit => d.settle (d.stream.fill d.wires limit) fun p =>
    (.count p.1, { d with stream := p.2.1, wires := p.2.2 })
  | .read limit => d.settle (d.stream.read d.wires limit) fun p =>
    (.bytes p.1, { d with stream := p.2.1, wires := p.2.2 })
  | .readLine maxLength =>
    let p := d.stream.readLine maxLength d.wires
    (.ofLine p.1, { d with stream := p.2.1, wires := p.2.2 })
  | .write bs => d.settle (d.stream.write d.wires bs) fun p => (.count p.1, { d with wires := p.2 })
  | .close => d.settle (d.stream.close d.wires) fun wires => (.done, { d with wires })

def readOn (d : Desk) (maxLength : Nat) (r : LineReader) : Answer × Desk :=
  match d.stream.read d.wires r.room with
  | .waits => (.waits, { d with reader := some r })
  | .fails e => (.refused (.fault e), { d with reader := none })
  | .done ([], stream, wires) => (.refused (.protocol .closedEarly), { stream, wires })
  | .done (bs, stream, wires) =>
    match r.push maxLength bs with
    | .line text rest => (.line text, { stream := stream.unread rest, wires })
    | .refused cause => (.refused (.protocol cause), { stream, wires })
    | .incomplete r => (.part, { stream, wires, reader := some r })

def serve (d : Desk) : Act → Answer × Desk
  | .use u => if d.reader.isSome then (.busy, d) else d.perform u
  | .awaitLine maxLength => d.readOn maxLength (d.reader.getD {})
  | .giveUp => (.done, { d with reader := none })
  | .far change =>
    (.done, { d with wires := d.wires.update d.stream.wire fun c => (c.apply change).toOption.getD c })

def run (d : Desk) : List Act → List (Act × Answer) × Desk
  | [] => ([], d)
  | a :: as =>
    let (answer, d) := d.serve a
    let (log, d) := d.run as
    ((a, answer) :: log, d)

def wire (d : Desk) : Connection := d.wires.get d.stream.wire

def brings (d : Desk) : Act → Bytes
  | .far (.send bs) => if (d.wire.send bs).isOk then bs else []
  | _ => []

def coming (d : Desk) : List Act → Bytes
  | [] => []
  | a :: as => d.brings a ++ (d.serve a).2.coming as

open Connection (SameFar)

variable {d : Desk} {a : Act} {as : List Act} {u : Use} {change : Connection.Change}
variable {r : LineReader} {result : Stream.LineResult} {s : Stream} {ws : Connections}
variable {maxLength bound limit : Nat}

inductive Reads (d : Desk) (r : LineReader) : Answer × Desk → Prop
  | waits (dry : d.stream.pending.toList = []) : Reads d r (.waits, { d with reader := some r })
  | refused {cause : Error} {s : Stream} {ws : Connections} (far : d.wire.SameFar (ws.get s.wire))
      (spares : d.stream.pending.toList ≠ [] → ws.get s.wire = d.wire)
      (rest : s.content ws <:+ d.stream.content d.wires) :
    Reads d r (.refused cause, { stream := s, wires := ws })
  | line {text : String} {s : Stream} {ws : Connections} (far : d.wire.SameFar (ws.get s.wire))
      (spares : d.stream.pending.toList ≠ [] → ws.get s.wire = d.wire)
      (line : Bytes.newline ∉ r.held →
        (r.held ++ d.stream.content d.wires).Splits text (s.content ws)) :
    Reads d r (.line text, { stream := s, wires := ws })
  | part {r' : LineReader} {s : Stream} {ws : Connections} (far : d.wire.SameFar (ws.get s.wire))
      (spares : d.stream.pending.toList ≠ [] → ws.get s.wire = d.wire)
      (rest : s.content ws <:+ d.stream.content d.wires)
      (clean : Bytes.newline ∉ r.held → Bytes.newline ∉ r'.held)
      (same : r'.held ++ s.content ws = r.held ++ d.stream.content d.wires) :
    Reads d r (.part, { stream := s, wires := ws, reader := some r' })

theorem readOn_reads (d : Desk) (r : LineReader) (maxLength : Nat) :
    d.Reads r (d.readOn maxLength r) := by
  unfold readOn
  split
  case h_1 read => exact .waits (Stream.pending_of_read (.inl read))
  case h_2 read => exact .refused (.refl _) (fun _ => rfl) (List.suffix_refl _)
  case h_3 read =>
    exact .refused (Stream.sameFar_read read) (Stream.spares_of_read read)
      ⟨[], (Stream.read_done read).content.symm⟩
  case h_4 bs s ws _ read =>
    have far := Stream.sameFar_read read
    have spares := Stream.spares_of_read read
    have content := (Stream.read_done read).content
    split
    case h_1 text rest push =>
      obtain ⟨l, rfl, hl, spells⟩ := LineReader.push_line push
      refine .line far spares fun clean => ⟨r.held ++ l, by simp [clean, hl], spells, ?_⟩
      rw [content, Stream.content_unread]
      simp
    case h_2 => exact .refused far spares ⟨bs, content.symm⟩
    case h_3 r' push =>
      obtain ⟨held, hb⟩ := LineReader.push_incomplete push
      refine .part far spares ⟨bs, content.symm⟩ (fun clean => by simp [held, clean, hb]) ?_
      rw [held, content, List.append_assoc]

theorem readLineOn_succ : Stream.readLineOn maxLength (bound + 1) r d.stream d.wires =
    match d.readOn maxLength r with
    | (.part, e) => Stream.readLineOn maxLength bound (e.reader.getD {}) e.stream e.wires
    | (.line text, e) => (.line text, e.stream, e.wires)
    | (.refused cause, e) => (.fails cause, e.stream, e.wires)
    | (_, e) => (.waits, e.stream, e.wires) := by
  rw [Stream.readLineOn]
  unfold readOn
  cases d.stream.read d.wires r.room
  case waits | fails => rfl
  case done p =>
    obtain ⟨bs, s, ws⟩ := p
    cases bs
    case nil => rfl
    case cons b bs =>
      simp only
      cases r.push maxLength (b :: bs) <;> rfl

-- A line that is read at one go is all that reading it takes, together with its newline. If the line is
-- not to be had, nothing is taken but bytes at the front.
theorem readLineOn_takes (clean : Bytes.newline ∉ r.held)
    (h : Stream.readLineOn maxLength bound r d.stream d.wires = (result, s, ws)) :
    d.wire.SameFar (ws.get s.wire) ∧
    ((∃ text, result = .line text ∧
        (r.held ++ d.stream.content d.wires).Splits text (s.content ws)) ∨
      (result = .waits ∨ ∃ cause, result = .fails cause) ∧
        s.content ws <:+ d.stream.content d.wires) := by
  induction bound generalizing d r
  case zero =>
    cases h
    exact ⟨.refl _, .inr ⟨.inl rfl, List.suffix_refl _⟩⟩
  case succ bound hi =>
    have reads := d.readOn_reads r maxLength
    rw [readLineOn_succ] at h
    generalize d.readOn maxLength r = x at reads h
    cases reads
    case waits =>
      cases h
      exact ⟨.refl _, .inr ⟨.inl rfl, List.suffix_refl _⟩⟩
    case refused far _ rest =>
      cases h
      exact ⟨far, .inr ⟨.inr ⟨_, rfl⟩, rest⟩⟩
    case line far _ line =>
      cases h
      exact ⟨far, .inl ⟨_, rfl, line clean⟩⟩
    case part far _ rest clean' same =>
      obtain ⟨far', takes⟩ := hi (clean' clean) h
      refine ⟨far.trans far', ?_⟩
      obtain ⟨text, hr, line⟩ | ⟨hr, rest'⟩ := takes
      · exact .inl ⟨text, hr, same ▸ line⟩
      · exact .inr ⟨hr, rest'.trans rest⟩

@[elab_as_elim]
theorem settle_cases {α : Type} {motive : Answer × Desk → Prop} {t : Attempt α}
    {f : α → Answer × Desk} (waits : t = .waits → motive (.waits, d))
    (fails : ∀ e, t = .fails e → motive (.fails e, d))
    (done : ∀ p, t = .done p → motive (f p)) : motive (d.settle t f) := by
  cases t
  case waits   => exact waits rfl
  case fails e => exact fails e rfl
  case done p  => exact done p rfl

theorem sameFar_perform : d.wire.SameFar (d.perform u).2.wire := by
  cases u <;> simp only [perform]
  case unread   => exact .refl _
  case readLine => exact (readLineOn_takes (r := {}) List.not_mem_nil rfl).left
  all_goals refine settle_cases (fun _ => .refl _) (fun _ _ => .refl _) fun _ h => ?_
  case fill  => exact Stream.sameFar_fill h
  case read  => exact Stream.sameFar_read h
  case write => exact Stream.sameFar_write h
  case close => exact Stream.sameFar_close h

theorem Reads.sameFar {x : Answer × Desk} (h : d.Reads r x) : d.wire.SameFar x.2.wire := by
  cases h
  case waits                                               => exact .refl _
  case refused far _ _ | line far _ _ | part far _ _ _ _   => exact far

theorem Reads.clean {x : Answer × Desk} (h : d.Reads r x) (clean : Bytes.newline ∉ r.held)
    {r' : LineReader} (hr : x.2.reader = some r') : Bytes.newline ∉ r'.held := by
  cases h <;> cases hr
  case waits                 => exact clean
  case part _ _ _ clean' _   => exact clean' clean

def Ended (d : Desk) : Prop := d.wire.farShut = true ∨ d.wire.farGone = true

theorem wire_far (d : Desk) (change : Connection.Change) :
    (d.serve (.far change)).2.wire = (d.wire.apply change).toOption.getD d.wire ∨
      (d.serve (.far change)).2.wire = d.wire ∧ d.wire = Connections.nowhere := by
  by_cases hw : d.stream.wire < d.wires.length
  case pos => exact .inl (Connections.get_update_self hw)
  case neg =>
    have hw := Nat.le_of_not_lt hw
    have same : (d.serve (.far change)).2.wire = d.wire := by
      simp only [serve, wire, Connections.update_of_length_le hw]
    exact .inr ⟨same, Connections.get_of_length_le hw⟩

theorem inbox_far :
    (d.serve (.far change)).2.wire.inbox = d.wire.inbox ++ d.brings (.far change) := by
  obtain h | ⟨h, gone⟩ := d.wire_far change <;> rw [h]
  case inl =>
    cases change
    case send bs =>
      simp only [brings, Connection.apply, Connection.send]
      (repeat' split) <;> simp_all [Except.toOption, Except.isOk, Except.toBool]
    all_goals exact (List.append_nil _).symm
  case inr =>
    cases change
    case send bs =>
      simp [brings, gone, Connection.send, Connections.nowhere, Except.isOk, Except.toBool]
    all_goals exact (List.append_nil _).symm

theorem limit_far (steady : change ≠ .limit (some 0)) (moves : d.wire.pieceLimit ≠ some 0) :
    (d.serve (.far change)).2.wire.pieceLimit ≠ some 0 := by
  obtain h | ⟨h, -⟩ := d.wire_far change <;> rw [h]
  case inr => exact moves
  case inl =>
    cases change
    case send bs =>
      simp only [Connection.apply, Connection.send]
      (repeat' split) <;> exact moves
    case limit n => exact fun hn => steady (congrArg _ hn)
    all_goals exact moves

theorem ended_far (h : d.Ended) : (d.serve (.far change)).2.Ended := by
  unfold Ended
  obtain hw | ⟨hw, -⟩ := d.wire_far change <;> rw [hw]
  case inr => exact h
  case inl =>
    cases change
    case send bs =>
      simp only [Connection.apply, Connection.send]
      (repeat' split) <;> exact h
    case shut => exact .inl rfl
    case drop => exact .inr rfl
    all_goals exact h

theorem ended_serve (h : d.Ended) : (d.serve a).2.Ended := by
  have alike {d' : Desk} (far : d.wire.SameFar d'.wire) : d'.Ended := by
    rwa [Ended, far.shut, far.gone]
  cases a
  case use u =>
    rw [serve]
    split
    case isTrue  => exact h
    case isFalse => exact alike sameFar_perform
  case awaitLine => exact alike (readOn_reads ..).sameFar
  case giveUp    => exact h
  case far       => exact ended_far h

theorem brings_of_ended (h : d.Ended) : d.brings a = [] := by
  unfold brings
  split
  case h_2 => rfl
  case h_1 bs =>
    have unsent : ¬ (d.wire.send bs).isOk := by
      unfold Connection.send
      obtain h | h := h <;> (repeat' split) <;> simp_all [Except.isOk, Except.toBool]
    rw [if_neg unsent]

theorem coming_of_ended (h : d.Ended) : d.coming as = [] := by
  induction as generalizing d
  case nil => rfl
  case cons a as hi => rw [coming, brings_of_ended h, hi (ended_serve h), List.append_nil]

structure Sound (d : Desk) : Prop where
  clean : ∀ {r}, d.reader = some r → Bytes.newline ∉ r.held
  moves : d.wire.pieceLimit ≠ some 0

theorem Sound.of_free (free : d.reader = none) (moves : d.wire.pieceLimit ≠ some 0) : d.Sound where
  clean hr := by cases free.symm.trans hr
  moves    := moves

theorem Sound.clean_getD (h : d.Sound) : Bytes.newline ∉ (d.reader.getD {}).held := by
  cases hr : d.reader
  case none   => exact List.not_mem_nil
  case some r => exact h.clean hr

theorem reader_perform : (d.perform u).2.reader = d.reader := by
  cases u <;> simp only [perform]
  case fill | read | write | close => exact settle_cases (fun _ => rfl) (fun _ _ => rfl) fun _ _ => rfl

theorem Sound.serve (h : d.Sound) (steady : a ≠ .far (.limit (some 0))) : (d.serve a).2.Sound := by
  have moves {d' : Desk} (far : d.wire.SameFar d'.wire) : d'.wire.pieceLimit ≠ some 0 :=
    far.limit ▸ h.moves
  cases a
  case use u =>
    rw [Desk.serve]
    split
    case isTrue  => exact h
    case isFalse => exact ⟨fun hr => h.clean (reader_perform.symm.trans hr), moves sameFar_perform⟩
  case awaitLine => exact ⟨(readOn_reads ..).clean h.clean_getD, moves (readOn_reads ..).sameFar⟩
  case giveUp    => exact .of_free rfl h.moves
  case far       => exact ⟨h.clean, limit_far (fun hc => steady (congrArg _ hc)) h.moves⟩

end Desk
end Rendezvous
