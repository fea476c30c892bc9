import Rendezvous.Proofs.StreamRuns

namespace Rendezvous

def Desk.Awaits : Desk.Act × Desk.Answer → Prop
  | (.awaitLine _, answer) => answer = .part ∨ answer = .waits
  | (.far _, _)            => True
  | _                      => False

structure Supply where
  -- Read of a line that is being waited for.
  held : Option Bytes := none
  ahead : Bytes
  due : Bytes
deriving DecidableEq

namespace Supply

open Desk

-- All that is still to be read. A line that is waited for is read once it is complete.
def content (q : Supply) : Bytes := q.held.getD [] ++ q.ahead ++ q.due

-- What an act and what comes of it do to a queue of bytes.
inductive Step : Act → Answer → Supply → Supply → Prop
  | unread {bs ahead due : Bytes} :
    Step (.use (.unread bs)) .done ⟨none, ahead, due⟩ ⟨none, bs ++ ahead, due⟩
  | fill {bs ahead due : Bytes} {limit : Nat} (fits : bs.length ≤ limit) :
    Step (.use (.fill limit)) (.count bs.length) ⟨none, ahead, bs ++ due⟩ ⟨none, ahead ++ bs, due⟩
  | fillStays {answer : Answer} {ahead due : Bytes} {limit : Nat}
      (stays : answer = .waits ∨ ∃ e, answer = .fails e) :
    Step (.use (.fill limit)) answer ⟨none, ahead, due⟩ ⟨none, ahead, due⟩
  | readAhead {bs ahead due : Bytes} {limit : Nat} (there : bs ++ ahead ≠ [])
      (fits : bs.length ≤ limit) (yields : 0 < limit → bs ≠ []) :
    Step (.use (.read limit)) (.bytes bs) ⟨none, bs ++ ahead, due⟩ ⟨none, ahead, due⟩
  | readDue {bs due : Bytes} {limit : Nat} (fits : bs.length ≤ limit)
      (ends : 0 < limit → bs = [] → due = []) :
    Step (.use (.read limit)) (.bytes bs) ⟨none, [], bs ++ due⟩ ⟨none, [], due⟩
  | readStays {answer : Answer} {due : Bytes} {limit : Nat}
      (stays : answer = .waits ∨ ∃ e, answer = .fails e) :
    Step (.use (.read limit)) answer ⟨none, [], due⟩ ⟨none, [], due⟩
  | readLine {text : String} {ahead ahead' due due' : Bytes} {maxLength : Nat}
      (line : (ahead ++ due).Splits text (ahead' ++ due')) :
    Step (.use (.readLine maxLength)) (.line text) ⟨none, ahead, due⟩ ⟨none, ahead', due'⟩
  -- What was read of a line that is not to be had is lost, but nothing behind that.
  | readPart {answer : Answer} {ahead ahead' due due' : Bytes} {maxLength : Nat}
      (lacks : answer = .waits ∨ ∃ cause, answer = .refused cause)
      (rest : ahead' ++ due' <:+ ahead ++ due) :
    Step (.use (.readLine maxLength)) answer ⟨none, ahead, due⟩ ⟨none, ahead', due'⟩
  | line {text : String} {q : Supply} {ahead due : Bytes} {maxLength : Nat}
      (spares : q.ahead ≠ [] → due = q.due) (line : q.content.Splits text (ahead ++ due)) :
    Step (.awaitLine maxLength) (.line text) q ⟨none, ahead, due⟩
  | part {q : Supply} {held ahead due : Bytes} {maxLength : Nat}
      (spares : q.ahead ≠ [] → due = q.due) (content : q.content = held ++ ahead ++ due) :
    Step (.awaitLine maxLength) .part q ⟨some held, ahead, due⟩
  | waits {held : Option Bytes} {due : Bytes} {maxLength : Nat} :
    Step (.awaitLine maxLength) .waits ⟨held, [], due⟩ ⟨some (held.getD []), [], due⟩
  | refused {cause : Error} {q : Supply} {ahead due : Bytes} {maxLength : Nat}
      (spares : q.ahead ≠ [] → due = q.due) (rest : ahead ++ due <:+ q.content) :
    Step (.awaitLine maxLength) (.refused cause) q ⟨none, ahead, due⟩
  | giveUp {held : Option Bytes} {ahead due : Bytes} :
    Step .giveUp .done ⟨held, ahead, due⟩ ⟨none, ahead, due⟩
  | write {bs : Bytes} {answer : Answer} {ahead due : Bytes} :
    Step (.use (.write bs)) answer ⟨none, ahead, due⟩ ⟨none, ahead, due⟩
  | close {answer : Answer} {ahead due : Bytes} :
    Step (.use .close) answer ⟨none, ahead, due⟩ ⟨none, ahead, due⟩
  | far {change : Connection.Change} {q : Supply} : Step (.far change) .done q q
  | busy {u : Use} {held ahead due : Bytes} :
    Step (.use u) .busy ⟨some held, ahead, due⟩ ⟨some held, ahead, due⟩

inductive Run : List (Act × Answer) → Supply → Supply → Prop
  | nil {q : Supply} : Run [] q q
  | cons {a : Act} {answer : Answer} {log : List (Act × Answer)} {q q₁ q₂ : Supply}
      (step : Step a answer q q₁) (run : Run log q₁ q₂) : Run ((a, answer) :: log) q q₂

section

variable {a : Act} {answer : Answer} {log : List (Act × Answer)} {q q' : Supply} {text : String}
variable {maxLength : Nat}

theorem Step.content_eq (h : Step a answer q q') (awaits : Awaits (a, answer)) :
    q'.content = q.content := by
  cases h
  case part _ content => exact content.symm
  case waits | far    => rfl
  case line | refused => obtain h | h := awaits <;> cases h
  all_goals exact awaits.elim

-- A line that has been waited for was the first that there was to read all along.
theorem Run.splits (run : Run (log ++ [(.awaitLine maxLength, .line text)]) q q')
    (awaits : ∀ x ∈ log, Awaits x) : q.content.Splits text q'.content := by
  induction log generalizing q
  case nil =>
    obtain _ | ⟨step, rest⟩ := run
    cases rest
    cases step
    case line _ line => exact line
  case cons x log hi =>
    obtain _ | ⟨step, rest⟩ := run
    have rest := hi rest fun x hx => awaits x (List.mem_cons_of_mem _ hx)
    rwa [step.content_eq (awaits _ List.mem_cons_self)] at rest

end

end Supply

namespace Desk

variable {d : Desk} {a : Act} {as : List Act} {u : Use} {more : Bytes} {maxLength limit : Nat}

def seen (d : Desk) (more : Bytes) : Supply where
  held  := d.reader.map LineReader.held
  ahead := d.stream.pending.toList
  due   := d.wire.inbox ++ more

def supply (d : Desk) (as : List Act) : Supply := d.seen (d.coming as)

theorem content_seen : (d.seen more).content =
    (d.reader.getD {}).held ++ d.stream.content d.wires ++ more := by
  cases hr : d.reader <;> simp [seen, Supply.content, Stream.content, wire, hr]
  rfl

section

open Supply (Step)

variable {s : Stream} {ws : Connections}

theorem seen_free : seen { stream := s, wires := ws } more =
    ⟨none, s.pending.toList, (ws.get s.wire).inbox ++ more⟩ := rfl

theorem step_unread {bs : Bytes} :
    Step (.use (.unread bs)) (perform { stream := s, wires := ws } (.unread bs)).1
      (seen { stream := s, wires := ws } more)
      ((perform { stream := s, wires := ws } (.unread bs)).2.seen more) := by
  rw [perform, seen_free, seen_free, Stream.unread, ByteQueue.toList_prepend]
  exact .unread

theorem step_fill :
    Step (.use (.fill limit)) (perform { stream := s, wires := ws } (.fill limit)).1
      (seen { stream := s, wires := ws } more)
      ((perform { stream := s, wires := ws } (.fill limit)).2.seen more) := by
  rw [perform]
  refine settle_cases (fun _ => .fillStays (.inl rfl)) (fun e _ => .fillStays (.inr ⟨e, rfl⟩)) ?_
  intro p h
  obtain ⟨bs, size, fits, ahead, inbox⟩ := Stream.fill_parts h
  rw [seen_free, seen_free, ahead, inbox, List.append_assoc, ← size]
  exact .fill (size ▸ fits)

theorem step_read (moves : (ws.get s.wire).pieceLimit ≠ some 0)
    (ends : Ended { stream := s, wires := ws } → more = []) :
    Step (.use (.read limit)) (perform { stream := s, wires := ws } (.read limit)).1
      (seen { stream := s, wires := ws } more)
      ((perform { stream := s, wires := ws } (.read limit)).2.seen more) := by
  rw [perform]
  refine settle_cases (fun h => ?_) (fun e h => ?_) (fun p h => ?_) <;> rw [seen_free]
  case refine_1 =>
    rw [Stream.pending_of_read (.inl h)]
    exact .readStays (.inl rfl)
  case refine_2 =>
    rw [Stream.pending_of_read (.inr ⟨e, h⟩)]
    exact .readStays (.inr ⟨e, rfl⟩)
  case refine_3 =>
    have fits := Stream.length_read h
    rw [seen_free]
    obtain ⟨there, ahead, yields, same⟩ | ⟨dry, dry', inbox⟩ := Stream.read_parts h
    case inl =>
      rw [same, ahead]
      exact .readAhead (ahead ▸ there) fits yields
    case inr =>
      rw [dry, dry', inbox, List.append_assoc]
      refine .readDue fits fun hl hb => ?_
      obtain ⟨content, ended⟩ := Stream.read_nil h hb hl moves
      have empty : (p.2.2.get p.2.1.wire).inbox = [] := by
        rw [Stream.content, dry, inbox, hb] at content
        exact content
      rw [empty, ends ended, List.append_nil]

theorem content_append : s.pending.toList ++ ((ws.get s.wire).inbox ++ more) =
    s.content ws ++ more := (List.append_assoc ..).symm

theorem step_readLine :
    Step (.use (.readLine maxLength)) (perform { stream := s, wires := ws } (.readLine maxLength)).1
      (seen { stream := s, wires := ws } more)
      ((perform { stream := s, wires := ws } (.readLine maxLength)).2.seen more) := by
  rw [perform]
  rcases h : s.readLine maxLength ws with ⟨result, s', ws'⟩
  obtain ⟨-, ⟨text, rfl, line⟩ | ⟨lacks, bs, taken⟩⟩ :=
    readLineOn_takes (d := { stream := s, wires := ws }) (r := {}) List.not_mem_nil h
  case inl =>
    have line := line.append more
    simp only [List.append_assoc, ← content_append] at line
    exact .readLine line
  case inr =>
    have rest : s'.pending.toList ++ ((ws'.get s'.wire).inbox ++ more) <:+
        s.pending.toList ++ ((ws.get s.wire).inbox ++ more) :=
      ⟨bs, by rw [content_append, content_append, ← taken, List.append_assoc]⟩
    obtain rfl | ⟨cause, rfl⟩ := lacks
    · exact .readPart (.inl rfl) rest
    · exact .readPart (.inr ⟨cause, rfl⟩) rest

theorem step_awaitLine (clean : Bytes.newline ∉ (d.reader.getD {}).held) :
    Step (.awaitLine maxLength) (d.readOn maxLength (d.reader.getD {})).1 (d.seen more)
      ((d.readOn maxLength (d.reader.getD {})).2.seen more) := by
  have reads := d.readOn_reads (d.reader.getD {}) maxLength
  generalize d.readOn maxLength (d.reader.getD {}) = x at reads
  -- The connection brings as much as before.
  have same {s : Stream} {ws : Connections} (h : ws.get s.wire = d.wire) :
      (ws.get s.wire).inbox ++ more = d.wire.inbox ++ more := by rw [h]
  cases reads
  case waits dry =>
    rw [seen, seen, dry]
    cases d.reader <;> exact .waits
  case refused _ spares rest =>
    obtain ⟨bs, taken⟩ := rest
    refine .refused (same ∘ spares) ⟨(d.reader.getD {}).held ++ bs, ?_⟩
    rw [content_seen, ← taken]
    simp only [List.append_assoc, ← content_append]
    rfl
  case line text s ws _ spares line =>
    have line := (line clean).append more
    rw [← content_seen, ← content_append] at line
    exact .line (same ∘ spares) line
  case part r' s ws _ spares _ _ kept =>
    refine .part (same ∘ spares) ?_
    rw [content_seen, ← kept, List.append_assoc, List.append_assoc, ← content_append]
    rfl

theorem step_write {bs : Bytes} :
    Step (.use (.write bs)) (perform { stream := s, wires := ws } (.write bs)).1
      (seen { stream := s, wires := ws } more)
      ((perform { stream := s, wires := ws } (.write bs)).2.seen more) := by
  rw [perform]
  refine settle_cases (fun _ => .write) (fun _ _ => .write) fun p h => ?_
  rw [seen_free, seen_free, Stream.inbox_write h]
  exact .write

theorem step_close :
    Step (.use .close) (perform { stream := s, wires := ws } .close).1
      (seen { stream := s, wires := ws } more)
      ((perform { stream := s, wires := ws } .close).2.seen more) := by
  rw [perform]
  refine settle_cases (fun _ => .close) (fun _ _ => .close) fun p h => ?_
  rw [seen_free, seen_free, (Stream.close_done h).inbox]
  exact .close

theorem step_use (sound : d.Sound) (ends : d.Ended → more = []) :
    Step (.use u) (d.serve (.use u)).1 (d.seen more) ((d.serve (.use u)).2.seen more) := by
  obtain ⟨s, ws, reader⟩ := d
  cases reader
  case some r => exact .busy
  case none =>
    cases u
    case unread   => exact step_unread
    case fill     => exact step_fill
    case read     => exact step_read sound.moves ends
    case readLine => exact step_readLine
    case write    => exact step_write
    case close    => exact step_close

-- Whatever is done to a stream is done to the queue of bytes.
theorem step_serve (sound : d.Sound) :
    Step a (d.serve a).1 (d.supply (a :: as)) ((d.serve a).2.supply as) := by
  have ends : d.Ended → (d.serve a).2.coming as = [] := fun h => coming_of_ended (ended_serve h)
  cases a
  case use u     => exact step_use sound ends
  case awaitLine => exact step_awaitLine sound.clean_getD
  case giveUp    => exact .giveUp
  case far change =>
    have same : d.supply (.far change :: as) = (d.serve (.far change)).2.supply as := by
      rw [supply, supply, seen, seen, inbox_far, coming, List.append_assoc]
      rfl
    exact same ▸ .far

end

theorem run_supply (sound : d.Sound) (steady : .far (.limit (some 0)) ∉ as) :
    Supply.Run (d.run as).1 (d.supply as) ((d.run as).2.supply []) := by
  induction as generalizing d
  case nil => exact .nil
  case cons a as hi =>
    rw [List.mem_cons, not_or] at steady
    exact .cons (step_serve sound) (hi (sound.serve (Ne.symm steady.left)) steady.right)

-- The first line of what there is to read has come in full, is not too long, and spells a text. The
-- connection does not fail, or the line was read ahead.
structure Offers (d : Desk) (maxLength : Nat) (text : String) (rest : Bytes) : Prop where
  free : d.reader = none
  line : ∃ l, Bytes.newline ∉ l ∧ l.length ≤ maxLength ∧ Bytes.text? l = some text ∧
    d.stream.content d.wires = l ++ Bytes.newline :: rest ∧
    (d.wire.readFault = none ∨ l ++ [Bytes.newline] <+: d.stream.pending.toList)

theorem Offers.readLine {rest : Bytes} (h : d.Offers maxLength text rest) (sound : d.Sound) :
    ∃ e : Desk, d.serve (.use (.readLine maxLength)) = (.line text, e) ∧
      e.stream.content e.wires = rest := by
  obtain ⟨free, l, whole, fits, spells, content, reached⟩ := h
  have awaits : LineReader.Awaits maxLength {} text l := ⟨whole, by simpa using fits, spells⟩
  suffices h : ∃ s ws, d.stream.readLine maxLength d.wires = (.line text, s, ws) ∧ s.content ws = rest by
    obtain ⟨s, ws, read, left⟩ := h
    refine ⟨{ stream := s, wires := ws, reader := d.reader }, ?_, left⟩
    simp [serve, free, perform, read, Answer.ofLine]
  obtain sound' | ⟨ahead, pending⟩ := reached
  case inl =>
    obtain ⟨s, ws, read, left, -⟩ :=
      Stream.readLineOn_line awaits ⟨sound', sound.moves⟩ content (Nat.lt_succ_self _)
    exact ⟨s, ws, read, left⟩
  case inr =>
    rw [List.append_assoc, List.singleton_append] at pending
    have short : l.length < (d.stream.content d.wires).length + 1 := by
      rw [content, List.length_append]
      omega
    obtain ⟨s, read, wire, left⟩ := Stream.readLineOn_ahead awaits pending.symm short
    refine ⟨s, d.wires, read, ?_⟩
    rw [Stream.content, ← pending, List.append_assoc, List.cons_append] at content
    rw [Stream.content, left, wire]
    exact (List.cons.inj (List.append_cancel_left content)).right

theorem Sound.run (sound : d.Sound) (steady : .far (.limit (some 0)) ∉ as) : (d.run as).2.Sound := by
  induction as generalizing d
  case nil => exact sound
  case cons a as hi =>
    rw [List.mem_cons, not_or] at steady
    exact hi (sound.serve (Ne.symm steady.left)) steady.right

-- A stream is a queue of bytes to its holder: what was read ahead, and behind it what the connection has
-- yet to bring. That holds of everything that may be done to the stream, in any order, as long as reads
-- of the connection move bytes until it has come to its end. A line that the holder has waited for is
-- the first line of what there was to read when it began to wait, and what follows is still there. A line
-- that has come is had at once, and what follows is there as well.
theorem stream_is_byte_queue (s : Stream) (ws : Connections) (as : List Act)
    (moves : (ws.get s.wire).pieceLimit ≠ some 0) (steady : .far (.limit (some 0)) ∉ as) :
    let d : Desk := { stream := s, wires := ws }
    Supply.Run (d.run as).1 (d.supply as) ((d.run as).2.supply []) ∧
    (∀ log maxLength text, (d.run as).1 = log ++ [(.awaitLine maxLength, .line text)] →
      (∀ x ∈ log, Awaits x) →
      (s.content ws ++ d.coming as).Splits text ((d.run as).2.supply []).content) ∧
    ∀ maxLength text rest, (d.run as).2.Offers maxLength text rest →
      ∃ e : Desk, (d.run as).2.serve (.use (.readLine maxLength)) = (.line text, e) ∧
        e.stream.content e.wires = rest := by
  intro d
  have sound : d.Sound := .of_free rfl moves
  have run := run_supply sound steady
  refine ⟨run, fun log maxLength text line awaits => ?_, fun maxLength text rest offers =>
    offers.readLine (sound.run steady)⟩
  have splits := (line ▸ run).splits awaits
  rwa [supply, content_seen] at splits

def partAhead : Stream := { wire := 0, pending := .ofList [104, 105] }

def laterLine : List Act := [.awaitLine 8, .far (.send [33, 10, 120, 10]), .awaitLine 8]

theorem stream_is_byte_queue_laterLine :
    (Connections.get [{}] partAhead.wire).pieceLimit ≠ some 0 ∧
    .far (.limit (some 0)) ∉ laterLine ∧
    Supply.Run
      [(.awaitLine 8, .part), (.far (.send [33, 10, 120, 10]), .done), (.awaitLine 8, .line "hi!")]
      ⟨none, [104, 105], [33, 10, 120, 10]⟩ ⟨none, [120, 10], []⟩ ∧
    Bytes.Splits [104, 105, 33, 10, 120, 10] "hi!" [120, 10] ∧
    ∃ e : Desk, (run { stream := partAhead, wires := [{}] } laterLine).2.serve (.use (.readLine 8)) =
      (.line "x", e) ∧ e.stream.content e.wires = [] := by
  have moves : (Connections.get [{}] partAhead.wire).pieceLimit ≠ some 0 := by decide
  have steady : .far (.limit (some 0)) ∉ laterLine := by decide
  have log : (run { stream := partAhead, wires := [{}] } laterLine).1 =
      [(.awaitLine 8, .part), (.far (.send [33, 10, 120, 10]), .done), (.awaitLine 8, .line "hi!")] := by
    decide +kernel
  have first : supply { stream := partAhead, wires := [{}] } laterLine =
      ⟨none, [104, 105], [33, 10, 120, 10]⟩ := by decide +kernel
  have last : (run { stream := partAhead, wires := [{}] } laterLine).2.supply [] =
      ⟨none, [120, 10], []⟩ := by decide +kernel
  have offers : (run { stream := partAhead, wires := [{}] } laterLine).2.Offers 8 "x" [] := by
    refine ⟨rfl, [120], by decide, by decide, by decide +kernel, by decide +kernel, .inr ?_⟩
    decide +kernel
  obtain ⟨run, splits, whole⟩ := stream_is_byte_queue partAhead [{}] laterLine moves steady
  have splits := splits [(.awaitLine 8, .part), (.far (.send [33, 10, 120, 10]), .done)] 8 "hi!" log
    (by simp [Awaits])
  rw [log, first, last] at run
  rw [last] at splits
  exact ⟨moves, steady, run, splits, whole 8 "x" [] offers⟩

end Desk
end Rendezvous
