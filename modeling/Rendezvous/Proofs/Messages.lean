import Rendezvous.WebSocket.ByteView

namespace Rendezvous.WebSocket

inductive Ending where
  | closed
  | failed (cause : Fault)
deriving DecidableEq

namespace Endpoint.Event

def data : Event → Bytes
  | message (.text s) => Bytes.ofText s
  | message (.binary bs) => bs
  | _ => []

def ending? : Event → Option Ending
  | message (.close _) => some .closed
  | failed e => some (if e.isClosed then .closed else .failed (e.toFault .unexpectedEof))
  | ended => some .closed
  | _ => none

variable {ev : Event} {a : Arrival}

theorem eq_waits (h : ev.arrival? = none) : ev = .waits := by
  cases ev
  case waits          => rfl
  case message m      => cases m <;> cases h
  case failed | ended => cases h

-- What an event is to a reader that does not have to wait: it goes on with some bytes or none, or is at
-- the end.
theorem cases_arrival (h : ev.arrival? = some a) :
    (ev ≠ .waits ∧ ev.ending? = none ∧ (a = .data ev.data ∨ a = .control ∧ ev.data = [])) ∨
    (a = .closed ∧ ev.ending? = some .closed) ∨
    ∃ e, a = .failed e ∧ ev.ending? = some (.failed (e.toFault .unexpectedEof)) := by
  cases ev
  case waits => cases h
  case message m =>
    cases m <;> cases h
    case text | binary => exact .inl ⟨by simp, rfl, .inl rfl⟩
    case ping | pong   => exact .inl ⟨by simp, rfl, .inr ⟨rfl, rfl⟩⟩
    case close         => exact .inr <| .inl ⟨rfl, rfl⟩
  case failed e =>
    simp only [arrival?] at h
    split at h <;> cases h
    case isTrue closed  => exact .inr <| .inl ⟨rfl, by simp [ending?, closed]⟩
    case isFalse broken => exact .inr <| .inr ⟨e, rfl, by simp [ending?, broken]⟩
  case ended =>
    cases h
    exact .inr <| .inl ⟨rfl, rfl⟩

end Endpoint.Event

variable {ev : Endpoint.Event} {evs : List Endpoint.Event} {e : Ending}

-- What events tell: the bytes before the first one that ends them, and how it does.
def told (evs : List Endpoint.Event) : Bytes × Option Ending :=
  ((evs.takeWhile (·.ending? = none)).flatMap Endpoint.Event.data, evs.findSome? Endpoint.Event.ending?)

def stalls (evs : List Endpoint.Event) : Nat :=
  (evs.takeWhile (·.ending? = none)).count .waits

theorem told_cons_of_none (h : ev.ending? = none) :
    told (ev :: evs) = (ev.data ++ (told evs).1, (told evs).2) := by
  simp [told, h]

theorem told_cons_of_some (h : ev.ending? = some e) : told (ev :: evs) = ([], some e) := by
  simp [told, h]

theorem stalls_cons_of_none (h : ev.ending? = none) (ne : ev ≠ .waits) :
    stalls (ev :: evs) = stalls evs := by
  simp [stalls, h, ne]

theorem stalls_waits : stalls (.waits :: evs) = stalls evs + 1 := by
  simp [stalls, Endpoint.Event.ending?]

-- What a reader has come to know: the bytes up to the first time that it was told of an end, and that end.
def seen : List (Attempt Bytes) → Bytes × Option Ending
  | [] => ([], none)
  | .waits :: as => seen as
  | .fails f :: _ => ([], some (.failed f))
  | .done [] :: _ => ([], some .closed)
  | .done bs :: as => (bs ++ (seen as).1, (seen as).2)

theorem seen_bytes {bs : Bytes} {as : List (Attempt Bytes)} (h : bs ≠ []) :
    seen (.done bs :: as) = (bs ++ (seen as).1, (seen as).2) := by
  cases bs
  case nil  => exact absurd rfl h
  case cons => rfl

def given : List Endpoint.Event → Option Arrival × List Endpoint.Event
  | [] => (none, [])
  | ev :: evs => (ev.arrival?, evs)

theorem given_cons {x : Option Arrival} (h : ev.arrival? = x) (evs : List Endpoint.Event) :
    given (ev :: evs) = (x, evs) :=
  Prod.ext h rfl

namespace ByteView

section

variable {σ : Type} {next : σ → Option Arrival × σ} {s s' : σ} {v : ByteView} {limit bound : Nat}
variable {p : Bytes × ByteView}

theorem readFrom_of_ready (h : v.ready? limit = some p) :
    readFrom next limit bound v s = (.done p.1, p.2, s) := by
  rw [readFrom.eq_def]
  simp only [h]

theorem readFrom_zero (h : v.ready? limit = none) : readFrom next limit 0 v s = (.waits, v, s) := by
  rw [readFrom.eq_def]
  simp only [h]

theorem readFrom_of_none (h : v.ready? limit = none) (hn : next s = (none, s')) :
    readFrom next limit (bound + 1) v s = (.waits, v, s') := by
  rw [readFrom.eq_def]
  simp only [h, hn]

theorem readFrom_of_ok {a : Arrival} {v' : ByteView} (h : v.ready? limit = none)
    (hn : next s = (some a, s')) (ht : v.take a = .ok v') :
    readFrom next limit (bound + 1) v s = readFrom next limit bound v' s' := by
  rw [readFrom.eq_def]
  simp only [h, hn, ht]

theorem readFrom_of_error {a : Arrival} {f : Fault} (h : v.ready? limit = none)
    (hn : next s = (some a, s')) (ht : v.take a = .error f) :
    readFrom next limit (bound + 1) v s = (.fails f, v, s') := by
  rw [readFrom.eq_def]
  simp only [h, hn, ht]

end

def readGiven (limit : Nat) (v : ByteView) (evs : List Endpoint.Event) :
    Attempt Bytes × ByteView × List Endpoint.Event :=
  readFrom given limit evs.length v evs

def reads (v : ByteView) (evs : List Endpoint.Event) : List Nat → List (Attempt Bytes)
  | [] => []
  | limit :: limits =>
    let (answer, v, evs) := v.readGiven limit evs
    answer :: v.reads evs limits

-- What is still to be read and how it will end.
def owed (v : ByteView) (evs : List Endpoint.Event) : Bytes × Option Ending :=
  if v.closed then (v.held, some .closed) else (v.held ++ (told evs).1, (told evs).2)

def waits (v : ByteView) (evs : List Endpoint.Event) : Nat := if v.closed then 0 else stalls evs

inductive Gets (limit : Nat) (v : ByteView) (evs : List Endpoint.Event) :
    Attempt Bytes × ByteView × List Endpoint.Event → Prop
  | bytes {bs v' evs'} (some : bs ≠ []) (within : bs.length ≤ limit)
      (owed : v.owed evs = (bs ++ (v'.owed evs').1, (v'.owed evs').2))
      (waits : v'.waits evs' = v.waits evs) : Gets limit v evs (.done bs, v', evs')
  | ended {v' evs'} (owed : v.owed evs = ([], some .closed)) (held : v'.held = [])
      (closed : v'.closed = true) : Gets limit v evs (.done [], v', evs')
  | fails {f v' evs'} (owed : v.owed evs = ([], some (.failed f))) :
      Gets limit v evs (.fails f, v', evs')
  | waits {v' evs'} (owed : v'.owed evs' = v.owed evs) (waits : v.waits evs = v'.waits evs' + 1) :
      Gets limit v evs (.waits, v', evs')
  | dry {v' evs'} (owed : v.owed evs = ([], none)) (owed' : v'.owed evs' = ([], none))
      (waits : v'.waits evs' = 0) : Gets limit v evs (.waits, v', evs')

variable {v v' : ByteView} {evs evs' : List Endpoint.Event} {limit : Nat} {limits : List Nat}

theorem gets_of_ready {p : Bytes × ByteView} (hl : 0 < limit) (h : v.ready? limit = some p) :
    Gets limit v evs (.done p.1, p.2, evs) := by
  unfold ready? at h
  split at h
  case isTrue held =>
    cases h
    refine .bytes (by simp [held, Nat.ne_of_gt hl]) (List.length_take_le ..) ?_ rfl
    simp only [owed]
    split <;> simp [← List.append_assoc]
  case isFalse held =>
    split at h <;> cases h
    case isTrue closed =>
      have held : v.held = [] := by simpa using held
      exact .ended (by simp [owed, closed, held]) held closed

theorem empty_of_ready?_none (h : v.ready? limit = none) : v.held = [] ∧ v.closed = false := by
  unfold ready? at h
  (repeat' split at h) <;> cases h
  simp_all

theorem ready?_of_closed (limit : Nat) (h : v.closed = true) : ∃ p, v.ready? limit = some p := by
  simp only [ready?, h]
  split <;> simp

theorem Gets.of_same {x : Attempt Bytes × ByteView × List Endpoint.Event} (g : Gets limit v evs x)
    (owed' : v'.owed evs' = v.owed evs) (waits' : v'.waits evs' = v.waits evs) :
    Gets limit v' evs' x := by
  cases g
  case bytes some within owed waits => exact .bytes some within (owed'.trans owed) (waits.trans waits'.symm)
  case ended owed held closed       => exact .ended (owed'.trans owed) held closed
  case fails owed                   => exact .fails (owed'.trans owed)
  case waits owed waits             => exact .waits (owed.trans owed'.symm) (waits'.trans waits)
  case dry owed owed'' waits        => exact .dry (owed'.trans owed) owed'' waits

theorem same_of_take {a : Arrival} (held : v.held = []) (closed : v.closed = false)
    (ha : ev.arrival? = some a) (ht : v.take a = .ok v') :
    v'.owed evs = v.owed (ev :: evs) ∧ v'.waits evs = v.waits (ev :: evs) := by
  obtain ⟨ne, goes, rfl | ⟨rfl, data⟩⟩ | ⟨rfl, ends⟩ | ⟨e, rfl, -⟩ := ev.cases_arrival ha
  all_goals cases ht
  · simp [owed, waits, closed, held, told_cons_of_none goes, stalls_cons_of_none goes ne]
  · simp [owed, waits, closed, told_cons_of_none goes, stalls_cons_of_none goes ne, data]
  · simp [owed, waits, closed, held, told_cons_of_some ends, stalls, ends]

theorem owed_of_take_error {a : Arrival} {f : Fault} (held : v.held = []) (closed : v.closed = false)
    (ha : ev.arrival? = some a) (ht : v.take a = .error f) :
    v.owed (ev :: evs) = ([], some (.failed f)) := by
  obtain ⟨-, -, rfl | ⟨rfl, -⟩⟩ | ⟨rfl, -⟩ | ⟨e, rfl, ends⟩ := ev.cases_arrival ha
  all_goals cases ht
  simp [owed, closed, held, told_cons_of_some ends]

theorem gets_of_waits (held : v.held = []) (closed : v.closed = false) :
    Gets limit v (.waits :: evs) (.waits, v, evs) := by
  have goes : Endpoint.Event.waits.ending? = none := rfl
  refine .waits ?_ ?_
  · simp [owed, closed, held, told_cons_of_none goes, Endpoint.Event.data]
  · simp [waits, closed, stalls_waits]

theorem readGiven_gets (hl : 0 < limit) (v : ByteView) (evs : List Endpoint.Event) :
    Gets limit v evs (v.readGiven limit evs) := by
  induction evs generalizing v
  all_goals
    cases ready : v.ready? limit
    case some p =>
      rw [readGiven, readFrom_of_ready ready]
      exact gets_of_ready hl ready
  case nil.none =>
    obtain ⟨held, closed⟩ := empty_of_ready?_none ready
    have owed : v.owed [] = ([], none) := by simp [owed, held, closed, told]
    rw [readGiven, List.length_nil, readFrom_zero ready]
    exact .dry owed owed (by simp [waits, closed, stalls])
  case cons.none ev evs hi =>
    obtain ⟨held, closed⟩ := empty_of_ready?_none ready
    rw [readGiven, List.length_cons]
    cases ha : ev.arrival?
    case none =>
      cases ev.eq_waits ha
      exact readFrom_of_none ready (given_cons ha evs) ▸ gets_of_waits held closed
    case some a =>
      cases taken : v.take a
      case error f =>
        rw [readFrom_of_error ready (given_cons ha evs) taken]
        exact .fails (owed_of_take_error held closed ha taken)
      case ok v' =>
        rw [readFrom_of_ok ready (given_cons ha evs) taken]
        obtain ⟨owed, waits⟩ := same_of_take held closed ha taken
        exact (hi v').of_same owed.symm waits.symm

-- A reader sees nothing but what there is to read, in order, and sees how it ends only behind all of it.
theorem seen_reads (hl : ∀ n ∈ limits, 0 < n) :
    (∃ n, seen (v.reads evs limits) = ((v.owed evs).1.take n, none)) ∨
      seen (v.reads evs limits) = v.owed evs := by
  induction limits generalizing v evs
  case nil => exact .inl ⟨0, rfl⟩
  case cons limit limits hi =>
    rw [List.forall_mem_cons] at hl
    have gets := readGiven_gets hl.left v evs
    rw [reads]
    generalize v.readGiven limit evs = x at gets
    cases gets
    case bytes bs v' evs' some _ owed _ =>
      rw [seen_bytes some, owed]
      obtain ⟨n, h⟩ | h := @hi v' evs' hl.right
      · exact .inl ⟨bs.length + n, by rw [h, List.take_length_add_append]⟩
      · exact .inr (by rw [h])
    case ended owed _ _ => exact .inr owed.symm
    case fails owed     => exact .inr owed.symm
    case waits owed _   => exact owed ▸ hi hl.right
    case dry owed owed' _ => exact owed ▸ owed' ▸ hi hl.right

def length (v : ByteView) (evs : List Endpoint.Event) : Nat :=
  (v.owed evs).1.length + v.waits evs + (v.owed evs).2.elim 0 fun _ => 1

theorem owed_of_length_zero (h : v.length evs = 0) : v.owed evs = ([], none) := by
  simp only [length] at h
  generalize v.owed evs = p at h ⊢
  obtain ⟨bs, e⟩ := p
  cases e
  case some => simp at h
  case none => simp_all

theorem seen_reads_of_length (hl : ∀ n ∈ limits, 0 < n) (enough : v.length evs ≤ limits.length) :
    seen (v.reads evs limits) = v.owed evs := by
  induction limits generalizing v evs
  case nil => exact (owed_of_length_zero (Nat.le_zero.mp enough)).symm
  case cons limit limits hi =>
    rw [List.forall_mem_cons] at hl
    rw [List.length_cons] at enough
    have gets := readGiven_gets hl.left v evs
    rw [reads]
    generalize v.readGiven limit evs = x at gets
    cases gets
    case bytes bs v' evs' some _ owed waits =>
      have nonempty := List.length_pos_iff.mpr some
      have shorter : v.length evs = bs.length + v'.length evs' := by
        simp only [length, owed, waits, List.length_append, Nat.add_assoc]
      rw [seen_bytes some, owed, hi hl.right (by omega)]
    case ended owed _ _ => exact owed.symm
    case fails owed     => exact owed.symm
    case waits v' evs' owed waits =>
      have shorter : v.length evs = v'.length evs' + 1 := by
        rw [length, length, owed, waits]
        omega
      rw [seen, hi hl.right (by omega), owed]
    case dry v' evs' owed owed' waits =>
      have none : v'.length evs' = 0 := by simp [length, owed', waits]
      rw [seen, hi hl.right (by omega), owed, owed']

theorem exists_reads (v : ByteView) (evs : List Endpoint.Event) (n : Nat) :
    ∃ limits : List Nat, (∀ n ∈ limits, 0 < n) ∧
      seen (v.reads evs limits) = ((v.owed evs).1.take n, none) := by
  induction h : n + v.waits evs using Nat.strongRecOn generalizing v evs n
  case ind total hi =>
    cases n
    case zero => exact ⟨[], by simp, by simp [reads, seen]⟩
    case succ n =>
      have gets := readGiven_gets Nat.one_pos v evs
      generalize read : v.readGiven 1 evs = x at gets
      cases gets
      case bytes bs v' evs' some within owed waits =>
        have single : bs.length = 1 := Nat.le_antisymm within (List.length_pos_iff.mpr some)
        obtain ⟨limits, hl, saw⟩ := hi (n + v'.waits evs') (by omega) v' evs' n rfl
        refine ⟨1 :: limits, by simpa using hl, ?_⟩
        rw [reads, read]
        simp only [seen_bytes some, saw, owed]
        rw [Nat.add_comm, ← single, List.take_length_add_append]
      case waits v' evs' owed waits =>
        obtain ⟨limits, hl, saw⟩ := hi (n + 1 + v'.waits evs') (by omega) v' evs' (n + 1) rfl
        refine ⟨1 :: limits, by simpa using hl, ?_⟩
        rw [reads, read]
        simp only [seen, saw, owed]
      case ended owed _ _ | fails owed | dry owed _ _ => exact ⟨[], by simp, by simp [reads, seen, owed]⟩

theorem reads_of_closed (held : v.held = []) (closed : v.closed = true) :
    v.reads evs limits = limits.map fun _ => .done [] := by
  induction limits
  case nil => rfl
  case cons limit limits hi =>
    have ready : v.ready? limit = some ([], v) := by simp [ready?, held, closed]
    simp only [reads, readGiven, readFrom_of_ready ready, List.map_cons, hi]

theorem eq_of_after_end {before after : List (Attempt Bytes)} (hl : ∀ n ∈ limits, 0 < n)
    (h : v.reads evs limits = before ++ .done [] :: after) : ∀ a ∈ after, a = .done [] := by
  induction limits generalizing v evs before
  case nil => simp [reads] at h
  case cons limit limits hi =>
    rw [List.forall_mem_cons] at hl
    have gets := readGiven_gets hl.left v evs
    rw [reads] at h
    generalize v.readGiven limit evs = x at gets h
    cases before
    case cons => exact hi hl.right (List.cons.inj h).right
    case nil =>
      obtain ⟨first, rest⟩ := List.cons.inj h
      cases gets
      case ended held closed =>
        rw [← rest, reads_of_closed held closed]
        simp
      case bytes some _ _ _ => exact absurd (Attempt.done.inj first) some
      case fails | waits | dry => cases first

section

variable {σ : Type} (poll : σ → Endpoint.Event × σ)

def arriving (s : σ) : Option Arrival × σ := ((poll s).1.arrival?, (poll s).2)

def noting (p : σ × List Endpoint.Event) : Option Arrival × σ × List Endpoint.Event :=
  ((poll p.1).1.arrival?, (poll p.1).2, p.2 ++ [(poll p.1).1])

def upon (limit bound : Nat) (v : ByteView) (s : σ) : List Endpoint.Event :=
  (readFrom (noting poll) limit bound v (s, [])).2.2.2

-- A read that takes notes is the same read, and unless its bound cuts it short, it makes of its source what
-- it would make of the events that it notes.
def Notes (limit bound : Nat) (v : ByteView) (s : σ) (evs : List Endpoint.Event) : Prop :=
  ∃ a v' t, readFrom (arriving poll) limit bound v s = (a, v', t) ∧
    (∀ noted, readFrom (noting poll) limit bound v (s, noted) = (a, v', t, noted ++ evs)) ∧
    (evs.length < bound → ∀ rest, v.readGiven limit (evs ++ rest) = (a, v', rest))

variable {poll} {s : σ} {bound : Nat} {a : Arrival}

theorem notes_of_ready {p : Bytes × ByteView} (h : v.ready? limit = some p) :
    Notes poll limit bound v s [] :=
  ⟨.done p.1, p.2, s, readFrom_of_ready h, by simp [readFrom_of_ready h], fun _ _ => readFrom_of_ready h⟩

theorem notes_zero (h : v.ready? limit = none) : Notes poll limit 0 v s [] :=
  ⟨.waits, v, s, readFrom_zero h, by simp [readFrom_zero h], fun short => absurd short (Nat.lt_irrefl 0)⟩

theorem arriving_eq {x : Option Arrival} (h : (poll s).1.arrival? = x) :
    arriving poll s = (x, (poll s).2) :=
  Prod.ext h rfl

theorem noting_eq {x : Option Arrival} (h : (poll s).1.arrival? = x) (noted : List Endpoint.Event) :
    noting poll (s, noted) = (x, (poll s).2, noted ++ [(poll s).1]) :=
  Prod.ext h rfl

theorem notes_of_none (h : v.ready? limit = none) (ha : (poll s).1.arrival? = none) :
    Notes poll limit (bound + 1) v s [(poll s).1] :=
  ⟨.waits, v, (poll s).2, readFrom_of_none h (arriving_eq ha),
    fun noted => readFrom_of_none h (noting_eq ha noted),
    fun _ rest => readFrom_of_none h (given_cons ha rest)⟩

theorem notes_of_error {f : Fault} (h : v.ready? limit = none) (ha : (poll s).1.arrival? = some a)
    (ht : v.take a = .error f) : Notes poll limit (bound + 1) v s [(poll s).1] :=
  ⟨.fails f, v, (poll s).2, readFrom_of_error h (arriving_eq ha) ht,
    fun noted => readFrom_of_error h (noting_eq ha noted) ht,
    fun _ rest => readFrom_of_error h (given_cons ha rest) ht⟩

theorem notes_of_ok (h : v.ready? limit = none) (ha : (poll s).1.arrival? = some a)
    (ht : v.take a = .ok v') (notes : Notes poll limit bound v' (poll s).2 evs) :
    Notes poll limit (bound + 1) v s ((poll s).1 :: evs) := by
  obtain ⟨a', v'', t, read, noting, given⟩ := notes
  refine ⟨a', v'', t, ?_, fun noted => ?_, fun short rest => ?_⟩
  · rw [readFrom_of_ok h (arriving_eq ha) ht, read]
  · rw [readFrom_of_ok h (noting_eq ha noted) ht, noting, List.append_assoc, List.singleton_append]
  · have given := given (Nat.lt_of_succ_lt_succ short) rest
    exact (readFrom_of_ok h (given_cons ha (evs ++ rest)) ht).trans given

theorem exists_notes (poll : σ → Endpoint.Event × σ) (limit bound : Nat) (v : ByteView) (s : σ) :
    ∃ evs, Notes poll limit bound v s evs := by
  induction bound generalizing v s
  all_goals
    cases ready : v.ready? limit
    case some => exact ⟨_, notes_of_ready ready⟩
  case zero.none => exact ⟨_, notes_zero ready⟩
  case succ.none bound hi =>
    cases ha : (poll s).1.arrival?
    case none => exact ⟨_, notes_of_none ready ha⟩
    case some a =>
      cases taken : v.take a
      case error => exact ⟨_, notes_of_error ready ha taken⟩
      case ok v' =>
        obtain ⟨evs, notes⟩ := hi v' (poll s).2
        exact ⟨_, notes_of_ok ready ha taken notes⟩

theorem Notes.upon_eq (h : Notes poll limit bound v s evs) : upon poll limit bound v s = evs := by
  obtain ⟨_, _, _, -, noting, -⟩ := h
  simp [upon, noting]

theorem notes : Notes poll limit bound v s (upon poll limit bound v s) := by
  obtain ⟨evs, notes⟩ := exists_notes poll limit bound v s
  exact notes.upon_eq ▸ notes

variable (poll)

-- A source in use: reads come one after the other, none of them cut short by its bound, and between them
-- anything may happen to the source. Known of it are the sizes of the reads, what came of them, and the
-- events that they came upon.
inductive Run : ByteView → σ → List Nat → List (Attempt Bytes) → List Endpoint.Event → Prop
  | rests (v : ByteView) (s : σ) : Run v s [] [] []
  | happens {v s s' limits answers evs} : Run v s' limits answers evs → Run v s limits answers evs
  | reads {v s limit bound a v' s' limits answers evs}
      (read : readFrom (arriving poll) limit bound v s = (a, v', s'))
      (whole : (upon poll limit bound v s).length < bound) :
      Run v' s' limits answers evs →
      Run v s (limit :: limits) (a :: answers) (upon poll limit bound v s ++ evs)

variable {poll}

theorem Run.answers_eq {answers : List (Attempt Bytes)} (h : Run poll v s limits answers evs) :
    answers = v.reads evs limits := by
  induction h
  case rests      => rfl
  case happens hi => exact hi
  case reads read whole _ hi =>
    obtain ⟨_, _, _, read', -, given⟩ := notes
    cases read.symm.trans read'
    rw [hi, ByteView.reads, given whole]

end

end ByteView

namespace Endpoint

variable {m : Message} {e e' : Endpoint} {inward inward' out out' : Pipe}

theorem length_of_readOn {gone : Bool} {bytes : Bytes}
    (h : readOn gone e out bytes = (.ok (some m), e', out')) : e'.undecoded.length < bytes.length := by
  fun_induction readOn gone e out bytes
  case case6 decoded _ _ _ =>
    cases h
    exact Frame.length_of_decode decoded
  case case7 decoded _ _ hi => exact Nat.lt_trans (hi h) (Frame.length_of_decode decoded)
  all_goals cases h

theorem length_takeIn (e : Endpoint) (inward : Pipe) :
    (e.takeIn inward).1.undecoded.length + (e.takeIn inward).2.bytes.size =
      e.undecoded.length + inward.bytes.size := by
  unfold takeIn
  split
  case isTrue  => rfl
  case isFalse => simp

theorem length_of_read (h : e.read inward out = (.message m, e', inward', out')) :
    e'.undecoded.length + inward'.bytes.size < e.undecoded.length + inward.bytes.size := by
  rw [← length_takeIn e inward]
  unfold read at h
  (repeat' split at h) <;> cases h
  rename_i taken read
  rw [taken]
  exact Nat.add_lt_add_right (length_of_readOn read) _

end Endpoint

namespace ByteStream

open ByteView

variable {s : ByteStream} {v : ByteView} {m : Message} {limit bound : Nat}

def unread (s : ByteStream) : Nat := s.endpoint.undecoded.length + s.inward.bytes.size

def poll (s : ByteStream) : Endpoint.Event × ByteStream :=
  let (ev, endpoint, inward, outward) := s.endpoint.read s.inward s.outward
  (ev, { s with endpoint, inward, outward })

theorem unread_poll (h : s.poll.1 = .message m) : s.poll.2.unread < s.unread :=
  Endpoint.length_of_read (Prod.ext h rfl)

theorem closed_of_take {ev : Endpoint.Event} {a : Arrival} {v' : ByteView} (ha : ev.arrival? = some a)
    (hv : v.take a = .ok v') (none : ∀ m, ev ≠ .message m) : v'.closed = true := by
  cases ev
  case waits     => cases ha
  case message m => exact absurd rfl (none m)
  case ended     => cases ha; cases hv; rfl
  case failed e =>
    simp only [Endpoint.Event.arrival?] at ha
    split at ha <;> cases ha <;> cases hv
    rfl

-- Each event but the last one is a message, for which there must be bytes.
theorem length_upon_le : (upon poll limit bound v s).length ≤ s.unread + 1 := by
  induction bound generalizing v s
  all_goals
    cases ready : v.ready? limit
    case some => simp [(notes_of_ready ready).upon_eq]
  case zero.none => simp [(notes_zero ready).upon_eq]
  case succ.none bound hi =>
    cases ha : s.poll.1.arrival?
    case none => simp [(notes_of_none ready ha).upon_eq]
    case some a =>
      cases taken : v.take a
      case error => simp [(notes_of_error ready ha taken).upon_eq]
      case ok v' =>
        rw [(notes_of_ok ready ha taken notes).upon_eq, List.length_cons, Nat.add_le_add_iff_right]
        by_cases message : ∃ m, s.poll.1 = .message m
        case pos =>
          obtain ⟨m, message⟩ := message
          exact Nat.le_trans hi (unread_poll message)
        case neg =>
          have closed := closed_of_take ha taken fun m h => message ⟨m, h⟩
          obtain ⟨p, ready⟩ := ready?_of_closed limit closed
          simp [(notes_of_ready ready).upon_eq]

def meets (s : ByteStream) (limit : Nat) : List Endpoint.Event := upon poll limit s.arrivalBound s.view s

-- The bound on a read of a stream does not cut it short: a stream is a source in use.
theorem run_read {limits : List Nat} {answers : List (Attempt Bytes)}
    (h : Run poll (s.read limit).2.view (s.read limit).2 limits answers evs) :
    Run poll s.view s (limit :: limits) ((s.read limit).1 :: answers) (s.meets limit ++ evs) :=
  .reads rfl (Nat.lt_succ_of_le length_upon_le) (.happens h)

end ByteStream

open ByteView ByteStream

-- A reader sees the bytes of the messages in order, and nothing else, and how they end only behind all of
-- them; with enough reads it sees the end. Once the end of the stream was read, nothing else is read. Of
-- events that tell the same, a reader can see the same, wherever their messages begin and end. All of that
-- holds of any source of events in use, because its reads come to what the events alone would make them
-- come to.
theorem bytes_read_of_messages (evs : List Endpoint.Event) (limits : List Nat)
    (hl : ∀ n ∈ limits, 0 < n) :
    ((∃ n, seen (reads {} evs limits) = ((told evs).1.take n, none)) ∨
      seen (reads {} evs limits) = told evs) ∧
    ((told evs).1.length + stalls evs < limits.length → seen (reads {} evs limits) = told evs) ∧
    (∀ before after, reads {} evs limits = before ++ .done [] :: after → ∀ a ∈ after, a = .done []) ∧
    (∀ evs', told evs' = told evs → ∃ limits' : List Nat, (∀ n ∈ limits', 0 < n) ∧
      seen (reads {} evs' limits') = seen (reads {} evs limits)) ∧
    ∀ (σ : Type) (poll : σ → Endpoint.Event × σ) (s : σ) answers,
      Run poll {} s limits answers evs → answers = reads {} evs limits := by
  have owed evs : owed {} evs = told evs := by simp [owed]
  have saw : (∃ n, seen (reads {} evs limits) = ((told evs).1.take n, none)) ∨
      seen (reads {} evs limits) = told evs :=
    owed evs ▸ seen_reads hl
  refine ⟨saw, fun enough => ?_, fun _ _ => eq_of_after_end hl, fun evs' same => ?_,
    fun σ poll s answers run => run.answers_eq⟩
  case refine_1 =>
    rw [← owed]
    refine seen_reads_of_length hl ?_
    have waits : waits {} evs = stalls evs := rfl
    rw [length, owed, waits]
    cases (told evs).2
    case none => exact Nat.le_of_lt enough
    case some => exact enough
  case refine_2 =>
    obtain ⟨n, saw⟩ | saw := saw
    case inl =>
      obtain ⟨limits', hl', saw'⟩ := exists_reads {} evs' n
      exact ⟨limits', hl', by rw [saw', owed, same, saw]⟩
    case inr =>
      refine ⟨List.replicate (length {} evs') 1, by simp, ?_⟩
      rw [seen_reads_of_length (by simp) (by simp), owed, same, saw]

def letters : List Endpoint.Event :=
  [.message (.binary [97, 98]), .message (.binary []), .message (.close none)]

def lettersInText : List Endpoint.Event := [.message (.text "ab"), .message (.ping [1]), .ended]

def letterFrames : ByteStream where
  endpoint := { side := .client }
  inward := { bytes := .ofList [0x82, 2, 97, 98, 0x82, 0, 0x88, 0] }

theorem bytes_read_of_messages_letters :
    reads {} letters [1, 4, 4, 4] = [.done [97], .done [98]] ++ .done [] :: [.done []] ∧
    seen (reads {} letters [1, 4, 4, 4]) = told letters ∧
    (∀ a ∈ [Attempt.done ([] : Bytes)], a = .done []) ∧
    told lettersInText = told letters ∧
    (∃ limits' : List Nat, (∀ n ∈ limits', 0 < n) ∧
      seen (reads {} lettersInText limits') = seen (reads {} letters [1, 4, 4, 4])) ∧
    Run ByteStream.poll {} letterFrames [1, 4, 4, 4] (reads {} letters [1, 4, 4, 4]) letters := by
  have answers : reads {} letters [1, 4, 4, 4] = [.done [97], .done [98]] ++ .done [] :: [.done []] := by
    decide +kernel
  have same : told lettersInText = told letters := by decide +kernel
  let s₁ := (letterFrames.read 1).2
  let s₂ := (s₁.read 4).2
  let s₃ := (s₂.read 4).2
  have run : Run ByteStream.poll letterFrames.view letterFrames [1, 4, 4, 4] _ _ :=
    run_read <| run_read (s := s₁) <| run_read (s := s₂) <| run_read (s := s₃) <| .rests _ _
  have evs : letterFrames.meets 1 ++ (s₁.meets 4 ++ (s₂.meets 4 ++ (s₃.meets 4 ++ []))) = letters := by
    decide +kernel
  rw [evs] at run
  obtain ⟨-, complete, closed, alike, inUse⟩ := bytes_read_of_messages letters [1, 4, 4, 4] (by decide)
  exact ⟨answers, complete (by decide), closed _ _ answers, same, alike _ same,
    inUse _ _ letterFrames _ run ▸ run⟩

end Rendezvous.WebSocket
