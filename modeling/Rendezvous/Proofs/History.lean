import Mathlib.Data.List.Induction
import Rendezvous.Broker.Run

namespace Rendezvous.Broker

variable {a b b' c : Broker} {e : Event} {es fs : List Event}

theorem run?_snoc (h : a.run? es = some b) : a.run? (es ++ [e]) = b.step? e := by
  simp [run?_append, h]

theorem isPrompt_append (h : a.run? es = some b) :
    a.isPrompt (es ++ fs) = (a.isPrompt es && b.isPrompt fs) := by
  induction es generalizing a
  case nil =>
    cases h
    rfl
  case cons e es hi =>
    have ⟨c, hc, h⟩ := Option.bind_eq_some_iff.mp h
    simp only [List.cons_append, isPrompt, hc, Option.all_some, hi h, Bool.and_assoc]

theorem run_induction {P : List Event → Broker → Prop} (start : P [] a)
    (step : ∀ {es b e b'}, a.run? es = some b → P es b → b.step? e = some b' → P (es ++ [e]) b')
    (h : a.run? es = some b) : P es b := by
  induction es using List.reverseRecOn generalizing b
  case nil =>
    cases h
    exact start
  case append_singleton es e hi =>
    have ⟨c, hc, h⟩ := Option.bind_eq_some_iff.mp <| run?_append .. ▸ h
    exact step hc (hi hc) (by simpa using h)

theorem prefix_induction {P : List Event → Broker → Prop} {whole : List Event} (start : P [] a)
    (step : ∀ {es b e b'}, es ++ [e] <+: whole → a.run? es = some b → b.step? e = some b' → P es b →
      P (es ++ [e]) b')
    (part : es <+: whole) (h : a.run? es = some b) : P es b :=
  run_induction (P := fun es b => es <+: whole → P es b) (fun _ => start)
    (fun run hi hs part => step part run hs (hi ((List.prefix_append ..).trans part))) h part

theorem run?_of_prefix {whole : List Event} (part : es <+: whole) (run : a.run? whole = some c) :
    ∃ b, a.run? es = some b ∧ b.Reaches c := by
  obtain ⟨fs, rfl⟩ := part
  have ⟨b, hb, later⟩ := Option.bind_eq_some_iff.mp <| run?_append .. ▸ run
  exact ⟨b, hb, fs, later⟩

theorem Reaches.of_run (h : a.run? es = some b) : a.Reaches b := ⟨es, h⟩

theorem Reaches.of_step (h : b.step? e = some b') : b.Reaches b' := ⟨[e], by simp [h]⟩

theorem Reaches.stable {Q : Broker → Prop}
    (keep : ∀ {b e b'}, b.step? e = some b' → Q b → Q b') (r : a.Reaches b) (h : Q a) : Q b := by
  have ⟨es, he⟩ := r
  exact run_induction (P := fun _ b => Q b) h (fun _ hb hs => keep hs hb) he

-- A kind of step: the broker before it, the event and the broker after it.
abbrev Happening := Broker → Event → Broker → Prop

def Occurs (a : Broker) (es : List Event) (q : Happening) : Prop :=
  ∃ before e after b b',
    es = before ++ e :: after ∧ a.run? before = some b ∧ b.step? e = some b' ∧ q b e b'

theorem not_occurs_nil {q : Happening} : ¬a.Occurs [] q := by
  rintro ⟨before, e, after, b, b', h, -⟩
  simp at h

theorem occurs_snoc {q : Happening} (h : a.run? es = some b) :
    a.Occurs (es ++ [e]) q ↔ a.Occurs es q ∨ ∃ b', b.step? e = some b' ∧ q b e b' := by
  constructor
  case mp =>
    rintro ⟨before, f, after, b₁, b₂, hl, h₁, h₂, hq⟩
    cases after using List.reverseRecOn
    case nil =>
      have ⟨hb, he⟩ := List.append_inj' (show es ++ [e] = before ++ [f] from hl) rfl
      cases he
      cases h.symm.trans (hb ▸ h₁)
      exact .inr ⟨b₂, h₂, hq⟩
    case append_singleton after g =>
      rw [← List.cons_append, ← List.append_assoc] at hl
      exact .inl ⟨before, f, _, b₁, b₂, (List.append_inj' hl rfl).left, h₁, h₂, hq⟩
  case mpr =>
    rintro (⟨before, f, after, b₁, b₂, rfl, h₁, h₂, hq⟩ | ⟨b', hs, hq⟩)
    · exact ⟨before, f, after ++ [e], b₁, b₂, by simp, h₁, h₂, hq⟩
    · exact ⟨es, e, [], b, b', rfl, h, hs, hq⟩

theorem occurs_snoc_iff {q : Happening} (h : a.run? es = some b) (hs : b.step? e = some b') :
    a.Occurs (es ++ [e]) q ↔ a.Occurs es q ∨ q b e b' := by
  simp [occurs_snoc h, hs]

theorem Occurs.append {q : Happening} (h : a.Occurs es q) : a.Occurs (es ++ fs) q :=
  have ⟨before, f, after, b₁, b₂, hl, h₁, h₂, hq⟩ := h
  ⟨before, f, after ++ fs, b₁, b₂, by simp [hl], h₁, h₂, hq⟩

theorem not_of_not_occurs {whole : List Event} {q : Happening} (h : ¬a.Occurs whole q)
    (part : es ++ [e] <+: whole) (run : a.run? es = some b) (hs : b.step? e = some b') : ¬q b e b' := by
  obtain ⟨fs, rfl⟩ := part
  exact fun hq => h <| ((occurs_snoc run).mpr (.inr ⟨b', hs, hq⟩)).append

theorem Occurs.of_append {q : Happening} (h : a.run? es = some b) (ho : a.Occurs (es ++ fs) q) :
    a.Occurs es q ∨ b.Occurs fs q := by
  have ⟨before, f, after, b₁, b₂, hl, h₁, h₂, hq⟩ := ho
  cases List.append_eq_append_iff.mp hl
  case inl hp =>
    obtain ⟨m, rfl, hm⟩ := hp
    rw [run?_append, h, Option.bind_some] at h₁
    exact .inr ⟨m, f, after, b₁, b₂, hm, h₁, h₂, hq⟩
  case inr hp =>
    obtain ⟨m, rfl, hm⟩ := hp
    cases m <;> cases hm
    case nil =>
      rw [List.append_nil, h₁] at h
      cases h
      exact .inr ⟨[], f, after, _, b₂, rfl, rfl, h₂, hq⟩
    case cons m => exact .inl ⟨before, f, m, b₁, b₂, rfl, h₁, h₂, hq⟩

theorem Occurs.mono {q q' : Happening} (h : a.Occurs es q) (hq : ∀ {b e b'}, q b e b' → q' b e b') :
    a.Occurs es q' :=
  have ⟨before, f, after, b₁, b₂, hl, h₁, h₂, h⟩ := h
  ⟨before, f, after, b₁, b₂, hl, h₁, h₂, hq h⟩

-- Whatever a step of some kind is, with the run that leads to it and the one that follows on it.
theorem Occurs.imp {q q' : Happening} (run : a.run? es = some c) (h : a.Occurs es q)
    (hq : ∀ {fs b e b'}, a.run? fs = some b → b.step? e = some b' → b'.Reaches c → q b e b' →
      q' b e b') : a.Occurs es q' := by
  obtain ⟨before, e, after, b, b', rfl, h₁, h₂, h⟩ := h
  rw [run?_append, h₁, Option.bind_some, run?_cons, h₂, Option.bind_some] at run
  exact ⟨before, e, after, b, b', rfl, h₁, h₂, hq h₁ h₂ ⟨after, run⟩ h⟩

theorem Occurs.within {q : Happening} (run : a.run? es = some c) (h : a.Occurs es q) :
    ∃ fs b e b', a.run? fs = some b ∧ b.step? e = some b' ∧ b'.Reaches c ∧ q b e b' := by
  obtain ⟨before, e, after, b, b', rfl, h₁, h₂, hq⟩ := h
  rw [run?_append, h₁, Option.bind_some, run?_cons, h₂, Option.bind_some] at run
  exact ⟨before, b, e, b', h₁, h₂, .of_run run, hq⟩

theorem Occurs.of_before {q q' : Happening} (h : a.Occurs es q)
    (hq : ∀ {fs b e b'}, a.run? fs = some b → b.step? e = some b' → q b e b' → a.Occurs fs q') :
    a.Occurs es q' := by
  obtain ⟨before, f, after, b₁, b₂, rfl, h₁, h₂, h⟩ := h
  exact (hq h₁ h₂ h).append

-- Of two steps of one run, either both are the same or one comes before the other.
theorem Occurs.order {q q' : Happening} (h : a.Occurs es q) (h' : a.Occurs es q') :
    ∃ b e b' c f c', b.step? e = some b' ∧ q b e b' ∧ c.step? f = some c' ∧ q' c f c' ∧
      (a.Reaches b ∧ a.Reaches c) ∧
      ((b = c ∧ e = f ∧ b' = c') ∨ b'.Reaches c ∨ c'.Reaches b) := by
  have ⟨p, e, s, b, b', hl, h₁, h₂, hq⟩ := h
  have ⟨p', f, s', c, c', hl', h₁', h₂', hq'⟩ := h'
  refine ⟨b, e, b', c, f, c', h₂, hq, h₂', hq', ⟨.of_run h₁, .of_run h₁'⟩, ?_⟩
  rw [hl] at hl'
  cases List.append_eq_append_iff.mp hl'
  case inl hp =>
    obtain ⟨m, rfl, hm⟩ := hp
    rw [run?_append, h₁, Option.bind_some] at h₁'
    cases m <;> cases hm
    case nil =>
      cases h₁'
      exact .inl ⟨rfl, rfl, Option.some.inj <| h₂.symm.trans h₂'⟩
    case cons m =>
      rw [run?_cons, h₂, Option.bind_some] at h₁'
      exact .inr <| .inl ⟨m, h₁'⟩
  case inr hp =>
    obtain ⟨m, rfl, hm⟩ := hp
    rw [run?_append, h₁', Option.bind_some] at h₁
    cases m <;> cases hm
    case nil =>
      cases h₁
      exact .inl ⟨rfl, rfl, Option.some.inj <| h₂.symm.trans h₂'⟩
    case cons m =>
      rw [run?_cons, h₂', Option.bind_some] at h₁
      exact .inr <| .inr ⟨m, h₁⟩

-- Two steps neither of which can come after the other are one and the same.
theorem Occurs.meet {q q' : Happening} (h : a.Occurs es q) (h' : a.Occurs es q')
    (apart : ∀ {b e b' c f c'}, a.Reaches b → b.step? e = some b' → q b e b' → b'.Reaches c →
      q' c f c' → False)
    (apart' : ∀ {b e b' c f c'}, a.Reaches b → b.step? e = some b' → q' b e b' → b'.Reaches c →
      q c f c' → False) :
    ∃ b e b', a.Reaches b ∧ b.step? e = some b' ∧ q b e b' ∧ q' b e b' := by
  have ⟨b, e, b', c, f, c', hs, hq, hs', hq', ⟨rb, rc⟩, order⟩ := h.order h'
  obtain ⟨rfl, rfl, rfl⟩ | r | r := order
  · exact ⟨b, e, b', rb, hs, hq, hq'⟩
  · exact (apart rb hs hq r hq').elim
  · exact (apart' rc hs' hq' r hq).elim

def along {α : Type} (f : Broker → Event → List α) (b : Broker) : List Event → List α
  | [] => []
  | e :: es =>
    f b e ++
      match b.step? e with
      | some b => b.along f es
      | none => []

section

variable {α : Type} {f : Broker → Event → List α} {x : α}

theorem along_append (h : a.run? es = some b) : a.along f (es ++ fs) = a.along f es ++ b.along f fs := by
  induction es generalizing a
  case nil =>
    cases h
    simp [along]
  case cons e es hi =>
    have ⟨c, hc, h⟩ := Option.bind_eq_some_iff.mp h
    simp [along, hc, hi h]

theorem along_snoc (h : a.run? es = some b) : a.along f (es ++ [e]) = a.along f es ++ f b e := by
  rw [along_append h]
  cases hs : b.step? e <;> simp [along, hs]

theorem mem_along (h : a.run? es = some b) : x ∈ a.along f es ↔ a.Occurs es fun b e _ => x ∈ f b e := by
  refine run_induction (P := fun es _ => x ∈ a.along f es ↔ a.Occurs es fun b e _ => x ∈ f b e)
    ⟨nofun, fun ho => (not_occurs_nil ho).elim⟩ (fun run hi hs => ?_) h
  rw [along_snoc run, List.mem_append, hi, occurs_snoc run]
  exact or_congr_right ⟨fun hx => ⟨_, hs, hx⟩, fun ⟨_, _, hx⟩ => hx⟩

end

def sentBy (b : Broker) (w : Nat) : Event → Bytes
  | .accept wire _ => if b.wires.length = w then wire.inbox else []
  | .change i (.send bs) => if i = w then bs else []
  | _ => []

def sent (b : Broker) (w : Nat) : List Event → Bytes
  | [] => []
  | e :: es =>
    b.sentBy w e ++
      match b.step? e with
      | some b => b.sent w es
      | none => []

theorem sent_eq_along {w : Nat} : a.sent w es = a.along (fun b e => b.sentBy w e) es := by
  induction es generalizing a
  case nil          => rfl
  case cons e es hi => cases hs : a.step? e <;> simp [sent, along, hs, hi]

theorem sent_append {w : Nat} (h : a.run? es = some b) :
    a.sent w (es ++ fs) = a.sent w es ++ b.sent w fs := by
  simp only [sent_eq_along, along_append h]

theorem sent_snoc {w : Nat} (h : a.run? es = some b) :
    a.sent w (es ++ [e]) = a.sent w es ++ b.sentBy w e := by
  simp only [sent_eq_along, along_snoc h]

end Rendezvous.Broker
