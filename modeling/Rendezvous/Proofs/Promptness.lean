import Mathlib.Data.List.Infix
import Rendezvous.Proofs.History
import Rendezvous.Proofs.Step

namespace Rendezvous.Broker

variable {a b b' : Broker} {e : Event} {es : List Event} {k : Task} {t target : Instant}
variable {Q : Broker → Prop} {q : Happening}

theorem settings_of_run {config : Config} {policy : Policy}
    (run : (fresh config policy).run? es = some b) : b.config = config ∧ b.policy = policy :=
  run_induction (P := fun _ b => b.config = config ∧ b.policy = policy) ⟨rfl, rfl⟩
    (fun _ hb hs =>
      have ⟨hc, hp⟩ := (step_of_step? hs).settings
      ⟨hc.trans hb.left, hp.trans hb.right⟩) run

def due? (b : Broker) : Task → Option Instant
  | .session i => b.sessions[i]?.bind Session.deadline?
  | .copy i d =>
    match b.sessions[i]? with
    | some { phase := .bridging br, .. } => br.deadline? d
    | _ => none

-- Time goes on without a task that is wanted.
def Oversleeps (k : Task) : Happening := fun b e _ =>
  ∃ target, e = .wait target ∧
    (b.turn k ≠ none ∨ ∃ t, b.due? k = some t ∧ b.clock < t ∧ t < target)

def Throughout (Q : Broker → Prop) (a : Broker) (es : List Event) : Prop :=
  ∀ fs b, fs <+: es → a.run? fs = some b → Q b

theorem Throughout.last (h : a.Throughout Q es) (run : a.run? es = some b) : Q b :=
  h es b List.prefix_rfl run

theorem Throughout.imp {Q' : Broker → Prop} (h : a.Throughout Q es) (hq : ∀ b, Q b → Q' b) :
    a.Throughout Q' es :=
  fun fs b part run => hq b (h fs b part run)

theorem Throughout.not_occurs (h : a.Throughout Q es)
    (hq : ∀ {b e b'}, a.Reaches b → Q b → ¬q b e b') : ¬a.Occurs es q := by
  rintro ⟨before, e, after, b, b', rfl, run, -, happens⟩
  exact hq (.of_run run) (h before b (List.prefix_append ..) run) happens

theorem throughout_of_all {fs : List Event} [DecidablePred Q] (here : a.run? es = some b)
    (h : fs.inits.all (fun gs => (a.run? (es ++ gs)).all fun b => decide (Q b)) = true) :
    b.Throughout Q fs := by
  intro gs b' part run
  have all := List.all_eq_true.mp h gs ((List.mem_inits ..).mpr part)
  rw [run?_append, here, Option.bind_some, run] at all
  simpa using all

-- A task that does not oversleep is where it was when time goes on, and in time.
theorem awake_of_wait (h : ¬Oversleeps k b (.wait target) b') :
    b.turn k = none ∧ ∀ t, b.due? k = some t → b.clock < t → target ≤ t := by
  constructor
  case left  => exact Decidable.byContradiction fun ht => h ⟨target, rfl, .inl ht⟩
  case right => exact fun t ht hl => Nat.le_of_not_lt fun hg => h ⟨target, rfl, .inr ⟨t, ht, hl, hg⟩⟩

theorem in_time (h : b.Step e b') (awake : ¬Oversleeps k b e b') (time : b.clock ≤ t)
    (busy : b.turn k ≠ none ∨ b.due? k = some t ∧ b.clock < t) : b'.clock ≤ t := by
  obtain hc | rfl := h.clock
  · exact hc ▸ time
  · have ⟨rests, within⟩ := awake_of_wait awake
    obtain turns | ⟨hd, hl⟩ := busy
    · exact absurd rests turns
    · exact within t hd hl

-- A session that has a turn to take once its deadline has come is in time for it.
theorem in_time_of_deadline {i : Nat} {s : Session} (h : b.Step e b')
    (awake : ¬Oversleeps (.session i) b e b') (own : b.sessions[i]? = some s) (due : s.deadline? = some t)
    (time : b.clock ≤ t) (turns : t ≤ b.clock → b.turn (.session i) ≠ none) : b'.clock ≤ t := by
  refine in_time h awake time ?_
  by_cases late : t ≤ b.clock
  case pos => exact .inl (turns late)
  case neg => exact .inr ⟨by simp [due?, own, due], Nat.lt_of_not_le late⟩

theorem mem_tasks : k ∈ b.tasks ↔ k.place < b.sessions.length := by
  cases k
  case session  => simp [tasks, Task.place]
  case copy i d => cases d <;> simp [tasks, Task.place]

theorem mem_deadlines (h : b.due? k = some t) : t ∈ b.deadlines := by
  cases k
  case session i =>
    have ⟨s, hs, ht⟩ := Option.bind_eq_some_iff.mp h
    refine List.mem_flatMap.mpr ⟨s, List.mem_of_getElem? hs, ?_⟩
    cases hp : s.phase <;> simp_all [Session.deadline?]
  case copy i d =>
    simp only [due?] at h
    split at h
    case h_2         => cases h
    case h_1 st br hs =>
      refine List.mem_flatMap.mpr ⟨_, List.mem_of_getElem? hs, ?_⟩
      cases d <;> simp [h]

theorem turn_eq_none_of_idleNow (h : b.idleNow = true) : b.turn k = none := by
  by_cases hk : k.place < b.sessions.length
  case pos =>
    have idle := List.all_eq_true.mp h k (mem_tasks.mpr hk)
    simpa using idle
  case neg =>
    cases ht : b.turn k
    case none => rfl
    case some =>
      have ⟨s, hs, _⟩ := turn_turns ht
      exact absurd (List.getElem?_eq_some_iff.mp hs).choose hk

theorem not_oversleeps_of_mayWait (h : b.mayWait target = true) :
    ¬Oversleeps k b (.wait target) b' := by
  simp only [mayWait, Bool.and_eq_true, List.all_eq_true, decide_eq_true_eq] at h
  rintro ⟨_, ⟨⟩, awake | ⟨t, ht, hl, hg⟩⟩
  · exact awake (turn_eq_none_of_idleNow h.left)
  · obtain past | before := h.right t (mem_deadlines ht)
    · exact Nat.not_le_of_lt hl past
    · exact Nat.not_le_of_lt hg before

theorem not_oversleeps_of_isPrompt (run : a.run? es = some b) (prompt : a.isPrompt es = true) :
    ¬a.Occurs es (Oversleeps k) := by
  refine run_induction (P := fun es _ => a.isPrompt es = true → ¬a.Occurs es (Oversleeps k))
    (fun _ => not_occurs_nil) ?_ run prompt
  intro es b e b' run hi hs prompt
  rw [isPrompt_append run, Bool.and_eq_true] at prompt
  intro occurs
  obtain before | ⟨b'', -, target, rfl, late⟩ := (occurs_snoc run).mp occurs
  · exact hi prompt.left before
  · have mayWait := (Bool.and_eq_true _ _ ▸ prompt.right : _ ∧ _).left
    have awake : ¬Oversleeps k b (.wait target) b'' := not_oversleeps_of_mayWait mayWait
    exact awake ⟨target, rfl, late⟩

end Rendezvous.Broker
