import Rendezvous.Client.Agent
import Rendezvous.Proofs.Backoff

namespace Rendezvous

namespace Agent

namespace Outcome

-- The agent registers again at once: bytes crossed the bridge, or it took at least the longest pause
-- until it was seen that none did.
def isWorthwhile (b : Backoff) : Outcome → Bool
  | relayed toTarget fromTarget lasted => 0 < toTarget + fromTarget || b.max.nanos ≤ lasted.nanos
  | failed _ => false

-- The round brought nothing, but the next one may: the bridge was soon over, or there was none for a
-- cause that may pass.
def isVain (b : Backoff) : Outcome → Bool
  | relayed toTarget fromTarget lasted => toTarget + fromTarget = 0 && lasted.nanos < b.max.nanos
  | failed cause => cause.isTransient

def isRefused : Outcome → Bool
  | relayed .. => false
  | failed cause => !cause.isTransient

variable {b : Backoff} {o : Outcome}

theorem kinds (b : Backoff) (o : Outcome) :
    (o.isWorthwhile b = true ∧ o.isVain b = false ∧ o.isRefused = false) ∨
    (o.isWorthwhile b = false ∧ o.isVain b = true ∧ o.isRefused = false) ∨
    (o.isWorthwhile b = false ∧ o.isVain b = false ∧ o.isRefused = true) := by
  cases o
  case relayed toTarget fromTarget lasted =>
    simp [isWorthwhile, isVain, isRefused]
    omega
  case failed cause => cases h : cause.isTransient <;> simp [isWorthwhile, isVain, isRefused, h]

end Outcome

variable {b : Backoff} {o : Outcome} {before stretch os : List Outcome}

def streak (b : Backoff) (before : List Outcome) : Nat :=
  (before.reverse.takeWhile fun o => !o.isWorthwhile b).countP (Outcome.isVain b)

-- The pause behind a round, if there is one, in view of the rounds before it.
def pauseBehind? (b : Backoff) (before : List Outcome) (o : Outcome) : Option Duration :=
  if o.isWorthwhile b then none
  else if o.isVain b then some (b.delay (min (streak b before) maxAttempt))
  else some b.max

theorem streak_snoc (b : Backoff) (before : List Outcome) (o : Outcome) :
    streak b (before ++ [o]) =
      if o.isWorthwhile b then 0 else if o.isVain b then streak b before + 1 else streak b before := by
  rw [streak, List.reverse_append, List.reverse_singleton, List.singleton_append, List.takeWhile_cons]
  obtain ⟨worthwhile, vain, -⟩ | ⟨worthwhile, vain, -⟩ | ⟨worthwhile, vain, -⟩ := o.kinds b
  all_goals simp [worthwhile, vain, streak]

-- What an agent makes of a round agrees with the rounds before it, and so does what it counts.
theorem report_streak (b : Backoff) (before : List Outcome) (o : Outcome) :
    (report b (min (streak b before) maxAttempt) o).1.pause? = pauseBehind? b before o ∧
    (report b (min (streak b before) maxAttempt) o).2 =
      min (streak b (before ++ [o])) maxAttempt := by
  rw [streak_snoc, pauseBehind?]
  cases o
  case relayed toTarget fromTarget lasted =>
    simp only [report, Outcome.isWorthwhile, Outcome.isVain]
    split
    case isTrue vain =>
      have worthwhile : ¬(0 < toTarget + fromTarget ∨ b.max.nanos ≤ lasted.nanos) := by omega
      simp only [Bool.or_eq_true, Bool.and_eq_true, decide_eq_true_eq, if_neg worthwhile, if_pos vain]
      exact ⟨rfl, by omega⟩
    case isFalse vain =>
      have worthwhile : 0 < toTarget + fromTarget ∨ b.max.nanos ≤ lasted.nanos := by omega
      simp only [Bool.or_eq_true, decide_eq_true_eq, if_pos worthwhile]
      exact ⟨rfl, rfl⟩
  case failed cause =>
    cases h : cause.isTransient
    · simp [report, h, Outcome.isWorthwhile, Outcome.isVain, Report.pause?]
    · simp [report, h, Outcome.isWorthwhile, Outcome.isVain, Report.pause?]
      omega

theorem pause_reports (b : Backoff) (before os : List Outcome) (i : Nat) :
    (reports b (min (streak b before) maxAttempt) os)[i]?.map Report.pause? =
      os[i]?.map (pauseBehind? b (before ++ os.take i)) := by
  induction os generalizing before i
  case nil => rfl
  case cons o os hi =>
    have ⟨pause, count⟩ := report_streak b before o
    rw [reports]
    cases i
    case zero => simp [pause]
    case succ i =>
      have next := hi (before ++ [o]) i
      rw [List.append_assoc, List.singleton_append] at next
      simpa only [List.getElem?_cons_succ, List.take_succ_cons, count] using next

theorem pause_le_max {d : Duration} (h : pauseBehind? b before o = some d) : d.nanos ≤ b.max.nanos := by
  unfold pauseBehind? at h
  (repeat' split at h) <;> cases h
  · exact Backoff.delay_le_max
  · exact Nat.le_refl _

theorem pauseBehind?_of_isVain (vain : o.isVain b = true) :
    pauseBehind? b before o = some (b.delay (min (streak b before) maxAttempt)) := by
  obtain ⟨_, h, -⟩ | ⟨worthwhile, _, -⟩ | ⟨_, h, -⟩ := o.kinds b
  · cases vain.symm.trans h
  · simp [pauseBehind?, worthwhile, vain]
  · cases vain.symm.trans h

theorem streak_le_of_vain {i j : Nat} (hij : i ≤ j)
    (vain : ∀ k, i ≤ k → k < j → ∀ o ∈ os[k]?, o.isVain b = true) :
    streak b (os.take i) ≤ streak b (os.take j) := by
  induction hij
  case refl => exact Nat.le_refl _
  case step j hij hi =>
    refine Nat.le_trans (hi fun k hk hj => vain k hk (Nat.lt_succ_of_lt hj)) ?_
    rw [List.take_add_one]
    cases ho : os[j]?
    case none => simp
    case some o =>
      have vain : o.isVain b = true := vain j hij (Nat.lt_succ_self j) o ho
      obtain ⟨_, h, -⟩ | ⟨worthwhile, _, -⟩ | ⟨_, h, -⟩ := o.kinds b
      · cases vain.symm.trans h
      · simp [streak_snoc, worthwhile, vain]
      · cases vain.symm.trans h

-- The pause behind every round is the one that its history calls for: none behind a worthwhile round, the
-- longest one behind a refusal, and behind a round in vain one that grows with the rounds in vain since
-- the last worthwhile one, whatever refusals were among them. No pause is longer than the longest one, and
-- as long as all rounds are in vain the pauses do not get shorter.
theorem pauses_follow_history (b : Backoff) (os : List Outcome) :
    (∀ i, (reports b 0 os)[i]?.map Report.pause? = os[i]?.map (pauseBehind? b (os.take i))) ∧
    (∀ r ∈ reports b 0 os, ∀ d ∈ r.pause?, d.nanos ≤ b.max.nanos) ∧
    ∀ i j, i ≤ j → j < os.length → (∀ k, i ≤ k → k ≤ j → ∀ o ∈ os[k]?, o.isVain b = true) →
      ∃ d d', (reports b 0 os)[i]?.map Report.pause? = some (some d) ∧
        (reports b 0 os)[j]?.map Report.pause? = some (some d') ∧ d.nanos ≤ d'.nanos := by
  have law i : (reports b 0 os)[i]?.map Report.pause? = os[i]?.map (pauseBehind? b (os.take i)) :=
    pause_reports b [] os i
  refine ⟨law, fun r hr d hd => ?_, fun i j hij hj vain => ?_⟩
  case refine_1 =>
    have ⟨i, hi⟩ := List.mem_iff_getElem?.mp hr
    have at_i := law i
    rw [hi, Option.map_some] at at_i
    have ⟨o, _, ho⟩ := Option.map_eq_some_iff.mp at_i.symm
    exact pause_le_max (ho.trans hd)
  case refine_2 =>
    have hi : i < os.length := Nat.lt_of_le_of_lt hij hj
    have grows : min (streak b (os.take i)) maxAttempt ≤ min (streak b (os.take j)) maxAttempt := by
      have grows := streak_le_of_vain hij fun k hk hkj => vain k hk (Nat.le_of_lt hkj)
      omega
    refine ⟨_, _, ?_, ?_, Backoff.delay_mono (b := b) grows⟩
    · rw [law, List.getElem?_eq_getElem hi, Option.map_some,
        pauseBehind?_of_isVain (vain i (Nat.le_refl i) hij _ (List.getElem?_eq_getElem hi))]
    · rw [law, List.getElem?_eq_getElem hj, Option.map_some,
        pauseBehind?_of_isVain (vain j hij (Nat.le_refl j) _ (List.getElem?_eq_getElem hj))]

def outage : List Outcome :=
  [.failed .replyTimeout, .relayed 0 0 (.ofSeconds 1), .failed (.rejected "full"), .failed .replyTimeout,
    .relayed 3 0 (.ofSeconds 1), .failed .replyTimeout]

theorem pauses_follow_history_outage :
    (reports {} 0 outage).map Report.pause? =
      [some (.ofSeconds 1), some (.ofSeconds 2), some (.ofSeconds 30), some (.ofSeconds 4), none,
        some (.ofSeconds 1)] ∧
    (∀ r ∈ reports {} 0 outage, ∀ d ∈ r.pause?, d.nanos ≤ (Duration.ofSeconds 30).nanos) ∧
    (∀ k, 0 ≤ k → k ≤ 1 → ∀ o ∈ outage[k]?, o.isVain {} = true) ∧
    ∃ d d', (reports {} 0 outage)[0]?.map Report.pause? = some (some d) ∧
      (reports {} 0 outage)[1]?.map Report.pause? = some (some d') ∧ d.nanos ≤ d'.nanos := by
  have vain : ∀ k, 0 ≤ k → k ≤ 1 → ∀ o ∈ outage[k]?, o.isVain {} = true := by
    intro k _ hk o ho
    obtain rfl | rfl : k = 0 ∨ k = 1 := by omega
    · cases ho
      rfl
    · cases ho
      rfl
  obtain ⟨_, bounded, grows⟩ := pauses_follow_history {} outage
  exact ⟨by decide +kernel, bounded, vain, grows 0 1 (by decide) (by decide) vain⟩

end Agent
end Rendezvous
