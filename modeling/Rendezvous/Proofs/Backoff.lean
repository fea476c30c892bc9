import Mathlib.Algebra.Order.Ring.Nat
import Rendezvous.Time.Backoff

namespace Rendezvous

section

variable {a b c : UInt64}

-- An operation on words that wraps is exact wherever it is not seen to overflow.
theorem eq_some_of_wraps {overflows : Bool} {exact : Nat} (seen : overflows = decide (exact ≥ 2 ^ 64))
    (wraps : a.toNat = exact % 2 ^ 64) :
    (if overflows then none else some a) = some c ↔ c.toNat = exact := by
  have bound := c.toNat_lt
  rw [seen]
  split
  case isTrue h =>
    have beyond : 2 ^ 64 ≤ exact := of_decide_eq_true h
    exact iff_of_false nofun (by omega)
  case isFalse h =>
    have within : exact < 2 ^ 64 := Nat.lt_of_not_le fun beyond => h (decide_eq_true beyond)
    rw [Option.some_inj, ← UInt64.toNat_inj, wraps, Nat.mod_eq_of_lt within, eq_comm]

theorem product?_eq_some : product? a b = some c ↔ c.toNat = a.toNat * b.toNat :=
  eq_some_of_wraps rfl (UInt64.toNat_mul a b)

theorem sum?_eq_some : sum? a b = some c ↔ c.toNat = a.toNat + b.toNat :=
  eq_some_of_wraps rfl (UInt64.toNat_add a b)

end

namespace Duration

variable {d : Duration} {k : UInt32} {s : UInt64}

theorem nanos_parts (d : Duration) : nanosPerSecond * d.seconds + d.subsecond = d.nanos :=
  Nat.div_add_mod ..

theorem subsecond_lt (d : Duration) : d.subsecond < nanosPerSecond :=
  Nat.mod_lt _ (by decide)

theorem toNat_seconds (d : Duration) : d.seconds.toUInt64.toNat = d.seconds :=
  have fits : d.seconds < UInt64.size := by
    have h := d.le_longest
    simp only [seconds, longestNanos, nanosPerSecond, UInt64.size] at h ⊢
    omega
  UInt64.toNat_ofNat_of_lt' fits

theorem toNat_nanosPerSecond : nanosPerSecond.toUInt64.toNat = nanosPerSecond := by decide

-- The nanoseconds of less than a second, taken as often as a word of 32 bits can say, fit a word of 64.
theorem toNat_scaledSubsecond (d : Duration) (k : UInt32) :
    (d.scaledSubsecond k).toNat = d.subsecond * k.toNat := by
  have fine : d.subsecond.toUInt64.toNat = d.subsecond := by
    refine UInt64.toNat_ofNat_of_lt' (Nat.lt_trans d.subsecond_lt ?_)
    decide
  have fits : d.subsecond * k.toNat < 2 ^ 64 :=
    calc d.subsecond * k.toNat ≤ nanosPerSecond * 2 ^ 32 :=
          Nat.mul_le_mul (Nat.le_of_lt d.subsecond_lt) (Nat.le_of_lt k.toNat_lt)
      _ < 2 ^ 64 := by decide
  rw [scaledSubsecond, UInt64.toNat_mul, fine, UInt32.toNat_toUInt64, Nat.mod_eq_of_lt fits]

theorem scaled_parts (d : Duration) (k : Nat) :
    d.nanos * k = nanosPerSecond * (d.seconds * k) + d.subsecond * k := by
  rw [← d.nanos_parts, Nat.add_mul, Nat.mul_assoc]

theorem scaled_div (d : Duration) (k : Nat) :
    d.nanos * k / nanosPerSecond = d.seconds * k + d.subsecond * k / nanosPerSecond := by
  rw [scaled_parts, Nat.mul_add_div (by decide)]

theorem scaled_mod (d : Duration) (k : Nat) :
    d.nanos * k % nanosPerSecond = d.subsecond * k % nanosPerSecond := by
  rw [scaled_parts, Nat.mul_add_mod]

-- The carried seconds are those of the exact product, and a word holds both their parts if it holds them.
theorem scaledSeconds?_eq_some :
    d.scaledSeconds? k = some s ↔ s.toNat = d.nanos * k.toNat / nanosPerSecond := by
  have whole {p : UInt64} : product? d.seconds.toUInt64 k.toUInt64 = some p ↔
      p.toNat = d.seconds * k.toNat := by
    rw [product?_eq_some, toNat_seconds, UInt32.toNat_toUInt64]
  rw [scaledSeconds?, Option.bind_eq_some_iff, scaled_div]
  simp only [whole, sum?_eq_some, UInt64.toNat_div, toNat_scaledSubsecond, toNat_nanosPerSecond]
  constructor
  case mp =>
    rintro ⟨p, hp, hs⟩
    rw [hs, hp]
  case mpr =>
    intro hs
    have fits : d.seconds * k.toNat < UInt64.size :=
      Nat.lt_of_le_of_lt (hs ▸ Nat.le_add_right ..) s.toNat_lt_size
    have held := UInt64.toNat_ofNat_of_lt' fits
    exact ⟨.ofNat (d.seconds * k.toNat), held, held.symm ▸ hs⟩

@[simp]
theorem nanos_scale (d : Duration) (k : UInt32) :
    (d.scale k).nanos = min (d.nanos * k.toNat) longestNanos := by
  have parts := Nat.div_add_mod' (d.nanos * k.toNat) nanosPerSecond
  unfold scale
  cases h : d.scaledSeconds? k
  case none =>
    -- If no word holds the seconds, the product is beyond the longest span.
    have beyond : UInt64.size ≤ d.nanos * k.toNat / nanosPerSecond := by
      refine Nat.le_of_not_lt fun fits => ?_
      cases h.symm.trans (scaledSeconds?_eq_some.mpr (UInt64.toNat_ofNat_of_lt' fits))
    have longer : longestNanos ≤ d.nanos * k.toNat := by
      have whole := Nat.mul_le_mul_right nanosPerSecond beyond
      simp only [longestNanos, UInt64.size] at whole ⊢
      omega
    exact (Nat.min_eq_right longer).symm
  case some s =>
    have rest : (d.scaledSubsecond k % nanosPerSecond.toUInt64).toUInt32.toNat =
        d.nanos * k.toNat % nanosPerSecond := by
      have short : d.subsecond * k.toNat % nanosPerSecond < 2 ^ 32 :=
        Nat.lt_trans (Nat.mod_lt _ (by decide)) (by decide)
      rw [UInt64.toNat_toUInt32, UInt64.toNat_mod, toNat_scaledSubsecond, toNat_nanosPerSecond,
        Nat.mod_eq_of_lt short, scaled_mod]
    rw [Option.elim_some, ofWords, nanos_ofNanos, scaledSeconds?_eq_some.mp h, rest, parts]

theorem isShorter_iff {a b : Duration} : a.isShorter b = true ↔ a.nanos < b.nanos := by
  simp only [isShorter, Bool.or_eq_true, Bool.and_eq_true, decide_eq_true_eq, beq_iff_eq]
  simp only [seconds, subsecond, nanosPerSecond]
  omega

@[simp]
theorem nanos_shorter (a b : Duration) : (a.shorter b).nanos = min a.nanos b.nanos := by
  unfold shorter
  split
  case isTrue h  => exact (Nat.min_eq_right (Nat.le_of_lt (isShorter_iff.mp h))).symm
  case isFalse h => exact (Nat.min_eq_left (Nat.le_of_not_lt (mt isShorter_iff.mpr h))).symm

end Duration

namespace Backoff

variable {b : Backoff} {m n : Nat}

-- The doublings fit a word of 32 bits, since no more of them are made than it has room for.
theorem toNat_factor (n : Nat) : (factor n).toNat = 2 ^ min n maxDoublings := by
  have few : min n maxDoublings < 32 := Nat.lt_of_le_of_lt (Nat.min_le_right ..) (by decide)
  have fits : 2 ^ min n maxDoublings < 2 ^ 32 := Nat.pow_lt_pow_right (by decide) few
  have count : (min n maxDoublings).toUInt32.toNat = min n maxDoublings :=
    UInt32.toNat_ofNat_of_lt' (Nat.lt_trans few (by decide))
  rw [factor, UInt32.toNat_shiftLeft, count, Nat.mod_eq_of_lt few, UInt32.toNat_one,
    Nat.one_shiftLeft, Nat.mod_eq_of_lt fits]

theorem nanos_delay (b : Backoff) (n : Nat) :
    (b.delay n).nanos = min b.max.nanos (b.base.nanos * 2 ^ min n maxDoublings) := by
  have bound := b.max.le_longest
  rw [delay, Duration.nanos_shorter, Duration.nanos_scale, toNat_factor]
  omega

theorem delay_le_max : (b.delay n).nanos ≤ b.max.nanos :=
  nanos_delay b n ▸ Nat.min_le_left ..

theorem delay_mono (h : m ≤ n) : (b.delay m).nanos ≤ (b.delay n).nanos := by
  have doublings : 2 ^ min m maxDoublings ≤ 2 ^ min n maxDoublings :=
    Nat.pow_le_pow_right Nat.two_pos (by omega)
  have scaled := Nat.mul_le_mul_left b.base.nanos doublings
  rw [nanos_delay, nanos_delay]
  omega

-- Only a first pause that is still short of the longest one after all doublings can tell that they end.
theorem delay_eq_doubled_iff (b : Backoff) (n : Nat) :
    (b.delay n).nanos = min b.max.nanos (b.base.nanos * 2 ^ n) ↔
      n ≤ maxDoublings ∨ b.base.nanos = 0 ∨ b.max.nanos ≤ b.base.nanos * 2 ^ maxDoublings := by
  rw [nanos_delay]
  obtain few | many := Nat.lt_or_ge maxDoublings n |>.symm
  case inl => exact iff_of_true (by rw [Nat.min_eq_left few]) (.inl few)
  case inr =>
    have scaled : b.base.nanos * 2 ^ maxDoublings ≤ b.base.nanos * 2 ^ n :=
      Nat.mul_le_mul_left _ (Nat.pow_le_pow_right Nat.two_pos (Nat.le_of_lt many))
    rw [Nat.min_eq_right (Nat.le_of_lt many), or_iff_right (Nat.not_le_of_lt many)]
    constructor
    case mp =>
      intro same
      obtain zero | pos := Nat.eq_zero_or_pos b.base.nanos
      case inl => exact .inl zero
      case inr =>
        have grows : b.base.nanos * 2 ^ maxDoublings < b.base.nanos * 2 ^ n :=
          Nat.mul_lt_mul_of_pos_left (Nat.pow_lt_pow_right (by decide) many) pos
        exact .inr (by omega)
    case mpr =>
      rintro (zero | reached)
      · rw [zero, Nat.zero_mul, Nat.zero_mul]
      · omega

-- Every pause is the first one doubled with each retry, to the nanosecond, but no longer than the longest
-- one, exactly if it is doubled no more often than a word of 32 bits has room for, or there is nothing to
-- double, or the longest one is reached by then. In any case it is the first one doubled as often as there
-- is room, it is never longer than the longest one, and it does not get shorter from retry to retry. Neither
-- the doublings nor the nanoseconds leave their words, and the seconds do only beyond the longest span.
theorem pauses_double_up_to_longest (b : Backoff) (n : Nat) :
    ((b.delay n).nanos = min b.max.nanos (b.base.nanos * 2 ^ n) ↔
      n ≤ 31 ∨ b.base.nanos = 0 ∨ b.max.nanos ≤ b.base.nanos * 2 ^ 31) ∧
    (b.delay n).nanos = min b.max.nanos (b.base.nanos * 2 ^ min n 31) ∧
    (b.delay n).nanos ≤ b.max.nanos ∧
    (∀ m ≤ n, (b.delay m).nanos ≤ (b.delay n).nanos) ∧
    (factor n).toNat = 2 ^ min n 31 ∧
    (b.base.scaledSubsecond (factor n)).toNat = b.base.subsecond * 2 ^ min n 31 ∧
    ∀ s, b.base.scaledSeconds? (factor n) = some s ↔
      s.toNat = b.base.nanos * 2 ^ min n 31 / nanosPerSecond := by
  have doublings : (factor n).toNat = 2 ^ min n 31 := toNat_factor n
  refine ⟨delay_eq_doubled_iff b n, nanos_delay b n, delay_le_max, fun m => delay_mono, doublings, ?_, ?_⟩
  case refine_1 => rw [Duration.toNat_scaledSubsecond, doublings]
  case refine_2 => exact fun s => doublings ▸ Duration.scaledSeconds?_eq_some

def vast : Backoff := ⟨.ofNanos (0x4000000000000000 * nanosPerSecond - 1), .longest⟩

theorem pauses_double_up_to_longest_vast :
    (vast.delay 2).seconds = 0xFFFFFFFFFFFFFFFF ∧ (vast.delay 2).subsecond = 999999996 ∧
      vast.delay 3 = .longest ∧ (vast.delay 3).nanos = min vast.max.nanos (vast.base.nanos * 2 ^ 3) ∧
      2 ≤ 3 ∧ (vast.delay 2).nanos ≤ (vast.delay 3).nanos := by
  obtain ⟨exact, -, -, grows, -⟩ := pauses_double_up_to_longest vast 3
  exact ⟨by decide, by decide, by decide, exact.mpr (.inl (by decide)), by decide, grows 2 (by decide)⟩

def patient : Backoff := ⟨.ofMillis 1, .ofSeconds 2592000⟩

-- A millisecond doubled 31 times is still short of thirty days, and there the pauses stay.
theorem not_doubled_up_to_longest :
    (patient.delay 32).nanos = 2147483648000000 ∧
      min patient.max.nanos (patient.base.nanos * 2 ^ 32) = 2592000000000000 ∧
      ¬∀ (b : Backoff) (n : Nat), n ≤ 0xFFFFFFFF →
        (b.delay n).nanos = min b.max.nanos (b.base.nanos * 2 ^ n) := by
  have stuck : (patient.delay 32).nanos ≠ min patient.max.nanos (patient.base.nanos * 2 ^ 32) := by
    decide
  exact ⟨by decide, by decide, fun h => stuck (h patient 32 (by decide))⟩

end Backoff
end Rendezvous
