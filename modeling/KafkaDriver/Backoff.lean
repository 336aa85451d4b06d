import KafkaDriver.Bootstrap
import Mathlib.Algebra.Order.Floor.Div
import Mathlib.Order.Interval.Set.Defs

/-!
# The delays of a backoff policy

`delay` is computed on 64-bit words. `delayU64` follows the same steps with a value only where
no step wraps or divides by zero, and `delays_jittered` says that it always has one : the
delays of a retry are exactly the upper half of the interval up to its `cap`, which is the
capped exponential with the exponent clamped at 63. The clamp shows in one place only, a base
of one nanosecond (`cap_eq_iff`).
-/

namespace KafkaDriver

inductive BackoffPolicyError where
  | zeroBase
  | maxBelowBase
  | durationTooLarge

namespace BackoffPolicy

/-- A policy of two durations, given in nanoseconds. -/
def tryNew (base max : ℕ) : Except BackoffPolicyError BackoffPolicy :=
  if u64Max < base then .error .durationTooLarge
  else if hm : u64Max < max then .error .durationTooLarge
  else if hz : base = 0 then .error .zeroBase
  else if hb : max < base then .error .maxBelowBase
  else .ok ⟨base, max, Nat.pos_of_ne_zero hz, Nat.le_of_not_lt hb, Nat.le_of_not_lt hm⟩

/-! ## Arithmetic of 64-bit words -/

def checkedAdd (a b : ℕ) : Option ℕ := if a + b ≤ u64Max then some (a + b) else none

def checkedSub (a b : ℕ) : Option ℕ := if b ≤ a then some (a - b) else none

def checkedRem (a b : ℕ) : Option ℕ := if b = 0 then none else some (a % b)

def saturatingMul (a b : ℕ) : ℕ := min (a * b) u64Max

/-- `1 << n`, absent if the bit is shifted out of the word. -/
def checkedShl (n : ℕ) : Option ℕ := if n < 64 then some (2 ^ n) else none

/-- `delay`, step by step : absent if a step wraps or divides by zero. -/
def delayU64 (policy : BackoffPolicy) (retry : RetryOrdinal) (jitter : ℕ) : Option ℕ := do
  let exponent := min (retry.get - 1) 63
  let multiplier := (checkedShl exponent).getD u64Max
  let cap := min (saturatingMul policy.baseNanos multiplier) policy.maxNanos
  let floor := cap / 2 + if 0 < cap % 2 then 1 else 0
  let width ← checkedAdd (← checkedSub cap floor) 1
  checkedAdd floor (← checkedRem jitter width)

/-! ## The capped exponential -/

/-- The bound of a retry's delay. -/
def cap (policy : BackoffPolicy) (retry : RetryOrdinal) : ℕ :=
  min policy.maxNanos (policy.baseNanos * 2 ^ min (retry.get - 1) 63)

variable {base max : ℕ} {policy : BackoffPolicy} {retry : RetryOrdinal}

theorem tryNew_eq_ok :
    tryNew base max = .ok policy ↔ policy.baseNanos = base ∧ policy.maxNanos = max := by
  unfold tryNew
  constructor
  · intro h
    split_ifs at h
    cases h
    exact ⟨rfl, rfl⟩
  · rintro ⟨rfl, rfl⟩
    have hp := policy.base_pos
    have hb := policy.base_le
    have hm := policy.max_le
    rw [if_neg (by omega), dif_neg (by omega), dif_neg (by omega), dif_neg (by omega)]

theorem cap_pos (policy : BackoffPolicy) (retry : RetryOrdinal) : 0 < policy.cap retry :=
  lt_min (policy.base_pos.trans_le policy.base_le) (Nat.mul_pos policy.base_pos (Nat.two_pow_pos _))

theorem cap_le : policy.cap retry ≤ policy.maxNanos := min_le_left ..

theorem cap_mono {later : RetryOrdinal} (h : retry.get ≤ later.get) :
    policy.cap retry ≤ policy.cap later := by
  have he : min (retry.get - 1) 63 ≤ min (later.get - 1) 63 := by omega
  exact min_le_min_left _ (Nat.mul_le_mul_left _ (Nat.pow_le_pow_right Nat.two_pos he))

/-- The cap of the code, which saturates before it takes the maximum. -/
theorem min_saturatingMul (policy : BackoffPolicy) (retry : RetryOrdinal) :
    min (saturatingMul policy.baseNanos (2 ^ min (retry.get - 1) 63)) policy.maxNanos =
      policy.cap retry := by
  have hm := policy.max_le
  unfold cap saturatingMul
  omega

theorem delay_eq (policy : BackoffPolicy) (retry : RetryOrdinal) (jitter : ℕ) :
    policy.delay retry jitter = (policy.cap retry + 1) / 2 +
      jitter % (policy.cap retry - (policy.cap retry + 1) / 2 + 1) := by
  rw [← min_saturatingMul]
  rfl

theorem ceilDiv_two (n : ℕ) : n ⌈/⌉ 2 = (n + 1) / 2 := Nat.ceilDiv_eq_add_pred_div n 2

/-- The delays of a retry are the upper half of the interval up to its cap. -/
theorem image_delay (policy : BackoffPolicy) (retry : RetryOrdinal) :
    policy.delay retry '' Set.Iic u64Max = Set.Icc (policy.cap retry ⌈/⌉ 2) (policy.cap retry) := by
  rw [ceilDiv_two]
  ext d
  constructor
  · rintro ⟨jitter, -, rfl⟩
    rw [delay_eq]
    have rem := Nat.mod_lt jitter (Nat.add_one_pos (policy.cap retry - (policy.cap retry + 1) / 2))
    exact ⟨Nat.le_add_right .., by omega⟩
  · rintro ⟨ha, hb⟩
    have hm := policy.max_le
    have hc : policy.cap retry ≤ policy.maxNanos := cap_le
    refine ⟨d - (policy.cap retry + 1) / 2, Set.mem_Iic.2 (by omega), ?_⟩
    rw [delay_eq, Nat.mod_eq_of_lt (by omega)]
    omega

/-- No step of the computation wraps or divides by zero. -/
theorem delayU64_eq (policy : BackoffPolicy) (retry : RetryOrdinal) (jitter : ℕ) :
    policy.delayU64 retry jitter = some (policy.delay retry jitter) := by
  have shl : checkedShl (min (retry.get - 1) 63) = some (2 ^ min (retry.get - 1) 63) :=
    if_pos (by omega)
  have hm := policy.max_le
  have hc : policy.cap retry ≤ policy.maxNanos := cap_le
  have hp := policy.cap_pos retry
  have hf : policy.cap retry / 2 + (if 0 < policy.cap retry % 2 then 1 else 0) =
      (policy.cap retry + 1) / 2 := by
    split_ifs <;> omega
  have rem := Nat.mod_lt jitter (Nat.add_one_pos (policy.cap retry - (policy.cap retry + 1) / 2))
  have sub : checkedSub (policy.cap retry) ((policy.cap retry + 1) / 2) =
      some (policy.cap retry - (policy.cap retry + 1) / 2) := if_pos (by omega)
  have hw : checkedAdd (policy.cap retry - (policy.cap retry + 1) / 2) 1 =
      some (policy.cap retry - (policy.cap retry + 1) / 2 + 1) := if_pos (by omega)
  unfold delayU64
  simp only [shl, Option.getD_some, min_saturatingMul, hf, sub, hw, checkedRem,
    Option.bind_eq_bind, Option.bind_some, Nat.add_eq_zero_iff, one_ne_zero, and_false, if_false]
  rw [delay_eq]
  exact if_pos (by omega)

/-- Where the clamp of the exponent shows. -/
theorem cap_eq_iff : policy.cap retry = min policy.maxNanos (policy.baseNanos *
    2 ^ (retry.get - 1)) ↔
      ¬ (policy.baseNanos = 1 ∧ 64 < retry.get ∧ 2 ^ 63 < policy.maxNanos) := by
  have hp := policy.base_pos
  have hm : policy.maxNanos < 2 ^ 64 := Nat.lt_of_le_sub_one (Nat.two_pow_pos 64) policy.max_le
  unfold cap
  by_cases high : 64 < retry.get
  · rw [min_eq_right (by omega : 63 ≤ retry.get - 1)]
    have hx : 2 ^ 64 ≤ 2 ^ (retry.get - 1) := Nat.pow_le_pow_right Nat.two_pos (by omega)
    have ha : 2 ^ (retry.get - 1) ≤ policy.baseNanos * 2 ^ (retry.get - 1) :=
      Nat.le_mul_of_pos_left _ hp
    rw [min_eq_left (hm.le.trans (hx.trans ha)), min_eq_left_iff]
    omega
  · rw [min_eq_left (by omega : retry.get - 1 ≤ 63)]
    simp [high]

/-! ## Every accepted policy -/

/-- A policy is accepted if its durations are ordered, positive and fit a word, and then no
step of a delay wraps or divides by zero, the delays of a retry are exactly the upper half of
the interval up to its cap, which is positive, at most the maximum and exact but for a base of
one nanosecond, and both ends of the interval grow with the retries. -/
theorem delays_jittered :
    (∀ base max, (∃ policy, tryNew base max = .ok policy) ↔ 1 ≤ base ∧ base ≤ max ∧ max < 2 ^ 64) ∧
    ∀ base max policy, tryNew base max = .ok policy → ∀ retry : RetryOrdinal,
      policy.cap retry = min max (base * 2 ^ min (retry.get - 1) 63) ∧
      (policy.cap retry = min max (base * 2 ^ (retry.get - 1)) ↔
        ¬ (base = 1 ∧ 64 < retry.get ∧ 2 ^ 63 < max)) ∧
      (∀ jitter, policy.delayU64 retry jitter = some (policy.delay retry jitter)) ∧
      policy.delay retry '' Set.Iic u64Max = Set.Icc (policy.cap retry ⌈/⌉ 2) (policy.cap retry) ∧
      0 < policy.cap retry ⌈/⌉ 2 ∧ policy.cap retry ≤ max ∧
      ∀ later : RetryOrdinal, retry.get ≤ later.get → policy.cap retry ≤ policy.cap later ∧
        policy.cap retry ⌈/⌉ 2 ≤ policy.cap later ⌈/⌉ 2 := by
  refine ⟨fun base max => ⟨?_, ?_⟩, fun base max policy h retry => ?_⟩
  · rintro ⟨policy, h⟩
    obtain ⟨rfl, rfl⟩ := tryNew_eq_ok.1 h
    have hm := policy.max_le
    exact ⟨policy.base_pos, policy.base_le, Nat.lt_of_le_sub_one (Nat.two_pow_pos 64) hm⟩
  · rintro ⟨hp, hb, hm⟩
    exact ⟨⟨base, max, hp, hb, Nat.le_sub_one_of_lt hm⟩, tryNew_eq_ok.2 ⟨rfl, rfl⟩⟩
  · obtain ⟨rfl, rfl⟩ := tryNew_eq_ok.1 h
    refine ⟨rfl, cap_eq_iff, delayU64_eq policy retry, image_delay policy retry, ?_, cap_le,
      fun later hl => ⟨cap_mono hl, ?_⟩⟩
    · have hc := policy.cap_pos retry
      rw [ceilDiv_two]
      omega
    · have hc : policy.cap retry ≤ policy.cap later := cap_mono hl
      rw [ceilDiv_two, ceilDiv_two]
      omega

/-- A base of one nanosecond, after sixty-four retries : half of the exact cap is not reached. -/
theorem clamped_below_half :
    ∃ policy, tryNew 1 u64Max = .ok policy ∧ policy.delay ⟨65, by decide, by decide⟩ 0 = 2 ^ 62 ∧
      min u64Max (1 * 2 ^ (65 - 1)) ⌈/⌉ 2 = 2 ^ 63 :=
  ⟨⟨1, u64Max, by decide, by decide, le_rfl⟩, rfl, by decide, by rw [ceilDiv_two]; decide⟩

end BackoffPolicy

end KafkaDriver
