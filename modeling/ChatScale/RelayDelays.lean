import ChatScale.RelayBatch

/-!
# The waits between publish attempts

The delay is doubled after every failed attempt and cut off at five seconds, but
the shift and the product are taken in 64 bits before the comparison. As long as
the product fits, the delays are the intended ones; the first product that does
not fit is negative.
-/

namespace ChatScale.RelayDelays

open ChatScale.ByteText ChatScale.OutboxRelayModel ChatScale.RelayBatch

set_option autoImplicit false

/-- A configuration `New` accepts, in the ranges of its types: a duration and a
count are 64-bit integers. -/
structure TypedConfig extends BatchConfig where
  backoffFits : retryBackoff < 2 ^ 63
  retriesFit : maxRetries < 2 ^ 63

def waitOf : Call → Option Int
  | .wait delay => some delay
  | _ => none

/-- The delays of a list of calls, the one after the first attempt first. -/
def waits (calls : List Call) : List Int := calls.filterMap waitOf

/-- The delays that are meant, computed over the integers. -/
structure Capped (config : BatchConfig) (delays : List Int) : Prop where
  doubled : ∀ index delay, delays[index]? = some delay →
    delay = min (config.retryBackoff * 2 ^ index) maxDelay
  positive : ∀ delay ∈ delays, 0 < delay
  bounded : ∀ delay ∈ delays, delay ≤ maxDelay
  ordered : delays.Pairwise (· ≤ ·)

section Integers

theorem int64_of_fits {value : Int} (positive : 0 < value) (fits : value < 2 ^ 63) :
    int64 value = value := by
  rw [int64, Int.bmod_def]
  omega

theorem int64_of_overflow {value : Int} (lower : 2 ^ 63 ≤ value) (upper : value < 2 ^ 64) :
    int64 value = value - 2 ^ 64 := by
  rw [int64, Int.bmod_def]
  omega

theorem int64_shift (value : Int) (count : Nat) :
    int64 (value * int64 (2 ^ count)) = int64 (value * 2 ^ count) :=
  Int.mul_bmod_bmod

/-- Doubling reaches 64 bits before it passes them. -/
theorem first_overflow {value : Int} {count : Nat} (fits : value < 2 ^ 63)
    (large : 2 ^ 63 ≤ value * 2 ^ count) :
    ∃ first ≤ count, 2 ^ 63 ≤ value * 2 ^ first ∧ value * 2 ^ first < 2 ^ 64 := by
  induction count with
  | zero =>
      rw [pow_zero, mul_one] at large
      omega
  | succ count induction =>
      by_cases earlier : 2 ^ 63 ≤ value * 2 ^ count
      · obtain ⟨first, before, bounds⟩ := induction earlier
        exact ⟨first, Nat.le_succ_of_le before, bounds⟩
      · refine ⟨count + 1, le_refl _, large, ?_⟩
        rw [pow_succ, ← mul_assoc]
        omega

end Integers

section Delays

variable {config : BatchConfig}

theorem retry_delay_fits {count : Nat} (fits : config.retryBackoff * 2 ^ count < 2 ^ 63) :
    retryDelay config (count + 1) = min (config.retryBackoff * 2 ^ count) maxDelay := by
  have positive : 0 < config.retryBackoff * 2 ^ count :=
    mul_pos config.backoffPositive (pow_pos two_pos count)
  simp only [retryDelay, Nat.add_sub_cancel, int64_shift, int64_of_fits positive fits]
  omega

theorem retry_delay_overflow {count : Nat} (lower : 2 ^ 63 ≤ config.retryBackoff * 2 ^ count)
    (upper : config.retryBackoff * 2 ^ count < 2 ^ 64) : retryDelay config (count + 1) < 0 := by
  simp only [retryDelay, Nat.add_sub_cancel, int64_shift, int64_of_overflow lower upper, maxDelay]
  omega

theorem waits_attempts (config : BatchConfig) (entry : Entry) (first count : Nat) :
    waits (attempts config entry first (count + 1)) =
      (List.range' first count).map (retryDelay config) := by
  induction count generalizing first with
  | zero => rfl
  | succ count induction =>
      rw [attempts_more, List.range'_succ, List.map_cons, ← induction]
      rfl

/-- The waits of a call are the delays after its first failed attempts. -/
theorem publish_waits {Error : Type} (config : BatchConfig) (entry : Entry)
    (answers : Answers Error) :
    ∃ made < config.maxRetries, waits (publishWithRetry config entry answers).1 =
      (List.range' 1 made).map (retryDelay config) := by
  have some := config.retriesPositive
  cases found : firstSuccess answers 1 config.maxRetries with
  | some attempt =>
      have bounds := first_success_bounds found
      obtain ⟨receipt, published⟩ := publish_succeeds entry found
      refine ⟨attempt - 1, by omega, ?_⟩
      rw [published, ← waits_attempts config entry, Nat.sub_add_cancel bounds.1]
  | none =>
      obtain ⟨error, published⟩ := publish_fails entry found
      refine ⟨config.maxRetries - 1, by omega, ?_⟩
      rw [published, ← waits_attempts config entry, Nat.sub_add_cancel some]

theorem failed_waits (entry : Entry) :
    waits (publishWithRetry config entry (⟨fun _ => .error (), .ok ()⟩ : Answers Unit)).1 =
      (List.range' 1 (config.maxRetries - 1)).map (retryDelay config) := by
  have allFailed : firstSuccess (⟨fun _ => .error (), .ok ()⟩ : Answers Unit) 1
      config.maxRetries = none := first_success_none fun _ _ _ => rfl
  obtain ⟨error, published⟩ := publish_fails entry allFailed
  rw [published, ← waits_attempts config entry, Nat.sub_add_cancel config.retriesPositive]

theorem doubled_mono (config : BatchConfig) {left right : Nat} (before : left ≤ right) :
    config.retryBackoff * 2 ^ left ≤ config.retryBackoff * 2 ^ right :=
  mul_le_mul_of_nonneg_left (pow_le_pow_right₀ one_le_two before) config.backoffPositive.le

theorem capped_of_fits {made : Nat}
    (fits : ∀ count < made, config.retryBackoff * 2 ^ count < 2 ^ 63) :
    Capped config ((List.range' 1 made).map (retryDelay config)) := by
  have delays : (List.range' 1 made).map (retryDelay config) =
      (List.range made).map fun count => min (config.retryBackoff * 2 ^ count) maxDelay := by
    rw [List.range'_eq_map_range, List.map_map]
    apply List.map_congr_left
    intro count inside
    rw [Function.comp, Nat.add_comm]
    exact retry_delay_fits (fits count (List.mem_range.mp inside))
  rw [delays]
  constructor
  · intro index delay found
    rw [List.getElem?_map, Option.map_eq_some_iff] at found
    obtain ⟨count, placed, rfl⟩ := found
    obtain ⟨_, rfl⟩ := List.getElem?_eq_some_iff.mp placed
    rw [List.getElem_range]
  · intro delay listed
    obtain ⟨count, _, rfl⟩ := List.mem_map.mp listed
    exact lt_min (mul_pos config.backoffPositive (pow_pos two_pos count)) (by decide)
  · intro delay listed
    obtain ⟨count, _, rfl⟩ := List.mem_map.mp listed
    exact min_le_right _ _
  · apply List.Pairwise.map _ _ List.pairwise_lt_range
    intro left right before
    exact min_le_min_right _ (doubled_mono config before.le)

end Delays

theorem delays_capped {Error : Type} {config : BatchConfig}
    (fit : config.maxRetries ≤ 1 ∨ config.retryBackoff * 2 ^ (config.maxRetries - 2) < 2 ^ 63)
    (entry : Entry) (answers : Answers Error) :
    Capped config (waits (publishWithRetry config entry answers).1) := by
  obtain ⟨made, bound, same⟩ := publish_waits config entry answers
  rw [same]
  apply capped_of_fits
  intro count inside
  rcases fit with single | fits
  · omega
  · exact lt_of_le_of_lt (doubled_mono config (by omega)) fits

/-- Nothing overflows within the limits of the environment variables, a backoff
of five seconds and ten attempts. -/
theorem loaded_delays_capped {Error : Type} {config : BatchConfig}
    (backoff : config.retryBackoff ≤ maxDelay) (retries : config.maxRetries ≤ 10)
    (entry : Entry) (answers : Answers Error) :
    Capped config (waits (publishWithRetry config entry answers).1) := by
  apply delays_capped
  right
  calc config.retryBackoff * 2 ^ (config.maxRetries - 2)
      ≤ config.retryBackoff * 2 ^ 8 := doubled_mono config (by omega)
    _ ≤ maxDelay * 2 ^ 8 := by omega
    _ < 2 ^ 63 := by decide

/-- The waits of `publishWithRetry` are the intended ones for every entry and
all answers exactly if the largest product fits 64 bits. -/
theorem delays_capped_iff (config : TypedConfig) :
    (∀ (Error : Type) (entry : Entry) (answers : Answers Error),
      Capped config.toBatchConfig
        (waits (publishWithRetry config.toBatchConfig entry answers).1)) ↔
      config.maxRetries ≤ 1 ∨ config.retryBackoff * 2 ^ (config.maxRetries - 2) < 2 ^ 63 := by
  constructor
  · intro capped
    by_contra overflow
    rw [not_or, not_le, not_lt] at overflow
    obtain ⟨first, before, lower, upper⟩ := first_overflow config.backoffFits overflow.2
    have negative := retry_delay_overflow lower upper
    have allFailed := capped Unit ⟨[], [], 0, []⟩ ⟨fun _ => .error (), .ok ()⟩
    rw [failed_waits] at allFailed
    have waited : retryDelay config.toBatchConfig (first + 1) ∈
        (List.range' 1 (config.maxRetries - 1)).map (retryDelay config.toBatchConfig) := by
      apply List.mem_map_of_mem
      apply List.mem_range'_1.mpr
      omega
    exact lt_asymm negative (allFailed.positive _ waited)
  · intro fit Error entry answers
    exact delays_capped fit entry answers

/-- A backoff of one second and 36 attempts. -/
def patientConfig : TypedConfig :=
  ⟨⟨⟨100, 36, by decide, by decide⟩, ascii "chat.messages", 1000000000, by decide, by decide⟩,
    by decide, by decide⟩

/-- The wait before the last attempt is negative. -/
theorem last_wait_negative :
    ¬ Capped patientConfig.toBatchConfig (waits (publishWithRetry patientConfig.toBatchConfig
      ⟨[], [], 0, []⟩ (⟨fun _ => .error (), .ok ()⟩ : Answers Unit)).1) := by
  intro capped
  have waited : (waits (publishWithRetry patientConfig.toBatchConfig
      ⟨[], [], 0, []⟩ (⟨fun _ => .error (), .ok ()⟩ : Answers Unit)).1)[34]? =
      some (-1266874889709551616) := by
    decide +kernel
  have negative := capped.positive _ (List.mem_of_getElem? waited)
  exact absurd negative (by decide)

end ChatScale.RelayDelays
