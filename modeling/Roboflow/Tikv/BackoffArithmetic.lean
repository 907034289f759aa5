import Roboflow.Tikv.ClientConfig
import Roboflow.Tikv.LockGuards

/-! The delays between two attempts, `tikv/client.rs` and `tikv/locks.rs`, and the expiry of
a lock, `tikv/schema.rs`, with the arithmetic checked: a result that does not fit its type
is `none`, where the code panics or wraps. The loops differ in their delays only. -/
namespace Roboflow.Tikv

/-- `pow` of a base 2 with this many bits. -/
def checkedPow (bits exponent : Nat) : Option Nat :=
  if 2 ^ exponent < 2 ^ bits then some (2 ^ exponent) else none

/-- A `Duration` times a `u32`; it holds up to `u64::MAX` whole seconds. -/
def durationMul (duration factor : Nat) : Option Nat :=
  if duration * factor / 1000000000 < 2 ^ 64 then some (duration * factor) else none

/-- The delay after a failed attempt of `put`, `delete`, `batch_put`, `acquire_lock` and
`release_lock`, in milliseconds. -/
def TikvConfig.retryDelay (config : TikvConfig) (attempt : Nat) : Option Nat :=
  (checkedPow 64 attempt).map fun power => min (config.retryBaseDelayMs * power) (2 ^ 64 - 1)

/-- What `acquire_blocking` reads. -/
structure LockManagerConfig where
  backoffBaseDelay : Nat
  maxAcquireAttempts : Nat

def LockManagerConfig.default : LockManagerConfig where
  backoffBaseDelay := 50 * 1000000
  maxAcquireAttempts := 20

/-- The delay of `acquire_blocking` before its jitter, capped at five seconds. -/
def LockManagerConfig.backoffDelay (config : LockManagerConfig) (attempt : Nat) : Option Nat :=
  ((checkedPow 32 (attempt - 1)).bind (durationMul config.backoffBaseDelay)).map
    (min · (5 * 1000000000))

/-- The delays of a loop with so many attempts left after this one, while the attempts are
made again. A delay that panics is the last. -/
def delays (delay : Nat → Option Nat) (again : Nat → Bool) (attempt : Nat) : Nat → List (Option Nat)
  | 0 => []
  | left + 1 =>
    if again attempt then
      delay attempt :: if (delay attempt).isSome then delays delay again (attempt + 1) left else []
    else []

/-- The retry loops of the client; `again` says which attempts fail and may be repeated. An open
circuit breaker ends those of `put` and `delete` early; the others do not ask it. -/
def TikvConfig.retryDelays (config : TikvConfig) (again : Nat → Bool) : List (Option Nat) :=
  delays config.retryDelay again 0 config.maxRetries

/-- `acquire_blocking`; `again` says before which attempts it has not timed out and which
find the lock taken. The first of its attempts is counted before its delay. -/
def LockManagerConfig.acquireDelays (config : LockManagerConfig) (again : Nat → Bool) :
    List (Option Nat) :=
  delays (fun attempt => config.backoffDelay (attempt + 1)) again 0 (config.maxAcquireAttempts - 1)

/-- The bounds of chrono: the seconds of a `TimeDelta` and the latest `DateTime<Utc>`. -/
structure Chrono where
  maxSeconds : Int
  latest : Time

/-- `now + chrono::Duration::seconds(ttl_seconds)`, which panics out of chrono's bounds. -/
def Chrono.expiresAt (chrono : Chrono) (now : Time) (ttlSeconds : Int) : Option Time :=
  if chrono.maxSeconds < |ttlSeconds| then none
  else if chrono.latest < now + seconds ttlSeconds then none
  else some (now + seconds ttlSeconds)

/-- Where there is an expiry, it is the one of `LockRecord::new` and `LockRecord::extend`. -/
theorem Chrono.expiresAt_record {chrono : Chrono} (expires : chrono.expiresAt now ttl = some time)
    (resource owner : String) (lock : LockRecord) :
    (LockRecord.new resource owner ttl now).expiresAt = time ∧ (lock.extend ttl now).expiresAt = time := by
  unfold Chrono.expiresAt at expires
  split at expires
  · cases expires
  · split at expires
    · cases expires
    · cases expires
      exact ⟨rfl, rfl⟩

/-- Every delay of the loops and the expiry of every lock fits its type. -/
structure FitsTypes (config : TikvConfig) (manager : LockManagerConfig) (chrono : Chrono)
    (now : Time) (ttl : Nat) : Prop where
  retries : ∀ again, none ∉ config.retryDelays again
  acquires : ∀ again, none ∉ manager.acquireDelays again
  expires : chrono.expiresAt now (ttlSecs ttl) ≠ none

/-- The bounds that keep them there. -/
structure WithinBounds (config : TikvConfig) (manager : LockManagerConfig) (chrono : Chrono)
    (now : Time) (ttl : Nat) : Prop where
  retries : config.maxRetries ≤ 64
  attempts : manager.maxAcquireAttempts ≤ 33
  delay : 2 ≤ manager.maxAcquireAttempts →
    manager.backoffBaseDelay * 2 ^ (manager.maxAcquireAttempts - 2) / 1000000000 < 2 ^ 64
  seconds : ttlSecs ttl ≤ chrono.maxSeconds
  expiry : now + Roboflow.seconds (ttlSecs ttl) ≤ chrono.latest

/-! ### The loops -/

theorem delays_reached {delay : Nat → Option Nat}
    (fits : none ∉ delays delay (fun _ => true) attempt left) :
    ∀ later, attempt ≤ later → later < attempt + left → delay later ≠ none := by
  induction left generalizing attempt with
  | zero =>
    intro later since before
    omega
  | succ left ih =>
    simp only [delays, ↓reduceIte, List.mem_cons, not_or] at fits
    obtain ⟨own, rest⟩ := fits
    have present : (delay attempt).isSome := Option.isSome_iff_ne_none.mpr fun missing => own missing.symm
    rw [if_pos present] at rest
    intro later since before
    rcases since.eq_or_lt with rfl | beyond
    · exact fun missing => own missing.symm
    · exact ih rest later beyond (by omega)

theorem delays_present {delay : Nat → Option Nat}
    (present : ∀ later, attempt ≤ later → later < attempt + left → delay later ≠ none)
    (again : Nat → Bool) : none ∉ delays delay again attempt left := by
  induction left generalizing attempt with
  | zero => exact List.not_mem_nil
  | succ left ih =>
    have own := present attempt le_rfl (by omega)
    have rest : none ∉ delays delay again (attempt + 1) left :=
      ih fun later since before => present later (by omega) (by omega)
    intro missing
    simp only [delays] at missing
    split at missing
    · rcases List.mem_cons.mp missing with now | later
      · exact own now.symm
      · split at later
        · exact rest later
        · cases later
    · cases missing

/-- No delay of a loop is missing exactly if none is for the attempts that have one. -/
theorem delays_fit (delay : Nat → Option Nat) (count : Nat) :
    (∀ again, none ∉ delays delay again 0 count) ↔ ∀ attempt < count, delay attempt ≠ none := by
  constructor
  · intro fits attempt before
    exact delays_reached (fits fun _ => true) attempt (Nat.zero_le _) (by omega)
  · intro present again
    exact delays_present (fun later _ before => present later (by omega)) again

/-! ### The bounds -/

theorem checkedPow_eq (bits exponent : Nat) :
    checkedPow bits exponent = if exponent < bits then some (2 ^ exponent) else none :=
  if_congr (Nat.pow_lt_pow_iff_right (by decide)) rfl rfl

theorem retryDelays_fit (config : TikvConfig) :
    (∀ again, none ∉ config.retryDelays again) ↔ config.maxRetries ≤ 64 := by
  unfold TikvConfig.retryDelays
  rw [delays_fit]
  have one : ∀ attempt, config.retryDelay attempt ≠ none ↔ attempt < 64 := by
    intro attempt
    simp [TikvConfig.retryDelay, checkedPow_eq]
  simp only [one]
  constructor
  · intro fits
    by_contra more
    have last := fits 64 (by omega)
    omega
  · intro few attempt before
    omega

theorem backoffDelay_ne_none (config : LockManagerConfig) :
    config.backoffDelay (attempt + 1) ≠ none ↔
      attempt < 32 ∧ config.backoffBaseDelay * 2 ^ attempt / 1000000000 < 2 ^ 64 := by
  unfold LockManagerConfig.backoffDelay durationMul
  rw [Nat.add_sub_cancel, checkedPow_eq]
  by_cases small : attempt < 32
  · simp [small]
  · simp [small]

theorem acquireDelays_fit (config : LockManagerConfig) :
    (∀ again, none ∉ config.acquireDelays again) ↔
      config.maxAcquireAttempts ≤ 33 ∧ (2 ≤ config.maxAcquireAttempts →
        config.backoffBaseDelay * 2 ^ (config.maxAcquireAttempts - 2) / 1000000000 < 2 ^ 64) := by
  unfold LockManagerConfig.acquireDelays
  rw [delays_fit]
  simp only [backoffDelay_ne_none]
  constructor
  · intro fits
    constructor
    · by_contra more
      have last := (fits 32 (by omega)).1
      omega
    · intro some_
      exact (fits (config.maxAcquireAttempts - 2) (by omega)).2
  · rintro ⟨few, room⟩ attempt before
    refine ⟨by omega, lt_of_le_of_lt ?_ (room (by omega))⟩
    -- the last delay is the longest
    apply Nat.div_le_div_right
    apply Nat.mul_le_mul_left
    exact Nat.pow_le_pow_right (by decide) (by omega)

theorem ttlSecs_nonneg (ttl : Nat) : 0 ≤ ttlSecs ttl := by
  unfold ttlSecs
  simp only
  omega

theorem expiresAt_ne_none (chrono : Chrono) (now : Time) (ttl : Nat) :
    chrono.expiresAt now (ttlSecs ttl) ≠ none ↔
      ttlSecs ttl ≤ chrono.maxSeconds ∧ now + seconds (ttlSecs ttl) ≤ chrono.latest := by
  unfold Chrono.expiresAt
  rw [abs_of_nonneg (ttlSecs_nonneg ttl)]
  split
  · rename_i above
    simp [not_le.mpr above]
  · rename_i within
    split
    · rename_i after
      simp [not_le.mpr after]
    · rename_i before
      simp [not_lt.mp within, not_lt.mp before]

/-- No delay and no expiry panics or wraps exactly within the bounds. -/
theorem backoff_fits_iff (config : TikvConfig) (manager : LockManagerConfig) (chrono : Chrono)
    (now : Time) (ttl : Nat) :
    FitsTypes config manager chrono now ttl ↔ WithinBounds config manager chrono now ttl := by
  constructor
  · rintro ⟨retries, acquires, expires⟩
    obtain ⟨attempts, delay⟩ := (acquireDelays_fit manager).mp acquires
    obtain ⟨seconds, expiry⟩ := (expiresAt_ne_none chrono now ttl).mp expires
    exact ⟨(retryDelays_fit config).mp retries, attempts, delay, seconds, expiry⟩
  · rintro ⟨retries, attempts, delay, seconds, expiry⟩
    exact ⟨(retryDelays_fit config).mpr retries, (acquireDelays_fit manager).mpr ⟨attempts, delay⟩,
      (expiresAt_ne_none chrono now ttl).mpr ⟨seconds, expiry⟩⟩

/-- The default configurations are within the bounds, for every time and ttl that chrono can add. -/
theorem default_within (chrono : Chrono) (now : Time) (ttl : Nat)
    (seconds : ttlSecs ttl ≤ chrono.maxSeconds)
    (expiry : now + Roboflow.seconds (ttlSecs ttl) ≤ chrono.latest) :
    WithinBounds .default .default chrono now ttl where
  retries := by decide
  attempts := by decide
  delay := by decide
  seconds := seconds
  expiry := expiry

/-- chrono as it is: `i64::MAX / 1000` seconds, and the end of the year 262142. -/
def chronoBounds : Chrono where
  maxSeconds := (2 ^ 63 - 1) / 1000
  latest := 8210266876799999999999

/-- `Duration::MAX`, in nanoseconds. -/
def durationMax : Nat := (2 ^ 64 - 1) * 1000000000 + 999999999

/-- A lock that stays taken for 34 attempts without a base delay: the 33rd delay needs 2 to the 32nd
as a `u32`. And the longest ttl there is has more seconds than chrono takes. -/
theorem acquire_delay_overflows :
    none ∈ (LockManagerConfig.mk 0 34).acquireDelays (fun _ => true) ∧
      chronoBounds.expiresAt 0 (ttlSecs durationMax) = none ∧
      ¬ ∀ (config : TikvConfig) (manager : LockManagerConfig) (now : Time) (ttl : Nat),
        config.validate = .ok () → FitsTypes config manager chronoBounds now ttl := by
  refine ⟨by decide, by decide, fun claimed => ?_⟩
  have fits := claimed .default ⟨0, 34⟩ 0 durationMax rfl
  exact fits.expires (by decide)

end Roboflow.Tikv
