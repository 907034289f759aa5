import Roboflow.Tikv.Circuit
import Roboflow.Tikv.ClientConfig

/-! `TikvClient::put` behind its circuit breaker, `tikv/client.rs`. A put is tried again
after a write conflict, and every conflict is a failure to the breaker as well. What a
transaction comes to is given for every attempt, and so is what the clock shows at it; the
delay between two attempts shows in the clock only. -/
namespace Roboflow.Tikv

/-- What an attempt's transaction comes to. -/
inductive Outcome where
  | committed
  /-- Its begin, put or commit fails. -/
  | failed (message : String)
  /-- There is no underlying client. -/
  | notInitialized
  deriving DecidableEq

/-- What the clock shows when an attempt asks the breaker and when it records its end. -/
structure Reading where
  asked : Nat
  stamp : Nat
  recorded : Nat

/-- `put_once`, and `delete_once` with it. -/
def putOnce (circuit : CircuitConfig) (breaker : CircuitBreaker) (outcome : Outcome)
    (reading : Reading) : CircuitBreaker × Except TikvError Unit :=
  let permitted := breaker.isCallPermitted circuit reading.asked reading.stamp
  if permitted.2 then
    match outcome with
    | .committed => (permitted.1.recordSuccess circuit reading.recorded, .ok ())
    | .failed message =>
      (permitted.1.recordFailure circuit reading.recorded, .error (.clientError message))
    | .notInitialized => (permitted.1, .error (.connectionFailed "TiKV client not initialized"))
  else (permitted.1, .error (.circuitOpen (permitted.1.failures % 2 ^ 32)))

section
variable (circuit : CircuitConfig) (outcomes : Nat → Outcome) (readings : Nat → Reading)

/-- The loop of `put` from an attempt on, with as many more left. -/
def retryPut (attempt : Nat) : Nat → CircuitBreaker → CircuitBreaker × Except TikvError Unit
  | 0, breaker => putOnce circuit breaker (outcomes attempt) (readings attempt)
  | left + 1, breaker =>
    match putOnce circuit breaker (outcomes attempt) (readings attempt) with
    | (after, .ok ()) => (after, .ok ())
    | (after, .error error) =>
      if error.isWriteConflict then retryPut (attempt + 1) left after else (after, .error error)

def put (config : TikvConfig) (breaker : CircuitBreaker) : CircuitBreaker × Except TikvError Unit :=
  retryPut circuit outcomes readings 0 config.maxRetries breaker

end

/-- A message that `is_retryable` takes for a write conflict. -/
def retryableWriteConflict (message : String) : Bool :=
  contains message "WriteConflict" || contains message "Write Conflict" ||
    contains message "key_version"

/-- A put that succeeds and leaves the breaker closed. -/
def Succeeds (result : CircuitBreaker × Except TikvError Unit) : Prop :=
  result.2 = .ok () ∧ result.1.state = .closed

/-- The first of the attempts that a put makes to commit. -/
structure FirstCommit (config : TikvConfig) (outcomes : Nat → Outcome) (success : Nat) : Prop where
  reached : success ≤ config.maxRetries
  committed : outcomes success = .committed
  first : ∀ attempt < success, outcomes attempt ≠ .committed

/-- The whole seconds between the end of the attempt before and this one. -/
def waited (readings : Nat → Reading) (attempt : Nat) : Nat :=
  (nowTimestamp (readings attempt).asked - nowTimestamp (readings (attempt - 1)).recorded) * nanosPerSec

/-- From an attempt to the first commit: no conflict is one that `is_write_conflict` misses;
from the failure threshold on each attempt comes after the open timeout, and then one success
closes. -/
structure Spared (circuit : CircuitConfig) (outcomes : Nat → Outcome) (readings : Nat → Reading)
    (attempt success : Nat) : Prop where
  recognised : ∀ later, attempt ≤ later → later < success → ∀ message,
    outcomes later = .failed message → (TikvError.clientError message).isWriteConflict
  waits : ∀ later, attempt ≤ later → later ≤ success → circuit.failureThreshold ≤ later →
    circuit.openTimeout ≤ waited readings later
  closes : circuit.failureThreshold ≤ success → circuit.successThreshold ≤ 1

/-! ### One attempt -/

/-- The breaker before an attempt of a put all of whose attempts have conflicted. -/
structure Retrying (circuit : CircuitConfig) (readings : Nat → Reading) (attempt : Nat)
    (breaker : CircuitBreaker) : Prop where
  closed : attempt < circuit.failureThreshold → breaker.state = .closed ∧ breaker.failures = attempt
  opened : circuit.failureThreshold ≤ attempt → breaker.state = .opened ∧ breaker.successes = 0 ∧
    breaker.lastStateChange = nowTimestamp (readings (attempt - 1)).recorded

section
variable {circuit : CircuitConfig} {outcomes : Nat → Outcome} {readings : Nat → Reading}
  {attempt : Nat} {breaker : CircuitBreaker}

theorem putOnce_failed (permitted : breaker.isCallPermitted circuit reading.asked reading.stamp =
    (after, true)) (message : String) :
    putOnce circuit breaker (.failed message) reading =
      (after.recordFailure circuit reading.recorded, .error (.clientError message)) := by
  simp [putOnce, permitted]

theorem putOnce_committed (permitted : breaker.isCallPermitted circuit reading.asked reading.stamp =
    (after, true)) :
    putOnce circuit breaker .committed reading =
      (after.recordSuccess circuit reading.recorded, .ok ()) := by
  simp [putOnce, permitted]

theorem Retrying.refused (held : Retrying circuit readings attempt breaker)
    (late : circuit.failureThreshold ≤ attempt)
    (early : ¬ circuit.openTimeout ≤ waited readings attempt) (outcome : Outcome) :
    ∃ failures, putOnce circuit breaker outcome (readings attempt) =
      (breaker, .error (.circuitOpen failures)) := by
  obtain ⟨opened, -, since⟩ := held.opened late
  have refuses : breaker.isCallPermitted circuit (readings attempt).asked (readings attempt).stamp =
      (breaker, false) := by
    simp only [CircuitBreaker.isCallPermitted, opened, CircuitBreaker.shouldAttemptReset,
      CircuitBreaker.elapsed, since]
    exact if_neg (by simpa [waited] using early)
  refine ⟨breaker.failures % 2 ^ 32, ?_⟩
  simp [putOnce, refuses]

/-- Past the threshold and the open timeout an attempt is made half-open. -/
theorem Retrying.permitted (held : Retrying circuit readings attempt breaker)
    (late : circuit.failureThreshold ≤ attempt)
    (elapsed : circuit.openTimeout ≤ waited readings attempt) :
    breaker.isCallPermitted circuit (readings attempt).asked (readings attempt).stamp =
      (breaker.setState .halfOpen (readings attempt).stamp, true) := by
  obtain ⟨opened, -, since⟩ := held.opened late
  simp only [CircuitBreaker.isCallPermitted, opened, CircuitBreaker.shouldAttemptReset,
    CircuitBreaker.elapsed, since]
  exact if_pos (by simpa [waited] using elapsed)

theorem Retrying.conflict (held : Retrying circuit readings attempt breaker)
    (elapsed : circuit.failureThreshold ≤ attempt → circuit.openTimeout ≤ waited readings attempt)
    (message : String) :
    ∃ after, putOnce circuit breaker (.failed message) (readings attempt) =
        (after, .error (.clientError message)) ∧ Retrying circuit readings (attempt + 1) after := by
  by_cases late : circuit.failureThreshold ≤ attempt
  · refine ⟨_, putOnce_failed (held.permitted late (elapsed late)) message, ?_, ?_⟩
    · intro early
      omega
    · simp [CircuitBreaker.recordFailure]
  · obtain ⟨closed, failures⟩ := held.closed (by omega)
    have fits := circuit.failureFits
    have wraps : (breaker.failures + 1) % 2 ^ 64 = attempt + 1 := by
      rw [failures]
      exact Nat.mod_eq_of_lt (by omega)
    refine ⟨_, putOnce_failed (isCallPermitted_closed closed) message, ?_, ?_⟩
    · intro early
      simp only [CircuitBreaker.recordFailure, closed, wraps]
      rw [if_neg (by omega)]
      exact ⟨rfl, rfl⟩
    · intro reached
      simp only [CircuitBreaker.recordFailure, closed, wraps]
      rw [if_pos reached]
      simp

theorem Retrying.commit (held : Retrying circuit readings attempt breaker)
    (elapsed : circuit.failureThreshold ≤ attempt → circuit.openTimeout ≤ waited readings attempt) :
    Succeeds (putOnce circuit breaker .committed (readings attempt)) ↔
      (circuit.failureThreshold ≤ attempt → circuit.successThreshold ≤ 1) := by
  by_cases late : circuit.failureThreshold ≤ attempt
  · obtain ⟨-, none, -⟩ := held.opened late
    rw [putOnce_committed (held.permitted late (elapsed late))]
    have counted : (breaker.successes + 1) % 2 ^ 64 = 1 := by simp [none]
    simp only [Succeeds, CircuitBreaker.recordSuccess, CircuitBreaker.setState_state,
      CircuitBreaker.setState_halfOpen_successes, counted, late]
    by_cases enough : circuit.successThreshold ≤ 1
    · rw [if_pos enough]
      simp [enough]
    · rw [if_neg enough]
      simp [enough]
  · obtain ⟨closed, -⟩ := held.closed (by omega)
    rw [putOnce_committed (isCallPermitted_closed closed)]
    simp [Succeeds, CircuitBreaker.recordSuccess, closed, late]

/-- An attempt that commits, or fails with what is no write conflict, is the last. -/
theorem retryPut_last (once : putOnce circuit breaker (outcomes attempt) (readings attempt) = result)
    (ends : ∀ error, result.2 = .error error → error.isWriteConflict = false) (left : Nat) :
    retryPut circuit outcomes readings attempt left breaker = result := by
  cases left with
  | zero => exact once
  | succ left =>
    obtain ⟨after, answer⟩ := result
    cases answer with
    | ok =>
      simp only [retryPut, once]
    | error error =>
      simp only [retryPut, once]
      rw [ends error rfl]
      rfl

theorem retryPut_again (once : putOnce circuit breaker (outcomes attempt) (readings attempt) =
    (after, .error error)) (conflict : error.isWriteConflict) (left : Nat) :
    retryPut circuit outcomes readings attempt (left + 1) breaker =
      retryPut circuit outcomes readings (attempt + 1) left after := by
  simp only [retryPut, once]
  exact if_pos conflict

/-! ### The loop -/

theorem retryPut_refused (held : Retrying circuit readings attempt breaker)
    (early : ¬ (circuit.failureThreshold ≤ attempt → circuit.openTimeout ≤ waited readings attempt))
    (left : Nat) : ¬ Succeeds (retryPut circuit outcomes readings attempt left breaker) := by
  obtain ⟨late, early⟩ := Classical.not_imp.mp early
  obtain ⟨failures, refused⟩ := held.refused late early (outcomes attempt)
  rw [retryPut_last refused]
  · rintro ⟨answer, -⟩
    cases answer
  · rintro error same
    cases same
    rfl

theorem retryPut_commits (held : Retrying circuit readings attempt breaker)
    (elapsed : circuit.failureThreshold ≤ attempt → circuit.openTimeout ≤ waited readings attempt)
    (committed : outcomes attempt = .committed) (left : Nat) :
    Succeeds (retryPut circuit outcomes readings attempt left breaker) ↔
      (circuit.failureThreshold ≤ attempt → circuit.successThreshold ≤ 1) := by
  rw [← held.commit elapsed, ← committed, retryPut_last rfl]
  rintro error failed
  rw [committed] at failed
  unfold putOnce at failed
  simp only at failed
  split at failed
  · cases failed
  · cases failed
    rfl

/-- The loop from the attempt of the first commit on. -/
theorem succeeds_at_commit (held : Retrying circuit readings attempt breaker)
    (committed : outcomes attempt = .committed) (left : Nat) :
    Succeeds (retryPut circuit outcomes readings attempt left breaker) ↔
      Spared circuit outcomes readings attempt attempt := by
  by_cases elapsed : circuit.failureThreshold ≤ attempt → circuit.openTimeout ≤ waited readings attempt
  · rw [retryPut_commits held elapsed committed]
    constructor
    · intro closes
      refine ⟨fun later since before => by omega, fun later since before => ?_, closes⟩
      obtain rfl : attempt = later := by omega
      exact elapsed
    · exact Spared.closes
  · constructor
    · intro succeeds
      exact absurd succeeds (retryPut_refused held elapsed left)
    · intro spared
      exact absurd (spared.waits attempt le_rfl le_rfl) elapsed

/-- The loop from an attempt on, while the first commit is ahead. -/
theorem retryPut_succeeds (conflicts : ∀ attempt < success, ∃ message, outcomes attempt = .failed message)
    (committed : outcomes success = .committed) (ahead : attempt ≤ success)
    (reached : success ≤ attempt + left) (held : Retrying circuit readings attempt breaker) :
    Succeeds (retryPut circuit outcomes readings attempt left breaker) ↔
      Spared circuit outcomes readings attempt success := by
  induction left generalizing attempt breaker with
  | zero =>
    obtain rfl : attempt = success := by omega
    exact succeeds_at_commit held committed 0
  | succ left ih =>
    rcases ahead.eq_or_lt with rfl | before
    · exact succeeds_at_commit held committed (left + 1)
    by_cases elapsed : circuit.failureThreshold ≤ attempt → circuit.openTimeout ≤ waited readings attempt
    · obtain ⟨message, failed⟩ := conflicts attempt before
      obtain ⟨after, once, next⟩ := held.conflict elapsed message
      rw [← failed] at once
      by_cases conflict : (TikvError.clientError message).isWriteConflict
      · rw [retryPut_again once conflict, ih before (by omega) next]
        constructor
        · rintro ⟨recognised, waits, closes⟩
          refine ⟨fun later since until_ other same => ?_, fun later since until_ => ?_, closes⟩
          · rcases since.eq_or_lt with rfl | beyond
            · obtain rfl : message = other := by simpa [failed] using same
              exact conflict
            · exact recognised later beyond until_ other same
          · rcases since.eq_or_lt with rfl | beyond
            · exact elapsed
            · exact waits later beyond until_
        · rintro ⟨recognised, waits, closes⟩
          exact ⟨fun later beyond => recognised later (Nat.le_of_succ_le beyond),
            fun later beyond => waits later (Nat.le_of_succ_le beyond), closes⟩
      · constructor
        · rintro ⟨answer, -⟩
          rw [retryPut_last once] at answer
          · cases answer
          · rintro error same
            cases same
            simpa using conflict
        · intro spared
          exact absurd (spared.recognised attempt le_rfl before message failed) conflict
    · constructor
      · intro succeeds
        exact absurd succeeds (retryPut_refused held elapsed _)
      · intro spared
        exact absurd (spared.waits attempt le_rfl ahead) elapsed

end

theorem firstCommit_exists {config : TikvConfig} {outcomes : Nat → Outcome}
    (commits : ∃ attempt ≤ config.maxRetries, outcomes attempt = .committed) :
    ∃ success, FirstCommit config outcomes success := by
  have some_ : ∃ attempt, outcomes attempt = .committed := commits.imp fun _ found => found.2
  obtain ⟨attempt, reached, committed⟩ := commits
  exact ⟨Nat.find some_, (Nat.find_min' some_ committed).trans reached, Nat.find_spec some_,
    fun _ before => Nat.find_min some_ before⟩

/-- A put that one of its attempts would commit succeeds and leaves the breaker closed exactly
if the breaker lets the attempts up to the first commit through. -/
theorem put_succeeds_iff (config : TikvConfig) (circuit : CircuitConfig) (outcomes : Nat → Outcome)
    (readings : Nat → Reading) (breaker : CircuitBreaker) (some_ : 1 ≤ circuit.failureThreshold)
    (closed : breaker.state = .closed) (none : breaker.failures = 0)
    (conflicts : ∀ attempt, outcomes attempt = .committed ∨
      ∃ message, outcomes attempt = .failed message) :
    ((∃ attempt ≤ config.maxRetries, outcomes attempt = .committed) →
      Succeeds (put circuit outcomes readings config breaker)) ↔
    ∀ success, FirstCommit config outcomes success → Spared circuit outcomes readings 0 success := by
  have held : Retrying circuit readings 0 breaker := by
    refine ⟨fun _ => ⟨closed, none⟩, fun late => ?_⟩
    omega
  have decided : ∀ success, FirstCommit config outcomes success →
      (Succeeds (put circuit outcomes readings config breaker) ↔
        Spared circuit outcomes readings 0 success) := by
    intro success first
    apply retryPut_succeeds _ first.committed (Nat.zero_le _) _ held
    · intro attempt before
      exact (conflicts attempt).resolve_left (first.first attempt before)
    · rw [Nat.zero_add]
      exact first.reached
  constructor
  · intro succeeds success first
    exact (decided success first).mp (succeeds ⟨success, first.reached, first.committed⟩)
  · intro spared commits
    obtain ⟨success, first⟩ := firstCommit_exists commits
    exact (decided success first).mpr (spared success first)

/-- As many write conflicts, and then a commit. -/
def conflictsFirst (count attempt : Nat) : Outcome :=
  if attempt < count then .failed "WriteConflict" else .committed

theorem conflictsFirst_cases (count attempt : Nat) : conflictsFirst count attempt = .committed ∨
    ∃ message, conflictsFirst count attempt = .failed message ∧ retryableWriteConflict message := by
  unfold conflictsFirst
  split
  · exact .inr ⟨_, rfl, by decide⟩
  · exact .inl rfl

theorem put_succeeds_after_two :
    Succeeds (put .default (conflictsFirst 2) (fun _ => ⟨0, 0, 0⟩) .default (.new 0)) := by
  have spared := put_succeeds_iff .default .default (conflictsFirst 2) (fun _ => ⟨0, 0, 0⟩) (.new 0)
    (by decide) rfl rfl fun attempt => (conflictsFirst_cases 2 attempt).imp_right fun ⟨message, same, _⟩ =>
      ⟨message, same⟩
  apply spared.mpr _ ⟨2, by decide, rfl⟩
  intro success first
  have two : success = 2 := by
    by_contra other
    rcases Nat.lt_or_gt_of_ne other with before | after
    · have committed := first.committed
      simp [conflictsFirst, before] at committed
    · exact first.first 2 after rfl
  subst two
  refine ⟨?_, ?_, ?_⟩
  · intro later _ before message failed
    obtain rfl : "WriteConflict" = message := by simpa [conflictsFirst, before] using failed
    decide
  · intro later _ before late
    have five : 5 ≤ later := late
    omega
  · intro late
    exact absurd late (by decide)

/-- The default breaker opens at the fifth conflict, and the put fails where its sixth of
eleven attempts would commit. -/
theorem conflicts_open_breaker :
    ¬ ∀ (config : TikvConfig) (circuit : CircuitConfig) (outcomes : Nat → Outcome)
      (readings : Nat → Reading) (breaker : CircuitBreaker),
      config.validate = .ok () → 1 ≤ circuit.failureThreshold →
      breaker.state = .closed → breaker.failures = 0 →
      (∀ attempt, outcomes attempt = .committed ∨
        ∃ message, outcomes attempt = .failed message ∧ retryableWriteConflict message) →
      (∃ attempt ≤ config.maxRetries, outcomes attempt = .committed) →
        Succeeds (put circuit outcomes readings config breaker) := by
  intro claimed
  have succeeds := claimed .default .default (conflictsFirst 5) (fun _ => ⟨0, 0, 0⟩) (.new 0)
    (by decide) (by decide) rfl rfl (conflictsFirst_cases 5) ⟨5, by decide, rfl⟩
  revert succeeds
  unfold Succeeds
  decide

end Roboflow.Tikv
