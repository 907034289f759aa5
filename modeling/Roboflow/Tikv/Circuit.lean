import Roboflow.Library.Machine

/-! The circuit breaker of the TiKV client, `tikv/circuit.rs`. Every read of the system
clock is an argument, in nanoseconds since the epoch; the breaker itself counts whole
seconds. Timeouts are `Duration`s in nanoseconds, and the counters wrap as atomics do. -/
namespace Roboflow.Tikv
open Library

inductive CircuitState where
  | closed | opened | halfOpen
  deriving DecidableEq, Repr

structure CircuitConfig where
  failureThreshold : Nat
  successThreshold : Nat
  openTimeout : Nat
  halfOpenMaxCalls : Nat
  halfOpenTimeout : Nat
  failureFits : failureThreshold < 2 ^ 32 := by decide
  successFits : successThreshold < 2 ^ 32 := by decide
  callsFit : halfOpenMaxCalls < 2 ^ 32 := by decide

def nanosPerSec : Nat := 1000000000

/-- `CircuitConfig::default`. -/
def CircuitConfig.default : CircuitConfig where
  failureThreshold := 5
  successThreshold := 3
  openTimeout := 30 * nanosPerSec
  halfOpenMaxCalls := 10
  halfOpenTimeout := 5 * nanosPerSec

/-- `now_timestamp`. -/
def nowTimestamp (now : Nat) : Nat := now / nanosPerSec

/-- `CircuitInner` without its configuration. -/
structure CircuitBreaker where
  state : CircuitState
  failures : Nat
  successes : Nat
  halfOpenCalls : Nat
  lastStateChange : Nat
  deriving DecidableEq, Repr

namespace CircuitBreaker

def new (now : Nat) : CircuitBreaker where
  state := .closed
  failures := 0
  successes := 0
  halfOpenCalls := 0
  lastStateChange := nowTimestamp now

/-- `CircuitInner::set_state`. -/
def setState (breaker : CircuitBreaker) (state : CircuitState) (now : Nat) : CircuitBreaker :=
  let moved := { breaker with state := state, lastStateChange := nowTimestamp now }
  match state with
  | .closed => { moved with failures := 0, successes := 0, halfOpenCalls := 0 }
  | .opened => { moved with successes := 0 }
  | .halfOpen => { moved with halfOpenCalls := 0 }

/-- The whole seconds since the last state change, as a `Duration`. -/
def elapsed (breaker : CircuitBreaker) (now : Nat) : Nat :=
  (nowTimestamp now - breaker.lastStateChange) * nanosPerSec

/-- `increment_half_open_calls`. -/
def incrementHalfOpenCalls (breaker : CircuitBreaker) : CircuitBreaker :=
  { breaker with halfOpenCalls := (breaker.halfOpenCalls + 1) % 2 ^ 64 }

section
variable (config : CircuitConfig) (breaker : CircuitBreaker)

def shouldAttemptReset (now : Nat) : Bool := config.openTimeout ≤ breaker.elapsed now

def halfOpenExpired (now : Nat) : Bool := config.halfOpenTimeout ≤ breaker.elapsed now

/-- `is_call_permitted`, which reads the clock at `now` and, when it changes the state,
once more at `stamp`. -/
def isCallPermitted (now stamp : Nat) : CircuitBreaker × Bool :=
  match breaker.state with
  | .closed => (breaker, true)
  | .opened =>
    if breaker.shouldAttemptReset config now then (breaker.setState .halfOpen stamp, true)
    else (breaker, false)
  | .halfOpen =>
    if breaker.halfOpenExpired config now then (breaker.setState .opened stamp, false)
    else if config.halfOpenMaxCalls ≤ breaker.halfOpenCalls then
      (breaker.setState .opened stamp, false)
    else (breaker, true)

def recordSuccess (now : Nat) : CircuitBreaker :=
  match breaker.state with
  | .closed => { breaker with failures := 0 }
  | .halfOpen =>
    let counted := { breaker with successes := (breaker.successes + 1) % 2 ^ 64 }
    if config.successThreshold ≤ counted.successes then counted.setState .closed now else counted
  | .opened => breaker

def recordFailure (now : Nat) : CircuitBreaker :=
  let counted := { breaker with failures := (breaker.failures + 1) % 2 ^ 64 }
  match breaker.state with
  | .closed =>
    if config.failureThreshold ≤ counted.failures then counted.setState .opened now else counted
  | .halfOpen => counted.setState .opened now
  | .opened => counted

def reset (now : Nat) : CircuitBreaker := breaker.setState .closed now

def trip (now : Nat) : CircuitBreaker := breaker.setState .opened now

end

/-! ### Changing the state -/

section
variable (breaker : CircuitBreaker) (state : CircuitState) (now : Nat)

@[simp] theorem setState_state : (breaker.setState state now).state = state := by
  cases state <;> rfl

@[simp] theorem setState_lastStateChange :
    (breaker.setState state now).lastStateChange = nowTimestamp now := by
  cases state <;> rfl

@[simp] theorem setState_closed_failures : (breaker.setState .closed now).failures = 0 := rfl

@[simp] theorem setState_opened_successes : (breaker.setState .opened now).successes = 0 := rfl

@[simp] theorem setState_halfOpen_successes :
    (breaker.setState .halfOpen now).successes = breaker.successes := rfl

@[simp] theorem setState_halfOpen_halfOpenCalls :
    (breaker.setState .halfOpen now).halfOpenCalls = 0 := rfl

end

end CircuitBreaker

/-! ### What the calls do, state by state -/

section
variable {config : CircuitConfig} {breaker : CircuitBreaker} {now stamp : Nat}

theorem isCallPermitted_closed (closed : breaker.state = .closed) :
    breaker.isCallPermitted config now stamp = (breaker, true) := by
  simp only [CircuitBreaker.isCallPermitted, closed]

theorem isCallPermitted_opened (opened : breaker.state = .opened) :
    breaker.isCallPermitted config now stamp =
      if breaker.shouldAttemptReset config now then (breaker.setState .halfOpen stamp, true)
      else (breaker, false) := by
  simp only [CircuitBreaker.isCallPermitted, opened]

theorem isCallPermitted_halfOpen (half : breaker.state = .halfOpen)
    (uncounted : breaker.halfOpenCalls = 0) :
    breaker.isCallPermitted config now stamp =
      if breaker.halfOpenExpired config now = false ∧ 1 ≤ config.halfOpenMaxCalls then (breaker, true)
      else (breaker.setState .opened stamp, false) := by
  simp only [CircuitBreaker.isCallPermitted, half, uncounted]
  cases expired : breaker.halfOpenExpired config now with
  | true => simp
  | false =>
    by_cases room : 1 ≤ config.halfOpenMaxCalls
    · simp [room, show config.halfOpenMaxCalls ≠ 0 by omega]
    · simp [show config.halfOpenMaxCalls = 0 by omega]

theorem recordSuccess_halfOpen
    (half : (breaker.recordSuccess config now).state = .halfOpen) :
    breaker.state = .halfOpen ∧
      (breaker.recordSuccess config now).halfOpenCalls = breaker.halfOpenCalls := by
  unfold CircuitBreaker.recordSuccess at half ⊢
  split at half
  · rename_i state
    simp [state] at half
  · rename_i state
    simp only at half ⊢
    split at half
    · simp at half
    · rename_i more
      rw [if_neg more]
      exact ⟨state, rfl⟩
  · rename_i state
    simp [state] at half

theorem recordFailure_halfOpen : (breaker.recordFailure config now).state ≠ .halfOpen := by
  unfold CircuitBreaker.recordFailure
  simp only
  split
  · rename_i state
    split <;> simp [state]
  · simp
  · rename_i state
    simp [state]

end

end Roboflow.Tikv
