import Roboflow.Tikv.Circuit

/-! The runs of one circuit breaker, its methods called one at a time. What it stores is
compared with the calls made so far: its failures and successes with those recorded since
the last restart, its last state change with the last opening. -/
namespace Roboflow.Tikv
open Library

inductive BreakerCall where
  | isCallPermitted | recordSuccess | recordFailure | trip | reset
  deriving DecidableEq, Repr

/-- A call, and the first and the last time it may read the clock. -/
structure BreakerAction where
  call : BreakerCall
  now : Nat
  stamp : Nat

/-- A call on the breaker, and what `is_call_permitted` answers. -/
def CircuitBreaker.perform (config : CircuitConfig) (breaker : CircuitBreaker)
    (action : BreakerAction) : CircuitBreaker × Option Bool :=
  match action.call with
  | .isCallPermitted =>
    let asked := breaker.isCallPermitted config action.now action.stamp
    (asked.1, some asked.2)
  | .recordSuccess => (breaker.recordSuccess config action.stamp, none)
  | .recordFailure => (breaker.recordFailure config action.stamp, none)
  | .trip => (breaker.trip action.stamp, none)
  | .reset => (breaker.reset action.stamp, none)

structure BreakerState where
  breaker : CircuitBreaker
  clock : Nat

/-- A breaker under a clock that does not go back. -/
def circuitBreaker (config : CircuitConfig) : Machine BreakerState BreakerAction (Option Bool) where
  step s action :=
    if s.clock ≤ action.now ∧ action.now ≤ action.stamp then
      let called := s.breaker.perform config action
      some (⟨called.1, action.stamp⟩, called.2)
    else none

def BreakerState.new (now : Nat) : BreakerState := ⟨.new now, now⟩

abbrev BreakerHistory := History BreakerState BreakerAction (Option Bool)

abbrev BreakerEvent := Transition BreakerState BreakerAction (Option Bool)

/-! ### What the calls so far say -/

namespace BreakerEvent

/-- A reset enters Closed from every state. -/
def entersClosed (e : BreakerEvent) : Bool :=
  e.act.call = .reset || e.pre.breaker.state ≠ .closed && e.post.breaker.state = .closed

/-- What a count of failures in a row starts over at. -/
def restarts (e : BreakerEvent) : Bool := e.act.call = .recordSuccess || entersClosed e

/-- A trip opens a breaker again that is open. -/
def opens (e : BreakerEvent) : Bool :=
  e.post.breaker.state = .opened && (e.pre.breaker.state ≠ .opened || e.act.call = .trip)

def inHalfOpen (e : BreakerEvent) : Bool := e.pre.breaker.state = .halfOpen

end BreakerEvent

/-- How many of the steps are this call. -/
def calls (call : BreakerCall) (history : BreakerHistory) : Nat :=
  history.countP fun e => e.act.call = call

/-- The steps since the last success or entry into Closed. -/
def sinceRestart (history : BreakerHistory) : BreakerHistory :=
  history.takeWhile fun e => !BreakerEvent.restarts e

/-- The steps since the breaker entered HalfOpen. -/
def sinceHalfOpen (history : BreakerHistory) : BreakerHistory :=
  history.takeWhile BreakerEvent.inHalfOpen

/-- When the breaker opened last. -/
def lastOpening (history : BreakerHistory) : Option Nat :=
  (history.find? BreakerEvent.opens).map fun e => e.act.stamp

/-- The breaker as the calls so far make it. `patient opening now` says that the open
timeout has passed at `now`. -/
structure AutomatonRight (config : CircuitConfig) (patient : Nat → Nat → Prop)
    (history : BreakerHistory) (s : BreakerState) : Prop where
  counted : s.breaker.state = .closed →
    s.breaker.failures = calls .recordFailure (sinceRestart history) ∧
      s.breaker.failures < config.failureThreshold
  recovers : ∀ newer e older, history = newer ++ e :: older →
    e.pre.breaker.state = .halfOpen → e.post.breaker.state = .closed →
      e.act.call = .reset ∨ e.act.call = .recordSuccess ∧
        calls .recordSuccess (sinceHalfOpen older) + 1 = config.successThreshold ∧
        calls .recordFailure (sinceHalfOpen older) = 0
  waits : ∀ newer e older, history = newer ++ e :: older →
    e.pre.breaker.state = .opened → e.out = some true →
      ∃ opening, lastOpening older = some opening ∧ patient opening e.act.now

/-- `open_timeout` has passed on a clock that shows whole seconds, so that less than one
second of it can be missing. -/
def patientInSeconds (config : CircuitConfig) (opening now : Nat) : Prop :=
  nowTimestamp opening * nanosPerSec + config.openTimeout ≤ nowTimestamp now * nanosPerSec ∧
    opening + config.openTimeout < now + nanosPerSec

/-! ### The counters and the calls so far -/

@[simp] theorem calls_nil : calls call [] = 0 := rfl

@[simp] theorem calls_cons (e : BreakerEvent) (history : BreakerHistory) :
    calls call (e :: history) = calls call history + if e.act.call = call then 1 else 0 := by
  simp [calls, List.countP_cons]

theorem sinceRestart_cons (e : BreakerEvent) (history : BreakerHistory) :
    sinceRestart (e :: history) = if BreakerEvent.restarts e then [] else e :: sinceRestart history := by
  cases restarts : BreakerEvent.restarts e <;> simp [sinceRestart, restarts]

theorem sinceHalfOpen_cons (e : BreakerEvent) (history : BreakerHistory) :
    sinceHalfOpen (e :: history) =
      if e.pre.breaker.state = .halfOpen then e :: sinceHalfOpen history else [] := by
  simp [sinceHalfOpen, List.takeWhile_cons, BreakerEvent.inHalfOpen]

theorem lastOpening_cons (e : BreakerEvent) (history : BreakerHistory) :
    lastOpening (e :: history) =
      if BreakerEvent.opens e then some e.act.stamp else lastOpening history := by
  cases opens : BreakerEvent.opens e <;> simp [lastOpening, opens]

/-- What the stored counters are, state by state. -/
structure Matches (config : CircuitConfig) (history : BreakerHistory) (breaker : CircuitBreaker) :
    Prop where
  closed : breaker.state = .closed →
    breaker.failures = calls .recordFailure (sinceRestart history) ∧
      breaker.failures < config.failureThreshold
  opened : breaker.state = .opened → breaker.successes = 0 ∧
    ∃ opening, lastOpening history = some opening ∧ breaker.lastStateChange = nowTimestamp opening
  halfOpen : breaker.state = .halfOpen →
    breaker.successes = calls .recordSuccess (sinceHalfOpen history) ∧
      breaker.successes < config.successThreshold ∧
      calls .recordFailure (sinceHalfOpen history) = 0

section
variable {config : CircuitConfig} {history : BreakerHistory} {s : BreakerState}
  {now stamp : Nat} {out : Option Bool} {s' : BreakerState}

/-- A step that enters Closed with no failure counted. -/
theorem matches_closed (fails : 1 ≤ config.failureThreshold)
    (state : s'.breaker.state = .closed) (none : s'.breaker.failures = 0)
    (restarts : BreakerEvent.restarts ⟨s, action, out, s'⟩ = true) :
    Matches config (⟨s, action, out, s'⟩ :: history) s'.breaker where
  closed := fun _ => by
    rw [none, sinceRestart_cons, if_pos restarts]
    exact ⟨rfl, fails⟩
  opened := by simp [state]
  halfOpen := by simp [state]

/-- A step that opens the breaker. -/
theorem matches_opened (state : s'.breaker.state = .opened) (none : s'.breaker.successes = 0)
    (stamped : s'.breaker.lastStateChange = nowTimestamp action.stamp)
    (opens : BreakerEvent.opens ⟨s, action, out, s'⟩ = true) :
    Matches config (⟨s, action, out, s'⟩ :: history) s'.breaker where
  closed := by simp [state]
  opened := fun _ => by
    rw [lastOpening_cons, if_pos opens]
    exact ⟨none, _, rfl, stamped⟩
  halfOpen := by simp [state]

/-- A step of an open breaker that leaves it open. -/
theorem matches_still_opened (held : Matches config history s.breaker)
    (before : s.breaker.state = .opened) (state : s'.breaker.state = .opened)
    (successes : s'.breaker.successes = s.breaker.successes)
    (stamped : s'.breaker.lastStateChange = s.breaker.lastStateChange)
    (quiet : action.call ≠ .trip) :
    Matches config (⟨s, action, out, s'⟩ :: history) s'.breaker where
  closed := by simp [state]
  opened := fun _ => by
    obtain ⟨none, opening, last, since⟩ := held.opened before
    have still : BreakerEvent.opens ⟨s, action, out, s'⟩ = false := by
      simp [BreakerEvent.opens, before, quiet]
    rw [lastOpening_cons, still, successes, stamped]
    exact ⟨none, opening, last, since⟩
  halfOpen := by simp [state]

theorem matches_isCallPermitted (succeeds : 1 ≤ config.successThreshold)
    (held : Matches config history s.breaker) (called : action.call = .isCallPermitted)
    (after : s'.breaker = (s.breaker.isCallPermitted config now action.stamp).1) :
    Matches config (⟨s, action, out, s'⟩ :: history) s'.breaker := by
  unfold CircuitBreaker.isCallPermitted at after
  split at after
  · rename_i state
    rw [show s'.breaker = s.breaker from after]
    have stays : BreakerEvent.restarts ⟨s, action, out, s'⟩ = false := by
      simp [BreakerEvent.restarts, BreakerEvent.entersClosed, called, state]
    refine ⟨fun _ => ?_, by simp [state], by simp [state]⟩
    rw [sinceRestart_cons, stays]
    simpa [called] using held.closed state
  · rename_i state
    split at after
    · have state' : s'.breaker.state = .halfOpen := by simp [after]
      refine ⟨by simp [state'], by simp [state'], fun _ => ?_⟩
      have none : s'.breaker.successes = 0 := by simp [after, (held.opened state).1]
      rw [sinceHalfOpen_cons, if_neg (by simp [state]), none]
      exact ⟨rfl, succeeds, rfl⟩
    · exact matches_still_opened held state (by simp [after, state]) (by simp [after])
        (by simp [after]) (by simp [called])
  · rename_i state
    have opening : ∀ breaker : CircuitBreaker, breaker = s.breaker.setState .opened action.stamp →
        s'.breaker = breaker → Matches config (⟨s, action, out, s'⟩ :: history) s'.breaker := by
      rintro _ rfl same
      apply matches_opened <;> simp [same, BreakerEvent.opens, state]
    split at after
    · exact opening _ rfl after
    · split at after
      · exact opening _ rfl after
      · rw [show s'.breaker = s.breaker from after]
        refine ⟨by simp [state], by simp [state], fun _ => ?_⟩
        rw [sinceHalfOpen_cons, if_pos state]
        simpa [called] using held.halfOpen state

theorem matches_recordSuccess (fails : 1 ≤ config.failureThreshold)
    (held : Matches config history s.breaker) (called : action.call = .recordSuccess)
    (after : s'.breaker = s.breaker.recordSuccess config action.stamp) :
    Matches config (⟨s, action, out, s'⟩ :: history) s'.breaker := by
  have restarts : BreakerEvent.restarts ⟨s, action, out, s'⟩ = true := by
    simp [BreakerEvent.restarts, called]
  unfold CircuitBreaker.recordSuccess at after
  split at after
  · rename_i state
    exact matches_closed fails (by simp [after, state]) (by simp [after]) restarts
  · rename_i state
    obtain ⟨counted, below, quiet⟩ := held.halfOpen state
    have fits := config.successFits
    have wraps : (s.breaker.successes + 1) % 2 ^ 64 = s.breaker.successes + 1 :=
      Nat.mod_eq_of_lt (by omega)
    simp only [wraps] at after
    split at after
    · exact matches_closed fails (by simp [after]) (by simp [after]) restarts
    · rename_i more
      have state' : s'.breaker.state = .halfOpen := by simp [after, state]
      refine ⟨by simp [state'], by simp [state'], fun _ => ?_⟩
      rw [sinceHalfOpen_cons, if_pos state]
      simp only [after, calls_cons, called, counted, quiet]
      simp only [counted] at more
      simp
      omega
  · rename_i state
    exact matches_still_opened held state (by simp [after, state]) (by simp [after])
      (by simp [after]) (by simp [called])

theorem matches_recordFailure (held : Matches config history s.breaker)
    (called : action.call = .recordFailure)
    (after : s'.breaker = s.breaker.recordFailure config action.stamp) :
    Matches config (⟨s, action, out, s'⟩ :: history) s'.breaker := by
  unfold CircuitBreaker.recordFailure at after
  simp only at after
  split at after
  · rename_i state
    obtain ⟨counted, below⟩ := held.closed state
    have fits := config.failureFits
    have wraps : (s.breaker.failures + 1) % 2 ^ 64 = s.breaker.failures + 1 :=
      Nat.mod_eq_of_lt (by omega)
    simp only [wraps] at after
    split at after
    · apply matches_opened <;> simp [after, BreakerEvent.opens, state]
    · rename_i more
      have state' : s'.breaker.state = .closed := by simp [after, state]
      have stays : BreakerEvent.restarts ⟨s, action, out, s'⟩ = false := by
        simp [BreakerEvent.restarts, BreakerEvent.entersClosed, called, state]
      refine ⟨fun _ => ?_, by simp [state'], by simp [state']⟩
      rw [sinceRestart_cons, stays]
      simp only [after, Bool.false_eq_true, ↓reduceIte, calls_cons, called]
      omega
  · rename_i state
    apply matches_opened <;> simp [after, BreakerEvent.opens, state]
  · rename_i state
    exact matches_still_opened held state (by simp [after, state]) (by simp [after])
      (by simp [after]) (by simp [called])

theorem step_clock (moved : (circuitBreaker config).step s action = some (s', out)) :
    s.clock ≤ action.now ∧ action.now ≤ action.stamp ∧ s'.clock = action.stamp ∧
      s'.breaker = (s.breaker.perform config action).1 ∧ out = (s.breaker.perform config action).2 := by
  simp only [circuitBreaker] at moved
  split at moved
  · rename_i forward
    cases moved
    exact ⟨forward.1, forward.2, rfl, rfl, rfl⟩
  · cases moved

theorem matches_step (fails : 1 ≤ config.failureThreshold) (succeeds : 1 ≤ config.successThreshold)
    (held : Matches config history s.breaker)
    (moved : (circuitBreaker config).step s action = some (s', out)) :
    Matches config (⟨s, action, out, s'⟩ :: history) s'.breaker := by
  obtain ⟨-, -, -, breaker, -⟩ := step_clock moved
  unfold CircuitBreaker.perform at breaker
  split at breaker
  · rename_i called
    exact matches_isCallPermitted succeeds held called breaker
  · rename_i called
    exact matches_recordSuccess fails held called breaker
  · rename_i called
    exact matches_recordFailure held called breaker
  · rename_i called
    have opened : s'.breaker = s.breaker.setState .opened action.stamp := breaker
    apply matches_opened <;> simp [opened, BreakerEvent.opens, called]
  · rename_i called
    have closed : s'.breaker = s.breaker.setState .closed action.stamp := breaker
    apply matches_closed fails <;>
      simp [closed, BreakerEvent.restarts, BreakerEvent.entersClosed, called]

theorem matches_run (fails : 1 ≤ config.failureThreshold) (succeeds : 1 ≤ config.successThreshold)
    (run : Run (circuitBreaker config) (.new start) history s) : Matches config history s.breaker := by
  induction run with
  | start =>
    refine ⟨fun _ => ⟨rfl, fails⟩, ?_, ?_⟩ <;> simp [BreakerState.new, CircuitBreaker.new]
  | next _ moved ih => exact matches_step fails succeeds ih moved

/-! ### Clocks along a run -/

theorem stamp_le_clock (run : Run (circuitBreaker config) first history s) :
    ∀ e ∈ history, e.act.stamp ≤ s.clock := by
  induction run with
  | start =>
    intro _ member
    cases member
  | next _ moved ih =>
    obtain ⟨forward, later, clock, -, -⟩ := step_clock moved
    intro e member
    rcases List.mem_cons.mp member with rfl | older
    · exact clock.ge
    · exact (ih e older).trans ((forward.trans later).trans clock.ge)

theorem lastOpening_le_clock (run : Run (circuitBreaker config) first history s)
    (last : lastOpening history = some opening) : opening ≤ s.clock := by
  obtain ⟨e, found, rfl⟩ := Option.map_eq_some_iff.mp last
  exact stamp_le_clock run e (List.mem_of_find?_eq_some found)

/-- HalfOpen is left for Closed by a reset, or by the success that reaches the threshold. -/
theorem perform_recovers (half : breaker.state = .halfOpen)
    (below : breaker.successes < config.successThreshold)
    (closed : (CircuitBreaker.perform config breaker action).1.state = .closed) :
    action.call = .reset ∨
      action.call = .recordSuccess ∧ breaker.successes + 1 = config.successThreshold := by
  unfold CircuitBreaker.perform at closed
  split at closed
  · simp only [CircuitBreaker.isCallPermitted, half] at closed
    split at closed
    · simp at closed
    · split at closed
      · simp at closed
      · simp [half] at closed
  · rename_i called
    have fits := config.successFits
    have wraps : (breaker.successes + 1) % 2 ^ 64 = breaker.successes + 1 :=
      Nat.mod_eq_of_lt (by omega)
    simp only [CircuitBreaker.recordSuccess, half, wraps] at closed
    split at closed
    · exact .inr ⟨called, by omega⟩
    · cases closed
  · simp [CircuitBreaker.recordFailure, half] at closed
  · simp [CircuitBreaker.trip] at closed
  · rename_i called
    exact .inl called

/-- Open lets a call through when the open timeout has elapsed. -/
theorem perform_waits (opened : breaker.state = .opened)
    (permitted : (CircuitBreaker.perform config breaker action).2 = some true) :
    config.openTimeout ≤ breaker.elapsed action.now := by
  unfold CircuitBreaker.perform at permitted
  split at permitted
  · simp only [CircuitBreaker.isCallPermitted, opened, Option.some.injEq] at permitted
    split at permitted
    · rename_i elapsed
      simpa [CircuitBreaker.shouldAttemptReset] using elapsed
    · cases permitted
  · cases permitted
  · cases permitted
  · cases permitted
  · cases permitted

end

theorem lt_nowTimestamp (now : Nat) : now < nowTimestamp now * nanosPerSec + nanosPerSec := by
  unfold nowTimestamp nanosPerSec
  omega

theorem nowTimestamp_le (now : Nat) : nowTimestamp now * nanosPerSec ≤ now := by
  unfold nowTimestamp nanosPerSec
  omega

theorem patientInSeconds_of_elapsed {config : CircuitConfig} {opening now : Nat}
    (later : opening ≤ now)
    (elapsed : config.openTimeout ≤ (nowTimestamp now - nowTimestamp opening) * nanosPerSec) :
    patientInSeconds config opening now := by
  have ordered : nowTimestamp opening ≤ nowTimestamp now := Nat.div_le_div_right later
  have gap : nowTimestamp opening * nanosPerSec + config.openTimeout ≤
      nowTimestamp now * nanosPerSec := by
    have less := Nat.mul_le_mul_right nanosPerSec ordered
    rw [Nat.sub_mul] at elapsed
    omega
  refine ⟨gap, ?_⟩
  have started := lt_nowTimestamp opening
  have reached := nowTimestamp_le now
  omega

/-- In every run the failure count is that of the calls since the last restart, HalfOpen is
left for Closed by enough successes, and a call is let through an open breaker when its
timeout has passed, in whole seconds. -/
theorem circuit_breaker_automaton (config : CircuitConfig) (fails : 1 ≤ config.failureThreshold)
    (succeeds : 1 ≤ config.successThreshold) (start : Nat) (history : BreakerHistory)
    (s : BreakerState) (run : Run (circuitBreaker config) (.new start) history s) :
    AutomatonRight config (patientInSeconds config) history s where
  counted := (matches_run fails succeeds run).closed
  recovers := by
    rintro newer e older rfl half closed
    obtain ⟨before, moved⟩ := run.split
    obtain ⟨counted, below, quiet⟩ := (matches_run fails succeeds before).halfOpen half
    obtain ⟨-, -, -, after, -⟩ := step_clock moved
    rw [after] at closed
    rcases perform_recovers half below closed with reset | ⟨success, reached⟩
    · exact .inl reset
    · exact .inr ⟨success, counted ▸ reached, quiet⟩
  waits := by
    rintro newer e older rfl opened permitted
    obtain ⟨before, moved⟩ := run.split
    obtain ⟨-, opening, last, since⟩ := (matches_run fails succeeds before).opened opened
    obtain ⟨forward, -, -, -, answer⟩ := step_clock moved
    rw [answer] at permitted
    have elapsed := perform_waits opened permitted
    rw [CircuitBreaker.elapsed, since] at elapsed
    exact ⟨opening, last,
      patientInSeconds_of_elapsed ((lastOpening_le_clock before last).trans forward) elapsed⟩

/-- One failure opens the breaker, one success closes it, and it waits for a second. -/
def oneSecondBreaker : CircuitConfig where
  failureThreshold := 1
  successThreshold := 1
  openTimeout := nanosPerSec
  halfOpenMaxCalls := 1
  halfOpenTimeout := nanosPerSec

theorem circuit_breaker_automaton_once :
    ∃ history s, Run (circuitBreaker oneSecondBreaker) (.new 0) history s ∧
      history.map (fun e => (e.act.call, e.out)) =
        [(.recordSuccess, none), (.isCallPermitted, some true), (.recordFailure, none)] ∧
      AutomatonRight oneSecondBreaker (patientInSeconds oneSecondBreaker) history s := by
  obtain ⟨history, s, run, seen⟩ := Run.of_observation (circuitBreaker oneSecondBreaker) (.new 0)
    [⟨.recordFailure, 0, 0⟩, ⟨.isCallPermitted, nanosPerSec, nanosPerSec⟩,
      ⟨.recordSuccess, nanosPerSec, nanosPerSec⟩]
    (fun reached => reached.1.map fun e => (e.act.call, e.out)) _ rfl
  exact ⟨history, s, run, seen,
    circuit_breaker_automaton oneSecondBreaker (by decide) (by decide) 0 history s run⟩

/-- A breaker tripped just before a second ends lets a call through when the second has
ended, a nanosecond later. -/
theorem open_timeout_cut_short :
    ¬ ∀ (config : CircuitConfig), 1 ≤ config.failureThreshold → 1 ≤ config.successThreshold →
      ∀ (start : Nat) (history : BreakerHistory) (s : BreakerState),
        Run (circuitBreaker config) (.new start) history s →
          AutomatonRight config (fun opening now => opening + config.openTimeout ≤ now) history s := by
  intro claimed
  have tripped : (circuitBreaker oneSecondBreaker).step (.new 0) ⟨.trip, 999999999, 999999999⟩ =
      some (⟨(CircuitBreaker.new 0).trip 999999999, 999999999⟩, none) := rfl
  have permitted : (circuitBreaker oneSecondBreaker).step
      ⟨(CircuitBreaker.new 0).trip 999999999, 999999999⟩ ⟨.isCallPermitted, 1000000000, 1000000000⟩ =
        some (⟨((CircuitBreaker.new 0).trip 999999999).setState .halfOpen 1000000000, 1000000000⟩,
          some true) := rfl
  have run := (Run.start.next tripped).next permitted
  have right := claimed oneSecondBreaker (by decide) (by decide) 0 _ _ run
  obtain ⟨opening, last, patient⟩ := right.waits [] _ _ rfl rfl rfl
  cases last
  revert patient
  decide

end Roboflow.Tikv
