import Roboflow.Tikv.Circuit

/-! The calls that `TikvClient` makes while its circuit breaker is half-open,
`tikv/client.rs`. A get, and every attempt of a put or delete, asks the breaker and later
records how it ended, or does not; others may be asked for in between. The client never
counts a half-open call. -/
namespace Roboflow.Tikv
open Library

inductive ClientOp where
  | get | put | delete
  deriving DecidableEq, Repr

inductive Ending where
  | success
  | failure
  /-- Dropped, or without an underlying client. -/
  | unrecorded
  deriving DecidableEq, Repr

inductive ClientAction where
  /-- The breaker reads the clock at `now`, and at `stamp` when it changes its state. -/
  | attempt (op : ClientOp) (now stamp : Nat)
  | finish (ending : Ending) (now : Nat)

inductive ClientOut where
  | admitted
  | refused
  | finished
  deriving DecidableEq, Repr

structure ClientState where
  breaker : CircuitBreaker
  clock : Nat
  /-- The admitted calls that have not ended. -/
  outstanding : Nat

def CircuitBreaker.record (config : CircuitConfig) (breaker : CircuitBreaker) (now : Nat) :
    Ending → CircuitBreaker
  | .success => breaker.recordSuccess config now
  | .failure => breaker.recordFailure config now
  | .unrecorded => breaker

/-- The clients of one breaker. -/
def clients (config : CircuitConfig) : Machine ClientState ClientAction ClientOut where
  step s
    | .attempt _ now stamp =>
      if s.clock ≤ now ∧ now ≤ stamp then
        let asked := s.breaker.isCallPermitted config now stamp
        some (if asked.2 then (⟨asked.1, stamp, s.outstanding + 1⟩, .admitted)
          else (⟨asked.1, stamp, s.outstanding⟩, .refused))
      else none
    | .finish ending now =>
      if 0 < s.outstanding ∧ s.clock ≤ now then
        some (⟨s.breaker.record config now ending, now, s.outstanding - 1⟩, .finished)
      else none

def ClientState.new (now : Nat) : ClientState := ⟨.new now, now, 0⟩

abbrev ClientHistory := History ClientState ClientAction ClientOut

abbrev ClientEvent := Transition ClientState ClientAction ClientOut

def ClientAction.isAttempt : ClientAction → Bool
  | .attempt _ _ _ => true
  | .finish _ _ => false

/-- How many of the steps are of a kind, since the breaker entered HalfOpen and with the step
that entered it. -/
def inHalfOpen (kind : ClientEvent → Bool) : ClientHistory → Nat
  | [] => 0
  | e :: older =>
    if e.post.breaker.state = .halfOpen then
      (if e.pre.breaker.state = .halfOpen then inHalfOpen kind older else 0) +
        if kind e then 1 else 0
    else 0

def admittedCall (e : ClientEvent) : Bool := e.out = .admitted

def askedFor (e : ClientEvent) : Bool := e.act.isAttempt

/-- What each attempt of a client would have to keep to: a breaker that it makes half-open
admits calls at all, and before the half-open timeout not all of them have been asked for. -/
structure Restrained (config : CircuitConfig) (older : ClientHistory) (breaker : CircuitBreaker)
    (now : Nat) : Prop where
  entering : breaker.state = .opened → breaker.shouldAttemptReset config now →
    1 ≤ config.halfOpenMaxCalls
  within : breaker.state = .halfOpen → breaker.halfOpenExpired config now = false →
    inHalfOpen askedFor older < config.halfOpenMaxCalls

/-! ### Steps -/

section
variable {config : CircuitConfig} {breaker : CircuitBreaker} {now stamp : Nat}

theorem record_halfOpen (half : (breaker.record config now ending).state = .halfOpen) :
    breaker.state = .halfOpen ∧
      (breaker.record config now ending).halfOpenCalls = breaker.halfOpenCalls := by
  cases ending with
  | success => exact recordSuccess_halfOpen half
  | failure => exact absurd half recordFailure_halfOpen
  | unrecorded => exact ⟨half, rfl⟩

end

section
variable {config : CircuitConfig} {s s' : ClientState} {out : ClientOut} {history older : ClientHistory}

theorem attempt_step (moved : (clients config).step s (.attempt op now stamp) = some (s', out)) :
    s'.breaker = (s.breaker.isCallPermitted config now stamp).1 ∧
      (out = .admitted ↔ (s.breaker.isCallPermitted config now stamp).2 = true) := by
  simp only [clients] at moved
  split at moved
  · split at moved <;> cases moved <;> simp_all
  · cases moved

theorem finish_step (moved : (clients config).step s (.finish ending now) = some (s', out)) :
    s'.breaker = s.breaker.record config now ending ∧ out = .finished := by
  simp only [clients] at moved
  split at moved
  · cases moved
    exact ⟨rfl, rfl⟩
  · cases moved

/-! ### The calls while half-open -/

theorem inHalfOpen_cons (kind : ClientEvent → Bool) (e : ClientEvent) (older : ClientHistory) :
    inHalfOpen kind (e :: older) =
      if e.post.breaker.state = .halfOpen then
        (if e.pre.breaker.state = .halfOpen then inHalfOpen kind older else 0) +
          if kind e then 1 else 0
      else 0 := rfl

/-- Nothing is counted, so that every call asked for is admitted until the breaker expires. -/
structure Uncounted (history : ClientHistory) (breaker : CircuitBreaker) : Prop where
  calls : breaker.halfOpenCalls = 0
  entered : 1 ≤ inHalfOpen admittedCall history
  same : inHalfOpen askedFor history = inHalfOpen admittedCall history

theorem uncounted_step (held : s.breaker.state = .halfOpen → Uncounted history s.breaker)
    (moved : (clients config).step s action = some (s', out)) (half : s'.breaker.state = .halfOpen) :
    Uncounted (⟨s, action, out, s'⟩ :: history) s'.breaker := by
  cases action with
  | attempt op now stamp =>
    obtain ⟨after, answer⟩ := attempt_step moved
    cases state : s.breaker.state with
    | closed =>
      simp only [CircuitBreaker.isCallPermitted, state] at after
      simp [after, state] at half
    | opened =>
      rw [isCallPermitted_opened state] at after answer
      split at after
      · rename_i resets
        have admitted : out = .admitted := by simp [answer, resets]
        refine ⟨by simp [after], ?_, ?_⟩ <;>
          simp [inHalfOpen_cons, half, state, admittedCall, askedFor, ClientAction.isAttempt, admitted]
      · simp [after, state] at half
    | halfOpen =>
      obtain ⟨calls, entered, same⟩ := held state
      rw [isCallPermitted_halfOpen state calls] at after answer
      split at after
      · rename_i permitted
        have admitted : out = .admitted := by simp [answer, permitted]
        refine ⟨by simp [after, calls], ?_, ?_⟩ <;>
          simp [inHalfOpen_cons, half, state, admittedCall, askedFor, ClientAction.isAttempt, admitted, same]
      · simp [after] at half
  | finish ending now =>
    obtain ⟨after, finished⟩ := finish_step moved
    rw [after] at half
    obtain ⟨state, kept⟩ := record_halfOpen half
    obtain ⟨calls, entered, same⟩ := held state
    refine ⟨by rw [after, kept, calls], ?_, ?_⟩ <;>
      simp [inHalfOpen_cons, after, half, state, admittedCall, askedFor, ClientAction.isAttempt,
        finished, same, entered]

theorem uncounted_run (run : Run (clients config) (.new start) history s) :
    s.breaker.state = .halfOpen → Uncounted history s.breaker := by
  induction run with
  | start => simp [ClientState.new, CircuitBreaker.new]
  | next _ moved ih => exact uncounted_step ih moved

/-! ### The bound -/

/-- The last step, when it keeps to the condition and what came before keeps the bound. -/
theorem bounded_step (run : Run (clients config) (.new start) older s)
    (moved : (clients config).step s action = some (s', out))
    (before : inHalfOpen admittedCall older ≤ config.halfOpenMaxCalls)
    (restrained : ∀ op now stamp, action = .attempt op now stamp → Restrained config older s.breaker now) :
    inHalfOpen admittedCall (⟨s, action, out, s'⟩ :: older) ≤ config.halfOpenMaxCalls := by
  have counts := uncounted_run run
  rw [inHalfOpen_cons]
  split
  · rename_i half
    cases action with
    | attempt op now stamp =>
      obtain ⟨entering, within⟩ := restrained op now stamp rfl
      obtain ⟨after, answer⟩ := attempt_step moved
      cases state : s.breaker.state with
      | closed =>
        simp only [CircuitBreaker.isCallPermitted, state] at after
        simp [after, state] at half
      | opened =>
        rw [isCallPermitted_opened state] at after
        split at after
        · rename_i resets
          have room := entering state resets
          simp only [reduceCtorEq, ↓reduceIte]
          split <;> omega
        · simp [after, state] at half
      | halfOpen =>
        obtain ⟨calls, -, same⟩ := counts state
        rw [isCallPermitted_halfOpen state calls] at after
        split at after
        · rename_i permitted
          have room := within state permitted.1
          rw [same] at room
          simp only [↓reduceIte]
          split <;> omega
        · simp [after] at half
    | finish ending now =>
      obtain ⟨after, finished⟩ := finish_step moved
      rw [after] at half
      simp [(record_halfOpen half).1, admittedCall, finished, before]
  · exact Nat.zero_le _

/-- What the bound says of an attempt that keeps or makes the breaker half-open. -/
theorem restrained_step (run : Run (clients config) (.new start) older s)
    (moved : (clients config).step s (.attempt op now stamp) = some (s', out))
    (before : inHalfOpen admittedCall older ≤ config.halfOpenMaxCalls)
    (bounded : inHalfOpen admittedCall (⟨s, .attempt op now stamp, out, s'⟩ :: older) ≤
      config.halfOpenMaxCalls) : Restrained config older s.breaker now := by
  obtain ⟨after, answer⟩ := attempt_step moved
  rw [inHalfOpen_cons] at bounded
  constructor
  · intro opened resets
    rw [isCallPermitted_opened opened, if_pos resets] at after answer
    have admitted : out = .admitted := answer.mpr rfl
    simpa [after, opened, admittedCall, admitted] using bounded
  · intro half running
    obtain ⟨calls, entered, same⟩ := uncounted_run run half
    rw [isCallPermitted_halfOpen half calls, if_pos ⟨running, entered.trans before⟩] at after answer
    have admitted : out = .admitted := answer.mpr rfl
    simpa [after, half, admittedCall, admitted, same] using bounded

end

/-- In a run, no half-open period admits more than `half_open_max_calls` exactly if every
attempt keeps to the condition. -/
theorem half_open_bound_iff (config : CircuitConfig) (start : Nat) (history : ClientHistory)
    (s : ClientState) (run : Run (clients config) (.new start) history s) :
    (∀ newer older, history = newer ++ older →
      inHalfOpen admittedCall older ≤ config.halfOpenMaxCalls) ↔
    ∀ newer e older, history = newer ++ e :: older →
      ∀ op now stamp, e.act = .attempt op now stamp → Restrained config older e.pre.breaker now := by
  constructor
  · rintro bounded newer ⟨pre, act, out, post⟩ older rfl op now stamp rfl
    obtain ⟨before, moved⟩ := run.split
    exact restrained_step before moved (bounded _ older (List.append_cons newer _ older))
      (bounded newer _ rfl)
  · intro restrained newer older split
    induction older generalizing newer with
    | nil => exact Nat.zero_le _
    | cons e older ih =>
      have before := ih (newer ++ [e]) (split.trans (List.append_cons newer e older))
      have kept := restrained newer e older split
      subst split
      obtain ⟨earlier, moved⟩ := run.split
      exact bounded_step earlier moved before kept

/-- Calls one after the other, each ending in a failure at the start. -/
def failedGets (count : Nat) : List ClientAction :=
  (List.replicate count [ClientAction.attempt .get 0 0, .finish .failure 0]).flatten

/-- Half a minute after the breaker opened. -/
def laterGets (count : Nat) : List ClientAction :=
  List.replicate count (.attempt .get (30 * nanosPerSec) (30 * nanosPerSec))

/-- Ten gets of the default breaker keep to the condition. -/
theorem half_open_bound_reached : ∃ history s,
    Run (clients .default) (.new 0) history s ∧ inHalfOpen admittedCall history = 10 ∧
      ∀ newer e older, history = newer ++ e :: older → ∀ op now stamp,
        e.act = .attempt op now stamp → Restrained .default older e.pre.breaker now := by
  obtain ⟨history, s, run, seen⟩ := Run.of_observation (clients .default) (.new 0)
    (failedGets 5 ++ laterGets 10)
    (fun reached => (inHalfOpen admittedCall reached.1,
      reached.1.tails.all fun older => inHalfOpen admittedCall older ≤ 10)) (10, true) rfl
  obtain ⟨ten, bounded⟩ := Prod.mk.inj seen
  refine ⟨history, s, run, ten, (half_open_bound_iff .default 0 history s run).mp ?_⟩
  intro newer older split
  have suffix : older ∈ history.tails := (List.mem_tails _ _).mpr ⟨newer, split.symm⟩
  exact of_decide_eq_true (List.all_eq_true.mp bounded older suffix)

/-- The default breaker admits eleven gets that come half a minute after it opened. -/
theorem half_open_calls_unbounded :
    ¬ ∀ (config : CircuitConfig) (start : Nat) (history : ClientHistory) (s : ClientState),
      Run (clients config) (.new start) history s →
        ∀ newer older, history = newer ++ older →
          inHalfOpen admittedCall older ≤ config.halfOpenMaxCalls := by
  intro claimed
  obtain ⟨history, s, run, seen⟩ := Run.of_observation (clients .default) (.new 0)
    (failedGets 5 ++ laterGets 11) (fun reached => inHalfOpen admittedCall reached.1) 11 rfl
  have bounded := claimed .default 0 history s run [] history rfl
  simp only at seen
  rw [seen] at bounded
  revert bounded
  decide

end Roboflow.Tikv
