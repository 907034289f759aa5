import Roboflow.Media.FramePool

/-! When `try_acquire_slot` gives up. A load that finds no bit is a pool without a free slot; a call
that loses an exchange in every attempt is refused as well, whatever the mask holds. -/
namespace Roboflow.Media
open Library

abbrev PoolHistory := History FramePool PoolAction PoolOut

def PoolAction.thread : PoolAction → Nat
  | .load thread => thread
  | .exchange thread _ => thread
  | .setFlag thread => thread
  | .count thread => thread
  | .release thread _ => thread
  | .setBit thread => thread

/-- No slot is free. -/
def FramePool.Exhausted (s : FramePool) : Prop :=
  ∀ slot < s.slotCount, s.freeMask.getLsbD slot = false

instance (s : FramePool) : Decidable s.Exhausted :=
  inferInstanceAs (Decidable (∀ slot < s.slotCount, s.freeMask.getLsbD slot = false))

/-- The pool before each step taken since the thread was last idle: the instants of its call. -/
def duringCall (thread : Nat) : PoolHistory → List FramePool
  | [] => []
  | e :: older =>
    if e.pre.calls thread = .idle then [e.pre] else e.pre :: duringCall thread older

/-- Every refused call overlaps an instant without a free slot. -/
def RefusalsJustified (history : PoolHistory) : Prop :=
  ∀ newer e older, history = newer ++ e :: older → e.out = .exhausted →
    ∃ s ∈ duringCall e.act.thread (e :: older), s.Exhausted

/-- The exchange of a last attempt succeeds, where a slot is free. -/
def PoolCall.LastWins (s : FramePool) (spurious : Bool) : PoolCall → Prop
  | .loaded attempt mask =>
    attempt + 1 < s.slotCount ∨ (s.freeMask = mask ∧ spurious = false) ∨ s.Exhausted
  | _ => True

def LastAttemptWins (s : FramePool) : PoolAction → Prop
  | .exchange thread spurious => (s.calls thread).LastWins s spurious
  | _ => True

instance (s : FramePool) (spurious : Bool) (call : PoolCall) : Decidable (call.LastWins s spurious) :=
  match call with
  | .loaded attempt mask => inferInstanceAs (Decidable (attempt + 1 < s.slotCount ∨
      (s.freeMask = mask ∧ spurious = false) ∨ s.Exhausted))
  | .idle | .retrying _ | .claimed _ | .flagged _ | .clearing _ => .isTrue trivial

instance (s : FramePool) (act : PoolAction) : Decidable (LastAttemptWins s act) :=
  match act with
  | .exchange thread spurious => inferInstanceAs (Decidable ((s.calls thread).LastWins s spurious))
  | .load _ | .setFlag _ | .count _ | .release _ _ | .setBit _ => .isTrue trivial

/-! ### Where a call is refused -/

theorem trailingZeros_le_of_bit {mask : BitVec 64} {slot : Nat} (bit : mask.getLsbD slot = true) :
    trailingZeros mask ≤ slot := by
  have low : slot < 64 := BitVec.lt_of_getLsbD bit
  unfold trailingZeros
  cases first : (List.range 64).find? (mask.getLsbD ·) with
  | none =>
    have none_ := List.find?_eq_none.1 first slot (List.mem_range.2 low)
    exact absurd bit none_
  | some found =>
    have least := (List.find?_range_eq_some.1 first).2.2
    by_contra after
    have unset := least slot (Nat.lt_of_not_le after)
    simp [bit] at unset

/-- A mask whose lowest bit is no slot's has no slot's bit. -/
theorem exhausted_of_trailingZeros {s : FramePool} (none_ : s.slotCount ≤ trailingZeros s.freeMask) :
    s.Exhausted := by
  intro slot inside
  by_contra bit
  have early := trailingZeros_le_of_bit (Bool.eq_true_of_not_eq_false bit)
  omega

section
variable {s s' : FramePool} {thread attempt : Nat}

theorem load_refused (refused : s.load thread attempt = (s', .exhausted)) :
    s.slotCount ≤ trailingZeros s.freeMask := by
  unfold FramePool.load at refused
  split at refused
  · assumption
  · cases refused

theorem exchange_refused {mask : BitVec 64} {spurious : Bool}
    (refused : s.exchange thread attempt mask spurious = (s', .exhausted)) :
    ¬(s.freeMask = mask ∧ spurious = false) ∧ s.slotCount ≤ attempt + 1 := by
  unfold FramePool.exchange at refused
  simp only [Bool.not_eq_true'] at refused
  split at refused
  · cases refused
  · rename_i lost
    split at refused
    · cases refused
    · rename_i last
      exact ⟨lost, Nat.le_of_not_lt last⟩

/-- A refused call loaded a mask without a slot, or lost the exchange of its last attempt. -/
theorem refused_cases {act : PoolAction}
    (moved : FramePool.threads.step s act = some (s', .exhausted)) :
    s.slotCount ≤ trailingZeros s.freeMask ∨
      ∃ thread spurious attempt mask, act = .exchange thread spurious ∧
        s.calls thread = .loaded attempt mask ∧ ¬(s.freeMask = mask ∧ spurious = false) ∧
          s.slotCount ≤ attempt + 1 := by
  cases act with
  | load thread =>
    simp only [FramePool.threads] at moved
    split at moved
    · exact .inl (load_refused (Option.some.inj moved))
    · exact .inl (load_refused (Option.some.inj moved))
    · cases moved
  | exchange thread spurious =>
    simp only [FramePool.threads] at moved
    split at moved
    · rename_i attempt mask at_call
      exact .inr ⟨thread, spurious, attempt, mask, rfl, at_call,
        exchange_refused (Option.some.inj moved)⟩
    · cases moved
  | release thread slot =>
    simp only [FramePool.threads] at moved
    split at moved
    · rw [Option.ite_none_right_eq_some] at moved
      have dropped := moved.2
      unfold FramePool.release at dropped
      split at dropped <;> cases dropped
    · cases moved
  | setFlag thread | count thread | setBit thread =>
    simp only [FramePool.threads] at moved
    split at moved <;> cases moved

end

/-! ### Runs -/

theorem mem_duringCall (e : Transition FramePool PoolAction PoolOut) (older : PoolHistory)
    (thread : Nat) : e.pre ∈ duringCall thread (e :: older) := by
  unfold duringCall
  split
  · exact List.mem_singleton_self _
  · exact List.mem_cons_self

/-- Where no call loses its last attempt to a pool with a free slot, a refusal means that the pool
was exhausted. -/
theorem refusals_justified_while_last_attempts_win {start s : FramePool} {history : PoolHistory}
    (run : Run FramePool.threads start history s)
    (wins : ∀ e ∈ history, LastAttemptWins e.pre e.act) : RefusalsJustified history := by
  intro newer e older split refused
  subst split
  obtain ⟨before, moved⟩ := run.split
  refine ⟨e.pre, mem_duringCall e older e.act.thread, ?_⟩
  rw [refused] at moved
  rcases refused_cases moved with none_ | ⟨thread, spurious, attempt, mask, act, at_call, lost, last⟩
  · exact exhausted_of_trailingZeros none_
  · have won := wins e (by simp)
    rw [act, LastAttemptWins, at_call] at won
    rcases won with more | kept | exhausted
    · exact absurd more (Nat.not_lt.2 last)
    · exact absurd kept lost
    · exact exhausted

/-- A thread takes both slots, and another finds none. -/
theorem refused_without_a_slot : ∃ history s, Run FramePool.threads twoSlotPool history s ∧
    history.head?.map (·.out) = some .exhausted ∧ RefusalsJustified history := by
  obtain ⟨history, s, run, seen⟩ := Run.of_observation FramePool.threads twoSlotPool
    [.load 0, .exchange 0 false, .setFlag 0, .count 0, .load 0, .exchange 0 false, .load 1]
    (fun r => (r.1.head?.map (·.out), r.1.all fun e => decide (LastAttemptWins e.pre e.act)))
    (some .exhausted, true) (by decide +kernel)
  obtain ⟨last, each⟩ := Prod.mk.inj seen
  have wins : ∀ e ∈ history, LastAttemptWins e.pre e.act := by simpa using each
  exact ⟨history, s, run, last, refusals_justified_while_last_attempts_win run wins⟩

/-- Two slots. While thread 0 is between a load and its exchange, thread 1 takes slot 0, and then
gives it back: both attempts are lost, and slot 1 has been free all the time. -/
def lostRaces : List PoolAction :=
  [.load 0, .load 1, .exchange 1 false, .exchange 0 false, .load 0, .setFlag 1, .count 1,
    .release 1 0, .setBit 1, .exchange 0 false]

theorem refused_with_a_free_slot : ∃ history s, Run FramePool.threads twoSlotPool history s ∧
    (∀ e ∈ history, ∀ thread, e.act ≠ .exchange thread true) ∧ ¬RefusalsJustified history := by
  obtain ⟨history, s, run, seen⟩ := Run.of_observation FramePool.threads twoSlotPool lostRaces
    (fun r => (r.1.head?.map fun e => (e.out, e.act.thread),
      (duringCall 0 r.1).all fun t => !decide t.Exhausted,
      r.1.all fun e => match e.act with | .exchange _ spurious => !spurious | _ => true))
    (some (.exhausted, 0), true, true) (by decide +kernel)
  simp only [Prod.mk.injEq] at seen
  obtain ⟨last, free, strong⟩ := seen
  refine ⟨history, s, run, ?_, ?_⟩
  · intro e member thread weak
    have plain := List.all_eq_true.1 strong e member
    simp [weak] at plain
  · intro justified
    cases history with
    | nil => cases last
    | cons e older =>
      simp only [List.head?_cons, Option.map_some, Option.some.injEq, Prod.mk.injEq] at last
      obtain ⟨t, inside, exhausted⟩ := justified [] e older rfl last.1
      rw [last.2] at inside
      have some_ := List.all_eq_true.1 free t inside
      simp [exhausted] at some_

end Roboflow.Media
