import Mathlib

/-! Actions that fail or panic, and repeating one while it fails with an error that is worth another
attempt. The repetition gives the first other outcome, if it comes in time and every wait before it is
possible. -/
namespace Library

/-- An action on a state: a value or an error with the state after it, or a panic. -/
def Action (σ ε α : Type) : Type := σ → Option (Except ε α × σ)

namespace Action

variable {σ ε α β : Type}

protected def bind (act : Action σ ε α) (next : α → Action σ ε β) : Action σ ε β := fun s =>
  match act s with
  | none => none
  | some (.error error, s) => some (.error error, s)
  | some (.ok value, s) => next value s

instance : Monad (Action σ ε) where
  pure value := fun s => some (.ok value, s)
  bind := Action.bind

/-- An action that fails. -/
def fail (error : ε) : Action σ ε α := fun s => some (.error error, s)

theorem bind_of_ok {act : Action σ ε α} {s s' : σ} {value : α} (ran : act s = some (.ok value, s'))
    (next : α → Action σ ε β) : (act >>= next) s = next value s' := by
  change Action.bind act next s = next value s'
  unfold Action.bind
  rw [ran]

/-- Equal starts lead to equal ends. -/
theorem bind_congr {act act' : Action σ ε α} {s : σ} (same : act s = act' s)
    (next : α → Action σ ε β) : (act >>= next) s = (act' >>= next) s := by
  change Action.bind act next s = Action.bind act' next s
  unfold Action.bind
  rw [same]

variable (retryable : ε → Bool) (waits : Nat → Bool)

/-- The attempts from one on, with how many may follow it. -/
def retry (act : Action σ ε α) : Nat → Nat → Action σ ε α
  | 0, _ => act
  | left + 1, attempt => fun s =>
    match act s with
    | some (.error error, s') =>
      if retryable error then
        if waits attempt then retry act left (attempt + 1) s' else none
      else some (.error error, s')
    | outcome => outcome

/-- After a number of errors worth another attempt, the first other outcome. -/
inductive Settles (act : Action σ ε α) : Nat → σ → Except ε α × σ → Prop where
  | now {s : σ} {outcome : Except ε α} {s' : σ} :
      act s = some (outcome, s') → (∀ error, outcome = .error error → retryable error = false) →
        Settles act 0 s (outcome, s')
  | later {s s' : σ} {error : ε} {errors : Nat} {last : Except ε α × σ} :
      act s = some (.error error, s') → retryable error = true → Settles act errors s' last →
        Settles act (errors + 1) s last

variable {retryable waits}

theorem retry_of_other {act : Action σ ε α} {s s' : σ} {outcome : Except ε α}
    (ran : act s = some (outcome, s'))
    (other : ∀ error, outcome = .error error → retryable error = false) (left attempt : Nat) :
    retry retryable waits act left attempt s = some (outcome, s') := by
  cases left with
  | zero => exact ran
  | succ left =>
    unfold retry
    rw [ran]
    cases outcome with
    | ok value => rfl
    | error error =>
      dsimp only
      rw [other error rfl]
      rfl

theorem retry_of_ok {act : Action σ ε α} {s s' : σ} {value : α} (ran : act s = some (.ok value, s'))
    (left attempt : Nat) : retry retryable waits act left attempt s = some (.ok value, s') :=
  retry_of_other ran (fun _ same => by cases same) left attempt

/-- The first other outcome is given exactly if every wait before it is possible. -/
theorem retry_iff {act : Action σ ε α} {errors : Nat} {s : σ} {last : Except ε α × σ}
    (settles : Settles retryable act errors s last) {left : Nat} (within : errors ≤ left) (attempt : Nat) :
    retry retryable waits act left attempt s = some last ↔
      ∀ i < errors, waits (attempt + i) = true := by
  induction settles generalizing left attempt with
  | now ran other =>
    rw [retry_of_other ran other]
    exact iff_of_true rfl (fun i before => absurd before (Nat.not_lt_zero i))
  | @later s s' error errors last ran again _ ih =>
    obtain ⟨left, rfl⟩ : ∃ rest, left = rest + 1 := ⟨left - 1, by omega⟩
    have rest := ih (Nat.le_of_succ_le_succ within) (attempt + 1)
    have split : (∀ i < errors + 1, waits (attempt + i) = true) ↔
        waits attempt = true ∧ ∀ i < errors, waits (attempt + 1 + i) = true := by
      constructor
      · intro all
        refine ⟨all 0 (Nat.succ_pos _), fun i before => ?_⟩
        have next := all (i + 1) (Nat.succ_lt_succ before)
        rwa [Nat.add_comm i 1, ← Nat.add_assoc] at next
      · rintro ⟨first, later⟩ i before
        cases i with
        | zero => exact first
        | succ i =>
          have next := later i (Nat.lt_of_succ_lt_succ before)
          rwa [Nat.add_assoc, Nat.add_comm 1 i] at next
    have step : retry retryable waits act (left + 1) attempt s =
        if waits attempt then retry retryable waits act left (attempt + 1) s' else none := by
      conv_lhs => unfold retry
      rw [ran]
      dsimp only
      rw [if_pos again]
    rw [step, split, ← rest]
    cases waits attempt with
    | false => simp
    | true => simp

end Action

end Library
