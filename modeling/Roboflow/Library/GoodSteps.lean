import Roboflow.Library.Machine

/-! Machines whose steps are judged one by one. Where an invariant makes a step good exactly when it
meets a condition on the state before it, and the condition keeps the invariant, a run is good
throughout exactly when all of its steps meet the condition. -/
namespace Library

variable {m : Machine σ α ω} {start s : σ} {history : History σ α ω}

/-- Under the invariant, the condition decides whether a step is good and keeps the invariant. -/
structure Judged (m : Machine σ α ω) (invariant : σ → Prop) (good : Transition σ α ω → Prop)
    (condition : σ → α → Prop) : Prop where
  decided : ∀ s a s' out, invariant s → m.step s a = some (s', out) →
    (good ⟨s, a, out, s'⟩ ↔ condition s a)
  kept : ∀ s a s' out, invariant s → m.step s a = some (s', out) → condition s a → invariant s'

namespace Judged

variable {invariant : σ → Prop} {good : Transition σ α ω → Prop} {condition : σ → α → Prop}

theorem invariant_of_condition (judged : Judged m invariant good condition)
    (initial : invariant start) (run : Run m start history s)
    (met : ∀ e ∈ history, condition e.pre e.act) : invariant s := by
  induction run with
  | start => exact initial
  | next before moved ih =>
    rw [List.forall_mem_cons] at met
    exact judged.kept _ _ _ _ (ih met.2) moved met.1

/-- A run is good throughout if and only if all of its steps meet the condition. -/
theorem run_iff (judged : Judged m invariant good condition) (initial : invariant start)
    (run : Run m start history s) :
    (∀ e ∈ history, good e) ↔ ∀ e ∈ history, condition e.pre e.act := by
  induction run with
  | start => simp
  | next before moved ih =>
    rw [List.forall_mem_cons, List.forall_mem_cons, ih]
    apply and_congr_left
    intro met
    exact judged.decided _ _ _ _ (judged.invariant_of_condition initial before met) moved

end Judged

end Library
