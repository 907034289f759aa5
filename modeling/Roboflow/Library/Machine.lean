import Mathlib

/-! Guarded, executable machines and their runs. A machine's step is a partial
function, so the guards that proofs rely on are the guards a replay evaluates.
Nondeterminism (the schedule, the clock, what an outside party answers) is
carried by the action, and what a caller observes by the step's output.

Histories are newest first: the head is the last step taken. That is the order
in which "the latest call so far" is read off, and the order in which a run
grows by one step. -/
namespace Library

/-- `step s a` is the successor and the observed output when `a` is enabled. -/
structure Machine (σ α ω : Type) where
  step : σ → α → Option (σ × ω)

/-- One executed step, with both of its ends. -/
structure Transition (σ α ω : Type) where
  pre : σ
  act : α
  out : ω
  post : σ

abbrev History (σ α ω : Type) := List (Transition σ α ω)

/-- Every finite schedule of a machine, with the steps it took. -/
inductive Run (m : Machine σ α ω) (start : σ) : History σ α ω → σ → Prop where
  | start : Run m start [] start
  | next (before : Run m start history s) (moved : m.step s a = some (s', out)) :
      Run m start (⟨s, a, out, s'⟩ :: history) s'

namespace Machine

/-- The same machine, refusing every step that does not meet the condition. -/
def under (m : Machine σ α ω) (condition : σ → α → Prop)
    [∀ s a, Decidable (condition s a)] : Machine σ α ω where
  step s a := if condition s a then m.step s a else none

theorem under_step (m : Machine σ α ω) (condition : σ → α → Prop)
    [∀ s a, Decidable (condition s a)] :
    (m.under condition).step s a = some next ↔ condition s a ∧ m.step s a = some next := by
  simp only [under]
  split <;> simp_all

/-- The same machine under actions of another type. -/
def via (m : Machine σ α ω) (act : β → α) : Machine σ β ω where
  step s b := m.step s (act b)

/-- Replay a schedule, oldest action first, extending the given history. -/
def replay (m : Machine σ α ω) (history : History σ α ω) (s : σ) :
    List α → Option (History σ α ω × σ)
  | [] => some (history, s)
  | a :: rest =>
    match m.step s a with
    | none => none
    | some (s', out) => m.replay (⟨s, a, out, s'⟩ :: history) s' rest

end Machine

namespace Run

variable {m : Machine σ α ω} {start s : σ} {history : History σ α ω}

/-- What holds at the start and survives every step holds wherever a run ends. -/
theorem invariant {P : σ → Prop} (initial : P start)
    (preserved : ∀ s a s' out, P s → m.step s a = some (s', out) → P s')
    (run : Run m start history s) : P s := by
  induction run with
  | start => exact initial
  | next _ moved ih => exact preserved _ _ _ _ ih moved

/-- The same rule for facts that tie the steps taken so far to the state reached. -/
theorem history_invariant {P : History σ α ω → σ → Prop} (initial : P [] start)
    (preserved : ∀ history s a s' out, Run m start history s → P history s →
      m.step s a = some (s', out) → P (⟨s, a, out, s'⟩ :: history) s')
    (run : Run m start history s) : P history s := by
  induction run with
  | start => exact initial
  | next before moved ih => exact preserved _ _ _ _ _ before ih moved

/-- One more step, spelled out. -/
theorem move (before : Run m start history s) (a : α) (out : ω) (s' : σ)
    (moved : m.step s a = some (s', out)) : Run m start (⟨s, a, out, s'⟩ :: history) s' :=
  before.next moved

/-- Every recorded step was taken from a state the run had reached. -/
theorem recorded (run : Run m start history s) (member : e ∈ history) :
    ∃ older, Run m start older e.pre ∧ m.step e.pre e.act = some (e.post, e.out) := by
  induction run with
  | start => cases member
  | next before moved ih =>
    rcases List.mem_cons.mp member with rfl | older
    · exact ⟨_, before, moved⟩
    · exact ih older

/-- A run up to any of its steps, and that step. -/
theorem split {newer older : History σ α ω} {e : Transition σ α ω}
    (run : Run m start (newer ++ e :: older) s) :
    Run m start older e.pre ∧ m.step e.pre e.act = some (e.post, e.out) := by
  induction newer generalizing s with
  | nil =>
    cases run with
    | next before moved => exact ⟨before, moved⟩
  | cons _ _ ih =>
    cases run with
    | next before _ => exact ih before

/-- A run under other actions is one of the machine itself. -/
theorem of_via {act : β → α} {history : History σ β ω} (run : Run (m.via act) start history s) :
    Run m start (history.map fun e => ⟨e.pre, act e.act, e.out, e.post⟩) s := by
  induction run with
  | start => exact .start
  | next _ moved ih => exact ih.next moved

/-- A completed replay is a run. -/
theorem of_replay {actions : List α} (before : Run m start history s)
    (replayed : m.replay history s actions = some (final, t)) : Run m start final t := by
  induction actions generalizing history s with
  | nil =>
    simp only [Machine.replay, Option.some.injEq, Prod.mk.injEq] at replayed
    obtain ⟨rfl, rfl⟩ := replayed
    exact before
  | cons a rest ih =>
    simp only [Machine.replay] at replayed
    split at replayed
    · cases replayed
    · rename_i moved
      exact ih (.next before moved) replayed

/-- A replay that evaluates to an observation witnesses a run that shows it. -/
theorem of_observation (m : Machine σ α ω) (start : σ) (actions : List α)
    (observe : History σ α ω × σ → β) (seen : β)
    (evaluated : (m.replay [] start actions).map observe = some seen) :
    ∃ history s, Run m start history s ∧ observe (history, s) = seen := by
  obtain ⟨⟨history, s⟩, replayed, shown⟩ := Option.map_eq_some_iff.mp evaluated
  exact ⟨history, s, of_replay .start replayed, shown⟩

end Run

/-! ### Forward simulation -/

/-- Each implementation step either shows nothing and keeps the relation, or
shows one specification step that re-establishes it. `seen` reads the
specification's call and its answer off the implementation's output. -/
def Simulates (m : Machine σ α ω) (spec : Machine τ β υ) (seen : ω → Option (β × υ))
    (related : σ → τ → Prop) : Prop :=
  ∀ s t a s' out, related s t → m.step s a = some (s', out) →
    match seen out with
    | none => related s' t
    | some (call, answer) => ∃ t', spec.step t call = some (t', answer) ∧ related s' t'

/-- What a history shows of the specification's calls, newest first. -/
def shown (seen : ω → Option (β × υ)) (history : History σ α ω) : List (β × υ) :=
  history.filterMap fun e => seen e.out

/-- Every run of the implementation shows the calls of some specification run. -/
theorem Simulates.run {m : Machine σ α ω} {spec : Machine τ β υ} {seen : ω → Option (β × υ)}
    (sim : Simulates m spec seen related) (init : related start t₀)
    (run : Run m start history s) :
    ∃ specHistory t, Run spec t₀ specHistory t ∧ related s t ∧
      specHistory.map (fun e => (e.act, e.out)) = shown seen history := by
  induction run with
  | start => exact ⟨[], t₀, .start, init, rfl⟩
  | @next history s a s' out _ moved ih =>
    obtain ⟨specHistory, t, specRun, rel, same⟩ := ih
    have answered := sim s t a s' out rel moved
    cases visible : seen out with
    | none =>
      simp only [visible] at answered
      exact ⟨specHistory, t, specRun, answered, by simp [shown, visible, same]⟩
    | some call =>
      simp only [visible] at answered
      obtain ⟨t', specMoved, rel'⟩ := answered
      refine ⟨_, t', .next specRun specMoved, rel', ?_⟩
      simp [shown, visible, same]

end Library
