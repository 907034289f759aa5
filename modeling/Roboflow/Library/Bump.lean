import Roboflow.Library.Machine

/-! The bump allocator: one counter, and calls that take the next `count` numbers
as long as they stay below the caller's limit. It is the specification of every
allocator that hands out consecutive, never repeated indices. -/
namespace Library

/-- What a caller asks the counter for. -/
structure Take where
  count : Nat
  limit : Nat
  deriving DecidableEq

/-- The answer is the first number taken. -/
def bump : Machine Nat Take Nat where
  step next call := if next + call.count ≤ call.limit then some (next + call.count, next) else none

namespace Bump

/-- All numbers handed out by these calls, the newest call first. -/
def taken (calls : List (Take × Nat)) : List Nat :=
  calls.flatMap fun call => List.range' call.2 call.1.count

def calls (history : History Nat Take Nat) : List (Take × Nat) :=
  history.map fun e => (e.act, e.out)

/-- No number is handed out twice, every number below the counter is handed out,
and each call's numbers are below its limit. -/
theorem dense (run : Run bump 0 history next) :
    (taken (calls history)).Nodup ∧ (∀ i, i ∈ taken (calls history) ↔ i < next) ∧
      ∀ call ∈ calls history, call.2 + call.1.count ≤ call.1.limit := by
  induction run with
  | start => simp [taken, calls]
  | @next history s call s' out _ moved ih =>
    obtain ⟨distinct, below, limits⟩ := ih
    simp only [bump] at moved
    split at moved
    · rename_i fits
      cases moved
      have grown : taken (calls (⟨s, call, s, s + call.count⟩ :: history)) =
          List.range' s call.count ++ taken (calls history) := rfl
      refine ⟨?_, fun i => ?_, ?_⟩
      · rw [grown]
        apply List.Nodup.append List.nodup_range' distinct
        intro i fresh old
        have high := (List.mem_range'_1.mp fresh).1
        have low := (below i).mp old
        omega
      · rw [grown, List.mem_append, List.mem_range'_1, below]
        omega
      · intro other member
        rcases List.mem_cons.mp member with rfl | older
        · exact fits
        · exact limits other older
    · cases moved

end Bump

end Library
