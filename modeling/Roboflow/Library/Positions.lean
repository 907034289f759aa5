import Mathlib

/-! Lists by their positions: changed at one, taken apart there, and compared with the position
itself. -/
namespace Library

variable {α : Type}

/-- An entry of a list, what replacing it leaves and what removing it leaves. -/
theorem exists_split {l : List α} (held : l[i]? = some a) :
    ∃ before after, l = before ++ a :: after ∧ (∀ b, l.set i b = before ++ b :: after) ∧
      l.eraseIdx i = before ++ after := by
  induction l generalizing i with
  | nil => simp at held
  | cons first rest ih =>
    cases i with
    | zero =>
      obtain rfl : first = a := by simpa using held
      exact ⟨[], rest, rfl, fun b => rfl, rfl⟩
    | succ i =>
      obtain ⟨before, after, rfl, replaced, removed⟩ := ih (by simpa using held)
      refine ⟨first :: before, after, rfl, fun b => ?_, ?_⟩
      · rw [List.set_cons_succ, replaced]
        rfl
      · rw [List.eraseIdx_cons_succ, removed]
        rfl

/-- Integers that increase grow at least as fast as their positions. -/
theorem add_le_of_increasing {l : List Int} {first : Int} {i : Nat} (increasing : l.Pairwise (· < ·))
    (start : ∀ a ∈ l.head?, first ≤ a) (held : l[i]? = some a) : first + i ≤ a := by
  induction l generalizing i first with
  | nil => simp at held
  | cons b rest ih =>
    have least : first ≤ b := start b rfl
    cases i with
    | zero =>
      obtain rfl : b = a := by simpa using held
      omega
    | succ i =>
      obtain ⟨above, tail⟩ := List.pairwise_cons.mp increasing
      have next : ∀ c ∈ rest.head?, first + 1 ≤ c := by
        intro c given
        have := above c (List.mem_of_mem_head? given)
        omega
      have := ih tail next (by simpa using held)
      omega

/-- An arrangement of `0, …, n - 1` that is nowhere below its positions is in order. -/
theorem eq_range_of_le {l : List Int} {n : Nat}
    (perm : l.Perm ((List.range n).map fun i : Nat => (i : Int)))
    (above : ∀ (i : Nat) (a : Int), l[i]? = some a → (i : Int) ≤ a) :
    l = (List.range n).map fun i : Nat => (i : Int) := by
  induction n generalizing l with
  | zero => simpa using perm
  | succ n ih =>
    have length : l.length = n + 1 := by simpa using perm.length_eq
    obtain rfl | ⟨before, a, rfl⟩ := List.eq_nil_or_concat' l
    · simp at length
    · have size : before.length = n := by simpa using length
      have least : (n : Int) ≤ a := by
        refine above n a ?_
        simp [← size]
      have member : a ∈ (List.range (n + 1)).map fun i : Nat => (i : Int) := perm.subset (by simp)
      obtain ⟨i, small, rfl⟩ := List.mem_map.mp member
      have bound := List.mem_range.mp small
      obtain rfl : i = n := by omega
      simp only [List.range_succ, List.map_append, List.map_cons, List.map_nil] at perm ⊢
      have shorter : before = (List.range i).map fun i : Nat => (i : Int) := by
        refine ih ((List.perm_append_right_iff _).mp perm) fun j b held => above j b ?_
        rw [List.getElem?_append_left (List.getElem?_eq_some_iff.mp held).1]
        exact held
      rw [shorter]

end Library
