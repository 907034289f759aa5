import Mathlib

/-! Natural numbers rounded to double precision: 53 bits are kept, and of two doubles that
are as near, the one with an even significand is taken. -/
namespace Library

/-- The distance between the doubles next to a natural number. -/
def doubleSpacing (n : Nat) : Nat := 2 ^ (n.log2 - 52)

def roundDouble (n : Nat) : Nat :=
  let below := n / doubleSpacing n
  let rest := 2 * (n % doubleSpacing n)
  if rest < doubleSpacing n ∨ rest = doubleSpacing n ∧ below % 2 = 0 then below * doubleSpacing n
  else (below + 1) * doubleSpacing n

theorem doubleSpacing_le (large : 52 ≤ n.log2) : doubleSpacing n * 2 ^ 52 ≤ n := by
  have positive : n ≠ 0 := by
    rintro rfl
    simp at large
  calc doubleSpacing n * 2 ^ 52 = 2 ^ n.log2 := by
        rw [doubleSpacing, ← Nat.pow_add, Nat.sub_add_cancel large]
    _ ≤ n := Nat.log2_self_le positive

/-- Rounding goes up by half the spacing at most. -/
theorem roundDouble_le_spacing (n : Nat) : 2 * roundDouble n ≤ 2 * n + doubleSpacing n := by
  have parts := Nat.div_add_mod' n (doubleSpacing n)
  simp only [roundDouble]
  split
  · omega
  · rename_i up
    have half : doubleSpacing n ≤ 2 * (n % doubleSpacing n) := by omega
    rw [Nat.add_mul]
    omega

/-- Rounding goes up by the 53rd bit at most. -/
theorem roundDouble_le (n : Nat) : roundDouble n * 2 ^ 53 ≤ n * (2 ^ 53 + 1) := by
  by_cases large : 52 ≤ n.log2
  · calc roundDouble n * 2 ^ 53 = 2 * roundDouble n * 2 ^ 52 := by ring
      _ ≤ (2 * n + doubleSpacing n) * 2 ^ 52 := Nat.mul_le_mul_right _ (roundDouble_le_spacing n)
      _ = n * 2 ^ 53 + doubleSpacing n * 2 ^ 52 := by ring
      _ ≤ n * 2 ^ 53 + n := Nat.add_le_add_left (doubleSpacing_le large) _
      _ = n * (2 ^ 53 + 1) := by ring
  · have fine : doubleSpacing n = 1 := by
      rw [doubleSpacing, Nat.sub_eq_zero_of_le (by omega), Nat.pow_zero]
    have same : roundDouble n = n := by
      simp [roundDouble, fine, Nat.mod_one]
    rw [same]
    exact Nat.mul_le_mul_left n (Nat.le_succ _)

end Library
