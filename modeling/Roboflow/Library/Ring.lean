import Roboflow.Library.Machine

/-! Rings: a sequence that grows at one end and shrinks at the other, kept in a
fixed number of slots. Positions count up without bound; element `i` stands in
slot `i` modulo the number of slots, and the two ends are machine words that wrap
around. -/
namespace Library.Ring

/-- The elements numbered `low` up to `high` each stand in their own slot. -/
def Window (slots : List (Option α)) (items : List α) (low high : Nat) : Prop :=
  ∀ i, low ≤ i → i < high → slots[i % slots.length]? = some items[i]?

/-- Two positions less than one revolution apart have different slots. -/
theorem slot_ne {i j n : Nat} (before : i < j) (close : j < i + n) : i % n ≠ j % n := by
  intro same
  have divides : n ∣ j - i := (Nat.modEq_iff_dvd' before.le).mp same
  have large : n ≤ j - i := Nat.le_of_dvd (by omega) divides
  omega

namespace Window

variable {slots : List (Option α)} {items : List α} {low high : Nat}

theorem empty : Window slots items low low :=
  fun _ least less => absurd less (by omega)

/-- Writing the slot after the last element leaves the elements alone. -/
theorem put (window : Window slots items low high) (room : high < low + slots.length)
    (entry : Option α) : Window (slots.set (high % slots.length) entry) items low high := by
  intro i least less
  have apart : high % slots.length ≠ i % slots.length := (slot_ne less (by omega)).symm
  rw [List.length_set, List.getElem?_set_ne apart]
  exact window i least less

/-- Emptying the first element's slot leaves the elements after it alone. -/
theorem take (window : Window slots items low high) (fits : high ≤ low + slots.length)
    (entry : Option α) : Window (slots.set (low % slots.length) entry) items (low + 1) high := by
  intro i least less
  have apart : low % slots.length ≠ i % slots.length := slot_ne (by omega) (by omega)
  rw [List.length_set, List.getElem?_set_ne apart]
  exact window i (by omega) less

/-- A value written in the slot after the last element becomes the last element. -/
theorem extend (window : Window slots items low items.length)
    (written : slots[items.length % slots.length]? = some (some x)) :
    Window slots (items ++ [x]) low (items.length + 1) := by
  intro i least less
  by_cases last : i = items.length
  · subst last
    simpa using written
  · have older : i < items.length := by omega
    rw [List.getElem?_append_left older]
    exact window i least older

end Window

/-! ### The ends as machine words -/

/-- Wrapping subtraction of two positions that are less than a revolution of the
word apart is their distance. -/
theorem distance (order : b ≤ a) (near : a - b < 2 ^ w) :
    (BitVec.ofNat w a - BitVec.ofNat w b).toNat = a - b := by
  have split : a = (a - b) + b := by omega
  have shifted : BitVec.ofNat w a = BitVec.ofNat w (a - b) + BitVec.ofNat w b := by
    rw [← BitVec.ofNat_add, ← split]
  rw [shifted, BitVec.add_sub_cancel, BitVec.toNat_ofNat, Nat.mod_eq_of_lt near]

/-- Such positions are told apart by their words. -/
theorem word_injective (order : b ≤ a) (near : a - b < 2 ^ w)
    (same : BitVec.ofNat w b = BitVec.ofNat w a) : b = a := by
  have zero := distance order near
  rw [same, BitVec.sub_self, BitVec.toNat_zero] at zero
  omega

/-- Masking a word with one less than a power of two gives the slot. -/
theorem masked (fits : k ≤ w) :
    (BitVec.ofNat w a &&& BitVec.ofNat w (2 ^ k - 1)).toNat = a % 2 ^ k := by
  have small : 2 ^ k - 1 < 2 ^ w := by
    have := Nat.pow_le_pow_right (n := 2) (by omega) fits
    have := Nat.two_pow_pos k
    omega
  rw [BitVec.toNat_and, BitVec.toNat_ofNat, BitVec.toNat_ofNat, Nat.mod_eq_of_lt small,
    Nat.and_two_pow_sub_one_eq_mod, Nat.mod_mod_of_dvd _ (Nat.pow_dvd_pow 2 fits)]

end Library.Ring
