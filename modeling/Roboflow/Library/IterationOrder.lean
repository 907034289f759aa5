import Mathlib

/-! Reading the first fitting entry of a collection that is iterated in any order. What is
read depends on the order exactly as far as the fitting entries differ. -/
namespace Library

/-- The order in which a hash map gives its entries. -/
structure IterationOrder (α : Type) where
  arrange : List α → List α
  perm : ∀ entries, (arrange entries).Perm entries

variable {α β : Type} {entries order : List α} {fits : α → Bool}

theorem fits_of_find? (perm : order.Perm entries) (found : order.find? fits = some entry) :
    entry ∈ entries ∧ fits entry = true :=
  ⟨perm.mem_iff.mp (List.mem_of_find?_eq_some found), List.find?_some found⟩

/-- Every fitting entry is the first in some order. -/
theorem exists_order_find? (fits : α → Bool) (member : entry ∈ entries) (fit : fits entry = true) :
    ∃ order : List α, order.Perm entries ∧ order.find? fits = some entry := by
  obtain ⟨before, after, rfl⟩ := List.append_of_mem member
  exact ⟨entry :: (before ++ after), List.perm_middle.symm, by simp [fit]⟩

theorem find?_isSome_of_perm (fits : α → Bool) (perm : order.Perm entries) :
    (order.find? fits).isSome = (entries.find? fits).isSome := by
  rw [Bool.eq_iff_iff, List.find?_isSome, List.find?_isSome]
  simp only [perm.mem_iff]

/-- What is read is the same in every order exactly if all fitting entries give the same. -/
theorem find?_order_free_iff (entries : List α) (fits : α → Bool) (read : α → β) :
    (∀ order other : List α, order.Perm entries → other.Perm entries →
      (order.find? fits).map read = (other.find? fits).map read) ↔
    ∀ entry ∈ entries, ∀ other ∈ entries, fits entry = true → fits other = true →
      read entry = read other := by
  constructor
  · intro free entry member other listed fit fit'
    obtain ⟨first, perm, found⟩ := exists_order_find? fits member fit
    obtain ⟨second, perm', found'⟩ := exists_order_find? fits listed fit'
    have same := free first second perm perm'
    rw [found, found'] at same
    exact Option.some.inj same
  · intro same order other perm perm'
    have present := (find?_isSome_of_perm fits perm).trans (find?_isSome_of_perm fits perm').symm
    cases found : order.find? fits with
    | none =>
      cases found' : other.find? fits with
      | none => rfl
      | some b => simp [found, found'] at present
    | some a =>
      cases found' : other.find? fits with
      | none => simp [found, found'] at present
      | some b =>
        obtain ⟨member, fit⟩ := fits_of_find? perm found
        obtain ⟨listed, fit'⟩ := fits_of_find? perm' found'
        exact congrArg some (same a member b listed fit fit')

theorem head?_eq_find? (order : List α) : order.head? = order.find? fun _ => true := by
  cases order <;> rfl

end Library
