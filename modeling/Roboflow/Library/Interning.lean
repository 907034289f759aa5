import Mathlib

/-! Values numbered in the order of their first appearance. The number of a value is its
position among the known ones, and it does not change as more become known. -/
namespace Library

variable {α : Type} [DecidableEq α]

/-- A value becomes known unless it is. -/
def intern (known : List α) (value : α) : List α :=
  if value ∈ known then known else known ++ [value]

/-- Values become known one after another. -/
def internAll (known values : List α) : List α := values.foldl intern known

theorem intern_of_mem {known : List α} {value : α} (member : value ∈ known) :
    intern known value = known := if_pos member

theorem intern_of_notMem {known : List α} {value : α} (new : value ∉ known) :
    intern known value = known ++ [value] := if_neg new

theorem mem_intern {known : List α} {value other : α} :
    other ∈ intern known value ↔ other ∈ known ∨ other = value := by
  by_cases member : value ∈ known
  · rw [intern_of_mem member]
    constructor
    · exact Or.inl
    · rintro (old | rfl)
      · exact old
      · exact member
  · rw [intern_of_notMem member, List.mem_append, List.mem_singleton]

theorem intern_nodup {known : List α} (distinct : known.Nodup) (value : α) :
    (intern known value).Nodup := by
  by_cases member : value ∈ known
  · rwa [intern_of_mem member]
  · rw [intern_of_notMem member]
    exact List.nodup_append.mpr ⟨distinct, List.nodup_singleton _, by
      intro old listed new single same
      rw [List.mem_singleton] at single
      exact member (single ▸ same ▸ listed)⟩

theorem prefix_intern (known : List α) (value : α) : known <+: intern known value := by
  by_cases member : value ∈ known
  · rw [intern_of_mem member]
  · rw [intern_of_notMem member]
    exact List.prefix_append _ _

theorem internAll_cons (known : List α) (value : α) (values : List α) :
    internAll known (value :: values) = internAll (intern known value) values := rfl

theorem internAll_append (known values more : List α) :
    internAll known (values ++ more) = internAll (internAll known values) more :=
  List.foldl_append

theorem prefix_internAll (known values : List α) : known <+: internAll known values := by
  induction values generalizing known with
  | nil => exact List.prefix_refl _
  | cons value rest ih => exact (prefix_intern known value).trans (ih _)

theorem internAll_nodup {known : List α} (distinct : known.Nodup) (values : List α) :
    (internAll known values).Nodup := by
  induction values generalizing known with
  | nil => exact distinct
  | cons value rest ih => exact ih (intern_nodup distinct value)

theorem mem_internAll {known values : List α} {other : α} :
    other ∈ internAll known values ↔ other ∈ known ∨ other ∈ values := by
  induction values generalizing known with
  | nil => simp [internAll]
  | cons value rest ih =>
    rw [internAll_cons, ih, mem_intern, List.mem_cons, or_assoc]

/-- A number that was given stays. -/
theorem idxOf_grown {known later : List α} {value : α} (grown : known <+: later)
    (member : value ∈ known) : later.idxOf value = known.idxOf value := by
  obtain ⟨more, rfl⟩ := grown
  exact List.idxOf_append_of_mem member

/-- The number of a value says where it stands. -/
theorem idxOf_eq_iff {known : List α} (distinct : known.Nodup) {value : α}
    (member : value ∈ known) (number : Nat) :
    known.idxOf value = number ↔ known[number]? = some value := by
  constructor
  · rintro rfl
    rw [List.getElem?_eq_getElem (List.idxOf_lt_length_of_mem member), List.getElem_idxOf]
  · intro found
    obtain ⟨bound, rfl⟩ := List.getElem?_eq_some_iff.mp found
    exact distinct.idxOf_getElem number bound

end Library
