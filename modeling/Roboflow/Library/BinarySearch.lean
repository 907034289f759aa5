import Roboflow.Library.Machine

/-! Binary search over a sorted list, as the standard library of the source
language runs it: the window keeps its base and halves its size, and only the
last comparison tells a hit from the place to insert at. -/
namespace Library.BinarySearch

/-- The loop `while size > 1`. Every pass drops `size / 2` positions, so the
initial size is fuel enough. -/
def narrow (past : Nat → Bool) : Nat → Nat → Nat → Nat
  | 0, base, _ => base
  | fuel + 1, base, size =>
    if size ≤ 1 then base
    else
      let mid := base + size / 2
      narrow past fuel (if past mid then base else mid) (size - size / 2)

variable {α β : Type} [LinearOrder β]

/-- The comparison `cmp == Greater` at a position. -/
def isPast (key : β) (read : α → β) (xs : List α) (position : Nat) : Bool :=
  (xs[position]?).any fun x => key < read x

/-- `binary_search_by_key`: `ok` is the position of a hit, `error` the position
at which an entry with this key keeps the list sorted. -/
def search (key : β) (read : α → β) (xs : List α) : Except Nat Nat :=
  let base := narrow (isPast key read xs) xs.length 0 xs.length
  match xs[base]? with
  | none => .error 0
  | some x =>
    if read x = key then .ok base
    else if read x < key then .error (base + 1)
    else .error base

/-- Everything from `base + size` on is past the key; what `base` itself holds
is not, unless `base` is still the first position. -/
structure Window (past : Nat → Bool) (length base size : Nat) : Prop where
  inside : base + size ≤ length
  nonempty : 0 < size
  above : ∀ i, base + size ≤ i → i < length → past i = true
  below : 0 < base → past base = false

theorem Window.halve (window : Window past length base size) (wide : ¬size ≤ 1)
    (monotone : ∀ i j, i ≤ j → j < length → past i = true → past j = true) :
    Window past length (if past (base + size / 2) then base else base + size / 2)
      (size - size / 2) := by
  obtain ⟨inside, nonempty, above, below⟩ := window
  by_cases high : past (base + size / 2) = true
  · rw [if_pos high]
    refine ⟨by omega, by omega, fun i from_mid inList => ?_, below⟩
    exact monotone _ i (by omega) inList high
  · rw [if_neg high]
    exact ⟨by omega, by omega, fun i from_end => above i (by omega), fun _ => by simpa using high⟩

/-- The loop ends in a window of one position. -/
theorem narrow_window (fuel base size : Nat) (enough : size ≤ fuel)
    (window : Window past length base size)
    (monotone : ∀ i j, i ≤ j → j < length → past i = true → past j = true) :
    Window past length (narrow past fuel base size) 1 := by
  induction fuel generalizing base size with
  | zero => exact absurd window.nonempty (by omega)
  | succ fuel ih =>
    simp only [narrow]
    split
    · rename_i single
      have one : size = 1 := by have := window.nonempty; omega
      exact one ▸ window
    · rename_i wide
      exact ih _ _ (by omega) (window.halve wide monotone)

/-- What a search promises of the position it answers with. -/
def Answer (key : β) (read : α → β) (xs : List α) : Except Nat Nat → Prop
  | .ok i => ∃ x, xs[i]? = some x ∧ read x = key
  | .error i => i ≤ xs.length ∧ (∀ x ∈ xs.take i, read x < key) ∧ ∀ x ∈ xs.drop i, key < read x

theorem sorted_of_le {read : α → β} {xs : List α}
    (sorted : xs.Pairwise fun a b => read a < read b) (i j : Nat) (le : i ≤ j)
    (hj : j < xs.length) : read xs[i] ≤ read xs[j] := by
  rcases Nat.lt_or_eq_of_le le with before | rfl
  · exact (List.pairwise_iff_getElem.mp sorted i j (by omega) hj before).le
  · exact le_rfl

theorem isPast_getElem (key : β) (read : α → β) (xs : List α) (i : Nat) (hi : i < xs.length) :
    isPast key read xs i = true ↔ key < read xs[i] := by
  simp [isPast, List.getElem?_eq_getElem hi]

/-- The window the loop leaves, read as facts about the list around its base. -/
theorem around_base {read : α → β} {xs : List α} (filled : 0 < xs.length)
    (sorted : xs.Pairwise fun a b => read a < read b) (key : β) :
    ∃ base, narrow (isPast key read xs) xs.length 0 xs.length = base ∧ base < xs.length ∧
      (∀ x ∈ xs.take base, read x < key) ∧ ∀ x ∈ xs.drop (base + 1), key < read x := by
  have monotone : ∀ i j, i ≤ j → j < xs.length →
      isPast key read xs i = true → isPast key read xs j = true := by
    intro i j le hj high
    rw [isPast_getElem key read xs i (by omega)] at high
    rw [isPast_getElem key read xs j hj]
    exact high.trans_le (sorted_of_le sorted i j le hj)
  have whole : Window (isPast key read xs) xs.length 0 xs.length :=
    ⟨by omega, filled, fun i h₁ h₂ => by omega, fun h => by omega⟩
  obtain ⟨inside, -, above, below⟩ := narrow_window xs.length 0 xs.length le_rfl whole monotone
  refine ⟨_, rfl, by omega, fun x member => ?_, fun x member => ?_⟩
  · obtain ⟨i, hi, rfl⟩ := List.mem_iff_getElem.mp member
    rw [List.length_take] at hi
    have low := below (by omega)
    rw [← Bool.not_eq_true, isPast_getElem key read xs _ (by omega), not_lt] at low
    rw [List.getElem_take]
    exact (List.pairwise_iff_getElem.mp sorted i _ (by omega) (by omega) (by omega)).trans_le low
  · obtain ⟨i, hi, rfl⟩ := List.mem_iff_getElem.mp member
    rw [List.length_drop] at hi
    rw [List.getElem_drop]
    exact (isPast_getElem key read xs _ (by omega)).mp (above _ (by omega) (by omega))

/-- On a strictly sorted list a search finds the key or the place it belongs. -/
theorem search_answer {read : α → β} {xs : List α}
    (sorted : xs.Pairwise fun a b => read a < read b) (key : β) :
    Answer key read xs (search key read xs) := by
  rcases Nat.eq_zero_or_pos xs.length with empty | filled
  · have nil := List.eq_nil_of_length_eq_zero empty
    subst nil
    simp [search, Answer]
  obtain ⟨base, narrowed, inside, before, after⟩ := around_base filled sorted key
  have found : xs[base]? = some xs[base] := List.getElem?_eq_getElem inside
  simp only [search, narrowed, found]
  split
  · rename_i hit
    exact ⟨xs[base], found, hit⟩
  · rename_i miss
    split
    · rename_i low
      refine ⟨by omega, fun x member => ?_, after⟩
      rw [List.take_succ_eq_append_getElem inside, List.mem_append, List.mem_singleton] at member
      rcases member with early | rfl
      · exact before x early
      · exact low
    · rename_i high
      refine ⟨by omega, before, fun x member => ?_⟩
      rw [List.drop_eq_getElem_cons inside] at member
      rcases List.mem_cons.mp member with rfl | late
      · exact lt_of_le_of_ne (not_lt.mp high) (Ne.symm miss)
      · exact after x late

example : (search 4 (fun n : Nat => n) [1, 3, 4, 8]).toOption = some 2 := by decide

end Library.BinarySearch
