import Roboflow.Library.Bytes

/-! Prefix scans made of ranges. A range from a prefix to an extension of it gives the first of the
keys with the prefix; whether it gives as many as were asked for depends on the keys it leaves out. -/
namespace Library

/-! ### Scans that stop early -/

section Scans
variable {κ ν : Type} {β : Type*}

theorem take_append_eq_iff (f : α → β) (early late : List α) (limit : Nat) :
    (early.take limit).map f = ((early ++ late).take limit).map f ↔
      limit ≤ early.length ∨ late = [] := by
  constructor
  · intro same
    have lengths := congrArg List.length same
    simp only [List.length_map, List.length_take, List.length_append] at lengths
    rw [← List.length_eq_zero_iff]
    omega
  · rintro (enough | rfl)
    · rw [List.take_append_of_le_length enough]
    · rw [List.append_nil]

variable [LinearOrder κ]

/-- A scan of one entry gives the first of its range. -/
theorem scan_one_iff (store : Kv κ ν) (range : κ → Bool) (entry : κ × ν) : store.scan range 1 = [entry] ↔
    entry ∈ store.entries ∧ range entry.1 ∧ ∀ other ∈ store.entries, range other.1 → entry.1 ≤ other.1 := by
  have sorted := store.sorted.filter fun entry => range entry.1
  rw [Kv.scan]
  constructor
  · intro first
    obtain ⟨rest, entries⟩ : ∃ rest, store.entries.filter (fun e => range e.1) = entry :: rest := by
      cases inside : store.entries.filter (fun e => range e.1) with
      | nil => simp [inside] at first
      | cons head rest =>
        rw [inside, List.take_succ_cons, List.take_zero, List.cons.injEq] at first
        exact ⟨rest, by rw [first.1]⟩
    have member : entry ∈ store.entries.filter (fun e => range e.1) := entries ▸ List.mem_cons_self
    rw [List.mem_filter] at member
    refine ⟨member.1, member.2, fun other stored reached => ?_⟩
    have others : other ∈ entry :: rest := entries ▸ List.mem_filter.mpr ⟨stored, reached⟩
    rw [entries] at sorted
    rcases List.mem_cons.mp others with rfl | later
    · exact le_rfl
    · exact ((List.pairwise_cons.mp sorted).1 other later).le
  · rintro ⟨stored, reached, least⟩
    have member : entry ∈ store.entries.filter (fun e => range e.1) := List.mem_filter.mpr ⟨stored, reached⟩
    cases inside : store.entries.filter (fun e => range e.1) with
    | nil => rw [inside] at member; cases member
    | cons head rest =>
      rw [inside] at member sorted
      rcases List.mem_cons.mp member with rfl | later
      · rfl
      · have headStored : head ∈ store.entries.filter (fun e => range e.1) := inside ▸ List.mem_cons_self
        rw [List.mem_filter] at headStored
        exact absurd ((List.pairwise_cons.mp sorted).1 entry later)
          (not_lt.mpr (least head headStored.1 headStored.2))

theorem scan_one_cases (store : Kv κ ν) (range : κ → Bool) :
    (store.scan range 1 = [] ∧ ∀ entry ∈ store.entries, range entry.1 = false) ∨
      ∃ entry, store.scan range 1 = [entry] := by
  rw [Kv.scan]
  cases inside : store.entries.filter (fun e => range e.1) with
  | nil =>
    refine .inl ⟨rfl, fun entry stored => ?_⟩
    simpa using List.filter_eq_nil_iff.mp inside entry stored
  | cons head rest => exact .inr ⟨head, rfl⟩

/-- In the order of the keys, those of a range come first if nothing before them is outside it. -/
theorem filter_split {entries : List (κ × ν)} (sorted : entries.Pairwise fun a b => a.1 < b.1)
    (whole early : κ → Bool) (inside : ∀ key, early key → whole key)
    (first : ∀ key key', key < key' → whole key → early key' → early key) :
    entries.filter (fun entry => whole entry.1) = entries.filter (fun entry => early entry.1) ++
      entries.filter fun entry => whole entry.1 && !early entry.1 := by
  induction entries with
  | nil => rfl
  | cons entry rest ih =>
    obtain ⟨above, tail⟩ := List.pairwise_cons.mp sorted
    simp only [List.filter_cons]
    cases isEarly : early entry.1 with
    | true =>
      simp [inside _ isEarly, ih tail]
    | false =>
      cases isWhole : whole entry.1 with
      | false => simpa using ih tail
      | true =>
        have later : rest.filter (fun entry => early entry.1) = [] := by
          rw [List.filter_eq_nil_iff]
          intro other member isEarly'
          have before := first _ _ (above other member) isWhole isEarly'
          rw [isEarly] at before
          cases before
        have others := ih tail
        rw [later] at others ⊢
        simpa using others

theorem scan_map_eq_iff (store : Kv κ ν) (f : κ × ν → β) (whole early : κ → Bool)
    (inside : ∀ key, early key → whole key)
    (first : ∀ key key', key < key' → whole key → early key' → early key) (limit : Nat) :
    (store.scan early limit).map f = (store.scan whole limit).map f ↔
      limit ≤ (store.entries.filter fun entry => early entry.1).length ∨
        ∀ entry ∈ store.entries, whole entry.1 → early entry.1 := by
  have nothing : (store.entries.filter fun entry => whole entry.1 && !early entry.1) = [] ↔
      ∀ entry ∈ store.entries, whole entry.1 → early entry.1 := by
    simp [List.filter_eq_nil_iff]
  rw [← nothing, Kv.scan, Kv.scan, filter_split store.sorted whole early inside first]
  exact take_append_eq_iff f _ _ limit

end Scans

/-! ### Ranges that end at a prefix and its greatest continuation -/

section Ranges
variable {α : Type} [LinearOrder α] {start key : List α}

theorem not_lt_of_prefix (starts : start <+: key) : ¬key < start := by
  obtain ⟨tail, rfl⟩ := starts
  intro less
  have shorter : tail < [] := by
    rw [← append_lt_append_iff start, List.append_nil]
    exact less
  exact absurd shorter (List.not_lt_nil _)

variable {top : α} (greatest : ∀ b, b ≤ top)
include greatest

/-- The keys from `start` up to `start` followed by the greatest element are those with the prefix
that do not go on with it. -/
theorem mem_range_greatest_iff : (start ≤ key ∧ key < start ++ [top]) ↔
    start <+: key ∧ ¬start ++ [top] <+: key := by
  rw [mem_range_iff]
  constructor
  · rintro ⟨tail, rfl, less⟩
    refine ⟨List.prefix_append start tail, fun topped => ?_⟩
    obtain ⟨more, rfl⟩ := (List.prefix_append_right_inj start).mp topped
    rcases List.cons_lt_cons_iff.mp less with below | ⟨-, shorter⟩
    · exact absurd below (lt_irrefl _)
    · exact absurd shorter (List.not_lt_nil _)
  · rintro ⟨⟨tail, rfl⟩, untopped⟩
    refine ⟨tail, rfl, ?_⟩
    cases tail with
    | nil => exact List.nil_lt_cons _ _
    | cons b rest =>
      apply List.cons_lt_cons_iff.mpr
      by_cases last : b = top
      · subst last
        exact absurd ((List.prefix_append_right_inj start).mpr ⟨rest, rfl⟩) untopped
      · exact .inl (lt_of_le_of_ne (greatest b) last)

/-- A key that does not go on with the greatest element comes before those that do. -/
theorem untopped_first {key' : List α} (less : key < key') (starts' : start <+: key')
    (untopped : ¬start ++ [top] <+: key') : ¬start ++ [top] <+: key := by
  rintro ⟨more, rfl⟩
  obtain ⟨tail, rfl⟩ := starts'
  rw [List.append_assoc, append_lt_append_iff] at less
  cases tail with
  | nil => exact absurd less (List.not_lt_nil _)
  | cons b rest =>
    have last : b = top := by
      rcases List.cons_lt_cons_iff.mp less with below | ⟨same, -⟩
      · exact absurd below (not_lt.mpr (greatest b))
      · exact same.symm
    subst last
    exact untopped ((List.prefix_append_right_inj start).mpr ⟨rest, rfl⟩)

end Ranges

end Library
