import Mathlib

/-! An ordered key-value store. Entries are kept strictly sorted by key, so a
store has one representation, a key has one value, and a bounded scan is the
first entries in key order that satisfy the scan's range. The proofs of callers
only use the equations for `get` and the membership facts of `scan`. -/
namespace Library

/-- Entries in strictly ascending key order. -/
structure Kv (κ ν : Type) [LinearOrder κ] where
  entries : List (κ × ν)
  sorted : entries.Pairwise (fun a b => a.1 < b.1)

namespace Kv

variable {κ ν : Type} [LinearOrder κ]

/-- Place one entry, replacing the value of an equal key. -/
def insertEntry (key : κ) (value : ν) : List (κ × ν) → List (κ × ν)
  | [] => [(key, value)]
  | entry :: rest =>
    if key < entry.1 then (key, value) :: entry :: rest
    else if key = entry.1 then (key, value) :: rest
    else entry :: insertEntry key value rest

theorem mem_insertEntry {entry : κ × ν} {entries : List (κ × ν)}
    (member : entry ∈ insertEntry key value entries) : entry = (key, value) ∨ entry ∈ entries := by
  induction entries with
  | nil => exact Or.inl (List.mem_singleton.mp member)
  | cons first rest ih =>
    simp only [insertEntry] at member
    split at member
    · exact List.mem_cons.mp member
    · split at member
      · exact (List.mem_cons.mp member).imp_right (List.mem_cons_of_mem _)
      · rcases List.mem_cons.mp member with rfl | later
        · exact Or.inr List.mem_cons_self
        · exact (ih later).imp_right (List.mem_cons_of_mem _)

theorem insertEntry_sorted {entries : List (κ × ν)}
    (sorted : entries.Pairwise (fun a b => a.1 < b.1)) :
    (insertEntry key value entries).Pairwise (fun a b => a.1 < b.1) := by
  induction entries with
  | nil => exact List.pairwise_singleton _ _
  | cons first rest ih =>
    obtain ⟨above, tail⟩ := List.pairwise_cons.mp sorted
    simp only [insertEntry]
    split
    · rename_i before
      refine List.pairwise_cons.mpr ⟨fun entry member => ?_, sorted⟩
      rcases List.mem_cons.mp member with rfl | later
      · exact before
      · exact before.trans (above entry later)
    · rename_i notBefore
      split
      · rename_i same
        exact List.pairwise_cons.mpr ⟨fun entry member => by rw [same]; exact above entry member, tail⟩
      · rename_i different
        refine List.pairwise_cons.mpr ⟨fun entry member => ?_, ih tail⟩
        rcases mem_insertEntry member with rfl | later
        · exact lt_of_le_of_ne (not_lt.mp notBefore) (Ne.symm different)
        · exact above entry later

/-! ### The operations -/

def empty : Kv κ ν := ⟨[], .nil⟩

def get (store : Kv κ ν) (key : κ) : Option ν :=
  (store.entries.find? fun entry => entry.1 = key).map Prod.snd

def put (store : Kv κ ν) (key : κ) (value : ν) : Kv κ ν :=
  ⟨insertEntry key value store.entries, insertEntry_sorted store.sorted⟩

def delete (store : Kv κ ν) (key : κ) : Kv κ ν :=
  ⟨store.entries.filter fun entry => entry.1 ≠ key, store.sorted.filter _⟩

/-- Several writes of one transaction, in order. -/
def putAll (store : Kv κ ν) (pairs : List (κ × ν)) : Kv κ ν :=
  pairs.foldl (fun current pair => current.put pair.1 pair.2) store

/-- The first `limit` entries, in key order, whose key is in the range. -/
def scan (store : Kv κ ν) (range : κ → Bool) (limit : Nat) : List (κ × ν) :=
  (store.entries.filter fun entry => range entry.1).take limit

/-! ### Point reads -/

@[simp] theorem get_empty (key : κ) : (empty : Kv κ ν).get key = none := rfl

/-- A point read finds exactly the stored entries. -/
theorem mem_entries (store : Kv κ ν) : (key, value) ∈ store.entries ↔ store.get key = some value := by
  constructor
  · intro member
    cases found : store.entries.find? fun entry => entry.1 = key with
    | none =>
      have absent := List.find?_eq_none.mp found (key, value) member
      simp at absent
    | some entry =>
      have named : entry.1 = key := by simpa using List.find?_some found
      have stored := List.mem_of_find?_eq_some found
      -- Two entries of one key would have to be strictly ordered.
      have same : entry = (key, value) := by
        by_contra different
        have order := List.pairwise_iff_getElem.mp store.sorted
        obtain ⟨i, hi, rfl⟩ := List.mem_iff_getElem.mp stored
        obtain ⟨j, hj, at_j⟩ := List.mem_iff_getElem.mp member
        rcases Nat.lt_trichotomy i j with before | equal | after
        · have := order i j hi hj before
          rw [at_j, named] at this
          exact lt_irrefl _ this
        · subst equal
          exact different at_j
        · have := order j i hj hi after
          rw [at_j, named] at this
          exact lt_irrefl _ this
      simp [get, found, same]
  · intro read
    obtain ⟨entry, found, rfl⟩ := Option.map_eq_some_iff.mp read
    have named : entry.1 = key := by simpa using List.find?_some found
    have stored := List.mem_of_find?_eq_some found
    rwa [← named]

@[simp] theorem get_put_self (store : Kv κ ν) (key : κ) (value : ν) :
    (store.put key value).get key = some value := by
  rw [← mem_entries]
  obtain ⟨entries, sorted⟩ := store
  induction entries with
  | nil => exact List.mem_singleton_self _
  | cons first rest ih =>
    simp only [put, insertEntry]
    split
    · exact List.mem_cons_self
    · split
      · exact List.mem_cons_self
      · exact List.mem_cons_of_mem _ (ih (List.pairwise_cons.mp sorted).2)

private theorem find_insertEntry_ne {other key : κ} (different : other ≠ key)
    (entries : List (κ × ν)) :
    (insertEntry key value entries).find? (fun entry => entry.1 = other) =
      entries.find? (fun entry => entry.1 = other) := by
  induction entries with
  | nil => simp [insertEntry, Ne.symm different]
  | cons first rest ih =>
    simp only [insertEntry]
    split
    · simp [List.find?_cons, Ne.symm different]
    · split
      · rename_i same
        have notFirst : first.1 ≠ other := by rw [← same]; exact Ne.symm different
        simp [Ne.symm different, notFirst]
      · simp only [List.find?_cons, ih]

theorem get_put_ne (store : Kv κ ν) (different : other ≠ key) (value : ν) :
    (store.put key value).get other = store.get other := by
  simp only [get, put, find_insertEntry_ne different]

theorem get_put (store : Kv κ ν) (key other : κ) (value : ν) :
    (store.put key value).get other = if other = key then some value else store.get other := by
  split
  · rename_i same
    rw [same, get_put_self]
  · rename_i different
    exact store.get_put_ne different value

theorem get_delete (store : Kv κ ν) (key other : κ) :
    (store.delete key).get other = if other = key then none else store.get other := by
  simp only [get, delete, List.find?_filter]
  split
  · rename_i same
    simp [same]
  · rename_i different
    have agree : (fun entry : κ × ν => decide (decide (entry.1 ≠ key) ∧ decide (entry.1 = other))) =
        fun entry => decide (entry.1 = other) := by
      funext entry
      by_cases named : entry.1 = other
      · simp [named, different]
      · simp [named]
    simpa using congrArg (fun p => (store.entries.find? p).map Prod.snd) agree

theorem get_delete_ne (store : Kv κ ν) (different : other ≠ key) :
    (store.delete key).get other = store.get other := by
  simp [get_delete, different]

/-! ### Values and sums -/

theorem ext_entries {store other : Kv κ ν} (same : store.entries = other.entries) : store = other := by
  cases store
  cases other
  cases same
  rfl

theorem entries_nodup (store : Kv κ ν) : store.entries.Nodup :=
  store.sorted.imp fun less same => absurd (same ▸ less) (lt_irrefl _)

/-- A store is what its point reads show. -/
theorem ext_get {store other : Kv κ ν} (same : ∀ key, store.get key = other.get key) :
    store = other := by
  apply ext_entries
  have listed : ∀ entry, entry ∈ store.entries ↔ entry ∈ other.entries := by
    rintro ⟨key, value⟩
    rw [mem_entries, mem_entries, same]
  have rearranged := (List.perm_ext_iff_of_nodup store.entries_nodup other.entries_nodup).mpr listed
  refine rearranged.eq_of_pairwise ?_ store.sorted other.sorted
  intro first second _ _ less more
  exact absurd (less.trans more) (lt_irrefl _)

instance [DecidableEq ν] : DecidableEq (Kv κ ν) := fun store other =>
  decidable_of_iff (store.entries = other.entries) ⟨ext_entries, congrArg entries⟩

/-- The same keys with their values changed. -/
def map (f : ν → μ) (store : Kv κ ν) : Kv κ μ :=
  ⟨store.entries.map fun entry => (entry.1, f entry.2), List.pairwise_map.mpr store.sorted⟩

theorem map_put (f : ν → μ) (store : Kv κ ν) (key : κ) (value : ν) :
    (store.put key value).map f = (store.map f).put key (f value) := by
  apply ext_entries
  obtain ⟨entries, sorted⟩ := store
  simp only [map, put]
  clear sorted
  induction entries with
  | nil => rfl
  | cons first rest ih =>
    simp only [insertEntry, List.map_cons]
    split
    · rfl
    · split
      · rfl
      · rw [List.map_cons, ih]

/-- A write replaces the key's share of a sum over all values. -/
theorem sum_put (f : ν → Nat) (store : Kv κ ν) (key : κ) (value : ν) :
    ((store.put key value).entries.map fun entry => f entry.2).sum + ((store.get key).map f).getD 0 =
      (store.entries.map fun entry => f entry.2).sum + f value := by
  obtain ⟨entries, sorted⟩ := store
  simp only [put, get]
  induction entries with
  | nil => simp [insertEntry]
  | cons first rest ih =>
    obtain ⟨above, tail⟩ := List.pairwise_cons.mp sorted
    simp only [insertEntry]
    split
    · rename_i before
      have absent : (first :: rest).find? (fun entry => entry.1 = key) = none := by
        rw [List.find?_eq_none]
        intro entry member
        rcases List.mem_cons.mp member with rfl | later
        · simpa using before.ne'
        · simpa using (before.trans (above entry later)).ne'
      simp only [absent, Option.map_none, Option.getD_none, List.map_cons, List.sum_cons]
      omega
    · split
      · rename_i same
        simp only [List.find?_cons, same.symm, decide_true, Option.map_some, Option.getD_some,
          List.map_cons, List.sum_cons]
        omega
      · rename_i different
        have elsewhere : decide (first.1 = key) = false := by simpa using Ne.symm different
        have rest_sum := ih tail
        simp only [List.find?_cons, elsewhere, List.map_cons, List.sum_cons]
        omega

/-- A write adds an entry exactly when its key is new. -/
theorem length_put (store : Kv κ ν) (key : κ) (value : ν) :
    (store.put key value).entries.length =
      store.entries.length + if (store.get key).isSome then 0 else 1 := by
  have counted := store.sum_put (fun _ => 1) key value
  simp only [List.map_const', List.sum_replicate, smul_eq_mul, mul_one] at counted
  cases found : store.get key with
  | none =>
    rw [found] at counted
    simpa using counted
  | some old =>
    rw [found] at counted
    simpa using counted

/-- A write of a new key. -/
theorem perm_put (store : Kv κ ν) (absent : store.get key = none) (value : ν) :
    (store.put key value).entries.Perm ((key, value) :: store.entries) := by
  have fresh : (key, value) ∉ store.entries := by
    rw [mem_entries, absent]
    exact Option.some_ne_none value |>.symm
  refine (List.perm_ext_iff_of_nodup (store.put key value).entries_nodup
    (List.nodup_cons.mpr ⟨fresh, store.entries_nodup⟩)).mpr ?_
  rintro ⟨other, found⟩
  rw [mem_entries, get_put, List.mem_cons, mem_entries]
  by_cases same : other = key
  · subst same
    simp [absent, eq_comm]
  · simp [same]

theorem perm_delete (store : Kv κ ν) (found : store.get key = some value) :
    store.entries.Perm ((key, value) :: (store.delete key).entries) := by
  have absent : (store.delete key).get key = none := by rw [get_delete, if_pos rfl]
  have back : (store.delete key).put key value = store := by
    refine ext_get fun other => ?_
    rw [get_put, get_delete]
    split
    · rename_i same
      rw [same, found]
    · rfl
  have grown := (store.delete key).perm_put absent value
  rwa [back] at grown

/-! ### Scans and transactions -/

/-- A scan with room for its whole range returns the stored entries of the range. -/
theorem mem_scan {store : Kv κ ν} {range : κ → Bool} {limit : Nat}
    (room : (store.entries.filter fun entry => range entry.1).length ≤ limit) :
    (key, value) ∈ store.scan range limit ↔ store.get key = some value ∧ range key = true := by
  rw [scan, List.take_of_length_le room, List.mem_filter, mem_entries]

/-- One write adds at most one entry to a range. -/
theorem length_filter_put (store : Kv κ ν) (range : κ → Bool) (key : κ) (value : ν) :
    ((store.put key value).entries.filter fun entry => range entry.1).length ≤
      (store.entries.filter fun entry => range entry.1).length + 1 := by
  have fewer (rest : List (κ × ν)) (first : κ × ν) :
      (rest.filter fun entry => range entry.1).length ≤
        ((first :: rest).filter fun entry => range entry.1).length :=
    ((List.sublist_cons_self first rest).filter _).length_le
  have more (rest : List (κ × ν)) (first : κ × ν) :
      ((first :: rest).filter fun entry => range entry.1).length ≤
        (rest.filter fun entry => range entry.1).length + 1 := by
    rw [List.filter_cons]
    split <;> simp
  obtain ⟨entries, sorted⟩ := store
  simp only [put]
  clear sorted
  induction entries with
  | nil => exact more [] _
  | cons first rest ih =>
    simp only [insertEntry]
    split
    · exact more _ _
    · split
      · exact (more _ _).trans (Nat.succ_le_succ (fewer rest first))
      · rw [List.filter_cons, List.filter_cons]
        split
        · simpa using ih
        · exact ih

/-- A key the transaction does not write keeps its value. -/
theorem get_putAll_of_notMem {store : Kv κ ν} {pairs : List (κ × ν)}
    (untouched : key ∉ pairs.map Prod.fst) : (store.putAll pairs).get key = store.get key := by
  induction pairs generalizing store with
  | nil => rfl
  | cons pair rest ih =>
    simp only [List.map_cons, List.mem_cons, not_or] at untouched
    exact (ih untouched.2).trans (store.get_put_ne untouched.1 pair.2)

/-- A key the transaction writes holds one of the values written for it. -/
theorem get_putAll_of_mem (store : Kv κ ν) {pairs : List (κ × ν)}
    (written : key ∈ pairs.map Prod.fst) :
    ∃ value, (key, value) ∈ pairs ∧ (store.putAll pairs).get key = some value := by
  induction pairs generalizing store with
  | nil => cases written
  | cons pair rest ih =>
    by_cases later : key ∈ rest.map Prod.fst
    · obtain ⟨value, member, read⟩ := ih (store.put pair.1 pair.2) later
      exact ⟨value, List.mem_cons_of_mem _ member, read⟩
    · have named : key = pair.1 := by
        simpa [later] using written
      have kept : (store.putAll (pair :: rest)).get key = (store.put pair.1 pair.2).get key :=
        get_putAll_of_notMem later
      refine ⟨pair.2, by rw [named]; exact List.mem_cons_self, ?_⟩
      rw [kept, named, get_put_self]

/-- A transaction removes no key. -/
theorem isSome_putAll {store : Kv κ ν} (pairs : List (κ × ν)) (stored : (store.get key).isSome) :
    ((store.putAll pairs).get key).isSome := by
  by_cases written : key ∈ pairs.map Prod.fst
  · obtain ⟨value, _, read⟩ := get_putAll_of_mem store written
    rw [read, Option.isSome_some]
  · rwa [get_putAll_of_notMem written]

/-- A transaction of new and different keys adds an entry for each. -/
theorem length_putAll {store : Kv κ ν} {pairs : List (κ × ν)}
    (fresh : ∀ pair ∈ pairs, store.get pair.1 = none) (distinct : (pairs.map Prod.fst).Nodup) :
    (store.putAll pairs).entries.length = store.entries.length + pairs.length := by
  induction pairs generalizing store with
  | nil => rfl
  | cons pair rest ih =>
    rw [List.map_cons, List.nodup_cons] at distinct
    have later : ∀ other ∈ rest, (store.put pair.1 pair.2).get other.1 = none := by
      intro other member
      rw [get_put_ne]
      · exact fresh other (List.mem_cons_of_mem _ member)
      · intro same
        exact distinct.1 (same ▸ List.mem_map_of_mem member)
    have first := store.length_put pair.1 pair.2
    rw [fresh pair List.mem_cons_self] at first
    have all : (store.putAll (pair :: rest)).entries.length =
        (store.put pair.1 pair.2).entries.length + rest.length := ih later distinct.2
    rw [all, first, List.length_cons]
    simp
    omega

end Kv

end Library
