import Roboflow.Library.Kv

/-! Lists kept under keys, and writes of several keys at once. Callers that buffer by
key reason about one key at a time: what `bucket` gives after each operation. -/
namespace Library.Kv

variable {κ ν : Type} [LinearOrder κ]

/-- The list kept under a key, empty where there is none. -/
def bucket (store : Kv κ (List ν)) (key : κ) : List ν := (store.get key).getD []

def push (store : Kv κ (List ν)) (key : κ) (value : ν) : Kv κ (List ν) :=
  store.put key (store.bucket key ++ [value])

def pushAll (store : Kv κ (List ν)) (pairs : List (κ × ν)) : Kv κ (List ν) :=
  pairs.foldl (fun current pair => current.push pair.1 pair.2) store

/-- The keys are those held before and those pushed. -/
theorem isSome_get_pushAll (store : Kv κ (List ν)) (pairs : List (κ × ν)) (key : κ) :
    ((store.pushAll pairs).get key).isSome ↔ (store.get key).isSome ∨ key ∈ pairs.map Prod.fst := by
  induction pairs generalizing store with
  | nil => simp [pushAll]
  | cons pair rest ih =>
    have step : (store.pushAll (pair :: rest)).get key =
        ((store.push pair.1 pair.2).pushAll rest).get key := rfl
    rw [step, ih, push, get_put, List.map_cons, List.mem_cons]
    by_cases same : key = pair.1 <;> simp [same]

/-- Every list emptied, the keys kept. -/
def drained (store : Kv κ (List ν)) : Kv κ (List ν) := store.map fun _ => []

@[simp] theorem bucket_empty (key : κ) : (empty : Kv κ (List ν)).bucket key = [] := rfl

theorem bucket_push (store : Kv κ (List ν)) (key other : κ) (value : ν) :
    (store.push key value).bucket other =
      store.bucket other ++ if key = other then [value] else [] := by
  rw [bucket, push, get_put]
  split
  · rename_i same
    simp [same]
  · rename_i different
    simp [bucket, Ne.symm different]

theorem bucket_pushAll (store : Kv κ (List ν)) (pairs : List (κ × ν)) (key : κ) :
    (store.pushAll pairs).bucket key =
      store.bucket key ++ (pairs.filter fun pair => pair.1 = key).map Prod.snd := by
  induction pairs generalizing store with
  | nil => simp [pushAll]
  | cons pair rest ih =>
    have step : (store.pushAll (pair :: rest)).bucket key =
        ((store.push pair.1 pair.2).pushAll rest).bucket key := rfl
    rw [step, ih, bucket_push, List.filter_cons, List.append_assoc]
    split <;> simp_all

theorem get_map (f : ν → μ) (store : Kv κ ν) (key : κ) :
    (store.map f).get key = (store.get key).map f := by
  simp only [get, map, List.find?_map, Option.map_map, Function.comp_def]

@[simp] theorem bucket_drained (store : Kv κ (List ν)) (key : κ) : store.drained.bucket key = [] := by
  rw [bucket, drained, get_map]
  cases store.get key <;> rfl

theorem keys_nodup (store : Kv κ ν) : (store.entries.map Prod.fst).Nodup := by
  rw [List.nodup_iff_pairwise_ne, List.pairwise_map]
  exact store.sorted.imp fun less => less.ne

theorem mem_keys (store : Kv κ ν) : key ∈ store.entries.map Prod.fst ↔ (store.get key).isSome := by
  rw [Option.isSome_iff_exists]
  constructor
  · intro member
    obtain ⟨entry, listed, rfl⟩ := List.mem_map.mp member
    exact ⟨entry.2, store.mem_entries.mp listed⟩
  · rintro ⟨value, held⟩
    exact List.mem_map.mpr ⟨(key, value), store.mem_entries.mpr held, rfl⟩

/-- The entries of one key. -/
theorem filter_entries (store : Kv κ ν) (key : κ) :
    (store.entries.filter fun entry => entry.1 = key).map Prod.snd = (store.get key).toList := by
  obtain ⟨entries, sorted⟩ := store
  simp only [get]
  induction entries with
  | nil => rfl
  | cons first rest ih =>
    obtain ⟨above, tail⟩ := List.pairwise_cons.mp sorted
    by_cases same : first.1 = key
    · have others : rest.filter (fun entry => entry.1 = key) = [] := by
        rw [List.filter_eq_nil_iff]
        intro entry member
        have := (above entry member).ne'
        simpa [← same] using this
      simp [same, others]
    · simpa [List.filter_cons, List.find?_cons, same] using ih tail

/-- A transaction that writes a key once writes that value. -/
theorem get_putAll_of_nodup (store : Kv κ ν) {pairs : List (κ × ν)}
    (distinct : (pairs.map Prod.fst).Nodup) (member : (key, value) ∈ pairs) :
    (store.putAll pairs).get key = some value := by
  obtain ⟨other, written, read⟩ :=
    store.get_putAll_of_mem (List.mem_map_of_mem (f := Prod.fst) member)
  have same : (key, other) = (key, value) :=
    List.inj_on_of_nodup_map distinct written member rfl
  rw [read, (Prod.mk.inj same).2]

/-- The entries of a store, written in any order, give the store. -/
theorem putAll_of_perm {store : Kv κ ν} {pairs : List (κ × ν)} (perm : pairs.Perm store.entries) :
    Kv.empty.putAll pairs = store := by
  refine ext_get fun key => ?_
  cases held : store.get key with
  | some value =>
    have distinct : (pairs.map Prod.fst).Nodup := (perm.map Prod.fst).nodup_iff.mpr store.keys_nodup
    exact get_putAll_of_nodup _ distinct (perm.mem_iff.mpr ((store.mem_entries).mpr held))
  | none =>
    have absent : key ∉ pairs.map Prod.fst := by
      intro member
      obtain ⟨entry, written, rfl⟩ := List.mem_map.mp member
      have read := store.mem_entries.mp (perm.mem_iff.mp written)
      rw [held] at read
      cases read
    rw [get_putAll_of_notMem absent, get_empty]

/-- Of several values written for a key the last one is read. -/
theorem get_putAll (store : Kv κ ν) (pairs : List (κ × ν)) (key : κ) :
    (store.putAll pairs).get key =
      ((pairs.reverse.find? fun pair => pair.1 = key).map Prod.snd).or (store.get key) := by
  induction pairs generalizing store with
  | nil => rfl
  | cons pair rest ih =>
    have step : (store.putAll (pair :: rest)).get key =
        ((store.put pair.1 pair.2).putAll rest).get key := rfl
    rw [step, ih, List.reverse_cons, List.find?_append, get_put]
    cases rest.reverse.find? fun other => other.1 = key with
    | some last => rfl
    | none =>
      by_cases named : pair.1 = key
      · simp [named]
      · simp [named, Ne.symm named]

end Library.Kv
