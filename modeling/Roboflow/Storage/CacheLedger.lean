import Roboflow.Library.Doubles
import Roboflow.Library.KeyedBuffers
import Roboflow.Storage.WriteBehind

/-! The bytes of the cache as they are counted: by the entries, by the size of the cache and by
two statistics. `add_to_cache` and the evictions it starts change all of them, a delete forgets the
statistics, and an addition over an entry that is there forgets the entry it replaces. -/
namespace Roboflow.Storage
open Library

/-! ### The ledger -/

/-- The size that `evict` ends at, `(max_cache_size as f64 * 0.9) as u64`. The double next to 0.9 is
8106479329266893 units of its last place. -/
def evictionTarget (maxCacheSize : Nat) : Nat :=
  roundDouble (8106479329266893 * roundDouble maxCacheSize) / 2 ^ 53

/-- A configuration with the size that `evict` computes from it. -/
def CacheConfig.evicting (config : CacheConfig) : CacheConfig :=
  { config with targetSize := evictionTarget config.maxCacheSize }

/-- The statistics of what is cached. -/
structure CachedTotals where
  totalCachedBytes : Nat
  cachedFileCount : Nat

/-- A call of `add_to_cache`. -/
structure Addition where
  moment : Moment
  path : String
  size : Nat

/-- A `fetch_sub` on the size of the cache, with what it found there. -/
structure Subtraction where
  held : Nat
  freed : Nat

/-- What the passes of `evict` subtract. -/
def evictionsFreed (config : CacheConfig) (moment : Moment) :
    Nat → Nat → Kv String CacheEntry → List Subtraction
  | 0, _, _ => []
  | fuel + 1, size, entries =>
    if size ≤ config.targetSize then []
    else
      match evictionCandidate config moment entries with
      | none => []
      | some (path, entry) =>
        ⟨size, entry.size⟩ ::
          evictionsFreed config moment fuel (size - entry.size) (entries.delete path)

namespace CachedStorage

/-- The call an operation makes: a read that misses adds the object it fetched, and a copy of a
cached source the file it wrote. -/
def addition (s : CachedStorage) : Action → Option Addition
  | .read moment path =>
    match s.cached path, s.remote.get path with
    | none, some bytes => some ⟨moment, path, bytes.length⟩
    | _, _ => none
  | .copy moment source target =>
    match s.cached source with
    | some _ =>
      let disk := (s.cache.create (cachePath target)).1
      some ⟨moment, target, ((disk.read (cachePath source)).getD []).length⟩
    | none => none
  | _ => none

/-- What the evictions of a call leave: the paths taken, the size and the entries. -/
def adding (s : CachedStorage) (call : Addition) : List String × Nat × Kv String CacheEntry :=
  s.evictionsOfAdding call.moment call.path call.size

def freedByAdding (s : CachedStorage) (call : Addition) : List Subtraction :=
  let entries := s.entries.put (s.entryKey call.path) (.new call.size call.moment.now)
  let total := s.cacheSize + call.size
  if s.config.maxCacheSize < total then
    evictionsFreed s.config call.moment (entries.entries.length + 1) total entries
  else []

def freedByDelete (s : CachedStorage) : Action → List Subtraction
  | .delete path =>
    match s.entry path with
    | some entry => [⟨s.cacheSize, entry.size⟩]
    | none => []
  | _ => []

end CachedStorage

/-- The statistics after a call: the new size and a file more, and after every eviction the size
then and a file less. -/
def CachedTotals.adding (totals : CachedTotals) (s : CachedStorage) (call : Addition) :
    CachedTotals where
  totalCachedBytes := (s.adding call).2.1
  cachedFileCount :=
    (s.adding call).1.foldl (fun count _ => count - 1) (totals.cachedFileCount + 1)

structure CacheLedger where
  system : System
  totals : CachedTotals

namespace CacheLedger

def new (config : CacheConfig) (remote : Kv String Bytes) : CacheLedger :=
  ⟨.new config.evicting remote, ⟨0, 0⟩⟩

def storage (l : CacheLedger) : CachedStorage := l.system.storage

/-- A step of the system, with what it subtracts from the size of the cache. -/
def step (l : CacheLedger) (action : Action) : Option (CacheLedger × List Subtraction) :=
  (l.system.step action).map fun system =>
    match l.storage.addition action with
    | some call => (⟨system, l.totals.adding l.storage call⟩, l.storage.freedByAdding call)
    | none => (⟨system, l.totals⟩, l.storage.freedByDelete action)

def machine : Machine CacheLedger Action (List Subtraction) := ⟨step⟩

end CacheLedger

/-! ### What is promised, and what it takes -/

def entryBytes (entries : Kv String CacheEntry) : Nat :=
  (entries.entries.map fun entry => entry.2.size).sum

/-- Every file of the cache directory is the one of an entry. -/
def CachedStorage.Filed (s : CachedStorage) : Prop :=
  ∀ name, (s.cache.names.get name).isSome →
    ∃ path entry, s.entries.get path = some entry ∧ cachePath path = name

namespace CacheLedger

structure Exact (l : CacheLedger) : Prop where
  size : l.storage.cacheSize = entryBytes l.storage.entries
  bytes : l.totals.totalCachedBytes = l.storage.cacheSize
  count : l.totals.cachedFileCount = l.storage.entries.entries.length
  filed : l.storage.Filed
  limit : l.storage.cacheSize ≤ l.storage.config.maxCacheSize ∨
    ∀ path entry, l.storage.entries.get path = some entry → entry.pendingUpload = true

/-- What is added has no entry. -/
def Fresh (l : CacheLedger) (action : Action) : Prop :=
  ∀ call ∈ l.storage.addition action, l.storage.entry call.path = none

instance (l : CacheLedger) (action : Action) : Decidable (l.Fresh action) :=
  inferInstanceAs (Decidable (∀ call ∈ l.storage.addition action, _))

/-- A path is added only when it has no entry and deleted only when it has none, and a writer is
opened only over the file of an entry. -/
def Plain (l : CacheLedger) : Action → Prop
  | .openWriter _ path =>
    ∃ entry ∈ l.storage.entries.entries, cachePath entry.1 = cachePath path
  | .delete path => l.storage.entry path = none
  | action => l.Fresh action

instance (l : CacheLedger) : (action : Action) → Decidable (l.Plain action)
  | .openWriter _ path => inferInstanceAs
    (Decidable (∃ entry ∈ l.storage.entries.entries, cachePath entry.1 = cachePath path))
  | .delete path => inferInstanceAs (Decidable (l.storage.entry path = none))
  | .write handle bytes => inferInstanceAs (Decidable (l.Fresh (.write handle bytes)))
  | .flush handle => inferInstanceAs (Decidable (l.Fresh (.flush handle)))
  | .drop handle => inferInstanceAs (Decidable (l.Fresh (.drop handle)))
  | .copy moment source target =>
    inferInstanceAs (Decidable (l.Fresh (.copy moment source target)))
  | .read moment path => inferInstanceAs (Decidable (l.Fresh (.read moment path)))
  | .takeTask worker => inferInstanceAs (Decidable (l.Fresh (.takeTask worker)))
  | .readLocal worker => inferInstanceAs (Decidable (l.Fresh (.readLocal worker)))
  | .writeRemote worker succeeds =>
    inferInstanceAs (Decidable (l.Fresh (.writeRemote worker succeeds)))
  | .removeLocal worker => inferInstanceAs (Decidable (l.Fresh (.removeLocal worker)))
  | .clearPending worker => inferInstanceAs (Decidable (l.Fresh (.clearPending worker)))

end CacheLedger

/-! ### Evictions -/

theorem evictionTarget_le (maxCacheSize : Nat) : evictionTarget maxCacheSize ≤ maxCacheSize := by
  have first := roundDouble_le maxCacheSize
  have second := roundDouble_le (8106479329266893 * roundDouble maxCacheSize)
  apply Nat.div_le_of_le_mul
  generalize roundDouble (8106479329266893 * roundDouble maxCacheSize) = product at second ⊢
  generalize roundDouble maxCacheSize = rounded at first second
  norm_num at first second ⊢
  omega

theorem entryBytes_put {entries : Kv String CacheEntry} (absent : entries.get path = none)
    (entry : CacheEntry) : entryBytes (entries.put path entry) = entryBytes entries + entry.size := by
  have sums := entries.sum_put CacheEntry.size path entry
  rw [absent] at sums
  exact sums

theorem entryBytes_delete {entries : Kv String CacheEntry}
    (found : entries.get path = some entry) :
    entryBytes entries = entry.size + entryBytes (entries.delete path) := by
  have listed := (entries.perm_delete found).map fun entry : String × CacheEntry => entry.2.size
  exact listed.sum_eq.trans List.sum_cons

theorem length_delete {entries : Kv String CacheEntry} (found : entries.get path = some entry) :
    entries.entries.length = (entries.delete path).entries.length + 1 :=
  (entries.perm_delete found).length_eq

/-- What was freed. -/
def freedBytes (freed : List Subtraction) : Nat := (freed.map Subtraction.freed).sum

/-- Evictions take from the size what their entries had, and a file for each. -/
structure Evicted (size : Nat) (entries : Kv String CacheEntry) (paths : List String)
    (freed : List Subtraction) (left : Nat) (remaining : Kv String CacheEntry) : Prop where
  covered : ∀ taken ∈ freed, taken.freed ≤ taken.held
  size : left + freedBytes freed = size
  bytes : entryBytes remaining + freedBytes freed = entryBytes entries
  count : remaining.entries.length + paths.length = entries.entries.length
  taken : ∀ path entry, entries.get path = some entry →
    remaining.get path = some entry ∨ path ∈ paths ∧ entry.size ≤ freedBytes freed

namespace Evicted

variable {size left : Nat} {entries remaining : Kv String CacheEntry} {paths : List String}
  {freed : List Subtraction}

theorem stop (size : Nat) (entries : Kv String CacheEntry) :
    Evicted size entries [] [] size entries where
  covered := by
    intro taken member
    cases member
  size := rfl
  bytes := rfl
  count := rfl
  taken := by
    intro path entry held
    exact .inl held

theorem take (found : entries.get path = some entry) (backed : entryBytes entries ≤ size)
    (rest : Evicted (size - entry.size) (entries.delete path) paths freed left remaining) :
    Evicted size entries (path :: paths) (⟨size, entry.size⟩ :: freed) left remaining := by
  have own := entryBytes_delete found
  have fewer := length_delete found
  have more : freedBytes (⟨size, entry.size⟩ :: freed) = entry.size + freedBytes freed :=
    List.sum_cons
  have smaller := rest.size
  have others := rest.bytes
  have counted := rest.count
  refine ⟨?_, by omega, by omega, by rw [List.length_cons]; omega, ?_⟩
  · intro taken member
    rcases List.mem_cons.mp member with rfl | later
    · show entry.size ≤ size
      omega
    · exact rest.covered taken later
  · intro other entry' held
    by_cases same : other = path
    · rw [same, found] at held
      cases held
      exact .inr ⟨same ▸ List.mem_cons_self, by omega⟩
    · have kept : (entries.delete path).get other = some entry' := by
        rw [Kv.get_delete_ne _ same, held]
      rcases rest.taken other entry' kept with remains | ⟨taken, within⟩
      · exact .inl remains
      · exact .inr ⟨List.mem_cons_of_mem _ taken, by omega⟩

end Evicted

theorem evictions_evicted (config : CacheConfig) (moment : Moment) (fuel : Nat)
    (backed : entryBytes entries ≤ size) :
    Evicted size entries (evictions config moment fuel size entries).1
      (evictionsFreed config moment fuel size entries)
      (evictions config moment fuel size entries).2.1
      (evictions config moment fuel size entries).2.2 := by
  induction fuel generalizing size entries with
  | zero => exact .stop size entries
  | succ fuel ih =>
    unfold evictions evictionsFreed
    split
    · exact .stop size entries
    · cases candidate : evictionCandidate config moment entries with
      | none => exact .stop size entries
      | some found =>
        obtain ⟨path, entry⟩ := found
        have held := mem_candidate candidate
        have own := entryBytes_delete held
        exact .take held backed (ih (by omega))

/-- Without a candidate every entry waits for its upload. -/
theorem pending_of_candidate_none {config : CacheConfig} {moment : Moment}
    (none_ : evictionCandidate config moment entries = none) (held : entries.get path = some entry) :
    entry.pendingUpload = true := by
  have nothing := List.filter_eq_nil_iff.mp (List.argmin_eq_none.mp none_) (path, entry)
    ((moment.perm entries.entries).mem_iff.mpr (entries.mem_entries.mpr held))
  simpa using nothing

/-- Evictions end at the size they are to end at, or where there is nothing to evict. -/
theorem evictions_end (config : CacheConfig) (moment : Moment) {fuel : Nat}
    (enough : entries.entries.length < fuel) :
    (evictions config moment fuel size entries).2.1 ≤ config.targetSize ∨
      ∀ path entry, (evictions config moment fuel size entries).2.2.get path = some entry →
        entry.pendingUpload = true := by
  induction fuel generalizing size entries with
  | zero => exact absurd enough (Nat.not_lt_zero _)
  | succ fuel ih =>
    unfold evictions
    split
    · rename_i reached
      exact .inl reached
    · cases candidate : evictionCandidate config moment entries with
      | none => exact .inr fun path entry => pending_of_candidate_none candidate
      | some found =>
        obtain ⟨path, entry⟩ := found
        have fewer := length_delete (mem_candidate candidate)
        exact ih (by omega)

/-! ### Additions -/

namespace CachedStorage

variable {s s' : CachedStorage}

/-- The entries with the one of the call, before any eviction. -/
def withAdded (s : CachedStorage) (call : Addition) : Kv String CacheEntry :=
  s.entries.put (s.entryKey call.path) (.new call.size call.moment.now)

theorem withAdded_bytes (s : CachedStorage) (call : Addition) :
    entryBytes (s.withAdded call) ≤ entryBytes s.entries + call.size :=
  (Nat.le_add_right _ _).trans_eq
    (s.entries.sum_put CacheEntry.size (s.entryKey call.path) (.new call.size call.moment.now))

theorem adding_evicted (call : Addition) (backed : entryBytes s.entries ≤ s.cacheSize) :
    Evicted (s.cacheSize + call.size) (s.withAdded call) (s.adding call).1 (s.freedByAdding call)
      (s.adding call).2.1 (s.adding call).2.2 := by
  have put := s.withAdded_bytes call
  have more : entryBytes (s.withAdded call) ≤ s.cacheSize + call.size := by omega
  unfold adding evictionsOfAdding freedByAdding
  dsimp only
  split
  · exact evictions_evicted _ _ _ more
  · exact .stop _ _

theorem adding_end (s : CachedStorage) (call : Addition)
    (target : s.config.targetSize ≤ s.config.maxCacheSize) :
    (s.adding call).2.1 ≤ s.config.maxCacheSize ∨
      ∀ path entry, (s.adding call).2.2.get path = some entry → entry.pendingUpload = true := by
  unfold adding evictionsOfAdding
  dsimp only
  split
  · apply Or.imp_left _ (evictions_end s.config call.moment (Nat.lt_succ_self _))
    intro reached
    exact reached.trans target
  · rename_i within
    exact .inl (Nat.le_of_not_lt within)

/-- The size stays within the limit: the entry of the call may be evicted, so what is left is
within the limit or all of it was there. -/
theorem adding_fits (call : Addition) (exact_ : s.cacheSize = entryBytes s.entries)
    (fits : s.cacheSize ≤ s.config.maxCacheSize)
    (target : s.config.targetSize ≤ s.config.maxCacheSize) :
    (s.adding call).2.1 ≤ s.config.maxCacheSize := by
  have evicted := adding_evicted call exact_.ge
  rcases s.adding_end call target with reached | waiting
  · exact reached
  · rcases evicted.taken (s.entryKey call.path) _ (Kv.get_put_self ..) with remains | ⟨-, within⟩
    · cases waiting _ _ remains
    · have sizes := evicted.size
      have small : call.size ≤ freedBytes (s.freedByAdding call) := within
      omega

end CachedStorage

end Roboflow.Storage
