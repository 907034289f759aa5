import Roboflow.Storage.CacheLedger
import Roboflow.Library.GoodSteps

/-! The ledger of the cache over every run: what a step does to the files and the entries, when the
ledger is exact after it, and that nothing is subtracted that was not there. -/
namespace Roboflow.Storage
open Library

namespace CachedStorage

variable {s s' : CachedStorage}

/-! ### The steps on the storage -/

/-- What the ledger counts is as it was, and there is no file more. -/
structure Untouched (s s' : CachedStorage) : Prop where
  config : s'.config = s.config
  size : s'.cacheSize = s.cacheSize
  sizes : s'.entries.map CacheEntry.size = s.entries.map CacheEntry.size
  files : ∀ name, (s'.cache.names.get name).isSome → (s.cache.names.get name).isSome

/-- A call of `add_to_cache` was made, with the files it evicted removed. -/
structure Added (s : CachedStorage) (call : Addition) (s' : CachedStorage) : Prop where
  config : s'.config = s.config
  size : s'.cacheSize = (s.adding call).2.1
  sizes : s'.entries.map CacheEntry.size = (s.adding call).2.2.map CacheEntry.size
  files : ∀ name, (s'.cache.names.get name).isSome →
    name ∉ (s.adding call).1.map cachePath ∧
      (name = cachePath call.path ∨ (s.cache.names.get name).isSome)

namespace Untouched

theorem refl (s : CachedStorage) : Untouched s s :=
  ⟨rfl, rfl, rfl, fun _ there => there⟩

theorem trans {s'' : CachedStorage} (first : Untouched s s') (second : Untouched s' s'') :
    Untouched s s'' where
  config := second.config.trans first.config
  size := second.size.trans first.size
  sizes := second.sizes.trans first.sizes
  files := by
    intro name there
    exact first.files name (second.files name there)

end Untouched

/-- An update that leaves the size of the entry. -/
theorem updateEntry_sizes (s : CachedStorage) (path : String) {f : CacheEntry → CacheEntry}
    (same : ∀ entry, (f entry).size = entry.size) :
    (s.updateEntry path f).entries.map CacheEntry.size = s.entries.map CacheEntry.size := by
  unfold updateEntry
  split
  · rename_i entry held
    apply Kv.ext_get
    intro other
    rw [Kv.map_put, Kv.get_put, Kv.get_map]
    split
    · rename_i own
      have there : s.entries.get (s.entryKey path) = some entry := held
      rw [own, there, same]
      rfl
    · rfl
  · rfl

theorem updateEntry_untouched (s : CachedStorage) (path : String) {f : CacheEntry → CacheEntry}
    (same : ∀ entry, (f entry).size = entry.size) : Untouched s (s.updateEntry path f) where
  config := s.updateEntry_config f
  size := by
    obtain ⟨entries, updated⟩ := s.updateEntry_eq path f
    rw [updated]
  sizes := s.updateEntry_sizes path same
  files := by
    intro name there
    rwa [updateEntry_cache] at there

theorem queueUpload_untouched (s : CachedStorage) (task : UploadTask) :
    Untouched s (s.queueUpload task) := by
  have sent : Untouched s { s with queue := s.queue ++ [task] } :=
    ⟨rfl, rfl, rfl, fun _ there => there⟩
  apply sent.trans
  apply updateEntry_untouched
  intro entry
  rfl

theorem unlink_untouched (s : CachedStorage) (name : String) :
    Untouched s { s with cache := s.cache.unlink name } where
  config := rfl
  size := rfl
  sizes := rfl
  files := by
    intro other there
    have removed : ((s.cache.unlink name).names.get other).isSome := there
    rw [Disk.unlink_names] at removed
    split at removed
    · cases removed
    · exact removed

/-! A writer changes contents and the upload channel only. -/

theorem writeThrough_untouched (s : CachedStorage) (w : CachedWriter) (bytes : Bytes) :
    Untouched s (s.writeThrough w bytes).1 :=
  ⟨rfl, rfl, rfl, fun _ there => there⟩

theorem flushLocal_untouched (s : CachedStorage) (w : CachedWriter) :
    Untouched s (s.flushLocal w).1 :=
  writeThrough_untouched s w w.buffer

theorem bufferedWrite_untouched (s : CachedStorage) (w : CachedWriter) (bytes : Bytes) :
    Untouched s (s.bufferedWrite w bytes).1 := by
  have first : Untouched s (if bufferCapacity < w.buffer.length + bytes.length
      then s.flushLocal w else (s, w)).1 := by
    split
    · exact flushLocal_untouched s w
    · exact .refl s
  have second : ∀ (t : CachedStorage) (v : CachedWriter), Untouched t
      (if bufferCapacity ≤ bytes.length then t.writeThrough v bytes
        else (t, { v with buffer := v.buffer ++ bytes })).1 := by
    intro t v
    split
    · exact writeThrough_untouched t v bytes
    · exact .refl t
  exact first.trans (second _ _)

theorem write_untouched (s : CachedStorage) (w : CachedWriter) (bytes : Bytes) :
    Untouched s (s.write w bytes).1 := by
  apply (bufferedWrite_untouched s w bytes).trans
  unfold write
  dsimp only
  split
  · exact flushLocal_untouched _ _
  · exact .refl _

theorem queueWriterUpload_untouched (s : CachedStorage) (w : CachedWriter) :
    Untouched s (s.queueWriterUpload w).1 := by
  unfold queueWriterUpload
  split
  · exact .refl s
  · exact ⟨rfl, rfl, rfl, fun _ there => there⟩

theorem flush_untouched (s : CachedStorage) (w : CachedWriter) : Untouched s (s.flush w).1 := by
  apply (flushLocal_untouched s w).trans
  unfold flush
  dsimp only
  split
  · exact .refl _
  · exact queueWriterUpload_untouched _ _

theorem drop_untouched (s : CachedStorage) (w : CachedWriter) : Untouched s (s.drop w) := by
  have first : Untouched s (if w.flushed then (s, w) else s.flush w).1 := by
    split
    · exact .refl s
    · exact flush_untouched s w
  exact first.trans ((queueWriterUpload_untouched _ _).trans (flushLocal_untouched _ _))

/-- The call leaves its own file and those that are not evicted. -/
theorem addToCache_added (s : CachedStorage) (disk : Disk String UInt8) (call : Addition)
    (files : ∀ name, (disk.names.get name).isSome →
      name = cachePath call.path ∨ (s.cache.names.get name).isSome) :
    Added s call ({ s with cache := disk }.addToCache call.moment call.path call.size) where
  config := rfl
  size := rfl
  sizes := rfl
  files := by
    intro name there
    have removed : ((((s.adding call).1.foldl (fun disk path => disk.unlink (cachePath path))
      disk)).names.get name).isSome := there
    rw [names_foldl_unlink] at removed
    split at removed
    · cases removed
    · rename_i kept
      exact ⟨kept, files name removed⟩

theorem Added.then_untouched {s'' : CachedStorage} {call : Addition} (added : Added s call s')
    (after : Untouched s' s'') : Added s call s'' where
  config := after.config.trans added.config
  size := after.size.trans added.size
  sizes := after.sizes.trans added.sizes
  files := by
    intro name there
    exact added.files name (after.files name there)

/-- Creating a file adds its name only. -/
theorem create_files (s : CachedStorage) (path name : String) (file : Nat) (bytes : Bytes)
    (there : (((s.cache.create (cachePath path)).1.writeAt file 0 bytes).names.get name).isSome) :
    name = cachePath path ∨ (s.cache.names.get name).isSome := by
  have listed : ((s.cache.create (cachePath path)).1.names.get name).isSome := there
  rw [Disk.create_names] at listed
  split at listed
  · rename_i same
    exact .inl same
  · exact .inr listed

theorem reader_added {moment : Moment} (missed : s.cached path = none)
    (found : s.remote.get path = some bytes) :
    Added s ⟨moment, path, bytes.length⟩ (s.reader moment path).1 := by
  unfold reader
  rw [missed, found]
  apply addToCache_added s _ ⟨moment, path, bytes.length⟩
  intro name there
  exact s.create_files path name _ bytes there

theorem reader_untouched {moment : Moment}
    (nothing : s.addition (.read moment path) = none) :
    Untouched s (s.reader moment path).1 := by
  simp only [addition] at nothing
  unfold reader
  cases hit : s.cached path with
  | some bytes => exact s.updateEntry_untouched path fun _ => rfl
  | none =>
    cases found : s.remote.get path with
    | some bytes => rw [hit, found] at nothing; cases nothing
    | none => exact .refl s

theorem copy_added {moment : Moment} (hit : s.cached source = some held) :
    Added s ⟨moment, target,
        (((s.cache.create (cachePath target)).1.read (cachePath source)).getD []).length⟩
      (s.copy moment source target).1 := by
  unfold copy
  rw [hit]
  have added := addToCache_added s ((s.cache.create (cachePath target)).1.writeAt
      (s.cache.create (cachePath target)).2 0
      (((s.cache.create (cachePath target)).1.read (cachePath source)).getD []))
    ⟨moment, target, (((s.cache.create (cachePath target)).1.read (cachePath source)).getD []).length⟩
    (fun name there => s.create_files target name _ _ there)
  exact added.then_untouched (queueUpload_untouched _ ⟨cachePath target, target, _⟩)

theorem copy_untouched {moment : Moment} (missed : s.cached source = none) :
    Untouched s (s.copy moment source target).1 := by
  unfold copy
  rw [missed]
  cases s.remote.get source with
  | some bytes => exact ⟨rfl, rfl, rfl, fun _ there => there⟩
  | none => exact .refl s

end CachedStorage

namespace System

variable {s s' : System}

theorem step_added (calls : s.storage.addition action = some call)
    (moved : s.step action = some s') : CachedStorage.Added s.storage call s'.storage := by
  cases action with
  | read moment path =>
    cases moved
    simp only [CachedStorage.addition] at calls
    split at calls
    · rename_i bytes missed found
      cases calls
      exact CachedStorage.reader_added missed found
    · cases calls
  | copy moment source target =>
    cases moved
    simp only [CachedStorage.addition] at calls
    split at calls
    · rename_i held hit
      cases calls
      unfold copy
      split <;> exact CachedStorage.copy_added hit
    · cases calls
  | _ => cases calls

/-- A step that makes no call leaves the ledger, unless it opens a writer or deletes. -/
theorem step_untouched (nothing : s.storage.addition action = none)
    (noWriter : ∀ handle path, action ≠ .openWriter handle path)
    (noDelete : ∀ path, action ≠ .delete path)
    (moved : s.step action = some s') : CachedStorage.Untouched s.storage s'.storage := by
  cases action with
  | openWriter handle path => exact absurd rfl (noWriter handle path)
  | delete path => exact absurd rfl (noDelete path)
  | write handle bytes =>
    obtain ⟨w, -, rfl⟩ := Option.map_eq_some_iff.mp moved
    exact CachedStorage.write_untouched _ w bytes
  | flush handle =>
    obtain ⟨w, -, rfl⟩ := Option.map_eq_some_iff.mp moved
    exact CachedStorage.flush_untouched _ w
  | drop handle =>
    obtain ⟨w, -, rfl⟩ := Option.map_eq_some_iff.mp moved
    exact CachedStorage.drop_untouched _ w
  | read moment path =>
    cases moved
    exact CachedStorage.reader_untouched nothing
  | copy moment source target =>
    cases moved
    have missed : s.storage.cached source = none := by
      cases hit : s.storage.cached source with
      | none => rfl
      | some held => simp [CachedStorage.addition, hit] at nothing
    unfold copy
    split <;> exact CachedStorage.copy_untouched missed
  | takeTask worker =>
    simp only [step, takeTask] at moved
    split at moved
    · split at moved
      · cases moved
        exact ⟨rfl, rfl, rfl, fun _ there => there⟩
      · cases moved
    · cases moved
  | readLocal worker =>
    simp only [step, readLocal] at moved
    split at moved
    · split at moved <;> cases moved <;> exact .refl _
    · cases moved
  | writeRemote worker succeeds =>
    simp only [step, writeRemote] at moved
    split at moved
    · split at moved <;> cases moved <;> exact ⟨rfl, rfl, rfl, fun _ there => there⟩
    · cases moved
  | removeLocal worker =>
    simp only [step, removeLocal] at moved
    split at moved
    · cases moved
      exact CachedStorage.unlink_untouched _ _
    · cases moved
  | clearPending worker =>
    simp only [step, clearPending] at moved
    split at moved
    · cases moved
      exact CachedStorage.updateEntry_untouched _ _ fun _ => rfl
    · cases moved

end System

/-! ### Sizes -/

theorem entryBytes_of_sizes {entries entries' : Kv String CacheEntry}
    (same : entries'.map CacheEntry.size = entries.map CacheEntry.size) :
    entryBytes entries' = entryBytes entries := by
  have sums := congrArg (fun sizes : Kv String Nat => (sizes.entries.map Prod.snd).sum) same
  simpa only [entryBytes, Kv.map, List.map_map, Function.comp_def] using sums

theorem length_of_sizes {entries entries' : Kv String CacheEntry}
    (same : entries'.map CacheEntry.size = entries.map CacheEntry.size) :
    entries'.entries.length = entries.entries.length := by
  have lengths := congrArg (fun sizes : Kv String Nat => sizes.entries.length) same
  simpa only [Kv.map, List.length_map] using lengths

theorem held_of_sizes {entries entries' : Kv String CacheEntry}
    (same : entries'.map CacheEntry.size = entries.map CacheEntry.size)
    (held : entries.get path = some entry) : ∃ entry', entries'.get path = some entry' := by
  have sizes := congrArg (fun sizes : Kv String Nat => sizes.get path) same
  simp only [Kv.get_map, held, Option.map_some, Option.map_eq_some_iff] at sizes
  obtain ⟨entry', held', -⟩ := sizes
  exact ⟨entry', held'⟩

theorem count_after_evictions (paths : List String) (count : Nat) :
    paths.foldl (fun count _ => count - 1) count = count - paths.length := by
  induction paths generalizing count with
  | nil => rfl
  | cons path rest ih =>
    rw [List.foldl_cons, ih, List.length_cons]
    omega

theorem CachedStorage.delete_untouched {s : CachedStorage} (absent : s.entry path = none) :
    CachedStorage.Untouched s (s.delete path).1 := by
  have same : s.entries.delete (s.entryKey path) = s.entries := by
    apply Kv.ext_get
    intro other
    rw [Kv.get_delete]
    split
    · rename_i own
      rw [own]
      exact absent.symm
    · rfl
  have unlinked := s.unlink_untouched (cachePath path)
  unfold delete
  rw [absent, same]
  exact ⟨rfl, rfl, rfl, unlinked.files⟩

/-! ### The steps on the ledger -/

namespace CacheLedger

/-- What a step can do: make a call of `add_to_cache`, delete, open a writer, or nothing that is
counted. -/
inductive Change (l : CacheLedger) : Action → CacheLedger → List Subtraction → Prop where
  | added (calls : l.storage.addition action = some call)
      (added : CachedStorage.Added l.storage call l'.storage)
      (totals : l'.totals = l.totals.adding l.storage call) :
      Change l action l' (l.storage.freedByAdding call)
  | deleted (gone : l'.storage = (l.storage.delete path).1) (totals : l'.totals = l.totals) :
      Change l (.delete path) l' (l.storage.freedByDelete (.delete path))
  | opened (created : l'.storage = (l.storage.writer path).1) (totals : l'.totals = l.totals) :
      Change l (.openWriter handle path) l' []
  | kept (plain : l.Plain action) (same : CachedStorage.Untouched l.storage l'.storage)
      (totals : l'.totals = l.totals) : Change l action l' []

variable {l l' : CacheLedger}

theorem step_change (moved : l.step action = some (l', out)) : Change l action l' out := by
  obtain ⟨system, stepped, reached⟩ := Option.map_eq_some_iff.mp moved
  cases calls : l.storage.addition action with
  | some call =>
    rw [calls] at reached
    cases reached
    exact .added calls (System.step_added calls stepped) rfl
  | none =>
    rw [calls] at reached
    cases reached
    cases action with
    | delete path =>
      cases stepped
      exact .deleted rfl rfl
    | openWriter handle path =>
      simp only [System.step, System.openWriter] at stepped
      split at stepped
      · cases stepped
      · cases stepped
        exact .opened rfl rfl
    | _ =>
      refine .kept ?_ (System.step_untouched calls ?_ ?_ stepped) rfl
      · intro call called
        rw [calls] at called
        cases called
      · intro handle path same
        cases same
      · intro path same
        cases same

/-! ### Nothing is subtracted that is not there -/

/-- The size of the cache covers its entries. -/
def Backed (l : CacheLedger) : Prop := entryBytes l.storage.entries ≤ l.storage.cacheSize

theorem step_backed (backed : Backed l) (moved : l.step action = some (l', out)) :
    Backed l' ∧ ∀ taken ∈ out, taken.freed ≤ taken.held := by
  unfold Backed at backed ⊢
  cases step_change moved with
  | added calls added totals =>
    rename_i call
    have evicted := CachedStorage.adding_evicted call backed
    have sums := entryBytes_of_sizes added.sizes
    have sizes := evicted.size
    have bytes := evicted.bytes
    have put := l.storage.withAdded_bytes call
    refine ⟨?_, evicted.covered⟩
    rw [sums, added.size]
    omega
  | deleted gone totals =>
    rename_i path
    cases held : l.storage.entry path with
    | none =>
      have same := CachedStorage.delete_untouched held
      rw [← gone] at same
      simp only [CachedStorage.freedByDelete, held]
      refine ⟨?_, by simp⟩
      rwa [entryBytes_of_sizes same.sizes, same.size]
    | some entry =>
      have own := entryBytes_delete held
      simp only [gone, CachedStorage.delete, CachedStorage.freedByDelete, held]
      refine ⟨by omega, ?_⟩
      intro taken member
      cases List.mem_singleton.mp member
      show entry.size ≤ l.storage.cacheSize
      omega
  | opened created totals =>
    rw [created]
    exact ⟨backed, fun _ member => absurd member List.not_mem_nil⟩
  | kept plain same totals =>
    refine ⟨?_, fun _ member => absurd member List.not_mem_nil⟩
    rwa [entryBytes_of_sizes same.sizes, same.size]

/-! ### Exact ledgers -/

/-- An exact ledger with the size within the limit, whatever waits for its upload. -/
structure Tight (l : CacheLedger) : Prop where
  size : l.storage.cacheSize = entryBytes l.storage.entries
  bytes : l.totals.totalCachedBytes = l.storage.cacheSize
  count : l.totals.cachedFileCount = l.storage.entries.entries.length
  filed : l.storage.Filed
  fits : l.storage.cacheSize ≤ l.storage.config.maxCacheSize
  target : l.storage.config.targetSize ≤ l.storage.config.maxCacheSize

theorem Tight.exact (tight : Tight l) : l.Exact :=
  ⟨tight.size, tight.bytes, tight.count, tight.filed, .inl tight.fits⟩

theorem tight_new (config : CacheConfig) (remote : Kv String Bytes) : Tight (new config remote) where
  size := rfl
  bytes := rfl
  count := rfl
  filed := by
    intro name there
    cases there
  fits := Nat.zero_le _
  target := evictionTarget_le config.maxCacheSize

theorem Tight.untouched (tight : Tight l)
    (same : CachedStorage.Untouched l.storage l'.storage) (totals : l'.totals = l.totals) :
    Tight l' where
  size := by rw [same.size, entryBytes_of_sizes same.sizes, tight.size]
  bytes := by rw [totals, same.size, tight.bytes]
  count := by rw [totals, length_of_sizes same.sizes, tight.count]
  filed := by
    intro name there
    obtain ⟨path, entry, held, named⟩ := tight.filed name (same.files name there)
    obtain ⟨entry', held'⟩ := held_of_sizes same.sizes held
    exact ⟨path, entry', held', named⟩
  fits := by rw [same.size, same.config]; exact tight.fits
  target := by rw [same.config]; exact tight.target

/-- A call for a path without an entry. -/
theorem Tight.added (tight : Tight l) (absent_ : l.storage.entry call.path = none)
    (added : CachedStorage.Added l.storage call l'.storage)
    (totals : l'.totals = l.totals.adding l.storage call) : Tight l' := by
  have own := CachedStorage.entryKey_of_absent absent_
  have absent : l.storage.entries.get call.path = none := by
    rw [← absent_, CachedStorage.entry, own]
  have put : l.storage.withAdded call =
      l.storage.entries.put call.path (.new call.size call.moment.now) := by
    rw [CachedStorage.withAdded, own]
  have evicted := CachedStorage.adding_evicted call tight.size.ge
  have bytes : entryBytes (l.storage.withAdded call) = entryBytes l.storage.entries + call.size := by
    rw [put]
    exact entryBytes_put absent _
  have length : (l.storage.withAdded call).entries.length =
      l.storage.entries.entries.length + 1 := by
    have lengths := l.storage.entries.length_put call.path (.new call.size call.moment.now)
    rwa [absent, ← put] at lengths
  have left := evicted.size
  have remaining := evicted.bytes
  have counted := evicted.count
  have exact_ := tight.size
  refine ⟨?_, ?_, ?_, ?_, ?_, ?_⟩
  · rw [added.size, entryBytes_of_sizes added.sizes]
    omega
  · rw [totals, added.size]
    rfl
  · rw [totals, length_of_sizes added.sizes, CachedTotals.adding, count_after_evictions,
      tight.count]
    dsimp only
    omega
  · intro name there
    obtain ⟨kept, known⟩ := added.files name there
    have named : ∃ path entry, (l.storage.withAdded call).get path = some entry ∧
        cachePath path = name := by
      rw [put]
      rcases known with own | before
      · exact ⟨call.path, _, Kv.get_put_self .., own.symm⟩
      · obtain ⟨path, entry, held, same⟩ := tight.filed name before
        have other : path ≠ call.path := by
          rintro rfl
          rw [absent] at held
          cases held
        exact ⟨path, entry, (Kv.get_put_ne _ other _).trans held, same⟩
    obtain ⟨path, entry, held, same⟩ := named
    rcases evicted.taken path entry held with remains | ⟨gone, -⟩
    · obtain ⟨entry', held'⟩ := held_of_sizes added.sizes remains
      exact ⟨path, entry', held', same⟩
    · exact absurd (same ▸ List.mem_map_of_mem gone) kept
  · rw [added.size, added.config]
    exact CachedStorage.adding_fits call tight.size tight.fits tight.target
  · rw [added.config]
    exact tight.target

theorem tight_of_plain (tight : Tight l) (plain : l.Plain action)
    (moved : l.step action = some (l', out)) : Tight l' := by
  cases step_change moved with
  | added calls added totals =>
    rename_i call
    have absent : l.storage.entry call.path = none := by
      cases action with
      | read moment path => exact plain call calls
      | copy moment source target => exact plain call calls
      | _ => cases calls
    exact tight.added absent added totals
  | deleted gone totals =>
    have same := CachedStorage.delete_untouched (s := l.storage) plain
    rw [← gone] at same
    exact tight.untouched same totals
  | opened created totals =>
    rename_i path handle
    refine ⟨?_, ?_, ?_, ?_, ?_, ?_⟩
    · rw [created]
      exact tight.size
    · rw [created, totals]
      exact tight.bytes
    · rw [created, totals]
      exact tight.count
    · rw [created]
      intro name there
      rcases l.storage.create_files path name 0 [] there with own | before
      · obtain ⟨⟨other, entry⟩, listed, same⟩ := plain
        exact ⟨other, entry, (Kv.mem_entries _).mp listed, same.trans own.symm⟩
      · exact tight.filed name before
    · rw [created]
      exact tight.fits
    · rw [created]
      exact tight.target
  | kept plain same totals => exact tight.untouched same totals

/-- A step that is not plain leaves a statistic behind, or a file without an entry. -/
theorem plain_of_exact (tight : Tight l) (exact_ : l'.Exact)
    (moved : l.step action = some (l', out)) : l.Plain action := by
  cases step_change moved with
  | added calls added totals =>
    rename_i call
    have absent : l.storage.entry call.path = none := by
      cases held : l.storage.entry call.path with
      | none => rfl
      | some entry =>
        have put := l.storage.entries.length_put (l.storage.entryKey call.path)
          (.new call.size call.moment.now)
        have evicted := CachedStorage.adding_evicted call tight.size.ge
        have counted := evicted.count
        have counts := exact_.count
        have before := tight.count
        rw [← CachedStorage.entry, held] at put
        have length : (l.storage.withAdded call).entries.length =
            l.storage.entries.entries.length := put
        rw [totals, length_of_sizes added.sizes, CachedTotals.adding,
          count_after_evictions] at counts
        dsimp only at counts
        omega
    have fresh : l.Fresh action := by
      intro other called
      rw [calls] at called
      cases called
      exact absent
    cases action with
    | read moment path => exact fresh
    | copy moment source target => exact fresh
    | _ => cases calls
  | deleted gone totals =>
    rename_i path
    cases held : l.storage.entry path with
    | none => exact held
    | some entry =>
      have counts := exact_.count
      have before := tight.count
      have fewer := length_delete held
      rw [totals, gone] at counts
      have after : l.totals.cachedFileCount =
        (l.storage.entries.delete (l.storage.entryKey path)).entries.length := counts
      omega
  | opened created totals =>
    rename_i path handle
    have linked := l.storage.writer_linked path
    obtain ⟨other, entry, held, same⟩ := exact_.filed (cachePath path) (by
      rw [created]
      exact Option.isSome_iff_exists.mpr ⟨_, linked⟩)
    rw [created] at held
    exact ⟨(other, entry), (Kv.mem_entries _).mpr held, same⟩
  | kept plain same totals => exact plain

/-! ### Runs -/

/-- In no run is more subtracted from the size of the cache than it has. -/
theorem run_covered (run : Run machine (new config remote) history l) :
    ∀ e ∈ history, ∀ taken ∈ e.out, taken.freed ≤ taken.held := by
  have invariant : Backed l ∧ ∀ e ∈ history, ∀ taken ∈ e.out, taken.freed ≤ taken.held := by
    refine run.history_invariant (P := fun history l => Backed l ∧
      ∀ e ∈ history, ∀ taken ∈ e.out, taken.freed ≤ taken.held) ?_ ?_
    · exact ⟨Nat.le_refl 0, fun _ member => absurd member List.not_mem_nil⟩
    · intro history l action l' out _ before moved
      obtain ⟨backed, covered⟩ := step_backed before.1 moved
      refine ⟨backed, ?_⟩
      intro e member
      rcases List.mem_cons.mp member with rfl | older
      · exact covered
      · exact before.2 e older
  exact invariant.2

/-- A step from a tight ledger leaves it exact if and only if it is plain. -/
theorem exact_judged : Judged machine Tight (fun e => e.post.Exact) Plain where
  decided := by
    intro l action l' out tight moved
    constructor
    · intro exact_
      exact plain_of_exact tight exact_ moved
    · intro plain
      exact (tight_of_plain tight plain moved).exact
  kept := by
    intro l action l' out tight moved plain
    exact tight_of_plain tight plain moved

end CacheLedger

/-- In every run of writers, copies, reads with evictions, deletes and upload workers: the size of
the cache, its entries, its statistics and its files agree after every step if and only if every
step is plain, and no eviction and no delete takes more from the size than there is. -/
theorem cache_ledger_exact_iff_plain (config : CacheConfig) (remote : Kv String Bytes)
    (run : Run CacheLedger.machine (.new config remote) history l) :
    ((∀ e ∈ history, e.post.Exact) ↔ ∀ e ∈ history, e.pre.Plain e.act) ∧
      ∀ e ∈ history, ∀ taken ∈ e.out, taken.freed ≤ taken.held :=
  ⟨CacheLedger.exact_judged.run_iff (CacheLedger.tight_new config remote) run, CacheLedger.run_covered run⟩

/-- Ten bytes of cache, emptied after every upload, over two objects. -/
def twoObjects : CacheLedger :=
  .new ⟨10, 0, 1, 8, .lru, true⟩ ((Kv.empty.put "a" [1, 2, 3, 4]).put "b" [5, 6, 7, 8, 9])

/-- Two objects read and one copied, which evicts it, with the copy uploaded and its file removed. -/
theorem copied_and_evicted_exact :
    ∃ history l, Run CacheLedger.machine twoObjects history l ∧
      l.storage.entries.entries.map Prod.fst = ["b", "c"] ∧ ∀ e ∈ history, e.post.Exact := by
  obtain ⟨history, l, run, seen⟩ := Run.of_observation CacheLedger.machine twoObjects
    [.read (at_ 1) "a", .read (at_ 2) "b", .copy (at_ 3) "a" "c", .takeTask 0, .readLocal 0,
      .writeRemote 0 true, .removeLocal 0, .clearPending 0]
    (fun end_ => (end_.2.storage.entries.entries.map Prod.fst,
      decide (∀ e ∈ end_.1, e.pre.Plain e.act)))
    (["b", "c"], true) (by decide +kernel)
  obtain ⟨listed, plain⟩ : _ ∧ _ := by simpa only [Prod.mk.injEq] using seen
  refine ⟨history, l, run, listed, ?_⟩
  exact (cache_ledger_exact_iff_plain _ _ run).1.mpr (of_decide_eq_true plain)

/-- An object read into the cache and deleted: no entry is left and the statistics still count
its file and its bytes. -/
theorem deleted_file_counted :
    ∃ history l, Run CacheLedger.machine twoObjects history l ∧
      ¬∀ e ∈ history, e.post.Exact := by
  obtain ⟨history, l, run, seen⟩ := Run.of_observation CacheLedger.machine twoObjects
    [.read (at_ 1) "a", .delete "a"]
    (fun end_ => (end_.1.map fun e => e.post.totals.cachedFileCount,
      end_.1.map fun e => e.post.storage.entries.entries.length))
    ([1, 1], [0, 1]) (by decide +kernel)
  obtain ⟨counted, held⟩ : _ ∧ _ := by simpa only [Prod.mk.injEq] using seen
  refine ⟨history, l, run, ?_⟩
  intro exact_
  have same : history.map (fun e => e.post.totals.cachedFileCount) =
      history.map fun e => e.post.storage.entries.entries.length := by
    apply List.map_congr_left
    intro e member
    exact (exact_ e member).count
  rw [counted, held] at same
  exact absurd same (by decide)

end Roboflow.Storage
