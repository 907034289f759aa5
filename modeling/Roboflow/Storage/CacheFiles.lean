import Roboflow.Storage.CachedStorage

/-! What the operations of the cached storage do to files, entries and objects. -/
namespace Roboflow.Storage
open Library

/-! ### Entries and eviction -/

theorem mem_candidate {config : CacheConfig} {moment : Moment} {entries : Kv String CacheEntry}
    (found : evictionCandidate config moment entries = some (path, entry)) :
    entries.get path = some entry := by
  have listed := List.argmin_mem (Option.mem_def.mpr found)
  rw [← Kv.mem_entries]
  exact (moment.perm entries.entries).mem_iff.mp (List.mem_filter.mp listed).1

/-- Eviction takes paths that have entries, and adds none. -/
theorem evictions_known {P : String → Prop} (config : CacheConfig) (moment : Moment)
    (fuel size : Nat) {entries : Kv String CacheEntry}
    (known : ∀ path entry, entries.get path = some entry → P path) :
    (∀ path ∈ (evictions config moment fuel size entries).1, P path) ∧
      ∀ path entry, (evictions config moment fuel size entries).2.2.get path = some entry →
        P path := by
  induction fuel generalizing size entries with
  | zero => exact ⟨fun _ member => absurd member List.not_mem_nil, known⟩
  | succ fuel ih =>
    unfold evictions
    split
    · exact ⟨fun _ member => absurd member List.not_mem_nil, known⟩
    · split
      · exact ⟨fun _ member => absurd member List.not_mem_nil, known⟩
      · rename_i path entry found
        have fewer : ∀ other entry', (entries.delete path).get other = some entry' → P other := by
          intro other entry' kept
          rw [Kv.get_delete] at kept
          split at kept
          · cases kept
          · exact known other entry' kept
        obtain ⟨taken, left⟩ := ih (size - entry.size) fewer
        refine ⟨?_, left⟩
        intro other member
        rcases List.mem_cons.mp member with rfl | later
        · exact known _ entry (mem_candidate found)
        · exact taken other later

theorem read_foldl_unlink (paths : List String) (disk : Disk String UInt8) (name : String) :
    (paths.foldl (fun disk path => disk.unlink (cachePath path)) disk).read name =
      if name ∈ paths.map cachePath then none else disk.read name := by
  induction paths generalizing disk with
  | nil => rfl
  | cons path rest ih =>
    rw [List.foldl_cons, ih, Disk.read_unlink]
    by_cases later : name ∈ rest.map cachePath
    · simp [later]
    · by_cases own : name = cachePath path <;> simp [later, own]

theorem names_foldl_unlink (paths : List String) (disk : Disk String UInt8) (name : String) :
    (paths.foldl (fun disk path => disk.unlink (cachePath path)) disk).names.get name =
      if name ∈ paths.map cachePath then none else disk.names.get name := by
  induction paths generalizing disk with
  | nil => rfl
  | cons path rest ih =>
    rw [List.foldl_cons, ih, Disk.unlink_names]
    by_cases later : name ∈ rest.map cachePath
    · simp [later]
    · by_cases own : name = cachePath path <;> simp [later, own]

theorem content_foldl_unlink (paths : List String) (disk : Disk String UInt8) (file : Nat) :
    (paths.foldl (fun disk path => disk.unlink (cachePath path)) disk).content file =
      disk.content file := by
  induction paths generalizing disk with
  | nil => rfl
  | cons path rest ih =>
    rw [List.foldl_cons, ih]
    rfl

theorem unused_foldl_unlink (paths : List String) (disk : Disk String UInt8) :
    (paths.foldl (fun disk path => disk.unlink (cachePath path)) disk).unused = disk.unused := by
  induction paths generalizing disk with
  | nil => rfl
  | cons path rest ih =>
    rw [List.foldl_cons, ih]
    rfl

namespace CachedStorage

variable {s s' : CachedStorage} {path : String}

/-- The key of a path is the path, unless an entry has another. -/
theorem entryKey_cases (s : CachedStorage) (path : String) :
    s.entryKey path = path ∨ ∃ entry, s.entries.get (s.entryKey path) = some entry := by
  unfold entryKey
  cases found : s.entries.entries.find? fun entry =>
      UnixPath.components entry.1.toList = UnixPath.components path.toList with
  | none => exact .inl rfl
  | some entry => exact .inr ⟨entry.2, s.entries.mem_entries.mp (List.mem_of_find?_eq_some found)⟩

theorem entryKey_known {P : String → Prop} (own : P path)
    (known : ∀ path entry, s.entries.get path = some entry → P path) : P (s.entryKey path) := by
  rcases s.entryKey_cases path with same | ⟨entry, held⟩
  · exact same.symm ▸ own
  · exact known _ entry held

/-- A path without an entry would be its own key. -/
theorem entryKey_of_absent (absent : s.entry path = none) : s.entryKey path = path := by
  rcases s.entryKey_cases path with same | ⟨entry, held⟩
  · exact same
  · exact absurd (held.symm.trans absent) (by simp)

/-- An update of an entry concerns the entries only. -/
theorem updateEntry_eq (s : CachedStorage) (path : String) (f : CacheEntry → CacheEntry) :
    ∃ entries, s.updateEntry path f = { s with entries := entries } := by
  unfold updateEntry
  split
  · exact ⟨_, rfl⟩
  · exact ⟨s.entries, rfl⟩

@[simp] theorem updateEntry_cache (f : CacheEntry → CacheEntry) :
    (s.updateEntry path f).cache = s.cache := by
  obtain ⟨entries, same⟩ := s.updateEntry_eq path f
  rw [same]

@[simp] theorem updateEntry_remote (f : CacheEntry → CacheEntry) :
    (s.updateEntry path f).remote = s.remote := by
  obtain ⟨entries, same⟩ := s.updateEntry_eq path f
  rw [same]

@[simp] theorem updateEntry_queue (f : CacheEntry → CacheEntry) :
    (s.updateEntry path f).queue = s.queue := by
  obtain ⟨entries, same⟩ := s.updateEntry_eq path f
  rw [same]

@[simp] theorem updateEntry_config (f : CacheEntry → CacheEntry) :
    (s.updateEntry path f).config = s.config := by
  obtain ⟨entries, same⟩ := s.updateEntry_eq path f
  rw [same]

theorem updateEntry_known {P : String → Prop} (f : CacheEntry → CacheEntry)
    (known : ∀ path entry, s.entries.get path = some entry → P path) :
    ∀ other entry, (s.updateEntry path f).entries.get other = some entry → P other := by
  intro other entry found
  unfold updateEntry at found
  split at found
  · rename_i own listed
    rw [Kv.get_put] at found
    split at found
    · rename_i same
      exact same ▸ known (s.entryKey path) own listed
    · exact known other entry found
  · exact known other entry found

/-- The paths evicted when one is added. -/
def victims (s : CachedStorage) (moment : Moment) (path : String) (size : Nat) : List String :=
  (s.evictionsOfAdding moment path size).1

theorem addToCache_read (s : CachedStorage) (moment : Moment) (path : String) (size : Nat)
    (name : String) :
    (s.addToCache moment path size).cache.read name =
      if name ∈ (s.victims moment path size).map cachePath then none else s.cache.read name :=
  read_foldl_unlink ..

theorem addToCache_known {P : String → Prop} (moment : Moment) (size : Nat) (own : P path)
    (known : ∀ path entry, s.entries.get path = some entry → P path) :
    (∀ other ∈ s.victims moment path size, P other) ∧
      ∀ other entry, (s.addToCache moment path size).entries.get other = some entry → P other := by
  have added : ∀ other entry,
      (s.entries.put (s.entryKey path) (.new size moment.now)).get other = some entry →
        P other := by
    intro other entry found
    rw [Kv.get_put] at found
    split at found
    · rename_i same
      exact same ▸ entryKey_known own known
    · exact known other entry found
  unfold victims addToCache evictionsOfAdding
  dsimp only
  split
  · exact evictions_known _ _ _ _ added
  · exact ⟨fun _ member => by simp at member, added⟩

/-- A whole file written into the cache. -/
def place (s : CachedStorage) (path : String) (bytes : Bytes) : CachedStorage :=
  let (disk, file) := s.cache.create (cachePath path)
  { s with cache := disk.writeAt file 0 bytes }

theorem place_eq (s : CachedStorage) (path : String) (bytes : Bytes) :
    (s.place path bytes).cache = (s.cache.create (cachePath path)).1.set
      (s.cache.create (cachePath path)).2 bytes := by
  have atEnd := (s.cache.create (cachePath path)).1.writeAt_end
    (s.cache.create (cachePath path)).2 bytes
  rw [Disk.create_content, List.length_nil, List.nil_append] at atEnd
  exact atEnd

theorem place_read (s : CachedStorage) (path : String) (bytes : Bytes) (name : String) :
    (s.place path bytes).cache.read name =
      if name = cachePath path then some bytes else s.cache.read name := by
  rw [place_eq, Disk.read_set (Disk.create_linked ..), Disk.read_create]
  split <;> rfl

/-! ### Writers -/

/-- A writer stands at the end of its file. -/
def AtEnd (s : CachedStorage) (w : CachedWriter) : Prop :=
  w.offset = (s.cache.content w.file).length

/-- Bytes went from a writer to its file; nothing else changed but the upload channel and
the writer's marks. -/
structure Moved (moved : Bytes) (s : CachedStorage) (w : CachedWriter) (s' : CachedStorage)
    (w' : CachedWriter) : Prop where
  names : s'.cache.names = s.cache.names
  unused : s'.cache.unused = s.cache.unused
  own : s'.cache.content w.file = s.cache.content w.file ++ moved
  others : ∀ file, file ≠ w.file → s'.cache.content file = s.cache.content file
  rest : { s' with cache := s.cache, queue := s.queue } = s
  file : w'.file = w.file
  localPath : w'.localPath = w.localPath
  remotePath : w'.remotePath = w.remotePath
  offset : w'.offset = w.offset + moved.length

namespace Moved

variable {w w' w'' : CachedWriter} {moved more : Bytes} {s'' : CachedStorage}

theorem refl (s : CachedStorage) (w : CachedWriter) (buffer : Bytes) :
    Moved [] s w s { w with buffer := buffer } :=
  ⟨rfl, rfl, by simp, fun _ _ => rfl, rfl, rfl, rfl, rfl, rfl⟩

theorem atEnd (step : Moved moved s w s' w') (atEnd : AtEnd s w) : AtEnd s' w' := by
  unfold AtEnd at atEnd ⊢
  rw [step.file, step.own, step.offset, List.length_append, ← atEnd]

theorem trans (first : Moved moved s w s' w') (second : Moved more s' w' s'' w'') :
    Moved (moved ++ more) s w s'' w'' where
  names := second.names.trans first.names
  unused := second.unused.trans first.unused
  own := by
    rw [← List.append_assoc, ← first.own, ← first.file]
    exact second.own
  others := by
    intro file different
    rw [second.others file (first.file ▸ different), first.others file different]
  rest := by
    have same := congrArg (fun t : CachedStorage => { t with cache := s.cache, queue := s.queue })
      second.rest
    exact same.trans first.rest
  file := second.file.trans first.file
  localPath := second.localPath.trans first.localPath
  remotePath := second.remotePath.trans first.remotePath
  offset := by
    rw [second.offset, first.offset, List.length_append, Nat.add_assoc]

theorem remote (step : Moved moved s w s' w') : s'.remote = s.remote := by
  rw [← step.rest]

theorem entries (step : Moved moved s w s' w') : s'.entries = s.entries := by
  rw [← step.rest]

theorem config (step : Moved moved s w s' w') : s'.config = s.config := by
  rw [← step.rest]

/-- A writer with nothing to write is not seen. -/
theorem read_nothing (step : Moved [] s w s' w') (name : String) :
    s'.cache.read name = s.cache.read name := by
  have same : ∀ file, s'.cache.content file = s.cache.content file := by
    intro file
    by_cases own : file = w.file
    · rw [own, step.own, List.append_nil]
    · exact step.others file own
  rw [Disk.read, Disk.read, step.names]
  congr 1
  exact funext same

theorem read (step : Moved moved s w s' w')
    (linked : s.cache.names.get w.localPath = some w.file) (name : String) :
    s'.cache.read name = if name = w.localPath then some (s.cache.content w.file ++ moved)
      else s.cache.read name := by
  rw [Disk.read, step.names]
  by_cases same : name = w.localPath
  · rw [if_pos same, same, linked, Option.map_some, step.own]
  · rw [if_neg same, Disk.read]
    cases found : s.cache.names.get name with
    | none => rfl
    | some file =>
      have different : file ≠ w.file := by
        rintro rfl
        exact same (s.cache.apart _ _ _ found linked)
      rw [Option.map_some, Option.map_some, step.others file different]

end Moved

/-- A writer did not change what it is to do about the upload. -/
structure SameUpload (s : CachedStorage) (w : CachedWriter) (s' : CachedStorage)
    (w' : CachedWriter) : Prop where
  queue : s'.queue = s.queue
  uploaded : w'.uploaded = w.uploaded
  flushed : w'.flushed = w.flushed

theorem SameUpload.trans {s'' : CachedStorage} (first : SameUpload s w s' w')
    (second : SameUpload s' w' s'' w'') : SameUpload s w s'' w'' :=
  ⟨second.queue.trans first.queue, second.uploaded.trans first.uploaded,
    second.flushed.trans first.flushed⟩

variable {w : CachedWriter}

theorem writeThrough_moved (atEnd : AtEnd s w) (bytes : Bytes) :
    Moved bytes s w (s.writeThrough w bytes).1 (s.writeThrough w bytes).2 := by
  have appended : s.cache.writeAt w.file w.offset bytes =
      s.cache.set w.file (s.cache.content w.file ++ bytes) := by
    rw [show w.offset = _ from atEnd, Disk.writeAt_end]
  unfold writeThrough
  rw [appended]
  exact ⟨rfl, rfl, Disk.content_set, fun _ different => Disk.content_set_ne different, rfl, rfl, rfl,
    rfl, rfl⟩

theorem flushLocal_moved (atEnd : AtEnd s w) :
    Moved w.buffer s w (s.flushLocal w).1 (s.flushLocal w).2 := by
  have step := writeThrough_moved atEnd w.buffer
  exact ⟨step.names, step.unused, step.own, step.others, step.rest, rfl, rfl, rfl, rfl⟩

theorem bufferedWrite_moved (atEnd : AtEnd s w) (bytes : Bytes) :
    ∃ moved, Moved moved s w (s.bufferedWrite w bytes).1 (s.bufferedWrite w bytes).2 ∧
      moved ++ (s.bufferedWrite w bytes).2.buffer = w.buffer ++ bytes ∧
      SameUpload s w (s.bufferedWrite w bytes).1 (s.bufferedWrite w bytes).2 := by
  unfold bufferedWrite
  by_cases full : bufferCapacity < w.buffer.length + bytes.length
  · have step := flushLocal_moved atEnd
    rw [if_pos full]
    dsimp only
    by_cases large : bufferCapacity ≤ bytes.length
    · rw [if_pos large]
      have more := writeThrough_moved (step.atEnd atEnd) bytes
      exact ⟨w.buffer ++ bytes, step.trans more, by simp [writeThrough, flushLocal], rfl, rfl, rfl⟩
    · rw [if_neg large]
      exact ⟨w.buffer, ⟨step.names, step.unused, step.own, step.others, step.rest, rfl, rfl, rfl, rfl⟩,
        by simp [flushLocal], rfl, rfl, rfl⟩
  · rw [if_neg full]
    dsimp only
    by_cases large : bufferCapacity ≤ bytes.length
    · have blank : w.buffer = [] := by
        rw [← List.length_eq_zero_iff]
        omega
      rw [if_pos large]
      exact ⟨bytes, writeThrough_moved atEnd bytes, by simp [writeThrough, blank], rfl, rfl, rfl⟩
    · rw [if_neg large]
      exact ⟨[], Moved.refl s w _, by simp, rfl, rfl, rfl⟩

/-- What is given to a writer is in its file or in its buffer. -/
theorem write_moved (atEnd : AtEnd s w) (bytes : Bytes) :
    ∃ moved, Moved moved s w (s.write w bytes).1 (s.write w bytes).2 ∧
      moved ++ (s.write w bytes).2.buffer = w.buffer ++ bytes ∧
      SameUpload s w (s.write w bytes).1 (s.write w bytes).2 := by
  obtain ⟨moved, step, all, same⟩ := bufferedWrite_moved atEnd bytes
  unfold write
  dsimp only
  split
  · have more := flushLocal_moved (step.atEnd atEnd)
    refine ⟨moved ++ (s.bufferedWrite w bytes).2.buffer, step.trans more, ?_,
      same.trans ⟨rfl, rfl, rfl⟩⟩
    rw [← all]
    simp [flushLocal, writeThrough]
  · exact ⟨moved, step, all, same⟩

/-- The upload of a writer that has queued none yet. -/
theorem queueWriterUpload_moved (atEnd : AtEnd s w) (fresh : w.uploaded = false) :
    Moved w.buffer s w (s.queueWriterUpload w).1 (s.queueWriterUpload w).2 ∧
      (s.queueWriterUpload w).2.buffer = [] ∧ (s.queueWriterUpload w).2.uploaded = true ∧
      (s.queueWriterUpload w).2.flushed = w.flushed ∧
      ∃ size, (s.queueWriterUpload w).1.queue = s.queue ++ [⟨w.localPath, w.remotePath, size⟩] := by
  have step := flushLocal_moved atEnd
  unfold queueWriterUpload
  rw [if_neg (by simp [fresh])]
  exact ⟨⟨step.names, step.unused, step.own, step.others, step.rest, rfl, rfl, rfl, rfl⟩, rfl, rfl, rfl, _, rfl⟩

/-- The first flush. -/
theorem flush_moved (atEnd : AtEnd s w) (fresh : w.uploaded = false)
    (unflushed : w.flushed = false) :
    Moved w.buffer s w (s.flush w).1 (s.flush w).2 ∧ (s.flush w).2.buffer = [] ∧
      (s.flush w).2.uploaded = true ∧ (s.flush w).2.flushed = true ∧
      ∃ size, (s.flush w).1.queue = s.queue ++ [⟨w.localPath, w.remotePath, size⟩] := by
  have step := flushLocal_moved atEnd
  obtain ⟨more, emptied, uploaded, -, size, queued⟩ :=
    queueWriterUpload_moved (step.atEnd atEnd) fresh
  have nothing : (s.flushLocal w).2.buffer = [] := rfl
  have both := step.trans more
  rw [nothing, List.append_nil] at both
  unfold flush
  dsimp only
  rw [if_neg (by simp [flushLocal, writeThrough, unflushed])]
  exact ⟨⟨both.names, both.unused, both.own, both.others, both.rest, both.file, both.localPath, both.remotePath,
    both.offset⟩, emptied, uploaded, rfl, size, queued⟩

/-- A flush after the first. -/
theorem flush_flushed (flushed : w.flushed = true) : s.flush w = s.flushLocal w := by
  unfold flush
  dsimp only
  rw [if_pos (show (s.flushLocal w).2.flushed = true from flushed)]

/-- A writer dropped without a flush. -/
theorem drop_moved (atEnd : AtEnd s w) (fresh : w.uploaded = false)
    (unflushed : w.flushed = false) :
    ∃ w', Moved w.buffer s w (s.drop w) w' ∧
      ∃ size, (s.drop w).queue = s.queue ++ [⟨w.localPath, w.remotePath, size⟩] := by
  obtain ⟨step, emptied, uploaded, -, size, queued⟩ := flush_moved atEnd fresh unflushed
  have last := flushLocal_moved (step.atEnd atEnd)
  rw [emptied] at last
  have both := step.trans last
  rw [List.append_nil] at both
  have same : s.drop w = ((s.flush w).1.flushLocal (s.flush w).2).1 := by
    unfold drop
    rw [if_neg (by simp [unflushed])]
    simp only [queueWriterUpload, uploaded, if_true]
  rw [same]
  exact ⟨_, both, size, queued⟩

/-- A writer dropped after its flush. -/
theorem drop_flushed (atEnd : AtEnd s w) (uploaded : w.uploaded = true)
    (flushed : w.flushed = true) :
    ∃ w', Moved w.buffer s w (s.drop w) w' ∧ (s.drop w).queue = s.queue := by
  have same : s.drop w = (s.flushLocal w).1 := by
    unfold drop
    simp only [flushed, if_true, queueWriterUpload, uploaded]
  rw [same]
  exact ⟨_, flushLocal_moved atEnd, rfl⟩

theorem writer_linked (s : CachedStorage) (path : String) :
    (s.writer path).1.cache.names.get (s.writer path).2.localPath = some (s.writer path).2.file :=
  Disk.create_linked ..

theorem writer_content (s : CachedStorage) (path : String) :
    (s.writer path).1.cache.content (s.writer path).2.file = [] :=
  Disk.create_content ..

theorem writer_atEnd (s : CachedStorage) (path : String) :
    AtEnd (s.writer path).1 (s.writer path).2 := by
  unfold AtEnd
  rw [writer_content]
  rfl

end CachedStorage

end Roboflow.Storage
