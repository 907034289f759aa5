import Roboflow.Storage.CacheFiles

/-! The cached storage against a plain map from paths to bytes, one operation at a time:
the uploads an operation queues are carried out before the next one. The remote then
holds what the map holds, and a cache file what its path maps to, so that a file may
be evicted at any time; what breaks this is a name two paths share, a copy onto itself,
a copy in the remote under a cached target, and an eviction of the file just added. -/
namespace Roboflow.Storage
open Library

inductive Operation where
  | write (path : String) (chunks : List Bytes)
  | read (path : String)
  | size (path : String)
  | pathExists (path : String)
  | copy (source target : String)
  | delete (path : String)

inductive Answer where
  | done
  | bytes (found : Option Bytes)
  | size (found : Option Nat)
  | pathExists (found : Bool)
  deriving DecidableEq

def Operation.paths : Operation → List String
  | .write path _ => [path]
  | .read path => [path]
  | .size path => [path]
  | .pathExists path => [path]
  | .copy source target => [source, target]
  | .delete path => [path]

/-! ### The plain store -/

/-- A plain map: its next state and its answer. -/
def plain (store : Kv String Bytes) : Operation → Kv String Bytes × Answer
  | .write path chunks => (store.put path chunks.flatten, .done)
  | .read path => (store, .bytes (store.get path))
  | .size path => (store, .size ((store.get path).map List.length))
  | .pathExists path => (store, .pathExists (store.get path).isSome)
  | .copy source target =>
    match store.get source with
    | some bytes => (store.put target bytes, .done)
    | none => (store, .done)
  | .delete path => (store.delete path, .done)

def plainAnswers (store : Kv String Bytes) : List Operation → List Answer
  | [] => []
  | operation :: rest => (plain store operation).2 :: plainAnswers (plain store operation).1 rest

/-! ### The cached storage -/

namespace CachedStorage

def writeAll (s : CachedStorage) (w : CachedWriter) : List Bytes → CachedStorage × CachedWriter
  | [] => (s, w)
  | chunk :: rest => (s.write w chunk).1.writeAll (s.write w chunk).2 rest

/-- A writer opened, written to and dropped. -/
def completeWrite (s : CachedStorage) (path : String) (chunks : List Bytes) : CachedStorage :=
  let (s, w) := s.writer path
  let (s, w) := s.writeAll w chunks
  s.drop w

/-- The queued uploads, carried out. -/
def settle (s : CachedStorage) : CachedStorage := s.queue.foldl upload { s with queue := [] }

def operate (s : CachedStorage) (moment : Moment) : Operation → CachedStorage × Answer
  | .write path chunks => (s.completeWrite path chunks, .done)
  | .read path =>
    let (s, found) := s.reader moment path
    (s, .bytes found)
  | .size path => (s, .size (s.size path))
  | .pathExists path => (s, .pathExists (s.pathExists path))
  | .copy source target => ((s.copy moment source target).1, .done)
  | .delete path => ((s.delete path).1, .done)

/-- An operation and the uploads after it. -/
def apply (s : CachedStorage) (moment : Moment) (operation : Operation) : CachedStorage × Answer :=
  let (s, answer) := s.operate moment operation
  (s.settle, answer)

def answers (s : CachedStorage) : List (Moment × Operation) → List Answer
  | [] => []
  | (moment, operation) :: rest =>
    (s.apply moment operation).2 :: (s.apply moment operation).1.answers rest

/-! ### What the steps are to keep to -/

/-- A read that brings an object into the cache does not evict it again. A copy in the
cache does not evict its target, and is not onto itself unless of an empty file; a copy
in the remote does not leave another content of its target in the cache. -/
def Careful (s : CachedStorage) (moment : Moment) : Operation → Prop
  | .read path =>
    match s.cached path, s.remote.get path with
    | none, some bytes => path ∉ s.victims moment path bytes.length
    | _, _ => True
  | .copy source target =>
    match s.cached source, s.remote.get source with
    | some bytes, _ =>
      (source = target → bytes = []) ∧ target ∉ s.victims moment target bytes.length
    | none, some bytes => s.cached target = none ∨ s.cached target = some bytes
    | none, none => True
  | _ => True

instance (s : CachedStorage) (moment : Moment) :
    (operation : Operation) → Decidable (s.Careful moment operation)
  | .read path =>
    match hit : s.cached path, found : s.remote.get path with
    | none, some bytes =>
      decidable_of_iff (path ∉ s.victims moment path bytes.length) (by simp [Careful, hit, found])
    | some _, _ => .isTrue (by simp [Careful, hit])
    | none, none => .isTrue (by simp [Careful, hit, found])
  | .copy source target =>
    match hit : s.cached source, found : s.remote.get source with
    | some bytes, _ =>
      decidable_of_iff ((source = target → bytes = []) ∧
        target ∉ s.victims moment target bytes.length) (by simp [Careful, hit])
    | none, some bytes =>
      decidable_of_iff (s.cached target = none ∨ s.cached target = some bytes)
        (by simp [Careful, hit, found])
    | none, none => .isTrue (by simp [Careful, hit, found])
  | .write _ _ => .isTrue trivial
  | .size _ => .isTrue trivial
  | .pathExists _ => .isTrue trivial
  | .delete _ => .isTrue trivial

def CarefulRun (s : CachedStorage) : List (Moment × Operation) → Prop
  | [] => True
  | (moment, operation) :: rest =>
    s.Careful moment operation ∧ (s.apply moment operation).1.CarefulRun rest

instance : (s : CachedStorage) → (operations : List (Moment × Operation)) →
    Decidable (s.CarefulRun operations)
  | _, [] => .isTrue trivial
  | s, (moment, operation) :: rest =>
    have := instDecidableCarefulRun (s.apply moment operation).1 rest
    inferInstanceAs (Decidable (_ ∧ _))

end CachedStorage

/-- Different paths have different cache files. -/
def NamesApart (paths : List String) : Prop :=
  ∀ path ∈ paths, ∀ other ∈ paths, cachePath path = cachePath other → path = other

/-! ### The store behind the cache -/

/-- The remote is the store, and the cache holds part of it. -/
structure Agrees (paths : List String) (s : CachedStorage) (store : Kv String Bytes) : Prop where
  remote : ∀ path ∈ paths, s.remote.get path = store.get path
  cached : ∀ path ∈ paths, ∀ bytes, s.cached path = some bytes → store.get path = some bytes
  known : ∀ path entry, s.entries.get path = some entry → path ∈ paths
  idle : s.queue = []

namespace CachedStorage

variable {s : CachedStorage} {store : Kv String Bytes} {paths : List String} {path : String}

theorem settle_idle (idle : s.queue = []) : s.settle = s := by
  unfold settle
  rw [idle]
  obtain ⟨config, cache, remote, entries, size, queue⟩ := s
  cases idle
  rfl

/-- One upload of a file that is there. -/
theorem settle_upload (queued : s.queue = [⟨cachePath path, path, length⟩])
    (held : s.cached path = some bytes) :
    s.settle.remote = s.remote.put path bytes ∧ s.settle.queue = [] ∧
      (∀ name content, s.settle.cache.read name = some content →
        s.cache.read name = some content) ∧
      ∀ P : String → Prop, (∀ path entry, s.entries.get path = some entry → P path) →
        ∀ path entry, s.settle.entries.get path = some entry → P path := by
  have found : ({ s with queue := [] } : CachedStorage).readLocal ⟨cachePath path, path, length⟩ =
      some bytes := held
  unfold settle
  rw [queued, List.foldl_cons, List.foldl_nil, upload, found]
  simp only [clearPending, updateEntry_remote, updateEntry_queue, updateEntry_cache]
  by_cases deletes : s.config.deleteAfterUpload = true
  · have removes : (writeRemote { s with queue := [] } ⟨cachePath path, path, length⟩
        bytes).config.deleteAfterUpload = true := deletes
    simp only [removes, if_true]
    refine ⟨rfl, rfl, ?_, fun P known => updateEntry_known _ known⟩
    intro name content kept
    have gone : (s.cache.unlink (cachePath path)).read name = some content := kept
    rw [Disk.read_unlink] at gone
    split at gone
    · cases gone
    · exact gone
  · have keeps : (writeRemote { s with queue := [] } ⟨cachePath path, path, length⟩
        bytes).config.deleteAfterUpload = false := (Bool.not_eq_true _).mp deletes
    simp only [keeps, Bool.false_eq_true, if_false]
    exact ⟨rfl, rfl, fun _ _ kept => kept, fun P known => updateEntry_known _ known⟩

/-- After the upload of a path that now holds these bytes. -/
theorem agrees_upload (length : Nat) {before : CachedStorage} (agrees : Agrees paths before store)
    (inside : path ∈ paths) (remote : s.remote = before.remote)
    (files : ∀ other ∈ paths, other ≠ path → ∀ content, s.cached other = some content →
      before.cached other = some content)
    (known : ∀ path entry, s.entries.get path = some entry → path ∈ paths)
    (queued : s.queue = [⟨cachePath path, path, length⟩]) (held : s.cached path = some bytes) :
    Agrees paths s.settle (store.put path bytes) := by
  obtain ⟨uploaded, idle, kept, sameKeys⟩ := settle_upload queued held
  refine ⟨?_, ?_, sameKeys _ known, idle⟩
  · intro other member
    rw [uploaded, remote, Kv.get_put, Kv.get_put, agrees.remote other member]
  · intro other member content found
    have earlier := kept _ _ found
    rw [Kv.get_put]
    by_cases same : other = path
    · subst same
      rw [if_pos rfl, ← held]
      exact earlier
    · rw [if_neg same]
      exact agrees.cached other member content (files other member same content earlier)

/-! ### One operation -/

/-- The writes between opening and dropping a writer. -/
theorem writeAll_moved {w : CachedWriter} (atEnd : AtEnd s w) (chunks : List Bytes) :
    ∃ moved, Moved moved s w (s.writeAll w chunks).1 (s.writeAll w chunks).2 ∧
      moved ++ (s.writeAll w chunks).2.buffer = w.buffer ++ chunks.flatten ∧
      SameUpload s w (s.writeAll w chunks).1 (s.writeAll w chunks).2 := by
  induction chunks generalizing s w with
  | nil => exact ⟨[], Moved.refl s w _, by simp [writeAll], rfl, rfl, rfl⟩
  | cons chunk rest ih =>
    obtain ⟨moved, step, all, same⟩ := write_moved atEnd chunk
    obtain ⟨more, later, allLater, sameLater⟩ := ih (step.atEnd atEnd)
    refine ⟨moved ++ more, step.trans later, ?_, same.trans sameLater⟩
    rw [writeAll, List.append_assoc, allLater, ← List.append_assoc, all, List.flatten_cons,
      List.append_assoc]

/-- A complete write puts the bytes into the cache file and queues its upload. -/
theorem completeWrite_spec (s : CachedStorage) (path : String) (chunks : List Bytes) :
    (∀ name, (s.completeWrite path chunks).cache.read name =
      if name = cachePath path then some chunks.flatten else s.cache.read name) ∧
      (s.completeWrite path chunks).remote = s.remote ∧
      (s.completeWrite path chunks).entries = s.entries ∧
      ∃ length, (s.completeWrite path chunks).queue =
        s.queue ++ [⟨cachePath path, path, length⟩] := by
  have atEnd := s.writer_atEnd path
  obtain ⟨moved, step, all, same⟩ := writeAll_moved atEnd chunks
  obtain ⟨w', last, length, queued⟩ := drop_moved (step.atEnd atEnd)
    (same.uploaded.trans rfl) (same.flushed.trans rfl)
  have whole := step.trans last
  rw [all] at whole
  have blank := s.writer_content path
  refine ⟨?_, whole.remote, whole.entries, length, ?_⟩
  · intro name
    have read := whole.read (s.writer_linked path) name
    rw [blank] at read
    refine read.trans ?_
    have created : (s.writer path).1.cache.read name =
        if name = cachePath path then some [] else s.cache.read name := Disk.read_create ..
    have named : (s.writer path).2.localPath = cachePath path := rfl
    rw [named]
    by_cases own : name = cachePath path
    · rw [if_pos own, if_pos own]
      rfl
    · rw [if_neg own, if_neg own, created, if_neg own]
  · rw [completeWrite, queued, same.queue, step.localPath, step.remotePath]
    rfl

theorem agrees_write (apart : NamesApart paths) (agrees : Agrees paths s store)
    (inside : path ∈ paths) (chunks : List Bytes) :
    Agrees paths (s.completeWrite path chunks).settle (store.put path chunks.flatten) := by
  obtain ⟨files, remote, entries, length, queued⟩ := s.completeWrite_spec path chunks
  rw [agrees.idle, List.nil_append] at queued
  refine agrees_upload length agrees inside remote ?_ ?_ queued ?_
  · intro other member different content found
    rw [cached, files, if_neg fun same => different (apart other member path inside same)] at found
    exact found
  · rw [entries]
    exact agrees.known
  · rw [cached, files, if_pos rfl]

/-- A file written into the cache and then added to its entries. -/
theorem cached_added (apart : NamesApart paths)
    (known : ∀ path entry, s.entries.get path = some entry → path ∈ paths)
    (moment : Moment) (inside : path ∈ paths) (bytes : Bytes) {other : String}
    (member : other ∈ paths) :
    ((s.place path bytes).addToCache moment path bytes.length).cached other =
      if other ∈ s.victims moment path bytes.length then none
      else if other = path then some bytes else s.cached other := by
  have taken := (addToCache_known moment bytes.length inside known).1
  have names : cachePath other ∈ (s.victims moment path bytes.length).map cachePath ↔
      other ∈ s.victims moment path bytes.length := by
    refine ⟨?_, List.mem_map_of_mem⟩
    intro listed
    obtain ⟨victim, among, same⟩ := List.mem_map.mp listed
    exact apart victim (taken victim among) other member same ▸ among
  have sameVictims : (s.place path bytes).victims moment path bytes.length =
      s.victims moment path bytes.length := rfl
  rw [cached, addToCache_read, sameVictims, place_read]
  simp only [names]
  by_cases own : other = path
  · rw [if_pos own, if_pos (congrArg cachePath own)]
  · rw [if_neg own, if_neg fun same => own (apart other member path inside same)]
    rfl

theorem cached_addToCache (apart : NamesApart paths)
    (known : ∀ path entry, s.entries.get path = some entry → path ∈ paths)
    (moment : Moment) (inside : path ∈ paths) (bytes : Bytes)
    (spared : path ∉ s.victims moment path bytes.length) :
    let added := (s.place path bytes).addToCache moment path bytes.length
    added.cached path = some bytes ∧
      (∀ other ∈ paths, other ≠ path → ∀ content, added.cached other = some content →
        s.cached other = some content) ∧
      ∀ path entry, added.entries.get path = some entry → path ∈ paths := by
  have knownPlaced : ∀ path' entry, (s.place path bytes).entries.get path' = some entry →
      path' ∈ paths := known
  have left := (addToCache_known moment bytes.length inside knownPlaced).2
  refine ⟨?_, ?_, left⟩
  · rw [cached_added apart known moment inside bytes inside, if_neg spared, if_pos rfl]
  · intro other member different content found
    rw [cached_added apart known moment inside bytes member, if_neg different] at found
    split at found
    · cases found
    · exact found

theorem agrees_read (apart : NamesApart paths) (agrees : Agrees paths s store)
    (inside : path ∈ paths) (moment : Moment) (careful : s.Careful moment (.read path)) :
    Agrees paths (s.reader moment path).1 store ∧ (s.reader moment path).2 = store.get path := by
  unfold reader
  cases hit : s.cached path with
  | some bytes =>
    refine ⟨⟨?_, ?_, updateEntry_known _ agrees.known, ?_⟩, (agrees.cached path inside bytes hit).symm⟩
    · intro other member
      rw [recordAccess, updateEntry_remote]
      exact agrees.remote other member
    · intro other member content found
      rw [recordAccess, cached, updateEntry_cache] at found
      exact agrees.cached other member content found
    · rw [recordAccess, updateEntry_queue]
      exact agrees.idle
  | none =>
    cases missed : s.remote.get path with
    | none =>
      refine ⟨agrees, ?_⟩
      rw [← agrees.remote path inside, missed]
    | some bytes =>
      have stored : store.get path = some bytes := missed ▸ (agrees.remote path inside).symm
      have spared : path ∉ s.victims moment path bytes.length := by
        simpa [Careful, hit, missed] using careful
      obtain ⟨own, others, known⟩ :=
        cached_addToCache apart agrees.known moment inside bytes spared
      refine ⟨⟨agrees.remote, ?_, known, agrees.idle⟩, own.trans stored.symm⟩
      intro other member content found
      by_cases same : other = path
      · subst same
        rw [stored, ← own]
        exact found
      · exact agrees.cached other member content (others other member same content found)

theorem agrees_delete (agrees : Agrees paths s store) (path : String) :
    Agrees paths (s.delete path).1 (store.delete path) := by
  refine ⟨?_, ?_, ?_, agrees.idle⟩
  · intro other member
    show (s.remote.delete path).get other = _
    rw [Kv.get_delete, Kv.get_delete, agrees.remote other member]
  · intro other member content found
    have kept : (s.cache.unlink (cachePath path)).read (cachePath other) = some content := found
    rw [Disk.read_unlink] at kept
    split at kept
    · cases kept
    · rename_i different
      have other_ : other ≠ path := fun same => different (congrArg cachePath same)
      rw [Kv.get_delete, if_neg other_]
      exact agrees.cached other member content kept
  · intro other entry found
    have kept : (s.entries.delete (s.entryKey path)).get other = some entry := found
    rw [Kv.get_delete] at kept
    split at kept
    · cases kept
    · exact agrees.known other entry kept

theorem agrees_copy (apart : NamesApart paths) (agrees : Agrees paths s store)
    {source target : String} (from_ : source ∈ paths) (to_ : target ∈ paths) (moment : Moment)
    (careful : s.Careful moment (.copy source target)) :
    Agrees paths (s.copy moment source target).1.settle
      (plain store (.copy source target)).1 := by
  unfold copy plain
  cases hit : s.cached source with
  | some bytes =>
    simp only [Careful, hit] at careful
    have copied : ((s.cache.create (cachePath target)).1.read (cachePath source)).getD [] =
        bytes := by
      rw [Disk.read_create]
      by_cases same : source = target
      · rw [if_pos (same ▸ rfl), careful.1 same]
        rfl
      · rw [if_neg fun names => same (apart source from_ target to_ names)]
        exact congrArg (Option.getD · []) hit
    have stored := agrees.cached source from_ bytes hit
    obtain ⟨own, others, known⟩ :=
      cached_addToCache apart agrees.known moment to_ bytes careful.2
    simp only [copied, stored]
    refine agrees_upload bytes.length agrees to_ ?_ ?_ (updateEntry_known _ known) ?_ ?_
    · rw [queueUpload, updateEntry_remote]
      rfl
    · intro other member different content found
      rw [queueUpload, cached, updateEntry_cache] at found
      exact others other member different content found
    · rw [queueUpload, updateEntry_queue]
      show s.queue ++ [_] = [_]
      rw [agrees.idle]
      rfl
    · rw [queueUpload, cached, updateEntry_cache]
      exact own
  | none =>
    cases missed : s.remote.get source with
    | none =>
      have nothing : store.get source = none := missed ▸ (agrees.remote source from_).symm
      simp only [nothing]
      rw [settle_idle agrees.idle]
      exact agrees
    | some bytes =>
      have stored : store.get source = some bytes := missed ▸ (agrees.remote source from_).symm
      have idle : ({ s with remote := s.remote.put target bytes } : CachedStorage).queue = [] :=
        agrees.idle
      simp only [stored]
      rw [settle_idle idle]
      refine ⟨?_, ?_, agrees.known, agrees.idle⟩
      · intro other member
        show (s.remote.put target bytes).get other = _
        rw [Kv.get_put, Kv.get_put, agrees.remote other member]
      · intro other member content found
        rw [Kv.get_put]
        split
        · rename_i same
          subst same
          simp only [Careful, hit, missed] at careful
          have kept : s.cached other = some content := found
          rcases careful with blank | full
          · rw [blank] at kept
            cases kept
          · exact full.symm.trans kept
        · exact agrees.cached other member content found

theorem agrees_answer (agrees : Agrees paths s store) (inside : path ∈ paths) :
    s.size path = (store.get path).map List.length ∧ s.pathExists path = (store.get path).isSome := by
  unfold size pathExists isCached
  cases hit : s.cached path with
  | some bytes => simp [agrees.cached path inside bytes hit]
  | none => simp [agrees.remote path inside]

/-- Every operation keeps the remote and the cache with the store, and answers as it. -/
theorem agrees_apply (apart : NamesApart paths) (agrees : Agrees paths s store) (moment : Moment)
    {operation : Operation} (inside : operation.paths ⊆ paths)
    (careful : s.Careful moment operation) :
    Agrees paths (s.apply moment operation).1 (plain store operation).1 ∧
      (s.apply moment operation).2 = (plain store operation).2 := by
  unfold apply
  cases operation with
  | write path chunks =>
    exact ⟨agrees_write apart agrees (inside (List.mem_singleton_self path)) chunks, rfl⟩
  | read path =>
    obtain ⟨after, found⟩ :=
      agrees_read apart agrees (inside (List.mem_singleton_self path)) moment careful
    refine ⟨?_, congrArg Answer.bytes found⟩
    show Agrees paths (s.reader moment path).1.settle store
    rw [settle_idle after.idle]
    exact after
  | size path =>
    have answer := agrees_answer agrees (inside (List.mem_singleton_self path))
    refine ⟨?_, congrArg Answer.size answer.1⟩
    show Agrees paths s.settle store
    rw [settle_idle agrees.idle]
    exact agrees
  | pathExists path =>
    have answer := agrees_answer agrees (inside (List.mem_singleton_self path))
    refine ⟨?_, congrArg Answer.pathExists answer.2⟩
    show Agrees paths s.settle store
    rw [settle_idle agrees.idle]
    exact agrees
  | copy source target =>
    refine ⟨agrees_copy apart agrees (inside (by simp [Operation.paths]))
      (inside (by simp [Operation.paths])) moment careful, ?_⟩
    show Answer.done = (plain store (.copy source target)).2
    unfold plain
    dsimp only
    split <;> rfl
  | delete path =>
    have after := agrees_delete agrees path
    refine ⟨?_, rfl⟩
    show Agrees paths (s.delete path).1.settle (store.delete path)
    rw [settle_idle after.idle]
    exact after

theorem answers_agree (apart : NamesApart paths) (agrees : Agrees paths s store)
    {operations : List (Moment × Operation)}
    (inside : ∀ operation ∈ operations, operation.2.paths ⊆ paths)
    (careful : s.CarefulRun operations) :
    s.answers operations = plainAnswers store (operations.map Prod.snd) := by
  induction operations generalizing s store with
  | nil => rfl
  | cons first rest ih =>
    obtain ⟨own, later⟩ := careful
    obtain ⟨after, answer⟩ := agrees_apply apart agrees first.1 (inside first List.mem_cons_self) own
    rw [answers, List.map_cons, plainAnswers, answer,
      ih after (fun operation member => inside operation (List.mem_cons_of_mem _ member)) later]

theorem agrees_new (config : CacheConfig) (remote : Kv String Bytes) (paths : List String) :
    Agrees paths (new config remote) remote where
  remote _ _ := rfl
  cached := by
    intro path _ bytes found
    cases found
  known := by
    intro path entry found
    cases found
  idle := rfl

end CachedStorage

/-- For every configuration, content of the remote and sequence of operations, at any
times and in any order of the entries: where the paths have different cache files and
the steps are careful, the cached storage answers as a plain map. -/
theorem cached_answers_as_plain (config : CacheConfig) (remote : Kv String Bytes)
    (operations : List (Moment × Operation))
    (apart : NamesApart (operations.flatMap fun operation => operation.2.paths))
    (careful : (CachedStorage.new config remote).CarefulRun operations) :
    (CachedStorage.new config remote).answers operations =
      plainAnswers remote (operations.map Prod.snd) := by
  refine CachedStorage.answers_agree apart (CachedStorage.agrees_new config remote _) ?_ careful
  intro operation member path inside
  exact List.mem_flatMap.mpr ⟨operation, member, inside⟩

instance (paths : List String) : Decidable (NamesApart paths) :=
  inferInstanceAs (Decidable (∀ path ∈ paths, ∀ other ∈ paths,
    cachePath path = cachePath other → path = other))

theorem inPathOrder (entries : List (String × CacheEntry)) : (id entries).Perm entries := .refl _

/-- A moment at which the entries are iterated in the order of their paths. -/
def at_ (now : Nat) : Moment := ⟨now, id, inPathOrder⟩

/-- Ten bytes of cache, emptied after every upload. -/
def tenBytes : CacheConfig := ⟨10, 9, 1, 8, .lru, true⟩

/-- A path written, read back after its cache file was removed, copied and deleted. -/
theorem careful_operations_plain :
    (CachedStorage.new tenBytes .empty).answers
        [(at_ 1, .write "a/b" [[1], [2, 3]]), (at_ 2, .read "a/b"), (at_ 3, .copy "a/b" "c"),
          (at_ 4, .delete "a/b"), (at_ 5, .pathExists "a/b"), (at_ 6, .size "c")] =
      plainAnswers .empty [.write "a/b" [[1], [2, 3]], .read "a/b", .copy "a/b" "c",
        .delete "a/b", .pathExists "a/b", .size "c"] :=
  cached_answers_as_plain tenBytes .empty
    [(at_ 1, .write "a/b" [[1], [2, 3]]), (at_ 2, .read "a/b"), (at_ 3, .copy "a/b" "c"),
      (at_ 4, .delete "a/b"), (at_ 5, .pathExists "a/b"), (at_ 6, .size "c")]
    (by decide +kernel) (by decide +kernel)

/-- An object over the limit is evicted before it is opened, a file copied onto itself is
emptied, and a copy in the remote is hidden by the target's cache file. -/
example :
    (CachedStorage.new tenBytes (Kv.empty.put "p" (List.replicate 11 0))).answers
        [(at_ 1, .read "p")] = [.bytes none] ∧
    (CachedStorage.new { tenBytes with deleteAfterUpload := false } .empty).answers
        [(at_ 1, .write "p" [[1]]), (at_ 2, .copy "p" "p"), (at_ 3, .read "p")] =
      [.done, .done, .bytes (some [])] ∧
    (CachedStorage.new { tenBytes with deleteAfterUpload := false } (Kv.empty.put "p" [2])).answers
        [(at_ 1, .write "q" [[1]]), (at_ 2, .copy "p" "q"), (at_ 3, .read "q")] =
      [.done, .done, .bytes (some [1])] := by
  decide +kernel

/-- Two paths with one cache file: the second write is read under the first path. -/
theorem shared_name_read_back :
    (CachedStorage.new ⟨10, 9, 1, 8, .lru, false⟩ .empty).answers
        [(at_ 1, .write "a/b" [[1]]), (at_ 2, .write "a::b" [[2]]), (at_ 3, .read "a/b")] =
      [.done, .done, .bytes (some [2])] ∧
    (CachedStorage.new ⟨10, 9, 1, 8, .lru, false⟩ .empty).answers
        [(at_ 1, .write "a/b" [[1]]), (at_ 2, .write "a::b" [[2]]), (at_ 3, .read "a/b")] ≠
      plainAnswers .empty [.write "a/b" [[1]], .write "a::b" [[2]], .read "a/b"] := by
  constructor
  · decide +kernel
  · decide +kernel

end Roboflow.Storage
