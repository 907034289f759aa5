import Roboflow.Library.Disk
import Roboflow.Library.UnixPath

/-! The cached storage backend, `cached/storage.rs` and `cached/upload.rs`. Paths are
texts and the cache directory is a directory of files; the map of entries takes texts of
the same components for one path. The clock's answer and the order in which that map is
iterated come with the operation. The remote is a map from paths to objects whose writers
put the object at once, so that a failed upload leaves it as it was. -/
namespace Roboflow.Storage
open Library

abbrev Bytes := List UInt8

inductive EvictionPolicy where
  | lru
  | lfu
  | fifo
  deriving DecidableEq

/-- The configuration, with the size that an eviction ends at: nine tenths of the limit,
computed in floating point. -/
structure CacheConfig where
  maxCacheSize : Nat
  targetSize : Nat
  uploadConcurrency : Nat
  uploadBufferSize : Nat
  evictionPolicy : EvictionPolicy
  deleteAfterUpload : Bool

structure CacheEntry where
  size : Nat
  lastAccessed : Nat
  createdAt : Nat
  accessCount : Nat
  pendingUpload : Bool

def CacheEntry.new (size now : Nat) : CacheEntry := ⟨size, now, now, 1, false⟩

def CacheEntry.recordAccess (entry : CacheEntry) (now : Nat) : CacheEntry :=
  { entry with lastAccessed := now, accessCount := entry.accessCount + 1 }

structure UploadTask where
  localPath : String
  remotePath : String
  size : Nat

/-- What an operation finds around it: the time, and an order of the entries. -/
structure Moment where
  now : Nat
  order : List (String × CacheEntry) → List (String × CacheEntry)
  perm : ∀ entries, (order entries).Perm entries

/-- The storage with its cache directory, its remote and the upload channel, oldest task
first. -/
structure CachedStorage where
  config : CacheConfig
  cache : Disk String UInt8
  remote : Kv String Bytes
  entries : Kv String CacheEntry
  cacheSize : Nat
  queue : List UploadTask

/-- The file name in the cache directory. -/
def cachePath (path : String) : String :=
  String.ofList (path.toList.flatMap fun c => if c = '/' ∨ c = '\\' then [':', ':'] else [c])

/-! ### Eviction -/

/-- What the policy takes the least of. -/
def EvictionPolicy.key (policy : EvictionPolicy) (entry : CacheEntry) : Nat :=
  match policy with
  | .lru => entry.lastAccessed
  | .lfu => entry.accessCount
  | .fifo => entry.createdAt

def evictionCandidate (config : CacheConfig) (moment : Moment) (entries : Kv String CacheEntry) :
    Option (String × CacheEntry) :=
  ((moment.order entries.entries).filter fun entry => !entry.2.pendingUpload).argmin
    fun entry => config.evictionPolicy.key entry.2

/-- The loop of `evict`: the paths it takes, the size and the entries it leaves. Every
pass but the last removes an entry; its size has been added before. -/
def evictions (config : CacheConfig) (moment : Moment) :
    Nat → Nat → Kv String CacheEntry → List String × Nat × Kv String CacheEntry
  | 0, size, entries => ([], size, entries)
  | fuel + 1, size, entries =>
    if size ≤ config.targetSize then ([], size, entries)
    else
      match evictionCandidate config moment entries with
      | none => ([], size, entries)
      | some (path, entry) =>
        let (rest, left) := evictions config moment fuel (size - entry.size) (entries.delete path)
        (path :: rest, left)

namespace CachedStorage

/-- `new`, on an empty cache directory. -/
def new (config : CacheConfig) (remote : Kv String Bytes) : CachedStorage where
  config := config
  cache := .empty
  remote := remote
  entries := .empty
  cacheSize := 0
  queue := []

/-- The content of a path's cache file. -/
def cached (s : CachedStorage) (path : String) : Option Bytes := s.cache.read (cachePath path)

def isCached (s : CachedStorage) (path : String) : Bool := (s.cached path).isSome

/-- The key under which the map of entries has a path, as `PathBuf` compares keys: that of an
entry of the same components, which a later insertion keeps, or the path. -/
def entryKey (s : CachedStorage) (path : String) : String :=
  ((s.entries.entries.find? fun entry =>
    UnixPath.components entry.1.toList = UnixPath.components path.toList).map Prod.fst).getD path

/-- The entry of a path. -/
def entry (s : CachedStorage) (path : String) : Option CacheEntry := s.entries.get (s.entryKey path)

/-- The paths that `add_to_cache` evicts, if the new size is over the limit, with what is
left. -/
def evictionsOfAdding (s : CachedStorage) (moment : Moment) (path : String) (size : Nat) :
    List String × Nat × Kv String CacheEntry :=
  let entries := s.entries.put (s.entryKey path) (.new size moment.now)
  let total := s.cacheSize + size
  if s.config.maxCacheSize < total then
    evictions s.config moment (entries.entries.length + 1) total entries
  else ([], total, entries)

def addToCache (s : CachedStorage) (moment : Moment) (path : String) (size : Nat) :
    CachedStorage :=
  let (paths, total, entries) := s.evictionsOfAdding moment path size
  { s with
    cache := paths.foldl (fun disk path => disk.unlink (cachePath path)) s.cache
    cacheSize := total
    entries := entries }

def updateEntry (s : CachedStorage) (path : String) (f : CacheEntry → CacheEntry) :
    CachedStorage :=
  match s.entry path with
  | some entry => { s with entries := s.entries.put (s.entryKey path) (f entry) }
  | none => s

def recordAccess (s : CachedStorage) (moment : Moment) (path : String) : CachedStorage :=
  s.updateEntry path (·.recordAccess moment.now)

def queueUpload (s : CachedStorage) (task : UploadTask) : CachedStorage :=
  ({ s with queue := s.queue ++ [task] }).updateEntry task.remotePath
    fun entry => { entry with pendingUpload := true }

/-! ### The operations -/

/-- `reader` and reading to the end; on a miss the object is brought into the cache. -/
def reader (s : CachedStorage) (moment : Moment) (path : String) : CachedStorage × Option Bytes :=
  match s.cached path with
  | some bytes => (s.recordAccess moment path, some bytes)
  | none =>
    match s.remote.get path with
    | none => (s, none)
    | some bytes =>
      let (disk, file) := s.cache.create (cachePath path)
      let s := ({ s with cache := disk.writeAt file 0 bytes }).addToCache moment path bytes.length
      (s, s.cached path)

def pathExists (s : CachedStorage) (path : String) : Bool :=
  s.isCached path || (s.remote.get path).isSome

def size (s : CachedStorage) (path : String) : Option Nat :=
  match s.cached path with
  | some bytes => some bytes.length
  | none => (s.remote.get path).map List.length

/-- `delete`, and whether the remote had the object. -/
def delete (s : CachedStorage) (path : String) : CachedStorage × Bool :=
  ({ s with
    cacheSize := match s.entry path with
      | some entry => s.cacheSize - entry.size
      | none => s.cacheSize
    entries := s.entries.delete (s.entryKey path)
    cache := s.cache.unlink (cachePath path)
    remote := s.remote.delete path }, (s.remote.get path).isSome)

/-- `copy`, and whether it succeeded. The copy in the cache truncates its destination
before it reads its source. -/
def copy (s : CachedStorage) (moment : Moment) (source target : String) : CachedStorage × Bool :=
  match s.cached source with
  | some _ =>
    let (disk, file) := s.cache.create (cachePath target)
    let bytes := (disk.read (cachePath source)).getD []
    let s := ({ s with cache := disk.writeAt file 0 bytes }).addToCache moment target bytes.length
    (s.queueUpload ⟨cachePath target, target, bytes.length⟩, true)
  | none =>
    match s.remote.get source with
    | some bytes => ({ s with remote := s.remote.put target bytes }, true)
    | none => (s, false)

end CachedStorage

/-! ### Writers -/

/-- A writer: its file with the position in it, and what is buffered before it. -/
structure CachedWriter where
  file : Nat
  offset : Nat
  buffer : Bytes
  localPath : String
  remotePath : String
  uploaded : Bool
  flushed : Bool

/-- The capacity of the `BufWriter`. -/
def bufferCapacity : Nat := 64 * 1024

namespace CachedStorage

/-- `writer`. -/
def writer (s : CachedStorage) (path : String) : CachedStorage × CachedWriter :=
  let (disk, file) := s.cache.create (cachePath path)
  ({ s with cache := disk }, ⟨file, 0, [], cachePath path, path, false, false⟩)

/-- Bytes straight to the file. -/
def writeThrough (s : CachedStorage) (w : CachedWriter) (bytes : Bytes) :
    CachedStorage × CachedWriter :=
  ({ s with cache := s.cache.writeAt w.file w.offset bytes },
    { w with offset := w.offset + bytes.length })

/-- The flush of the `BufWriter`. -/
def flushLocal (s : CachedStorage) (w : CachedWriter) : CachedStorage × CachedWriter :=
  let (s, w) := s.writeThrough w w.buffer
  (s, { w with buffer := [] })

/-- `BufWriter::write`: what does not fit empties the buffer first, and what is as large
as the buffer goes past it. -/
def bufferedWrite (s : CachedStorage) (w : CachedWriter) (bytes : Bytes) :
    CachedStorage × CachedWriter :=
  let (s, w) := if bufferCapacity < w.buffer.length + bytes.length then s.flushLocal w else (s, w)
  if bufferCapacity ≤ bytes.length then s.writeThrough w bytes
  else (s, { w with buffer := w.buffer ++ bytes })

def write (s : CachedStorage) (w : CachedWriter) (bytes : Bytes) : CachedStorage × CachedWriter :=
  let (s, w) := s.bufferedWrite w bytes
  if s.config.uploadBufferSize < w.buffer.length then s.flushLocal w else (s, w)

/-- `CachedWriter::queue_upload`, which marks no entry. -/
def queueWriterUpload (s : CachedStorage) (w : CachedWriter) : CachedStorage × CachedWriter :=
  if w.uploaded then (s, w)
  else
    let (s, w) := s.flushLocal w
    let size := ((s.cache.read w.localPath).map List.length).getD 0
    ({ s with queue := s.queue ++ [⟨w.localPath, w.remotePath, size⟩] }, { w with uploaded := true })

def flush (s : CachedStorage) (w : CachedWriter) : CachedStorage × CachedWriter :=
  let (s, w) := s.flushLocal w
  if w.flushed then (s, w)
  else
    let (s, w) := s.queueWriterUpload w
    (s, { w with flushed := true })

/-- `drop`, and then the one of the `BufWriter`. -/
def drop (s : CachedStorage) (w : CachedWriter) : CachedStorage :=
  let (s, w) := if w.flushed then (s, w) else s.flush w
  let (s, w) := s.queueWriterUpload w
  (s.flushLocal w).1

/-! ### Uploads -/

def readLocal (s : CachedStorage) (task : UploadTask) : Option Bytes := s.cache.read task.localPath

def writeRemote (s : CachedStorage) (task : UploadTask) (bytes : Bytes) : CachedStorage :=
  { s with remote := s.remote.put task.remotePath bytes }

def removeLocal (s : CachedStorage) (task : UploadTask) : CachedStorage :=
  { s with cache := s.cache.unlink task.localPath }

def clearPending (s : CachedStorage) (task : UploadTask) : CachedStorage :=
  s.updateEntry task.remotePath fun entry => { entry with pendingUpload := false }

/-- A worker on one task, nothing in between: `upload_single_file` and the flag. -/
def upload (s : CachedStorage) (task : UploadTask) : CachedStorage :=
  let uploaded := match s.readLocal task with
    | some bytes =>
      let s := s.writeRemote task bytes
      if s.config.deleteAfterUpload then s.removeLocal task else s
    | none => s
  uploaded.clearPending task

end CachedStorage

end Roboflow.Storage
