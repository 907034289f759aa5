import Roboflow.Library.Machine
import Roboflow.Storage.PlainStore

/-! Writers, copies, reads and upload workers on one cached storage, in any order. A
worker takes a task, reads the cache file, writes the object, removes the file where
the configuration says so, and clears the flag, and anything may happen in between. -/
namespace Roboflow.Storage
open Library

/-! ### The system -/

/-- How far a worker is with its task. -/
inductive Stage where
  | taken
  | read (bytes : Bytes)
  | uploaded
  | done

structure Upload where
  task : UploadTask
  stage : Stage

/-- The storage with its open writers and busy workers, and what the property speaks of:
the bytes each writer was given, the bytes last written to a path from the drop of the
writer or the copy until the path is deleted or written again, and the paths with a
failed upload since. -/
structure System where
  storage : CachedStorage
  writers : Kv Nat CachedWriter
  running : Kv Nat Upload
  given : Kv Nat Bytes
  last : Kv String Bytes
  failed : List String

def System.new (config : CacheConfig) (remote : Kv String Bytes) : System :=
  ⟨.new config remote, .empty, .empty, .empty, .empty, []⟩

inductive Action where
  | openWriter (handle : Nat) (path : String)
  | write (handle : Nat) (bytes : Bytes)
  | flush (handle : Nat)
  | drop (handle : Nat)
  | copy (moment : Moment) (source target : String)
  | read (moment : Moment) (path : String)
  | delete (path : String)
  | takeTask (worker : Nat)
  | readLocal (worker : Nat)
  | writeRemote (worker : Nat) (succeeds : Bool)
  | removeLocal (worker : Nat)
  | clearPending (worker : Nat)

def Action.paths : Action → List String
  | .openWriter _ path => [path]
  | .copy _ source target => [source, target]
  | .read _ path => [path]
  | .delete path => [path]
  | _ => []

namespace System

def openWriter (s : System) (handle : Nat) (path : String) : Option System :=
  match s.writers.get handle with
  | some _ => none
  | none => some
    { s with
      storage := (s.storage.writer path).1
      writers := s.writers.put handle (s.storage.writer path).2
      given := s.given.put handle []
      last := s.last.delete path
      failed := s.failed.filter (· ≠ path) }

def write (s : System) (handle : Nat) (bytes : Bytes) : Option System :=
  (s.writers.get handle).map fun w =>
    { s with
      storage := (s.storage.write w bytes).1
      writers := s.writers.put handle (s.storage.write w bytes).2
      given := s.given.put handle ((s.given.get handle).getD [] ++ bytes) }

def flush (s : System) (handle : Nat) : Option System :=
  (s.writers.get handle).map fun w =>
    { s with
      storage := (s.storage.flush w).1
      writers := s.writers.put handle (s.storage.flush w).2 }

def drop (s : System) (handle : Nat) : Option System :=
  (s.writers.get handle).map fun w =>
    { s with
      storage := s.storage.drop w
      writers := s.writers.delete handle
      given := s.given.delete handle
      last := s.last.put w.remotePath ((s.given.get handle).getD []) }

/-- What a copy is to write: the source in the cache, or in the remote. -/
def source (s : System) (path : String) : Option Bytes :=
  (s.storage.cached path).or (s.storage.remote.get path)

def copy (s : System) (moment : Moment) (source target : String) : System :=
  match s.source source with
  | some bytes =>
    { s with
      storage := (s.storage.copy moment source target).1
      last := s.last.put target bytes
      failed := s.failed.filter (· ≠ target) }
  | none => { s with storage := (s.storage.copy moment source target).1 }

def read (s : System) (moment : Moment) (path : String) : System :=
  { s with storage := (s.storage.reader moment path).1 }

def delete (s : System) (path : String) : System :=
  { s with
    storage := (s.storage.delete path).1
    last := s.last.delete path }

/-- An idle worker receives the oldest task. -/
def takeTask (s : System) (worker : Nat) : Option System :=
  match s.storage.queue, s.running.get worker with
  | task :: rest, none =>
    if worker < s.storage.config.uploadConcurrency then
      some { s with
        storage := { s.storage with queue := rest }
        running := s.running.put worker ⟨task, .taken⟩ }
    else none
  | _, _ => none

/-- A worker goes on with its task. -/
def proceed (s : System) (worker : Nat) (task : UploadTask) (stage : Stage) : System :=
  { s with running := s.running.put worker ⟨task, stage⟩ }

/-- The upload of the task is given up. -/
def fail (s : System) (worker : Nat) (task : UploadTask) : System :=
  { s.proceed worker task .done with failed := task.remotePath :: s.failed }

def readLocal (s : System) (worker : Nat) : Option System :=
  match s.running.get worker with
  | some ⟨task, .taken⟩ =>
    match s.storage.readLocal task with
    | some bytes => some (s.proceed worker task (.read bytes))
    | none => some (s.fail worker task)
  | _ => none

def writeRemote (s : System) (worker : Nat) (succeeds : Bool) : Option System :=
  match s.running.get worker with
  | some ⟨task, .read bytes⟩ =>
    if succeeds then
      some { s.proceed worker task (if s.storage.config.deleteAfterUpload then .uploaded else .done)
        with storage := s.storage.writeRemote task bytes }
    else some (s.fail worker task)
  | _ => none

def removeLocal (s : System) (worker : Nat) : Option System :=
  match s.running.get worker with
  | some ⟨task, .uploaded⟩ =>
    some { s.proceed worker task .done with storage := s.storage.removeLocal task }
  | _ => none

def clearPending (s : System) (worker : Nat) : Option System :=
  match s.running.get worker with
  | some ⟨task, .done⟩ =>
    some { s with
      storage := s.storage.clearPending task
      running := s.running.delete worker }
  | _ => none

def step (s : System) : Action → Option System
  | .openWriter handle path => s.openWriter handle path
  | .write handle bytes => s.write handle bytes
  | .flush handle => s.flush handle
  | .drop handle => s.drop handle
  | .copy moment source target => some (s.copy moment source target)
  | .read moment path => some (s.read moment path)
  | .delete path => some (s.delete path)
  | .takeTask worker => s.takeTask worker
  | .readLocal worker => s.readLocal worker
  | .writeRemote worker succeeds => s.writeRemote worker succeeds
  | .removeLocal worker => s.removeLocal worker
  | .clearPending worker => s.clearPending worker

/-! ### What is promised, and what the steps are to keep to -/

/-- What was last written to a path is in its cache file or its object, and in its
object when no upload is left and none of the path failed. -/
def Kept (s : System) : Prop :=
  ∀ path bytes, s.last.get path = some bytes →
    (s.storage.cached path = some bytes ∨ s.storage.remote.get path = some bytes) ∧
    (s.storage.queue = [] → s.running.entries = [] → path ∉ s.failed →
      s.storage.remote.get path = some bytes)

/-- No writer has the path. -/
def Closed (s : System) (path : String) : Prop :=
  ∀ entry ∈ s.writers.entries, entry.2.remotePath ≠ path

/-- No upload of the path is queued and no worker is busy with one. -/
def Quiet (s : System) (path : String) : Prop :=
  (∀ task ∈ s.storage.queue, task.remotePath ≠ path) ∧
    ∀ entry ∈ s.running.entries, entry.2.task.remotePath ≠ path

/-- The path may be evicted: it is not being written or uploaded, and its last upload
did not fail. -/
def Evictable (s : System) (path : String) : Prop :=
  s.Closed path ∧ s.Quiet path ∧ path ∉ s.failed

instance (s : System) (path : String) : Decidable (s.Closed path) :=
  inferInstanceAs (Decidable (∀ entry ∈ s.writers.entries, entry.2.remotePath ≠ path))

instance (s : System) (path : String) : Decidable (s.Quiet path) :=
  inferInstanceAs (Decidable (_ ∧ _))

instance (s : System) (path : String) : Decidable (s.Evictable path) :=
  inferInstanceAs (Decidable (_ ∧ _ ∧ _))

/-- Nothing is written after the flush, a path is written or copied to only when it is
not being written or uploaded, a copy is onto another path, a path that is being written
is not deleted, and what an addition to the cache evicts may be evicted. -/
def Careful (s : System) : Action → Prop
  | .openWriter _ path => s.Closed path ∧ s.Quiet path
  | .write handle bytes =>
    bytes = [] ∨ ∀ entry ∈ s.writers.entries, entry.1 = handle → entry.2.flushed = false
  | .copy moment source target =>
    match s.storage.cached source, s.storage.remote.get source with
    | some bytes, _ => s.Closed target ∧ s.Quiet target ∧ source ≠ target ∧
        ∀ path ∈ s.storage.victims moment target bytes.length, path ≠ target ∧ s.Evictable path
    | none, some _ => s.Closed target ∧ s.Quiet target
    | none, none => True
  | .read moment path =>
    match s.storage.cached path, s.storage.remote.get path with
    | none, some bytes => ∀ other ∈ s.storage.victims moment path bytes.length,
        other ≠ path → s.Evictable other
    | _, _ => True
  | .delete path => s.Closed path
  | _ => True

instance (s : System) : (action : Action) → Decidable (s.Careful action)
  | .openWriter _ path => decidable_of_iff (s.Closed path ∧ s.Quiet path) .rfl
  | .write handle bytes =>
    decidable_of_iff (bytes = [] ∨
      ∀ entry ∈ s.writers.entries, entry.1 = handle → entry.2.flushed = false) .rfl
  | .copy moment source target =>
    match hit : s.storage.cached source, found : s.storage.remote.get source with
    | some bytes, _ =>
      decidable_of_iff (s.Closed target ∧ s.Quiet target ∧ source ≠ target ∧
        ∀ path ∈ s.storage.victims moment target bytes.length, path ≠ target ∧ s.Evictable path)
        (by simp [Careful, hit])
    | none, some _ =>
      decidable_of_iff (s.Closed target ∧ s.Quiet target) (by simp [Careful, hit, found])
    | none, none => .isTrue (by simp [Careful, hit, found])
  | .read moment path =>
    match hit : s.storage.cached path, found : s.storage.remote.get path with
    | none, some bytes =>
      decidable_of_iff (∀ other ∈ s.storage.victims moment path bytes.length,
        other ≠ path → s.Evictable other) (by simp [Careful, hit, found])
    | some _, _ => .isTrue (by simp [Careful, hit])
    | none, none => .isTrue (by simp [Careful, hit, found])
  | .delete path => decidable_of_iff (s.Closed path) .rfl
  | .flush _ => .isTrue trivial
  | .drop _ => .isTrue trivial
  | .takeTask _ => .isTrue trivial
  | .readLocal _ => .isTrue trivial
  | .writeRemote _ _ => .isTrue trivial
  | .removeLocal _ => .isTrue trivial
  | .clearPending _ => .isTrue trivial

/-- The steps on paths of a list. -/
def machine (paths : List String) : Machine System Action Unit where
  step s action := if action.paths ⊆ paths then (s.step action).map (·, ()) else none

/-- Its runs with careful steps only. -/
def carefulMachine (paths : List String) : Machine System Action Unit :=
  (machine paths).under Careful

end System

end Roboflow.Storage
