import Roboflow.Storage.WriteBehind

/-! Where the bytes of a path are while its upload waits, runs and ends: the invariant of
the careful runs, path by path. -/
namespace Roboflow.Storage
open Library

namespace System

/-! ### What is known of a path -/

def Waiting (s : System) (path : String) : Prop :=
  ∃ task ∈ s.storage.queue, task.remotePath = path

def AtStage (s : System) (path : String) (stage : Stage) : Prop :=
  ∃ worker task, s.running.get worker = some ⟨task, stage⟩ ∧ task.remotePath = path

variable {s s' : System} {path : String} {bytes : Bytes} {paths : List String}

theorem quiet_iff : s.Quiet path ↔ ¬s.Waiting path ∧ ∀ stage, ¬s.AtStage path stage := by
  constructor
  · rintro ⟨queue, running⟩
    refine ⟨?_, ?_⟩
    · rintro ⟨task, member, named⟩
      exact queue task member named
    · rintro stage ⟨worker, task, busy, named⟩
      exact running _ ((Kv.mem_entries _).mpr busy) named
  · rintro ⟨queue, running⟩
    refine ⟨fun task member named => queue ⟨task, member, named⟩, ?_⟩
    rintro ⟨worker, task, stage⟩ member named
    exact running stage ⟨worker, task, (Kv.mem_entries _).mp member, named⟩

/-- The bytes are in the cache file as long as an upload will read it, and in the object
once it was written; they are in one of them at any time, and in the cache file alone
only if an upload failed or is still to write the object. -/
structure Held (s : System) (path : String) (bytes : Bytes) : Prop where
  waiting : s.Waiting path → s.storage.cached path = some bytes
  taken : s.AtStage path .taken → s.storage.cached path = some bytes
  read : ∀ found, s.AtStage path (.read found) → found = bytes ∧ s.storage.cached path = some bytes
  uploaded : s.AtStage path .uploaded → s.storage.remote.get path = some bytes
  kept : s.storage.remote.get path = some bytes ∨
    s.storage.cached path = some bytes ∧ (path ∈ s.failed ∨ s.Waiting path ∨
      s.AtStage path .taken ∨ s.AtStage path (.read bytes))

/-- A step left a path alone. -/
structure Same (s s' : System) (path : String) : Prop where
  waiting : s'.Waiting path ↔ s.Waiting path
  stages : ∀ stage, s'.AtStage path stage ↔ s.AtStage path stage
  cached : s'.storage.cached path = s.storage.cached path
  remote : s'.storage.remote.get path = s.storage.remote.get path
  failed : path ∈ s'.failed ↔ path ∈ s.failed

theorem Same.quiet (same : Same s s' path) : s'.Quiet path ↔ s.Quiet path := by
  rw [quiet_iff, quiet_iff, same.waiting]
  simp only [same.stages]

theorem Held.same (held : s.Held path bytes) (same : Same s s' path) : s'.Held path bytes where
  waiting := by
    rw [same.waiting, same.cached]
    exact held.waiting
  taken := by
    rw [same.stages, same.cached]
    exact held.taken
  read := by
    intro found
    rw [same.stages, same.cached]
    exact held.read found
  uploaded := by
    rw [same.stages, same.remote]
    exact held.uploaded
  kept := by
    rw [same.remote, same.cached, same.failed, same.waiting, same.stages, same.stages]
    exact held.kept

/-- Without uploads of the path. -/
theorem held_of_quiet (quiet : s.Quiet path) (kept : s.storage.remote.get path = some bytes ∨
    s.storage.cached path = some bytes ∧ path ∈ s.failed) : s.Held path bytes := by
  obtain ⟨waiting, stages⟩ := quiet_iff.mp quiet
  refine ⟨fun given => absurd given waiting, fun given => absurd given (stages _),
    fun _ given => absurd given (stages _), fun given => absurd given (stages _), ?_⟩
  exact kept.imp_right fun ⟨cached, failed⟩ => ⟨cached, .inl failed⟩

theorem Held.remote (held : s.Held path bytes) (quiet : s.Quiet path) (unfailed : path ∉ s.failed) :
    s.storage.remote.get path = some bytes := by
  obtain ⟨waiting, stages⟩ := quiet_iff.mp quiet
  rcases held.kept with remote | ⟨-, failed | given | given | given⟩
  · exact remote
  · exact absurd failed unfailed
  · exact absurd given waiting
  · exact absurd given (stages _)
  · exact absurd given (stages _)

/-! ### Tasks -/

/-- Tasks name the files of their paths, and a path has one at a time. -/
structure Uploads (paths : List String) (s : System) : Prop where
  queued : ∀ task ∈ s.storage.queue, task.localPath = cachePath task.remotePath ∧
    task.remotePath ∈ paths
  running : ∀ worker upload, s.running.get worker = some upload →
    upload.task.localPath = cachePath upload.task.remotePath ∧ upload.task.remotePath ∈ paths
  once : (s.storage.queue.map (·.remotePath)).Nodup
  oneWorker : ∀ worker worker' upload upload', s.running.get worker = some upload →
    s.running.get worker' = some upload' → upload.task.remotePath = upload'.task.remotePath →
      worker = worker'
  apart : ∀ worker upload, s.running.get worker = some upload →
    ¬s.Waiting upload.task.remotePath

theorem Uploads.same (uploads : Uploads paths s) (queue : s'.storage.queue = s.storage.queue)
    (running : s'.running = s.running) : Uploads paths s' where
  queued := by
    rw [queue]
    exact uploads.queued
  running := by
    rw [running]
    exact uploads.running
  once := by
    rw [queue]
    exact uploads.once
  oneWorker := by
    rw [running]
    exact uploads.oneWorker
  apart := by
    unfold Waiting
    rw [queue, running]
    exact uploads.apart

/-- One more task, of a path without one. -/
theorem Uploads.enqueue (uploads : Uploads paths s) (inside : path ∈ paths)
    (quiet : s.Quiet path)
    (queue : s'.storage.queue = s.storage.queue ++ [⟨cachePath path, path, size⟩])
    (running : s'.running = s.running) : Uploads paths s' := by
  obtain ⟨waiting, stages⟩ := quiet_iff.mp quiet
  refine ⟨?_, ?_, ?_, ?_, ?_⟩
  · rw [queue]
    intro task member
    rcases List.mem_append.mp member with early | own
    · exact uploads.queued task early
    · rw [List.mem_singleton.mp own]
      exact ⟨rfl, inside⟩
  · rw [running]
    exact uploads.running
  · rw [queue, List.map_append, List.nodup_append]
    refine ⟨uploads.once, by simp, ?_⟩
    intro first early second own same
    obtain ⟨task, member, rfl⟩ := List.mem_map.mp early
    have named : second = path := by simpa using own
    exact waiting ⟨task, member, same.trans named⟩
  · rw [running]
    exact uploads.oneWorker
  · rw [running]
    rintro worker upload busy ⟨task, member, named⟩
    rw [queue] at member
    rcases List.mem_append.mp member with early | own
    · exact uploads.apart worker upload busy ⟨task, early, named⟩
    · rw [List.mem_singleton.mp own] at named
      exact stages upload.stage ⟨worker, upload.task, busy, named.symm⟩

theorem waiting_enqueue {other : String}
    (queue : s'.storage.queue = s.storage.queue ++ [⟨cachePath path, path, size⟩]) :
    s'.Waiting other ↔ s.Waiting other ∨ other = path := by
  unfold Waiting
  rw [queue]
  constructor
  · rintro ⟨task, member, named⟩
    rcases List.mem_append.mp member with early | own
    · exact .inl ⟨task, early, named⟩
    · rw [List.mem_singleton.mp own] at named
      exact .inr named.symm
  · rintro (⟨task, member, named⟩ | rfl)
    · exact ⟨task, List.mem_append_left _ member, named⟩
    · exact ⟨_, List.mem_append_right _ (List.mem_singleton_self _), rfl⟩

/-- The stages after a worker went on with its task. -/
theorem atStage_put {worker : Nat} {upload : Upload} (uploads : Uploads paths s)
    (busy : s.running.get worker = some upload) (stage : Stage)
    (running : s'.running = s.running.put worker ⟨upload.task, stage⟩) (other : String)
    (found : Stage) : s'.AtStage other found ↔
      if other = upload.task.remotePath then found = stage else s.AtStage other found := by
  unfold AtStage
  rw [running]
  constructor
  · rintro ⟨worker', task, busy', named⟩
    rw [Kv.get_put] at busy'
    split at busy'
    · cases busy'
      rw [if_pos named.symm]
    · rename_i different
      split
      · rename_i same
        exact absurd (uploads.oneWorker worker' worker _ _ busy' busy (named.trans same)) different
      · exact ⟨worker', task, busy', named⟩
  · split
    · rename_i same
      rintro rfl
      exact ⟨worker, upload.task, Kv.get_put_self .., same.symm⟩
    · rename_i different
      rintro ⟨worker', task, busy', named⟩
      refine ⟨worker', task, ?_, named⟩
      rw [Kv.get_put_ne _ ?_, busy']
      rintro rfl
      rw [busy] at busy'
      cases busy'
      exact different named.symm

theorem Uploads.proceed {worker : Nat} {upload : Upload} (uploads : Uploads paths s)
    (busy : s.running.get worker = some upload) (stage : Stage)
    (running : s'.running = s.running.put worker ⟨upload.task, stage⟩)
    (queue : s'.storage.queue = s.storage.queue) : Uploads paths s' := by
  have earlier : ∀ worker' upload', s'.running.get worker' = some upload' →
      ∃ upload'', s.running.get worker' = some upload'' ∧ upload''.task = upload'.task := by
    intro worker' upload' busy'
    rw [running, Kv.get_put] at busy'
    split at busy'
    · rename_i same
      cases busy'
      exact ⟨upload, same ▸ busy, rfl⟩
    · exact ⟨upload', busy', rfl⟩
  refine ⟨by rw [queue]; exact uploads.queued, ?_, by rw [queue]; exact uploads.once, ?_, ?_⟩
  · intro worker' upload' busy'
    obtain ⟨upload'', was, same⟩ := earlier worker' upload' busy'
    rw [← same]
    exact uploads.running worker' upload'' was
  · intro first second upload₁ upload₂ busy₁ busy₂ named
    obtain ⟨was₁, before₁, same₁⟩ := earlier first upload₁ busy₁
    obtain ⟨was₂, before₂, same₂⟩ := earlier second upload₂ busy₂
    exact uploads.oneWorker first second was₁ was₂ before₁ before₂ (by rw [same₁, same₂, named])
  · intro worker' upload' busy'
    obtain ⟨upload'', was, same⟩ := earlier worker' upload' busy'
    unfold Waiting
    rw [queue, ← same]
    exact uploads.apart worker' upload'' was

/-- What is to hold of a path that one worker has, at this stage. -/
def StageHolds (s : System) (path : String) (bytes : Bytes) : Stage → Prop
  | .taken => s.storage.cached path = some bytes
  | .read found => found = bytes ∧ s.storage.cached path = some bytes
  | .uploaded => s.storage.remote.get path = some bytes
  | .done => s.storage.remote.get path = some bytes ∨
      s.storage.cached path = some bytes ∧ path ∈ s.failed

theorem held_of_stage (stage : Stage) (waiting : ¬s.Waiting path)
    (only : ∀ found, s.AtStage path found ↔ found = stage)
    (holds : s.StageHolds path bytes stage) : s.Held path bytes := by
  refine ⟨fun given => absurd given waiting, ?_, ?_, ?_, ?_⟩
  · intro given
    rw [← (only _).mp given] at holds
    exact holds
  · intro found given
    rw [← (only _).mp given] at holds
    exact holds
  · intro given
    rw [← (only _).mp given] at holds
    exact holds
  · cases stage with
    | taken => exact .inr ⟨holds, .inr (.inr (.inl ((only _).mpr rfl)))⟩
    | read found => exact .inr ⟨holds.2, .inr (.inr (.inr ((only _).mpr (by rw [holds.1]))))⟩
    | uploaded => exact .inl holds
    | done => exact holds.imp_right fun ⟨cached, failed⟩ => ⟨cached, .inl failed⟩

/-- The worker that has a path is the only one. -/
theorem Uploads.only {worker : Nat} {upload : Upload} (uploads : Uploads paths s)
    (busy : s.running.get worker = some upload) (found : Stage) :
    s.AtStage upload.task.remotePath found ↔ found = upload.stage := by
  constructor
  · rintro ⟨worker', task, busy', named⟩
    have same := uploads.oneWorker worker' worker _ _ busy' busy named
    subst same
    rw [busy] at busy'
    cases busy'
    rfl
  · rintro rfl
    exact ⟨worker, upload.task, busy, rfl⟩

theorem Held.atStage {worker : Nat} {upload : Upload} (uploads : Uploads paths s)
    (busy : s.running.get worker = some upload) (held : s.Held upload.task.remotePath bytes) :
    s.StageHolds upload.task.remotePath bytes upload.stage := by
  have only := uploads.only busy
  have waiting := uploads.apart worker upload busy
  obtain ⟨task, stage⟩ := upload
  cases stage with
  | taken => exact held.taken ((only _).mpr rfl)
  | read found => exact held.read found ((only _).mpr rfl)
  | uploaded => exact held.uploaded ((only _).mpr rfl)
  | done =>
    rcases held.kept with remote | ⟨cached, failed | given | given | given⟩
    · exact .inl remote
    · exact .inr ⟨cached, failed⟩
    · exact absurd given waiting
    · cases (only _).mp given
    · cases (only _).mp given

/-! ### Writers -/

/-- An open writer has all it was given in its file and its buffer. Before its flush the
file is under its name and nothing uploads the path; after it, all is in the file and
the path is held. -/
structure Writing (paths : List String) (s : System) (w : CachedWriter) (given : Bytes) : Prop where
  localPath : w.localPath = cachePath w.remotePath
  inside : w.remotePath ∈ paths
  used : w.file < s.storage.cache.unused
  owner : ∀ name, s.storage.cache.names.get name = some w.file → name = w.localPath
  atEnd : s.storage.AtEnd w
  whole : s.storage.cache.content w.file ++ w.buffer = given
  stage : (w.flushed = false ∧ w.uploaded = false ∧
      s.storage.cache.names.get w.localPath = some w.file ∧ s.Quiet w.remotePath) ∨
    (w.flushed = true ∧ w.uploaded = true ∧ w.buffer = [] ∧ s.Held w.remotePath given)

/-- A step left a writer's file alone; its name only if the writer has been flushed. -/
structure FileKept (s s' : CachedStorage) (w : CachedWriter) : Prop where
  used : s.cache.unused ≤ s'.cache.unused
  owner : ∀ name, s'.cache.names.get name = some w.file → s.cache.names.get name = some w.file
  content : s'.cache.content w.file = s.cache.content w.file
  linked : w.flushed = false → s.cache.names.get w.localPath = some w.file →
    s'.cache.names.get w.localPath = some w.file

theorem Writing.kept {w : CachedWriter} {given : Bytes} (writing : Writing paths s w given)
    (file : FileKept s.storage s'.storage w)
    (quiet : w.flushed = false → s.Quiet w.remotePath → s'.Quiet w.remotePath)
    (held : s.Held w.remotePath given → s'.Held w.remotePath given) : Writing paths s' w given where
  localPath := writing.localPath
  inside := writing.inside
  used := Nat.lt_of_lt_of_le writing.used file.used
  owner name found := writing.owner name (file.owner name found)
  atEnd := by
    unfold CachedStorage.AtEnd
    rw [file.content]
    exact writing.atEnd
  whole := by
    rw [file.content]
    exact writing.whole
  stage := by
    rcases writing.stage with ⟨unflushed, fresh, linked, isQuiet⟩ | ⟨flushed, uploaded, blank, isHeld⟩
    · exact .inl ⟨unflushed, fresh, file.linked unflushed linked, quiet unflushed isQuiet⟩
    · exact .inr ⟨flushed, uploaded, blank, held isHeld⟩

namespace FileKept

variable {s s' s'' : CachedStorage} {w : CachedWriter}

theorem trans (first : FileKept s s' w) (second : FileKept s' s'' w) : FileKept s s'' w where
  used := first.used.trans second.used
  owner name found := first.owner name (second.owner name found)
  content := second.content.trans first.content
  linked unflushed found := second.linked unflushed (first.linked unflushed found)

theorem of_cache (same : s'.cache = s.cache) : FileKept s s' w := by
  refine ⟨?_, ?_, ?_, ?_⟩
  · rw [same]
  · rw [same]
    exact fun _ found => found
  · rw [same]
  · rw [same]
    exact fun _ found => found

/-- Names are removed, and not the one of a writer before its flush. -/
theorem unlinked (names : List String) (content : s'.cache.content w.file = s.cache.content w.file)
    (unused : s'.cache.unused = s.cache.unused)
    (gone : ∀ name, s'.cache.names.get name =
      if name ∈ names then none else s.cache.names.get name)
    (spared : w.flushed = false → w.localPath ∉ names) : FileKept s s' w where
  used := unused.ge
  owner := by
    intro name found
    rw [gone] at found
    split at found
    · cases found
    · exact found
  content := content
  linked := by
    intro unflushed linked
    rw [gone, if_neg (spared unflushed)]
    exact linked

/-- A name is opened for writing, and it is not the one of the writer's file. -/
theorem created {name : String} (used : w.file < s.cache.unused)
    (other : s.cache.names.get name ≠ some w.file)
    (created : s'.cache = (s.cache.create name).1) : FileKept s s' w where
  used := by
    rw [created]
    exact (Disk.create_unused ..).1
  owner := by
    intro name' found
    rw [created, Disk.create_names] at found
    split at found
    · exact absurd (Option.some.inj found) (Disk.create_ne used other)
    · exact found
  content := by
    rw [created]
    exact Disk.create_content_ne (Disk.create_ne used other).symm
  linked := by
    intro _ linked
    rw [created, Disk.create_names, if_neg ?_]
    · exact linked
    · rintro rfl
      exact other linked

theorem placed {path : String} (used : w.file < s.cache.unused)
    (other : s.cache.names.get (cachePath path) ≠ some w.file) (bytes : Bytes) :
    FileKept s (s.place path bytes) w := by
  have opened : FileKept s { s with cache := (s.cache.create (cachePath path)).1 } w :=
    created used other rfl
  refine opened.trans ⟨?_, ?_, ?_, ?_⟩
  · rw [CachedStorage.place_eq]
    exact Nat.le_refl _
  · rw [CachedStorage.place_eq]
    exact fun _ found => found
  · rw [CachedStorage.place_eq]
    exact Disk.content_set_ne (Disk.create_ne used other).symm
  · rw [CachedStorage.place_eq]
    exact fun _ found => found

theorem added (moment : Moment) (path : String) (size : Nat)
    (spared : w.flushed = false → w.localPath ∉ (s.victims moment path size).map cachePath) :
    FileKept s (s.addToCache moment path size) w :=
  unlinked _ (content_foldl_unlink ..) (unused_foldl_unlink ..) (names_foldl_unlink _ _) spared

theorem moved {writer writer' : CachedWriter} (step : CachedStorage.Moved bytes s writer s' writer')
    (other : w.file ≠ writer.file) : FileKept s s' w where
  used := step.unused.ge
  owner := by
    rw [step.names]
    exact fun _ found => found
  content := step.others _ other
  linked := by
    rw [step.names]
    exact fun _ found => found

/-- A writer with nothing to write moves nothing. -/
theorem unmoved {writer writer' : CachedWriter} (step : CachedStorage.Moved [] s writer s' writer') :
    FileKept s s' w := by
  by_cases own : w.file = writer.file
  · refine ⟨step.unused.ge, ?_, ?_, ?_⟩
    · rw [step.names]
      exact fun _ found => found
    · rw [own, step.own, List.append_nil]
    · rw [step.names]
      exact fun _ found => found
  · exact moved step own

end FileKept

/-! ### The invariant -/

/-- A path has one writer at most, and until the writer is dropped nothing counts as
written; what was written last is held. -/
structure Sound (paths : List String) (s : System) (path : String) : Prop where
  writing : ∀ handle w, s.writers.get handle = some w → w.remotePath = path →
    ∃ given, s.given.get handle = some given ∧ Writing paths s w given
  oneWriter : ∀ handle handle' w w', s.writers.get handle = some w →
    s.writers.get handle' = some w' → w.remotePath = path → w'.remotePath = path → handle = handle'
  unsettled : ∀ handle w, s.writers.get handle = some w → w.remotePath = path →
    s.last.get path = none
  held : ∀ bytes, s.last.get path = some bytes → path ∈ paths ∧ s.Held path bytes

structure Consistent (paths : List String) (s : System) : Prop where
  known : ∀ path entry, s.storage.entries.get path = some entry → path ∈ paths
  uploads : Uploads paths s
  sound : ∀ path, Sound paths s path

/-- A step left the files of a path's writers, and its bytes where they are to be. -/
structure PathKept (s s' : System) (path : String) : Prop where
  files : ∀ handle w, s.writers.get handle = some w → w.remotePath = path →
    FileKept s.storage s'.storage w
  quiet : s.Quiet path → s'.Quiet path
  held : ∀ bytes, s.Held path bytes → s'.Held path bytes

theorem Same.pathKept (same : Same s s' path)
    (files : ∀ handle w, s.writers.get handle = some w → w.remotePath = path →
      FileKept s.storage s'.storage w) : PathKept s s' path :=
  ⟨files, same.quiet.mpr, fun _ held => held.same same⟩

theorem Sound.kept (sound : Sound paths s path)
    (writers : ∀ handle w, s'.writers.get handle = some w → w.remotePath = path →
      s.writers.get handle = some w ∧ s'.given.get handle = s.given.get handle)
    (last : s'.last.get path = s.last.get path)
    (kept : path ∈ paths → PathKept s s' path) : Sound paths s' path where
  writing := by
    intro handle w found named
    obtain ⟨was, sameGiven⟩ := writers handle w found named
    obtain ⟨given, gave, writing⟩ := sound.writing handle w was named
    have preserved := kept (named ▸ writing.inside)
    refine ⟨given, sameGiven.trans gave, writing.kept (preserved.files handle w was named) ?_ ?_⟩
    · rw [named]
      exact fun _ => preserved.quiet
    · rw [named]
      exact preserved.held given
  oneWriter := by
    intro handle handle' w w' found found' named named'
    exact sound.oneWriter handle handle' w w' (writers handle w found named).1
      (writers handle' w' found' named').1 named named'
  unsettled := by
    intro handle w found named
    rw [last]
    exact sound.unsettled handle w (writers handle w found named).1 named
  held := by
    intro bytes written
    obtain ⟨inside, held⟩ := sound.held bytes (last ▸ written)
    exact ⟨inside, (kept inside).held bytes held⟩

/-- A path that is not being written, and of which nothing was written or all is held. -/
theorem sound_of_closed (closed : s.Closed path)
    (held : ∀ bytes, s.last.get path = some bytes → path ∈ paths ∧ s.Held path bytes) :
    Sound paths s path where
  writing _ _ found named := absurd named (closed _ ((Kv.mem_entries _).mpr found))
  oneWriter _ _ _ _ found _ named := absurd named (closed _ ((Kv.mem_entries _).mpr found))
  unsettled _ _ found named := absurd named (closed _ ((Kv.mem_entries _).mpr found))
  held := held

theorem Consistent.kept (consistent : Consistent paths s) : s.Kept := by
  intro path bytes written
  have held := ((consistent.sound path).held bytes written).2
  refine ⟨held.kept.symm.imp_left And.left, ?_⟩
  intro queue running unfailed
  have notWaiting : ¬s.Waiting path := by
    rintro ⟨task, member, -⟩
    rw [queue] at member
    cases member
  have noStage : ∀ stage, ¬s.AtStage path stage := by
    rintro stage ⟨worker, task, busy, -⟩
    have member := (Kv.mem_entries _).mpr busy
    rw [running] at member
    cases member
  exact held.remote (quiet_iff.mpr ⟨notWaiting, noStage⟩) unfailed

end System

end Roboflow.Storage
