import Roboflow.Storage.HeldBytes

/-! No careful run of writers, copies, reads and workers loses what was written. -/
namespace Roboflow.Storage
open Library

namespace System

variable {s s' : System} {path : String} {bytes : Bytes} {paths : List String} {worker : Nat}
  {upload : Upload}

/-! ### Workers -/

/-- A step of a worker concerns no writer. -/
theorem Consistent.unwritten (consistent : Consistent paths s) (writers : s'.writers = s.writers)
    (given : s'.given = s.given) (last : s'.last = s.last)
    (known : ∀ path entry, s'.storage.entries.get path = some entry → path ∈ paths)
    (uploads : Uploads paths s') (kept : ∀ path ∈ paths, PathKept s s' path) :
    Consistent paths s' := by
  refine ⟨known, uploads, ?_⟩
  intro path
  refine (consistent.sound path).kept ?_ (by rw [last]) (kept path)
  intro handle w found _
  exact ⟨writers ▸ found, by rw [given]⟩

/-- A worker goes on with its task, and what its new stage asks for is there. -/
theorem Consistent.proceed (consistent : Consistent paths s)
    (busy : s.running.get worker = some upload) (stage : Stage)
    (running : s'.running = s.running.put worker ⟨upload.task, stage⟩)
    (writers : s'.writers = s.writers) (given : s'.given = s.given) (last : s'.last = s.last)
    (entries : s'.storage.entries = s.storage.entries)
    (queue : s'.storage.queue = s.storage.queue)
    (files : ∀ handle w, s.writers.get handle = some w → FileKept s.storage s'.storage w)
    (others : ∀ path ∈ paths, path ≠ upload.task.remotePath →
      s'.storage.cached path = s.storage.cached path ∧
        s'.storage.remote.get path = s.storage.remote.get path ∧
        (path ∈ s'.failed ↔ path ∈ s.failed))
    (own : ∀ bytes, s.StageHolds upload.task.remotePath bytes upload.stage →
      s'.StageHolds upload.task.remotePath bytes stage) : Consistent paths s' := by
  have uploads := consistent.uploads
  have stages := atStage_put uploads busy stage running
  have waiting : ∀ path, s'.Waiting path ↔ s.Waiting path := by
    intro path
    unfold Waiting
    rw [queue]
  refine consistent.unwritten writers given last (entries ▸ consistent.known)
    (uploads.proceed busy stage running queue) ?_
  intro path inside
  by_cases mine : path = upload.task.remotePath
  · subst mine
    refine ⟨fun handle w found _ => files handle w found, ?_, ?_⟩
    · intro quiet
      exact absurd ((uploads.only busy _).mpr rfl) ((quiet_iff.mp quiet).2 upload.stage)
    · intro bytes held
      refine held_of_stage stage ?_ ?_ (own bytes (held.atStage uploads busy))
      · rw [waiting]
        exact uploads.apart worker upload busy
      · intro found
        rw [stages, if_pos rfl]
  · obtain ⟨cached, remote, failed⟩ := others path inside mine
    have same : Same s s' path := by
      refine ⟨waiting path, ?_, cached, remote, failed⟩
      intro found
      rw [stages, if_neg mine]
    exact same.pathKept fun handle w found _ => files handle w found

theorem consistent_readLocal (consistent : Consistent paths s)
    (moved : s.readLocal worker = some s') : Consistent paths s' := by
  unfold readLocal at moved
  split at moved
  · rename_i task busy
    have named := (consistent.uploads.running worker _ busy).1
    have read : s.storage.readLocal task = s.storage.cached task.remotePath := by
      rw [CachedStorage.readLocal, named]
      rfl
    split at moved
    · rename_i bytes found
      cases moved
      refine consistent.proceed busy (.read bytes) rfl rfl rfl rfl rfl rfl
        (fun _ _ _ => .of_cache rfl) (fun _ _ _ => ⟨rfl, rfl, .rfl⟩) ?_
      intro bytes' holds
      have same : s.storage.cached task.remotePath = some bytes' := holds
      rw [read, same] at found
      exact ⟨(Option.some.inj found).symm, same⟩
    · rename_i missing
      cases moved
      refine consistent.proceed busy .done rfl rfl rfl rfl rfl rfl
        (fun _ _ _ => .of_cache rfl) ?_ ?_
      · intro path _ other
        exact ⟨rfl, rfl, by simp [fail, other]⟩
      · intro bytes holds
        have same : s.storage.cached task.remotePath = some bytes := holds
        rw [read, same] at missing
        cases missing
  · cases moved

theorem consistent_writeRemote (consistent : Consistent paths s) {succeeds : Bool}
    (moved : s.writeRemote worker succeeds = some s') : Consistent paths s' := by
  unfold writeRemote at moved
  split at moved
  · rename_i task bytes busy
    split at moved
    · cases moved
      refine consistent.proceed busy _ rfl rfl rfl rfl rfl rfl (fun _ _ _ => .of_cache rfl) ?_ ?_
      · intro path _ other
        exact ⟨rfl, Kv.get_put_ne _ other _, .rfl⟩
      · intro bytes' holds
        obtain ⟨rfl, -⟩ : bytes = bytes' ∧ _ := holds
        have written : (s.storage.remote.put task.remotePath bytes).get task.remotePath =
            some bytes := Kv.get_put_self ..
        split
        · exact written
        · exact .inl written
    · cases moved
      refine consistent.proceed busy .done rfl rfl rfl rfl rfl rfl
        (fun _ _ _ => .of_cache rfl) ?_ ?_
      · intro path _ other
        exact ⟨rfl, rfl, by simp [fail, other]⟩
      · intro bytes' holds
        obtain ⟨-, cached⟩ : bytes = bytes' ∧ _ := holds
        exact .inr ⟨cached, List.mem_cons_self⟩
  · cases moved

/-- The name of another path is not a writer's. -/
theorem Writing.apart {w : CachedWriter} {given : Bytes} (apart : NamesApart paths)
    (writing : Writing paths s w given) (inside : path ∈ paths) (other : w.remotePath ≠ path) :
    w.localPath ≠ cachePath path ∧ s.storage.cache.names.get (cachePath path) ≠ some w.file := by
  have names : w.localPath ≠ cachePath path := by
    rw [writing.localPath]
    exact fun same => other (apart _ writing.inside path inside same)
  refine ⟨names, ?_⟩
  intro found
  exact names (writing.owner _ found).symm

theorem consistent_removeLocal (apart : NamesApart paths) (consistent : Consistent paths s)
    (moved : s.removeLocal worker = some s') : Consistent paths s' := by
  unfold removeLocal at moved
  split at moved
  · rename_i task busy
    obtain ⟨named, inside⟩ := consistent.uploads.running worker _ busy
    have gone := s.storage.cache.unlink_names task.localPath
    cases moved
    refine consistent.proceed busy .done rfl rfl rfl rfl rfl rfl ?_ ?_ ?_
    · intro handle w found
      obtain ⟨given, -, writing⟩ := (consistent.sound _).writing handle w found rfl
      refine FileKept.unlinked [task.localPath] rfl rfl ?_ ?_
      · intro name
        simp only [List.mem_singleton]
        exact gone name
      · intro unflushed
        rw [List.mem_singleton, named]
        rcases writing.stage with ⟨-, -, -, quiet⟩ | ⟨flushed, -⟩
        · refine (writing.apart apart inside ?_).1
          intro same
          exact quiet.2 _ ((Kv.mem_entries _).mpr busy) same.symm
        · rw [flushed] at unflushed
          cases unflushed
    · intro path member other
      refine ⟨?_, rfl, .rfl⟩
      show (s.storage.cache.unlink task.localPath).read (cachePath path) = _
      rw [Disk.read_unlink, named, if_neg fun same => other (apart path member _ inside same)]
      rfl
    · intro bytes holds
      exact .inl holds
  · cases moved

theorem Uploads.took {task : UploadTask} {rest : List UploadTask} (uploads : Uploads paths s)
    (s' : System) (queue : s.storage.queue = task :: rest) (idle : s.running.get worker = none)
    (left : s'.storage.queue = rest)
    (running : s'.running = s.running.put worker ⟨task, .taken⟩) :
    Uploads paths s' ∧ (∀ other, s'.Waiting other ↔ other ≠ task.remotePath ∧ s.Waiting other) ∧
      ∀ other found, s'.AtStage other found ↔
        if other = task.remotePath then found = .taken else s.AtStage other found := by
  have listed : s.Waiting task.remotePath := ⟨task, queue ▸ List.mem_cons_self, rfl⟩
  have once := uploads.once
  rw [queue, List.map_cons, List.nodup_cons] at once
  have waiting : ∀ other, s'.Waiting other ↔ other ≠ task.remotePath ∧ s.Waiting other := by
    intro other
    unfold Waiting
    rw [left, queue]
    constructor
    · rintro ⟨later, member, rfl⟩
      refine ⟨?_, later, List.mem_cons_of_mem _ member, rfl⟩
      intro same
      exact once.1 (same ▸ List.mem_map_of_mem member)
    · rintro ⟨different, later, member, named⟩
      rcases List.mem_cons.mp member with rfl | kept
      · exact absurd named.symm different
      · exact ⟨later, kept, named⟩
  refine ⟨⟨?_, ?_, ?_, ?_, ?_⟩, waiting, ?_⟩
  · intro later member
    rw [left] at member
    exact uploads.queued later (queue ▸ List.mem_cons_of_mem _ member)
  · intro worker' upload busy
    rw [running, Kv.get_put] at busy
    split at busy
    · cases busy
      exact uploads.queued task (queue ▸ List.mem_cons_self)
    · exact uploads.running worker' upload busy
  · rw [left]
    exact once.2
  · intro first second upload upload' busy busy' named
    rw [running, Kv.get_put] at busy busy'
    split at busy <;> split at busy'
    · simp_all
    · cases busy
      exact absurd (named ▸ listed) (uploads.apart second upload' busy')
    · cases busy'
      exact absurd (named ▸ listed) (uploads.apart first upload busy)
    · exact uploads.oneWorker first second upload upload' busy busy' named
  · intro worker' upload busy
    rw [waiting]
    rw [running, Kv.get_put] at busy
    split at busy
    · cases busy
      exact fun both => both.1 rfl
    · exact fun both => uploads.apart worker' upload busy both.2
  · intro other found
    unfold AtStage
    rw [running]
    constructor
    · rintro ⟨worker', task', busy, named⟩
      rw [Kv.get_put] at busy
      split at busy
      · cases busy
        rw [if_pos named.symm]
      · rw [if_neg ?_]
        · exact ⟨worker', task', busy, named⟩
        · rintro rfl
          exact uploads.apart worker' _ busy (named.symm ▸ listed)
    · split
      · rename_i same
        rintro rfl
        exact ⟨worker, task, Kv.get_put_self .., same.symm⟩
      · rintro ⟨worker', task', busy, named⟩
        refine ⟨worker', task', ?_, named⟩
        rw [Kv.get_put_ne _ ?_, busy]
        rintro rfl
        rw [idle] at busy
        cases busy

/-- A worker takes the oldest task: its path is no longer waiting but taken. -/
theorem consistent_takeTask (consistent : Consistent paths s)
    (moved : s.takeTask worker = some s') : Consistent paths s' := by
  unfold takeTask at moved
  split at moved
  · rename_i task rest queue idle
    split at moved
    · have after := (Option.some.inj moved).symm
      obtain ⟨uploads, waiting, stages⟩ := consistent.uploads.took s' queue idle
        (by rw [after]) (by rw [after])
      have cache : s'.storage.cache = s.storage.cache := by rw [after]
      have listed : s.Waiting task.remotePath := ⟨task, queue ▸ List.mem_cons_self, rfl⟩
      refine consistent.unwritten (by rw [after]) (by rw [after]) (by rw [after])
        (by rw [after]; exact consistent.known) uploads ?_
      intro path _
      by_cases mine : path = task.remotePath
      · subst mine
        refine ⟨fun _ _ _ _ => .of_cache cache, ?_, ?_⟩
        · intro quiet
          exact absurd listed (quiet_iff.mp quiet).1
        · intro bytes held
          refine held_of_stage .taken (fun given => ((waiting _).mp given).1 rfl) ?_ ?_
          · intro found
            rw [stages, if_pos rfl]
          · rw [StageHolds, CachedStorage.cached, cache]
            exact held.waiting listed
      · have same : Same s s' path := by
          refine ⟨?_, ?_, by rw [after]; rfl, by rw [after], by rw [after]⟩
          · rw [waiting]
            exact and_iff_right mine
          · intro found
            rw [stages, if_neg mine]
        exact same.pathKept fun _ _ _ _ => .of_cache cache
    · cases moved
  · cases moved

theorem Uploads.finished (uploads : Uploads paths s) (s' : System)
    (busy : s.running.get worker = some upload)
    (queue : s'.storage.queue = s.storage.queue) (running : s'.running = s.running.delete worker) :
    Uploads paths s' ∧ ∀ other found, s'.AtStage other found ↔
      other ≠ upload.task.remotePath ∧ s.AtStage other found := by
  have earlier : ∀ worker' upload', s'.running.get worker' = some upload' →
      worker' ≠ worker ∧ s.running.get worker' = some upload' := by
    intro worker' upload' busy'
    rw [running, Kv.get_delete] at busy'
    split at busy'
    · cases busy'
    · rename_i different
      exact ⟨different, busy'⟩
  refine ⟨⟨?_, ?_, ?_, ?_, ?_⟩, ?_⟩
  · rw [queue]
    exact uploads.queued
  · intro worker' upload' busy'
    exact uploads.running worker' upload' (earlier _ _ busy').2
  · rw [queue]
    exact uploads.once
  · intro first second upload₁ upload₂ busy₁ busy₂
    exact uploads.oneWorker first second upload₁ upload₂ (earlier _ _ busy₁).2 (earlier _ _ busy₂).2
  · intro worker' upload' busy'
    unfold Waiting
    rw [queue]
    exact uploads.apart worker' upload' (earlier _ _ busy').2
  · intro other found
    constructor
    · rintro ⟨worker', task, busy', rfl⟩
      obtain ⟨different, was⟩ := earlier _ _ busy'
      refine ⟨?_, worker', task, was, rfl⟩
      intro same
      exact different (uploads.oneWorker worker' worker _ _ was busy same)
    · rintro ⟨different, worker', task, busy', rfl⟩
      refine ⟨worker', task, ?_, rfl⟩
      rw [running, Kv.get_delete, if_neg ?_, busy']
      rintro rfl
      rw [busy] at busy'
      cases busy'
      exact different rfl

theorem consistent_clearPending (consistent : Consistent paths s)
    (moved : s.clearPending worker = some s') : Consistent paths s' := by
  unfold clearPending at moved
  split at moved
  · rename_i task busy
    have after := (Option.some.inj moved).symm
    have uploads := consistent.uploads
    have cache : s'.storage.cache = s.storage.cache := by
      rw [after]
      exact CachedStorage.updateEntry_cache _
    have remote : s'.storage.remote = s.storage.remote := by
      rw [after]
      exact CachedStorage.updateEntry_remote _
    have queue : s'.storage.queue = s.storage.queue := by
      rw [after]
      exact CachedStorage.updateEntry_queue _
    have failed : s'.failed = s.failed := by rw [after]
    have known : ∀ path entry, s'.storage.entries.get path = some entry → path ∈ paths := by
      rw [after]
      exact CachedStorage.updateEntry_known _ consistent.known
    obtain ⟨left, stages⟩ := uploads.finished s' busy queue (by rw [after])
    refine consistent.unwritten (by rw [after]) (by rw [after]) (by rw [after]) known left ?_
    intro path _
    by_cases mine : path = task.remotePath
    · subst mine
      have quiet : s'.Quiet task.remotePath := by
        refine quiet_iff.mpr ⟨?_, ?_⟩
        · unfold Waiting
          rw [queue]
          exact uploads.apart worker _ busy
        · intro found given
          exact ((stages _ _).mp given).1 rfl
      refine ⟨fun _ _ _ _ => .of_cache cache, fun _ => quiet, ?_⟩
      intro bytes held
      refine held_of_quiet quiet ?_
      have holds := held.atStage uploads busy
      rw [CachedStorage.cached, cache, remote, failed]
      exact holds
    · have same : Same s s' path := by
        refine ⟨?_, ?_, ?_, ?_, by rw [failed]⟩
        · unfold Waiting
          rw [queue]
        · intro found
          rw [stages]
          exact and_iff_right mine
        · rw [CachedStorage.cached, cache, CachedStorage.cached]
        · rw [remote]
      exact same.pathKept fun _ _ _ _ => .of_cache cache
  · cases moved

/-! ### Writers -/

variable {handle : Nat} {w w' : CachedWriter} {given moved : Bytes}

/-- A handle of one path changed hands: the writers of the others are as they were. -/
theorem others_put (named : w'.remotePath = path)
    (writers : s'.writers = s.writers.put handle w')
    (given : ∀ other, other ≠ handle → s'.given.get other = s.given.get other) {other : String}
    (different : other ≠ path) :
    ∀ handle' v, s'.writers.get handle' = some v → v.remotePath = other →
      s.writers.get handle' = some v ∧ s'.given.get handle' = s.given.get handle' := by
  intro handle' v found own
  rw [writers, Kv.get_put] at found
  split at found
  · cases found
    exact absurd (own.symm.trans named) different
  · rename_i elsewhere
    exact ⟨found, given handle' elsewhere⟩

theorem sound_of_writer (found : s.writers.get handle = some w)
    (gave : s.given.get handle = some given) (writing : Writing paths s w given)
    (only : ∀ handle' v, s.writers.get handle' = some v → v.remotePath = path → handle' = handle)
    (unsettled : s.last.get path = none) : Sound paths s path where
  writing := by
    intro handle' v found' named
    obtain rfl := only handle' v found' named
    rw [found] at found'
    cases found'
    exact ⟨given, gave, writing⟩
  oneWriter := by
    intro first second v v' found₁ found₂ named₁ named₂
    rw [only first v found₁ named₁, only second v' found₂ named₂]
  unsettled _ _ _ _ := unsettled
  held := by
    intro bytes written
    rw [unsettled] at written
    cases written

/-- A path that is neither queued nor being uploaded has its upload queued. -/
theorem held_of_enqueue {size : Nat} (quiet : s.Quiet path)
    (queue : s'.storage.queue = s.storage.queue ++ [⟨cachePath path, path, size⟩])
    (running : s'.running = s.running) (cached : s'.storage.cached path = some bytes) :
    s'.Held path bytes := by
  have none' : ∀ stage, ¬s'.AtStage path stage := by
    unfold AtStage
    rw [running]
    exact (quiet_iff.mp quiet).2
  refine ⟨fun _ => cached, fun _ => cached, fun _ at_ => absurd at_ (none' _),
    fun at_ => absurd at_ (none' _), ?_⟩
  exact .inr ⟨cached, .inr (.inl ((waiting_enqueue queue).mpr (.inr rfl)))⟩

/-- Opening a writer truncates the file of its path and no other. -/
theorem consistent_openWriter (apart : NamesApart paths) (consistent : Consistent paths s)
    (inside : path ∈ paths) (careful : s.Closed path ∧ s.Quiet path)
    (opened : s.openWriter handle path = some s') : Consistent paths s' := by
  obtain ⟨closed, quiet⟩ := careful
  unfold openWriter at opened
  split at opened
  · cases opened
  · rename_i fresh
    have after := (Option.some.inj opened).symm
    have cache : s'.storage.cache = (s.storage.cache.create (cachePath path)).1 := by
      rw [after]
      rfl
    have queue : s'.storage.queue = s.storage.queue := by
      rw [after]
      rfl
    have running : s'.running = s.running := by rw [after]
    have writers : s'.writers = s.writers.put handle (s.storage.writer path).2 := by rw [after]
    have gave : s'.given = s.given.put handle [] := by rw [after]
    have last : s'.last = s.last.delete path := by rw [after]
    have sameQuiet : ∀ other, s'.Quiet other ↔ s.Quiet other := by
      intro other
      unfold Quiet
      rw [queue, running]
    refine ⟨by rw [after]; exact consistent.known, consistent.uploads.same queue running, ?_⟩
    intro other
    by_cases mine : other = path
    · subst mine
      have found : s'.writers.get handle = some (s.storage.writer other).2 := by
        rw [writers, Kv.get_put_self]
      have nothing : s'.given.get handle = some [] := by rw [gave, Kv.get_put_self]
      have linked : s'.storage.cache.names.get (cachePath other) =
          some (s.storage.writer other).2.file := by
        rw [cache]
        exact Disk.create_linked ..
      have blank : s'.storage.cache.content (s.storage.writer other).2.file = [] := by
        rw [cache]
        exact Disk.create_content ..
      have writing : Writing paths s' (s.storage.writer other).2 [] := by
        refine ⟨rfl, inside, ?_, ?_, ?_, ?_, .inl ⟨rfl, rfl, linked, (sameQuiet other).mpr quiet⟩⟩
        · rw [cache]
          exact (Disk.create_unused ..).2
        · intro name owned
          exact s'.storage.cache.apart _ _ _ owned linked
        · unfold CachedStorage.AtEnd
          rw [blank]
          rfl
        · rw [blank]
          rfl
      refine sound_of_writer found nothing writing ?_ ?_
      · intro handle' v found' named
        rw [writers, Kv.get_put] at found'
        split at found'
        · assumption
        · exact absurd named (closed _ ((Kv.mem_entries _).mpr found'))
      · rw [last, Kv.get_delete, if_pos rfl]
    · refine (consistent.sound other).kept (others_put rfl writers ?_ mine) ?_ ?_
      · intro handle' elsewhere
        rw [gave, Kv.get_put_ne _ elsewhere]
      · rw [last, Kv.get_delete, if_neg mine]
      · intro member
        have same : Same s s' other := by
          refine ⟨?_, ?_, ?_, by rw [after]; rfl, ?_⟩
          · unfold Waiting
            rw [queue]
          · unfold AtStage
            rw [running]
            exact fun _ => .rfl
          · rw [CachedStorage.cached, cache, Disk.read_create,
              if_neg fun names => mine (apart other member path inside names)]
            rfl
          · rw [after]
            simp [mine]
        refine same.pathKept fun handle' v found named => ?_
        obtain ⟨given, -, writing⟩ := (consistent.sound other).writing handle' v found named
        exact .created writing.used (writing.apart apart inside (named.symm ▸ mine)).2 cache

/-- Bytes of one writer reached its file: the other paths are as they were. -/
theorem pathKept_of_moved (apart : NamesApart paths) (consistent : Consistent paths s)
    (found : s.writers.get handle = some w)
    (step : CachedStorage.Moved moved s.storage w s'.storage w')
    (visible : moved = [] ∨ s.storage.cache.names.get w.localPath = some w.file)
    (running : s'.running = s.running) (failed : s'.failed = s.failed) {other : String}
    (waiting : s'.Waiting other ↔ s.Waiting other) (inside : other ∈ paths)
    (different : other ≠ w.remotePath) : PathKept s s' other := by
  obtain ⟨given, -, own⟩ := (consistent.sound _).writing handle w found rfl
  have same : Same s s' other := by
    refine ⟨waiting, ?_, ?_, by rw [step.remote], by rw [failed]⟩
    · unfold AtStage
      rw [running]
      exact fun _ => .rfl
    · rcases visible with nothing | linked
      · subst nothing
        exact step.read_nothing _
      · rw [CachedStorage.cached, step.read linked, if_neg ?_]
        · rfl
        · exact ((own.apart apart inside different.symm).1).symm
  refine same.pathKept fun handle' v found' named => ?_
  obtain ⟨given', -, writing⟩ := (consistent.sound other).writing handle' v found' named
  rcases visible with nothing | linked
  · subst nothing
    exact .unmoved step
  · refine .moved step ?_
    intro shared
    rw [← shared] at linked
    have names := writing.owner _ linked
    rw [own.localPath, writing.localPath] at names
    exact different (named ▸ (apart _ own.inside _ writing.inside names).symm)

/-- A writer whose bytes reached its file, and some more of which may be buffered. -/
theorem Writing.wrote {more : Bytes} (writing : Writing paths s w given)
    (step : CachedStorage.Moved moved s.storage w s'.storage w')
    (all : moved ++ w'.buffer = w.buffer ++ more)
    (stage : (w'.flushed = false ∧ w'.uploaded = false ∧
        s'.storage.cache.names.get w'.localPath = some w'.file ∧ s'.Quiet w'.remotePath) ∨
      (w'.flushed = true ∧ w'.uploaded = true ∧ w'.buffer = [] ∧
        s'.Held w'.remotePath (given ++ more))) :
    Writing paths s' w' (given ++ more) where
  localPath := by
    rw [step.localPath, step.remotePath]
    exact writing.localPath
  inside := by
    rw [step.remotePath]
    exact writing.inside
  used := by
    rw [step.unused, step.file]
    exact writing.used
  owner := by
    rw [step.names, step.file, step.localPath]
    exact writing.owner
  atEnd := step.atEnd writing.atEnd
  whole := by
    rw [step.file, step.own, List.append_assoc, all, ← List.append_assoc, writing.whole]
  stage := stage

/-- A step of one writer that stays open. -/
theorem Consistent.wrote (apart : NamesApart paths) (consistent : Consistent paths s)
    (found : s.writers.get handle = some w)
    (step : CachedStorage.Moved moved s.storage w s'.storage w')
    (visible : moved = [] ∨ s.storage.cache.names.get w.localPath = some w.file)
    (writers : s'.writers = s.writers.put handle w')
    (gave : ∀ other, other ≠ handle → s'.given.get other = s.given.get other)
    (last : s'.last = s.last) (running : s'.running = s.running) (failed : s'.failed = s.failed)
    (waiting : ∀ other, other ≠ w.remotePath → (s'.Waiting other ↔ s.Waiting other))
    (uploads : Uploads paths s')
    (own : ∃ given, s'.given.get handle = some given ∧ Writing paths s' w' given) :
    Consistent paths s' := by
  refine ⟨by rw [step.entries]; exact consistent.known, uploads, ?_⟩
  intro other
  have sound := consistent.sound other
  by_cases mine : other = w.remotePath
  · subst mine
    obtain ⟨given, now, writing⟩ := own
    refine sound_of_writer (by rw [writers, Kv.get_put_self]) now writing ?_ ?_
    · intro handle' v found' named
      rw [writers, Kv.get_put] at found'
      split at found'
      · assumption
      · exact sound.oneWriter handle' handle v w found' found named rfl
    · rw [last]
      exact sound.unsettled handle w found rfl
  · refine sound.kept (others_put step.remotePath writers gave mine) (by rw [last]) ?_
    intro inside
    exact pathKept_of_moved apart consistent found step visible running failed
      (waiting other mine) inside mine

/-- A writer that moves nothing and queues nothing. -/
theorem same_of_unmoved (step : CachedStorage.Moved [] s.storage w s'.storage w')
    (queue : s'.storage.queue = s.storage.queue) (running : s'.running = s.running)
    (failed : s'.failed = s.failed) (path : String) : Same s s' path := by
  refine ⟨?_, ?_, step.read_nothing _, by rw [step.remote], by rw [failed]⟩
  · unfold Waiting
    rw [queue]
  · unfold AtStage
    rw [running]
    exact fun _ => .rfl

theorem consistent_write (apart : NamesApart paths) (consistent : Consistent paths s)
    (careful : s.Careful (.write handle bytes)) (wrote : s.write handle bytes = some s') :
    Consistent paths s' := by
  obtain ⟨w, found, after⟩ := Option.map_eq_some_iff.mp wrote
  obtain ⟨given, gave, writing⟩ := (consistent.sound _).writing handle w found rfl
  obtain ⟨moved, step, all, same⟩ := CachedStorage.write_moved writing.atEnd bytes
  have storage : s'.storage = (s.storage.write w bytes).1 := by rw [← after]
  have running : s'.running = s.running := by rw [← after]
  have failed : s'.failed = s.failed := by rw [← after]
  have queue : s'.storage.queue = s.storage.queue := by rw [storage, same.queue]
  have now : s'.given.get handle = some (given ++ bytes) := by
    rw [← after]
    simp [gave]
  rw [← storage] at step
  have wrote' : (moved = [] ∨ s.storage.cache.names.get w.localPath = some w.file) ∧
      Writing paths s' (s.storage.write w bytes).2 (given ++ bytes) := by
    rcases writing.stage with ⟨unflushed, fresh, linked, quiet⟩ | ⟨flushed, uploaded, blank, held⟩
    · refine ⟨.inr linked, writing.wrote step all (.inl ⟨?_, ?_, ?_, ?_⟩)⟩
      · rw [same.flushed, unflushed]
      · rw [same.uploaded, fresh]
      · rw [step.names, step.localPath, step.file]
        exact linked
      · unfold Quiet
        rw [queue, running, step.remotePath]
        exact quiet
    · have nothing : bytes = [] := by
        refine careful.resolve_right fun unflushed => ?_
        have contrary := unflushed _ ((Kv.mem_entries _).mpr found) rfl
        rw [flushed] at contrary
        cases contrary
      have none' : moved = [] ∧ (s.storage.write w bytes).2.buffer = [] := by
        refine List.append_eq_nil_iff.mp (all.trans ?_)
        rw [blank, nothing]
        rfl
      refine ⟨.inl none'.1, writing.wrote step all (.inr ⟨?_, ?_, none'.2, ?_⟩)⟩
      · rw [same.flushed, flushed]
      · rw [same.uploaded, uploaded]
      · rw [none'.1] at step
        rw [step.remotePath, nothing, List.append_nil]
        exact held.same (same_of_unmoved step queue running failed _)
  refine consistent.wrote apart found step wrote'.1 (by rw [← after]) ?_ (by rw [← after]) running
    failed ?_ (consistent.uploads.same queue running) ⟨_, now, wrote'.2⟩
  · intro other elsewhere
    rw [← after]
    exact Kv.get_put_ne _ elsewhere _
  · intro other _
    unfold Waiting
    rw [queue]

theorem consistent_flush (apart : NamesApart paths) (consistent : Consistent paths s)
    (flushes : s.flush handle = some s') : Consistent paths s' := by
  obtain ⟨w, found, after⟩ := Option.map_eq_some_iff.mp flushes
  obtain ⟨given, gave, writing⟩ := (consistent.sound _).writing handle w found rfl
  have storage : s'.storage = (s.storage.flush w).1 := by rw [← after]
  have running : s'.running = s.running := by rw [← after]
  have failed : s'.failed = s.failed := by rw [← after]
  have writers : s'.writers = s.writers.put handle (s.storage.flush w).2 := by rw [← after]
  have now : s'.given = s.given := by rw [← after]
  have last : s'.last = s.last := by rw [← after]
  rcases writing.stage with ⟨unflushed, fresh, linked, quiet⟩ | ⟨flushed, uploaded, blank, held⟩
  · obtain ⟨step, emptied, queued, marked, size, queue⟩ :=
      CachedStorage.flush_moved writing.atEnd fresh unflushed
    rw [← storage] at step queue
    rw [writing.localPath] at queue
    have cached : s'.storage.cached w.remotePath = some given := by
      rw [CachedStorage.cached, step.read linked, ← writing.localPath, if_pos rfl, writing.whole]
    have held := held_of_enqueue quiet queue running cached
    refine consistent.wrote apart found step (.inr linked) writers (fun _ _ => by rw [now]) last
      running failed ?_ (consistent.uploads.enqueue writing.inside quiet queue running)
      ⟨given ++ [], by rw [now, gave, List.append_nil], writing.wrote step ?_ ?_⟩
    · intro other different
      rw [waiting_enqueue queue]
      exact or_iff_left different
    · rw [emptied]
    · refine .inr ⟨marked, queued, emptied, ?_⟩
      rw [step.remotePath, List.append_nil]
      exact held
  · rw [CachedStorage.flush_flushed flushed] at storage writers
    have step := CachedStorage.flushLocal_moved writing.atEnd
    rw [blank, ← storage] at step
    have queue : s'.storage.queue = s.storage.queue := by
      rw [storage]
      rfl
    have same := same_of_unmoved step queue running failed
    refine consistent.wrote apart found step (.inl rfl) writers (fun _ _ => by rw [now]) last
      running failed (fun other _ => (same other).waiting) (consistent.uploads.same queue running)
      ⟨given ++ [], by rw [now, gave, List.append_nil], writing.wrote step ?_ ?_⟩
    · rw [blank]
      rfl
    · refine .inr ⟨flushed, uploaded, rfl, ?_⟩
      rw [step.remotePath, List.append_nil]
      exact held.same (same _)

/-- A writer is dropped: what it was given counts as written. -/
theorem consistent_drop (apart : NamesApart paths) (consistent : Consistent paths s)
    (dropped : s.drop handle = some s') : Consistent paths s' := by
  obtain ⟨w, found, after⟩ := Option.map_eq_some_iff.mp dropped
  obtain ⟨given, gave, writing⟩ := (consistent.sound _).writing handle w found rfl
  have storage : s'.storage = s.storage.drop w := by rw [← after]
  have running : s'.running = s.running := by rw [← after]
  have failed : s'.failed = s.failed := by rw [← after]
  have writers : s'.writers = s.writers.delete handle := by rw [← after]
  have last : s'.last = s.last.put w.remotePath given := by
    rw [← after, gave]
    rfl
  have moves : ∃ moved w', CachedStorage.Moved moved s.storage w s'.storage w' ∧
      (moved = [] ∨ s.storage.cache.names.get w.localPath = some w.file) ∧
      Uploads paths s' ∧ s'.Held w.remotePath given ∧
      ∀ other, other ≠ w.remotePath → (s'.Waiting other ↔ s.Waiting other) := by
    rcases writing.stage with ⟨unflushed, fresh, linked, quiet⟩ | ⟨flushed, uploaded, blank, held⟩
    · obtain ⟨w', step, size, queue⟩ := CachedStorage.drop_moved writing.atEnd fresh unflushed
      rw [← storage] at step queue
      rw [writing.localPath] at queue
      have cached : s'.storage.cached w.remotePath = some given := by
        rw [CachedStorage.cached, step.read linked, ← writing.localPath, if_pos rfl, writing.whole]
      refine ⟨_, w', step, .inr linked, consistent.uploads.enqueue writing.inside quiet queue running,
        held_of_enqueue quiet queue running cached, ?_⟩
      intro other different
      rw [waiting_enqueue queue]
      exact or_iff_left different
    · obtain ⟨w', step, queue⟩ := CachedStorage.drop_flushed writing.atEnd uploaded flushed
      rw [← storage] at step queue
      rw [blank] at step
      have same := same_of_unmoved step queue running failed
      exact ⟨_, w', step, .inl rfl, consistent.uploads.same queue running, held.same (same _),
        fun other _ => (same other).waiting⟩
  obtain ⟨moved, w', step, visible, uploads, held, waiting⟩ := moves
  refine ⟨by rw [step.entries]; exact consistent.known, uploads, ?_⟩
  intro other
  have sound := consistent.sound other
  have earlier : ∀ handle' v, s'.writers.get handle' = some v →
      handle' ≠ handle ∧ s.writers.get handle' = some v := by
    intro handle' v found'
    rw [writers, Kv.get_delete] at found'
    split at found'
    · cases found'
    · rename_i different
      exact ⟨different, found'⟩
  by_cases mine : other = w.remotePath
  · subst mine
    refine sound_of_closed ?_ ?_
    · rintro ⟨handle', v⟩ member named
      obtain ⟨different, was⟩ := earlier handle' v ((Kv.mem_entries _).mp member)
      exact different (sound.oneWriter handle' handle v w was found named rfl)
    · intro bytes written
      rw [last, Kv.get_put_self] at written
      cases written
      exact ⟨writing.inside, held⟩
  · refine sound.kept ?_ (by rw [last, Kv.get_put_ne _ mine]) ?_
    · intro handle' v found' _
      obtain ⟨different, was⟩ := earlier handle' v found'
      refine ⟨was, ?_⟩
      rw [← after]
      exact Kv.get_delete_ne _ different
    · intro inside
      exact pathKept_of_moved apart consistent found step visible running failed
        (waiting other mine) inside mine

/-! ### Deleting, reading and copying -/

theorem consistent_delete (apart : NamesApart paths) (consistent : Consistent paths s)
    (inside : path ∈ paths) (closed : s.Closed path) : Consistent paths (s.delete path) := by
  refine ⟨?_, consistent.uploads.same rfl rfl, ?_⟩
  · intro other entry found
    have kept : (s.storage.entries.delete (s.storage.entryKey path)).get other = some entry := found
    rw [Kv.get_delete] at kept
    split at kept
    · cases kept
    · exact consistent.known other entry kept
  · intro other
    by_cases mine : other = path
    · subst mine
      refine sound_of_closed closed ?_
      intro bytes written
      have gone : (s.last.delete other).get other = some bytes := written
      rw [Kv.get_delete, if_pos rfl] at gone
      cases gone
    · refine (consistent.sound other).kept (fun _ _ found _ => ⟨found, rfl⟩)
        (Kv.get_delete_ne _ mine) ?_
      intro member
      have same : Same s (s.delete path) other := by
        refine ⟨.rfl, fun _ => .rfl, ?_, Kv.get_delete_ne _ mine, .rfl⟩
        show (s.storage.cache.unlink (cachePath path)).read (cachePath other) = _
        rw [Disk.read_unlink, if_neg fun names => mine (apart other member path inside names)]
        rfl
      refine same.pathKept fun handle w found named => ?_
      obtain ⟨given, -, writing⟩ := (consistent.sound other).writing handle w found named
      refine .unlinked [cachePath path] rfl rfl ?_ ?_
      · intro name
        simp only [List.mem_singleton]
        exact s.storage.cache.unlink_names _ name
      · intro _
        rw [List.mem_singleton]
        exact (writing.apart apart inside (named.symm ▸ mine)).1

/-- An addition to the cache leaves the file of a writer, unless it is one of a path that
is evicted before its flush. -/
theorem fileKept_of_added (apart : NamesApart paths) (consistent : Consistent paths s)
    (inside : path ∈ paths) (moment : Moment) (bytes : Bytes) (writing : Writing paths s w given)
    (other : s.storage.cache.names.get (cachePath path) ≠ some w.file)
    (spared : w.flushed = false →
      w.remotePath ∉ s.storage.victims moment path bytes.length) :
    FileKept s.storage ((s.storage.place path bytes).addToCache moment path bytes.length) w := by
  have taken := (CachedStorage.addToCache_known moment bytes.length inside consistent.known).1
  refine (FileKept.placed writing.used other bytes).trans (.added moment path bytes.length ?_)
  intro unflushed listed
  obtain ⟨victim, among, same⟩ := List.mem_map.mp listed
  rw [writing.localPath] at same
  have own := apart victim (taken victim among) w.remotePath writing.inside same
  exact spared unflushed (own ▸ among)

/-- The file of one path is written and added to the cache: the other paths are as they
were, or were evicted with their bytes in the remote. -/
theorem pathKept_of_added (apart : NamesApart paths) (consistent : Consistent paths s)
    (inside : path ∈ paths) (moment : Moment) (bytes : Bytes)
    (cache : s'.storage.cache =
      ((s.storage.place path bytes).addToCache moment path bytes.length).cache)
    (running : s'.running = s.running) {other : String}
    (waiting : s'.Waiting other ↔ s.Waiting other)
    (remote : s'.storage.remote.get other = s.storage.remote.get other)
    (failed : other ∈ s'.failed ↔ other ∈ s.failed)
    (evictable : ∀ victim ∈ s.storage.victims moment path bytes.length, victim ≠ path →
      s.Evictable victim)
    (member : other ∈ paths) (different : other ≠ path) : PathKept s s' other := by
  have stages : ∀ stage, s'.AtStage other stage ↔ s.AtStage other stage := by
    unfold AtStage
    rw [running]
    exact fun _ => .rfl
  have quiet : s.Quiet other → s'.Quiet other := by
    rw [quiet_iff, quiet_iff, waiting]
    simp only [stages]
    exact id
  have cached := CachedStorage.cached_added apart consistent.known moment inside bytes member
  rw [CachedStorage.cached, ← cache, if_neg different] at cached
  refine ⟨?_, quiet, ?_⟩
  · intro handle w found named
    obtain ⟨given, -, writing⟩ := (consistent.sound other).writing handle w found named
    refine (fileKept_of_added apart consistent inside moment bytes writing
      (writing.apart apart inside (named.symm ▸ different)).2 ?_).trans (.of_cache cache)
    intro _ victim
    rw [named] at victim
    exact (evictable other victim different).1 _ ((Kv.mem_entries _).mpr found) named
  · intro bytes' held
    by_cases victim : other ∈ s.storage.victims moment path bytes.length
    · obtain ⟨-, still, unfailed⟩ := evictable other victim different
      exact held_of_quiet (quiet still) (.inl (remote.trans (held.remote still unfailed)))
    · rw [if_neg victim] at cached
      exact held.same ⟨waiting, stages, cached, remote, failed⟩

/-- The path of a miss: nothing was to be read from its file, and the object is there. -/
theorem pathKept_of_miss (apart : NamesApart paths) (consistent : Consistent paths s)
    (moment : Moment) (inside : path ∈ paths) (missing : s.storage.cached path = none)
    (cache : s'.storage.cache =
      ((s.storage.place path bytes).addToCache moment path bytes.length).cache)
    (queue : s'.storage.queue = s.storage.queue) (running : s'.running = s.running)
    (remote : s'.storage.remote = s.storage.remote) : PathKept s s' path := by
  have unlinked : s.storage.cache.names.get (cachePath path) = none :=
    Option.map_eq_none_iff.mp missing
  refine ⟨?_, ?_, ?_⟩
  · intro handle w found named
    obtain ⟨given, -, writing⟩ := (consistent.sound path).writing handle w found named
    refine (fileKept_of_added apart consistent inside moment bytes writing ?_ ?_).trans
      (.of_cache cache)
    · rw [unlinked]
      exact Option.some_ne_none _ |>.symm
    · intro unflushed
      rcases writing.stage with ⟨-, -, linked, -⟩ | ⟨flushed, -⟩
      · rw [writing.localPath, named, unlinked] at linked
        cases linked
      · rw [flushed] at unflushed
        cases unflushed
  · unfold Quiet
    rw [queue, running]
    exact id
  · intro bytes' held
    have absent : ∀ content, s.storage.cached path ≠ some content := by simp [missing]
    have notWaiting : ¬s'.Waiting path := by
      unfold Waiting
      rw [queue]
      exact fun waits => absent _ (held.waiting waits)
    have notTaken : ¬s'.AtStage path .taken := by
      unfold AtStage
      rw [running]
      exact fun taken => absent _ (held.taken taken)
    have notRead : ∀ found, ¬s'.AtStage path (.read found) := by
      unfold AtStage
      rw [running]
      exact fun found read => absent _ (held.read found read).2
    have there : s'.storage.remote.get path = some bytes' := by
      rw [remote]
      exact held.kept.resolve_right fun kept => absent _ kept.1
    exact ⟨fun waits => absurd waits notWaiting, fun taken => absurd taken notTaken,
      fun found read => absurd read (notRead found), fun _ => there, .inl there⟩

/-- A read that finds the file changes entries; one that does not brings the object in. -/
theorem consistent_read (apart : NamesApart paths) (consistent : Consistent paths s)
    (moment : Moment) (inside : path ∈ paths) (careful : s.Careful (.read moment path)) :
    Consistent paths (s.read moment path) := by
  unfold read CachedStorage.reader
  cases hit : s.storage.cached path with
  | some bytes =>
    have cache : (s.storage.recordAccess moment path).cache = s.storage.cache :=
      CachedStorage.updateEntry_cache _
    have queue : (s.storage.recordAccess moment path).queue = s.storage.queue :=
      CachedStorage.updateEntry_queue _
    have remote : (s.storage.recordAccess moment path).remote = s.storage.remote :=
      CachedStorage.updateEntry_remote _
    refine consistent.unwritten rfl rfl rfl (CachedStorage.updateEntry_known _ consistent.known)
      (consistent.uploads.same queue rfl) ?_
    intro other _
    have same : Same s { s with storage := s.storage.recordAccess moment path } other := by
      refine ⟨?_, fun _ => .rfl, ?_, ?_, .rfl⟩
      · unfold Waiting
        rw [queue]
      · rw [CachedStorage.cached, cache]
        rfl
      · rw [remote]
    exact same.pathKept fun _ _ _ _ => .of_cache cache
  | none =>
    cases missed : s.storage.remote.get path with
    | none => exact consistent
    | some bytes =>
      simp only [Careful, hit, missed] at careful
      have known := (CachedStorage.addToCache_known (P := (· ∈ paths)) moment bytes.length inside
        consistent.known).2
      refine consistent.unwritten rfl rfl rfl known (consistent.uploads.same rfl rfl) ?_
      intro other member
      by_cases mine : other = path
      · subst mine
        exact pathKept_of_miss apart consistent moment inside hit rfl rfl rfl rfl
      · refine pathKept_of_added apart consistent inside moment bytes ?_ ?_ ?_ ?_ ?_ careful
          member mine
        · rfl
        · rfl
        · rfl
        · rfl
        · rfl

/-- A copy writes the file of its target and queues the upload, or has the remote copy. -/
theorem consistent_copy (apart : NamesApart paths) (consistent : Consistent paths s)
    (moment : Moment) {source target : String} (from_ : source ∈ paths) (to_ : target ∈ paths)
    (careful : s.Careful (.copy moment source target)) :
    Consistent paths (s.copy moment source target) := by
  unfold copy System.source
  cases hit : s.storage.cached source with
  | some bytes =>
    simp only [Careful, hit] at careful
    obtain ⟨closed, quiet, different, victims⟩ := careful
    have spared : target ∉ s.storage.victims moment target bytes.length :=
      fun among => (victims target among).1 rfl
    have read : ((s.storage.cache.create (cachePath target)).1.read (cachePath source)).getD [] =
        bytes := by
      rw [Disk.read_create, if_neg fun names => different (apart source from_ target to_ names)]
      exact congrArg (Option.getD · []) hit
    have copied : (s.storage.copy moment source target).1 =
        ((s.storage.place target bytes).addToCache moment target bytes.length).queueUpload
          ⟨cachePath target, target, bytes.length⟩ := by
      simp only [CachedStorage.copy, hit, read]
      rfl
    simp only [Option.some_or, copied]
    generalize after : ({ s with
      storage := ((s.storage.place target bytes).addToCache moment target
        bytes.length).queueUpload ⟨cachePath target, target, bytes.length⟩
      last := s.last.put target bytes
      failed := s.failed.filter (· ≠ target) } : System) = s'
    have cache : s'.storage.cache =
        ((s.storage.place target bytes).addToCache moment target bytes.length).cache := by
      rw [← after]
      exact CachedStorage.updateEntry_cache _
    have queue : s'.storage.queue =
        s.storage.queue ++ [⟨cachePath target, target, bytes.length⟩] := by
      rw [← after]
      exact CachedStorage.updateEntry_queue _
    have remote : s'.storage.remote = s.storage.remote := by
      rw [← after]
      exact CachedStorage.updateEntry_remote _
    have running : s'.running = s.running := by rw [← after]
    have known : ∀ path entry, s'.storage.entries.get path = some entry → path ∈ paths := by
      rw [← after]
      exact CachedStorage.updateEntry_known _
        (CachedStorage.addToCache_known moment bytes.length to_ consistent.known).2
    have cached : s'.storage.cached target = some bytes := by
      rw [CachedStorage.cached, cache]
      refine (CachedStorage.cached_added apart consistent.known moment to_ bytes to_).trans ?_
      rw [if_neg spared, if_pos rfl]
    refine ⟨known, consistent.uploads.enqueue to_ quiet queue running, ?_⟩
    intro other
    by_cases mine : other = target
    · subst mine
      refine sound_of_closed ?_ ?_
      · rw [← after]
        exact closed
      · intro bytes' written
        rw [← after, Kv.get_put_self] at written
        cases written
        exact ⟨to_, held_of_enqueue quiet queue running cached⟩
    · refine (consistent.sound other).kept ?_ ?_ ?_
      · rw [← after]
        exact fun _ _ found _ => ⟨found, rfl⟩
      · rw [← after]
        exact Kv.get_put_ne _ mine _
      · intro member
        refine pathKept_of_added apart consistent to_ moment bytes cache running ?_ (by rw [remote])
          ?_ (fun victim among _ => (victims victim among).2) member mine
        · rw [waiting_enqueue queue]
          exact or_iff_left mine
        · rw [← after]
          simp [mine]
  | none =>
    cases missed : s.storage.remote.get source with
    | none =>
      have same : (s.storage.copy moment source target).1 = s.storage := by
        simp only [CachedStorage.copy, hit, missed]
      simp only [Option.or_none, same]
      exact consistent
    | some bytes =>
      simp only [Careful, hit, missed] at careful
      obtain ⟨closed, quiet⟩ := careful
      have copied : (s.storage.copy moment source target).1 =
          { s.storage with remote := s.storage.remote.put target bytes } := by
        simp only [CachedStorage.copy, hit, missed]
      simp only [Option.none_or, copied]
      refine ⟨consistent.known, consistent.uploads.same rfl rfl, ?_⟩
      intro other
      by_cases mine : other = target
      · subst mine
        refine sound_of_closed closed ?_
        intro bytes' written
        have own : (s.last.put other bytes).get other = some bytes' := written
        rw [Kv.get_put_self] at own
        cases own
        exact ⟨to_, held_of_quiet quiet (.inl (Kv.get_put_self ..))⟩
      · refine (consistent.sound other).kept (fun _ _ found _ => ⟨found, rfl⟩)
          (Kv.get_put_ne _ mine _) ?_
        intro _
        have same : Same s { s with
            storage := { s.storage with remote := s.storage.remote.put target bytes }
            last := s.last.put target bytes
            failed := s.failed.filter (· ≠ target) } other :=
          ⟨.rfl, fun _ => .rfl, rfl, Kv.get_put_ne _ mine _, by simp [mine]⟩
        exact same.pathKept fun _ _ _ _ => .of_cache rfl

/-! ### Runs -/

theorem consistent_new (config : CacheConfig) (remote : Kv String Bytes) (paths : List String) :
    Consistent paths (System.new config remote) where
  known := by
    intro path entry found
    cases found
  uploads := by
    refine ⟨?_, ?_, List.nodup_nil, ?_, ?_⟩
    · intro task member
      cases member
    · intro worker upload busy
      cases busy
    · intro first second upload upload' busy
      cases busy
    · intro worker upload busy
      cases busy
  sound := by
    intro path
    refine sound_of_closed ?_ ?_
    · intro entry member
      cases member
    · intro bytes written
      cases written

/-- Every careful step keeps the invariant. -/
theorem consistent_step (apart : NamesApart paths) (consistent : Consistent paths s)
    {action : Action} (inside : action.paths ⊆ paths) (careful : s.Careful action)
    (moved : s.step action = some s') : Consistent paths s' := by
  cases action with
  | openWriter handle path =>
    exact consistent_openWriter apart consistent (inside (List.mem_singleton_self path)) careful moved
  | write handle bytes => exact consistent_write apart consistent careful moved
  | flush handle => exact consistent_flush apart consistent moved
  | drop handle => exact consistent_drop apart consistent moved
  | copy moment source target =>
    cases moved
    exact consistent_copy apart consistent moment (inside List.mem_cons_self)
      (inside (List.mem_cons_of_mem _ List.mem_cons_self)) careful
  | read moment path =>
    cases moved
    exact consistent_read apart consistent moment (inside (List.mem_singleton_self path)) careful
  | delete path =>
    cases moved
    exact consistent_delete apart consistent (inside (List.mem_singleton_self path)) careful
  | takeTask worker => exact consistent_takeTask consistent moved
  | readLocal worker => exact consistent_readLocal consistent moved
  | writeRemote worker succeeds => exact consistent_writeRemote consistent moved
  | removeLocal worker => exact consistent_removeLocal apart consistent moved
  | clearPending worker => exact consistent_clearPending consistent moved

end System

/-- In every run of writers, copies, reads with evictions and upload workers, any of
whose uploads may fail, on paths with different cache files and with careful steps only:
what was last written to a path is in its cache file or its object at every moment, and
in its object once nothing is left to upload and no upload of it failed. -/
theorem careful_runs_lose_nothing (config : CacheConfig) (remote : Kv String Bytes)
    {paths : List String} (apart : NamesApart paths)
    (run : Run (System.carefulMachine paths) (System.new config remote) history s) : s.Kept := by
  have consistent : System.Consistent paths s := by
    refine run.invariant (System.consistent_new config remote paths) ?_
    intro s action s' out consistent moved
    obtain ⟨careful, took⟩ := (Machine.under_step _ _).mp moved
    simp only [System.machine] at took
    split at took
    · rename_i inside
      obtain ⟨after, stepped, same⟩ := Option.map_eq_some_iff.mp took
      cases same
      exact System.consistent_step apart consistent inside careful stepped
    · cases took
  exact consistent.kept

/-- A path written, uploaded with its file removed, read back and copied. -/
theorem uploaded_path_kept :
    ∃ history s, Run (System.carefulMachine ["a/p", "q"]) (System.new tenBytes .empty) history s ∧
      s.last.get "a/p" = some [1, 2] ∧ s.last.get "q" = some [1, 2] ∧ s.failed = ["q"] ∧ s.Kept := by
  obtain ⟨history, s, run, seen⟩ := Run.of_observation (System.carefulMachine ["a/p", "q"])
    (System.new tenBytes .empty)
    [.openWriter 0 "a/p", .write 0 [1], .write 0 [2], .flush 0, .takeTask 0, .readLocal 0,
      .writeRemote 0 true, .drop 0, .removeLocal 0, .clearPending 0, .read (at_ 1) "a/p",
      .copy (at_ 2) "a/p" "q", .takeTask 0, .readLocal 0, .writeRemote 0 false]
    (fun end_ => (end_.2.last.get "a/p", end_.2.last.get "q", end_.2.failed))
    (some [1, 2], some [1, 2], ["q"]) (by decide +kernel)
  obtain ⟨first, second, failed⟩ : _ ∧ _ ∧ _ := by simpa only [Prod.mk.injEq] using seen
  exact ⟨history, s, run, first, second, failed,
    careful_runs_lose_nothing tenBytes .empty (by decide +kernel) run⟩

/-- A writer goes on after its flush, while a worker uploads what was there and removes the
file: the rest is in neither the cache nor the remote. -/
theorem written_after_flush_lost :
    NamesApart ["p"] ∧
      ∃ history s, Run (System.machine ["p"]) (System.new tenBytes .empty) history s ∧ ¬s.Kept := by
  refine ⟨by decide +kernel, ?_⟩
  obtain ⟨history, s, run, seen⟩ := Run.of_observation (System.machine ["p"])
    (System.new tenBytes .empty)
    [.openWriter 0 "p", .write 0 [1], .flush 0, .takeTask 0, .readLocal 0, .write 0 [2],
      .writeRemote 0 true, .removeLocal 0, .clearPending 0, .drop 0]
    (fun end_ => (end_.2.last.get "p", end_.2.storage.cached "p", end_.2.storage.remote.get "p"))
    (some [1, 2], none, some [1]) (by decide +kernel)
  obtain ⟨written, cached, remote⟩ : _ ∧ _ ∧ _ := by simpa only [Prod.mk.injEq] using seen
  refine ⟨history, s, run, ?_⟩
  intro kept
  have found := (kept "p" [1, 2] written).1
  rw [cached, remote] at found
  exact absurd found (by decide)

end Roboflow.Storage
