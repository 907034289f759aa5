import Roboflow.Library.Machine
import Roboflow.Storage.CachedStorage

/-! The counters of the upload queue. A call of `queue_upload` sends its task, marks the
entry and counts, a writer only sends, and a worker receives, uploads, clears the mark and
counts, each of these a step of its own; `flush` polls the counter. What an upload does to
files and objects is left to the storage, here it succeeds or fails. -/
namespace Roboflow.Storage
open Library

structure CacheStats where
  pendingUploads : Nat
  uploadsCompleted : Nat
  uploadsFailed : Nat
  bytesUploaded : Nat

/-- A task with the number of tasks sent before it. -/
structure Sent where
  serial : Nat
  task : UploadTask

/-- A call of `queue_upload` after its send. -/
structure QueueCall where
  sent : Sent
  marked : Bool

inductive UploadStage where
  | received
  | attempted (succeeded : Bool)
  | cleared (succeeded : Bool)

structure BusyWorker where
  sent : Sent
  stage : UploadStage

/-- The channel, the entries and the counters, the threads inside `queue_upload` and the
workers, and the calls of `flush` with the number of tasks sent before them. -/
structure Accounts where
  queue : List Sent
  entries : Kv String CacheEntry
  stats : CacheStats
  calls : Kv Nat QueueCall
  workers : Kv Nat BusyWorker
  flushes : Kv Nat Nat
  sent : Nat

inductive AccountAction where
  | send (thread : Nat) (task : UploadTask)
  | mark (thread : Nat)
  | count (thread : Nat)
  | writerSend (task : UploadTask)
  | receive (worker : Nat)
  | upload (worker : Nat) (succeeds : Bool)
  | clear (worker : Nat)
  | finish (worker : Nat)
  | insert (path : String) (size now : Nat)
  | remove (path : String)
  | beginFlush (thread : Nat)
  | poll (thread : Nat) (expired : Bool)

inductive FlushAnswer where
  | nothing
  | flushed
  | timedOut
  deriving DecidableEq

namespace Accounts

def new : Accounts := ⟨[], .empty, ⟨0, 0, 0, 0⟩, .empty, .empty, .empty, 0⟩

def setPending (entries : Kv String CacheEntry) (path : String) (pending : Bool) :
    Kv String CacheEntry :=
  match entries.get path with
  | some entry => entries.put path { entry with pendingUpload := pending }
  | none => entries

/-- `queue_upload`, the send. -/
def send (s : Accounts) (thread : Nat) (task : UploadTask) : Option Accounts :=
  match s.calls.get thread with
  | some _ => none
  | none => some { s with
      queue := s.queue ++ [⟨s.sent, task⟩]
      calls := s.calls.put thread ⟨⟨s.sent, task⟩, false⟩
      sent := s.sent + 1 }

def mark (s : Accounts) (thread : Nat) : Option Accounts :=
  match s.calls.get thread with
  | some ⟨sent, false⟩ => some { s with
      entries := setPending s.entries sent.task.remotePath true
      calls := s.calls.put thread ⟨sent, true⟩ }
  | _ => none

def count (s : Accounts) (thread : Nat) : Option Accounts :=
  match s.calls.get thread with
  | some ⟨_, true⟩ => some { s with
      stats := { s.stats with pendingUploads := s.stats.pendingUploads + 1 }
      calls := s.calls.delete thread }
  | _ => none

/-- `CachedWriter::queue_upload`. -/
def writerSend (s : Accounts) (task : UploadTask) : Accounts :=
  { s with
    queue := s.queue ++ [⟨s.sent, task⟩]
    sent := s.sent + 1 }

def receive (s : Accounts) (worker : Nat) : Option Accounts :=
  match s.queue, s.workers.get worker with
  | sent :: rest, none => some { s with
      queue := rest
      workers := s.workers.put worker ⟨sent, .received⟩ }
  | _, _ => none

def upload (s : Accounts) (worker : Nat) (succeeds : Bool) : Option Accounts :=
  match s.workers.get worker with
  | some ⟨sent, .received⟩ => some { s with
      workers := s.workers.put worker ⟨sent, .attempted succeeds⟩ }
  | _ => none

def clear (s : Accounts) (worker : Nat) : Option Accounts :=
  match s.workers.get worker with
  | some ⟨sent, .attempted succeeded⟩ => some { s with
      entries := setPending s.entries sent.task.remotePath false
      workers := s.workers.put worker ⟨sent, .cleared succeeded⟩ }
  | _ => none

def CacheStats.finished (stats : CacheStats) (task : UploadTask) (succeeded : Bool) : CacheStats :=
  if succeeded then
    { stats with
      uploadsCompleted := stats.uploadsCompleted + 1
      bytesUploaded := stats.bytesUploaded + task.size
      pendingUploads := stats.pendingUploads - 1 }
  else
    { stats with
      uploadsFailed := stats.uploadsFailed + 1
      pendingUploads := stats.pendingUploads - 1 }

def finish (s : Accounts) (worker : Nat) : Option Accounts :=
  match s.workers.get worker with
  | some ⟨sent, .cleared succeeded⟩ => some { s with
      stats := CacheStats.finished s.stats sent.task succeeded
      workers := s.workers.delete worker }
  | _ => none

/-- A pass of the loop of `flush`; the subtraction of the counters saturates. -/
def poll (s : Accounts) (thread : Nat) (expired : Bool) : Option (Accounts × FlushAnswer) :=
  match s.flushes.get thread with
  | none => none
  | some _ =>
    if s.stats.pendingUploads = 0 then
      some ({ s with flushes := s.flushes.delete thread }, .flushed)
    else if expired then some ({ s with flushes := s.flushes.delete thread }, .timedOut)
    else some (s, .nothing)

def step (s : Accounts) : AccountAction → Option (Accounts × FlushAnswer)
  | .send thread task => (s.send thread task).map (·, .nothing)
  | .mark thread => (s.mark thread).map (·, .nothing)
  | .count thread => (s.count thread).map (·, .nothing)
  | .writerSend task => some (s.writerSend task, .nothing)
  | .receive worker => (s.receive worker).map (·, .nothing)
  | .upload worker succeeds => (s.upload worker succeeds).map (·, .nothing)
  | .clear worker => (s.clear worker).map (·, .nothing)
  | .finish worker => (s.finish worker).map (·, .nothing)
  | .insert path size now =>
    some ({ s with entries := s.entries.put path (.new size now) }, .nothing)
  | .remove path => some ({ s with entries := s.entries.delete path }, .nothing)
  | .beginFlush thread =>
    match s.flushes.get thread with
    | some _ => none
    | none => some ({ s with flushes := s.flushes.put thread s.sent }, .nothing)
  | .poll thread expired => s.poll thread expired

def machine : Machine Accounts AccountAction FlushAnswer := ⟨step⟩

/-! ### What is promised -/

/-- The tasks that were sent and whose worker has not counted yet. -/
def unfinished (s : Accounts) : List Sent := s.queue ++ s.workers.entries.map (·.2.sent)

/-- No call of `queue_upload` and no worker's bookkeeping is between its steps. -/
def Settled (s : Accounts) : Prop :=
  s.calls.entries = [] ∧
    ∀ worker busy, s.workers.get worker = some busy → ∀ succeeded, busy.stage ≠ .cleared succeeded

structure Exact (s : Accounts) : Prop where
  pending : s.stats.pendingUploads = s.unfinished.length
  flags : ∀ path entry, s.entries.get path = some entry →
    (entry.pendingUpload = true ↔ ∃ sent ∈ s.unfinished, sent.task.remotePath = path)
  total : s.stats.pendingUploads + s.stats.uploadsCompleted + s.stats.uploadsFailed = s.sent

/-- A call of `flush` that returned `Ok` left no task unfinished that was sent before it. -/
def FlushMeansFlushed (history : History Accounts AccountAction FlushAnswer) : Prop :=
  ∀ e ∈ history, ∀ thread expired, e.act = .poll thread expired → e.out = .flushed →
    ∀ before, e.pre.flushes.get thread = some before →
      ∀ sent ∈ e.pre.unfinished, before ≤ sent.serial

/-- No writer sends, a path with an entry has one task at a time, a new entry is made for a
path without a task, a worker clears the mark and counts after the call that sent the task
did, and `flush` is called when no call has yet to count. -/
def Careful (s : Accounts) : AccountAction → Prop
  | .send _ task => (s.entries.get task.remotePath).isSome →
      ∀ sent ∈ s.unfinished, sent.task.remotePath ≠ task.remotePath
  | .writerSend _ => False
  | .insert path _ _ => ∀ sent ∈ s.unfinished, sent.task.remotePath ≠ path
  | .clear worker => ∀ busy ∈ s.workers.entries, busy.1 = worker →
      ∀ call ∈ s.calls.entries, call.2.sent.serial = busy.2.sent.serial → call.2.marked = true
  | .finish worker => ∀ busy ∈ s.workers.entries, busy.1 = worker →
      ∀ call ∈ s.calls.entries, call.2.sent.serial ≠ busy.2.sent.serial
  | .beginFlush _ => s.calls.entries = []
  | _ => True

instance (s : Accounts) : (action : AccountAction) → Decidable (s.Careful action)
  | .send _ task =>
    decidable_of_iff ((s.entries.get task.remotePath).isSome →
      ∀ sent ∈ s.unfinished, sent.task.remotePath ≠ task.remotePath) .rfl
  | .writerSend _ => .isFalse id
  | .insert path _ _ => decidable_of_iff (∀ sent ∈ s.unfinished, sent.task.remotePath ≠ path) .rfl
  | .clear worker =>
    decidable_of_iff (∀ busy ∈ s.workers.entries, busy.1 = worker →
      ∀ call ∈ s.calls.entries, call.2.sent.serial = busy.2.sent.serial → call.2.marked = true) .rfl
  | .finish worker =>
    decidable_of_iff (∀ busy ∈ s.workers.entries, busy.1 = worker →
      ∀ call ∈ s.calls.entries, call.2.sent.serial ≠ busy.2.sent.serial) .rfl
  | .beginFlush _ => decidable_of_iff (s.calls.entries.isEmpty = true) List.isEmpty_iff
  | .mark _ => .isTrue trivial
  | .count _ => .isTrue trivial
  | .receive _ => .isTrue trivial
  | .upload _ _ => .isTrue trivial
  | .remove _ => .isTrue trivial
  | .poll _ _ => .isTrue trivial

/-- The runs with careful steps only. -/
def carefulMachine : Machine Accounts AccountAction FlushAnswer := machine.under Careful

/-! ### The invariant -/

def Unmarked (s : Accounts) (sent : Sent) : Prop :=
  ∃ thread, s.calls.get thread = some ⟨sent, false⟩

def Cleared (s : Accounts) (sent : Sent) : Prop :=
  ∃ worker succeeded, s.workers.get worker = some ⟨sent, .cleared succeeded⟩

/-- A task of the path has been marked and not cleared. -/
def Shown (s : Accounts) (path : String) : Prop :=
  ∃ sent ∈ s.unfinished, sent.task.remotePath = path ∧ ¬s.Unmarked sent ∧ ¬s.Cleared sent

/-- The counter and the calls that have yet to count make up the unfinished tasks. -/
structure Counted (s : Accounts) : Prop where
  below : ∀ sent ∈ s.unfinished, sent.serial < s.sent
  nodup : s.unfinished.Nodup
  called : ∀ thread call, s.calls.get thread = some call → call.sent ∈ s.unfinished
  apart : ∀ thread thread' call call', s.calls.get thread = some call →
    s.calls.get thread' = some call' → call.sent = call'.sent → thread = thread'
  pending : s.stats.pendingUploads + s.calls.entries.length = s.unfinished.length
  total : s.unfinished.length + s.stats.uploadsCompleted + s.stats.uploadsFailed = s.sent
  flushing : ∀ thread before, s.flushes.get thread = some before → before ≤ s.sent ∧
    ∀ thread' call, s.calls.get thread' = some call → before ≤ call.sent.serial

/-- An entry has one task at most, and shows it between the mark and the clear. -/
structure Flagged (s : Accounts) : Prop where
  one : ∀ path entry, s.entries.get path = some entry → ∀ a ∈ s.unfinished, ∀ b ∈ s.unfinished,
    a.task.remotePath = path → b.task.remotePath = path → a = b
  flags : ∀ path entry, s.entries.get path = some entry →
    (entry.pendingUpload = true ↔ s.Shown path)
  unmarked : ∀ sent, s.Unmarked sent → ¬s.Cleared sent

variable {s s' : Accounts} {thread worker : Nat} {task : UploadTask} {sent : Sent}

theorem setPending_some {entries : Kv String CacheEntry} {path other : String} {pending : Bool}
    {entry : CacheEntry} (found : (setPending entries path pending).get other = some entry) :
    ∃ was, entries.get other = some was ∧
      ((other = path ∧ entry.pendingUpload = pending) ∨ (other ≠ path ∧ was = entry)) := by
  unfold setPending at found
  split at found
  · rename_i was before
    rw [Kv.get_put] at found
    split at found
    · rename_i own
      cases found
      exact ⟨was, own ▸ before, .inl ⟨own, rfl⟩⟩
    · rename_i different
      exact ⟨entry, found, .inr ⟨different, rfl⟩⟩
  · rename_i absent
    refine ⟨entry, found, .inr ⟨?_, rfl⟩⟩
    rintro rfl
    rw [absent] at found
    cases found

/-- The tasks of the calls that have yet to count. -/
def uncounted (s : Accounts) : List Sent := s.calls.entries.map (·.2.sent)

theorem Counted.uncounted_nodup (counted : Counted s) : s.uncounted.Nodup := by
  refine List.Nodup.map_on ?_ s.calls.entries_nodup
  rintro ⟨thread, call⟩ member ⟨thread', call'⟩ member' same
  have found := (Kv.mem_entries _).mp member
  have found' := (Kv.mem_entries _).mp member'
  have own := counted.apart thread thread' call call' found found' same
  subst own
  rw [found] at found'
  cases found'
  rfl

theorem Counted.uncounted_subset (counted : Counted s) : s.uncounted ⊆ s.unfinished := by
  intro sent member
  obtain ⟨⟨thread, call⟩, listed, rfl⟩ := List.mem_map.mp member
  exact counted.called thread call ((Kv.mem_entries _).mp listed)

/-- With the counter at zero, only tasks that are not counted yet are unfinished. -/
theorem Counted.uncounted_of_zero (counted : Counted s) (zero : s.stats.pendingUploads = 0)
    (open_ : sent ∈ s.unfinished) : ∃ thread call, s.calls.get thread = some call ∧
      call.sent = sent := by
  have fits : s.unfinished.length ≤ s.uncounted.length := by
    have pending := counted.pending
    rw [zero, Nat.zero_add] at pending
    rw [uncounted, List.length_map, pending]
  have all := (List.subperm_of_subset counted.uncounted_nodup
    counted.uncounted_subset).perm_of_length_le fits
  obtain ⟨⟨thread, call⟩, listed, same⟩ := List.mem_map.mp (all.mem_iff.mpr open_)
  exact ⟨thread, call, (Kv.mem_entries _).mp listed, same⟩

theorem exact_of_settled (counted : Counted s) (flagged : Flagged s) (settled : s.Settled) : s.Exact := by
  obtain ⟨noCalls, noBookkeeping⟩ := settled
  have pending := counted.pending
  have total := counted.total
  rw [noCalls, List.length_nil, Nat.add_zero] at pending
  refine ⟨pending, ?_, by omega⟩
  intro path entry found
  rw [flagged.flags path entry found]
  constructor
  · rintro ⟨sent, member, named, -⟩
    exact ⟨sent, member, named⟩
  · rintro ⟨sent, member, named⟩
    refine ⟨sent, member, named, ?_, ?_⟩
    · rintro ⟨thread, calling⟩
      have listed := (Kv.mem_entries _).mpr calling
      rw [noCalls] at listed
      cases listed
    · rintro ⟨worker, succeeded, busy⟩
      exact noBookkeeping worker _ busy succeeded rfl

/-! ### The unfinished tasks, step by step -/

theorem mem_unfinished_of_busy {busy : BusyWorker} (found : s.workers.get worker = some busy) :
    busy.sent ∈ s.unfinished :=
  List.mem_append_right _ (List.mem_map.mpr ⟨_, (Kv.mem_entries _).mpr found, rfl⟩)

theorem unfinished_sent (queue : s'.queue = s.queue ++ [sent]) (workers : s'.workers = s.workers) :
    s'.unfinished.Perm (sent :: s.unfinished) := by
  unfold unfinished
  rw [queue, workers, List.append_assoc]
  exact List.perm_middle

theorem unfinished_received {rest : List Sent} (queue : s.queue = sent :: rest)
    (idle : s.workers.get worker = none) (left : s'.queue = rest)
    (workers : s'.workers = s.workers.put worker ⟨sent, .received⟩) :
    s'.unfinished.Perm s.unfinished := by
  unfold unfinished
  rw [queue, left, workers]
  have grown := (s.workers.perm_put idle ⟨sent, .received⟩).map (·.2.sent)
  exact (grown.append_left rest).trans List.perm_middle

theorem unfinished_finished {stage : UploadStage} (busy : s.workers.get worker = some ⟨sent, stage⟩)
    (queue : s'.queue = s.queue) (workers : s'.workers = s.workers.delete worker) :
    s.unfinished.Perm (sent :: s'.unfinished) := by
  unfold unfinished
  rw [queue, workers]
  have shrunk := (s.workers.perm_delete busy).map (·.2.sent)
  exact (shrunk.append_left s.queue).trans List.perm_middle

theorem unfinished_moved {stage stage' : UploadStage}
    (busy : s.workers.get worker = some ⟨sent, stage⟩) (queue : s'.queue = s.queue)
    (workers : s'.workers = s.workers.put worker ⟨sent, stage'⟩) :
    s'.unfinished.Perm s.unfinished := by
  have busy' : s'.workers.get worker = some ⟨sent, stage'⟩ := by rw [workers, Kv.get_put_self]
  have others : s'.workers.delete worker = s.workers.delete worker := by
    refine Kv.ext_get fun other => ?_
    rw [workers, Kv.get_delete, Kv.get_delete, Kv.get_put]
    split <;> rfl
  have before : s.unfinished.Perm
      (sent :: ({ s with workers := s.workers.delete worker } : Accounts).unfinished) :=
    unfinished_finished busy rfl rfl
  have after : s'.unfinished.Perm
      (sent :: ({ s with workers := s.workers.delete worker } : Accounts).unfinished) :=
    unfinished_finished busy' queue.symm others.symm
  exact after.trans before.symm

/-- A worker that is not at the end of its bookkeeping, before or after its step. -/
theorem cleared_of_put {stage : UploadStage} (workers : s'.workers = s.workers.put worker ⟨sent, stage⟩)
    (before : ∀ sent' succeeded, s.workers.get worker ≠ some ⟨sent', .cleared succeeded⟩)
    (other : Sent) (after : (∀ succeeded, stage ≠ .cleared succeeded) ∨ other ≠ sent) :
    s'.Cleared other ↔ s.Cleared other := by
  unfold Cleared
  rw [workers]
  constructor
  · rintro ⟨worker', succeeded, busy⟩
    rw [Kv.get_put] at busy
    split at busy
    · cases busy
      rcases after with never | different
      · exact absurd rfl (never succeeded)
      · exact absurd rfl different
    · exact ⟨worker', succeeded, busy⟩
  · rintro ⟨worker', succeeded, busy⟩
    refine ⟨worker', succeeded, ?_⟩
    rw [Kv.get_put_ne _ ?_, busy]
    rintro rfl
    exact before other succeeded busy

/-! ### Counting -/

/-- A step that leaves the counters, the tasks of the calls and the unfinished tasks. -/
theorem Counted.same (counted : Counted s) (perm : s'.unfinished.Perm s.unfinished)
    (calls : ∀ thread, (s'.calls.get thread).map (·.sent) = (s.calls.get thread).map (·.sent))
    (length : s'.calls.entries.length = s.calls.entries.length) (stats : s'.stats = s.stats)
    (total : s'.sent = s.sent)
    (flushes : ∀ thread before, s'.flushes.get thread = some before →
      s.flushes.get thread = some before) : Counted s' := by
  have earlier : ∀ thread call, s'.calls.get thread = some call →
      ∃ was, s.calls.get thread = some was ∧ was.sent = call.sent := by
    intro thread call found
    have same := calls thread
    rw [found] at same
    obtain ⟨was, before, sent⟩ := Option.map_eq_some_iff.mp same.symm
    exact ⟨was, before, sent⟩
  refine ⟨?_, perm.nodup_iff.mpr counted.nodup, ?_, ?_, ?_, ?_, ?_⟩
  · intro sent member
    rw [total]
    exact counted.below sent (perm.mem_iff.mp member)
  · intro thread call found
    obtain ⟨was, before, sent⟩ := earlier thread call found
    rw [perm.mem_iff, ← sent]
    exact counted.called thread was before
  · intro thread thread' call call' found found' same
    obtain ⟨was, before, sent⟩ := earlier thread call found
    obtain ⟨was', before', sent'⟩ := earlier thread' call' found'
    exact counted.apart thread thread' was was' before before' (by rw [sent, sent', same])
  · rw [stats, length, perm.length_eq]
    exact counted.pending
  · rw [stats, total, perm.length_eq]
    exact counted.total
  · intro thread before flushing
    obtain ⟨bound, later⟩ := counted.flushing thread before (flushes thread before flushing)
    refine ⟨total ▸ bound, ?_⟩
    intro thread' call found
    obtain ⟨was, earlierCall, sent⟩ := earlier thread' call found
    rw [← sent]
    exact later thread' was earlierCall

theorem counted_send (counted : Counted s) (moved : s.send thread task = some s') : Counted s' := by
  unfold send at moved
  split at moved
  · cases moved
  · rename_i idle
    have after := (Option.some.inj moved).symm
    have calls : s'.calls = s.calls.put thread ⟨⟨s.sent, task⟩, false⟩ := by rw [after]
    have counter : s'.sent = s.sent + 1 := by rw [after]
    have stats : s'.stats = s.stats := by rw [after]
    have perm : s'.unfinished.Perm (⟨s.sent, task⟩ :: s.unfinished) :=
      unfinished_sent (by rw [after]) (by rw [after])
    have fresh : (⟨s.sent, task⟩ : Sent) ∉ s.unfinished := by
      intro member
      exact absurd (counted.below _ member) (Nat.lt_irrefl _)
    have calling : ∀ thread' call, s'.calls.get thread' = some call →
        (thread' = thread ∧ call.sent = ⟨s.sent, task⟩) ∨ s.calls.get thread' = some call := by
      intro thread' call found
      rw [calls, Kv.get_put] at found
      split at found
      · rename_i own
        cases found
        exact .inl ⟨own, rfl⟩
      · exact .inr found
    refine ⟨?_, ?_, ?_, ?_, ?_, ?_, ?_⟩
    · intro sent member
      rw [counter]
      rcases List.mem_cons.mp (perm.mem_iff.mp member) with rfl | old
      · exact Nat.lt_succ_self _
      · exact (counted.below sent old).trans (Nat.lt_succ_self _)
    · exact perm.nodup_iff.mpr (List.nodup_cons.mpr ⟨fresh, counted.nodup⟩)
    · intro thread' call found
      rw [perm.mem_iff]
      rcases calling thread' call found with ⟨-, own⟩ | old
      · rw [own]
        exact List.mem_cons_self
      · exact List.mem_cons_of_mem _ (counted.called thread' call old)
    · intro first second call call' found found' same
      rcases calling first call found with ⟨rfl, own⟩ | old
      · rcases calling second call' found' with ⟨rfl, -⟩ | old'
        · rfl
        · have listed := counted.called second call' old'
          rw [← same, own] at listed
          exact absurd listed fresh
      · rcases calling second call' found' with ⟨rfl, own⟩ | old'
        · have listed := counted.called first call old
          rw [same, own] at listed
          exact absurd listed fresh
        · exact counted.apart first second call call' old old' same
    · have pending := counted.pending
      rw [stats, calls, Kv.length_put, idle, perm.length_eq, List.length_cons]
      simp only [Option.isSome_none, Bool.false_eq_true, if_false]
      omega
    · have total := counted.total
      rw [stats, counter, perm.length_eq, List.length_cons]
      omega
    · intro thread' before flushing
      obtain ⟨bound, later⟩ := counted.flushing thread' before (by rw [after] at flushing; exact flushing)
      refine ⟨counter ▸ bound.trans (Nat.le_succ _), ?_⟩
      intro thread'' call found
      rcases calling thread'' call found with ⟨-, own⟩ | old
      · rw [own]
        exact bound
      · exact later thread'' call old

theorem counted_count (counted : Counted s) (moved : s.count thread = some s') : Counted s' := by
  unfold count at moved
  split at moved
  · rename_i sent found
    have after := (Option.some.inj moved).symm
    have calls : s'.calls = s.calls.delete thread := by rw [after]
    have same : s'.unfinished = s.unfinished := by rw [after]; rfl
    have shrunk := (s.calls.perm_delete found).length_eq
    have calling : ∀ thread' call, s'.calls.get thread' = some call →
        s.calls.get thread' = some call := by
      intro thread' call found'
      rw [calls, Kv.get_delete] at found'
      split at found'
      · cases found'
      · exact found'
    refine ⟨?_, ?_, ?_, ?_, ?_, ?_, ?_⟩
    · rw [same, after]
      exact counted.below
    · rw [same]
      exact counted.nodup
    · intro thread' call found'
      rw [same]
      exact counted.called thread' call (calling thread' call found')
    · intro first second call call' found₁ found₂
      exact counted.apart first second call call' (calling first call found₁)
        (calling second call' found₂)
    · have pending := counted.pending
      rw [shrunk, List.length_cons] at pending
      rw [same, calls, after]
      dsimp only
      omega
    · rw [same, after]
      exact counted.total
    · intro thread' before flushing
      obtain ⟨bound, later⟩ := counted.flushing thread' before (by rw [after] at flushing; exact flushing)
      refine ⟨by rw [after]; exact bound, ?_⟩
      intro thread'' call found'
      exact later thread'' call (calling thread'' call found')
  · cases moved

/-- A worker counts a task that its call has counted: the counter is not at zero. -/
theorem counted_finish (counted : Counted s) (careful : s.Careful (.finish worker))
    (moved : s.finish worker = some s') : Counted s' := by
  unfold finish at moved
  split at moved
  · rename_i sent succeeded busy
    have after := (Option.some.inj moved).symm
    have calls : s'.calls = s.calls := by rw [after]
    have counter : s'.sent = s.sent := by rw [after]
    have perm : s.unfinished.Perm (sent :: s'.unfinished) :=
      unfinished_finished busy (by rw [after]) (by rw [after])
    have elsewhere : s.uncounted ⊆ s'.unfinished := by
      intro other member
      obtain ⟨⟨thread, call⟩, listed, rfl⟩ := List.mem_map.mp member
      have unfinished := counted.uncounted_subset member
      refine List.mem_of_ne_of_mem ?_ (perm.mem_iff.mp unfinished)
      intro own
      exact careful _ ((Kv.mem_entries _).mpr busy) rfl _ listed (congrArg Sent.serial own)
    have room := (List.subperm_of_subset counted.uncounted_nodup elsewhere).length_le
    rw [uncounted, List.length_map] at room
    have length := perm.length_eq
    rw [List.length_cons] at length
    have stats : s'.stats.pendingUploads = s.stats.pendingUploads - 1 ∧
        s'.stats.uploadsCompleted + s'.stats.uploadsFailed =
          s.stats.uploadsCompleted + s.stats.uploadsFailed + 1 := by
      rw [after]
      cases succeeded with
      | true => exact ⟨rfl, Nat.add_right_comm ..⟩
      | false => exact ⟨rfl, rfl⟩
    have pending := counted.pending
    have total := counted.total
    refine ⟨?_, ?_, ?_, ?_, ?_, ?_, ?_⟩
    · intro other member
      rw [counter]
      exact counted.below other (perm.mem_iff.mpr (List.mem_cons_of_mem _ member))
    · exact (List.nodup_cons.mp (perm.nodup_iff.mp counted.nodup)).2
    · intro thread call found
      rw [calls] at found
      exact elsewhere (List.mem_map.mpr ⟨_, (Kv.mem_entries _).mpr found, rfl⟩)
    · rw [calls]
      exact counted.apart
    · rw [stats.1, calls]
      omega
    · rw [counter, Nat.add_assoc, stats.2]
      omega
    · rw [calls, counter, after]
      exact counted.flushing
  · cases moved

/-! ### Marks -/

/-- A step that leaves the marks, and adds no entry. -/
theorem Flagged.same (flagged : Flagged s)
    (entries : ∀ path entry, s'.entries.get path = some entry → s.entries.get path = some entry)
    (perm : s'.unfinished.Perm s.unfinished)
    (unmarked : ∀ sent, s'.Unmarked sent ↔ s.Unmarked sent)
    (cleared : ∀ sent, s'.Cleared sent ↔ s.Cleared sent) : Flagged s' := by
  refine ⟨?_, ?_, ?_⟩
  · intro path entry found a member b member'
    exact flagged.one path entry (entries path entry found) a (perm.mem_iff.mp member) b
      (perm.mem_iff.mp member')
  · intro path entry found
    rw [flagged.flags path entry (entries path entry found)]
    unfold Shown
    simp only [perm.mem_iff, unmarked, cleared]
  · intro sent given
    rw [cleared]
    exact flagged.unmarked sent ((unmarked sent).mp given)

/-- A new task is not marked yet, and the only one of an entry. -/
theorem flagged_send (counted : Counted s) (flagged : Flagged s)
    (careful : s.Careful (.send thread task)) (moved : s.send thread task = some s') :
    Flagged s' := by
  unfold send at moved
  split at moved
  · cases moved
  · rename_i idle
    have after := (Option.some.inj moved).symm
    have calls : s'.calls = s.calls.put thread ⟨⟨s.sent, task⟩, false⟩ := by rw [after]
    have entries : s'.entries = s.entries := by rw [after]
    have cleared : ∀ sent, s'.Cleared sent ↔ s.Cleared sent := by
      rw [after]
      exact fun _ => .rfl
    have perm : s'.unfinished.Perm (⟨s.sent, task⟩ :: s.unfinished) :=
      unfinished_sent (by rw [after]) (by rw [after])
    have fresh : (⟨s.sent, task⟩ : Sent) ∉ s.unfinished := by
      intro member
      exact absurd (counted.below _ member) (Nat.lt_irrefl _)
    have unmarked : ∀ sent, s'.Unmarked sent ↔ sent = ⟨s.sent, task⟩ ∨ s.Unmarked sent := by
      intro sent
      unfold Unmarked
      rw [calls]
      constructor
      · rintro ⟨thread', found⟩
        rw [Kv.get_put] at found
        split at found
        · cases found
          exact .inl rfl
        · exact .inr ⟨thread', found⟩
      · rintro (rfl | ⟨thread', found⟩)
        · exact ⟨thread, Kv.get_put_self ..⟩
        · refine ⟨thread', ?_⟩
          rw [Kv.get_put_ne _ ?_, found]
          rintro rfl
          rw [idle] at found
          cases found
    refine ⟨?_, ?_, ?_⟩
    · intro path entry found a member b member' named named'
      rw [entries] at found
      have lone : path = task.remotePath →
          ∀ sent ∈ s.unfinished, sent.task.remotePath ≠ task.remotePath := by
        rintro rfl
        exact careful (found ▸ rfl)
      rcases List.mem_cons.mp (perm.mem_iff.mp member) with rfl | old
      · rcases List.mem_cons.mp (perm.mem_iff.mp member') with rfl | old'
        · rfl
        · exact absurd (named'.trans named.symm) (lone named.symm b old')
      · rcases List.mem_cons.mp (perm.mem_iff.mp member') with rfl | old'
        · exact absurd (named.trans named'.symm) (lone named'.symm a old)
        · exact flagged.one path entry found a old b old' named named'
    · intro path entry found
      rw [entries] at found
      rw [flagged.flags path entry found]
      unfold Shown
      simp only [perm.mem_iff, List.mem_cons, unmarked, cleared, not_or]
      constructor
      · rintro ⟨sent, member, named, notMarked, notCleared⟩
        refine ⟨sent, .inr member, named, ⟨?_, notMarked⟩, notCleared⟩
        rintro rfl
        exact fresh member
      · rintro ⟨sent, own | member, named, ⟨different, notMarked⟩, notCleared⟩
        · exact absurd own different
        · exact ⟨sent, member, named, notMarked, notCleared⟩
    · intro sent given
      rw [cleared]
      rcases (unmarked sent).mp given with rfl | old
      · rintro ⟨worker, succeeded, busy⟩
        exact fresh (mem_unfinished_of_busy busy)
      · exact flagged.unmarked sent old

theorem shown_congr {path : String} (perm : s'.unfinished.Perm s.unfinished)
    (unmarked : ∀ sent, sent.task.remotePath = path → (s'.Unmarked sent ↔ s.Unmarked sent))
    (cleared : ∀ sent, sent.task.remotePath = path → (s'.Cleared sent ↔ s.Cleared sent)) :
    s'.Shown path ↔ s.Shown path := by
  constructor
  · rintro ⟨sent, member, named, notMarked, notCleared⟩
    rw [unmarked sent named] at notMarked
    rw [cleared sent named] at notCleared
    exact ⟨sent, perm.mem_iff.mp member, named, notMarked, notCleared⟩
  · rintro ⟨sent, member, named, notMarked, notCleared⟩
    rw [← unmarked sent named] at notMarked
    rw [← cleared sent named] at notCleared
    exact ⟨sent, perm.mem_iff.mpr member, named, notMarked, notCleared⟩

/-- The mark of one path is set as it is to be, and the others are left. -/
theorem Flagged.set {path : String} {pending : Bool} (flagged : Flagged s)
    (entries : s'.entries = setPending s.entries path pending)
    (perm : s'.unfinished.Perm s.unfinished)
    (own : ∀ entry, s.entries.get path = some entry → (pending = true ↔ s'.Shown path))
    (others : ∀ other, other ≠ path → (s'.Shown other ↔ s.Shown other))
    (unmarked : ∀ sent, s'.Unmarked sent → ¬s'.Cleared sent) : Flagged s' := by
  refine ⟨?_, ?_, unmarked⟩
  · intro other entry found a member b member'
    rw [entries] at found
    obtain ⟨was, before, -⟩ := setPending_some found
    exact flagged.one other was before a (perm.mem_iff.mp member) b (perm.mem_iff.mp member')
  · intro other entry found
    rw [entries] at found
    obtain ⟨was, before, ⟨rfl, flag⟩ | ⟨different, rfl⟩⟩ := setPending_some found
    · rw [flag]
      exact own was before
    · rw [others other different]
      exact flagged.flags other was before

/-- The mark of a task that no worker has cleared. -/
theorem flagged_mark (counted : Counted s) (flagged : Flagged s)
    (moved : s.mark thread = some s') : Flagged s' := by
  unfold mark at moved
  split at moved
  · rename_i sent found
    have after := (Option.some.inj moved).symm
    have same : s'.unfinished = s.unfinished := by rw [after]; rfl
    have cleared : ∀ other, s'.Cleared other ↔ s.Cleared other := by
      rw [after]
      exact fun _ => .rfl
    have unmarked : ∀ other, s'.Unmarked other ↔ other ≠ sent ∧ s.Unmarked other := by
      intro other
      unfold Unmarked
      rw [after]
      constructor
      · rintro ⟨thread', calling⟩
        dsimp only at calling
        rw [Kv.get_put] at calling
        split at calling
        · cases calling
        · rename_i elsewhere
          refine ⟨?_, thread', calling⟩
          rintro rfl
          exact elsewhere (counted.apart thread' thread _ _ calling found rfl)
      · rintro ⟨different, thread', calling⟩
        refine ⟨thread', ?_⟩
        dsimp only
        rw [Kv.get_put_ne _ ?_, calling]
        rintro rfl
        rw [found] at calling
        cases calling
        exact different rfl
    refine flagged.set (by rw [after]) (same ▸ .refl _) ?_ ?_ ?_
    · intro entry _
      refine iff_of_true rfl ⟨sent, ?_, rfl, ?_, ?_⟩
      · rw [same]
        exact counted.called thread _ found
      · rw [unmarked]
        exact fun both => both.1 rfl
      · rw [cleared]
        exact flagged.unmarked sent ⟨thread, found⟩
    · intro other different
      refine shown_congr (same ▸ .refl _) ?_ (fun sent' _ => cleared sent')
      intro sent' named
      rw [unmarked]
      refine and_iff_right ?_
      rintro rfl
      exact different named.symm
    · intro other given
      rw [cleared]
      exact flagged.unmarked other ((unmarked other).mp given).2
  · cases moved

/-- The mark of a path is cleared with its only task. -/
theorem flagged_clear (flagged : Flagged s) (careful : s.Careful (.clear worker))
    (moved : s.clear worker = some s') : Flagged s' := by
  unfold clear at moved
  split at moved
  · rename_i sent succeeded busy
    have after := (Option.some.inj moved).symm
    have perm : s'.unfinished.Perm s.unfinished :=
      unfinished_moved busy (by rw [after]) (by rw [after])
    have unmarked : ∀ other, s'.Unmarked other ↔ s.Unmarked other := by
      rw [after]
      exact fun _ => .rfl
    have own : s'.Cleared sent := ⟨worker, succeeded, by rw [after]; exact Kv.get_put_self ..⟩
    have cleared : ∀ other, other ≠ sent → (s'.Cleared other ↔ s.Cleared other) := by
      intro other different
      refine cleared_of_put (by rw [after]) ?_ other (.inr different)
      intro sent' succeeded'
      rw [busy]
      exact fun same => by cases same
    refine flagged.set (by rw [after]) perm ?_ ?_ ?_
    · intro entry found
      refine iff_of_false Bool.false_ne_true ?_
      rintro ⟨other, member, named, -, notCleared⟩
      have same := flagged.one _ entry found other (perm.mem_iff.mp member) sent
        (mem_unfinished_of_busy busy) named rfl
      exact notCleared (same ▸ own)
    · intro other different
      refine shown_congr perm (fun sent' _ => unmarked sent') ?_
      intro sent' named
      refine cleared sent' ?_
      rintro rfl
      exact different named.symm
    · intro other given
      rw [unmarked] at given
      by_cases same : other = sent
      · subst same
        obtain ⟨thread, calling⟩ := given
        have marked := careful _ ((Kv.mem_entries _).mpr busy) rfl _
          ((Kv.mem_entries _).mpr calling) rfl
        cases marked
      · rw [cleared other same]
        exact flagged.unmarked other given
  · cases moved

/-- A task that is cleared already is finished. -/
theorem flagged_finish (counted : Counted s) (flagged : Flagged s)
    (moved : s.finish worker = some s') : Flagged s' := by
  unfold finish at moved
  split at moved
  · rename_i sent succeeded busy
    have after := (Option.some.inj moved).symm
    have entries : s'.entries = s.entries := by rw [after]
    have perm : s.unfinished.Perm (sent :: s'.unfinished) :=
      unfinished_finished busy (by rw [after]) (by rw [after])
    have gone : sent ∉ s'.unfinished :=
      (List.nodup_cons.mp (perm.nodup_iff.mp counted.nodup)).1
    have member : ∀ other, other ∈ s'.unfinished → other ∈ s.unfinished :=
      fun other left => perm.mem_iff.mpr (List.mem_cons_of_mem _ left)
    have unmarked : ∀ other, s'.Unmarked other ↔ s.Unmarked other := by
      rw [after]
      exact fun _ => .rfl
    have cleared : ∀ other, s'.Cleared other → s.Cleared other := by
      rintro other ⟨worker', succeeded', busy'⟩
      rw [after] at busy'
      dsimp only at busy'
      rw [Kv.get_delete] at busy'
      split at busy'
      · cases busy'
      · exact ⟨worker', succeeded', busy'⟩
    refine ⟨?_, ?_, ?_⟩
    · intro path entry found a listed b listed'
      rw [entries] at found
      exact flagged.one path entry found a (member a listed) b (member b listed')
    · intro path entry found
      rw [entries] at found
      rw [flagged.flags path entry found]
      constructor
      · rintro ⟨other, listed, named, notMarked, notCleared⟩
        refine ⟨other, ?_, named, ?_, fun given => notCleared (cleared other given)⟩
        · refine List.mem_of_ne_of_mem ?_ (perm.mem_iff.mp listed)
          rintro rfl
          exact notCleared ⟨worker, succeeded, busy⟩
        · rw [unmarked]
          exact notMarked
      · rintro ⟨other, listed, named, notMarked, notCleared⟩
        refine ⟨other, member other listed, named, ?_, ?_⟩
        · rw [← unmarked]
          exact notMarked
        · rintro ⟨worker', succeeded', busy'⟩
          refine notCleared ⟨worker', succeeded', ?_⟩
          rw [after]
          refine (Kv.get_delete_ne _ ?_).trans busy'
          rintro rfl
          rw [busy] at busy'
          cases busy'
          exact gone listed
    · intro other given cleared'
      exact flagged.unmarked other ((unmarked other).mp given) (cleared other cleared')
  · cases moved

theorem flagged_insert {path : String} {size now : Nat} (flagged : Flagged s)
    (careful : s.Careful (.insert path size now))
    (after : s' = { s with entries := s.entries.put path (.new size now) }) : Flagged s' := by
  have entries : s'.entries = s.entries.put path (.new size now) := by rw [after]
  have shown : ∀ other, s'.Shown other ↔ s.Shown other := by
    rw [after]
    exact fun _ => .rfl
  have same : s'.unfinished = s.unfinished := by rw [after]; rfl
  refine ⟨?_, ?_, ?_⟩
  · intro other entry found a member b member' named named'
    rw [same] at member member'
    rw [entries, Kv.get_put] at found
    split at found
    · rename_i own
      exact absurd (named.trans own) (careful a member)
    · exact flagged.one other entry found a member b member' named named'
  · intro other entry found
    rw [shown]
    rw [entries, Kv.get_put] at found
    split at found
    · rename_i own
      cases found
      refine iff_of_false Bool.false_ne_true ?_
      rintro ⟨sent, member, named, -⟩
      exact careful sent member (named.trans own)
    · exact flagged.flags other entry found
  · rw [after]
    exact flagged.unmarked

/-! ### Runs -/

theorem accounted_step {action : AccountAction} {out : FlushAnswer} (counted : Counted s)
    (flagged : Flagged s) (careful : s.Careful action) (moved : s.step action = some (s', out)) :
    Counted s' ∧ Flagged s' := by
  cases action with
  | send thread task =>
    obtain ⟨next, took, same⟩ := Option.map_eq_some_iff.mp moved
    cases same
    exact ⟨counted_send counted took, flagged_send counted flagged careful took⟩
  | mark thread =>
    obtain ⟨next, took, same⟩ := Option.map_eq_some_iff.mp moved
    cases same
    refine ⟨?_, flagged_mark counted flagged took⟩
    unfold mark at took
    split at took
    · rename_i sent found
      cases took
      refine counted.same (.refl _) ?_ ?_ rfl rfl fun _ _ flushing => flushing
      · intro thread'
        dsimp only
        rw [Kv.get_put]
        split
        · rename_i own
          rw [own, found]
          rfl
        · rfl
      · dsimp only
        rw [Kv.length_put, found]
        rfl
    · cases took
  | count thread =>
    obtain ⟨next, took, same⟩ := Option.map_eq_some_iff.mp moved
    cases same
    refine ⟨counted_count counted took, ?_⟩
    unfold count at took
    split at took
    · rename_i sent found
      cases took
      refine flagged.same (fun _ _ kept => kept) (.refl _) ?_ fun _ => .rfl
      intro other
      constructor
      · rintro ⟨thread', calling⟩
        dsimp only at calling
        rw [Kv.get_delete] at calling
        split at calling
        · cases calling
        · exact ⟨thread', calling⟩
      · rintro ⟨thread', calling⟩
        refine ⟨thread', (Kv.get_delete_ne _ ?_).trans calling⟩
        rintro rfl
        rw [found] at calling
        cases calling
    · cases took
  | writerSend task => exact absurd careful id
  | receive worker =>
    obtain ⟨next, took, same⟩ := Option.map_eq_some_iff.mp moved
    cases same
    unfold receive at took
    split at took
    · rename_i sent rest queue idle
      have after := (Option.some.inj took).symm
      have perm : s'.unfinished.Perm s.unfinished :=
        unfinished_received queue idle (by rw [after]) (by rw [after])
      have cleared : ∀ other, s'.Cleared other ↔ s.Cleared other := by
        intro other
        refine cleared_of_put (by rw [after]) ?_ other (.inl fun _ same => by cases same)
        intro sent' succeeded
        rw [idle]
        exact fun same => by cases same
      rw [after] at perm cleared ⊢
      exact ⟨counted.same perm (fun _ => rfl) rfl rfl rfl fun _ _ flushing => flushing,
        flagged.same (fun _ _ kept => kept) perm (fun _ => .rfl) cleared⟩
    · cases took
  | upload worker succeeds =>
    obtain ⟨next, took, same⟩ := Option.map_eq_some_iff.mp moved
    cases same
    unfold upload at took
    split at took
    · rename_i sent busy
      have after := (Option.some.inj took).symm
      have perm : s'.unfinished.Perm s.unfinished :=
        unfinished_moved busy (by rw [after]) (by rw [after])
      have cleared : ∀ other, s'.Cleared other ↔ s.Cleared other := by
        intro other
        refine cleared_of_put (by rw [after]) ?_ other (.inl fun _ same => by cases same)
        intro sent' succeeded
        rw [busy]
        exact fun same => by cases same
      rw [after] at perm cleared ⊢
      exact ⟨counted.same perm (fun _ => rfl) rfl rfl rfl fun _ _ flushing => flushing,
        flagged.same (fun _ _ kept => kept) perm (fun _ => .rfl) cleared⟩
    · cases took
  | clear worker =>
    obtain ⟨next, took, same⟩ := Option.map_eq_some_iff.mp moved
    cases same
    refine ⟨?_, flagged_clear flagged careful took⟩
    unfold clear at took
    split at took
    · rename_i sent succeeded busy
      have after := (Option.some.inj took).symm
      have perm : s'.unfinished.Perm s.unfinished :=
        unfinished_moved busy (by rw [after]) (by rw [after])
      rw [after] at perm ⊢
      exact counted.same perm (fun _ => rfl) rfl rfl rfl fun _ _ flushing => flushing
    · cases took
  | finish worker =>
    obtain ⟨next, took, same⟩ := Option.map_eq_some_iff.mp moved
    cases same
    exact ⟨counted_finish counted careful took, flagged_finish counted flagged took⟩
  | insert path size now =>
    cases moved
    exact ⟨counted.same (.refl _) (fun _ => rfl) rfl rfl rfl fun _ _ flushing => flushing,
      flagged_insert flagged careful rfl⟩
  | remove path =>
    cases moved
    refine ⟨counted.same (.refl _) (fun _ => rfl) rfl rfl rfl fun _ _ flushing => flushing,
      flagged.same ?_ (.refl _) (fun _ => .rfl) fun _ => .rfl⟩
    intro other entry kept
    dsimp only at kept
    rw [Kv.get_delete] at kept
    split at kept
    · cases kept
    · exact kept
  | beginFlush thread =>
    simp only [step] at moved
    split at moved
    · cases moved
    · cases moved
      refine ⟨⟨counted.below, counted.nodup, counted.called, counted.apart, counted.pending,
        counted.total, ?_⟩, flagged.same (fun _ _ kept => kept) (.refl _) (fun _ => .rfl) fun _ => .rfl⟩
      intro thread' before flushing
      dsimp only at flushing
      rw [Kv.get_put] at flushing
      split at flushing
      · cases flushing
        refine ⟨Nat.le_refl _, ?_⟩
        intro thread'' call calling
        have listed := (Kv.mem_entries _).mpr calling
        rw [careful] at listed
        cases listed
      · exact counted.flushing thread' before flushing
  | poll thread expired =>
    have fewer : ∀ thread' before, (s.flushes.delete thread).get thread' = some before →
        s.flushes.get thread' = some before := by
      intro thread' before kept
      rw [Kv.get_delete] at kept
      split at kept
      · cases kept
      · exact kept
    have ended : Counted { s with flushes := s.flushes.delete thread } ∧
        Flagged { s with flushes := s.flushes.delete thread } :=
      ⟨counted.same (.refl _) (fun _ => rfl) rfl rfl rfl fewer,
        flagged.same (fun _ _ kept => kept) (.refl _) (fun _ => .rfl) fun _ => .rfl⟩
    simp only [step, poll] at moved
    split at moved
    · cases moved
    · split at moved
      · cases moved
        exact ended
      · split at moved
        · cases moved
          exact ended
        · cases moved
          exact ⟨counted, flagged⟩

theorem accounted_new : Counted new ∧ Flagged new := by
  refine ⟨⟨?_, List.nodup_nil, ?_, ?_, rfl, rfl, ?_⟩, ⟨?_, ?_, ?_⟩⟩
  · intro sent member
    cases member
  · intro thread call found
    cases found
  · intro first second call call' found
    cases found
  · intro thread before flushing
    cases flushing
  · intro path entry found
    cases found
  · intro path entry found
    cases found
  · rintro sent ⟨thread, calling⟩
    cases calling

theorem accounted_run (run : Run carefulMachine new history s) : Counted s ∧ Flagged s := by
  refine run.invariant (P := fun s => Counted s ∧ Flagged s) accounted_new ?_
  intro s action s' out accounted moved
  obtain ⟨careful, took⟩ := (Machine.under_step _ _).mp moved
  exact accounted_step accounted.1 accounted.2 careful took

end Accounts

/-- In every run of producers, workers and flushes with careful steps only: the counters
and the marks are exact whenever nothing is between its steps, and a flush that returned
left no task unfinished that was sent before it. -/
theorem careful_uploads_accounted (run : Run Accounts.carefulMachine Accounts.new history s) :
    (s.Settled → s.Exact) ∧ Accounts.FlushMeansFlushed history := by
  refine ⟨fun settled => ?_, ?_⟩
  · obtain ⟨counted, flagged⟩ := Accounts.accounted_run run
    exact Accounts.exact_of_settled counted flagged settled
  · intro e member thread expired polled flushed before flushing sent unfinished
    obtain ⟨older, reached, moved⟩ := run.recorded member
    obtain ⟨counted, -⟩ := Accounts.accounted_run reached
    obtain ⟨-, took⟩ := (Machine.under_step _ _).mp moved
    have zero : e.pre.stats.pendingUploads = 0 := by
      simp only [polled, flushed, Accounts.machine, Accounts.step, Accounts.poll, flushing] at took
      split at took
      · assumption
      · split at took <;> simp at took
    obtain ⟨thread', call, calling, rfl⟩ := counted.uncounted_of_zero zero unfinished
    exact (counted.flushing thread before flushing).2 thread' call calling

/-- The task of a path and its size. -/
def uploadOf (path : String) (size : Nat) : UploadTask := ⟨cachePath path, path, size⟩

/-- Two uploads, one of which fails, and a flush that waits for both. -/
theorem two_uploads_accounted :
    ∃ history s, Run Accounts.carefulMachine Accounts.new history s ∧ s.sent = 2 ∧
      s.stats.uploadsFailed = 1 ∧ (s.Settled → s.Exact) ∧
      Accounts.FlushMeansFlushed history := by
  obtain ⟨history, s, run, seen⟩ := Run.of_observation Accounts.carefulMachine Accounts.new
    [.insert "p" 1 0, .send 0 (uploadOf "p" 1), .receive 7, .mark 0, .count 0,
      .send 0 (uploadOf "q" 2), .mark 0, .count 0, .beginFlush 1, .poll 1 false, .upload 7 true,
      .clear 7, .finish 7, .receive 7, .upload 7 false, .clear 7, .finish 7, .poll 1 false]
    (fun end_ => (end_.2.sent, end_.2.stats.uploadsFailed)) (2, 1) (by decide +kernel)
  obtain ⟨sent, failed⟩ : _ ∧ _ := by simpa only [Prod.mk.injEq] using seen
  exact ⟨history, s, run, sent, failed, careful_uploads_accounted run⟩

/-- A writer's task is not counted: the flush returns while the task waits, and the
counters are short of it. -/
theorem writer_upload_not_counted :
    ∃ history s, Run Accounts.machine Accounts.new history s ∧ s.Settled ∧ ¬s.Exact ∧
      ¬Accounts.FlushMeansFlushed history := by
  let sent := Accounts.new.writerSend (uploadOf "p" 1)
  let flushing := { sent with flushes := sent.flushes.put 0 1 }
  let returned := { flushing with flushes := flushing.flushes.delete 0 }
  have run : Run Accounts.machine Accounts.new
      [⟨flushing, .poll 0 false, .flushed, returned⟩, ⟨sent, .beginFlush 0, .nothing, flushing⟩,
        ⟨.new, .writerSend (uploadOf "p" 1), .nothing, sent⟩] returned :=
    .next (.next (.next .start rfl) rfl) rfl
  refine ⟨_, _, run, ⟨rfl, ?_⟩, ?_, ?_⟩
  · intro worker busy found
    cases found
  · intro exact
    exact absurd exact.pending (by decide)
  · intro flushed
    have finished := flushed _ List.mem_cons_self 0 false rfl rfl 1 rfl ⟨0, uploadOf "p" 1⟩
      List.mem_cons_self
    exact absurd finished (by decide)

end Roboflow.Storage
