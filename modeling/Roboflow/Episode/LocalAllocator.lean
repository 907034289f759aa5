import Roboflow.Episode.DenseIndices

/-! The calls of one allocator, one after the other: those of a single
`TiKVEpisodeAllocator` whose client does not fail, and those of a
`LocalEpisodeAllocator`, from the same file `episode/allocator.rs`. -/
namespace Roboflow.Episode
open Library

/-- A call of the `EpisodeAllocator` trait; the count is a `usize`. -/
inductive Call where
  | allocate
  | allocateBatch (count : Fin (2 ^ 64))
  | allocatedCount

/-- How many episodes a call asks for. -/
def Call.count : Call → Nat
  | .allocate => 1
  | .allocateBatch count => count
  | .allocatedCount => 0

/-- What a call gives back; it panics where `EpisodeAllocation::new` does. -/
inductive Answer (ε : Type) where
  | allocated (granted : List EpisodeAllocation)
  | counted (count : Nat)
  | failed (error : ε)
  | panicked
  deriving DecidableEq

/-- The answer, whatever a failed call says. -/
def Answer.result : Answer ε → Answer Unit
  | .allocated granted => .allocated granted
  | .counted count => .counted count
  | .failed _ => .failed ()
  | .panicked => .panicked

/-- The allocations made for a range of indices. -/
def allocateRange (perChunk start count : Nat) : Answer ε :=
  match (List.range' start count).mapM fun index => EpisodeAllocation.new index perChunk with
  | some granted => .allocated granted
  | none => .panicked

/-- The answers to a sequence of calls, which ends with the call that panics. -/
def answers (perform : σ → Call → σ × Answer ε) : σ → List Call → List (Answer Unit)
  | _, [] => []
  | s, call :: rest =>
    let answer := (perform s call).2.result
    answer :: if answer = .panicked then [] else answers perform (perform s call).1 rest

namespace TikvAllocator

variable (allocator : Allocator)

/-- `ensure_initialized`. -/
def ensureInitialized (stored : Option EpisodeCounter) : Option EpisodeCounter :=
  if stored.isNone then (cas stored 0 .new).1 else stored

/-- `cas_allocate`. -/
def casAllocate (count : Nat) (stored : Option EpisodeCounter) :
    Option EpisodeCounter × Except EpisodeAllocatorError Nat :=
  match ensureInitialized stored with
  | none => (none, .error .notInitialized)
  | some read =>
    match advance read count allocator.maxEpisodes with
    | none => (some read, .error (.overflow allocator.maxEpisodes))
    | some next =>
      let answer := cas (some read) read.version next
      (answer.1, if answer.2 = .swapped then .ok read.nextEpisode else .error .casFailed)

/-- The retry loop of `allocate` and `allocate_batch`, by the attempts it has left. -/
def retry (count : Nat) : Nat → Option EpisodeCounter →
    Option EpisodeCounter × Except EpisodeAllocatorError Nat
  | 0, stored => (stored, .error .casFailed)
  | left + 1, stored =>
    match casAllocate allocator count stored with
    | (after, .error .casFailed) => retry count left after
    | result => result

/-- What the loop's result is made into. -/
def grant (count : Nat) : Except EpisodeAllocatorError Nat → Answer EpisodeAllocatorError
  | .ok start => allocateRange allocator.episodesPerChunk start count
  | .error error => .failed error

def perform (stored : Option EpisodeCounter) : Call →
    Option EpisodeCounter × Answer EpisodeAllocatorError
  | .allocate =>
    let result := retry allocator 1 maxAttempts stored
    (result.1, grant allocator 1 result.2)
  | .allocateBatch count =>
    if count.val = 0 then (stored, .allocated [])
    else
      let result := retry allocator count maxAttempts stored
      (result.1, grant allocator count result.2)
  | .allocatedCount => (stored, .counted ((stored.map (·.nextEpisode)).getD 0))

theorem ensureInitialized_some (stored : Option EpisodeCounter) :
    ∃ version, ensureInitialized stored = some ⟨(stored.map (·.nextEpisode)).getD 0, version⟩ := by
  cases stored with
  | none => exact ⟨0, rfl⟩
  | some counter => exact ⟨counter.version, rfl⟩

section
variable {allocator : Allocator} {count : Nat} {stored : Option EpisodeCounter}
  {found next : EpisodeCounter}

/-! The first attempt is decided by the limit alone, so the loop never comes to a second. -/

theorem retry_refused (initialized : ensureInitialized stored = some found)
    (refused : advance found count allocator.maxEpisodes = none) :
    retry allocator count maxAttempts stored =
      (some found, .error (.overflow allocator.maxEpisodes)) := by
  simp [retry, maxAttempts, casAllocate, initialized, refused]

theorem retry_swapped (initialized : ensureInitialized stored = some found)
    (advanced : advance found count allocator.maxEpisodes = some next) :
    retry allocator count maxAttempts stored = (some next, .ok found.nextEpisode) := by
  simp [retry, maxAttempts, casAllocate, initialized, advanced, cas]

end

/-! ### A call as a run of the machine of all allocators -/

section
variable (allocators : Nat → Allocator) {s : AllocState} {task : Nat}

/-- `allocate` or `allocate_batch` up to the get of `cas_allocate`. -/
theorem run_to_reading (idle : s.tasks task = .idle) (work : Work) (fresh : work.attempts = 0)
    (asks : 0 < work.request.count) :
    ∃ history, Run (episodeAllocators allocators) s history
      ({ s with counter := ensureInitialized s.counter }.setTask task (.reading work)) := by
  obtain ⟨instanceId, request, attempts⟩ := work
  obtain rfl : attempts = 0 := fresh
  have called : (episodeAllocators allocators).step s (.call task instanceId request) =
      some (s.setTask task (.checking ⟨instanceId, request, 0⟩), .working) := by
    simp only [episodeAllocators, allocStep, idle]
    split
    · cases asks
    · rfl
  generalize Work.mk instanceId request 0 = work at called ⊢
  cases stored : s.counter with
  | none =>
    have missing : (episodeAllocators allocators).step (s.setTask task (.checking work))
        (.checkGet task) = some (s.setTask task (.initializing work), .working) := by
      simp [episodeAllocators, allocStep, AllocState.setTask, stored]
    have created : (episodeAllocators allocators).step (s.setTask task (.initializing work))
        (.initCas task) =
          some ({ s with counter := ensureInitialized none }.setTask task (.reading work), .working) := by
      simp [episodeAllocators, allocStep, AllocState.setTask, stored, ensureInitialized]
    exact ⟨_, ((Run.start.next called).next missing).next created⟩
  | some counter =>
    have found : (episodeAllocators allocators).step (s.setTask task (.checking work))
        (.checkGet task) = some ({ s with counter := ensureInitialized (some counter) }.setTask task
          (.reading work), .working) := by
      simp [episodeAllocators, allocStep, AllocState.setTask, stored, ensureInitialized]
    exact ⟨_, (Run.start.next called).next found⟩

/-- What a caller of the machine is given back. -/
def answerOf : AllocOut → Option (Answer EpisodeAllocatorError)
  | .working => none
  | .returned _ granted => some (.allocated granted)
  | .failed error => some (.failed error)
  | .panicked => some .panicked

/-- A call made while its task has no other in progress is a run of that machine, with the
same answer and the same counter at the end. -/
theorem perform_is_run (idle : s.tasks task = .idle) (work : Work) (fresh : work.attempts = 0)
    (asks : 0 < work.request.count) :
    ∃ history last, Run (episodeAllocators allocators) s (last :: history)
        ⟨(retry (allocators work.instanceId) work.request.count maxAttempts s.counter).1, s.tasks⟩ ∧
      answerOf last.out = some (grant (allocators work.instanceId) work.request.count
        (retry (allocators work.instanceId) work.request.count maxAttempts s.counter).2) := by
  obtain ⟨history, reading⟩ := run_to_reading allocators idle work fresh asks
  obtain ⟨version, initialized⟩ := ensureInitialized_some s.counter
  rw [initialized] at reading
  have back : ∀ call, Function.update (Function.update s.tasks task call) task .idle = s.tasks := by
    intro call
    rw [Function.update_idem]
    exact Function.update_eq_self_iff.mpr idle.symm
  generalize EpisodeCounter.mk _ version = found at initialized reading
  cases advanced : advance found work.request.count (allocators work.instanceId).maxEpisodes with
  | none =>
    rw [retry_refused initialized advanced]
    have refused : (episodeAllocators allocators).step
        ({ s with counter := some found }.setTask task (.reading work)) (.readGet task) =
          some (⟨some found, s.tasks⟩, .failed (.overflow (allocators work.instanceId).maxEpisodes)) := by
      simp [episodeAllocators, allocStep, AllocState.setTask, advanced, back]
    exact ⟨_, _, reading.next refused, rfl⟩
  | some next =>
    rw [retry_swapped initialized advanced]
    have read : (episodeAllocators allocators).step
        ({ s with counter := some found }.setTask task (.reading work)) (.readGet task) =
          some ({ s with counter := some found }.setTask task (.swapping work found), .working) := by
      simp [episodeAllocators, allocStep, AllocState.setTask, advanced]
    have swapped : ∃ out, (episodeAllocators allocators).step
        ({ s with counter := some found }.setTask task (.swapping work found)) (.allocateCas task) =
          some (⟨some next, s.tasks⟩, out) ∧
        answerOf out = some (allocateRange (allocators work.instanceId).episodesPerChunk
          found.nextEpisode work.request.count) := by
      cases made : allocations allocators work found.nextEpisode with
      | none =>
        refine ⟨.panicked, ?_, ?_⟩
        · simp [episodeAllocators, allocStep, AllocState.setTask, advanced, cas, made, back]
        · simp only [allocations] at made
          simp [answerOf, allocateRange, made]
      | some granted =>
        refine ⟨.returned work.instanceId granted, ?_, ?_⟩
        · simp [episodeAllocators, allocStep, AllocState.setTask, advanced, cas, made, back]
        · simp only [allocations] at made
          simp [answerOf, allocateRange, made]
    obtain ⟨out, stepped, answer⟩ := swapped
    exact ⟨_, _, (reading.next read).next stepped, answer⟩

end

end TikvAllocator

namespace LocalAllocator

variable (allocator : Allocator)

/-- `AtomicU64::fetch_add`: the counter after it. The old value is the state before. -/
def fetchAdd (counter count : Nat) : Nat := (counter + count) % 2 ^ 64

def perform (counter : Nat) : Call → Nat × Answer EpisodeAllocatorError
  | .allocate =>
    (fetchAdd counter 1,
      if allocator.maxEpisodes ≤ counter then .failed (.overflow allocator.maxEpisodes)
      else allocateRange allocator.episodesPerChunk counter 1)
  | .allocateBatch count =>
    if count.val = 0 then (counter, .allocated [])
    else
      -- `start + count as u64` wraps around, and the range up to it is then empty
      let stop := (counter + count) % 2 ^ 64
      (fetchAdd counter count,
        if allocator.maxEpisodes < stop then
          .failed (.batchExceedsLimit count counter allocator.maxEpisodes)
        else allocateRange allocator.episodesPerChunk counter (stop - counter))
  | .allocatedCount => (counter, .counted counter)

end LocalAllocator

end Roboflow.Episode
