import Roboflow.Library.Machine

/-! Episode allocation, `episode/allocator.rs`: any number of
`TiKVEpisodeAllocator` instances on one counter key. `allocate` and
`allocate_batch` are cut at their `TikvClient` calls: the get and the cas of
`ensure_initialized`, the get of `cas_allocate` and its cas. -/
namespace Roboflow.Episode
open Library

structure EpisodeCounter where
  nextEpisode : Nat
  version : Nat
  deriving DecidableEq, Repr

def EpisodeCounter.new : EpisodeCounter := ⟨0, 0⟩

/-- How `TikvClient::cas` ends. -/
inductive CasResult where
  | swapped
  /-- `Ok(false)`: nothing is stored and a version was expected. -/
  | absent
  /-- `TikvError::CasFailed`. -/
  | casFailed
  deriving DecidableEq, Repr

/-- `TikvClient::cas` on the counter key, by the `version` field of the stored value. -/
def cas (stored : Option EpisodeCounter) (expected : Nat) (value : EpisodeCounter) :
    Option EpisodeCounter × CasResult :=
  match stored with
  | some existing =>
    if existing.version = expected then (some value, .swapped) else (stored, .casFailed)
  | none => if expected = 0 then (some value, .swapped) else (none, .absent)

structure EpisodeAllocation where
  episodeIndex : Nat
  chunkIndex : Nat
  chunkOffset : Nat
  deriving DecidableEq, Repr

/-- `EpisodeAllocation::new`, which panics on an empty chunk. -/
def EpisodeAllocation.new (episodeIndex episodesPerChunk : Nat) : Option EpisodeAllocation :=
  if episodesPerChunk = 0 then none
  else some {
    episodeIndex := episodeIndex
    chunkIndex := episodeIndex / episodesPerChunk % 2 ^ 32
    chunkOffset := episodeIndex % episodesPerChunk % 2 ^ 32 }

/-- The configuration of a `TiKVEpisodeAllocator`: a `u32` and a `u64`. -/
structure Allocator where
  episodesPerChunk : Nat
  maxEpisodes : Nat
  chunkFits : episodesPerChunk < 2 ^ 32
  maxFits : maxEpisodes < 2 ^ 64

namespace Allocator

/-- `TiKVEpisodeAllocator::new`. -/
def new (episodesPerChunk : Nat) (fits : episodesPerChunk < 2 ^ 32) : Allocator where
  episodesPerChunk := episodesPerChunk
  maxEpisodes := (2 ^ 32 - 1) * episodesPerChunk
  chunkFits := fits
  maxFits := by omega

/-- `TiKVEpisodeAllocator::with_max_episodes`. -/
def withMaxEpisodes (allocator : Allocator) (max : Nat) (fits : max < 2 ^ 64) : Allocator :=
  { allocator with maxEpisodes := max, maxFits := fits }

end Allocator

inductive Request where
  | allocate
  | allocateBatch (count : Nat)

/-- How many indices `cas_allocate` is asked for. -/
def Request.count : Request → Nat
  | .allocate => 1
  | .allocateBatch count => count

inductive EpisodeAllocatorError where
  /-- `TikvError::CasFailed` after the last attempt, or another `TikvError`. -/
  | casFailed
  | tikvError
  | overflow (maxEpisodes : Nat)
  | notInitialized
  | batchExceedsLimit (requested current max : Nat)
  deriving DecidableEq

/-- A call in progress: whose it is, what it asks for and the attempts it has used. -/
structure Work where
  instanceId : Nat
  request : Request
  attempts : Nat

/-- Where a task is between two `TikvClient` calls. -/
inductive AllocCall where
  | idle
  /-- Before the get of `ensure_initialized`. -/
  | checking (work : Work)
  /-- Before the cas of `ensure_initialized`: the get found nothing. -/
  | initializing (work : Work)
  /-- Before the get of `cas_allocate`. -/
  | reading (work : Work)
  /-- Before the cas of `cas_allocate`, with the counter it read. -/
  | swapping (work : Work) (read : EpisodeCounter)

structure AllocState where
  counter : Option EpisodeCounter
  tasks : Nat → AllocCall

inductive AllocOut where
  | working
  | returned (instanceId : Nat) (allocations : List EpisodeAllocation)
  | failed (error : EpisodeAllocatorError)
  | panicked

inductive AllocAction where
  | call (task instanceId : Nat) (request : Request)
  | checkGet (task : Nat)
  | initCas (task : Nat)
  /-- The cas of `ensure_initialized` ends in an error, which is ignored. -/
  | initCasError (task : Nat)
  | readGet (task : Nat)
  | allocateCas (task : Nat)
  /-- Any other `TikvClient` call ends in an error. -/
  | clientError (task : Nat)

def maxAttempts : Nat := 10

/-- `cas_allocate` between its get and its cas: the range check, and the counter to store. -/
def advance (read : EpisodeCounter) (count maxEpisodes : Nat) : Option EpisodeCounter :=
  if 2 ^ 64 ≤ read.nextEpisode + count then none
  else if maxEpisodes < read.nextEpisode + count then none
  else some ⟨read.nextEpisode + count, (read.version + 1) % 2 ^ 64⟩

def AllocState.setTask (s : AllocState) (task : Nat) (call : AllocCall) : AllocState :=
  { s with tasks := Function.update s.tasks task call }

section
variable (allocators : Nat → Allocator)

/-- The allocations a call returns after its cas succeeded. -/
def allocations (work : Work) (start : Nat) : Option (List EpisodeAllocation) :=
  (List.range' start work.request.count).mapM fun index =>
    EpisodeAllocation.new index (allocators work.instanceId).episodesPerChunk

def allocStep (s : AllocState) : AllocAction → Option (AllocState × AllocOut)
  | .call task instanceId request =>
    match s.tasks task with
    | .idle =>
      match request with
      | .allocateBatch 0 => some (s, .returned instanceId [])
      | _ => some (s.setTask task (.checking ⟨instanceId, request, 0⟩), .working)
    | _ => none
  | .checkGet task =>
    match s.tasks task with
    | .checking work =>
      if s.counter.isNone then some (s.setTask task (.initializing work), .working)
      else some (s.setTask task (.reading work), .working)
    | _ => none
  | .initCas task =>
    match s.tasks task with
    | .initializing work =>
      some ({ s with counter := (cas s.counter 0 .new).1 }.setTask task (.reading work), .working)
    | _ => none
  | .initCasError task =>
    match s.tasks task with
    | .initializing work => some (s.setTask task (.reading work), .working)
    | _ => none
  | .readGet task =>
    match s.tasks task with
    | .reading work =>
      match s.counter with
      | none => some (s.setTask task .idle, .failed .notInitialized)
      | some read =>
        match advance read work.request.count (allocators work.instanceId).maxEpisodes with
        | none =>
          some (s.setTask task .idle,
            .failed (.overflow (allocators work.instanceId).maxEpisodes))
        | some _ => some (s.setTask task (.swapping work read), .working)
    | _ => none
  | .allocateCas task =>
    match s.tasks task with
    | .swapping work read =>
      match advance read work.request.count (allocators work.instanceId).maxEpisodes with
      | none => none
      | some next =>
        let answer := cas s.counter read.version next
        if answer.2 = .swapped then
          let s' := { s with counter := answer.1 }.setTask task .idle
          match allocations allocators work read.nextEpisode with
          | some granted => some (s', .returned work.instanceId granted)
          | none => some (s', .panicked)
        else if maxAttempts ≤ work.attempts + 1 then some (s.setTask task .idle, .failed .casFailed)
        else
          some (s.setTask task (.checking { work with attempts := work.attempts + 1 }), .working)
    | _ => none
  | .clientError task =>
    match s.tasks task with
    | .checking _ | .reading _ | .swapping _ _ => some (s.setTask task .idle, .failed .tikvError)
    | _ => none

def episodeAllocators : Machine AllocState AllocAction AllocOut := ⟨allocStep allocators⟩

end

/-- Nothing stored, no call in progress. -/
def AllocState.initial : AllocState := ⟨none, fun _ => .idle⟩

abbrev AllocHistory := History AllocState AllocAction AllocOut

end Roboflow.Episode
