import Roboflow.Episode.LocalAllocator
import Roboflow.Lerobot.VideoBuffers

/-! The chunk of an episode, computed in three places: with an allocation, by
`chunk_index_from_episode`, and in a checkpoint. Under the default limit every index
is below `u32::MAX` chunks, so that all three agree and nothing is cut off. -/
namespace Roboflow.Episode
open Library

/-- `EpisodeAllocation::video_path`. -/
def EpisodeAllocation.videoPath (allocation : EpisodeAllocation) (cameraName : String) : String :=
  Lerobot.videoPath allocation.chunkIndex cameraName allocation.episodeIndex

/-- `EpisodeAllocation::parquet_path`. -/
def EpisodeAllocation.parquetPath (allocation : EpisodeAllocation) : String :=
  Lerobot.parquetPath allocation.chunkIndex allocation.episodeIndex

/-- `chunk_index_from_episode`, which panics on an empty chunk. -/
def chunkIndexFromEpisode (episodeIndex episodesPerChunk : Nat) : Option Nat :=
  if episodesPerChunk = 0 then none else some (episodeIndex / episodesPerChunk % 2 ^ 32)

/-- The fields of a checkpoint that `update_episode` reads and writes. -/
structure CheckpointState where
  episodeIdx : Nat
  chunkIdx : Nat
  episodesPerChunk : Nat
  updatedAt : Int
  version : Nat

/-- `CheckpointState::update_episode`. -/
def CheckpointState.updateEpisode (checkpoint : CheckpointState) (episode : Nat) (now : Int) :
    Option CheckpointState :=
  if checkpoint.episodesPerChunk = 0 then none
  else some { checkpoint with
    episodeIdx := episode
    chunkIdx := episode / checkpoint.episodesPerChunk % 2 ^ 32
    updatedAt := now
    version := (checkpoint.version + 1) % 2 ^ 64 }

/-- One allocation: no division by zero, nothing cut off, and the same chunk everywhere. -/
structure ChunkRight (perChunk : Nat) (allocation : EpisodeAllocation) : Prop where
  divides : perChunk ≠ 0
  chunkFits : allocation.episodeIndex / perChunk < 2 ^ 32
  offsetFits : allocation.episodeIndex % perChunk < 2 ^ 32
  whole : allocation.episodeIndex = allocation.chunkIndex * perChunk + allocation.chunkOffset
  inside : allocation.chunkOffset < perChunk
  sameChunk : chunkIndexFromEpisode allocation.episodeIndex perChunk = some allocation.chunkIndex
  checkpoint : ∀ (checkpoint : CheckpointState) (now : Int), checkpoint.episodesPerChunk = perChunk →
    ∃ updated, checkpoint.updateEpisode allocation.episodeIndex now = some updated ∧
      updated.chunkIdx = allocation.chunkIndex

/-- The allocations of one allocator, and the paths made from them. -/
structure AllocationsRight (perChunk : Nat) (granted : List EpisodeAllocation) : Prop where
  chunks : ∀ allocation ∈ granted, ChunkRight perChunk allocation
  parquet : ∀ one ∈ granted, ∀ other ∈ granted, one.parquetPath = other.parquetPath →
    one.episodeIndex = other.episodeIndex
  videos : ∀ one ∈ granted, ∀ other ∈ granted, ∀ camera otherCamera : String,
    '/' ∉ camera.toList → '/' ∉ otherCamera.toList →
    one.videoPath camera = other.videoPath otherCamera →
    one.episodeIndex = other.episodeIndex ∧ camera = otherCamera

/-! ### The allocations of a range -/

/-- `u32::MAX * episodes_per_chunk`. -/
def defaultLimit (perChunk : Nat) : Nat := (2 ^ 32 - 1) * perChunk

theorem new_chunkRight (chunkFits : perChunk < 2 ^ 32) (below : index < defaultLimit perChunk)
    (made : EpisodeAllocation.new index perChunk = some allocation) :
    ChunkRight perChunk allocation := by
  unfold EpisodeAllocation.new at made
  split at made
  · cases made
  · rename_i some
    cases made
    have chunk : index / perChunk < 2 ^ 32 := by
      have less : index / perChunk < 2 ^ 32 - 1 :=
        Nat.div_lt_of_lt_mul (by rwa [defaultLimit, Nat.mul_comm] at below)
      omega
    have offset : index % perChunk < perChunk := Nat.mod_lt _ (by omega)
    have offsetFits : index % perChunk < 2 ^ 32 := offset.trans chunkFits
    refine ⟨some, chunk, offsetFits, ?_, ?_, ?_, ?_⟩
    · simp only [Nat.mod_eq_of_lt chunk, Nat.mod_eq_of_lt offsetFits]
      rw [Nat.mul_comm]
      exact (Nat.div_add_mod index perChunk).symm
    · simpa only [Nat.mod_eq_of_lt offsetFits] using offset
    · exact if_neg some
    · rintro checkpoint now rfl
      exact ⟨_, if_neg some, rfl⟩

theorem mapM_chunkRight (chunkFits : perChunk < 2 ^ 32) {range : List Nat}
    (below : ∀ index ∈ range, index < defaultLimit perChunk) {granted : List EpisodeAllocation}
    (made : range.mapM (fun index => EpisodeAllocation.new index perChunk) = some granted) :
    ∀ allocation ∈ granted, ChunkRight perChunk allocation := by
  induction range generalizing granted with
  | nil =>
    cases made
    intro _ member
    cases member
  | cons index rest ih =>
    rw [List.mapM_cons] at made
    obtain ⟨first, own, afterFirst⟩ := Option.bind_eq_some_iff.mp made
    obtain ⟨others, tail, same⟩ := Option.bind_eq_some_iff.mp afterFirst
    obtain rfl := Option.some.inj same
    intro allocation member
    rcases List.mem_cons.mp member with rfl | later
    · exact new_chunkRight chunkFits (below index List.mem_cons_self) own
    · exact ih (fun other listed => below other (List.mem_cons_of_mem _ listed)) tail allocation later

/-- An index below the limit is of a chunk with room, so that a range is allocated. -/
theorem mapM_some (range : List Nat) (below : ∀ index ∈ range, index < defaultLimit perChunk) :
    ∃ granted, range.mapM (fun index => EpisodeAllocation.new index perChunk) = some granted := by
  by_cases room : 0 < perChunk
  · exact Option.isSome_iff_exists.mp (mapM_isSome room range)
  · cases range with
    | nil => exact ⟨[], rfl⟩
    | cons index _ =>
      have zero : perChunk = 0 := by omega
      have none := below index List.mem_cons_self
      rw [zero, defaultLimit, Nat.mul_zero] at none
      omega

theorem allocationsRight_of_chunks
    (chunks : ∀ allocation ∈ granted, ChunkRight perChunk allocation) :
    AllocationsRight perChunk granted where
  chunks := chunks
  parquet := fun _ _ _ _ same => Lerobot.parquetPath_injective same
  videos := fun _ _ _ _ _ _ _ _ same => Lerobot.videoPath_injective same

/-! ### The allocators of a batch -/

/-- The allocations that one instance returned. -/
def grantedBy (instanceId : Nat) (history : AllocHistory) : List EpisodeAllocation :=
  history.flatMap fun e =>
    match e.out with
    | .returned owner granted => if owner = instanceId then granted else []
    | _ => []

section
variable (perChunk : Nat → { n : Nat // n < 2 ^ 32 })

/-- Allocators with the default limit. -/
def defaultAllocators (instanceId : Nat) : Allocator :=
  .new (perChunk instanceId) (perChunk instanceId).property

variable {perChunk}

theorem allocations_below {work : Work} {read next : EpisodeCounter}
    (advanced : advance read work.request.count
      (defaultAllocators perChunk work.instanceId).maxEpisodes = some next) :
    ∀ index ∈ List.range' read.nextEpisode work.request.count,
      index < defaultLimit (perChunk work.instanceId) := by
  intro index member
  have inside := (List.mem_range'_1.mp member).2
  have within := (advance_some advanced).2.1
  exact inside.trans_le within

/-- A step does not panic, and what it returns is right. -/
theorem allocStep_right
    (moved : allocStep (defaultAllocators perChunk) s action = some (after, out)) :
    out ≠ .panicked ∧ ∀ instanceId granted, out = .returned instanceId granted →
      ∀ allocation ∈ granted, ChunkRight (perChunk instanceId) allocation := by
  have quiet : out = .working ∨ (∃ error, out = .failed error) →
      out ≠ .panicked ∧ ∀ instanceId granted, out = .returned instanceId granted →
        ∀ allocation ∈ granted, ChunkRight (perChunk instanceId) allocation := by
    rintro (rfl | ⟨error, rfl⟩) <;> simp
  cases action with
  | call task instanceId request =>
    simp only [allocStep] at moved
    split at moved
    · split at moved
      · cases moved
        refine ⟨by simp, ?_⟩
        rintro _ _ returned allocation member
        cases returned
        cases member
      · cases moved
        exact quiet (.inl rfl)
    · cases moved
  | checkGet task =>
    simp only [allocStep] at moved
    split at moved
    · split at moved <;> cases moved <;> exact quiet (.inl rfl)
    · cases moved
  | initCas task =>
    simp only [allocStep] at moved
    split at moved
    · cases moved
      exact quiet (.inl rfl)
    · cases moved
  | initCasError task =>
    simp only [allocStep] at moved
    split at moved
    · cases moved
      exact quiet (.inl rfl)
    · cases moved
  | readGet task =>
    simp only [allocStep] at moved
    split at moved
    · split at moved
      · cases moved
        exact quiet (.inr ⟨_, rfl⟩)
      · split at moved
        · cases moved
          exact quiet (.inr ⟨_, rfl⟩)
        · cases moved
          exact quiet (.inl rfl)
    · cases moved
  | allocateCas task =>
    simp only [allocStep] at moved
    split at moved
    · rename_i work read _
      split at moved
      · cases moved
      · rename_i next advanced
        have below := allocations_below advanced
        obtain ⟨granted, made⟩ := mapM_some _ below
        have same : allocations (defaultAllocators perChunk) work read.nextEpisode = some granted := made
        split at moved
        · rw [same] at moved
          cases moved
          refine ⟨by simp, ?_⟩
          rintro _ _ returned
          cases returned
          exact mapM_chunkRight (perChunk work.instanceId).property below made
        · split at moved
          · cases moved
            exact quiet (.inr ⟨_, rfl⟩)
          · cases moved
            exact quiet (.inl rfl)
    · cases moved
  | clientError task =>
    simp only [allocStep] at moved
    split at moved
    · cases moved
      exact quiet (.inr ⟨_, rfl⟩)
    · cases moved
      exact quiet (.inr ⟨_, rfl⟩)
    · cases moved
      exact quiet (.inr ⟨_, rfl⟩)
    · cases moved

theorem run_right {first s : AllocState}
    (run : Run (episodeAllocators (defaultAllocators perChunk)) first history s) :
    ∀ e ∈ history, e.out ≠ .panicked ∧ ∀ instanceId granted, e.out = .returned instanceId granted →
      ∀ allocation ∈ granted, ChunkRight (perChunk instanceId) allocation := by
  induction run with
  | start =>
    intro _ member
    cases member
  | next _ moved ih =>
    intro e member
    rcases List.mem_cons.mp member with rfl | earlier
    · exact allocStep_right moved
    · exact ih e earlier

theorem grantedBy_right
    (right : ∀ e ∈ history, e.out ≠ .panicked ∧ ∀ instanceId granted,
      e.out = .returned instanceId granted →
        ∀ allocation ∈ granted, ChunkRight (perChunk instanceId) allocation) (instanceId : Nat) :
    ∀ allocation ∈ grantedBy instanceId history, ChunkRight (perChunk instanceId) allocation := by
  intro allocation member
  obtain ⟨e, listed, inside⟩ := List.mem_flatMap.mp member
  split at inside
  · rename_i owner granted returned
    split at inside
    · rename_i own
      subst own
      exact (right e listed).2 owner granted returned allocation inside
    · cases inside
  · cases inside

end

/-! ### The local allocator -/

/-- The answers of a `LocalEpisodeAllocator::new` whose counter is at `counter`. -/
def localAllocations (perChunk : { n : Nat // n < 2 ^ 32 }) (counter : Nat) (calls : List Call) :
    List (Answer Unit) :=
  answers (LocalAllocator.perform (.new perChunk perChunk.property)) counter calls

/-- The allocations among the answers. -/
def grantedIn (given : List (Answer Unit)) : List EpisodeAllocation :=
  given.flatMap fun answer =>
    match answer with
    | .allocated granted => granted
    | _ => []

theorem allocateRange_right (chunkFits : perChunk < 2 ^ 32)
    (below : ∀ index ∈ List.range' start count, index < defaultLimit perChunk) :
    ∃ granted, (allocateRange perChunk start count : Answer ε) = .allocated granted ∧
      ∀ allocation ∈ granted, ChunkRight perChunk allocation := by
  obtain ⟨granted, made⟩ := mapM_some _ below
  refine ⟨granted, ?_, mapM_chunkRight chunkFits below made⟩
  unfold allocateRange
  rw [made]

/-- A call that does not panic, and gives right allocations. -/
theorem perform_right {perChunk : Nat} (chunkFits : perChunk < 2 ^ 32) (counter : Nat) (call : Call) :
    (LocalAllocator.perform (.new perChunk chunkFits) counter call).2 ≠ .panicked ∧
      ∀ granted, (LocalAllocator.perform (.new perChunk chunkFits) counter call).2 = .allocated granted →
        ∀ allocation ∈ granted, ChunkRight perChunk allocation := by
  have allocating : ∀ count, (∀ index ∈ List.range' counter count, index < defaultLimit perChunk) →
      (allocateRange perChunk counter count : Answer EpisodeAllocatorError) ≠ .panicked ∧
        ∀ granted, (allocateRange perChunk counter count : Answer EpisodeAllocatorError) =
          .allocated granted → ∀ allocation ∈ granted, ChunkRight perChunk allocation := by
    intro count below
    obtain ⟨made, same, right⟩ := allocateRange_right (ε := EpisodeAllocatorError) chunkFits below
    rw [same]
    refine ⟨by simp, ?_⟩
    rintro granted answered
    cases answered
    exact right
  have limit : (Allocator.new perChunk chunkFits).maxEpisodes = defaultLimit perChunk := rfl
  cases call with
  | allocate =>
    simp only [LocalAllocator.perform]
    split
    · simp
    · rename_i room
      apply allocating
      intro index member
      have inside := (List.mem_range'_1.mp member).2
      omega
  | allocateBatch count =>
    simp only [LocalAllocator.perform]
    split
    · simp
    · simp only
      split
      · simp
      · rename_i room
        apply allocating
        intro index member
        have inside := List.mem_range'_1.mp member
        omega
  | allocatedCount => simp [LocalAllocator.perform]

theorem answers_right {perChunk : Nat} (chunkFits : perChunk < 2 ^ 32) (calls : List Call) (counter : Nat) :
    ∀ answer ∈ answers (LocalAllocator.perform (.new perChunk chunkFits)) counter calls,
      answer ≠ .panicked ∧ ∀ granted, answer = .allocated granted →
        ∀ allocation ∈ granted, ChunkRight perChunk allocation := by
  induction calls generalizing counter with
  | nil =>
    intro _ member
    cases member
  | cons call rest ih =>
    have right := perform_right chunkFits counter call
    have own : (LocalAllocator.perform (.new perChunk chunkFits) counter call).2.result ≠ .panicked ∧
        ∀ granted,
          (LocalAllocator.perform (.new perChunk chunkFits) counter call).2.result = .allocated granted →
            ∀ allocation ∈ granted, ChunkRight perChunk allocation := by
      generalize (LocalAllocator.perform (.new perChunk chunkFits) counter call).2 = given at right
      cases given with
      | allocated granted =>
        refine ⟨by simp [Answer.result], ?_⟩
        rintro _ same
        cases same
        exact right.2 granted rfl
      | counted count => simp [Answer.result]
      | failed error => simp [Answer.result]
      | panicked => exact absurd rfl right.1
    intro answer member
    rw [answers] at member
    rcases List.mem_cons.mp member with rfl | later
    · exact own
    · rw [if_neg own.1] at later
      exact ih _ answer later

theorem grantedIn_right
    (right : ∀ answer ∈ given, answer ≠ .panicked ∧ ∀ granted, answer = .allocated granted →
      ∀ allocation ∈ granted, ChunkRight perChunk allocation) :
    ∀ allocation ∈ grantedIn given, ChunkRight perChunk allocation := by
  intro allocation member
  obtain ⟨answer, listed, inside⟩ := List.mem_flatMap.mp member
  split at inside
  · exact (right _ listed).2 _ rfl allocation inside
  · cases inside

/-- In every run of the allocators of a batch, and in every sequence of calls of a local one,
no call panics, every chunk is right and the paths tell the allocations of one allocator apart. -/
theorem chunk_arithmetic_right :
    (∀ (perChunk : Nat → { n : Nat // n < 2 ^ 32 }) (history : AllocHistory) (first s : AllocState),
      Run (episodeAllocators (defaultAllocators perChunk)) first history s →
        (∀ e ∈ history, e.out ≠ .panicked) ∧
          ∀ instanceId, AllocationsRight (perChunk instanceId) (grantedBy instanceId history)) ∧
    ∀ (perChunk : { n : Nat // n < 2 ^ 32 }) (counter : Nat) (calls : List Call),
      .panicked ∉ localAllocations perChunk counter calls ∧
        AllocationsRight perChunk (grantedIn (localAllocations perChunk counter calls)) := by
  constructor
  · intro perChunk history first s run
    have right := run_right run
    refine ⟨fun e listed => (right e listed).1, ?_⟩
    intro instanceId
    exact allocationsRight_of_chunks (grantedBy_right right instanceId)
  · intro perChunk counter calls
    have right := answers_right perChunk.property calls counter
    constructor
    · intro panicked
      exact (right _ panicked).1 rfl
    · exact allocationsRight_of_chunks (grantedIn_right right)

/-- A batch of three from an empty counter, with two episodes to a chunk, from either allocator. -/
theorem three_episodes_in_two_chunks : ∃ (history : AllocHistory) (s : AllocState),
    Run (episodeAllocators (defaultAllocators fun _ => ⟨2, by decide⟩)) .initial history s ∧
      grantedBy 0 history = [⟨0, 0, 0⟩, ⟨1, 0, 1⟩, ⟨2, 1, 0⟩] ∧ AllocationsRight 2 (grantedBy 0 history) ∧
      grantedIn (localAllocations ⟨2, by decide⟩ 0 [.allocateBatch 3]) = [⟨0, 0, 0⟩, ⟨1, 0, 1⟩, ⟨2, 1, 0⟩] ∧
      AllocationsRight 2 (grantedIn (localAllocations ⟨2, by decide⟩ 0 [.allocateBatch 3])) := by
  obtain ⟨history, s, run, granted⟩ := Run.of_observation
    (episodeAllocators (defaultAllocators fun _ => ⟨2, by decide⟩)) .initial
    [.call 0 0 (.allocateBatch 3), .checkGet 0, .initCas 0, .readGet 0, .allocateCas 0]
    (fun reached => grantedBy 0 reached.1) [⟨0, 0, 0⟩, ⟨1, 0, 1⟩, ⟨2, 1, 0⟩] (by decide)
  obtain ⟨cluster, alone⟩ := chunk_arithmetic_right
  exact ⟨history, s, run, granted, (cluster _ history .initial s run).2 0, by decide,
    (alone ⟨2, by decide⟩ 0 [.allocateBatch 3]).2⟩

end Roboflow.Episode
