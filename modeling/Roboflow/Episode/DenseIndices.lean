import Roboflow.Library.Bump
import Roboflow.Episode.Allocator

/-! Episode indices are handed out densely. The versioned counter simulates a
bump allocator: each successful call shows one bump, and what the failed, retried
and racing calls do in between shows nothing. The one call that breaks this is
one whose cas succeeds and that then panics, because its instance has no room in
a chunk. -/
namespace Roboflow.Episode
open Library

def AllocState.nextEpisode (s : AllocState) : Nat := (s.counter.map (·.nextEpisode)).getD 0

/-- The episode indices a step returns to its caller. -/
def AllocOut.indices : AllocOut → List Nat
  | .returned _ granted => granted.map (·.episodeIndex)
  | _ => []

/-- All indices returned so far, the newest call first. -/
def indices (history : AllocHistory) : List Nat := history.flatMap (·.out.indices)

/-- The returned ranges are pairwise disjoint, they cover exactly the indices
below the stored counter, and each index is below its instance's limit. -/
structure Dense (allocators : Nat → Allocator) (history : AllocHistory) (s : AllocState) : Prop where
  disjoint : (indices history).Nodup
  covered : ∀ i, i ∈ indices history ↔ i < s.nextEpisode
  limited : ∀ e ∈ history, ∀ instanceId granted, e.out = .returned instanceId granted →
    ∀ allocation ∈ granted, allocation.episodeIndex < (allocators instanceId).maxEpisodes

/-- An instance with no room in a chunk cannot allocate at all. -/
def ChunksHold (allocators : Nat → Allocator) : Prop :=
  ∀ instanceId, 0 < (allocators instanceId).episodesPerChunk ∨
    (allocators instanceId).maxEpisodes = 0

/-! ### The pieces of one call -/

theorem advance_some {read next : EpisodeCounter} (advanced : advance read count limit = some next) :
    next = ⟨read.nextEpisode + count, (read.version + 1) % 2 ^ 64⟩ ∧
      read.nextEpisode + count ≤ limit ∧ read.nextEpisode + count < 2 ^ 64 := by
  unfold advance at advanced
  split at advanced
  · cases advanced
  · split at advanced
    · cases advanced
    · cases advanced
      exact ⟨rfl, by omega, by omega⟩

/-- Whatever a call returns carries the indices it was built from. -/
theorem indices_of_mapM {range : List Nat} {granted : List EpisodeAllocation}
    (mapped : range.mapM (fun index => EpisodeAllocation.new index perChunk) = some granted) :
    granted.map (·.episodeIndex) = range := by
  induction range generalizing granted with
  | nil =>
    cases mapped
    rfl
  | cons index rest ih =>
    rw [List.mapM_cons] at mapped
    obtain ⟨first, made, afterFirst⟩ := Option.bind_eq_some_iff.mp mapped
    obtain ⟨others, tail, same⟩ := Option.bind_eq_some_iff.mp afterFirst
    obtain rfl := Option.some.inj same
    simp only [EpisodeAllocation.new] at made
    split at made
    · cases made
    · cases made
      simp [ih tail]

theorem mapM_isSome (room : 0 < perChunk) (range : List Nat) :
    (range.mapM (fun index => EpisodeAllocation.new index perChunk)).isSome := by
  have notZero : perChunk ≠ 0 := by omega
  induction range with
  | nil => rfl
  | cons index rest ih =>
    obtain ⟨others, mapped⟩ := Option.isSome_iff_exists.mp ih
    rw [List.mapM_cons, mapped]
    simp [EpisodeAllocation.new, notZero]

section
variable {allocators : Nat → Allocator}

theorem allocations_indices (made : allocations allocators work start = some granted) :
    granted.map (·.episodeIndex) = List.range' start work.request.count :=
  indices_of_mapM made

/-- With room in its chunks a call does not panic. -/
theorem allocations_some (room : 0 < (allocators work.instanceId).episodesPerChunk) (start : Nat) :
    ∃ granted, allocations allocators work start = some granted :=
  Option.isSome_iff_exists.mp (mapM_isSome room _)

/-! ### The simulation -/

variable (allocators) in
/-- A successful call, as a bump of the counter. -/
def seen : AllocOut → Option (Take × Nat)
  | .returned instanceId (first :: rest) =>
    some (⟨rest.length + 1, (allocators instanceId).maxEpisodes⟩, first.episodeIndex)
  | _ => none

/-- What a call in progress knows of the counter. -/
def AllocCall.Agrees (counter : Option EpisodeCounter) : AllocCall → Prop
  | .idle => True
  | .checking work | .initializing work | .reading work => 0 < work.request.count
  | .swapping work read => 0 < work.request.count ∧ ∃ stored, counter = some stored ∧
      read.version ≤ stored.version ∧
        (read.version = stored.version → read.nextEpisode = stored.nextEpisode)

/-- The stored counter tracks the bump allocator's, and its version moves with it. -/
structure Tracks (s : AllocState) (next : Nat) : Prop where
  position : s.nextEpisode = next
  version : ∀ stored, s.counter = some stored → stored.version ≤ stored.nextEpisode
  unused : ∀ stored, s.counter = some stored → stored.version = 0 → stored.nextEpisode = 0
  calls : ∀ task, (s.tasks task).Agrees s.counter

theorem tracks_initial : Tracks .initial 0 :=
  ⟨rfl, by simp [AllocState.initial], by simp [AllocState.initial],
    fun _ => by simp [AllocState.initial, AllocCall.Agrees]⟩

/-- One task moves on without touching the counter. -/
theorem Tracks.setTask (tracks : Tracks s next) (task : Nat) (call : AllocCall)
    (agrees : call.Agrees s.counter) : Tracks (s.setTask task call) next := by
  refine ⟨tracks.position, tracks.version, tracks.unused, fun other => ?_⟩
  by_cases same : other = task
  · subst same
    simpa [AllocState.setTask] using agrees
  · simpa [AllocState.setTask, same] using tracks.calls other

/-- The counter is written; every call in progress has to agree with the new one. -/
theorem Tracks.write (tracks : Tracks s next) (stored : EpisodeCounter) (call : AllocCall)
    (version : stored.version ≤ stored.nextEpisode)
    (unused : stored.version = 0 → stored.nextEpisode = 0)
    (others : ∀ call, AllocCall.Agrees s.counter call → AllocCall.Agrees (some stored) call)
    (agrees : call.Agrees (some stored)) (task : Nat) :
    Tracks ({ s with counter := some stored }.setTask task call) stored.nextEpisode := by
  refine ⟨rfl, ?_, ?_, fun other => ?_⟩
  · rintro _ ⟨rfl⟩
    exact version
  · rintro _ ⟨rfl⟩
    exact unused
  · by_cases same : other = task
    · subst same
      simpa [AllocState.setTask] using agrees
    · simpa [AllocState.setTask, same] using others _ (tracks.calls other)

/-- Creating the counter, or creating it again before its first use, moves nothing. -/
theorem Tracks.initialize (tracks : Tracks s next) (count : 0 < work.request.count) (task : Nat) :
    Tracks ({ s with counter := (cas s.counter 0 .new).1 }.setTask task (.reading work)) next := by
  cases found : s.counter with
  | none =>
    have start : next = 0 := by
      rw [← tracks.position, AllocState.nextEpisode, found]
      rfl
    subst start
    refine tracks.write .new (.reading work) (Nat.le_refl _) (fun _ => rfl) (fun call agrees => ?_) count task
    cases call with
    | swapping work read =>
      obtain ⟨_, stored, present, _⟩ := agrees
      simp [found] at present
    | _ => exact agrees
  | some existing =>
    by_cases unused : existing.version = 0
    · have position : existing.nextEpisode = 0 := tracks.unused existing found unused
      have same : existing = .new := by
        cases existing
        simp_all [EpisodeCounter.new]
      have kept : (cas s.counter 0 .new).1 = s.counter := by simp [cas, found, same, EpisodeCounter.new]
      rw [← found, kept]
      exact tracks.setTask task (.reading work) count
    · have kept : (cas s.counter 0 .new).1 = s.counter := by simp [cas, found, unused]
      rw [← found, kept]
      exact tracks.setTask task (.reading work) count

/-- A cas that finds the version it read bumps the counter from where it was read. -/
theorem Tracks.swap {read : EpisodeCounter} (tracks : Tracks s next)
    (place : s.tasks task = .swapping work read)
    (advanced : advance read work.request.count limit = some stored)
    (swapped : (cas s.counter read.version stored).2 = .swapped) :
    read.nextEpisode = next ∧ next + work.request.count ≤ limit ∧
      Tracks ({ s with counter := (cas s.counter read.version stored).1 }.setTask task .idle)
        (next + work.request.count) := by
  have agrees := tracks.calls task
  rw [place] at agrees
  obtain ⟨count, existing, found, _, known⟩ := agrees
  have current : existing.version = read.version := by
    by_contra different
    simp [cas, found, different] at swapped
  have position : read.nextEpisode = next := by
    rw [known current.symm, ← tracks.position, AllocState.nextEpisode, found]
    rfl
  obtain ⟨rfl, fits, small⟩ := advance_some advanced
  have bounded := tracks.version existing found
  have room : read.version + 1 < 2 ^ 64 := by
    rw [current, ← known current.symm] at bounded
    omega
  have written : (cas s.counter read.version
      ⟨read.nextEpisode + work.request.count, (read.version + 1) % 2 ^ 64⟩).1 =
        some ⟨read.nextEpisode + work.request.count, read.version + 1⟩ := by
    rw [Nat.mod_eq_of_lt room]
    simp [cas, found, current]
  refine ⟨position, position ▸ fits, ?_⟩
  rw [written, ← position]
  refine tracks.write ⟨read.nextEpisode + work.request.count, read.version + 1⟩ .idle ?_ ?_ ?_
    trivial task
  · rw [current, ← known current.symm] at bounded
    show read.version + 1 ≤ read.nextEpisode + work.request.count
    omega
  · intro zero
    cases zero
  · intro call agrees
    cases call with
    | swapping other seen =>
      obtain ⟨positive, stored, present, older, _⟩ := agrees
      obtain rfl := Option.some.inj (found.symm.trans present)
      refine ⟨positive, _, rfl, ?_, fun same => ?_⟩
      · show seen.version ≤ read.version + 1
        omega
      · have newer : seen.version = read.version + 1 := same
        omega
    | _ => exact agrees

/-- A nonempty answer shows the range it took. -/
theorem seen_of_allocations (made : allocations allocators work start = some granted)
    (count : 0 < work.request.count) :
    seen allocators (.returned work.instanceId granted) =
      some (⟨work.request.count, (allocators work.instanceId).maxEpisodes⟩, start) := by
  have same := allocations_indices made
  cases granted with
  | nil =>
    have empty := congrArg List.length same
    simp at empty
    omega
  | cons first rest =>
    have length := congrArg List.length same
    simp only [List.length_map, List.length_cons, List.length_range'] at length
    obtain ⟨more, succ⟩ : ∃ more, work.request.count = more + 1 := ⟨_, (Nat.sub_one_add_one (by omega)).symm⟩
    rw [succ, List.range'_succ] at same
    have named : first.episodeIndex = start := by simpa using (List.cons.inj same).1
    simp [seen, named, length]

/-- The allocators on one key simulate the bump allocator. -/
theorem allocators_simulate_bump (holds : ChunksHold allocators) :
    Simulates (episodeAllocators allocators) bump (seen allocators) Tracks := by
  intro s next action s' out tracks moved
  cases action with
  | call task instanceId request =>
    simp only [episodeAllocators, allocStep] at moved
    split at moved
    · split at moved
      · cases moved
        exact tracks
      · rename_i positive
        cases moved
        refine tracks.setTask task _ ?_
        cases request with
        | allocate => exact Nat.one_pos
        | allocateBatch count =>
          refine Nat.pos_of_ne_zero fun zero => positive ?_
          exact congrArg Request.allocateBatch zero
    · cases moved
  | checkGet task =>
    simp only [episodeAllocators, allocStep] at moved
    split at moved
    · rename_i work place
      have agrees := tracks.calls task
      rw [place] at agrees
      split at moved
      · cases moved
        exact tracks.setTask task _ agrees
      · cases moved
        exact tracks.setTask task _ agrees
    · cases moved
  | initCas task =>
    simp only [episodeAllocators, allocStep] at moved
    split at moved
    · rename_i work place
      have agrees := tracks.calls task
      rw [place] at agrees
      cases moved
      exact tracks.initialize agrees task
    · cases moved
  | initCasError task =>
    simp only [episodeAllocators, allocStep] at moved
    split at moved
    · rename_i work place
      have agrees := tracks.calls task
      rw [place] at agrees
      cases moved
      exact tracks.setTask task _ agrees
    · cases moved
  | readGet task =>
    simp only [episodeAllocators, allocStep] at moved
    split at moved
    · rename_i work place
      have agrees := tracks.calls task
      rw [place] at agrees
      split at moved
      · cases moved
        exact tracks.setTask task _ trivial
      · rename_i read found
        split at moved
        · cases moved
          exact tracks.setTask task _ trivial
        · cases moved
          exact tracks.setTask task _ ⟨agrees, read, found, Nat.le_refl _, fun _ => rfl⟩
    · cases moved
  | allocateCas task =>
    simp only [episodeAllocators, allocStep] at moved
    split at moved
    · rename_i work read place
      have agrees := tracks.calls task
      rw [place] at agrees
      split at moved
      · cases moved
      · rename_i stored advanced
        split at moved
        · rename_i swapped
          obtain ⟨position, fits, tracks'⟩ := tracks.swap place advanced swapped
          have room : 0 < (allocators work.instanceId).episodesPerChunk := by
            rcases holds work.instanceId with room | none
            · exact room
            · have positive := agrees.1
              omega
          obtain ⟨granted, made⟩ := allocations_some room read.nextEpisode
          rw [made] at moved
          cases moved
          rw [seen_of_allocations made agrees.1]
          refine ⟨_, ?_, tracks'⟩
          simp [bump, fits, position]
        · split at moved
          · cases moved
            exact tracks.setTask task _ trivial
          · cases moved
            exact tracks.setTask task _ agrees.1
    · cases moved
  | clientError task =>
    simp only [episodeAllocators, allocStep] at moved
    split at moved
    · cases moved
      exact tracks.setTask task _ trivial
    · cases moved
      exact tracks.setTask task _ trivial
    · cases moved
      exact tracks.setTask task _ trivial
    · cases moved

/-! ### Whole runs -/

/-- The indices a bump hands out. -/
def shownIndices (call : Option (Take × Nat)) : List Nat :=
  match call with
  | some (take, start) => List.range' start take.count
  | none => []

/-- A step returns exactly the indices of the bump it shows. -/
theorem indices_of_step {s : AllocState} (tracks : Tracks s next)
    (moved : (episodeAllocators allocators).step s action = some (s', out)) :
    out.indices = shownIndices (seen allocators out) := by
  cases out with
  | returned instanceId granted =>
    cases granted with
    | nil => rfl
    | cons first rest =>
      cases action with
      | allocateCas task =>
        simp only [episodeAllocators, allocStep] at moved
        split at moved
        · rename_i work read place
          have agrees := tracks.calls task
          rw [place] at agrees
          split at moved
          · cases moved
          · split at moved
            · split at moved
              · rename_i made
                cases moved
                rw [seen_of_allocations made agrees.1]
                exact allocations_indices made
              · cases moved
            · split at moved <;> cases moved
        · cases moved
      | _ =>
        simp only [episodeAllocators, allocStep] at moved
        repeat' split at moved
        all_goals cases moved
  | _ => rfl

theorem taken_shown (ranges : ∀ e ∈ history, e.out.indices = shownIndices (seen allocators e.out)) :
    indices history = Bump.taken (shown (seen allocators) history) := by
  induction history with
  | nil => rfl
  | cons e older ih =>
    have rest := ih fun e member => ranges e (List.mem_cons_of_mem _ member)
    have first := ranges e List.mem_cons_self
    simp only [indices, shown, List.flatMap_cons, List.filterMap_cons] at rest ⊢
    rw [first, rest]
    cases seen allocators e.out <;> rfl

/-- If no instance is without room in its chunks, every schedule is dense. -/
theorem dense_of_chunksHold (holds : ChunksHold allocators)
    (run : Run (episodeAllocators allocators) .initial history s) : Dense allocators history s := by
  have simulation := allocators_simulate_bump holds
  obtain ⟨specHistory, next, specRun, tracks, same⟩ := simulation.run tracks_initial run
  have ranges : ∀ e ∈ history, e.out.indices = shownIndices (seen allocators e.out) := by
    intro e member
    obtain ⟨older, before, moved⟩ := run.recorded member
    obtain ⟨_, _, _, tracks, _⟩ := simulation.run tracks_initial before
    exact indices_of_step tracks moved
  obtain ⟨distinct, below, limits⟩ := Bump.dense specRun
  have taken : indices history = Bump.taken (Bump.calls specHistory) := by
    rw [taken_shown ranges, ← same]
    rfl
  refine ⟨taken ▸ distinct, fun i => ?_, ?_⟩
  · rw [taken, below, tracks.position]
  · intro e member instanceId granted returned allocation inside
    have range := ranges e member
    rw [returned] at range
    cases granted with
    | nil => cases inside
    | cons first rest =>
      have call : (⟨rest.length + 1, (allocators instanceId).maxEpisodes⟩, first.episodeIndex) ∈
          Bump.calls specHistory := by
        rw [Bump.calls, same]
        exact List.mem_filterMap.mpr ⟨e, member, by rw [returned]; rfl⟩
      have limit := limits _ call
      have index : allocation.episodeIndex ∈ List.range' first.episodeIndex (rest.length + 1) := by
        have same : (first :: rest).map (·.episodeIndex) =
            List.range' first.episodeIndex (rest.length + 1) := range
        rw [← same]
        exact List.mem_map.mpr ⟨allocation, inside, rfl⟩
      have below := (List.mem_range'_1.mp index).2
      exact Nat.lt_of_lt_of_le below limit

end

/-- An instance without room in its chunks moves the counter and returns nothing. -/
theorem not_dense_of_empty_chunk (allocators : Nat → Allocator) (instanceId : Nat)
    (empty : (allocators instanceId).episodesPerChunk = 0)
    (positive : 0 < (allocators instanceId).maxEpisodes) :
    ∃ history s, Run (episodeAllocators allocators) .initial history s ∧
      ¬ Dense allocators history s := by
  let work : Work := ⟨instanceId, .allocate, 0⟩
  let created : AllocState := { AllocState.initial with counter := some .new }
  have advanced : advance ⟨0, 0⟩ 1 (allocators instanceId).maxEpisodes = some ⟨1, 1⟩ := by
    simp [advance, Nat.not_lt.mpr positive]
  have panics : allocations allocators ⟨instanceId, .allocate, 0⟩ 0 = none := by
    simp [allocations, Request.count, EpisodeAllocation.new, empty]
  have called : (episodeAllocators allocators).step .initial (.call 0 instanceId .allocate) =
      some (AllocState.initial.setTask 0 (.checking work), .working) := rfl
  have checked : (episodeAllocators allocators).step (AllocState.initial.setTask 0 (.checking work))
      (.checkGet 0) = some (AllocState.initial.setTask 0 (.initializing work), .working) := by
    simp [episodeAllocators, allocStep, AllocState.setTask, AllocState.initial]
  have initialized : (episodeAllocators allocators).step
      (AllocState.initial.setTask 0 (.initializing work)) (.initCas 0) =
        some (created.setTask 0 (.reading work), .working) := by
    simp [episodeAllocators, allocStep, AllocState.setTask, AllocState.initial, created, cas]
  have read : (episodeAllocators allocators).step (created.setTask 0 (.reading work)) (.readGet 0) =
      some (created.setTask 0 (.swapping work .new), .working) := by
    simp [episodeAllocators, allocStep, AllocState.setTask, created, work, Request.count,
      EpisodeCounter.new, advanced]
  have panicked : (episodeAllocators allocators).step (created.setTask 0 (.swapping work .new))
      (.allocateCas 0) =
        some ({ created with counter := some ⟨1, 1⟩ }.setTask 0 .idle, .panicked) := by
    simp [episodeAllocators, allocStep, AllocState.setTask, created, work, Request.count, advanced,
      cas, EpisodeCounter.new, panics]
  have run := Run.next (Run.next (Run.next (Run.next (Run.next .start called) checked) initialized)
    read) panicked
  refine ⟨_, _, run, fun dense => ?_⟩
  have missing := (dense.covered 0).mpr (by decide)
  simp [indices, AllocOut.indices] at missing

/-- Over every schedule of every number of instances on one key, the returned
indices are dense exactly when no instance that may allocate has empty chunks. -/
theorem indices_dense_iff (allocators : Nat → Allocator) :
    (∀ history s, Run (episodeAllocators allocators) .initial history s →
      Dense allocators history s) ↔ ChunksHold allocators := by
  constructor
  · intro dense instanceId
    by_contra broken
    obtain ⟨empty, positive⟩ := not_or.mp broken
    obtain ⟨history, s, run, notDense⟩ :=
      not_dense_of_empty_chunk allocators instanceId (by omega) (by omega)
    exact notDense (dense history s run)
  · intro holds history s run
    exact dense_of_chunksHold holds run

/-- `new(client, batch, 0).with_max_episodes(10)` takes index 0 and panics. -/
theorem empty_chunk_loses_index : ¬ ∀ history s,
    Run (episodeAllocators fun _ => (Allocator.new 0 (by decide)).withMaxEpisodes 10 (by decide))
      .initial history s →
    Dense (fun _ => (Allocator.new 0 (by decide)).withMaxEpisodes 10 (by decide)) history s := by
  intro dense
  obtain ⟨history, s, run, notDense⟩ := not_dense_of_empty_chunk
    (fun _ => (Allocator.new 0 (by decide)).withMaxEpisodes 10 (by decide)) 0 rfl (by decide)
  exact notDense (dense history s run)

end Roboflow.Episode
