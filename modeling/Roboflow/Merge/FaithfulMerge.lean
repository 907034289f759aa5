import Roboflow.Merge.ParquetMerge

/-! When a merge is a faithful renumbering of what the workers staged. The frame offset
is carried from one file into the next, and files outside the first chunk are not
looked for. So the output is right for at most one file with rows, in the first chunk. -/
namespace Roboflow.Merge
open Library Storage

/-- The parquet files under the workers' staging directories, in every chunk. -/
def stagedFrames (paths : Paths δ) (tree : DataTree δ τ ν) (state : MergeState) :
    List (DataFrame τ ν) :=
  state.stagingPaths.entries.flatMap fun worker =>
    let chunks := tree (paths.directory worker.2.toList)
    chunks.entries.flatMap fun chunk => (chunkFiles chunks chunk.1).map Prod.snd

/-- The rows are those of the files in turn, an episode for each: the other columns are
unchanged, episodes and rows count from 0, and frames count from 0 in each episode. -/
structure Renumbering (files : List (List (Kv String ν))) (rows : List (Row ν)) : Prop where
  kept : rows.map (·.others) = files.flatten
  episodes : rows.map (·.episodeIndex) =
    files.zipIdx.flatMap fun file => List.replicate file.1.length (file.2 : Int)
  frames : rows.map (·.frameIndex) =
    files.flatMap fun file => (List.range file.length).map Int.ofNat
  indices : rows.map (·.index) = (List.range rows.length).map Int.ofNat

/-- Every staged row is there once, renumbered. -/
def Faithful (staged : List (DataFrame τ ν)) (rows : List (Row ν)) : Prop :=
  ∃ files, files.Perm (contents staged) ∧ Renumbering files rows

/-- No staged file has rows and the merge in this order writes nothing, or one staged file has
rows, it is the one that the merge finds, and the output path can be parsed. -/
def Fits (concat : Concat τ ν) (paths : Paths δ) (outputPath : String) (tree : DataTree δ τ ν)
    (state : MergeState) (order : IterationOrder state) : Prop :=
  contents (stagedFrames paths tree state) = [] ∧
      NothingWritten concat paths outputPath (sortedFrames paths tree order.entries) ∨
    ∃ file place, contents (stagedFrames paths tree state) = [file] ∧
      contents (foundFrames paths tree state.stagingPaths.entries) = [file] ∧
      destination paths outputPath = .ok place

/-! ### The numbers of the merge -/

theorem filled_of_mem_contents {frames : List (DataFrame τ ν)} {file : List (Kv String ν)}
    (member : file ∈ contents frames) : file ≠ [] := by
  obtain ⟨df, filled, rfl⟩ := List.mem_map.mp member
  have some : df.height ≠ 0 := by simpa using (List.mem_filter.mp filled).2
  rintro none
  exact some (by rw [DataFrame.height, List.map_eq_nil_iff.mp none]; rfl)

theorem others_numberRows (offsets : Offsets) (files : List (List (Kv String ν))) :
    (numberRows offsets files).map (·.others) = files.flatten := by
  induction files generalizing offsets with
  | nil => rfl
  | cons file rest ih =>
    rw [numberRows, List.map_append, ih, List.flatten_cons]
    congr 1
    apply List.ext_getElem <;> simp

/-- Both counters run on over the whole output. -/
theorem counters_numberRows (offsets : Offsets) (files : List (List (Kv String ν))) :
    (numberRows offsets files).map (fun row => (row.frameIndex, row.index)) =
      (List.range files.flatten.length).map fun i =>
        (offsets.frame + Int.ofNat i, offsets.global + Int.ofNat i) := by
  induction files generalizing offsets with
  | nil => rfl
  | cons file rest ih =>
    rw [numberRows, List.map_append, ih, List.flatten_cons, List.length_append, List.range_add,
      List.map_append, List.map_map]
    congr 1
    · apply List.ext_getElem <;> simp
    · simp [Offsets.next, add_assoc]

theorem frameIndex_numberRows (files : List (List (Kv String ν))) :
    (numberRows ⟨0, 0, 0⟩ files).map (·.frameIndex) =
      (List.range files.flatten.length).map Int.ofNat := by
  have counters := congrArg (List.map Prod.fst) (counters_numberRows ⟨0, 0, 0⟩ files)
  simpa only [List.map_map, Function.comp_def, zero_add] using counters

theorem index_numberRows (files : List (List (Kv String ν))) :
    (numberRows ⟨0, 0, 0⟩ files).map (·.index) =
      (List.range files.flatten.length).map Int.ofNat := by
  have counters := congrArg (List.map Prod.snd) (counters_numberRows ⟨0, 0, 0⟩ files)
  simpa only [List.map_map, Function.comp_def, zero_add] using counters

theorem episodeIndex_numberRows_cons (offsets : Offsets) (file : List (Kv String ν))
    (rest : List (List (Kv String ν))) :
    (numberRows offsets (file :: rest)).map (·.episodeIndex) =
      List.replicate file.length offsets.episode ++
        (numberRows (offsets.next file.length) rest).map (·.episodeIndex) := by
  rw [numberRows, List.map_append]
  congr 1
  apply List.ext_getElem <;> simp

/-- One file is numbered faithfully. -/
theorem renumbering_one (file : List (Kv String ν)) :
    Renumbering [file] (numberRows ⟨0, 0, 0⟩ [file]) where
  kept := others_numberRows _ _
  episodes := by
    rw [episodeIndex_numberRows_cons]
    simp [numberRows]
  frames := by
    rw [frameIndex_numberRows]
    simp
  indices := by
    rw [index_numberRows]
    simp [numberRows]

/-- Two files with rows are not: the frames of the second do not start at 0. -/
theorem one_of_renumbering {files merged : List (List (Kv String ν))}
    (filled : ∀ file ∈ files, file ≠ []) (mergedFilled : ∀ file ∈ merged, file ≠ [])
    (some : merged ≠ []) (renumbering : Renumbering files (numberRows ⟨0, 0, 0⟩ merged)) :
    ∃ file, files = [file] ∧ merged = [file] := by
  have apart : (files.flatMap fun file => (List.range file.length).map Int.ofNat).Nodup := by
    rw [← renumbering.frames, frameIndex_numberRows]
    exact List.Nodup.map Int.ofNat_injective List.nodup_range
  have kept := renumbering.kept
  rw [others_numberRows] at kept
  obtain ⟨first, later, rfl⟩ := List.exists_cons_of_ne_nil some
  have firstFilled := mergedFilled first List.mem_cons_self
  cases files with
  | nil => exact absurd (List.append_eq_nil_iff.mp kept).1 firstFilled
  | cons file rest =>
    have zero {other : List (Kv String ν)} (isFilled : other ≠ []) :
        (0 : Int) ∈ (List.range other.length).map Int.ofNat :=
      List.mem_map.mpr ⟨0, List.mem_range.mpr (List.length_pos_iff.mpr isFilled), rfl⟩
    have alone : rest = [] := by
      by_contra more
      obtain ⟨second, others, rfl⟩ := List.exists_cons_of_ne_nil more
      rw [List.flatMap_cons, List.flatMap_cons] at apart
      refine (List.disjoint_of_nodup_append apart) (zero (filled file List.mem_cons_self)) ?_
      exact List.mem_append_left _
        (zero (filled second (List.mem_cons_of_mem _ List.mem_cons_self)))
    subst alone
    have episodes := renumbering.episodes
    have last : later = [] := by
      by_contra more
      obtain ⟨second, others, rfl⟩ := List.exists_cons_of_ne_nil more
      rw [episodeIndex_numberRows_cons, episodeIndex_numberRows_cons] at episodes
      have size := List.length_pos_iff.mpr
        (mergedFilled second (List.mem_cons_of_mem _ List.mem_cons_self))
      have one : (1 : Int) ∈ List.replicate second.length (Offsets.next ⟨0, 0, 0⟩ first.length).episode :=
        List.mem_replicate.mpr ⟨size.ne', rfl⟩
      have member := List.mem_append_right (List.replicate first.length (0 : Int))
        (List.mem_append_left ((numberRows (Offsets.next (Offsets.next ⟨0, 0, 0⟩ first.length)
          second.length) others).map (·.episodeIndex)) one)
      rw [episodes] at member
      simp at member
    subst last
    refine ⟨file, rfl, ?_⟩
    simpa using kept

/-! ### When the rows written are faithful -/

theorem contents_perm {frames others : List (DataFrame τ ν)} (listed : frames.Perm others) :
    (contents frames).Perm (contents others) :=
  (listed.filter _).map _

theorem contents_eq_nil {frames : List (DataFrame τ ν)} :
    contents frames = [] ↔ withRows frames = [] := List.map_eq_nil_iff

theorem faithful_nil_iff {staged : List (DataFrame τ ν)} :
    Faithful staged [] ↔ contents staged = [] := by
  constructor
  · rintro ⟨files, listed, renumbering⟩
    cases files with
    | nil => exact List.nil_perm.mp listed
    | cons file rest =>
      have kept := (List.append_eq_nil_iff.mp renumbering.kept.symm).1
      exact absurd kept (filled_of_mem_contents (listed.mem_iff.mp List.mem_cons_self))
  · intro none
    exact ⟨[], by rw [none], ⟨rfl, rfl, rfl, rfl⟩⟩

theorem faithful_numberRows_iff {staged merged : List (DataFrame τ ν)}
    (some : contents merged ≠ []) :
    Faithful staged (numberRows ⟨0, 0, 0⟩ (contents merged)) ↔
      ∃ file, contents staged = [file] ∧ contents merged = [file] := by
  constructor
  · rintro ⟨files, listed, renumbering⟩
    obtain ⟨file, rfl, one⟩ := one_of_renumbering
      (fun file member => filled_of_mem_contents (listed.mem_iff.mp member))
      (fun _ member => filled_of_mem_contents member) some renumbering
    exact ⟨file, List.perm_singleton.mp listed.symm, one⟩
  · rintro ⟨file, one, alsoOne⟩
    rw [alsoOne]
    exact ⟨[file], by rw [one], renumbering_one file⟩

theorem foundFrames_perm (paths : Paths δ) (tree : DataTree δ τ ν) {state : MergeState}
    (order : IterationOrder state) :
    (foundFrames paths tree order.entries).Perm
      (foundFrames paths tree state.stagingPaths.entries) :=
  (order.listed.flatMap_right _).map _

/-- One file with rows is written, if there is a place for it. -/
theorem something_of_one {concat : Concat τ ν} {frames : List (DataFrame τ ν)}
    {file : List (Kv String ν)} {place : Destination δ} (one : contents frames = [file])
    (parsed : destination paths outputPath = .ok place) :
    ¬ NothingWritten concat paths outputPath frames := by
  obtain ⟨df, alone, -⟩ := List.map_eq_singleton_iff.mp one
  rintro (absent | refused | ⟨error, unparsed⟩)
  · rw [absent] at alone
    cases alone
  · exact not_refused_of_one (by simp [alone]) refused
  · rw [parsed] at unparsed
    cases unparsed

/-- The output of a merge holds every staged row once and renumbered exactly when at most one
staged file has rows, in the first chunk. -/
theorem merge_faithful_iff {concat : Concat τ ν} (appends : AppendsRows concat) (paths : Paths δ)
    (outputPath : String) (tree : DataTree δ τ ν) (state : MergeState)
    (order : IterationOrder state) :
    Faithful (stagedFrames paths tree state)
        (rowsWritten (execute concat paths outputPath tree order.entries)) ↔
      Fits concat paths outputPath tree state order := by
  have sorted := contents_perm
    ((perm_sortedFrames paths tree order.entries).trans (foundFrames_perm paths tree order))
  unfold Fits
  by_cases nothing :
      NothingWritten concat paths outputPath (sortedFrames paths tree order.entries)
  · rw [rowsWritten_nothing appends nothing, faithful_nil_iff]
    constructor
    · exact fun staged => .inl ⟨staged, nothing⟩
    · rintro (⟨staged, _⟩ | ⟨file, place, _, found, parsed⟩)
      · exact staged
      · rw [found] at sorted
        exact absurd nothing (something_of_one (List.perm_singleton.mp sorted) parsed)
  · obtain ⟨place, _, parsed, _⟩ := execute_writes appends nothing
    have some_ : contents (sortedFrames paths tree order.entries) ≠ [] := fun none_ =>
      nothing (.inl (contents_eq_nil.mp none_))
    rw [rowsWritten_something appends nothing, faithful_numberRows_iff some_]
    constructor
    · rintro ⟨file, staged, merged⟩
      rw [merged] at sorted
      exact .inr ⟨file, place, staged, List.perm_singleton.mp sorted.symm, parsed⟩
    · rintro (⟨_, absent⟩ | ⟨file, _, staged, found, _⟩)
      · exact absurd absent nothing
      · rw [found] at sorted
        exact ⟨file, staged, List.perm_singleton.mp sorted⟩

/-! ### One and two files in the first chunk -/

/-- One entry under a name. -/
def single (name : String) (value : ν) : Kv String ν := ⟨[(name, value)], List.pairwise_singleton _ _⟩

/-- A file of one row. -/
def oneRow (value : Nat) : DataFrame Unit Nat where
  types := single "state" ()
  rows := [{ episodeIndex := 0, frameIndex := 0, index := 0, others := single "state" value }]

/-- Frames whose columns have one type are never refused. -/
def stack : Concat Unit Nat := fun left right =>
  some { types := left.types.putAll right.types.entries, rows := left.rows ++ right.rows }

theorem stack_appendsRows : AppendsRows stack := by
  intro left right joined done
  cases done
  rfl

/-- Episodes of one worker in its first chunk. -/
def stagedTree (episodes : Kv String (DataFrame Unit Nat)) : DataTree String Unit Nat := fun dir =>
  if dir = "/staging" then single "chunk-000" episodes else .empty

/-- A path is its directory, and a pattern without wildcards reaches it. -/
def literalPaths : Paths String where
  directory := String.ofList
  reached path := [path]

def stagedState : MergeState :=
  (MergeState.new "job" 1 "/out" 0).addWorker "worker" "/staging" 2 0

def listedOrder : IterationOrder stagedState := ⟨stagedState.stagingPaths.entries, .refl _⟩

theorem one_episode_faithful :
    Faithful (stagedFrames literalPaths (stagedTree (single "episode_000000.parquet" (oneRow 1)))
        stagedState)
      (rowsWritten (execute stack literalPaths "/out"
        (stagedTree (single "episode_000000.parquet" (oneRow 1))) listedOrder.entries)) := by
  refine (merge_faithful_iff stack_appendsRows literalPaths "/out" _ stagedState listedOrder).mpr
    (.inr ⟨[single "state" 1], .directory "/out", ?_, ?_, rfl⟩) <;> decide

/-- Two episodes with a row each. -/
def twoEpisodes : DataTree String Unit Nat :=
  stagedTree ((single "episode_000000.parquet" (oneRow 1)).put "episode_000001.parquet" (oneRow 2))

/-- The second episode's frame is numbered 1. -/
theorem second_episode_continues_frames :
    ¬ Faithful (stagedFrames literalPaths twoEpisodes stagedState)
      (rowsWritten (execute stack literalPaths "/out" twoEpisodes listedOrder.entries)) := by
  have written : rowsWritten (execute stack literalPaths "/out" twoEpisodes listedOrder.entries) =
      numberRows ⟨0, 0, 0⟩
        (contents (sortedFrames literalPaths twoEpisodes listedOrder.entries)) := by
    decide
  have two : (contents (sortedFrames literalPaths twoEpisodes listedOrder.entries)).length = 2 := by
    decide
  rw [written, faithful_numberRows_iff (List.ne_nil_of_length_pos (by rw [two]; decide))]
  rintro ⟨file, -, one⟩
  rw [one] at two
  cases two

end Roboflow.Merge
