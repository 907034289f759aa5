import Roboflow.Library.StableSort
import Roboflow.Merge.MergeState
import Roboflow.Storage.StorageUrl

/-! `ParquetMergeExecutor` of `merge/executor.rs`: the staged files it finds, the one
frame it makes of them, and where it writes that. Every staged frame has the three
index columns; its other columns are named and typed. Frames are concatenated by polars,
whose function is a parameter. -/
namespace Roboflow.Merge
open Library Storage

/-- A row: its index columns, and its other cells that are not null. -/
structure Row (ν : Type) where
  episodeIndex : Int
  frameIndex : Int
  index : Int
  others : Kv String ν
  deriving DecidableEq

/-- A data frame: the types of its other columns, and its rows. -/
structure DataFrame (τ ν : Type) where
  types : Kv String τ
  rows : List (Row ν)
  deriving DecidableEq

def DataFrame.height (df : DataFrame τ ν) : Nat := df.rows.length

/-- What lies under a directory's `data`: files by chunk and name. -/
abbrev DataTree (δ τ ν : Type) := δ → Kv String (Kv String (DataFrame τ ν))

/-- How the file system takes a text: the directory at a path, and the directories that a
staging path reaches as the first part of a glob pattern, in order. -/
structure Paths (δ : Type) where
  directory : List Char → δ
  reached : String → List δ

/-! ### Discovery -/

/-- `Path::extension`. -/
def extension (name : List Char) : Option (List Char) :=
  match name.reverse.dropWhile (· ≠ '.') with
  | _ :: _ :: _ => some (name.reverse.takeWhile (· ≠ '.')).reverse
  | _ => none

/-- The files of a chunk that match `*.parquet` and have that extension. -/
def isParquet (name : String) : Bool :=
  ".parquet".toList <:+ name.toList && extension name.toList = some "parquet".toList

/-- `i64::from_str`. -/
def parseI64 (text : List Char) : Option Int :=
  let digits := if text.head? = some '-' ∨ text.head? = some '+' then text.tail else text
  if digits ≠ [] ∧ digits.all Char.isDigit then
    let magnitude : Int := digits.foldl (fun value digit => 10 * value + (digit.toNat - 48)) 0
    let value := if text.head? = some '-' then -magnitude else magnitude
    if -2 ^ 63 ≤ value ∧ value < 2 ^ 63 then some value else none
  else none

/-- `extract_episode_number`, of a file name. -/
def extractEpisodeNumber (filename : List Char) : Int :=
  if "episode_".toList <+: filename then
    let rest := filename.drop 8
    if ".parquet".toList <:+ rest then (parseI64 (rest.take (rest.length - 8))).getD 0 else 0
  else 0

/-- A staged file, with what it holds. -/
structure StagedParquetFile (δ τ ν : Type) where
  path : δ × String
  workerId : String
  episodeIndex : Int
  frame : DataFrame τ ν

/-- The parquet files of one chunk, in alphabetical order. -/
def chunkFiles (chunks : Kv String (Kv String (DataFrame τ ν))) (chunk : String) :
    List (String × DataFrame τ ν) :=
  ((chunks.get chunk).map fun files => files.entries.filter fun file => isParquet file.1).getD []

/-- What one staging path adds to the files. -/
def discoverWorker (paths : Paths δ) (tree : DataTree δ τ ν) (worker : String × String) :
    List (StagedParquetFile δ τ ν) :=
  (paths.reached worker.2).flatMap fun dir =>
    (chunkFiles (tree dir) "chunk-000").map fun file =>
      { path := (dir, file.1), workerId := worker.1,
        episodeIndex := extractEpisodeNumber file.1.toList, frame := file.2 }

/-- An iteration order of the staging paths of a merge state. -/
structure IterationOrder (state : MergeState) where
  entries : List (String × String)
  listed : entries.Perm state.stagingPaths.entries

/-- `discover_parquet_files`. -/
def discoverParquetFiles (paths : Paths δ) (tree : DataTree δ τ ν)
    (workers : List (String × String)) : List (StagedParquetFile δ τ ν) :=
  sortByKey (·.episodeIndex) (workers.flatMap (discoverWorker paths tree))

/-! ### Merging -/

inductive ExecuteError where
  | noDataframes
  | failedToConcatenate
  | failedToParseOutputPath (error : StorageError)

/-- The running values of the index columns. -/
structure Offsets where
  episode : Int
  frame : Int
  global : Int

def Offsets.next (offsets : Offsets) (rows : Nat) : Offsets where
  episode := offsets.episode + 1
  frame := offsets.frame + rows
  global := offsets.global + rows

/-- The index columns of one frame replaced. -/
def renumber (offsets : Offsets) (df : DataFrame τ ν) : DataFrame τ ν :=
  { df with
    rows := df.rows.mapIdx fun i row =>
      { row with
        episodeIndex := offsets.episode
        frameIndex := offsets.frame + i
        index := offsets.global + i } }

/-- The loop of `merge_parquet_files`; a frame without rows is passed. -/
def renumberAll (offsets : Offsets) : List (DataFrame τ ν) → List (DataFrame τ ν)
  | [] => []
  | df :: rest =>
    if df.height = 0 then renumberAll offsets rest
    else renumber offsets df :: renumberAll (offsets.next df.height) rest

/-- The type of polars' `concat_df_diagonal`, of two frames; it may refuse them. -/
abbrev Concat (τ ν : Type) := DataFrame τ ν → DataFrame τ ν → Option (DataFrame τ ν)

/-- What is relied on of it: a frame that it returns has the rows of both in order, with null
for a column that one lacks. Which frames it refuses is left open. -/
def AppendsRows (concat : Concat τ ν) : Prop :=
  ∀ left right joined, concat left right = some joined → joined.rows = left.rows ++ right.rows

/-- `merge_parquet_files`. -/
def mergeParquetFiles (concat : Concat τ ν) (files : List (DataFrame τ ν)) :
    Except ExecuteError (DataFrame τ ν) :=
  match renumberAll ⟨0, 0, 0⟩ files with
  | [] => .error .noDataframes
  | first :: rest =>
    match rest.foldlM concat first with
    | some merged => .ok merged
    | none => .error .failedToConcatenate

/-! ### Writing -/

/-- Where the output goes: under a local directory, or under a key of the storage. -/
inductive Destination (δ : Type) where
  | directory (dir : δ)
  | object (key : List Char)

/-- The place `write_merged_parquet` takes from the output path. -/
def destination (paths : Paths δ) (outputPath : String) : Except ExecuteError (Destination δ) :=
  match StorageUrl.fromStr outputPath.toList with
  | .ok (.localPath path) => .ok (.directory (paths.directory path))
  | .ok (.s3 _ key _ _) => .ok (.object key)
  | .error error => .error (.failedToParseOutputPath error)

/-- A finished merge: the count it returns, and what it wrote where. -/
structure Merged (δ τ ν : Type) where
  frames : Nat
  written : Option (Destination δ × DataFrame τ ν)

/-- `execute`, visiting the workers in the given order. -/
def execute (concat : Concat τ ν) (paths : Paths δ) (outputPath : String) (tree : DataTree δ τ ν)
    (workers : List (String × String)) : Except ExecuteError (Merged δ τ ν) :=
  match discoverParquetFiles paths tree workers with
  | [] => .ok { frames := 0, written := none }
  | first :: rest => do
    let merged ← mergeParquetFiles concat ((first :: rest).map (·.frame))
    let place ← destination paths outputPath
    return { frames := merged.height, written := some (place, merged) }

def outputFilename (uuid : String) : String := "merged_" ++ uuid ++ ".parquet"

/-- A file put into a directory's first chunk. -/
def store [DecidableEq δ] (tree : DataTree δ τ ν) (dir : δ) (name : String)
    (df : DataFrame τ ν) : DataTree δ τ ν :=
  Function.update tree dir
    ((tree dir).put "chunk-000" ((((tree dir).get "chunk-000").getD .empty).put name df))

/-- The local files after a merge. -/
def Merged.treeAfter [DecidableEq δ] (merged : Merged δ τ ν) (tree : DataTree δ τ ν)
    (uuid : String) : DataTree δ τ ν :=
  match merged.written with
  | some (.directory dir, df) => store tree dir (outputFilename uuid) df
  | _ => tree

/-- The rows that a merge wrote, none if it failed. -/
def Merged.rows (merged : Merged δ τ ν) : List (Row ν) :=
  (merged.written.map fun output => output.2.rows).getD []

/-- The rows that a call of `execute` wrote. -/
def rowsWritten (result : Except ExecuteError (Merged δ τ ν)) : List (Row ν) :=
  match result with
  | .ok merged => merged.rows
  | .error _ => []

/-! ### What the output is made of -/

/-- The frames with rows. -/
def withRows (frames : List (DataFrame τ ν)) : List (DataFrame τ ν) :=
  frames.filter fun df => df.height ≠ 0

/-- The cells of a frame other than the index columns, row by row. -/
def cells (df : DataFrame τ ν) : List (Kv String ν) := df.rows.map (·.others)

/-- What the frames with rows hold besides the index columns. -/
def contents (frames : List (DataFrame τ ν)) : List (List (Kv String ν)) :=
  (withRows frames).map cells

/-- Rows with the index columns that the merge gives them, file after file. -/
def numberRows (offsets : Offsets) : List (List (Kv String ν)) → List (Row ν)
  | [] => []
  | file :: rest =>
    file.mapIdx (fun i others =>
      { episodeIndex := offsets.episode, frameIndex := offsets.frame + i,
        index := offsets.global + i, others := others }) ++ numberRows (offsets.next file.length) rest

theorem withRows_cons (df : DataFrame τ ν) (rest : List (DataFrame τ ν)) :
    withRows (df :: rest) = if df.height = 0 then withRows rest else df :: withRows rest := by
  unfold withRows
  rw [List.filter_cons]
  by_cases empty : df.height = 0 <;> simp [empty]

theorem rows_renumberAll (offsets : Offsets) (frames : List (DataFrame τ ν)) :
    (renumberAll offsets frames).flatMap (·.rows) = numberRows offsets (contents frames) := by
  induction frames generalizing offsets with
  | nil => rfl
  | cons df rest ih =>
    unfold contents at ih ⊢
    rw [renumberAll, withRows_cons]
    split
    · exact ih offsets
    · have size : (cells df).length = df.height := List.length_map _
      have filled : (renumber offsets df).rows = (cells df).mapIdx fun i others =>
          { episodeIndex := offsets.episode, frameIndex := offsets.frame + i,
            index := offsets.global + i, others := others } := by
        apply List.ext_getElem
        · simp [renumber, cells]
        · intro i _ _
          simp [renumber, cells]
      rw [List.flatMap_cons, List.map_cons, numberRows, ih, size, filled]

/-- Frames without rows are passed, every other one is renumbered. -/
theorem length_renumberAll (offsets : Offsets) (frames : List (DataFrame τ ν)) :
    (renumberAll offsets frames).length = (withRows frames).length := by
  induction frames generalizing offsets with
  | nil => rfl
  | cons df rest ih =>
    rw [renumberAll, withRows_cons]
    split
    · exact ih offsets
    · rw [List.length_cons, List.length_cons, ih]

/-! ### The whole call -/

/-- The frames with rows, renumbered, are refused where they are concatenated in this order. -/
def Refused (concat : Concat τ ν) (frames : List (DataFrame τ ν)) : Prop :=
  ∃ first rest, renumberAll ⟨0, 0, 0⟩ frames = first :: rest ∧ rest.foldlM concat first = none

/-- One frame is not concatenated. -/
theorem not_refused_of_one {concat : Concat τ ν} {frames : List (DataFrame τ ν)}
    (one : (withRows frames).length ≤ 1) : ¬ Refused concat frames := by
  rintro ⟨first, rest, numbered, refused⟩
  have length := length_renumberAll ⟨0, 0, 0⟩ frames
  rw [numbered, List.length_cons] at length
  have alone : rest = [] := List.length_eq_zero_iff.mp (by omega)
  rw [alone] at refused
  cases refused

theorem AppendsRows.foldlM {concat : Concat τ ν} (appends : AppendsRows concat)
    (first : DataFrame τ ν) (rest : List (DataFrame τ ν)) {merged : DataFrame τ ν}
    (done : rest.foldlM concat first = some merged) :
    merged.rows = (first :: rest).flatMap (·.rows) := by
  induction rest generalizing first with
  | nil =>
    cases done
    simp
  | cons df rest ih =>
    rw [List.foldlM_cons] at done
    obtain ⟨joined, two, later⟩ := Option.bind_eq_some_iff.mp done
    rw [ih joined later, List.flatMap_cons, appends first df joined two]
    simp

/-- What the merge makes of the frames it found, in their order. -/
theorem mergeParquetFiles_spec {concat : Concat τ ν} (appends : AppendsRows concat)
    (frames : List (DataFrame τ ν)) :
    (withRows frames = [] → mergeParquetFiles concat frames = .error .noDataframes) ∧
      (Refused concat frames → mergeParquetFiles concat frames = .error .failedToConcatenate) ∧
      (withRows frames ≠ [] → ¬ Refused concat frames →
        ∃ merged, mergeParquetFiles concat frames = .ok merged ∧
          merged.rows = numberRows ⟨0, 0, 0⟩ (contents frames)) := by
  have length := length_renumberAll ⟨0, 0, 0⟩ frames
  have rows := rows_renumberAll ⟨0, 0, 0⟩ frames
  unfold mergeParquetFiles Refused
  cases numbered : renumberAll ⟨0, 0, 0⟩ frames with
  | nil =>
    rw [numbered] at length
    have none_ : withRows frames = [] := List.length_eq_zero_iff.mp length.symm
    refine ⟨fun _ => rfl, ?_, fun some_ => absurd none_ some_⟩
    rintro ⟨first, rest, filled, -⟩
    cases filled
  | cons first rest =>
    rw [numbered] at length rows
    have some_ : withRows frames ≠ [] := by
      rintro none_
      rw [none_] at length
      cases length
    refine ⟨fun none_ => absurd none_ some_, ?_, fun _ accepted => ?_⟩
    · rintro ⟨_, _, same, refused⟩
      cases same
      simp only [refused]
    · cases joined : rest.foldlM concat first with
      | none => exact absurd ⟨first, rest, rfl, joined⟩ accepted
      | some merged =>
        refine ⟨merged, ?_, (appends.foldlM first rest joined).trans rows⟩
        simp only [joined]

/-- The frames that the merge finds, worker after worker. -/
def foundFrames (paths : Paths δ) (tree : DataTree δ τ ν) (workers : List (String × String)) :
    List (DataFrame τ ν) :=
  (workers.flatMap (discoverWorker paths tree)).map (·.frame)

/-- The frames in the order of the merge. -/
def sortedFrames (paths : Paths δ) (tree : DataTree δ τ ν) (workers : List (String × String)) :
    List (DataFrame τ ν) :=
  (discoverParquetFiles paths tree workers).map (·.frame)

theorem perm_sortedFrames (paths : Paths δ) (tree : DataTree δ τ ν)
    (workers : List (String × String)) :
    (sortedFrames paths tree workers).Perm (foundFrames paths tree workers) :=
  (perm_sortByKey _ _).map _

/-- The merge of these frames, in this order, leaves no output: none has a row, they are
refused, or the output path cannot be parsed. -/
def NothingWritten (concat : Concat τ ν) (paths : Paths δ) (outputPath : String)
    (frames : List (DataFrame τ ν)) : Prop :=
  withRows frames = [] ∨ Refused concat frames ∨
    ∃ error, destination paths outputPath = .error error

section

variable {concat : Concat τ ν} {paths : Paths δ} {outputPath : String} {tree : DataTree δ τ ν}
  {workers : List (String × String)}

theorem execute_nothing (appends : AppendsRows concat)
    (nothing : NothingWritten concat paths outputPath (sortedFrames paths tree workers)) :
    (∃ error, execute concat paths outputPath tree workers = .error error) ∨
      foundFrames paths tree workers = [] ∧
        execute concat paths outputPath tree workers = .ok { frames := 0, written := none } := by
  have rearranged := perm_sortedFrames paths tree workers
  unfold sortedFrames at nothing rearranged
  unfold execute
  cases found : discoverParquetFiles paths tree workers with
  | nil =>
    rw [found] at rearranged
    exact .inr ⟨List.nil_perm.mp rearranged, rfl⟩
  | cons first rest =>
    rw [found] at nothing
    refine .inl ?_
    obtain ⟨empty, refusing, joined⟩ :=
      mergeParquetFiles_spec appends ((first :: rest).map (·.frame))
    by_cases none_ : withRows ((first :: rest).map (·.frame)) = []
    · refine ⟨.noDataframes, ?_⟩
      simp only [empty none_]
      rfl
    by_cases refused : Refused concat ((first :: rest).map (·.frame))
    · refine ⟨.failedToConcatenate, ?_⟩
      simp only [refusing refused]
      rfl
    · obtain ⟨merged, done, _⟩ := joined none_ refused
      obtain ⟨error, unparsed⟩ := (nothing.resolve_left none_).resolve_left refused
      refine ⟨error, ?_⟩
      simp only [done, unparsed]
      rfl

theorem execute_writes (appends : AppendsRows concat)
    (something : ¬ NothingWritten concat paths outputPath (sortedFrames paths tree workers)) :
    ∃ place df, destination paths outputPath = .ok place ∧
      execute concat paths outputPath tree workers =
        .ok { frames := df.height, written := some (place, df) } ∧
      df.rows = numberRows ⟨0, 0, 0⟩ (contents (sortedFrames paths tree workers)) := by
  simp only [NothingWritten, not_or] at something
  obtain ⟨some_, accepted, parsed⟩ := something
  obtain ⟨df, done, rows⟩ := (mergeParquetFiles_spec appends _).2.2 some_ accepted
  unfold sortedFrames at some_ done
  unfold execute
  cases found : discoverParquetFiles paths tree workers with
  | nil => exact absurd (by rw [found]; rfl) some_
  | cons first rest =>
    rw [found] at done
    cases read : destination paths outputPath with
    | error error => exact absurd ⟨error, read⟩ parsed
    | ok place =>
      refine ⟨place, df, rfl, ?_, rows⟩
      simp only [done]
      rfl

theorem rowsWritten_nothing (appends : AppendsRows concat)
    (nothing : NothingWritten concat paths outputPath (sortedFrames paths tree workers)) :
    rowsWritten (execute concat paths outputPath tree workers) = [] := by
  rcases execute_nothing appends nothing with ⟨error, failed⟩ | ⟨_, done⟩
  · rw [failed]
    rfl
  · rw [done]
    rfl

theorem rowsWritten_something (appends : AppendsRows concat)
    (something : ¬ NothingWritten concat paths outputPath (sortedFrames paths tree workers)) :
    rowsWritten (execute concat paths outputPath tree workers) =
      numberRows ⟨0, 0, 0⟩ (contents (sortedFrames paths tree workers)) := by
  obtain ⟨place, df, _, done, rows⟩ := execute_writes appends something
  rw [done]
  exact rows

end

end Roboflow.Merge
