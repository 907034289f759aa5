import Roboflow.Merge.FaithfulMerge

/-! When a merge can be repeated. Files of one episode number stay in the order in which
the staging paths were visited, and that is the order of a hash map. An output that lies
under a staging path is found by the next merge beside the files it was made of. -/
namespace Roboflow.Merge
open Library Storage

/-- No file of the output's name lies where the output goes. -/
def Fresh (tree : DataTree δ τ ν) (uuid : String) : Destination δ → Prop
  | .directory dir => (((tree dir).get "chunk-000").getD .empty).get (outputFilename uuid) = none
  | .object _ => True

/-- The rows do not depend on the iteration order, and a second run after a success returns and
writes the same. -/
structure Repeatable [DecidableEq δ] (concat : Concat τ ν) (paths : Paths δ) (outputPath : String)
    (tree : DataTree δ τ ν) (state : MergeState) : Prop where
  ordered : ∀ order other : IterationOrder state,
    rowsWritten (execute concat paths outputPath tree order.entries) =
      rowsWritten (execute concat paths outputPath tree other.entries)
  again : ∀ (order other : IterationOrder state) (uuid : String) (merged : Merged δ τ ν),
    (∀ place df, merged.written = some (place, df) → Fresh tree uuid place) →
    execute concat paths outputPath tree order.entries = .ok merged →
    ∃ second, execute concat paths outputPath (merged.treeAfter tree uuid) other.entries = .ok second ∧
      second.frames = merged.frames ∧ second.rows = merged.rows

/-- What the files of one worker and episode number hold, file by file. -/
def numbered (paths : Paths δ) (tree : DataTree δ τ ν) (number : Int)
    (worker : String × String) : List (List (Kv String ν)) :=
  contents ((group (·.episodeIndex) number (discoverWorker paths tree worker)).map (·.frame))

/-- The files that two workers have for one number hold the same in either order. -/
def Swappable (paths : Paths δ) (tree : DataTree δ τ ν) (state : MergeState) : Prop :=
  ∀ number, ∀ first ∈ state.stagingPaths.entries, ∀ second ∈ state.stagingPaths.entries,
    numbered paths tree number first ++ numbered paths tree number second =
      numbered paths tree number second ++ numbered paths tree number first

/-- Whatever the order, the merge leaves no output. -/
def NeverWritten (concat : Concat τ ν) (paths : Paths δ) (outputPath : String)
    (tree : DataTree δ τ ν) (state : MergeState) : Prop :=
  ∀ order : IterationOrder state,
    NothingWritten concat paths outputPath (sortedFrames paths tree order.entries)

/-- Whatever the order, the merge leaves an output. -/
def AlwaysWritten (concat : Concat τ ν) (paths : Paths δ) (outputPath : String)
    (tree : DataTree δ τ ν) (state : MergeState) : Prop :=
  ∀ order : IterationOrder state,
    ¬ NothingWritten concat paths outputPath (sortedFrames paths tree order.entries)

/-- The output goes to the storage, or to a directory that no staging path reaches. -/
def Apart (paths : Paths δ) (outputPath : String) (state : MergeState) : Prop :=
  ∀ dir, destination paths outputPath = .ok (.directory dir) →
    ∀ worker ∈ state.stagingPaths.entries, dir ∉ paths.reached worker.2

/-! ### The order of the workers -/

theorem episode_le_of_mem {offsets : Offsets} {files : List (List (Kv String ν))} {row : Row ν}
    (member : row ∈ numberRows offsets files) : offsets.episode ≤ row.episodeIndex := by
  induction files generalizing offsets with
  | nil => cases member
  | cons file rest ih =>
    rcases List.mem_append.mp member with own | later
    · obtain ⟨i, bound, rfl⟩ := List.mem_mapIdx.mp own
      exact le_rfl
    · have next := ih later
      simp only [Offsets.next] at next
      omega

/-- The first episode of an output is its first file. -/
theorem filter_numberRows (offsets : Offsets) (file : List (Kv String ν))
    (rest : List (List (Kv String ν))) :
    ((numberRows offsets (file :: rest)).filter
      fun row => row.episodeIndex = offsets.episode).map (·.others) = file := by
  have own : (file.mapIdx fun i others =>
      ({ episodeIndex := offsets.episode, frameIndex := offsets.frame + i,
         index := offsets.global + i, others := others } : Row ν)).filter
        (fun row => row.episodeIndex = offsets.episode) = file.mapIdx fun i others =>
      { episodeIndex := offsets.episode, frameIndex := offsets.frame + i,
        index := offsets.global + i, others := others } := by
    refine List.filter_eq_self.mpr fun row member => ?_
    obtain ⟨i, bound, rfl⟩ := List.mem_mapIdx.mp member
    simp
  have later : (numberRows (offsets.next file.length) rest).filter
      (fun row => row.episodeIndex = offsets.episode) = [] := by
    refine List.filter_eq_nil_iff.mpr fun row member => ?_
    have above := episode_le_of_mem member
    simp only [Offsets.next] at above
    simp only [decide_eq_true_eq]
    omega
  rw [numberRows, List.filter_append, own, later, List.append_nil]
  apply List.ext_getElem <;> simp

/-- Outputs show which files they were made of. -/
theorem numberRows_injective {offsets : Offsets} {files others : List (List (Kv String ν))}
    (filled : ∀ file ∈ files, file ≠ []) (othersFilled : ∀ file ∈ others, file ≠ [])
    (same : numberRows offsets files = numberRows offsets others) : files = others := by
  have flat := congrArg (List.map (·.others)) same
  rw [others_numberRows, others_numberRows] at flat
  induction files generalizing offsets others with
  | nil =>
    cases others with
    | nil => rfl
    | cons other _ =>
      exact absurd (List.append_eq_nil_iff.mp flat.symm).1 (othersFilled other List.mem_cons_self)
  | cons file rest ih =>
    cases others with
    | nil => exact absurd (List.append_eq_nil_iff.mp flat).1 (filled file List.mem_cons_self)
    | cons other later =>
      have heads : file = other := by
        rw [← filter_numberRows offsets file rest, same, filter_numberRows]
      subst heads
      congr 1
      refine ih (fun file member => filled file (List.mem_cons_of_mem _ member))
        (fun file member => othersFilled file (List.mem_cons_of_mem _ member))
        (List.append_cancel_left same) ?_
      exact List.append_cancel_left flat

/-- The files with rows among those found. -/
def filledFiles (paths : Paths δ) (tree : DataTree δ τ ν) (workers : List (String × String)) :
    List (StagedParquetFile δ τ ν) :=
  (workers.flatMap (discoverWorker paths tree)).filter fun file => file.frame.height ≠ 0

theorem contents_sortedFrames (paths : Paths δ) (tree : DataTree δ τ ν)
    (workers : List (String × String)) :
    contents (sortedFrames paths tree workers) =
      (sortByKey (·.episodeIndex) (filledFiles paths tree workers)).map fun file =>
        cells file.frame := by
  unfold contents withRows sortedFrames discoverParquetFiles filledFiles
  rw [List.filter_map, List.map_map, ← filter_sortByKey]
  rfl

theorem group_filledFiles (paths : Paths δ) (tree : DataTree δ τ ν) (number : Int)
    (workers : List (String × String)) :
    (group (·.episodeIndex) number (filledFiles paths tree workers)).map
        (fun file => cells file.frame) =
      workers.flatMap (numbered paths tree number) := by
  unfold filledFiles group
  rw [List.filter_comm, List.filter_flatMap, List.filter_flatMap, List.map_flatMap]
  refine List.flatMap_congr fun worker _ => ?_
  unfold numbered contents withRows group
  rw [List.filter_map, List.map_map]
  rfl

/-- The files are merged in one order, whatever the order of the workers, exactly when files of
one number may be swapped. -/
theorem contents_same_iff (paths : Paths δ) (tree : DataTree δ τ ν) (state : MergeState) :
    (∀ order other : IterationOrder state,
        contents (sortedFrames paths tree order.entries) =
          contents (sortedFrames paths tree other.entries)) ↔
      Swappable paths tree state := by
  have shown (order other : IterationOrder state) :
      contents (sortedFrames paths tree order.entries) =
          contents (sortedFrames paths tree other.entries) ↔
        ∀ number, order.entries.flatMap (numbered paths tree number) =
          other.entries.flatMap (numbered paths tree number) := by
    have listed : (filledFiles paths tree order.entries).Perm
        (filledFiles paths tree other.entries) :=
      ((order.listed.trans other.listed.symm).flatMap_right _).filter _
    rw [contents_sortedFrames, contents_sortedFrames, map_sortByKey_eq_iff (listed.map _)]
    simp only [group_filledFiles]
  constructor
  · intro same number
    refine (flatMap_same_iff (numbered paths tree number) state.stagingPaths.entries).mp ?_
    intro order other listed otherListed
    exact (shown ⟨order, listed⟩ ⟨other, otherListed⟩).mp (same _ _) number
  · intro swappable order other
    refine (shown order other).mpr fun number => ?_
    exact (flatMap_same_iff _ _).mpr (swappable number) _ _ order.listed other.listed

section

variable {concat : Concat τ ν} {paths : Paths δ} {outputPath : String} {tree : DataTree δ τ ν}
  {state : MergeState}

theorem rowsWritten_ne_nil (appends : AppendsRows concat) {order : IterationOrder state}
    (something : ¬ NothingWritten concat paths outputPath (sortedFrames paths tree order.entries)) :
    rowsWritten (execute concat paths outputPath tree order.entries) ≠ [] := by
  rw [rowsWritten_something appends something]
  intro none_
  have flat := congrArg (List.map (·.others)) none_
  rw [others_numberRows] at flat
  have absent : contents (sortedFrames paths tree order.entries) = [] := by
    by_contra some_
    obtain ⟨file, rest, shape⟩ := List.exists_cons_of_ne_nil some_
    rw [shape] at flat
    exact filled_of_mem_contents (by rw [shape]; exact List.mem_cons_self)
      (List.append_eq_nil_iff.mp flat).1
  exact something (.inl (contents_eq_nil.mp absent))

/-- The rows written show the order of the files. -/
theorem ordered_iff (appends : AppendsRows concat) :
    (∀ order other : IterationOrder state,
        rowsWritten (execute concat paths outputPath tree order.entries) =
          rowsWritten (execute concat paths outputPath tree other.entries)) ↔
      NeverWritten concat paths outputPath tree state ∨
        AlwaysWritten concat paths outputPath tree state ∧ Swappable paths tree state := by
  have shown (always : AlwaysWritten concat paths outputPath tree state)
      (order other : IterationOrder state) :
      rowsWritten (execute concat paths outputPath tree order.entries) =
          rowsWritten (execute concat paths outputPath tree other.entries) ↔
        contents (sortedFrames paths tree order.entries) =
          contents (sortedFrames paths tree other.entries) := by
    rw [rowsWritten_something appends (always order),
      rowsWritten_something appends (always other)]
    constructor
    · exact numberRows_injective (fun _ member => filled_of_mem_contents member)
        (fun _ member => filled_of_mem_contents member)
    · intro same
      rw [same]
  constructor
  · intro same
    by_cases never : NeverWritten concat paths outputPath tree state
    · exact .inl never
    · obtain ⟨first, something⟩ := not_forall.mp never
      have always : AlwaysWritten concat paths outputPath tree state := by
        intro order nothing
        refine rowsWritten_ne_nil appends something ?_
        rw [same first order, rowsWritten_nothing appends nothing]
      refine .inr ⟨always, (contents_same_iff paths tree state).mp fun order other => ?_⟩
      exact (shown always order other).mp (same order other)
  · rintro (never | ⟨always, swappable⟩) order other
    · rw [rowsWritten_nothing appends (never order), rowsWritten_nothing appends (never other)]
    · exact (shown always order other).mpr
        ((contents_same_iff paths tree state).mpr swappable order other)

end

/-! ### The rows found -/

def totalRows (frames : List (DataFrame τ ν)) : Nat := (frames.map (·.height)).sum

theorem length_flatten_contents (frames : List (DataFrame τ ν)) :
    (contents frames).flatten.length = totalRows frames := by
  induction frames with
  | nil => rfl
  | cons df rest ih =>
    have size : (cells df).length = df.height := List.length_map _
    unfold contents totalRows at ih ⊢
    rw [withRows_cons, List.map_cons, List.sum_cons, ← ih]
    split
    · rename_i empty
      rw [empty, Nat.zero_add]
    · rw [List.map_cons, List.flatten_cons, List.length_append, size]

theorem totalRows_pos {frames : List (DataFrame τ ν)} (some : withRows frames ≠ []) :
    0 < totalRows frames := by
  obtain ⟨df, rest, shape⟩ := List.exists_cons_of_ne_nil some
  have member : df ∈ withRows frames := by
    rw [shape]
    exact List.mem_cons_self
  obtain ⟨listed, filled⟩ := List.mem_filter.mp member
  have height : df.height ≠ 0 := by simpa using filled
  have below : df.height ≤ totalRows frames := List.le_sum_of_mem (List.mem_map_of_mem listed)
  omega

theorem execute_none {concat : Concat τ ν} {paths : Paths δ} {tree : DataTree δ τ ν}
    (none : foundFrames paths tree workers = []) :
    execute concat paths outputPath tree workers = .ok { frames := 0, written := .none } := by
  have found := perm_sortedFrames paths tree workers
  rw [none, List.perm_nil] at found
  unfold execute
  rw [List.map_eq_nil_iff.mp found]

/-- A merge returns the number of rows it found. -/
theorem frames_of_execute {concat : Concat τ ν} (appends : AppendsRows concat) {paths : Paths δ}
    {tree : DataTree δ τ ν} {merged : Merged δ τ ν}
    (done : execute concat paths outputPath tree workers = .ok merged) :
    merged.frames = totalRows (foundFrames paths tree workers) := by
  by_cases nothing :
      NothingWritten concat paths outputPath (sortedFrames paths tree workers)
  · rcases execute_nothing appends nothing with ⟨error, failed⟩ | ⟨none, written⟩
    · rw [failed] at done
      cases done
    · rw [written] at done
      cases done
      rw [none]
      rfl
  · obtain ⟨place, df, _, written, rows⟩ := execute_writes appends nothing
    rw [written] at done
    cases done
    have total : totalRows (sortedFrames paths tree workers) =
        totalRows (foundFrames paths tree workers) :=
      ((perm_sortedFrames paths tree workers).map _).sum_eq
    rw [← total, ← length_flatten_contents, ← others_numberRows ⟨0, 0, 0⟩, List.length_map, ← rows]
    rfl

/-- The rows in the first chunk of a directory. -/
def rowsUnder (tree : DataTree δ τ ν) (dir : δ) : Nat :=
  ((chunkFiles (tree dir) "chunk-000").map fun file => file.2.height).sum

theorem totalRows_foundFrames (paths : Paths δ) (tree : DataTree δ τ ν)
    (workers : List (String × String)) :
    totalRows (foundFrames paths tree workers) =
      (workers.map fun worker => ((paths.reached worker.2).map (rowsUnder tree)).sum).sum := by
  have ofWorker (worker : String × String) :
      ((discoverWorker paths tree worker).map fun file => file.frame.height).sum =
        ((paths.reached worker.2).map (rowsUnder tree)).sum := by
    unfold discoverWorker
    rw [List.map_flatMap, List.flatMap_def, List.sum_flatten, List.map_map]
    congr 1
    refine List.map_congr_left fun dir _ => ?_
    rw [Function.comp_apply, List.map_map]
    rfl
  unfold totalRows foundFrames
  rw [List.map_map, List.map_flatMap, List.flatMap_def, List.sum_flatten, List.map_map]
  congr 1
  exact List.map_congr_left fun worker _ => ofWorker worker

/-! ### The output among the files -/

theorem toList_outputFilename (uuid : String) :
    (outputFilename uuid).toList = "merged_".toList ++ uuid.toList ++ ".parquet".toList := by
  unfold outputFilename
  rw [String.toList_append, String.toList_append]

theorem extension_append {stem ext : List Char} (named : stem ≠ []) (plain : '.' ∉ ext) :
    extension (stem ++ '.' :: ext) = some ext := by
  have ahead : ∀ c ∈ ext.reverse, decide (c ≠ '.') = true := by
    intro c member
    rw [List.mem_reverse] at member
    exact decide_eq_true fun dot => plain (dot ▸ member)
  have turned : (stem ++ '.' :: ext).reverse = ext.reverse ++ '.' :: stem.reverse := by simp
  obtain ⟨last, rest, shape⟩ := List.exists_cons_of_ne_nil (List.reverse_ne_nil_iff.mpr named)
  unfold extension
  rw [turned, List.dropWhile_append_of_pos ahead, List.takeWhile_append_of_pos ahead, shape]
  simp

theorem isParquet_outputFilename (uuid : String) : isParquet (outputFilename uuid) = true := by
  have ends : ".parquet".toList <:+ (outputFilename uuid).toList := by
    rw [toList_outputFilename]
    exact List.suffix_append _ _
  have last : extension (outputFilename uuid).toList = some "parquet".toList := by
    rw [toList_outputFilename]
    exact extension_append (List.append_ne_nil_of_left_ne_nil (by decide) _) (by decide)
  unfold isParquet
  rw [last]
  simp only [ends, decide_true, Bool.and_self]

theorem outputFilename_injective : Function.Injective outputFilename := by
  intro uuid other same
  have texts := congrArg String.toList same
  rw [toList_outputFilename, toList_outputFilename] at texts
  exact String.toList_injective (List.append_cancel_left (List.append_cancel_right texts))

theorem chunkFiles_eq (chunks : Kv String (Kv String (DataFrame τ ν))) (chunk : String) :
    chunkFiles chunks chunk =
      ((chunks.get chunk).getD .empty).entries.filter fun file => isParquet file.1 := by
  unfold chunkFiles
  cases chunks.get chunk <;> rfl

theorem exists_fresh (tree : DataTree δ τ ν) (dir : δ) :
    ∃ uuid, Fresh tree uuid (.directory dir) := by
  by_contra taken
  have stored (uuid : String) : outputFilename uuid ∈
      (((tree dir).get "chunk-000").getD .empty).entries.map Prod.fst := by
    obtain ⟨df, found⟩ := Option.ne_none_iff_exists'.mp fun fresh => taken ⟨uuid, fresh⟩
    exact List.mem_map_of_mem ((Kv.mem_entries _).mpr found)
  exact Set.infinite_of_injective_forall_mem outputFilename_injective stored (List.finite_toSet _)

variable [DecidableEq δ]

/-- The output's rows are added to those of its directory. -/
theorem rowsUnder_store {tree : DataTree δ τ ν} {dir : δ} {uuid : String}
    (fresh : Fresh tree uuid (.directory dir)) (df : DataFrame τ ν) (other : δ) :
    rowsUnder (store tree dir (outputFilename uuid) df) other =
      rowsUnder tree other + if other = dir then df.height else 0 := by
  unfold rowsUnder
  rw [chunkFiles_eq, chunkFiles_eq]
  split
  · rename_i same
    subst same
    have grown := (Kv.perm_put _ fresh df).filter fun file => isParquet file.1
    simp only [List.filter_cons, isParquet_outputFilename, if_true] at grown
    have sums := (grown.map fun file => file.2.height).sum_eq
    rw [List.map_cons, List.sum_cons] at sums
    simp only [store, Function.update_self, Kv.get_put_self, Option.getD_some]
    rw [sums, Nat.add_comm]
  · rename_i different
    simp only [store, Function.update_of_ne different, Nat.add_zero]

/-- A merge finds more rows after an output that a staging path reaches. -/
theorem more_rows {paths : Paths δ} {tree : DataTree δ τ ν} {dir : δ} {uuid : String}
    (fresh : Fresh tree uuid (.directory dir)) {df : DataFrame τ ν} (filled : 0 < df.height)
    {workers : List (String × String)} {worker : String × String} (listed : worker ∈ workers)
    (reached : dir ∈ paths.reached worker.2) :
    totalRows (foundFrames paths tree workers) <
      totalRows (foundFrames paths (store tree dir (outputFilename uuid) df) workers) := by
  have noLess (other : δ) :
      rowsUnder tree other ≤ rowsUnder (store tree dir (outputFilename uuid) df) other := by
    rw [rowsUnder_store fresh]
    exact Nat.le_add_right _ _
  have own : rowsUnder tree dir < rowsUnder (store tree dir (outputFilename uuid) df) dir := by
    rw [rowsUnder_store fresh, if_pos rfl]
    exact Nat.lt_add_of_pos_right filled
  rw [totalRows_foundFrames, totalRows_foundFrames]
  refine List.sum_lt_sum _ _ (fun other _ => List.sum_le_sum fun place _ => noLess place)
    ⟨worker, listed, ?_⟩
  exact List.sum_lt_sum _ _ (fun place _ => noLess place) ⟨dir, reached, own⟩

theorem discover_store {paths : Paths δ} {tree : DataTree δ τ ν} {dir : δ}
    {workers : List (String × String)} (apart : ∀ worker ∈ workers, dir ∉ paths.reached worker.2)
    (name : String) (df : DataFrame τ ν) :
    discoverParquetFiles paths (store tree dir name df) workers =
      discoverParquetFiles paths tree workers := by
  unfold discoverParquetFiles
  congr 1
  refine List.flatMap_congr fun worker listed => ?_
  refine List.flatMap_congr fun other reached => ?_
  have different : other ≠ dir := by
    rintro rfl
    exact apart worker listed reached
  simp only [store, Function.update_of_ne different]

/-! ### One state -/

section

variable {concat : Concat τ ν} {paths : Paths δ} {outputPath : String} {tree : DataTree δ τ ν}
  {state : MergeState}

/-- Without an output nothing has changed for the next run. -/
theorem again_of_nothing (appends : AppendsRows concat) {order : IterationOrder state}
    (nothing : NothingWritten concat paths outputPath (sortedFrames paths tree order.entries))
    (other : IterationOrder state) {uuid : String} {merged : Merged δ τ ν}
    (done : execute concat paths outputPath tree order.entries = .ok merged) :
    execute concat paths outputPath (merged.treeAfter tree uuid) other.entries = .ok merged := by
  rcases execute_nothing appends nothing with ⟨error, failed⟩ | ⟨absent, written⟩
  · rw [failed] at done
    cases done
  · rw [written] at done
    cases done
    have listed := (foundFrames_perm paths tree other).trans
      (foundFrames_perm paths tree order).symm
    rw [absent, List.perm_nil] at listed
    exact execute_none listed

/-- An output that no staging path reaches is not found by the next run. -/
theorem execute_treeAfter {place : Destination δ} (parsed : destination paths outputPath = .ok place)
    (apart : Apart paths outputPath state) (order : IterationOrder state) (count : Nat)
    (df : DataFrame τ ν) (uuid : String) :
    execute concat paths outputPath
        (Merged.treeAfter { frames := count, written := some (place, df) } tree uuid) order.entries =
      execute concat paths outputPath tree order.entries := by
  cases place with
  | object key => rfl
  | directory dir =>
    have unreached : ∀ worker ∈ order.entries, dir ∉ paths.reached worker.2 :=
      fun worker listed => apart dir parsed worker (order.listed.mem_iff.mp listed)
    unfold execute Merged.treeAfter
    rw [discover_store unreached]

theorem apart_of_repeatable (appends : AppendsRows concat)
    (repeatable : Repeatable concat paths outputPath tree state) {order : IterationOrder state}
    (something : ¬ NothingWritten concat paths outputPath (sortedFrames paths tree order.entries)) :
    Apart paths outputPath state := by
  intro dir parsed worker listed reached
  obtain ⟨place, df, read, done, _⟩ := execute_writes appends something
  rw [parsed] at read
  cases read
  obtain ⟨uuid, fresh⟩ := exists_fresh tree dir
  obtain ⟨second, again, same, _⟩ := repeatable.again order order uuid _
    (fun place output written => by cases written; exact fresh) done
  have before : df.height = _ := frames_of_execute appends done
  have after := frames_of_execute appends again
  have filled : 0 < df.height := by
    rw [before]
    refine totalRows_pos fun none_ => something (.inl ?_)
    have sorted := (perm_sortedFrames paths tree order.entries).filter fun df => df.height ≠ 0
    exact List.perm_nil.mp (none_ ▸ sorted)
  have more := more_rows fresh filled (order.listed.mem_iff.mpr listed) reached
  rw [← before] at more
  exact more.ne (same.symm.trans after)

/-- A merge writes the same rows in every iteration order and in every run exactly when no order
writes any, or every order writes some, files of one number may be swapped and no staging path
reaches the output. -/
theorem merge_repeatable_iff (appends : AppendsRows concat) :
    Repeatable concat paths outputPath tree state ↔
      NeverWritten concat paths outputPath tree state ∨
        AlwaysWritten concat paths outputPath tree state ∧ Swappable paths tree state ∧
          Apart paths outputPath state := by
  constructor
  · intro repeatable
    rcases (ordered_iff appends).mp repeatable.ordered with never | ⟨always, swappable⟩
    · exact .inl never
    · let order : IterationOrder state := ⟨state.stagingPaths.entries, .refl _⟩
      exact .inr ⟨always, swappable, apart_of_repeatable appends repeatable (always order)⟩
  · rintro (never | ⟨always, swappable, apart⟩)
    · refine ⟨(ordered_iff appends).mpr (.inl never), ?_⟩
      intro order other uuid merged _ done
      exact ⟨merged, again_of_nothing appends (never order) other done, rfl, rfl⟩
    · have ordered := (ordered_iff appends).mpr (.inr ⟨always, swappable⟩)
      refine ⟨ordered, fun order other uuid merged _ done => ?_⟩
      obtain ⟨place, df, parsed, written, _⟩ := execute_writes appends (always order)
      obtain ⟨_, second, _, alsoWritten, _⟩ := execute_writes appends (always other)
      have same := ordered other order
      rw [written, alsoWritten] at same
      rw [written] at done
      cases done
      refine ⟨_, (execute_treeAfter parsed apart other _ df uuid).trans alsoWritten, ?_, same⟩
      exact congrArg List.length same

end

/-- One worker's episode, and an output elsewhere. -/
theorem staged_episode_repeatable : Repeatable stack literalPaths "/out"
    (stagedTree (single "episode_000000.parquet" (oneRow 1))) stagedState := by
  have alone (order : IterationOrder stagedState) : order.entries = [("worker", "/staging")] :=
    List.perm_singleton.mp order.listed
  have parsed : destination literalPaths "/out" = .ok (.directory "/out") := by rfl
  refine (merge_repeatable_iff stack_appendsRows).mpr (.inr ⟨?_, ?_, ?_⟩)
  · intro order
    have one : contents (sortedFrames literalPaths
        (stagedTree (single "episode_000000.parquet" (oneRow 1))) order.entries) =
          [[single "state" 1]] := by
      rw [alone order]
      decide
    exact something_of_one one parsed
  · intro number first member second member'
    rw [List.mem_singleton.mp member, List.mem_singleton.mp member']
  · intro dir there worker member
    rw [List.mem_singleton.mp member]
    rw [parsed] at there
    cases there
    decide

/-! ### The direct mode -/

/-- One episode where the output goes. -/
def oneEpisode : DataTree String Unit Nat := fun dir =>
  if dir = "/out" then single "chunk-000" (single "episode_000000.parquet" (oneRow 1)) else .empty

/-- The state that is made ready for a single worker. -/
def directState : MergeState :=
  (ensureMergeReady (.new "job" 1 "/out" 0) 1 "/out" 0).getD (.new "job" 1 "/out" 0)

/-- The second run reads the output of the first beside the episode. -/
theorem direct_output_read_again : ¬ Repeatable stack literalPaths "/out" oneEpisode directState := by
  have parsed : destination literalPaths "/out" = .ok (.directory "/out") := by rfl
  have staged : directState.stagingPaths.entries = [("direct", "/out")] := by decide
  let order : IterationOrder directState := ⟨directState.stagingPaths.entries, .refl _⟩
  intro repeatable
  have one : contents (sortedFrames literalPaths oneEpisode order.entries) =
      [[single "state" 1]] := by decide
  have apart := apart_of_repeatable stack_appendsRows repeatable (something_of_one one parsed)
  refine apart "/out" parsed ("direct", "/out") ?_ (List.mem_singleton_self _)
  rw [staged]
  exact List.mem_singleton_self _

end Roboflow.Merge
