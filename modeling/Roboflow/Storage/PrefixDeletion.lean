import Roboflow.Library.TreeRemoval
import Roboflow.Storage.LocalFiles

/-! `delete_prefix` of `LocalStorage`, `local.rs`: the files at or below a path are collected, removed one
after the other and counted, and the empty directories they leave are removed from the inside out. -/
namespace Roboflow.Storage
open Library UnixPath PathComponent FileTree

/-! ### The operation -/

/-- In which order a directory is read. -/
structure ReadOrder where
  order : List FileName → List FileName → List FileName
  perm : ∀ dir names, (order dir names).Perm names

namespace FileSystem

/-- `fs::read_dir`. -/
def readDir (order : ReadOrder) (fs : FileSystem) (dir : List FileName) : List FileName :=
  order.order dir (fs.names dir)

/-- `collect_files`, of something that is there. Every call goes one directory deeper. -/
def collectFiles (order : ReadOrder) (fs : FileSystem) : Nat → List FileName → List (List FileName)
  | 0, _ => []
  | fuel + 1, dir =>
    match fs.lookup dir with
    | some (.file _) => [dir]
    | some .dir => (fs.readDir order dir).flatMap fun name =>
      if fs.Ready (dir ++ [name]) then fs.collectFiles order fuel (dir ++ [name]) else [dir ++ [name]]
    | none => []

/-- `fs::remove_file`. -/
def removeFile (fs : FileSystem) (path : List FileName) : Except IoError FileSystem :=
  match fs.lookup path with
  | some (.file _) => .ok (fs.remove path)
  | some .dir => .error .isADirectory
  | none => .error (fs.absent path)

/-- `fs::remove_dir`, when its errors are ignored. -/
def removeDir (fs : FileSystem) (path : List FileName) : FileSystem :=
  if fs.Ready path then fs.remove path else fs

/-- `remove_empty_dirs`. A directory is read before anything in it is removed. -/
def removeEmptyDirs (order : ReadOrder) : Nat → FileSystem → List FileName → FileSystem
  | 0, fs, _ => fs
  | fuel + 1, fs, dir =>
    if fs.Ready dir then
      ((fs.readDir order dir).foldl (fun fs name => removeEmptyDirs order fuel fs (dir ++ [name])) fs).removeDir dir
    else fs

end FileSystem

namespace LocalStorage

/-- The path of something at or below a path. -/
def pathBelow (full : List PathComponent) (base file : List FileName) : List PathComponent :=
  full ++ (file.drop base.length).map fun name => .normal name.val

/-- The files removed so far are counted. -/
def removeFiles (full : List PathComponent) (base : List FileName) :
    List (List FileName) → Nat → FileSystem → Except OperationError Nat × FileSystem
  | [], deletedCount, fs => (.ok deletedCount, fs)
  | file :: rest, deletedCount, fs =>
    match fs.removeFile file with
    | .ok after => removeFiles full base rest (deletedCount + 1) after
    | .error error => (.error (.storage (.other ("failed to delete ".toList ++
        pathText (pathBelow full base file) ++ ": ".toList ++ error.text))), fs)

/-- `delete_prefix`. -/
def deletePrefix (collecting sweeping : ReadOrder) (cwd : List FileName) (root : List PathComponent)
    (path : List Char) (fs : FileSystem) : Except OperationError Nat × FileSystem :=
  match fullPath root path with
  | .error error => (.error (.storage error), fs)
  | .ok full =>
    let base := place cwd full
    if fs.lookup base = none then (.ok 0, fs)
    else
      let files := fs.collectFiles collecting (fs.depth + 1) base
      match removeFiles full base files 0 fs with
      | (.error error, after) => (.error error, after)
      | (.ok deletedCount, after) =>
        (.ok deletedCount, after.removeEmptyDirs sweeping (fs.depth + 1) base)

end LocalStorage

/-! ### What is collected -/

section
variable {fs after : FileSystem} {order : ReadOrder} {dir wanted : List FileName} {name : FileName}
  {fuel : Nat}

def IsFile (fs : FileSystem) (path : List FileName) : Prop := ∃ bytes, fs.lookup path = some (.file bytes)

theorem IsFile.there (isFile : IsFile fs wanted) : fs.lookup wanted ≠ none := by
  obtain ⟨bytes, found⟩ := isFile
  rw [found]
  exact Option.some_ne_none _

theorem mem_readDir : name ∈ fs.readDir order dir ↔ fs.lookup (dir ++ [name]) ≠ none := by
  unfold FileSystem.readDir
  rw [(order.perm dir _).mem_iff]
  exact mem_names

theorem nodup_readDir : (fs.readDir order dir).Nodup :=
  (order.perm dir _).nodup_iff.mpr nodup_names

/-- What is there and not a directory is a file. -/
theorem isFile_of_not_ready (found : fs.lookup wanted ≠ none) (other : ¬fs.Ready wanted) : IsFile fs wanted := by
  cases node : fs.lookup wanted with
  | none => exact absurd node found
  | some node' =>
    cases node' with
    | dir => exact absurd node other
    | file bytes => exact ⟨bytes, node⟩

/-- With fuel for the tree's depth, the files collected are all those at or below the path. -/
theorem mem_collectFiles (order : ReadOrder) (deep : fs.depth < dir.length + fuel) :
    wanted ∈ fs.collectFiles order fuel dir ↔ dir <+: wanted ∧ IsFile fs wanted := by
  induction fuel generalizing dir with
  | zero =>
    unfold FileSystem.collectFiles
    refine iff_of_false (List.not_mem_nil) ?_
    rintro ⟨below, isFile⟩
    have short := length_le_depth isFile.there
    have longer := below.length_le
    omega
  | succ fuel ih =>
    unfold FileSystem.collectFiles
    cases node : fs.lookup dir with
    | none =>
      refine iff_of_false (List.not_mem_nil) ?_
      rintro ⟨below, isFile⟩
      exact isFile.there (lookup_below_none node below)
    | some node' =>
      cases node' with
      | file bytes =>
        dsimp only
        rw [List.mem_singleton]
        constructor
        · rintro rfl
          exact ⟨List.prefix_refl _, bytes, node⟩
        · rintro ⟨below, isFile⟩
          exact (eq_of_file node isFile.there below).symm
      | dir =>
        have deeper (name : FileName) : fs.depth < (dir ++ [name]).length + fuel := by
          rw [List.length_append, List.length_singleton]
          omega
        dsimp only
        rw [List.mem_flatMap]
        constructor
        · rintro ⟨name, listed, collected⟩
          have above : dir <+: dir ++ [name] := List.prefix_append _ _
          split at collected
          · obtain ⟨below, isFile⟩ := (ih (deeper name)).mp collected
            exact ⟨above.trans below, isFile⟩
          · rename_i other
            obtain rfl := List.mem_singleton.mp collected
            exact ⟨above, isFile_of_not_ready (mem_readDir.mp listed) other⟩
        · rintro ⟨below, isFile⟩
          rcases below_cases below with rfl | ⟨name, inside⟩
          · obtain ⟨bytes, found⟩ := isFile
            rw [node] at found
            cases found
          · have there : fs.lookup (dir ++ [name]) ≠ none := fun missing =>
              isFile.there (lookup_below_none missing inside)
            refine ⟨name, mem_readDir.mpr there, ?_⟩
            split
            · exact (ih (deeper name)).mpr ⟨inside, isFile⟩
            · rename_i other
              obtain ⟨bytes, found⟩ := isFile_of_not_ready there other
              exact List.mem_singleton.mpr (eq_of_file found isFile.there inside).symm

/-- Two names in one directory have nothing below them in common. -/
theorem eq_of_below {other : FileName} (one : dir ++ [name] <+: wanted) (two : dir ++ [other] <+: wanted) :
    name = other := by
  have same := (List.prefix_of_prefix_length_le one two (by simp)).eq_of_length (by simp)
  simpa using same

/-- No file is collected twice. -/
theorem nodup_collectFiles (order : ReadOrder) (deep : fs.depth < dir.length + fuel) :
    (fs.collectFiles order fuel dir).Nodup := by
  induction fuel generalizing dir with
  | zero => exact List.nodup_nil
  | succ fuel ih =>
    unfold FileSystem.collectFiles
    split
    · exact List.nodup_singleton _
    · have deeper (name : FileName) : fs.depth < (dir ++ [name]).length + fuel := by
        rw [List.length_append, List.length_singleton]
        omega
      have inside (name : FileName) {wanted : List FileName} (collected : wanted ∈
          if fs.Ready (dir ++ [name]) then fs.collectFiles order fuel (dir ++ [name]) else [dir ++ [name]]) :
          dir ++ [name] <+: wanted := by
        split at collected
        · exact ((mem_collectFiles order (deeper name)).mp collected).1
        · rw [List.mem_singleton.mp collected]
      rw [List.nodup_flatMap]
      constructor
      · intro name _
        split
        · exact ih (deeper name)
        · exact List.nodup_singleton _
      · refine nodup_readDir.imp fun {name other} different => ?_
        intro wanted one two
        exact different (eq_of_below (inside name one) (inside other two))
    · exact List.nodup_nil

/-! ### What is removed -/

/-- Every file of the list is removed, and nothing else. -/
theorem removeFiles_spec (full : List PathComponent) (base : List FileName)
    {files : List (List FileName)} (once : files.Nodup) (all : ∀ file ∈ files, IsFile fs file)
    (deletedCount : Nat) : ∃ after,
      LocalStorage.removeFiles full base files deletedCount fs = (.ok (deletedCount + files.length), after) ∧
        ∀ wanted, after.lookup wanted = if wanted ∈ files then none else fs.lookup wanted := by
  induction files generalizing fs deletedCount with
  | nil => exact ⟨fs, rfl, fun wanted => by simp⟩
  | cons file rest ih =>
    obtain ⟨fresh, once⟩ := List.nodup_cons.mp once
    obtain ⟨bytes, found⟩ := all file List.mem_cons_self
    have removed := lookup_remove_file found
    have others : ∀ other ∈ rest, IsFile (fs.remove file) other := by
      intro other listed
      obtain ⟨held, there⟩ := all other (List.mem_cons_of_mem _ listed)
      refine ⟨held, ?_⟩
      rw [removed, if_neg]
      · exact there
      · rintro rfl
        exact fresh listed
    obtain ⟨after, result, gone⟩ := ih once others (deletedCount + 1)
    refine ⟨after, ?_, fun wanted => ?_⟩
    · have here : fs.removeFile file = .ok (fs.remove file) := by
        unfold FileSystem.removeFile
        rw [found]
      unfold LocalStorage.removeFiles
      rw [here]
      dsimp only
      rw [result, List.length_cons]
      congr 2
      omega
    · rw [gone, removed]
      by_cases same : wanted = file
      · simp [same]
      · simp [same]

/-- Nothing at or below the path is left, but the root of the file system stays. -/
def Swept (before after : FileSystem) (base : List FileName) : Prop :=
  ∀ wanted, after.lookup wanted = if base <+: wanted ∧ wanted ≠ [] then none else before.lookup wanted

/-- At or below the path there are only directories, and the fuel lasts for them. -/
structure Hollow (fs : FileSystem) (dir : List FileName) (fuel : Nat) : Prop where
  dirs : ∀ wanted, dir <+: wanted → fs.lookup wanted ≠ none → fs.Ready wanted
  deep : ∀ wanted, dir <+: wanted → fs.lookup wanted ≠ none → wanted.length < dir.length + fuel

/-- What is below the names of a list is swept, one name after the other. -/
theorem sweep_names (order : ReadOrder) (step : ∀ fs name, Hollow fs (dir ++ [name]) fuel →
      Swept fs (fs.removeEmptyDirs order fuel (dir ++ [name])) (dir ++ [name]))
    (names : List FileName) (hollow : Hollow fs dir (fuel + 1)) (wanted : List FileName) :
    (names.foldl (fun fs name => fs.removeEmptyDirs order fuel (dir ++ [name])) fs).lookup wanted =
      if ∃ name ∈ names, dir ++ [name] <+: wanted then none else fs.lookup wanted := by
  induction names generalizing fs with
  | nil => simp
  | cons name rest ih =>
    have above : dir <+: dir ++ [name] := List.prefix_append _ _
    have inner : Hollow fs (dir ++ [name]) fuel := by
      refine ⟨fun wanted below => hollow.dirs wanted (above.trans below), fun wanted below found => ?_⟩
      have short := hollow.deep wanted (above.trans below) found
      rw [List.length_append, List.length_singleton]
      omega
    have swept := step fs name inner
    have only {wanted : List FileName}
        (found : (fs.removeEmptyDirs order fuel (dir ++ [name])).lookup wanted ≠ none) :
        (fs.removeEmptyDirs order fuel (dir ++ [name])).lookup wanted = fs.lookup wanted := by
      rw [swept] at found ⊢
      split
      · rename_i gone
        rw [if_pos gone] at found
        exact absurd rfl found
      · rfl
    have later : Hollow (fs.removeEmptyDirs order fuel (dir ++ [name])) dir (fuel + 1) := by
      refine ⟨fun wanted below found => ?_, fun wanted below found => ?_⟩
      · have same := only found
        rw [same] at found
        exact same.trans (hollow.dirs wanted below found)
      · rw [only found] at found
        exact hollow.deep wanted below found
    rw [List.foldl_cons, ih later, swept]
    by_cases here : dir ++ [name] <+: wanted
    · have whole : wanted ≠ [] := by
        rintro rfl
        simpa using List.prefix_nil.mp here
      simp [here, whole]
    · simp only [List.exists_mem_cons_iff, here, false_and, if_false, false_or]

theorem removeEmptyDirs_spec (order : ReadOrder) (hollow : Hollow fs dir fuel) :
    Swept fs (fs.removeEmptyDirs order fuel dir) dir := by
  induction fuel generalizing fs dir with
  | zero =>
    intro wanted
    unfold FileSystem.removeEmptyDirs
    split
    · rename_i below
      by_contra found
      have short := hollow.deep wanted below.1 found
      have longer := below.1.length_le
      omega
    · rfl
  | succ fuel ih =>
    intro wanted
    unfold FileSystem.removeEmptyDirs
    split
    · rename_i ready
      have emptied := sweep_names order (fun _ _ inner => ih inner) (fs.readDir order dir) hollow
      generalize (fs.readDir order dir).foldl
        (fun fs name => fs.removeEmptyDirs order fuel (dir ++ [name])) fs = inside at emptied
      have left (wanted : List FileName) : inside.lookup wanted =
          if dir <+: wanted ∧ wanted ≠ dir then none else fs.lookup wanted := by
        rw [emptied]
        by_cases below : dir <+: wanted ∧ wanted ≠ dir
        · rw [if_pos below]
          split
          · rfl
          · rename_i unlisted
            obtain ⟨name, deeper⟩ := (below_cases below.1).resolve_left below.2
            by_contra found
            exact unlisted ⟨name, mem_readDir.mpr fun missing => found (lookup_below_none missing deeper), deeper⟩
        · rw [if_neg below, if_neg]
          rintro ⟨name, -, deeper⟩
          refine below ⟨(List.prefix_append _ _).trans deeper, ?_⟩
          rintro rfl
          have longer := deeper.length_le
          simp at longer
      have still : inside.Ready dir := by
        unfold FileTree.Ready
        rw [left, if_neg fun below => below.2 rfl]
        exact ready
      have free : inside.names dir = [] := by
        rw [List.eq_nil_iff_forall_not_mem]
        intro name listed
        apply mem_names.mp listed
        rw [left, if_pos ⟨List.prefix_append _ _, by simp⟩]
      unfold FileSystem.removeDir
      rw [if_pos still]
      by_cases top : dir = []
      · subst top
        have stays : inside.remove [] = inside := by
          unfold FileTree.remove
          rw [dif_neg fun free => free.1 rfl]
        rw [stays, left]
      · rw [lookup_remove top free, left]
        by_cases same : wanted = dir
        · simp [same, top]
        · by_cases below : dir <+: wanted
          · have whole : wanted ≠ [] := by
              rintro rfl
              exact top (List.prefix_nil.mp below)
            simp [same, below, whole]
          · simp [same, below]
    · rename_i other
      split
      · rename_i below
        by_contra found
        by_cases same : dir = wanted
        · exact other (hollow.dirs dir (List.prefix_refl _) (same ▸ found))
        · exact other (dir_above found below.1 same)
      · rfl

end

/-! ### The whole -/

/-- `delete_prefix` of a path that can be resolved never fails. It removes exactly the files at or below
it and the directories they were in, wherever they are and in whatever order directories are read,
returns the number of the files, and changes nothing else; the path lies at or below the storage's root. -/
theorem deletePrefix_deletes (collecting sweeping : ReadOrder) (cwd : List FileName)
    (root : List PathComponent) (path : List Char) (fs : FileSystem) :
    match fullPath root path with
    | .error error => LocalStorage.deletePrefix collecting sweeping cwd root path fs = (.error (.storage error), fs)
    | .ok full => ∃ (files : List (List FileName)) (after : FileSystem), files.Nodup ∧
        (∀ file, file ∈ files ↔ place cwd full <+: file ∧ IsFile fs file) ∧
        LocalStorage.deletePrefix collecting sweeping cwd root path fs = (.ok files.length, after) ∧
        Swept fs after (place cwd full) ∧ (rootDir ∉ root.tail → Below root full) := by
  unfold LocalStorage.deletePrefix
  cases resolved : fullPath root path with
  | error error => rfl
  | ok full =>
    dsimp only
    have confined : rootDir ∉ root.tail → Below root full := fun rooted => (resolved_below rooted resolved).2
    split
    · rename_i missing
      refine ⟨[], fs, List.nodup_nil, fun file => ?_, rfl, fun wanted => ?_, confined⟩
      · refine iff_of_false (List.not_mem_nil) ?_
        rintro ⟨below, isFile⟩
        exact isFile.there (lookup_below_none missing below)
      · split
        · rename_i below
          exact lookup_below_none missing below.1
        · rfl
    · have deep : fs.depth < (place cwd full).length + (fs.depth + 1) := by omega
      have all (file : List FileName) : file ∈ _ ↔ _ := mem_collectFiles collecting deep
      have once := nodup_collectFiles collecting deep
      obtain ⟨after, result, gone⟩ := removeFiles_spec full (place cwd full) once
        (fun file listed => ((all file).mp listed).2) 0
      have hollow : Hollow after (place cwd full) (fs.depth + 1) := by
        refine ⟨fun wanted below found => ?_, fun wanted below found => ?_⟩
        · by_contra other
          rw [gone] at found
          split at found
          · exact found rfl
          · rename_i kept
            have same : after.lookup wanted = fs.lookup wanted := by rw [gone, if_neg kept]
            refine kept ((all wanted).mpr ⟨below, isFile_of_not_ready found fun ready => other ?_⟩)
            exact same.trans ready
        · rw [gone] at found
          split at found
          · exact absurd rfl found
          · have short := length_le_depth found
            omega
      have swept := removeEmptyDirs_spec sweeping hollow
      rw [result]
      refine ⟨_, _, once, all, by rw [Nat.zero_add], fun wanted => ?_, confined⟩
      rw [swept, gone]
      split
      · rfl
      · rename_i outside
        rw [if_neg]
        intro listed
        obtain ⟨below, bytes, found⟩ := (all wanted).mp listed
        exact outside ⟨below, ne_nil_of_file found⟩

end Roboflow.Storage
