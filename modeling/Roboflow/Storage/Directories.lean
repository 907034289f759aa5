import Roboflow.Storage.LocalFiles

/-! The directories that `writer` and `copy` of a local storage make, `local.rs`. `ensure_parent` is given
a resolved path and resolves its parent again, so below a relative root it makes the directories of a
doubled path. -/
namespace Roboflow.Storage
open Library UnixPath PathComponent

/-! ### What is promised -/

/-- The target has its bytes, its missing directories are there, and nothing else has changed. -/
def Written (before after : FileSystem) (target : List FileName) (bytes : List UInt8) : Prop :=
  ∀ place, after.lookup place =
    if place = target then some (.file bytes)
    else if place <+: target ∧ before.lookup place = none then some .dir
    else before.lookup place

/-- No file stands on the way to the target, and no directory in its place. -/
structure Clear (fs : FileSystem) (target : List FileName) : Prop where
  above : fs.NoFile target.dropLast
  free : ¬fs.Ready target

/-- What `writer` and a following `reader` promise. -/
def WriterWorks (cwd : List FileName) (root : List PathComponent) (path : List Char)
    (target : List FileName) (bytes : List UInt8) (fs : FileSystem) : Prop :=
  ∃ handle opened, LocalStorage.writer cwd root path fs = (.ok handle, opened) ∧
    Written fs (opened.append handle bytes) target bytes ∧
      LocalStorage.reader cwd root path (opened.append handle bytes) = .ok ⟨bytes, none⟩

/-- What `copy` and a following `reader` promise. -/
def CopyWorks (cwd : List FileName) (root : List PathComponent) (source path : List Char)
    (target : List FileName) (bytes : List UInt8) (fs : FileSystem) : Prop :=
  ∃ after, LocalStorage.copy cwd root source path fs = (.ok (), after) ∧
    Written fs after target bytes ∧ LocalStorage.reader cwd root path after = .ok ⟨bytes, none⟩

def Absolute (root : List PathComponent) : Prop := root.head? = some rootDir

instance (root : List PathComponent) : Decidable (Absolute root) :=
  inferInstanceAs (Decidable (_ = _))

/-- The parent of a resolved path, as it is resolved again. -/
def parentAgain (root full : List PathComponent) : List PathComponent :=
  if Absolute root then full.dropLast else normalForm root ++ full.dropLast

/-- The root is absolute, or both the directory and the one of the doubled path are there. -/
def NothingMissing (cwd : List FileName) (root full : List PathComponent) (fs : FileSystem) : Prop :=
  Absolute root ∨ fs.Ready (place cwd (parentAgain root full)) ∧ fs.Ready (place cwd full.dropLast)

instance (cwd : List FileName) (root full : List PathComponent) (fs : FileSystem) :
    Decidable (NothingMissing cwd root full fs) := inferInstanceAs (Decidable (_ ∨ _ ∧ _))

/-! ### Files -/

section
variable {fs before made opened final : FileSystem} {parent target dirs : List FileName}
variable {name : FileName} {bytes : List UInt8}

theorem lookup_setFile (ready : fs.Ready parent) (free : ¬fs.Ready (parent ++ [name]))
    (bytes : List UInt8) (wanted : List FileName) :
    (FileSystem.setFile fs (parent ++ [name]) bytes).lookup wanted =
      if wanted = parent ++ [name] then some (.file bytes) else fs.lookup wanted := by
  unfold FileSystem.setFile
  rw [List.getLast?_concat, List.dropLast_concat]
  exact FileTree.lookup_put ready free _ _

theorem not_ready_of_file (found : fs.lookup target = some (.file bytes)) : ¬fs.Ready target := by
  unfold FileTree.Ready
  rw [found]
  simp

/-- What holds a file is a directory. -/
theorem ready_above_file (found : fs.lookup (parent ++ [name]) = some (.file bytes)) : fs.Ready parent := by
  apply fs.closed parent name
  have listed : findNode fs.entries (parent ++ [name]) = some (.file bytes) := found
  rw [listed]
  exact Option.some_ne_none _

theorem lookup_append {held : List UInt8} (found : fs.lookup (parent ++ [name]) = some (.file held))
    (bytes : List UInt8) (wanted : List FileName) :
    (FileSystem.append fs (parent ++ [name]) bytes).lookup wanted =
      if wanted = parent ++ [name] then some (.file (held ++ bytes)) else fs.lookup wanted := by
  unfold FileSystem.append
  rw [found]
  exact lookup_setFile (ready_above_file found) (not_ready_of_file found) _ _

/-- A file is created in a directory that is there, where no directory is. -/
theorem createFile_iff : FileSystem.createFile fs (parent ++ [name]) = .ok opened ↔
    (fs.Ready parent ∧ ¬fs.Ready (parent ++ [name])) ∧
      opened = FileSystem.setFile fs (parent ++ [name]) [] := by
  unfold FileSystem.createFile
  cases found : fs.lookup (parent ++ [name]) with
  | none =>
    have free : ¬fs.Ready (parent ++ [name]) := by
      unfold FileTree.Ready
      rw [found]
      simp
    rw [List.dropLast_concat]
    dsimp only
    split
    · rename_i ready
      simp [ready, free, eq_comm]
    · rename_i missing
      simp [missing]
  | some node =>
    cases node with
    | file held =>
      simp [ready_above_file found, not_ready_of_file found, eq_comm]
    | dir =>
      have taken : fs.Ready (parent ++ [name]) := found
      simp [taken]

theorem createDirAll_ok (made : FileSystem.createDirAll fs dirs = .ok opened) :
    FileTree.Made fs opened dirs ∧ fs.NoFile dirs := by
  have root : fs.Ready [] := fs.rooted
  have spec := FileTree.makeDirs_spec root dirs
  unfold FileSystem.createDirAll at made
  cases result : fs.makeDirs [] dirs with
  | error blocked =>
    rw [result] at made
    cases made
  | ok after =>
    rw [result] at made spec
    obtain rfl := Except.ok.inj made
    exact spec

theorem createDirAll_of_noFile (clear : fs.NoFile dirs) :
    ∃ made, FileSystem.createDirAll fs dirs = .ok made ∧ FileTree.Made fs made dirs := by
  have root : fs.Ready [] := fs.rooted
  have spec := FileTree.makeDirs_spec root dirs
  unfold FileSystem.createDirAll
  cases result : fs.makeDirs [] dirs with
  | error blocked =>
    rw [result] at spec
    exact absurd clear spec
  | ok after =>
    rw [result] at spec
    exact ⟨after, rfl, spec.1⟩

/-! ### Directories made, then the file -/

/-- The directories are made, and the target's own is then there. -/
def CanStore (before : FileSystem) (dirs parent : List FileName) (name : FileName)
    (made : FileSystem) : Prop :=
  FileSystem.createDirAll before dirs = .ok made ∧ made.Ready parent ∧ ¬made.Ready (parent ++ [name])

/-- The target has its content, and everything else is as the directories were made. -/
def Stored (made : FileSystem) (target : List FileName) (content : List UInt8)
    (final : FileSystem) : Prop :=
  ∀ wanted, final.lookup wanted =
    if wanted = target then some (.file content) else made.lookup wanted

theorem made_of_ready (made_ : FileTree.Made before made dirs) (ready : before.Ready dirs)
    (wanted : List FileName) : made.lookup wanted = before.lookup wanted := by
  rw [made_ wanted, ← (FileTree.made_self ready).1 wanted]

theorem prefix_concat_of_ne {wanted : List FileName} (other : wanted ≠ parent ++ [name]) :
    wanted <+: parent ++ [name] ↔ wanted <+: parent := by
  rw [List.prefix_concat_iff]
  exact or_iff_right other

theorem can_store_own (clear : Clear before (parent ++ [name])) :
    ∃ made, CanStore before parent parent name made := by
  have above := clear.above
  rw [List.dropLast_concat] at above
  obtain ⟨made, ran, made_⟩ := createDirAll_of_noFile above
  refine ⟨made, ran, made_.ready above, ?_⟩
  unfold FileTree.Ready
  rw [made_ (parent ++ [name]), if_neg]
  · exact clear.free
  · intro missing
    have short := missing.1.length_le
    rw [List.length_append, List.length_singleton] at short
    omega

theorem can_store_ready (clear : Clear before (parent ++ [name])) (ready : before.Ready dirs)
    (own : before.Ready parent) : ∃ made, CanStore before dirs parent name made := by
  obtain ⟨made, ran, made_⟩ := createDirAll_of_noFile (FileTree.made_self ready).2
  refine ⟨made, ran, ?_, ?_⟩
  · unfold FileTree.Ready
    rw [made_of_ready made_ ready]
    exact own
  · unfold FileTree.Ready
    rw [made_of_ready made_ ready]
    exact clear.free

theorem written_of_own (can : CanStore before parent parent name made)
    (stored : Stored made (parent ++ [name]) bytes final) :
    Written before final (parent ++ [name]) bytes := by
  intro wanted
  rw [stored wanted]
  split
  · rfl
  · rename_i other
    simp only [prefix_concat_of_ne other]
    exact (createDirAll_ok can.1).1 wanted

theorem written_of_ready (ready : before.Ready dirs) (own : before.Ready parent)
    (can : CanStore before dirs parent name made) (stored : Stored made (parent ++ [name]) bytes final) :
    Written before final (parent ++ [name]) bytes := by
  intro wanted
  rw [stored wanted]
  split
  · rfl
  · rename_i other
    simp only [prefix_concat_of_ne other]
    rw [made_of_ready (createDirAll_ok can.1).1 ready wanted]
    exact (FileTree.made_self own).1 wanted

/-- If other directories than the target's own are made, then those must have been there. -/
theorem ready_of_written {content : List UInt8} (apart : ¬dirs <+: parent)
    (can : CanStore before dirs parent name made) (stored : Stored made (parent ++ [name]) content final)
    (written : Written before final (parent ++ [name]) bytes) :
    before.Ready dirs ∧ before.Ready parent := by
  obtain ⟨ran, own, free⟩ := can
  obtain ⟨made_, clear⟩ := createDirAll_ok ran
  have there : made.Ready dirs := made_.ready clear
  have other : dirs ≠ parent ++ [name] := by
    rintro rfl
    exact free there
  have ready : before.Ready dirs := by
    have kept := written dirs
    rw [stored dirs, if_neg other, if_neg other,
      if_neg fun missing => apart ((prefix_concat_of_ne other).mp missing.1)] at kept
    unfold FileTree.Ready
    rw [← kept]
    exact there
  refine ⟨ready, ?_⟩
  unfold FileTree.Ready
  rw [← made_of_ready made_ ready]
  exact own

theorem content_of_written {content : List UInt8} (stored : Stored made target content final)
    (written : Written before final target bytes) : content = bytes := by
  have both := written target
  rw [stored target, if_pos rfl, if_pos rfl] at both
  exact FileNode.file.inj (Option.some.inj both)

/-- A created file gets what is written to it. -/
theorem stored_created (ready : made.Ready parent ∧ ¬made.Ready (parent ++ [name])) (bytes : List UInt8) :
    Stored made (parent ++ [name]) bytes
      ((FileSystem.setFile made (parent ++ [name]) []).append (parent ++ [name]) bytes) := by
  have created := lookup_setFile ready.1 ready.2 []
  have empty : (FileSystem.setFile made (parent ++ [name]) []).lookup (parent ++ [name]) =
      some (.file []) := by
    rw [created, if_pos rfl]
  intro wanted
  rw [lookup_append empty, List.nil_append, created]
  split
  · rfl
  · rfl

/-- A copied file gets what is left of the source once the target is emptied. -/
theorem stored_copied {source : List FileName}
    (ready : made.Ready parent ∧ ¬made.Ready (parent ++ [name]))
    (found : made.lookup source = some (.file bytes)) :
    ∃ after, FileSystem.copyFile made source (parent ++ [name]) = .ok after ∧
      Stored made (parent ++ [name]) (if source = parent ++ [name] then [] else bytes) after := by
  have opened := createFile_iff.mpr ⟨ready, rfl⟩
  have created := lookup_setFile ready.1 ready.2 []
  unfold FileSystem.copyFile
  rw [found]
  dsimp only
  rw [opened]
  dsimp only
  by_cases same : source = parent ++ [name]
  · have empty : (FileSystem.setFile made (parent ++ [name]) []).lookup source = some (.file []) := by
      rw [created, if_pos same]
    rw [empty, if_pos same]
    exact ⟨_, rfl, stored_created ready []⟩
  · have kept : (FileSystem.setFile made (parent ++ [name]) []).lookup source = some (.file bytes) := by
      rw [created, if_neg same, found]
    rw [kept, if_neg same]
    exact ⟨_, rfl, stored_created ready bytes⟩

theorem ready_of_copied {source : List FileName} {after : FileSystem}
    (found : made.lookup source = some (.file bytes))
    (copied : FileSystem.copyFile made source (parent ++ [name]) = .ok after) :
    made.Ready parent ∧ ¬made.Ready (parent ++ [name]) := by
  unfold FileSystem.copyFile at copied
  rw [found] at copied
  dsimp only at copied
  cases opened : FileSystem.createFile made (parent ++ [name]) with
  | error error =>
    rw [opened] at copied
    cases copied
  | ok created => exact (createFile_iff.mp opened).1

end

/-! ### Resolved paths -/

section
variable {cwd : List FileName} {root full init : List PathComponent} {text path : List Char}
variable {fs : FileSystem}

theorem validName_of_mem {name : List Char} (member : normal name ∈ components text) :
    ValidName name := by
  have inside : normal name ∈ parts text := by
    unfold components at member
    split at member
    · exact (List.mem_cons.mp member).resolve_left (by simp)
    · split at member
      · exact (List.mem_cons.mp member).resolve_left (by simp)
      · exact member
  obtain ⟨segment, piece, same⟩ := List.mem_filterMap.mp inside
  unfold ofSegment at same
  split at same
  · cases same
  · rename_i other
    split at same
    · cases same
    · rename_i dots
      cases same
      rw [not_or] at other
      exact ⟨other.1, free_of_mem_splitOn piece, other.2, dots⟩

/-- The root stands at the start or not at all. -/
theorem head_rootDir_iff {path : List PathComponent} (rooted : rootDir ∉ path.tail) :
    path.head? = some rootDir ↔ rootDir ∈ path := by
  constructor
  · exact List.mem_of_mem_head?
  · intro member
    cases path with
    | nil => cases member
    | cons first rest =>
      rcases List.mem_cons.mp member with rfl | later
      · rfl
      · exact absurd later rooted

/-- What follows a root in a path that was resolved below it. -/
structure Under (root init : List PathComponent) : Prop where
  direct : Direct root
  names : ∀ c ∈ init, ∃ inner, c = normal inner ∧ ValidName inner

theorem under_of_resolved (resolved : fullPath (components text) path = .ok full) :
    ∃ init, full = normalForm (components text) ++ init ∧ Under (components text) init := by
  have rooted := components_rooted text
  have direct := direct_of_resolved rooted resolved
  obtain ⟨form, base, names, base_form, rfl, named⟩ := resolved_below rooted resolved
  obtain rfl := isNormalForm_iff.mp base_form
  refine ⟨names, rfl, direct, fun c member => ?_⟩
  obtain ⟨inner, rfl⟩ := named c member
  have inside := (isNormalForm_iff.mp form) ▸ List.mem_append_right _ member
  have joined := (normalForm_sublist _).subset inside
  refine ⟨inner, rfl, ?_⟩
  unfold join at joined
  split at joined
  · exact validName_of_mem joined
  · rcases List.mem_append.mp joined with first | second
    · exact validName_of_mem first
    · exact validName_of_mem (List.mem_of_mem_filter second)

namespace Under

variable (under : Under root init)
include under

theorem free {c : PathComponent} (member : c ∈ init) : c ≠ rootDir ∧ c ≠ curDir ∧ c ≠ parentDir := by
  obtain ⟨inner, rfl, _⟩ := under.names c member
  simp

theorem base_ne_nil : normalForm root ≠ [] := normalForm_direct_ne_nil under.direct

theorem ne_nil : normalForm root ++ init ≠ [] :=
  List.append_ne_nil_of_left_ne_nil under.base_ne_nil _

theorem parentDir_not_mem : parentDir ∉ normalForm root ++ init := by
  rw [List.mem_append, not_or]
  exact ⟨fun member => under.direct.1 ((normalForm_sublist root).subset member),
    fun member => (under.free member).2.2 rfl⟩

theorem curDir_not_mem : curDir ∉ normalForm root ++ init := by
  rw [List.mem_append, not_or]
  exact ⟨curDir_not_mem_normalForm root, fun member => (under.free member).2.1 rfl⟩

theorem filter_eq : (normalForm root ++ init).filter (· ≠ curDir) = normalForm root ++ init := by
  rw [List.filter_eq_self]
  intro c member
  have other : c ≠ curDir := by
    rintro rfl
    exact under.curDir_not_mem member
  simpa using other

theorem path_rooted (rooted : rootDir ∉ root.tail) : rootDir ∉ (normalForm root ++ init).tail := by
  rw [List.tail_append_of_ne_nil under.base_ne_nil, List.mem_append, not_or]
  exact ⟨fun member => rooted ((normalForm_sublist root).tail.subset member),
    fun member => (under.free member).1 rfl⟩

/-- A path below an absolute root is absolute. -/
theorem head_iff (rooted : rootDir ∉ root.tail) :
    (normalForm root ++ init).head? = some rootDir ↔ Absolute root := by
  have first : (normalForm root ++ init).head? = (normalForm root).head? :=
    List.head?_append_of_ne_nil _ under.base_ne_nil
  have sublist := normalForm_sublist root
  have member : rootDir ∈ normalForm root ↔ rootDir ∈ root := by
    rw [normalForm_plain under.direct.1, List.mem_filter]
    simp
  rw [first, head_rootDir_iff (fun inside => rooted (sublist.tail.subset inside)), member, Absolute,
    head_rootDir_iff rooted]

/-- Below an absolute root a path is resolved to itself, below a relative one behind the root. -/
theorem resolved_again (rooted : rootDir ∉ root.tail) :
    LocalStorage.fullPathOf root (normalForm root ++ init) =
      .ok (if Absolute root then normalForm root ++ init
        else normalForm root ++ (normalForm root ++ init)) := by
  have plain := under.parentDir_not_mem
  have tail := under.path_rooted rooted
  unfold LocalStorage.fullPathOf
  by_cases absolute : Absolute root
  · have joined : join root (normalForm root ++ init) = normalForm root ++ init := by
      rw [join, if_pos (.inl ((under.head_iff rooted).mpr absolute))]
    rw [if_pos absolute, joined, normalizePath_iff tail, normalForm_plain plain, under.filter_eq,
      normalizeRoot_direct under.direct]
    exact ⟨rfl, plain, List.prefix_append _ _⟩
  · have some_ : root ≠ [] := by
      rintro rfl
      exact under.base_ne_nil rfl
    have joined : join root (normalForm root ++ init) = root ++ (normalForm root ++ init) := by
      have head : ¬(normalForm root ++ init).head? = some rootDir :=
        fun first => absolute ((under.head_iff rooted).mp first)
      rw [join, if_neg (by simp only [head, some_, or_self, not_false_eq_true]), under.filter_eq]
    have free : parentDir ∉ root ++ (normalForm root ++ init) := by
      rw [List.mem_append, not_or]
      exact ⟨under.direct.1, plain⟩
    have rootless : rootDir ∉ normalForm root ++ init := by
      intro member
      apply absolute
      rw [← under.head_iff rooted]
      exact (head_rootDir_iff tail).mpr member
    have rooted' : rootDir ∉ (root ++ (normalForm root ++ init)).tail := by
      rw [List.tail_append_of_ne_nil some_, List.mem_append, not_or]
      exact ⟨rooted, rootless⟩
    have form : normalForm (root ++ (normalForm root ++ init)) =
        normalForm root ++ (normalForm root ++ init) := by
      rw [normalForm_plain free, List.filter_append, under.filter_eq, normalForm_plain under.direct.1]
    rw [if_neg absolute, joined, normalizePath_iff rooted', form, normalizeRoot_direct under.direct]
    refine ⟨rfl, ?_, List.prefix_append _ _⟩
    rw [List.mem_append, not_or]
    exact ⟨fun member => under.direct.1 ((normalForm_sublist root).subset member), plain⟩

end Under

/-- Behind a relative root a path leads further. -/
theorem place_doubled (under : Under (components text) init) (relative : ¬Absolute (components text))
    (cwd : List FileName) :
    (place cwd (normalForm (components text) ++ init)).length <
      (place cwd (normalForm (components text) ++ (normalForm (components text) ++ init))).length := by
  have rooted := components_rooted text
  have some_ := under.base_ne_nil
  have head : ¬(normalForm (components text) ++ init).head? = some rootDir :=
    fun first => relative ((under.head_iff rooted).mp first)
  have again : ¬(normalForm (components text) ++ (normalForm (components text) ++ init)).head? =
      some rootDir := by
    have same : (normalForm (components text) ++ (normalForm (components text) ++ init)).head? =
        (normalForm (components text) ++ init).head? :=
      (List.head?_append_of_ne_nil _ some_).trans (List.head?_append_of_ne_nil _ some_).symm
    rw [same]
    exact head
  have longer : (normalForm (components text)).filterMap ofComponent ≠ [] := by
    obtain ⟨c, member⟩ := List.exists_mem_of_ne_nil _ some_
    have inside := (normalForm_sublist _).subset member
    cases c with
    | rootDir => exact absurd ((head_rootDir_iff rooted).mpr inside) relative
    | curDir => exact absurd member (curDir_not_mem_normalForm _)
    | parentDir => exact absurd inside under.direct.1
    | normal inner =>
      apply List.ne_nil_of_mem (a := ⟨inner, validName_of_mem inside⟩)
      exact List.mem_filterMap.mpr ⟨_, member, dif_pos (validName_of_mem inside)⟩
  have positive := List.length_pos_of_ne_nil longer
  unfold place
  rw [if_neg head, if_neg again]
  simp only [List.filterMap_append, List.length_append]
  omega

/-! ### A name and its parent -/

/-- A path strictly below a root: its parent, and its name. -/
structure Nested (root full init : List PathComponent) (name : FileName) : Prop
    extends Under root init where
  split : full = normalForm root ++ init ++ [normal name.val]

theorem nested_of_resolved (resolved : fullPath (components text) path = .ok full)
    (other : full ≠ normalForm (components text)) :
    ∃ init name, Nested (components text) full init name := by
  obtain ⟨names, rfl, under⟩ := under_of_resolved resolved
  rcases List.eq_nil_or_concat names with rfl | ⟨init, last, rfl⟩
  · exact absurd (List.append_nil _) other
  · obtain ⟨name, rfl, valid⟩ := under.names last (by simp)
    refine ⟨init, ⟨name, valid⟩, ⟨under.direct, fun c member => ?_⟩, by simp⟩
    exact under.names c (by simp [member])

namespace Nested

variable {name : FileName} (nested : Nested root full init name)
include nested

theorem dropLast : full.dropLast = normalForm root ++ init := by
  rw [nested.split, List.dropLast_concat]

/-- The directory that is made for a path. -/
theorem ensureParent_eq (cwd : List FileName) (rooted : rootDir ∉ root.tail) (fs : FileSystem) :
    LocalStorage.ensureParent cwd root full fs =
      match fs.createDirAll (place cwd (parentAgain root full)) with
      | .ok after => (.ok (), after)
      | .error error =>
        (.error (.storage (.other ("failed to create parent directories: ".toList ++ error.text))),
          fs) := by
  have parent : UnixPath.parent full = some (normalForm root ++ init) := by
    rw [← nested.dropLast]
    conv_lhs => rw [nested.split]
    simp [UnixPath.parent, nested.dropLast]
  unfold LocalStorage.ensureParent
  rw [parent]
  dsimp only
  rw [if_neg nested.ne_nil, nested.resolved_again rooted, ← nested.dropLast]
  change (match fs.createDirAll (place cwd (parentAgain root full)) with
    | .ok after => _
    | .error error => _) = _
  cases fs.createDirAll (place cwd (parentAgain root full)) <;> rfl

theorem place_full (cwd : List FileName) : place cwd full = place cwd full.dropLast ++ [name] := by
  have head : full.head? = full.dropLast.head? := by
    rw [nested.dropLast]
    conv_lhs => rw [nested.split]
    exact List.head?_append_of_ne_nil _ nested.ne_nil
  have last : ofComponent (normal name.val) = some name := dif_pos name.property
  unfold place
  rw [head, nested.dropLast]
  conv_lhs => rw [nested.split]
  rw [List.filterMap_append, List.append_assoc, List.filterMap_cons_some last, List.filterMap_nil]

end Nested

/-- Below a relative root the directory of the doubled path does not lead to the path. -/
theorem doubled_apart {name : FileName} (nested : Nested (components text) full init name)
    (relative : ¬Absolute (components text)) (cwd : List FileName) :
    ¬place cwd (parentAgain (components text) full) <+: place cwd full.dropLast := by
  intro inside
  have short := inside.length_le
  unfold parentAgain at short
  rw [if_neg relative, nested.dropLast] at short
  exact absurd short (Nat.not_le.mpr (place_doubled nested.toUnder relative cwd))

/-! ### Writing and copying -/

/-- The directories made are the target's own below an absolute root, and apart from them below a relative
one. -/
theorem own_or_apart {name : FileName} (nested : Nested (components text) full init name)
    (cwd : List FileName) :
    Absolute (components text) ∧ place cwd (parentAgain (components text) full) = place cwd full.dropLast ∨
      ¬Absolute (components text) ∧
        ¬place cwd (parentAgain (components text) full) <+: place cwd full.dropLast := by
  by_cases absolute : Absolute (components text)
  · left
    rw [parentAgain, if_pos absolute]
    exact ⟨absolute, rfl⟩
  · exact .inr ⟨absolute, doubled_apart nested absolute cwd⟩

theorem writer_ok_iff {name : FileName} (nested : Nested (components text) full init name)
    (resolved : fullPath (components text) path = .ok full) (handle : List FileName)
    (opened : FileSystem) :
    LocalStorage.writer cwd (components text) path fs = (.ok handle, opened) ↔
      handle = place cwd full ∧ ∃ made,
        CanStore fs (place cwd (parentAgain (components text) full)) (place cwd full.dropLast) name made ∧
          opened = FileSystem.setFile made (place cwd full) [] := by
  have place_eq := nested.place_full cwd
  unfold LocalStorage.writer CanStore
  rw [resolved]
  dsimp only
  rw [nested.ensureParent_eq cwd (components_rooted text)]
  cases ran : FileSystem.createDirAll fs (place cwd (parentAgain (components text) full)) with
  | error error => simp
  | ok made =>
    dsimp only
    cases created : FileSystem.createFile made (place cwd full) with
    | error error =>
      have refused : ¬(made.Ready (place cwd full.dropLast) ∧
          ¬made.Ready (place cwd full.dropLast ++ [name])) := by
        intro ready
        rw [place_eq, createFile_iff.mpr ⟨ready, rfl⟩] at created
        cases created
      simp only [Prod.mk.injEq, reduceCtorEq, false_and, Except.ok.injEq, false_iff, not_and,
        not_exists]
      rintro - _ ⟨rfl, ready⟩
      exact absurd ready refused
    | ok opened_ =>
      rw [place_eq, createFile_iff] at created
      obtain ⟨ready, rfl⟩ := created
      simp only [Prod.mk.injEq, Except.ok.injEq]
      rw [place_eq]
      constructor
      · rintro ⟨rfl, rfl⟩
        exact ⟨rfl, made, ⟨rfl, ready⟩, rfl⟩
      · rintro ⟨rfl, _, ⟨rfl, _⟩, rfl⟩
        exact ⟨rfl, rfl⟩

/-- A reader finds what was stored. -/
theorem reader_stored {made final : FileSystem} {bytes : List UInt8}
    (resolved : fullPath (components text) path = .ok full)
    (stored : Stored made (place cwd full) bytes final) :
    LocalStorage.reader cwd (components text) path final = .ok ⟨bytes, none⟩ := by
  unfold LocalStorage.reader FileSystem.openFile
  rw [resolved]
  dsimp only
  rw [stored, if_pos rfl]

/-- With nothing missing the target can be stored, and nothing else changes. -/
theorem can_store {name : FileName} (nested : Nested (components text) full init name)
    (nothing : NothingMissing cwd (components text) full fs) (clear : Clear fs (place cwd full)) :
    ∃ made, CanStore fs (place cwd (parentAgain (components text) full)) (place cwd full.dropLast) name made ∧
      ∀ bytes final, Stored made (place cwd full) bytes final → Written fs final (place cwd full) bytes := by
  rw [nested.place_full cwd] at clear ⊢
  rcases nothing with absolute | ⟨ready, own⟩
  · have same : parentAgain (components text) full = full.dropLast := if_pos absolute
    rw [same]
    obtain ⟨made, can⟩ := can_store_own clear
    exact ⟨made, can, fun _ _ => written_of_own can⟩
  · obtain ⟨made, can⟩ := can_store_ready clear ready own
    exact ⟨made, can, fun _ _ => written_of_ready ready own can⟩

theorem nothing_missing {name : FileName} {made final : FileSystem} {content bytes : List UInt8}
    (nested : Nested (components text) full init name)
    (can : CanStore fs (place cwd (parentAgain (components text) full)) (place cwd full.dropLast) name made)
    (stored : Stored made (place cwd full) content final)
    (written : Written fs final (place cwd full) bytes) :
    NothingMissing cwd (components text) full fs := by
  rw [nested.place_full cwd] at stored written
  rcases own_or_apart nested cwd with ⟨absolute, _⟩ | ⟨_, apart⟩
  · exact .inl absolute
  · exact .inr (ready_of_written apart can stored written)

theorem writer_works_iff (resolved : fullPath (components text) path = .ok full)
    (other : full ≠ normalForm (components text)) (clear : Clear fs (place cwd full))
    (bytes : List UInt8) :
    WriterWorks cwd (components text) path (place cwd full) bytes fs ↔
      NothingMissing cwd (components text) full fs := by
  obtain ⟨init, name, nested⟩ := nested_of_resolved resolved other
  constructor
  · rintro ⟨handle, opened, ran, written, _⟩
    obtain ⟨rfl, made, can, rfl⟩ := (writer_ok_iff nested resolved handle opened).mp ran
    have stored := stored_created can.2 bytes
    rw [← nested.place_full cwd] at stored
    exact nothing_missing nested can stored written
  · intro nothing
    obtain ⟨made, can, written⟩ := can_store nested nothing clear
    have stored := stored_created can.2 bytes
    rw [← nested.place_full cwd] at stored
    exact ⟨_, _, (writer_ok_iff nested resolved _ _).mpr ⟨rfl, made, can, rfl⟩, written _ _ stored,
      reader_stored resolved stored⟩

/-- The copy of a file once the directories are made. -/
theorem copy_ok {name : FileName} {source : List Char} {sourcePath : List PathComponent}
    {made after : FileSystem} (nested : Nested (components text) full init name)
    (found : fullPath (components text) source = .ok sourcePath)
    (resolved : fullPath (components text) path = .ok full)
    (ran : FileSystem.createDirAll fs (place cwd (parentAgain (components text) full)) = .ok made)
    (copied : FileSystem.copyFile made (place cwd sourcePath) (place cwd full) = .ok after) :
    LocalStorage.copy cwd (components text) source path fs = (.ok (), after) := by
  unfold LocalStorage.copy
  rw [found, resolved]
  dsimp only
  rw [nested.ensureParent_eq cwd (components_rooted text), ran]
  dsimp only
  rw [copied]

theorem copied_of_ok {name : FileName} {source : List Char} {sourcePath : List PathComponent}
    {after : FileSystem} (nested : Nested (components text) full init name)
    (found : fullPath (components text) source = .ok sourcePath)
    (resolved : fullPath (components text) path = .ok full)
    (ran : LocalStorage.copy cwd (components text) source path fs = (.ok (), after)) :
    ∃ made, FileSystem.createDirAll fs (place cwd (parentAgain (components text) full)) = .ok made ∧
      FileSystem.copyFile made (place cwd sourcePath) (place cwd full) = .ok after := by
  unfold LocalStorage.copy at ran
  rw [found, resolved] at ran
  dsimp only at ran
  rw [nested.ensureParent_eq cwd (components_rooted text)] at ran
  cases dirs : FileSystem.createDirAll fs (place cwd (parentAgain (components text) full)) with
  | error error =>
    rw [dirs] at ran
    simp at ran
  | ok made =>
    rw [dirs] at ran
    dsimp only at ran
    cases copied : FileSystem.copyFile made (place cwd sourcePath) (place cwd full) with
    | error error =>
      rw [copied] at ran
      simp at ran
    | ok result =>
      rw [copied] at ran
      obtain rfl : result = after := (Prod.mk.inj ran).2
      exact ⟨made, rfl, copied⟩

/-- Making directories leaves the files. -/
theorem kept_file {made : FileSystem} {dirs place : List FileName} {bytes : List UInt8}
    (ran : FileSystem.createDirAll fs dirs = .ok made) (found : fs.lookup place = some (.file bytes)) :
    made.lookup place = some (.file bytes) := by
  rw [(createDirAll_ok ran).1 place, found, if_neg]
  exact fun missing => Option.some_ne_none _ missing.2

theorem copy_works_iff {source : List Char} {sourcePath : List PathComponent} {bytes : List UInt8}
    (resolved : fullPath (components text) path = .ok full)
    (other : full ≠ normalForm (components text)) (clear : Clear fs (place cwd full))
    (found : fullPath (components text) source = .ok sourcePath)
    (held : fs.lookup (place cwd sourcePath) = some (.file bytes)) :
    CopyWorks cwd (components text) source path (place cwd full) bytes fs ↔
      NothingMissing cwd (components text) full fs ∧
        (place cwd sourcePath = place cwd full → bytes = []) := by
  obtain ⟨init, name, nested⟩ := nested_of_resolved resolved other
  have place_eq := nested.place_full cwd
  constructor
  · rintro ⟨after, ran, written, _⟩
    obtain ⟨made, dirs, copied⟩ := copied_of_ok nested found resolved ran
    have kept := kept_file dirs held
    rw [place_eq] at copied
    have ready := ready_of_copied kept copied
    obtain ⟨after', again, stored⟩ := stored_copied ready kept
    obtain rfl : after = after' := Except.ok.inj (copied.symm.trans again)
    rw [← place_eq] at stored
    refine ⟨nothing_missing nested ⟨dirs, ready⟩ stored written, fun same => ?_⟩
    have content := content_of_written stored written
    rw [if_pos same] at content
    exact content.symm
  · rintro ⟨nothing, same⟩
    obtain ⟨made, can, written⟩ := can_store nested nothing clear
    have kept := kept_file can.1 held
    obtain ⟨after, copied, stored⟩ := stored_copied can.2 kept
    rw [← place_eq] at copied stored
    have content : (if place cwd sourcePath = place cwd full then [] else bytes) = bytes := by
      split
      · rename_i itself
        exact (same itself).symm
      · rfl
    rw [content] at stored
    exact ⟨after, copy_ok nested found resolved can.1 copied, written _ _ stored,
      reader_stored resolved stored⟩

end

end Roboflow.Storage
