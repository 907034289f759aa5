import Roboflow.Storage.Directories

/-! The paths that `list` and `metadata` return, `local.rs` and `s3.rs`. They are resolved names, and are
resolved again when they are used: behind a relative root or a key prefix they lead elsewhere. -/
namespace Roboflow.Storage
open Library UnixPath PathComponent

/-! ### Keys -/

/-- What `object_store` reports of an object. -/
structure ObjectMeta where
  location : List Char
  size : Nat
  lastModified : Nat

inductive ObjectStoreError where
  | notFound
  | other (message : List Char)

/-- The calls of `object_store` that are used. -/
structure ObjectStore where
  get : List Char → Except ObjectStoreError (List UInt8)
  head : List Char → Except ObjectStoreError ObjectMeta
  listWithDelimiter : List Char → Except ObjectStoreError (List ObjectMeta × List (List Char))

/-- The segments of a key, empty ones dropped. -/
def segments (text : List Char) : List (List Char) := (text.splitOn '/').filter (· ≠ [])

namespace S3Storage

/-- `S3Config::full_key`. -/
def fullKey (keyPrefix : Option (List Char)) (path : List Char) : List Char :=
  match keyPrefix with
  | some text => text.rdropWhile (· = '/') ++ '/' :: path
  | none => path

variable (pathFrom : List Char → List Char) (keyPrefix : Option (List Char)) (store : ObjectStore)

/-- `path_to_key`, with `Path::from` of `object_store`. -/
def pathToKey (path : List Char) : List Char := pathFrom (fullKey keyPrefix path)

def convertError (path : List Char) : ObjectStoreError → OperationError
  | .notFound => .storage (.notFound path)
  | .other message => .cloud message

/-- `convert_metadata`. -/
def convertMetadata (meta_ : ObjectMeta) : ObjectMetadata :=
  { path := meta_.location
    size := meta_.size
    lastModified := some meta_.lastModified
    contentType := none
    isDir := false }

/-- `reader`. -/
def reader (path : List Char) : Except OperationError Reader :=
  match store.get (pathToKey pathFrom keyPrefix path) with
  | .ok bytes => .ok ⟨bytes, none⟩
  | .error error => .error (convertError path error)

/-- `metadata`. -/
def metadata (path : List Char) : Except OperationError ObjectMetadata :=
  match store.head (pathToKey pathFrom keyPrefix path) with
  | .ok meta_ => .ok (convertMetadata meta_)
  | .error error => .error (convertError path error)

/-- `size`. -/
def size (path : List Char) : Except OperationError Nat :=
  (metadata pathFrom keyPrefix store path).map ObjectMetadata.size

/-- `list`: the objects, and the common prefixes as directories. -/
def list (path : List Char) : Except OperationError (List ObjectMetadata) :=
  match store.listWithDelimiter (pathToKey pathFrom keyPrefix path) with
  | .ok (objects, commonPrefixes) =>
    .ok (objects.map convertMetadata ++ commonPrefixes.map fun text =>
      { path := text, size := 0, lastModified := none, contentType := none, isDir := true })
  | .error .notFound => .error (.cloud "Failed to list: not found".toList)
  | .error (.other message) => .error (.cloud ("Failed to list: ".toList ++ message))

end S3Storage

/-! ### What is promised -/

/-- A path that was returned is resolved to the place it names. -/
def AddressesFile (cwd : List FileName) (root : List PathComponent) (returned : ObjectMetadata) : Prop :=
  (fullPath root returned.path).map (place cwd) = .ok (place cwd (components returned.path))

/-- A key that was returned is made to itself. -/
def AddressesObject (pathFrom : List Char → List Char) (keyPrefix : Option (List Char))
    (returned : ObjectMetadata) : Prop :=
  S3Storage.pathToKey pathFrom keyPrefix returned.path = returned.path

/-- What is relied on of `Path::from`: it reads nothing of a text but its segments, and makes
one segment of each. -/
structure ReadsSegments (pathFrom : List Char → List Char) : Prop where
  same : ∀ text other, segments text = segments other → pathFrom text = pathFrom other
  count : ∀ text, (segments (pathFrom text)).length = (segments text).length

/-! ### Texts of paths -/

section
variable {cwd : List FileName} {root full init : List PathComponent} {text path : List Char}
variable {names : List PathComponent}

theorem splitOn_joined (some_ : names ≠ []) (valid : ∀ c ∈ names, ∃ inner, c = normal inner ∧ ValidName inner) :
    (List.intercalate ['/'] (names.map componentText)).splitOn '/' = names.map componentText := by
  apply List.splitOn_intercalate
  · intro piece member
    obtain ⟨c, inside, rfl⟩ := List.mem_map.mp member
    obtain ⟨inner, rfl, named⟩ := valid c inside
    exact named.2.1
  · simpa using some_

theorem parts_joined (valid : ∀ c ∈ names, ∃ inner, c = normal inner ∧ ValidName inner) :
    parts (List.intercalate ['/'] (names.map componentText)) = names := by
  by_cases some_ : names = []
  · rw [some_]
    rfl
  · unfold parts
    rw [splitOn_joined some_ valid, List.filterMap_map]
    conv_rhs => rw [← List.filterMap_some (l := names)]
    apply List.filterMap_congr
    intro c member
    obtain ⟨inner, rfl, named⟩ := valid c member
    simp [componentText, ofSegment, named.1, named.2.2.1, named.2.2.2]

theorem components_joined (valid : ∀ c ∈ names, ∃ inner, c = normal inner ∧ ValidName inner) :
    components (List.intercalate ['/'] (names.map componentText)) = names := by
  have joined := parts_joined valid
  cases names with
  | nil => rfl
  | cons first rest =>
    have split := splitOn_joined (List.cons_ne_nil first rest) valid
    obtain ⟨inner, rfl, named⟩ := valid first List.mem_cons_self
    have relative : (List.intercalate ['/'] ((normal inner :: rest).map componentText)).head? ≠
        some '/' := by
      intro slash
      obtain ⟨tail, whole⟩ := List.head?_eq_some_iff.mp slash
      rw [whole, splitOn_slash, List.map_cons] at split
      exact named.1 (List.cons.inj split).1.symm
    have dot : ¬((List.intercalate ['/'] ((normal inner :: rest).map componentText)).splitOn '/').head? =
        some ['.'] := by
      rw [split]
      simpa [componentText] using named.2.2.1
    unfold components
    rw [if_neg relative, if_neg dot, joined]

/-- The text of a resolved path is read as that path. -/
theorem components_pathText (under : Under (components text) init) :
    components (pathText (normalForm (components text) ++ init)) =
      normalForm (components text) ++ init := by
  have tail := under.path_rooted (components_rooted text)
  have named {c : PathComponent} (member : c ∈ normalForm (components text) ++ init) (other : c ≠ rootDir) :
      ∃ inner, c = normal inner ∧ ValidName inner := by
    rcases List.mem_append.mp member with inside | inside
    · have listed := (normalForm_sublist _).subset inside
      cases c with
      | rootDir => exact absurd rfl other
      | curDir => exact absurd member under.curDir_not_mem
      | parentDir => exact absurd member under.parentDir_not_mem
      | normal inner => exact ⟨inner, rfl, validName_of_mem listed⟩
    · exact under.names c inside
  cases whole : normalForm (components text) ++ init with
  | nil => rfl
  | cons first rest =>
    rw [whole] at tail named
    have rest_named : ∀ c ∈ rest, ∃ inner, c = normal inner ∧ ValidName inner := by
      intro c member
      apply named (List.mem_cons_of_mem _ member)
      rintro rfl
      exact tail member
    by_cases root : first = rootDir
    · rw [root, pathText, components_slash, parts_joined rest_named]
    · have all : ∀ c ∈ first :: rest, ∃ inner, c = normal inner ∧ ValidName inner := by
        intro c member
        rcases List.mem_cons.mp member with rfl | later
        · exact named member root
        · exact rest_named c later
      have plain : pathText (first :: rest) =
          List.intercalate ['/'] ((first :: rest).map componentText) := by
        cases first with
        | rootDir => exact absurd rfl root
        | curDir => rfl
        | parentDir => rfl
        | normal inner => rfl
      rw [plain, components_joined all]

/-! ### Local storages -/

/-- A path below the root is resolved to itself exactly if the root is absolute. -/
theorem addresses_iff (under : Under (components text) init) (cwd : List FileName)
    {returned : ObjectMetadata} (named : returned.path = pathText (normalForm (components text) ++ init)) :
    AddressesFile cwd (components text) returned ↔ Absolute (components text) := by
  have again := under.resolved_again (components_rooted text)
  unfold AddressesFile fullPath
  rw [named, components_pathText under]
  unfold LocalStorage.fullPathOf at again
  rw [again]
  by_cases absolute : Absolute (components text)
  · rw [if_pos absolute]
    exact iff_of_true rfl absolute
  · rw [if_neg absolute]
    refine iff_of_false (fun same => ?_) absolute
    have longer := place_doubled under absolute cwd
    rw [Except.ok.inj same] at longer
    exact absurd longer (Nat.lt_irrefl _)

theorem under_entry (under : Under root init) (name : FileName) :
    Under root (init ++ [normal name.val]) := by
  refine ⟨under.direct, fun c member => ?_⟩
  rcases List.mem_append.mp member with inside | inside
  · exact under.names c inside
  · exact ⟨name.val, List.mem_singleton.mp inside, name.property⟩

theorem metadata_addresses_iff {stats : Stats} {fs : FileSystem} {returned : ObjectMetadata}
    (found : LocalStorage.metadata cwd (components text) stats path fs = .ok returned) :
    AddressesFile cwd (components text) returned ↔ Absolute (components text) := by
  unfold LocalStorage.metadata at found
  cases resolved : fullPath (components text) path with
  | error error =>
    rw [resolved] at found
    cases found
  | ok full =>
    obtain ⟨init, rfl, under⟩ := under_of_resolved resolved
    rw [resolved] at found
    dsimp only at found
    cases held : fs.lookup (place cwd (normalForm (components text) ++ init)) with
    | none =>
      rw [held] at found
      cases found
    | some node =>
      rw [held] at found
      obtain rfl := Except.ok.inj found
      exact addresses_iff under cwd rfl

/-- Whatever is listed is a path below the root. -/
theorem listed_under {stats : Stats} {fs : FileSystem} {results : List ObjectMetadata}
    {returned : ObjectMetadata}
    (listed : LocalStorage.list cwd (components text) stats path fs = .ok results)
    (member : returned ∈ results) :
    ∃ init, Under (components text) init ∧
      returned.path = pathText (normalForm (components text) ++ init) := by
  unfold LocalStorage.list at listed
  cases resolved : fullPath (components text) path with
  | error error =>
    rw [resolved] at listed
    cases listed
  | ok full =>
    obtain ⟨init, rfl, under⟩ := under_of_resolved resolved
    rw [resolved] at listed
    dsimp only at listed
    cases held : fs.lookup (place cwd (normalForm (components text) ++ init)) with
    | none =>
      rw [held] at listed
      obtain rfl := Except.ok.inj listed
      cases member
    | some node =>
      rw [held] at listed
      cases node with
      | file bytes =>
        obtain rfl := Except.ok.inj listed
        obtain rfl := List.mem_singleton.mp member
        exact ⟨init, under, rfl⟩
      | dir =>
        obtain rfl := Except.ok.inj listed
        obtain ⟨name, _, described⟩ := List.mem_filterMap.mp member
        obtain ⟨node, _, rfl⟩ := Option.map_eq_some_iff.mp described
        refine ⟨_, under_entry under name, ?_⟩
        rw [← List.append_assoc]
        rfl

theorem list_addresses_iff {stats : Stats} {fs : FileSystem} {results : List ObjectMetadata}
    (listed : LocalStorage.list cwd (components text) stats path fs = .ok results) :
    (∀ returned ∈ results, AddressesFile cwd (components text) returned) ↔
      Absolute (components text) ∨ results = [] := by
  constructor
  · intro all
    rcases List.eq_nil_or_concat results with empty | ⟨start, last, rfl⟩
    · exact .inr empty
    · have member : last ∈ start.concat last := by simp
      obtain ⟨init, under, named⟩ := listed_under listed member
      exact .inl ((addresses_iff under cwd named).mp (all last member))
  · rintro (absolute | rfl) returned member
    · obtain ⟨init, under, named⟩ := listed_under listed member
      exact (addresses_iff under cwd named).mpr absolute
    · cases member

end

/-! ### S3 -/

section
variable {pathFrom : List Char → List Char} {keyPrefix : Option (List Char)}

theorem segments_append_slash (start rest : List Char) :
    segments (start ++ '/' :: rest) = segments start ++ segments rest := by
  rw [segments, List.splitOn_append_cons_self, List.filter_append]
  rfl

theorem segments_trimmed (text : List Char) :
    segments (text.rdropWhile (· = '/')) = segments text := by
  induction text using List.reverseRecOn with
  | nil => rfl
  | append_singleton text c ih =>
    by_cases slash : c = '/'
    · rw [slash, List.rdropWhile_concat_pos _ _ _ (by simp), ih, segments_append_slash]
      exact (List.append_nil _).symm
    · rw [List.rdropWhile_concat_neg _ _ _ (by simpa using slash)]

/-- A returned key is made to itself exactly if there is no key prefix and `Path::from` leaves it. -/
theorem object_addresses_iff (reads : ReadsSegments pathFrom) (returned : ObjectMetadata) :
    AddressesObject pathFrom keyPrefix returned ↔
      segments (keyPrefix.getD []) = [] ∧ pathFrom returned.path = returned.path := by
  unfold AddressesObject S3Storage.pathToKey S3Storage.fullKey
  cases keyPrefix with
  | none => exact (and_iff_right rfl).symm
  | some text =>
    dsimp only
    rw [Option.getD_some]
    have cut := segments_append_slash (text.rdropWhile (· = '/')) returned.path
    rw [segments_trimmed] at cut
    by_cases nothing : segments text = []
    · rw [nothing, List.nil_append] at cut
      rw [reads.same _ _ cut]
      exact (and_iff_right nothing).symm
    · refine iff_of_false (fun itself => nothing ?_) (fun both => nothing both.1)
      have count := reads.count (text.rdropWhile (· = '/') ++ '/' :: returned.path)
      rw [itself, cut, List.length_append] at count
      apply List.eq_nil_of_length_eq_zero
      omega

end

/-! ### All of it -/

/-- Writing and copying keep their promises exactly below an absolute root, or where no directory is
missing; a file copied to itself must be empty. A returned path is resolved to what it names exactly below
an absolute root, and a returned key without a key prefix that `Path::from` leaves. -/
theorem storages_exact_iff {pathFrom : List Char → List Char} (reads : ReadsSegments pathFrom) :
    (∀ cwd text path full fs, fullPath (components text) path = .ok full →
        full ≠ normalForm (components text) → Clear fs (place cwd full) →
        (∀ bytes, WriterWorks cwd (components text) path (place cwd full) bytes fs ↔
          NothingMissing cwd (components text) full fs) ∧
        ∀ source sourcePath bytes, fullPath (components text) source = .ok sourcePath →
          fs.lookup (place cwd sourcePath) = some (.file bytes) →
          (CopyWorks cwd (components text) source path (place cwd full) bytes fs ↔
            NothingMissing cwd (components text) full fs ∧
              (place cwd sourcePath = place cwd full → bytes = []))) ∧
      (∀ cwd text stats path fs,
        (∀ results, LocalStorage.list cwd (components text) stats path fs = .ok results →
          ((∀ returned ∈ results, AddressesFile cwd (components text) returned) ↔
            Absolute (components text) ∨ results = [])) ∧
        ∀ returned, LocalStorage.metadata cwd (components text) stats path fs = .ok returned →
          (AddressesFile cwd (components text) returned ↔ Absolute (components text))) ∧
      ∀ keyPrefix store path,
        (∀ results, S3Storage.list pathFrom keyPrefix store path = .ok results →
          ∀ returned ∈ results, AddressesObject pathFrom keyPrefix returned ↔
            segments (keyPrefix.getD []) = [] ∧ pathFrom returned.path = returned.path) ∧
        ∀ returned, S3Storage.metadata pathFrom keyPrefix store path = .ok returned →
          (AddressesObject pathFrom keyPrefix returned ↔
            segments (keyPrefix.getD []) = [] ∧ pathFrom returned.path = returned.path) := by
  refine ⟨fun cwd text path full fs resolved other clear => ⟨fun bytes => ?_, ?_⟩, ?_, ?_⟩
  · exact writer_works_iff resolved other clear bytes
  · exact fun _ _ _ found held => copy_works_iff resolved other clear found held
  · exact fun _ _ _ _ _ => ⟨fun _ listed => list_addresses_iff listed,
      fun _ found => metadata_addresses_iff found⟩
  · exact fun _ _ _ => ⟨fun _ _ returned _ => object_addresses_iff reads returned,
      fun returned _ => object_addresses_iff reads returned⟩

theorem clear_empty {target : List FileName} (some_ : target ≠ []) :
    Clear (FileTree.empty : FileSystem) target := by
  constructor
  · intro place _ content file
    rw [FileTree.lookup_empty] at file
    split at file
    · cases file
    · cases file
  · unfold FileTree.Ready
    rw [FileTree.lookup_empty, if_neg some_]
    simp

/-- `Path::from`, of texts with nothing to encode: empty segments are dropped. -/
def plainPath (text : List Char) : List Char := List.intercalate ['/'] (segments text)

theorem segments_plainPath (text : List Char) : segments (plainPath text) = segments text := by
  by_cases some_ : segments text = []
  · rw [plainPath, some_]
    rfl
  · have slash : ∀ piece ∈ segments text, '/' ∉ piece := fun piece member =>
      free_of_mem_splitOn (List.mem_filter.mp member).1
    rw [plainPath, segments, List.splitOn_intercalate '/' slash some_, List.filter_eq_self]
    exact fun piece member => (List.mem_filter.mp member).2

theorem plainPath_reads : ReadsSegments plainPath where
  same := by
    intro text other same
    rw [plainPath, plainPath, same]
  count := by
    intro text
    rw [segments_plainPath]

/-- A store with one object. -/
def oneObject : ObjectStore where
  get := fun _ => .ok [1]
  head := fun key => .ok ⟨key, 1, 0⟩
  listWithDelimiter := fun _ => .ok ([], [])

/-- A nested file below an absolute root, and a plain key. -/
theorem absolute_root_written :
    WriterWorks [] (components "/data".toList) "a/b.txt".toList
        (place [] (components "/data/a/b.txt".toList)) [1] FileTree.empty ∧
      AddressesObject plainPath none ⟨"k".toList, 1, some 0, none, false⟩ := by
  have resolved : fullPath (components "/data".toList) "a/b.txt".toList =
      .ok (components "/data/a/b.txt".toList) := by decide
  have other : components "/data/a/b.txt".toList ≠ normalForm (components "/data".toList) := by decide
  have some_ : place [] (components "/data/a/b.txt".toList) ≠ [] := by decide
  have clear := clear_empty some_
  constructor
  · rw [((storages_exact_iff plainPath_reads).1 _ _ _ _ _ resolved other clear).1]
    exact .inl rfl
  · have found : S3Storage.metadata plainPath none oneObject "k".toList =
        .ok ⟨"k".toList, 1, some 0, none, false⟩ := by decide
    apply (((storages_exact_iff plainPath_reads).2.2 none oneObject "k".toList).2 _ found).mpr
    decide

/-- Below a relative root the directory is made elsewhere, and the file is not created. -/
theorem relative_root_not_written :
    ¬∀ cwd text path full fs bytes, fullPath (components text) path = .ok full →
      full ≠ normalForm (components text) → Clear fs (place cwd full) →
        WriterWorks cwd (components text) path (place cwd full) bytes fs := by
  intro works
  have resolved : fullPath (components "data".toList) "a/b.txt".toList =
      .ok (components "data/a/b.txt".toList) := by decide
  have other : components "data/a/b.txt".toList ≠ normalForm (components "data".toList) := by decide
  obtain ⟨handle, opened, ran, _⟩ := works [] "data".toList "a/b.txt".toList _ FileTree.empty [1]
    resolved other (clear_empty (by decide))
  have refused : (LocalStorage.writer [] (components "data".toList) "a/b.txt".toList
      (FileTree.empty : FileSystem)).1 = .error (.io .notFound) := by decide
  rw [ran] at refused
  cases refused

end Roboflow.Storage
