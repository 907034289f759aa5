import Roboflow.Storage.UrlPrinting
import Roboflow.Storage.ListedPaths

/-! How `sources/s3_prefix.rs` names the files under a prefix. A storage lists objects by their whole keys,
and a file's URL is put together from the URL of the prefix and that key, so that the prefix stands in it
twice. -/
namespace Roboflow.Dataset
open Storage
open Batch (SourceUrl beforeQuery beforeQuery_eq_self_iff fromStr_s3 splitQuery_path trimEnd)

/-! ### Listing -/

/-- `SUPPORTED_EXTENSIONS`. -/
def supportedExtensions : List (List Char) := [".mcap".toList, ".bag".toList, ".rrd".toList]

/-- `is_supported_file`. Only ASCII letters are made small: no other character becomes a letter of an
extension. -/
def isSupportedFile (path : List Char) : Bool :=
  supportedExtensions.any fun extension => extension.isSuffixOf (path.map Char.toLower)

/-- `SourceError`, as the listing raises it. -/
inductive PrefixError where
  | invalidConfig (message : List Char)
  /-- `Failed to list prefix {}: {}`. -/
  | storage (prefixPath : List Char) (cause : OperationError)

/-- `extract_prefix_path_from_url`. -/
def extractPrefixPath (url : List Char) : Except PrefixError (List Char) :=
  match (url.dropPrefix? "s3://".toList).or (url.dropPrefix? "oss://".toList) with
  | none => .error (.invalidConfig ("Invalid URL scheme: ".toList ++ url))
  | some withoutScheme =>
    match splitAt '/' withoutScheme with
    | none => .error (.invalidConfig ("No path in URL: ".toList ++ url))
    | some (_, path) => .ok path

/-- The URL that is put together for a listed path. -/
def fileUrl (prefixUrl path : List Char) : List Char :=
  prefixUrl.rdropWhile (· = '/') ++ '/' :: path.dropWhile (· = '/')

/-- The objects that are read: no directories, and files with a supported extension. -/
def supportedObjects (objects : List ObjectMetadata) : List ObjectMetadata :=
  objects.filter fun object => !object.isDir && isSupportedFile object.path

/-- `list_files`. -/
def listFiles (list : List Char → Except OperationError (List ObjectMetadata)) (prefixUrl : List Char) :
    Except PrefixError (List (List Char)) := do
  let prefixPath ← extractPrefixPath prefixUrl
  match list prefixPath with
  | .error cause => .error (.storage prefixPath cause)
  | .ok objects =>
    return ((supportedObjects objects).map fun object => fileUrl prefixUrl object.path).mergeSort
      fun url url' => decide (url ≤ url')

/-! ### What is promised -/

/-- A bucket's name, as a URL can hold it. -/
structure Bucket where
  name : List Char
  some_ : name ≠ []
  slashFree : '/' ∉ name
  queryFree : '?' ∉ name

/-- The URL of a prefix: the bucket, and what follows it behind a slash, if anything does. -/
def prefixUrl (bucket : Bucket) : Option (List Char) → List Char
  | none => "s3://".toList ++ bucket.name
  | some path => "s3://".toList ++ (bucket.name ++ '/' :: path)

/-- A URL is read as that of an object. -/
def NamesObject (url : List Char) (bucket : Bucket) (key : List Char) : Prop :=
  ∃ endpoint region, StorageUrl.fromStr url = .ok (.s3 bucket.name key endpoint region)

/-- The supported objects are listed once each, in order, and every one by a URL that names it. -/
def GivesOwnUrls (list : List Char → Except OperationError (List ObjectMetadata)) (bucket : Bucket)
    (path : Option (List Char)) (objects : List ObjectMetadata) : Prop :=
  ∃ files, listFiles list (prefixUrl bucket path) = .ok files ∧ files.Pairwise (· ≤ ·) ∧
    files.Perm ((supportedObjects objects).map fun object => fileUrl (prefixUrl bucket path) object.path) ∧
    ∀ object ∈ supportedObjects objects,
      NamesObject (fileUrl (prefixUrl bucket path) object.path) bucket object.path

/-- The path of a prefix without the slashes at its end. -/
def trimmedPath (path : List Char) : List Char := path.rdropWhile (· = '/')

/-- The prefix names nothing and the key stands in a URL as it is, or the prefix has a question mark, so
that the key is cut off, and what stands before it happens to be that key. -/
def OwnKey (path key : List Char) : Prop :=
  trimmedPath path = [] ∧ key.head? ≠ some '/' ∧ '?' ∉ key ∨
    '?' ∈ trimmedPath path ∧ key = beforeQuery (trimmedPath path)

/-- A slash follows the bucket, and every supported key is found again. -/
def HasOwnKeys (path : Option (List Char)) (objects : List ObjectMetadata) : Prop :=
  ∃ text, path = some text ∧ ∀ object ∈ supportedObjects objects, OwnKey text object.path

/-! ### The text of a file's URL -/

section
variable {α : Type} {path key : List Char}

theorem rdropWhile_append (p : α → Bool) (start rest : List α) :
    (start ++ rest).rdropWhile p =
      if rest.rdropWhile p = [] then start.rdropWhile p else start ++ rest.rdropWhile p := by
  unfold List.rdropWhile
  rw [List.reverse_append, List.dropWhile_append]
  by_cases nothing : rest.reverse.dropWhile p = []
  · simp [nothing]
  · simp [nothing]

/-- What follows the bucket and its slash in a file's URL. -/
def objectPath (path key : List Char) : List Char :=
  if trimmedPath path = [] then key.dropWhile (· = '/')
  else trimmedPath path ++ '/' :: key.dropWhile (· = '/')

theorem fileUrl_text (bucket : Bucket) (path key : List Char) :
    fileUrl (prefixUrl bucket (some path)) key =
      (SourceUrl.s3 (bucket.name ++ '/' :: objectPath path key)).text := by
  have untrimmed (scheme : List Char) : (scheme ++ bucket.name).rdropWhile (· = '/') =
      scheme ++ bucket.name := by
    rw [List.rdropWhile_eq_self_iff]
    intro some_ slash
    rw [List.getLast_append_of_ne_nil some_ bucket.some_] at slash
    have last := List.getLast_mem bucket.some_
    rw [of_decide_eq_true slash] at last
    exact bucket.slashFree last
  have slash : ['/'].rdropWhile (· = '/') = [] := by rfl
  have whole : prefixUrl bucket (some path) = ("s3://".toList ++ bucket.name) ++ (['/'] ++ path) :=
    (List.append_assoc _ _ _).symm
  unfold fileUrl objectPath trimmedPath SourceUrl.text
  rw [whole, rdropWhile_append, rdropWhile_append, slash, untrimmed]
  by_cases nothing : path.rdropWhile (· = '/') = []
  · rw [if_pos nothing, if_pos nothing, if_pos rfl, List.append_assoc]
  · rw [if_neg nothing, if_neg nothing, if_neg (List.append_ne_nil_of_right_ne_nil _ nothing)]
    simp only [List.append_assoc, List.cons_append, List.nil_append]

/-! ### Extensions -/

/-- A supported path ends in a letter. -/
theorem supported_last (supported : isSupportedFile path = true) :
    ∃ start last, path = start ++ [last] ∧ last.toLower ∈ ['p', 'g', 'd'] := by
  obtain ⟨extension, listed, suffix⟩ := List.any_eq_true.mp supported
  obtain ⟨before, whole⟩ := List.isSuffixOf_iff_suffix.mp suffix
  obtain ⟨start, last, ends, letter⟩ : ∃ start last, extension = start ++ [last] ∧ last ∈ ['p', 'g', 'd'] := by
    rcases List.mem_cons.mp listed with rfl | listed
    · exact ⟨['.', 'm', 'c', 'a'], 'p', rfl, by simp⟩
    · rcases List.mem_cons.mp listed with rfl | listed
      · exact ⟨['.', 'b', 'a'], 'g', rfl, by simp⟩
      · obtain rfl := List.mem_singleton.mp listed
        exact ⟨['.', 'r', 'r'], 'd', rfl, by simp⟩
  rw [ends, ← List.append_assoc] at whole
  rcases List.eq_nil_or_concat path with rfl | ⟨start', last', rfl⟩
  · exact absurd whole (by simp)
  · rw [List.concat_eq_append, List.map_append, List.map_singleton] at whole
    have same := (List.append_inj' whole rfl).2
    refine ⟨start', last', List.concat_eq_append, ?_⟩
    rw [← List.singleton_inj.mp same]
    exact letter

theorem blank_not_letter {c : Char} (blank : isWhiteSpace c = true) : c.toLower ∉ ['p', 'g', 'd'] := by
  intro letter
  unfold Char.toLower at letter
  split at letter
  · rename_i upper
    have low : 65 ≤ c.toNat := UInt32.le_iff_toNat_le.mp upper.1
    have high : c.toNat ≤ 90 := UInt32.le_iff_toNat_le.mp upper.2
    simp only [isWhiteSpace, Bool.or_eq_true, Bool.and_eq_true, decide_eq_true_eq] at blank
    omega
  · rcases List.mem_cons.mp letter with rfl | letter
    · exact absurd blank (by decide)
    · rcases List.mem_cons.mp letter with rfl | letter
      · exact absurd blank (by decide)
      · obtain rfl := List.mem_singleton.mp letter
        exact absurd blank (by decide)

/-- The URL of a supported file has no blank at its end, nor does a slash end it. -/
theorem objectPath_last (supported : isSupportedFile key = true) (path : List Char) :
    ∃ start last, objectPath path key = start ++ [last] ∧ isWhiteSpace last = false := by
  obtain ⟨start, last, rfl, letter⟩ := supported_last supported
  have visible : last ≠ '/' ∧ isWhiteSpace last = false := by
    constructor
    · rintro rfl
      exact absurd letter (by decide)
    · cases blank : isWhiteSpace last with
      | false => rfl
      | true => exact absurd letter (blank_not_letter blank)
  have kept : (start ++ [last]).dropWhile (· = '/') = start.dropWhile (· = '/') ++ [last] := by
    rw [List.dropWhile_append]
    by_cases nothing : start.dropWhile (· = '/') = []
    · simp [nothing, visible.1]
    · simp [nothing]
  unfold objectPath
  rw [kept]
  by_cases nothing : trimmedPath path = []
  · rw [if_pos nothing]
    exact ⟨_, last, rfl, visible.2⟩
  · rw [if_neg nothing]
    refine ⟨trimmedPath path ++ '/' :: start.dropWhile (· = '/'), last, ?_, visible.2⟩
    rw [List.append_assoc, List.cons_append]

theorem trimEnd_fileUrl (bucket : Bucket) (supported : isSupportedFile key = true) (path : List Char) :
    trimEnd (bucket.name ++ '/' :: objectPath path key) = bucket.name ++ '/' :: objectPath path key := by
  obtain ⟨start, last, ends, visible⟩ := objectPath_last supported path
  rw [trimEnd_eq_self_iff, ends, ← List.cons_append, ← List.append_assoc]
  intro c found
  rw [List.getLast?_concat] at found
  obtain rfl := Option.some.inj found
  exact visible

/-! ### Reading a file's URL -/

theorem beforeQuery_append (path rest : List Char) :
    beforeQuery (path ++ rest) = if '?' ∈ path then beforeQuery path else path ++ beforeQuery rest := by
  unfold beforeQuery
  by_cases marked : '?' ∈ path
  · have stops : ¬∀ c ∈ path, decide (c ≠ '?') = true := fun all => absurd (all '?' marked) (by decide)
    rw [if_pos marked, List.takeWhile_append, if_neg]
    intro whole
    apply stops
    exact List.takeWhile_eq_self_iff.mp ((List.takeWhile_prefix _).eq_of_length whole)
  · have passes : ∀ c ∈ path, decide (c ≠ '?') = true := by
      intro c member
      rw [decide_eq_true_eq]
      rintro rfl
      exact marked member
    rw [if_neg marked, List.takeWhile_append_of_pos passes]

/-- An object's URL is read with what stands before its query as the key. -/
theorem parseS3Url_bucket (bucket : Bucket) (rest : List Char) :
    ∃ endpoint region, StorageUrl.parseS3Url (bucket.name ++ '/' :: rest) =
      .ok (.s3 bucket.name (beforeQuery rest) endpoint region) := by
  have slash : beforeQuery ('/' :: rest) = '/' :: beforeQuery rest := List.takeWhile_cons_of_pos rfl
  have cut : beforeQuery (bucket.name ++ '/' :: rest) = bucket.name ++ '/' :: beforeQuery rest := by
    rw [beforeQuery_append, if_neg bucket.queryFree, slash]
  unfold StorageUrl.parseS3Url
  dsimp only
  rw [splitQuery_path, cut, StorageUrl.splitKey, splitAt_append bucket.slashFree]
  dsimp only
  rw [if_neg bucket.some_]
  exact ⟨_, _, rfl⟩

theorem namesObject_iff (bucket : Bucket) (supported : isSupportedFile key = true) (path : List Char) :
    NamesObject (fileUrl (prefixUrl bucket (some path)) key) bucket key ↔
      beforeQuery (objectPath path key) = key := by
  obtain ⟨endpoint, region, parsed⟩ := parseS3Url_bucket bucket (objectPath path key)
  unfold NamesObject
  rw [fileUrl_text, fromStr_s3, trimEnd_fileUrl bucket supported, parsed]
  constructor
  · rintro ⟨endpoint', region', same⟩
    injection same with same
    injection same with _ same
  · intro same
    rw [same]
    exact ⟨endpoint, region, rfl⟩

/-! ### Which keys are found again -/

theorem beforeQuery_free (text : List Char) : '?' ∉ beforeQuery text := by
  intro marked
  exact absurd (List.mem_takeWhile_imp marked) (by decide)

/-- Under no path a key is found again that has no slash before it and no query. -/
theorem bare_key_iff (key : List Char) :
    beforeQuery (key.dropWhile (· = '/')) = key ↔ key.head? ≠ some '/' ∧ '?' ∉ key := by
  have shorter : (beforeQuery (key.dropWhile (· = '/'))).length ≤ (key.dropWhile (· = '/')).length :=
    (List.takeWhile_prefix _).length_le
  constructor
  · intro same
    rw [same] at shorter
    have whole := (List.dropWhile_suffix (· = '/')).eq_of_length_le shorter
    rw [whole] at same
    refine ⟨?_, (beforeQuery_eq_self_iff key).mp same⟩
    intro slash
    obtain ⟨rest, rfl⟩ := List.head?_eq_some_iff.mp slash
    rw [List.dropWhile_cons_of_pos (by simp)] at whole
    have short := (List.dropWhile_suffix (l := rest) (· = '/')).length_le
    rw [whole, List.length_cons] at short
    omega
  · rintro ⟨head, free⟩
    have whole : key.dropWhile (· = '/') = key := by
      cases key with
      | nil => rfl
      | cons c rest =>
        apply List.dropWhile_cons_of_neg
        simpa using head
    rw [whole]
    exact (beforeQuery_eq_self_iff key).mpr free

/-- Under a path without a query no key is found again: the path is put before it once more. -/
theorem doubled_key (some_ : trimmedPath path ≠ []) (free : '?' ∉ trimmedPath path) :
    trimmedPath path ++ '/' :: beforeQuery (key.dropWhile (· = '/')) ≠ key := by
  intro same
  have key_free : '?' ∉ key := by
    rw [← same]
    have tail := beforeQuery_free (key.dropWhile (· = '/'))
    simp [free, tail]
  have tail_free : '?' ∉ key.dropWhile (· = '/') := fun marked =>
    key_free ((List.dropWhile_suffix _).subset marked)
  rw [(beforeQuery_eq_self_iff _).mpr tail_free] at same
  -- The slashes before the key are as long as the path and its slash, so the path is all slashes.
  have cut := List.takeWhile_append_dropWhile (p := (· = '/')) (l := key)
  have slashes : trimmedPath path ++ ['/'] = key.takeWhile (· = '/') := by
    have joined : (trimmedPath path ++ ['/']) ++ key.dropWhile (· = '/') =
        key.takeWhile (· = '/') ++ key.dropWhile (· = '/') := by
      rw [cut, List.append_assoc]
      exact same
    exact List.append_cancel_right joined
  have last := List.getLast_mem some_
  have slash : (trimmedPath path).getLast some_ ∈ key.takeWhile (· = '/') := by
    rw [← slashes]
    exact List.mem_append_left _ last
  have equal := List.mem_takeWhile_imp slash
  have other := List.rdropWhile_last_not (· = '/') path some_
  exact other equal

theorem ownKey_iff (path key : List Char) : beforeQuery (objectPath path key) = key ↔ OwnKey path key := by
  unfold objectPath OwnKey
  by_cases nothing : trimmedPath path = []
  · rw [if_pos nothing, bare_key_iff, nothing]
    simp
  · rw [if_neg nothing, beforeQuery_append]
    by_cases marked : '?' ∈ trimmedPath path
    · rw [if_pos marked]
      simp [nothing, marked, eq_comm]
    · have slash : beforeQuery ('/' :: key.dropWhile (· = '/')) =
          '/' :: beforeQuery (key.dropWhile (· = '/')) := List.takeWhile_cons_of_pos rfl
      rw [if_neg marked, slash]
      refine iff_of_false (doubled_key nothing marked) ?_
      rintro (⟨empty, _⟩ | ⟨mark, _⟩)
      · exact nothing empty
      · exact marked mark

end

/-! ### The listing -/

section
variable {list : List Char → Except OperationError (List ObjectMetadata)} {bucket : Bucket}
variable {objects : List ObjectMetadata}

theorem extractPrefixPath_prefixUrl (bucket : Bucket) (path : List Char) :
    extractPrefixPath (prefixUrl bucket (some path)) = .ok path := by
  have cut : (prefixUrl bucket (some path)).dropPrefix? "s3://".toList =
      some (bucket.name ++ '/' :: path) :=
    List.dropPrefix?_append_of_beq _ (beq_self_eq_true _)
  unfold extractPrefixPath
  rw [cut, Option.some_or]
  dsimp only
  rw [splitAt_append bucket.slashFree]

/-- Without a slash behind the bucket nothing is listed. -/
theorem extractPrefixPath_bare (bucket : Bucket) :
    extractPrefixPath (prefixUrl bucket none) =
      .error (.invalidConfig ("No path in URL: ".toList ++ prefixUrl bucket none)) := by
  have cut : (prefixUrl bucket none).dropPrefix? "s3://".toList = some bucket.name :=
    List.dropPrefix?_append_of_beq _ (beq_self_eq_true _)
  unfold extractPrefixPath
  rw [cut, Option.some_or]
  dsimp only
  rw [splitAt_of_free bucket.slashFree]

/-- A listing is given back in order, and nothing of it is lost. -/
theorem listFiles_ok {path : List Char} (listed : list path = .ok objects) (bucket : Bucket) :
    ∃ files, listFiles list (prefixUrl bucket (some path)) = .ok files ∧ files.Pairwise (· ≤ ·) ∧
      files.Perm ((supportedObjects objects).map fun object =>
        fileUrl (prefixUrl bucket (some path)) object.path) := by
  refine ⟨_, ?_, ?_, List.mergeSort_perm _ fun url url' => decide (url ≤ url')⟩
  · unfold listFiles
    rw [extractPrefixPath_prefixUrl]
    dsimp only [bind, Except.bind]
    rw [listed]
    rfl
  · have sorted : (((supportedObjects objects).map fun object =>
        fileUrl (prefixUrl bucket (some path)) object.path).mergeSort
          fun url url' => decide (url ≤ url')).Pairwise fun url url' => decide (url ≤ url') = true := by
      apply List.pairwise_mergeSort
      · intro a b c below above
        rw [decide_eq_true_eq] at *
        exact le_trans below above
      · intro a b
        rw [Bool.or_eq_true, decide_eq_true_eq, decide_eq_true_eq]
        exact le_total a b
    exact sorted.imp of_decide_eq_true

/-- Every listed file is named by its own URL exactly if a slash follows the bucket and either no path
follows it and no key has a query or a leading slash, or the path has a query and the keys are what stands
before it. -/
theorem own_urls_iff (pathFrom : List Char → List Char) (keyPrefix : Option (List Char)) (store : ObjectStore)
    (bucket : Bucket) (path : Option (List Char)) (objects : List ObjectMetadata)
    (listed : S3Storage.list pathFrom keyPrefix store (path.getD []) = .ok objects) :
    GivesOwnUrls (S3Storage.list pathFrom keyPrefix store) bucket path objects ↔ HasOwnKeys path objects := by
  cases path with
  | none =>
    apply iff_of_false
    · rintro ⟨files, given, _⟩
      unfold listFiles at given
      rw [extractPrefixPath_bare] at given
      cases given
    · rintro ⟨text, other, _⟩
      cases other
  | some text =>
    obtain ⟨files, given, sorted, whole⟩ := listFiles_ok listed bucket
    have supported {object : ObjectMetadata} (member : object ∈ supportedObjects objects) :
        isSupportedFile object.path = true :=
      (Bool.and_eq_true _ _ ▸ (List.mem_filter.mp member).2).2
    constructor
    · rintro ⟨_, _, _, _, named⟩
      refine ⟨text, rfl, ?_⟩
      intro object member
      rw [← ownKey_iff, ← namesObject_iff bucket (supported member)]
      exact named object member
    · rintro ⟨_, same, own⟩
      obtain rfl := Option.some.inj same
      refine ⟨files, given, sorted, whole, ?_⟩
      intro object member
      rw [namesObject_iff bucket (supported member), ownKey_iff]
      exact own object member

/-- A store of one object. -/
def storeOf (location : List Char) : ObjectStore where
  get _ := .error .notFound
  head _ := .error .notFound
  listWithDelimiter _ := .ok ([⟨location, 0, 0⟩], [])

def bucketB : Bucket := ⟨['b'], by simp, by decide, by decide⟩

/-- A file at the root of its bucket is named by its URL. -/
theorem root_file_named :
    GivesOwnUrls (S3Storage.list plainPath none (storeOf "a.mcap".toList)) bucketB (some [])
      [S3Storage.convertMetadata ⟨"a.mcap".toList, 0, 0⟩] := by
  apply (own_urls_iff plainPath none (storeOf "a.mcap".toList) bucketB (some [])
    [S3Storage.convertMetadata ⟨"a.mcap".toList, 0, 0⟩] rfl).mpr
  refine ⟨[], rfl, ?_⟩
  intro object member
  obtain rfl := List.mem_singleton.mp (List.mem_of_mem_filter member)
  exact .inl ⟨rfl, by decide, by decide⟩

/-- Below a prefix the URL has the prefix twice. -/
theorem prefix_in_url_twice : ¬∀ (bucket : Bucket) (path : Option (List Char)) (store : ObjectStore)
    (objects : List ObjectMetadata), S3Storage.list plainPath none store (path.getD []) = .ok objects →
      GivesOwnUrls (S3Storage.list plainPath none store) bucket path objects := by
  intro all
  obtain ⟨_, _, _, _, named⟩ := all bucketB (some ['p']) (storeOf "p/a.mcap".toList) _ rfl
  obtain ⟨endpoint, region, read⟩ := named (S3Storage.convertMetadata ⟨"p/a.mcap".toList, 0, 0⟩) (by decide)
  have doubled : StorageUrl.fromStr (fileUrl (prefixUrl bucketB (some ['p'])) "p/a.mcap".toList) =
      .ok (.s3 ['b'] "p/p/a.mcap".toList none none) := by decide +kernel
  change StorageUrl.fromStr (fileUrl (prefixUrl bucketB (some ['p'])) "p/a.mcap".toList) = _ at read
  rw [doubled] at read
  cases read

end

end Roboflow.Dataset
