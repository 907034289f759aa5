import Roboflow.Storage.StorageUrl
import Roboflow.Batch.BatchStatus
import Roboflow.Batch.WorkQueue

/-! The scanner's `scan_source_url`. Three functions cut the same URL: the scanner at
its slashes, the URL parser with its rules for queries, `localhost` and blanks, and
the factory, which picks a root from the text of a local path. Here is when the
scanner asks the storage for the place that the URL names. -/
namespace Roboflow.Batch
open Library Storage

/-- `path_for_list`: what follows the first slash after the scheme. -/
def pathForList (url : List Char) : List Char :=
  match splitScheme url with
  | some (_, afterProtocol) =>
    match splitAt '/' afterProtocol with
    | some (_, path) => path
    | none => []
  | none => url

/-- An entry of a listing: the metadata, and whether it is a directory. -/
structure Listed where
  metadata : ObjectMetadata
  isDir : Bool

/-- What the storages hold: the answers of `list` and `metadata` at a place. -/
structure Contents where
  list : Address → Except StorageError (List Listed)
  metadata : Address → Except StorageError ObjectMetadata

/-- `scan_source_url`. -/
def scanSourceUrl (config : StorageConfig) (contents : Contents) (url : List Char) :
    Except StorageError (List ObjectMetadata) := do
  let storage ← create config url
  let address ← storage.resolve (pathForList url)
  let listed ← contents.list address
  let files := (listed.filter fun entry => !entry.isDir).map (·.metadata)
  if files ≠ [] then return files
  match contents.metadata address with
  | .ok metadata => return [metadata]
  | .error (.notFound _) => return []
  | .error error => throw error

/-- The source URLs a batch may have: any `s3://` URL, and `file://` URLs of absolute paths,
with or without `localhost`. The path is what follows its leading slash. -/
inductive SourceUrl where
  | s3 (rest : List Char)
  | file (localhost : Bool) (path : List Char)

/-- `localhost` or nothing. -/
def hostText (localhost : Bool) : List Char := if localhost then "localhost".toList else []

def SourceUrl.text : SourceUrl → List Char
  | .s3 rest => "s3://".toList ++ rest
  | .file localhost path => "file://".toList ++ hostText localhost ++ '/' :: path

/-- `str::trim_end`, as `trim` does it to the end of a URL. -/
def trimEnd (text : List Char) : List Char := text.rdropWhile isWhiteSpace

/-- A local path has no `..`. -/
def SourceUrl.Plain : SourceUrl → Prop
  | .s3 _ => True
  | .file _ path => PathComponent.parentDir ∉ UnixPath.parts (trimEnd path)

/-- An S3 URL has nothing after its first slash, or neither a query nor blanks at its end. A
local path has no blanks at its end, and it is the root, or it begins with two slashes and
names something, or it is one name with a dot in the path's text. -/
def SourceUrl.Fits : SourceUrl → Prop
  | .s3 rest => (rest.dropWhile (· ≠ '/')).length ≤ 1 ∨ ('?' ∉ rest ∧ trimEnd rest = rest)
  | .file _ path => trimEnd path = path ∧
      (UnixPath.parts path = [] ∧ '.' ∉ path ∨
        path.head? = some '/' ∧ UnixPath.parts path ≠ [] ∨
        (UnixPath.parts path).length = 1 ∧ '.' ∈ path)

/-! ### Cutting the text -/

theorem rdropWhile_append_last {p : α → Bool} {c : α} (keeps : p c = false) (start rest : List α) :
    (start ++ c :: rest).rdropWhile p = start ++ c :: rest.rdropWhile p := by
  have stops : ¬ p c = true := by simp [keeps]
  induction rest using List.reverseRecOn with
  | nil => rw [List.rdropWhile_nil, List.rdropWhile_concat_neg _ _ _ stops]
  | append_singleton rest x ih =>
    rw [← List.cons_append, ← List.append_assoc, List.rdropWhile_concat, List.rdropWhile_concat]
    split
    · exact ih
    · rw [List.append_assoc, List.cons_append]

/-- The end of a URL is trimmed behind its last slash, if that belongs to its form. -/
theorem trim_url {first : Char} (visible : isWhiteSpace first = false) (scheme rest : List Char) :
    trim (first :: (scheme ++ '/' :: rest)) = first :: (scheme ++ '/' :: trimEnd rest) := by
  have slash : isWhiteSpace '/' = false := by decide
  rw [trim, List.dropWhile_cons_of_neg (by simp [visible]), ← List.cons_append,
    rdropWhile_append_last slash, List.cons_append, trimEnd]

theorem splitScheme_s3 (rest : List Char) :
    splitScheme ("s3://".toList ++ rest) = some ("s3".toList, rest) := by
  simp [splitScheme]

theorem splitScheme_file (rest : List Char) :
    splitScheme ("file://".toList ++ rest) = some ("file".toList, rest) := by
  simp [splitScheme]

theorem trim_s3 (rest : List Char) :
    trim (SourceUrl.s3 rest).text = "s3://".toList ++ trimEnd rest :=
  trim_url (by decide) ['3', ':', '/'] rest

theorem trim_file (localhost : Bool) (path : List Char) :
    trim (SourceUrl.file localhost path).text =
      "file://".toList ++ (hostText localhost ++ '/' :: trimEnd path) :=
  trim_url (by decide) (['i', 'l', 'e', ':', '/', '/'] ++ hostText localhost) path

theorem fromStr_s3 (rest : List Char) :
    StorageUrl.fromStr (SourceUrl.s3 rest).text = StorageUrl.parseS3Url (trimEnd rest) := by
  unfold StorageUrl.fromStr
  rw [trim_s3]
  simp only [splitScheme_s3]
  rw [if_neg (by decide), if_pos trivial]

theorem fromStr_file (localhost : Bool) (path : List Char) :
    StorageUrl.fromStr (SourceUrl.file localhost path).text =
      .ok (.localPath (StorageUrl.filePath (hostText localhost ++ '/' :: trimEnd path))) := by
  unfold StorageUrl.fromStr
  rw [trim_file]
  simp only [splitScheme_file]
  rw [if_pos trivial]

/-! ### S3 -/

/-- What follows the first slash, if any. -/
def afterSlash (text : List Char) : List Char := (text.dropWhile (· ≠ '/')).tail

theorem splitAt_slash (text : List Char) :
    (∃ before, splitAt '/' text = some (before, afterSlash text)) ∨
      splitAt '/' text = none ∧ afterSlash text = [] := by
  unfold splitAt afterSlash
  cases text.dropWhile (· ≠ '/') with
  | nil => exact .inr ⟨rfl, rfl⟩
  | cons slash rest => exact .inl ⟨_, rfl⟩

theorem splitKey_key (path : List Char) : (StorageUrl.splitKey path).2 = afterSlash path := by
  unfold StorageUrl.splitKey
  rcases splitAt_slash path with ⟨before, split⟩ | ⟨split, nothing⟩
  · simp only [split]
  · simp only [split, nothing]

theorem pathForList_s3 (rest : List Char) :
    pathForList (SourceUrl.s3 rest).text = afterSlash rest := by
  have cut : splitScheme (SourceUrl.s3 rest).text = some ("s3".toList, rest) := splitScheme_s3 rest
  unfold pathForList
  simp only [cut]
  rcases splitAt_slash rest with ⟨before, split⟩ | ⟨split, nothing⟩
  · simp only [split]
  · simp only [split, nothing]

/-- The part of an S3 URL before its query. -/
def beforeQuery (rest : List Char) : List Char := rest.takeWhile (· ≠ '?')

theorem splitQuery_path (rest : List Char) : (StorageUrl.splitQuery rest).1 = beforeQuery rest := by
  unfold StorageUrl.splitQuery splitAt beforeQuery
  cases found : rest.dropWhile (· ≠ '?') with
  | nil =>
    have joined := List.takeWhile_append_dropWhile (p := (· ≠ '?')) (l := rest)
    rw [found, List.append_nil] at joined
    exact joined.symm
  | cons mark query => rfl

/-- The key is what follows the first slash before the query. -/
theorem parseS3Url_key {rest bucket key : List Char} {endpoint region : Option (List Char)}
    (parsed : StorageUrl.parseS3Url rest = .ok (.s3 bucket key endpoint region)) :
    key = afterSlash (beforeQuery rest) := by
  unfold StorageUrl.parseS3Url at parsed
  dsimp only at parsed
  split at parsed
  · cases parsed
  · cases parsed
    rw [splitKey_key, splitQuery_path]

/-- Cutting a text short changes what follows its slash, unless nothing does. -/
theorem afterSlash_append_iff (text more : List Char) :
    afterSlash (text ++ more) = afterSlash text ↔
      ((text ++ more).dropWhile (· ≠ '/')).length ≤ 1 ∨ more = [] := by
  unfold afterSlash
  rw [List.dropWhile_append]
  by_cases slash : (text.dropWhile (· ≠ '/')).isEmpty = true
  · rw [if_pos slash, List.isEmpty_iff.mp slash]
    constructor
    · intro nothing
      left
      have short := congrArg List.length nothing
      simp only [List.length_tail, List.tail_nil, List.length_nil] at short
      omega
    · rintro (short | rfl)
      · apply List.eq_nil_of_length_eq_zero
        rw [List.length_tail]
        omega
      · rfl
  · rw [if_neg slash]
    obtain ⟨first, rest, found⟩ := List.exists_cons_of_ne_nil (l := text.dropWhile (· ≠ '/'))
      (by simpa using slash)
    rw [found]
    simp only [List.cons_append, List.tail_cons, List.length_cons, List.length_append,
      List.append_right_eq_self]
    constructor
    · exact Or.inr
    · rintro (short | nothing)
      · apply List.eq_nil_of_length_eq_zero
        omega
      · exact nothing

/-- A text without a query is not cut. -/
theorem beforeQuery_eq_self_iff (text : List Char) : beforeQuery text = text ↔ '?' ∉ text := by
  unfold beforeQuery
  rw [List.takeWhile_eq_self_iff]
  constructor
  · intro all marked
    have kept := all '?' marked
    simp at kept
  · intro free c member
    have other : c ≠ '?' := fun mark => free (mark ▸ member)
    simpa using other

/-- A URL without a query and blanks at its end is not cut at all. -/
theorem beforeQuery_trimEnd_iff (rest : List Char) :
    beforeQuery (trimEnd rest) = rest ↔ '?' ∉ rest ∧ trimEnd rest = rest := by
  have shorter : (beforeQuery (trimEnd rest)).length ≤ (trimEnd rest).length :=
    (List.takeWhile_prefix _).length_le
  have trimmed : trimEnd rest <+: rest := List.rdropWhile_prefix _ _
  constructor
  · intro whole
    have same : trimEnd rest = rest := by
      apply trimmed.eq_of_length_le
      rw [whole] at shorter
      exact shorter
    rw [same] at whole
    exact ⟨(beforeQuery_eq_self_iff rest).mp whole, same⟩
  · rintro ⟨unmarked, same⟩
    rw [same]
    exact (beforeQuery_eq_self_iff rest).mpr unmarked

theorem s3_fits_iff (rest : List Char) :
    afterSlash rest = afterSlash (beforeQuery (trimEnd rest)) ↔ (SourceUrl.s3 rest).Fits := by
  obtain ⟨more, whole⟩ : beforeQuery (trimEnd rest) <+: rest :=
    (List.takeWhile_prefix _).trans (List.rdropWhile_prefix _ _)
  have cut := afterSlash_append_iff (beforeQuery (trimEnd rest)) more
  rw [whole] at cut
  rw [cut, SourceUrl.Fits, ← beforeQuery_trimEnd_iff]
  apply or_congr_right
  constructor
  · rintro rfl
    simpa using whole
  · intro same
    rw [same] at whole
    simpa using whole

/-! ### Local paths -/

section
open UnixPath PathComponent

theorem pathForList_file (localhost : Bool) (path : List Char) :
    pathForList (SourceUrl.file localhost path).text = path := by
  have cut : splitScheme (SourceUrl.file localhost path).text =
      some ("file".toList, hostText localhost ++ '/' :: path) :=
    splitScheme_file (hostText localhost ++ '/' :: path)
  have slash : splitAt '/' (hostText localhost ++ '/' :: path) = some (hostText localhost, path) := by
    cases localhost <;> simp [splitAt, hostText]
  unfold pathForList
  simp only [cut, slash]

/-- `localhost` and a doubled slash do not change the path. -/
theorem filePath_components (localhost : Bool) (path : List Char) :
    components (StorageUrl.filePath (hostText localhost ++ '/' :: path)) = rootDir :: parts path ∧
      ('.' ∈ StorageUrl.filePath (hostText localhost ++ '/' :: path) ↔ '.' ∈ path) := by
  cases localhost with
  | true =>
    have named : StorageUrl.filePath (hostText true ++ '/' :: path) = '/' :: '/' :: path := by
      simp [StorageUrl.filePath, hostText]
    rw [named, components_slash, parts_slash]
    simp
  | false =>
    have named : StorageUrl.filePath (hostText false ++ '/' :: path) = '/' :: path := by
      simp [StorageUrl.filePath, hostText]
    rw [named, components_slash]
    simp

/-- Names are normalized to themselves. -/
theorem normalize_names {names start : List PathComponent} (plain : parentDir ∉ names)
    (noRoot : rootDir ∉ names) (noDot : curDir ∉ names) :
    names.foldlM normalizeStep start = .ok (start ++ names) := by
  induction names generalizing start with
  | nil => simp [pure, Except.pure]
  | cons component names ih =>
    rw [List.mem_cons, not_or] at plain noRoot noDot
    cases component with
    | rootDir => exact absurd rfl noRoot.1
    | curDir => exact absurd rfl noDot.1
    | parentDir => exact absurd rfl plain.1
    | normal name =>
      simp only [List.foldlM_cons, normalizeStep]
      exact (ih plain.2 noRoot.2 noDot.2).trans (by simp)

theorem normalize_below_root {names : List PathComponent} (plain : parentDir ∉ names)
    (noRoot : rootDir ∉ names) (noDot : curDir ∉ names) :
    (rootDir :: names).foldlM normalizeStep [] = .ok (rootDir :: names) := by
  simp only [List.foldlM_cons, normalizeStep]
  exact normalize_names plain noRoot noDot

theorem normalizeRoot_below_root {names : List PathComponent} (noDot : curDir ∉ names) :
    normalizeRoot (rootDir :: names) = rootDir :: names := by
  have kept : (rootDir :: names).filter (· ≠ curDir) = rootDir :: names := by
    rw [List.filter_eq_self]
    intro component member
    have other : component ≠ curDir := by
      rintro rfl
      rcases List.mem_cons.mp member with same | inside
      · cases same
      · exact noDot inside
    simpa using other
  rw [normalizeRoot, kept]
  simp

theorem normalizePath_folded {path root result : List PathComponent}
    (folded : path.foldlM normalizeStep [] = .ok result) :
    normalizePath path root = if normalizeRoot root <+: result then .ok result
      else .error (.permissionDenied "Path traversal detected: access denied".toList) := by
  rw [normalizePath, folded]
  rfl

/-- A path that begins with a slash is looked up as it is, if it lies below the root. -/
theorem fullPath_absolute {up : List PathComponent} {path : List Char} (noDot : curDir ∉ up)
    (plain : parentDir ∉ parts path) (absolute : path.head? = some '/') :
    fullPath (rootDir :: up) path =
      if rootDir :: up <+: rootDir :: parts path then .ok (rootDir :: parts path)
      else .error (.permissionDenied "Path traversal detected: access denied".toList) := by
  have joined : join (rootDir :: up) (components path) = rootDir :: parts path := by
    simp [join, components, absolute]
  have folded := normalize_below_root plain (rootDir_not_mem_parts path) (curDir_not_mem_parts path)
  rw [fullPath, joined, normalizePath_folded folded, normalizeRoot_below_root noDot]

theorem fullPath_relative {up : List PathComponent} {path : List Char} (noDot : curDir ∉ up)
    (noRoot : rootDir ∉ up) (plainUp : parentDir ∉ up) (plain : parentDir ∉ parts path)
    (relative : path.head? ≠ some '/') :
    fullPath (rootDir :: up) path = .ok (rootDir :: (up ++ parts path)) := by
  have joined : join (rootDir :: up) (components path) = rootDir :: (up ++ parts path) :=
    join_parts (by simp) relative
  have below : rootDir :: up <+: rootDir :: (up ++ parts path) :=
    ⟨parts path, by simp⟩
  have folded : (rootDir :: (up ++ parts path)).foldlM normalizeStep [] =
      .ok (rootDir :: (up ++ parts path)) := by
    apply normalize_below_root
    · simp [plainUp, plain]
    · simp [noRoot, rootDir_not_mem_parts]
    · simp [noDot, curDir_not_mem_parts]
  rw [fullPath, joined, normalizePath_folded folded, normalizeRoot_below_root noDot, if_pos below]

/-- The working directory as a root refuses every path. -/
theorem fullPath_dot {path : List Char} (plain : parentDir ∉ parts path) (result : List PathComponent) :
    fullPath [curDir] path ≠ .ok result := by
  have root : normalizeRoot [curDir] = [curDir] := by simp [normalizeRoot]
  have refused : ∀ names, curDir ∉ names → ¬ [curDir] <+: names := by
    rintro names noDot ⟨rest, rfl⟩
    exact noDot (by simp)
  by_cases absolute : path.head? = some '/'
  · have joined : join [curDir] (components path) = rootDir :: parts path := by
      simp [join, components, absolute]
    have folded := normalize_below_root plain (rootDir_not_mem_parts path) (curDir_not_mem_parts path)
    rw [fullPath, joined, normalizePath_folded folded, root,
      if_neg (refused _ (by simp [curDir_not_mem_parts]))]
    rintro ⟨⟩
  · have joined : join [curDir] (components path) = curDir :: parts path :=
      join_parts (by simp) absolute
    have folded : (curDir :: parts path).foldlM normalizeStep [] = .ok (parts path) := by
      simp only [List.foldlM_cons, normalizeStep]
      exact (normalize_names plain (rootDir_not_mem_parts _) (curDir_not_mem_parts _)).trans (by simp)
    rw [fullPath, joined, normalizePath_folded folded, root,
      if_neg (refused _ (curDir_not_mem_parts path))]
    rintro ⟨⟩

/-! The blanks that `from_str` trims and the scanner keeps. -/

theorem trimEnd_blanks (path : List Char) :
    ∃ blanks, path = trimEnd path ++ blanks ∧ '/' ∉ blanks ∧ '.' ∉ blanks := by
  refine ⟨path.rtakeWhile isWhiteSpace, List.rdropWhile_append_rtakeWhile.symm, ?_, ?_⟩
  · intro slash
    exact absurd (List.mem_rtakeWhile_imp slash) (by decide)
  · intro dot
    exact absurd (List.mem_rtakeWhile_imp dot) (by decide)

theorem trimmed_shorter {path : List Char} (blank : trimEnd path ≠ path) :
    ((parts (trimEnd path)).map size).sum < ((parts path).map size).sum := by
  obtain ⟨blanks, whole, slash, dot⟩ := trimEnd_blanks path
  have some : blanks ≠ [] := by
    rintro rfl
    exact blank (by simpa using whole.symm)
  have longer := parts_longer (trimEnd path) slash dot some
  rwa [← whole] at longer

theorem plain_untrimmed {path : List Char} (plain : parentDir ∉ parts (trimEnd path)) :
    parentDir ∉ parts path := by
  obtain ⟨blanks, whole, slash, dot⟩ := trimEnd_blanks path
  by_cases some : blanks = []
  · rw [some, List.append_nil] at whole
    rwa [whole]
  · obtain ⟨start, last, short, long⟩ := parts_append (trimEnd path) slash dot some
    rw [← whole] at long
    rw [short, List.mem_append, not_or] at plain
    simp [long, plain.1]

theorem chooseRoot_file {path text : List Char} (named : components text = rootDir :: parts path)
    (dots : '.' ∈ text ↔ '.' ∈ path) :
    chooseRoot text =
      if '.' ∈ path then
        if parts path = [] then [curDir] else rootDir :: (parts path).dropLast
      else rootDir :: parts path := by
  unfold chooseRoot
  rw [named]
  by_cases dot : '.' ∈ path
  · rw [if_pos (dots.mpr dot), if_pos dot]
    by_cases empty : parts path = []
    · simp [empty, parent]
    · obtain ⟨start, last, split⟩ : ∃ start last, parts path = start ++ [last] :=
        ⟨_, _, (List.dropLast_append_getLast empty).symm⟩
      have notRoot : last ≠ rootDir := by
        rintro rfl
        exact rootDir_not_mem_parts path (by simp [split])
      have cut : parent (rootDir :: parts path) = some (rootDir :: (parts path).dropLast) := by
        rw [split, ← List.cons_append, parent, List.getLast?_concat, List.dropLast_concat,
          List.dropLast_concat]
        cases last with
        | rootDir => exact absurd rfl notRoot
        | _ => rfl
      rw [cut, if_neg empty]
      rfl
  · rw [if_neg (fun inside => dot (dots.mp inside)), if_neg dot]

/-- Below a root that the path itself lies under. -/
theorem fullPath_below_iff {up names : List PathComponent} {path : List Char} (below : up <+: names)
    (noRoot : rootDir ∉ names) (noDot : curDir ∉ names) (plain : parentDir ∉ names)
    (plainPath : parentDir ∉ parts path) :
    fullPath (rootDir :: up) path = .ok (rootDir :: names) ↔
      path.head? = some '/' ∧ parts path = names ∨
        path.head? ≠ some '/' ∧ up ++ parts path = names := by
  have inside : ∀ component, component ∈ up → component ∈ names :=
    fun _ member => below.subset member
  by_cases absolute : path.head? = some '/'
  · rw [fullPath_absolute (fun dot => noDot (inside _ dot)) plainPath absolute]
    constructor
    · intro found
      split at found
      · cases found
        exact .inl ⟨absolute, rfl⟩
      · cases found
    · rintro (⟨-, rfl⟩ | ⟨relative, -⟩)
      · rw [if_pos (by simpa using below)]
      · exact absurd absolute relative
  · rw [fullPath_relative (fun dot => noDot (inside _ dot)) (fun root => noRoot (inside _ root))
      (fun dots => plain (inside _ dots)) plainPath absolute]
    simp [absolute]

/-- The scanner's path is looked up at the parsed path exactly if the URL fits. -/
theorem file_fits_iff {path : List Char} {root : List PathComponent}
    (plain : parentDir ∉ parts (trimEnd path))
    (chosen : root = if '.' ∈ trimEnd path then
        if parts (trimEnd path) = [] then [curDir] else rootDir :: (parts (trimEnd path)).dropLast
      else rootDir :: parts (trimEnd path)) (localhost : Bool) :
    fullPath root path = .ok (rootDir :: parts (trimEnd path)) ↔
      (SourceUrl.file localhost path).Fits := by
  have plainPath := plain_untrimmed plain
  have found : ∀ up, up <+: parts (trimEnd path) →
      (fullPath (rootDir :: up) path = .ok (rootDir :: parts (trimEnd path)) ↔
        path.head? = some '/' ∧ parts path = parts (trimEnd path) ∨
          path.head? ≠ some '/' ∧ up ++ parts path = parts (trimEnd path)) := fun up below =>
    fullPath_below_iff below (rootDir_not_mem_parts _) (curDir_not_mem_parts _) plain plainPath
  by_cases same : trimEnd path = path
  · rw [same] at chosen found ⊢
    simp only [SourceUrl.Fits, same, true_and]
    by_cases dot : '.' ∈ path
    · rw [if_pos dot] at chosen
      by_cases empty : parts path = []
      · rw [if_pos empty] at chosen
        subst chosen
        refine iff_of_false (fullPath_dot plainPath _) ?_
        simp [dot, empty]
      · rw [if_neg empty] at chosen
        have one : (parts path).dropLast ++ parts path = parts path ↔ (parts path).length = 1 := by
          rw [List.append_left_eq_self, ← List.length_eq_zero_iff, List.length_dropLast]
          have := List.length_pos_of_ne_nil empty
          omega
        rw [chosen, found _ (List.dropLast_prefix _), one]
        by_cases absolute : path.head? = some '/' <;> simp [absolute, dot, empty]
    · rw [if_neg dot] at chosen
      rw [chosen, found _ List.prefix_rfl, List.append_left_eq_self]
      by_cases absolute : path.head? = some '/' <;> by_cases empty : parts path = [] <;>
        simp [absolute, dot, empty]
  · refine iff_of_false ?_ (fun fits => same fits.1)
    have short := trimmed_shorter same
    have never : ∀ up, up <+: parts (trimEnd path) →
        fullPath (rootDir :: up) path ≠ .ok (rootDir :: parts (trimEnd path)) := by
      intro up below looked
      rcases (found up below).mp looked with ⟨-, equal⟩ | ⟨-, equal⟩
      · rw [← equal] at short
        omega
      · rw [← equal] at short
        simp only [List.map_append, List.sum_append] at short
        omega
    subst chosen
    split
    · split
      · exact fullPath_dot plainPath _
      · exact never _ (List.dropLast_prefix _)
    · exact never _ List.prefix_rfl

end

/-! ### The two kinds of URL together -/

/-- A batch with such a source passes the check of its sources. -/
theorem source_validates (source : SourceUrl) :
    BatchSpec.validateUrl (String.ofList source.text) = .ok () := by
  unfold BatchSpec.validateUrl
  rw [if_pos]
  simp only [String.toList_ofList, Bool.or_eq_true, List.isPrefixOf_iff_prefix]
  cases source with
  | s3 rest =>
    left
    exact List.prefix_append _ _
  | file localhost path =>
    right
    exact (List.prefix_append _ _).trans (List.prefix_append _ _)

/-- Where the place it asks for is the one that the URL names, the scanner returns what is
listed there, or the file that is there. -/
theorem scanSourceUrl_of_named {config : StorageConfig} {source : SourceUrl} {parsed : StorageUrl}
    {storage : Backend} (created : create config source.text = .ok storage)
    (named : storage.resolve (pathForList source.text) = .ok parsed.address) (contents : Contents)
    {listed : List Listed} (answer : contents.list parsed.address = .ok listed) :
    let files := (listed.filter fun entry => !entry.isDir).map (·.metadata)
    (files ≠ [] → scanSourceUrl config contents source.text = .ok files) ∧
      (files = [] → ∀ metadata, contents.metadata parsed.address = .ok metadata →
        scanSourceUrl config contents source.text = .ok [metadata]) := by
  refine ⟨?_, ?_⟩
  · intro some
    simp only [scanSourceUrl, created, named, answer, bind, Except.bind]
    rw [if_pos some]
    rfl
  · intro none metadata found
    simp only [scanSourceUrl, created, named, answer, bind, Except.bind]
    rw [if_neg (by simpa using none), found]
    rfl

/-- For every S3 URL and every `file://` URL of an absolute path without `..` that is parsed,
and for which a storage is created: the scanner lists the place the URL names exactly if the
URL fits. -/
theorem scanner_lists_named_place_iff (config : StorageConfig) (source : SourceUrl)
    (parsed : StorageUrl) (storage : Backend) (plain : source.Plain)
    (accepted : StorageUrl.fromStr source.text = .ok parsed)
    (created : create config source.text = .ok storage) :
    storage.resolve (pathForList source.text) = .ok parsed.address ↔ source.Fits := by
  have made : createFromUrl config parsed = .ok storage := by
    rw [create, accepted] at created
    exact created
  cases source with
  | s3 rest =>
    rw [fromStr_s3] at accepted
    cases parsed with
    | localPath path =>
      unfold StorageUrl.parseS3Url at accepted
      dsimp only at accepted
      split at accepted <;> cases accepted
    | s3 bucket key endpoint region =>
      obtain ⟨endpoint', region', rfl⟩ : ∃ endpoint' region', storage = .s3 bucket endpoint' region' := by
        unfold createFromUrl at made
        dsimp only at made
        split at made
        · cases made
        · split at made
          · cases made
          · cases valid : validateBucketName bucket with
            | error error =>
              rw [valid] at made
              cases made
            | ok _ =>
              rw [valid] at made
              cases made
              exact ⟨_, _, rfl⟩
      rw [pathForList_s3, ← s3_fits_iff, ← parseS3Url_key accepted]
      simp [Backend.resolve, StorageUrl.address]
  | file localhost path =>
    rw [fromStr_file] at accepted
    cases accepted
    obtain rfl := Except.ok.inj made
    obtain ⟨named, dots⟩ := filePath_components localhost (trimEnd path)
    rw [pathForList_file, ← file_fits_iff plain (chooseRoot_file named dots) localhost]
    simp only [Backend.resolve, StorageUrl.address, named]
    cases fullPath (chooseRoot (StorageUrl.filePath (hostText localhost ++ '/' :: trimEnd path))) path with
    | error error => simp [Except.map]
    | ok result => simp [Except.map]

/-- No credentials. -/
def noCredentials : StorageConfig := ⟨none, none, none, none, none, none⟩

/-- A single file in the root directory is found. -/
theorem root_file_listed :
    (SourceUrl.file false "episode.mcap".toList).Plain ∧
      (Backend.localRoot [.rootDir]).resolve
          (pathForList (SourceUrl.file false "episode.mcap".toList).text) =
        .ok (StorageUrl.localPath "/episode.mcap".toList).address := by
  have plain : (SourceUrl.file false "episode.mcap".toList).Plain := by
    unfold SourceUrl.Plain
    decide
  refine ⟨plain, (scanner_lists_named_place_iff noCredentials _ _ _ plain ?_ ?_).mpr ?_⟩
  · decide
  · decide
  · unfold SourceUrl.Fits
    decide

/-- The directory `/data/in` is looked up at `/data/in/data/in`. -/
theorem directory_listed_twice_below : ¬ ∀ (config : StorageConfig) (source : SourceUrl)
    (parsed : StorageUrl) (storage : Backend), source.Plain →
    StorageUrl.fromStr source.text = .ok parsed → create config source.text = .ok storage →
    storage.resolve (pathForList source.text) = .ok parsed.address := by
  intro named
  have place := named noCredentials (.file false "data/in".toList) (.localPath "/data/in".toList)
    (.localRoot [.rootDir, .normal "data".toList, .normal "in".toList])
    (by unfold SourceUrl.Plain; decide) (by decide) (by decide)
  revert place
  decide

end Roboflow.Batch
