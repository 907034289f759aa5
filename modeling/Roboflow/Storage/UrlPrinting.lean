import Roboflow.Batch.SourceListing

/-! Storage URLs printed and parsed again, `url.rs`. A local path is printed behind `file://`, where the
parser makes every path absolute, and the parser trims what is printed last. -/
namespace Roboflow.Storage
open Batch

/-! ### Printing -/

/-- The query that is printed, with its question mark. -/
def queryText (endpoint region : Option (List Char)) : List Char :=
  match endpoint, region with
  | none, none => []
  | some e, none => '?' :: ("endpoint".toList ++ '=' :: e)
  | none, some r => '?' :: ("region".toList ++ '=' :: r)
  | some e, some r =>
    '?' :: ("endpoint".toList ++ '=' :: (e ++ '&' :: ("region".toList ++ '=' :: r)))

/-- `Display`. -/
def StorageUrl.display : StorageUrl → List Char
  | .localPath path => "file://".toList ++ path
  | .s3 bucket key endpoint region =>
    "s3://".toList ++ (bucket ++ '/' :: (key ++ queryText endpoint region))

/-! ### What is printed back -/

/-- No blank at the end. -/
def Unblank (text : List Char) : Prop := ∀ c ∈ text.getLast?, isWhiteSpace c = false

instance (text : List Char) : Decidable (Unblank text) :=
  decidable_of_iff (text.getLast?.all (!isWhiteSpace ·) = true) (by
    rw [Option.all_eq_true]
    simp [Unblank])

/-- The parameters of a query with their values. -/
def queryParams (query : Option (List Char)) : List (List Char × List Char) :=
  ((query.map (·.splitOn '&')).getD []).filterMap (splitAt '=')

/-- The value of the last parameter of a name. -/
def lastValue (name : List Char) (params : List (List Char × List Char)) : Option (List Char) :=
  (params.reverse.find? fun param => param.1 = name).map Prod.snd

/-- What is printed last of an S3 URL, from what follows the scheme: the region, or else the endpoint,
or else the key. -/
def lastPiece (rest : List Char) : List Char :=
  let params := queryParams (StorageUrl.splitQuery rest).2
  ((lastValue "region".toList params).or (lastValue "endpoint".toList params)).getD
    (StorageUrl.splitKey (StorageUrl.splitQuery rest).1).2

/-- A plain path is absolute, and what is printed last of an S3 URL has no blank at its end. -/
def PrintsBack (text : List Char) : Prop :=
  match splitScheme (trim text) with
  | none => (trim text).head? = some '/'
  | some (scheme, rest) => scheme = "s3".toList → Unblank (lastPiece rest)

instance (text : List Char) : Decidable (PrintsBack text) :=
  match split : splitScheme (trim text) with
  | none => decidable_of_iff ((trim text).head? = some '/') (by rw [PrintsBack, split])
  | some (scheme, rest) =>
    decidable_of_iff (scheme = "s3".toList → Unblank (lastPiece rest)) (by rw [PrintsBack, split])

/-! ### Cutting texts -/

variable {text before after : List Char} {separator : Char}

theorem splitAt_append (free : separator ∉ before) (after : List Char) :
    splitAt separator (before ++ separator :: after) = some (before, after) := by
  have stops : ∀ c ∈ before, decide (c ≠ separator) = true := by
    intro c member
    rw [decide_eq_true_eq]
    rintro rfl
    exact free member
  unfold splitAt
  rw [List.dropWhile_append_of_pos stops, List.takeWhile_append_of_pos stops]
  simp

theorem splitAt_of_free (free : separator ∉ text) : splitAt separator text = none := by
  have all : text.dropWhile (· ≠ separator) = [] := by
    rw [List.dropWhile_eq_nil_iff]
    intro c member
    rw [decide_eq_true_eq]
    rintro rfl
    exact free member
  unfold splitAt
  rw [all]

theorem splitAt_eq_some (split : splitAt separator text = some (before, after)) :
    text = before ++ separator :: after ∧ separator ∉ before := by
  by_cases member : separator ∈ text
  · obtain ⟨start, rest, rfl, free⟩ := List.eq_append_cons_of_mem member
    rw [splitAt_append free] at split
    obtain ⟨rfl, rfl⟩ := Prod.mk.inj (Option.some.inj split)
    exact ⟨rfl, free⟩
  · rw [splitAt_of_free member] at split
    cases split

theorem splitAt_eq_none (split : splitAt separator text = none) : separator ∉ text := by
  intro member
  obtain ⟨start, rest, rfl, first⟩ := List.eq_append_cons_of_mem member
  rw [splitAt_append first] at split
  cases split

theorem splitScheme_eq_some {scheme rest : List Char} (split : splitScheme text = some (scheme, rest)) :
    text = scheme ++ "://".toList ++ rest := by
  induction text generalizing scheme with
  | nil => cases split
  | cons c text ih =>
    unfold splitScheme at split
    split at split
    · rename_i found
      obtain ⟨rfl, rfl⟩ := Prod.mk.inj (Option.some.inj split)
      obtain ⟨rfl, slashes⟩ := found
      have whole := List.take_append_drop 2 text
      rw [slashes] at whole
      rw [← whole]
      simp
    · obtain ⟨⟨inner, later⟩, deeper, same⟩ := Option.map_eq_some_iff.mp split
      obtain ⟨rfl, rfl⟩ := Prod.mk.inj same
      rw [ih deeper]
      simp

/-! ### Blanks at the end -/

theorem trimEnd_eq_self_iff : trimEnd text = text ↔ Unblank text := by
  unfold trimEnd Unblank
  rw [List.rdropWhile_eq_self_iff]
  rcases List.eq_nil_or_concat text with rfl | ⟨start, last, rfl⟩
  · simp
  · simp

theorem Unblank.of_suffix {whole : List Char} (unblank : Unblank whole) (suffix : text <:+ whole) :
    Unblank text := by
  obtain ⟨start, rfl⟩ := suffix
  intro c member
  apply unblank
  rw [List.getLast?_append, Option.mem_def.mp member]
  rfl

theorem unblank_trim (text : List Char) : Unblank (trim text) := by
  rw [← trimEnd_eq_self_iff]
  exact List.rdropWhile_idempotent _ _

/-! ### Local paths -/

/-- What follows `file://`, whatever it is. -/
theorem fromStr_file_text (rest : List Char) :
    StorageUrl.fromStr ("file://".toList ++ rest) =
      .ok (.localPath (StorageUrl.filePath (trimEnd rest))) := by
  have trimmed : trim ("file://".toList ++ rest) = "file://".toList ++ trimEnd rest :=
    trim_url (by decide) ['i', 'l', 'e', ':', '/'] rest
  unfold StorageUrl.fromStr
  rw [trimmed]
  simp only [splitScheme_file]
  rw [if_pos trivial]

theorem filePath_absolute (rest : List Char) : (StorageUrl.filePath rest).head? = some '/' := by
  unfold StorageUrl.filePath
  split
  · rfl
  · split
    · rename_i slash
      exact slash
    · rfl

theorem filePath_of_absolute {path : List Char} (absolute : path.head? = some '/') :
    StorageUrl.filePath path = path := by
  have host : ¬"localhost/".toList <+: path := by
    rintro ⟨rest, rfl⟩
    simp at absolute
  rw [StorageUrl.filePath, if_neg host, if_pos absolute]

/-- A local path is printed back exactly if it is absolute. -/
theorem local_printed_iff {path : List Char} (unblank : Unblank path) :
    StorageUrl.fromStr (StorageUrl.localPath path).display = .ok (.localPath path) ↔
      path.head? = some '/' := by
  unfold StorageUrl.display
  rw [fromStr_file_text, trimEnd_eq_self_iff.mpr unblank]
  constructor
  · intro same
    have path_eq := StorageUrl.localPath.inj (Except.ok.inj same)
    rw [← path_eq]
    exact filePath_absolute path
  · intro absolute
    rw [filePath_of_absolute absolute]

/-- The path of a `file://` URL without blanks at its end has none either. -/
theorem filePath_unblank {rest : List Char} (unblank : Unblank rest) :
    Unblank (StorageUrl.filePath rest) := by
  have slash {tail : List Char} (unblank : Unblank tail) : Unblank ('/' :: tail) := by
    cases tail with
    | nil =>
      rintro c ⟨⟩
      decide
    | cons c tail =>
      unfold Unblank
      rw [List.getLast?_cons_cons]
      exact unblank
  unfold StorageUrl.filePath
  split
  · exact slash (unblank.of_suffix (List.drop_suffix _ _))
  · split
    · exact unblank
    · exact slash unblank

/-! ### S3 URLs -/

/-- What can be printed so that it is told apart again. -/
structure Printable (bucket key : List Char) (endpoint region : Option (List Char)) : Prop where
  some_ : bucket ≠ []
  bucket : '/' ∉ bucket ∧ '?' ∉ bucket
  key : '?' ∉ key
  endpoint : ∀ e ∈ endpoint, '&' ∉ e
  region : ∀ r ∈ region, '&' ∉ r

theorem parseParam_named {name : List Char} (free : '=' ∉ name)
    (found : Option (List Char) × Option (List Char)) (value : List Char) :
    StorageUrl.parseParam found (name ++ '=' :: value) =
      if name = "endpoint".toList then (some value, found.2)
      else if name = "region".toList then (found.1, some value)
      else found := by
  unfold StorageUrl.parseParam
  rw [splitAt_append free]

theorem parseParam_endpoint (found : Option (List Char) × Option (List Char)) (value : List Char) :
    StorageUrl.parseParam found ("endpoint".toList ++ '=' :: value) = (some value, found.2) := by
  rw [parseParam_named (by decide), if_pos rfl]

theorem parseParam_region (found : Option (List Char) × Option (List Char)) (value : List Char) :
    StorageUrl.parseParam found ("region".toList ++ '=' :: value) = (found.1, some value) := by
  rw [parseParam_named (by decide), if_neg (by decide), if_pos rfl]

/-- The printed parameters are found again. -/
theorem params_printed {endpoint region : Option (List Char)} (e_free : ∀ e ∈ endpoint, '&' ∉ e)
    (r_free : ∀ r ∈ region, '&' ∉ r) {query : List Char} (text : queryText endpoint region = '?' :: query) :
    (query.splitOn '&').foldl StorageUrl.parseParam (none, none) = (endpoint, region) := by
  have first {name value : List Char} (named : '&' ∉ name) (free : '&' ∉ value) :
      '&' ∉ name ++ '=' :: value := by
    simp [named, free]
  cases endpoint with
  | none =>
    cases region with
    | none => cases text
    | some r =>
      obtain rfl := (List.cons.inj text).2
      have free := first (by decide : '&' ∉ "region".toList) (r_free r rfl)
      rw [List.splitOn_eq_singleton free, List.foldl_cons, parseParam_region, List.foldl_nil]
  | some e =>
    have free := first (by decide : '&' ∉ "endpoint".toList) (e_free e rfl)
    cases region with
    | none =>
      obtain rfl := (List.cons.inj text).2
      rw [List.splitOn_eq_singleton free, List.foldl_cons, parseParam_endpoint, List.foldl_nil]
    | some r =>
      obtain rfl := (List.cons.inj text).2
      have later := first (by decide : '&' ∉ "region".toList) (r_free r rfl)
      rw [← List.cons_append, ← List.append_assoc, List.splitOn_append_cons_self_of_not_mem free,
        List.splitOn_eq_singleton later, List.foldl_cons, parseParam_endpoint, List.foldl_cons,
        parseParam_region, List.foldl_nil]

theorem parse_printed {bucket key : List Char} {endpoint region : Option (List Char)}
    (printable : Printable bucket key endpoint region) :
    StorageUrl.parseS3Url (bucket ++ '/' :: (key ++ queryText endpoint region)) =
      .ok (.s3 bucket key endpoint region) := by
  have path : '?' ∉ bucket ++ '/' :: key := by
    simp [printable.bucket.2, printable.key]
  have cut : StorageUrl.splitKey (bucket ++ '/' :: key) = (bucket, key) := by
    rw [StorageUrl.splitKey, splitAt_append printable.bucket.1]
  have whole : bucket ++ '/' :: (key ++ queryText endpoint region) =
      (bucket ++ '/' :: key) ++ queryText endpoint region := by
    simp
  rw [whole]
  unfold StorageUrl.parseS3Url StorageUrl.splitQuery
  cases printed : queryText endpoint region with
  | nil =>
    have nothing : endpoint = none ∧ region = none := by
      cases endpoint with
      | none =>
        cases region with
        | none => exact ⟨rfl, rfl⟩
        | some r => cases printed
      | some e =>
        cases region with
        | none => cases printed
        | some r => cases printed
    obtain ⟨rfl, rfl⟩ := nothing
    rw [List.append_nil, splitAt_of_free path]
    dsimp only
    rw [cut]
    simp [printable.some_]
  | cons mark query =>
    obtain rfl : mark = '?' := by
      cases endpoint with
      | none =>
        cases region with
        | none => cases printed
        | some r => exact (List.cons.inj printed).1.symm
      | some e =>
        cases region with
        | none => exact (List.cons.inj printed).1.symm
        | some r => exact (List.cons.inj printed).1.symm
    rw [splitAt_append path]
    dsimp only
    rw [cut]
    have params := params_printed printable.endpoint printable.region printed
    simp [printable.some_, params]

/-! ### What the parser accepts -/

theorem splitQuery_free (rest : List Char) : '?' ∉ (StorageUrl.splitQuery rest).1 := by
  unfold StorageUrl.splitQuery
  cases split : splitAt '?' rest with
  | none => exact splitAt_eq_none split
  | some parts => exact (splitAt_eq_some split).2

theorem splitKey_free (path : List Char) : '/' ∉ (StorageUrl.splitKey path).1 ∧
    (StorageUrl.splitKey path).1 ⊆ path ∧ (StorageUrl.splitKey path).2 ⊆ path := by
  unfold StorageUrl.splitKey
  cases split : splitAt '/' path with
  | none => exact ⟨splitAt_eq_none split, List.Subset.refl _, List.nil_subset _⟩
  | some parts =>
    obtain ⟨whole, free⟩ := splitAt_eq_some split
    refine ⟨free, fun c member => ?_, fun c member => ?_⟩
    · rw [whole]
      exact List.mem_append_left _ member
    · rw [whole]
      exact List.mem_append_right _ (List.mem_cons_of_mem _ member)

/-- The parser keeps the last value of each name. -/
theorem foldl_parseParam (params : List (List Char)) :
    params.foldl StorageUrl.parseParam (none, none) =
      (lastValue "endpoint".toList (params.filterMap (splitAt '=')),
        lastValue "region".toList (params.filterMap (splitAt '='))) := by
  have last (name : List Char) (params : List (List Char × List Char)) (key value : List Char) :
      lastValue name (params ++ [(key, value)]) =
        if key = name then some value else lastValue name params := by
    unfold lastValue
    rw [List.reverse_append, List.reverse_singleton, List.singleton_append, List.find?_cons]
    by_cases same : key = name
    · simp [same]
    · simp [same]
  induction params using List.reverseRecOn with
  | nil => rfl
  | append_singleton params param ih =>
    rw [List.foldl_append, ih, List.foldl_cons, List.foldl_nil, List.filterMap_append]
    unfold StorageUrl.parseParam
    cases split : splitAt '=' param with
    | none =>
      have nothing : [param].filterMap (splitAt '=') = [] := by simp [split]
      rw [nothing, List.append_nil]
    | some parts =>
      obtain ⟨key, value⟩ := parts
      have one : [param].filterMap (splitAt '=') = [(key, value)] := by simp [split]
      rw [one, last, last]
      dsimp only
      split
      · rename_i endpoint
        rw [endpoint, if_neg (by decide)]
      · split
        · rfl
        · rfl

theorem lastValue_free {query : Option (List Char)} {name value : List Char}
    (found : lastValue name (queryParams query) = some value) : '&' ∉ value := by
  obtain ⟨⟨key, kept⟩, listed, rfl⟩ := Option.map_eq_some_iff.mp found
  have member := List.mem_reverse.mp (List.mem_of_find?_eq_some listed)
  obtain ⟨param, piece, split⟩ := List.mem_filterMap.mp member
  cases query with
  | none => cases piece
  | some query =>
    have free := Library.UnixPath.free_of_mem_splitOn piece
    rw [(splitAt_eq_some split).1] at free
    simp_all

theorem parsed_printable {rest : List Char} {url : StorageUrl}
    (parsed : StorageUrl.parseS3Url rest = .ok url) :
    ∃ bucket key endpoint region, url = .s3 bucket key endpoint region ∧
      Printable bucket key endpoint region ∧ lastPiece rest = (region.or endpoint).getD key := by
  unfold StorageUrl.parseS3Url at parsed
  dsimp only at parsed
  split at parsed
  · cases parsed
  · rename_i some_
    obtain rfl := Except.ok.inj parsed
    obtain ⟨bucket, inside, key⟩ := splitKey_free (StorageUrl.splitQuery rest).1
    have path := splitQuery_free rest
    refine ⟨_, _, _, _, rfl, ⟨some_, ⟨bucket, fun member => path (inside member)⟩,
      fun member => path (key member), ?_, ?_⟩, ?_⟩
    · rw [foldl_parseParam]
      exact fun e found => lastValue_free found
    · rw [foldl_parseParam]
      exact fun r found => lastValue_free found
    · rw [foldl_parseParam]
      rfl

theorem trimEnd_subset (text : List Char) : trimEnd text ⊆ text :=
  (List.rdropWhile_prefix _ _).subset

theorem printed_trimmed (bucket key : List Char) (endpoint region : Option (List Char)) :
    StorageUrl.fromStr (StorageUrl.s3 bucket key endpoint region).display =
      StorageUrl.parseS3Url (trimEnd (bucket ++ '/' :: (key ++ queryText endpoint region))) :=
  fromStr_s3 _

/-- An S3 URL is printed back exactly if what is printed last has no blank at its end. -/
theorem s3_printed_iff {bucket key : List Char} {endpoint region : Option (List Char)}
    (printable : Printable bucket key endpoint region) :
    StorageUrl.fromStr (StorageUrl.s3 bucket key endpoint region).display =
        .ok (.s3 bucket key endpoint region) ↔
      Unblank ((region.or endpoint).getD key) := by
  have slash : isWhiteSpace '/' = false := by decide
  have equals : isWhiteSpace '=' = false := by decide
  obtain ⟨some_, inside, k_free, e_free, r_free⟩ := printable
  rw [printed_trimmed]
  cases region with
  | some r =>
    have cut : trimEnd (bucket ++ '/' :: (key ++ queryText endpoint (some r))) =
        bucket ++ '/' :: (key ++ queryText endpoint (some (trimEnd r))) := by
      cases endpoint with
      | none =>
        have kept := rdropWhile_append_last equals (bucket ++ '/' :: (key ++ '?' :: "region".toList)) r
        simpa [queryText, trimEnd] using kept
      | some e =>
        have kept := rdropWhile_append_last equals (bucket ++ '/' :: (key ++ '?' ::
          ("endpoint".toList ++ '=' :: (e ++ '&' :: "region".toList)))) r
        simpa [queryText, trimEnd] using kept
    have trimmed : ∀ value ∈ some (trimEnd r), '&' ∉ value := by
      rintro _ ⟨⟩
      exact fun member => r_free r rfl (trimEnd_subset r member)
    rw [cut, parse_printed ⟨some_, inside, k_free, e_free, trimmed⟩]
    simp [trimEnd_eq_self_iff]
  | none =>
    cases endpoint with
    | some e =>
      have cut : trimEnd (bucket ++ '/' :: (key ++ queryText (some e) none)) =
          bucket ++ '/' :: (key ++ queryText (some (trimEnd e)) none) := by
        have kept := rdropWhile_append_last equals
          (bucket ++ '/' :: (key ++ '?' :: "endpoint".toList)) e
        simpa [queryText, trimEnd] using kept
      have trimmed : ∀ value ∈ some (trimEnd e), '&' ∉ value := by
        rintro _ ⟨⟩
        exact fun member => e_free e rfl (trimEnd_subset e member)
      rw [cut, parse_printed ⟨some_, inside, k_free, trimmed, r_free⟩]
      simp [trimEnd_eq_self_iff]
    | none =>
      have cut : trimEnd (bucket ++ '/' :: (key ++ queryText none none)) =
          bucket ++ '/' :: (trimEnd key ++ queryText none none) := by
        have kept := rdropWhile_append_last slash bucket key
        simpa [queryText, trimEnd] using kept
      have trimmed : '?' ∉ trimEnd key := fun member => k_free (trimEnd_subset key member)
      rw [cut, parse_printed ⟨some_, inside, trimmed, e_free, r_free⟩]
      simp [trimEnd_eq_self_iff]

/-! ### What is accepted -/

/-- An accepted URL is printed back exactly if its text is one that is. -/
theorem parsed_printed_iff {text : List Char} {url : StorageUrl}
    (accepted : StorageUrl.fromStr text = .ok url) :
    StorageUrl.fromStr url.display = .ok url ↔ PrintsBack text := by
  unfold StorageUrl.fromStr at accepted
  unfold PrintsBack
  dsimp only at accepted
  cases split : splitScheme (trim text) with
  | none =>
    rw [split] at accepted
    dsimp only at accepted
    split at accepted
    · cases accepted
    · obtain rfl := Except.ok.inj accepted
      exact local_printed_iff (unblank_trim text)
  | some parts =>
    obtain ⟨scheme, rest⟩ := parts
    rw [split] at accepted
    dsimp only at accepted ⊢
    split at accepted
    · rename_i file
      obtain rfl := Except.ok.inj accepted
      have unblank : Unblank rest := by
        apply (unblank_trim text).of_suffix
        rw [splitScheme_eq_some split]
        exact List.suffix_append _ _
      rw [local_printed_iff (filePath_unblank unblank), file]
      exact iff_of_true (filePath_absolute rest) (fun other => absurd other (by decide))
    · split at accepted
      · rename_i s3
        obtain ⟨bucket, key, endpoint, region, rfl, printable, last⟩ := parsed_printable accepted
        rw [s3_printed_iff printable, last]
        exact ⟨fun unblank _ => unblank, fun unblank => unblank s3⟩
      · cases accepted

/-- A text that begins like an S3 URL never names a local path. -/
theorem s3_never_local {text path : List Char} (begins : "s3:".toList <+: trim text) :
    StorageUrl.fromStr text ≠ .ok (.localPath path) := by
  intro accepted
  unfold StorageUrl.fromStr at accepted
  dsimp only at accepted
  cases split : splitScheme (trim text) with
  | none =>
    rw [split] at accepted
    dsimp only at accepted
    rw [if_pos begins] at accepted
    cases accepted
  | some parts =>
    obtain ⟨scheme, rest⟩ := parts
    rw [split] at accepted
    dsimp only at accepted
    split at accepted
    · rename_i file
      rw [splitScheme_eq_some split, file] at begins
      simp at begins
    · split at accepted
      · obtain ⟨_, _, _, _, other, _⟩ := parsed_printable accepted
        cases other
      · cases accepted

/-- Printing what was parsed and parsing it again gives the same URL exactly for the texts that print
back, and no text that begins like an S3 URL is a local path. -/
theorem url_round_trip_iff (text : List Char) :
    (∀ url, StorageUrl.fromStr text = .ok url →
        (StorageUrl.fromStr url.display = .ok url ↔ PrintsBack text)) ∧
      ("s3:".toList <+: trim text → ∀ path, StorageUrl.fromStr text ≠ .ok (.localPath path)) :=
  ⟨fun _ => parsed_printed_iff, fun begins _ => s3_never_local begins⟩

/-- Parameters in the other order are printed back, and one slash is no local path. -/
theorem region_before_endpoint_printed :
    StorageUrl.fromStr
          (StorageUrl.s3 "b".toList "k".toList (some "e".toList) (some "r".toList)).display =
        .ok (.s3 "b".toList "k".toList (some "e".toList) (some "r".toList)) ∧
      StorageUrl.fromStr "s3:/b".toList ≠ .ok (.localPath "s3:/b".toList) := by
  have accepted : StorageUrl.fromStr "s3://b/k?region=r&endpoint=e ".toList =
      .ok (.s3 "b".toList "k".toList (some "e".toList) (some "r".toList)) := by decide +kernel
  refine ⟨?_, ?_⟩
  · rw [(url_round_trip_iff _).1 _ accepted]
    decide +kernel
  · exact (url_round_trip_iff _).2 (by decide) _

/-- A relative path comes back as an absolute one. -/
theorem relative_path_made_absolute :
    ¬∀ text url, StorageUrl.fromStr text = .ok url → StorageUrl.fromStr url.display = .ok url := by
  intro agree
  have accepted : StorageUrl.fromStr "data/x".toList = .ok (.localPath "data/x".toList) := by decide
  have printed : StorageUrl.fromStr (StorageUrl.localPath "data/x".toList).display =
      .ok (.localPath "/data/x".toList) := by decide
  rw [agree _ _ accepted] at printed
  cases printed

end Roboflow.Storage
