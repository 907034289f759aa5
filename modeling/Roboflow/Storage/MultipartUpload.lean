import Roboflow.Storage.CachedStorage

/-! Multipart uploads one part after the other, `multipart.rs`. Which of the calls around it fail is
given with the upload: those of the reader, how often a part fails before it is taken, and whether
the upload can be completed. Each attempt at a part takes the next part number. -/
namespace Roboflow.Storage

/-! ### The configuration -/

/-- What the builders accept. -/
structure MultipartConfig where
  partSize : Nat
  threshold : Nat
  maxRetries : Nat
  partBounds : 5 * 1024 * 1024 ≤ partSize ∧ partSize ≤ 5 * 1024 * 1024 * 1024
  thresholdBound : 5 * 1024 * 1024 ≤ threshold

namespace MultipartConfig

def partCount (config : MultipartConfig) (fileSize : Nat) : Nat :=
  if fileSize = 0 then 0 else (fileSize + config.partSize - 1) / config.partSize

theorem partSize_pos (config : MultipartConfig) : 0 < config.partSize := by
  have bounds := config.partBounds
  omega

/-- All parts but the last begin before the end. -/
theorem lt_partCount_iff (config : MultipartConfig) {fileSize : Nat} (some_ : 0 < fileSize) (i : Nat) :
    i < config.partCount fileSize ↔ i * config.partSize < fileSize := by
  have positive := config.partSize_pos
  unfold partCount
  rw [if_neg (Nat.ne_of_gt some_), ← Nat.succ_le_iff, Nat.le_div_iff_mul_le positive, Nat.succ_mul]
  omega

end MultipartConfig

/-! ### The upload -/

inductive UploadError where
  | seek
  | read
  | part
  | complete
  deriving DecidableEq

/-- The handle of the upload with what it has done: the numbers taken, the parts that were stored with
their numbers, the object if it was completed, and whether `abort` was called; and what the code
around it has reported, waited for (in milliseconds) and counted. -/
structure MultipartUploader where
  taken : Nat
  stored : List (Nat × Bytes)
  object : Option Bytes
  aborted : Bool
  progress : List Nat
  delays : List Nat
  retriedParts : Nat

/-- The calls of a reader that fail. -/
structure ReaderFaults where
  seekEnd : Bool
  seekStart : Bool
  seekPart : Nat → Bool
  readPart : Nat → Bool
  readToEnd : Bool

def ReaderFaults.none : ReaderFaults := ⟨false, false, fun _ => false, fun _ => false, false⟩

/-- What fails around an upload: calls of its reader, attempts at a part before one that does not
fail, and the completion, given whether every number taken was stored. -/
structure UploadFaults where
  reader : ReaderFaults
  failures : Nat → Nat
  completes : Bool → Bool

namespace MultipartUploader

/-- A fresh upload. -/
def create : MultipartUploader := ⟨0, [], none, false, [], [], 0⟩

/-- `upload_part`. -/
def uploadPart (u : MultipartUploader) (data : Bytes) (fails : Bool) : MultipartUploader × Bool :=
  ({ u with
    taken := u.taken + 1
    stored := if fails then u.stored else u.stored ++ [(u.taken, data)] }, !fails)

def backoff (retryCount : Nat) : Nat := 100 * 2 ^ (retryCount - 1)

def wait (u : MultipartUploader) (delay : Nat) : MultipartUploader :=
  { u with delays := u.delays ++ [delay] }

/-- The loop of attempts at a part, with as many as are left, and whether one succeeded. -/
def attempts (data : Bytes) (failures : Nat) :
    Nat → Nat → MultipartUploader → MultipartUploader × Bool
  | 0, _, u => (u, false)
  | left + 1, retryCount, u =>
    match u.uploadPart data (retryCount < failures) with
    | (u, true) =>
      (if 0 < retryCount then { u with retriedParts := u.retriedParts + 1 } else u, true)
    | (u, false) =>
      attempts data failures left (retryCount + 1) (if 0 < left then u.wait (backoff (retryCount + 1)) else u)

def report (u : MultipartUploader) (uploaded : Nat) : MultipartUploader :=
  { u with progress := u.progress ++ [uploaded] }

def abort (u : MultipartUploader) : MultipartUploader := { u with aborted := true }

/-- A part of the reader's content. -/
def part (config : MultipartConfig) (content : Bytes) (partIndex : Nat) : Bytes :=
  (content.drop (partIndex * config.partSize)).take
    (min config.partSize (content.length - partIndex * config.partSize))

/-- The loop over the parts, from an index on. -/
def uploadParts (faults : UploadFaults) (config : MultipartConfig) (content : Bytes) :
    Nat → Nat → MultipartUploader → MultipartUploader × Except UploadError Unit
  | 0, _, u => (u, .ok ())
  | left + 1, partIndex, u =>
    if faults.reader.seekPart partIndex then (u, .error .seek)
    else if faults.reader.readPart partIndex then (u, .error .read)
    else
      match attempts (part config content partIndex) (faults.failures partIndex)
          (config.maxRetries + 1) 0 u with
      | (u, false) => (u.abort, .error .part)
      | (u, true) =>
        uploadParts faults config content left (partIndex + 1)
          (u.report (min ((partIndex + 1) * config.partSize) content.length))

/-- Every number taken was stored. -/
def allStored (u : MultipartUploader) : Bool := u.stored.map Prod.fst = List.range u.taken

/-- `complete_internal`: the object is made of the parts in the order of their numbers. -/
def complete (faults : UploadFaults) (u : MultipartUploader) :
    MultipartUploader × Except UploadError Unit :=
  if faults.completes u.allStored then
    ({ u with object := some (u.stored.map Prod.snd).flatten }, .ok ())
  else (u, .error .complete)

/-- `upload_small`: everything is read and put as one part, once. -/
def uploadSmall (faults : UploadFaults) (content : Bytes) (u : MultipartUploader) :
    MultipartUploader × Except UploadError Unit :=
  if faults.reader.readToEnd then (u, .error .read)
  else
    match (u.report content.length).uploadPart content (0 < faults.failures 0) with
    | (u, false) => (u, .error .part)
    | (u, true) => u.complete faults

/-- `upload_from_reader`. -/
def uploadFromReader (faults : UploadFaults) (config : MultipartConfig) (content : Bytes)
    (u : MultipartUploader) : MultipartUploader × Except UploadError Unit :=
  if faults.reader.seekEnd || faults.reader.seekStart then (u, .error .seek)
  else if content.length < config.threshold then u.uploadSmall faults content
  else
    match u.uploadParts faults config content (config.partCount content.length) 0 with
    | (u, .error error) => (u, .error error)
    | (u, .ok _) => u.complete faults

/-! ### The attempts at a part -/

/-- The delays before the attempts that follow a first one. -/
def backoffs (retryCount retries : Nat) : List Nat :=
  (List.range' retryCount retries).map fun count => backoff (count + 1)

theorem attempts_of_few (data : Bytes) {failures left : Nat} (retryCount : Nat)
    (u : MultipartUploader) (few : failures - retryCount < left) :
    ∃ retried, attempts data failures left retryCount u =
      ({ u with
        taken := u.taken + (failures - retryCount) + 1
        stored := u.stored ++ [(u.taken + (failures - retryCount), data)]
        delays := u.delays ++ backoffs retryCount (failures - retryCount)
        retriedParts := retried }, true) := by
  induction left generalizing retryCount u with
  | zero => cases few
  | succ left ih =>
    unfold attempts uploadPart
    by_cases fails : retryCount < failures
    · obtain ⟨more, count⟩ : ∃ more, failures - retryCount = more + 1 :=
        ⟨failures - retryCount - 1, by omega⟩
      have next : failures - (retryCount + 1) = more := by omega
      simp only [fails, decide_true, if_true, Bool.not_true]
      rw [if_pos (by omega)]
      obtain ⟨retried, same⟩ := ih (retryCount + 1)
        (({ u with taken := u.taken + 1 } : MultipartUploader).wait (backoff (retryCount + 1)))
        (by omega)
      rw [same, next, count]
      refine ⟨retried, ?_⟩
      simp [wait, backoffs, List.range'_succ]
      omega
    · have count : failures - retryCount = 0 := by omega
      simp only [fails, decide_false, Bool.not_false, count]
      refine ⟨if 0 < retryCount then u.retriedParts + 1 else u.retriedParts, ?_⟩
      split
      · simp [backoffs]
      · simp [backoffs]

theorem attempts_of_many (data : Bytes) {failures left : Nat} (retryCount : Nat)
    (u : MultipartUploader) (many : left ≤ failures - retryCount) :
    attempts data failures left retryCount u =
      ({ u with
        taken := u.taken + left
        delays := u.delays ++ backoffs retryCount (left - 1) }, false) := by
  induction left generalizing retryCount u with
  | zero => simp [attempts, backoffs]
  | succ left ih =>
    have fails : retryCount < failures := by omega
    unfold attempts uploadPart
    simp only [fails, decide_true, if_true, Bool.not_true]
    rw [ih (retryCount + 1) _ (by omega)]
    cases left with
    | zero => simp [backoffs]
    | succ left =>
      simp [wait, backoffs, List.range'_succ]
      omega

/-! ### The parts of a content -/

variable {config : MultipartConfig} {content : Bytes}

theorem part_eq (config : MultipartConfig) (content : Bytes) (i : Nat) :
    part config content i = (content.drop (i * config.partSize)).take config.partSize := by
  unfold part
  rw [List.take_eq_take_iff, List.length_drop]
  omega

theorem parts_flatten (config : MultipartConfig) (content : Bytes) (n : Nat) :
    ((List.range n).map (part config content)).flatten = content.take (n * config.partSize) := by
  induction n with
  | zero => simp
  | succ n ih =>
    rw [List.range_succ, List.map_append, List.flatten_append, ih, Nat.succ_mul, List.take_add]
    simp [part_eq]

/-- The parts are the whole content. -/
theorem all_parts_flatten (some_ : 0 < content.length) :
    ((List.range (config.partCount content.length)).map (part config content)).flatten = content := by
  have beyond := (config.lt_partCount_iff some_ (config.partCount content.length)).not.mp (lt_irrefl _)
  rw [parts_flatten]
  exact List.take_of_length_le (not_lt.mp beyond)

theorem part_length (some_ : 0 < content.length) {i : Nat}
    (early : i + 1 < config.partCount content.length) :
    (part config content i).length = config.partSize := by
  have before := (config.lt_partCount_iff some_ (i + 1)).mp early
  rw [Nat.succ_mul] at before
  rw [part_eq, List.length_take, List.length_drop]
  omega

/-! ### The loop over the parts -/

/-- What was reported once some parts were put. -/
def reports (config : MultipartConfig) (content : Bytes) (n : Nat) : List Nat :=
  (List.range n).map fun i => min ((i + 1) * config.partSize) content.length

/-- An upload of which the first parts were put, each after its failures. -/
structure After (faults : UploadFaults) (config : MultipartConfig) (content : Bytes) (n : Nat)
    (u : MultipartUploader) : Prop where
  parts : u.stored.map Prod.snd = (List.range n).map (part config content)
  numbers : u.allStored = true ↔ ∀ i < n, faults.failures i = 0
  taken : n ≤ u.taken
  progress : u.progress = reports config content n
  delays : u.delays = (List.range n).flatMap fun i => backoffs 0 (faults.failures i)
  pending : u.object = none ∧ u.aborted = false

variable {faults : UploadFaults} {n : Nat} {u : MultipartUploader}

theorem After.create (faults : UploadFaults) (config : MultipartConfig) (content : Bytes) :
    After faults config content 0 create := by
  refine ⟨rfl, ?_, le_rfl, rfl, rfl, rfl, rfl⟩
  simp [allStored, MultipartUploader.create]

theorem After.length_stored (after : After faults config content n u) : u.stored.length = n := by
  have lengths := congrArg List.length after.parts
  simpa using lengths

/-- Numbers that were all stored stay so with the next one exactly if it is taken at once. -/
theorem After.numbers_next (after : After faults config content n u) (failures : Nat) :
    u.stored.map Prod.fst ++ [u.taken + failures] = List.range (u.taken + failures + 1) ↔
      u.allStored = true ∧ failures = 0 := by
  rw [List.range_succ, List.append_left_inj]
  unfold allStored
  rw [decide_eq_true_eq]
  constructor
  · intro same
    have lengths := congrArg List.length same
    rw [List.length_map, after.length_stored, List.length_range] at lengths
    have taken := after.taken
    obtain rfl : failures = 0 := by omega
    exact ⟨same, rfl⟩
  · rintro ⟨same, rfl⟩
    exact same

/-- One more part. -/
theorem After.next (after : After faults config content n u)
    (within : faults.failures n ≤ config.maxRetries) :
    ∃ u', attempts (part config content n) (faults.failures n) (config.maxRetries + 1) 0 u =
        (u', true) ∧
      After faults config content (n + 1)
        (u'.report (min ((n + 1) * config.partSize) content.length)) := by
  obtain ⟨retried, put⟩ := attempts_of_few (part config content n) 0 u (Nat.lt_succ_of_le within)
  rw [Nat.sub_zero] at put
  refine ⟨_, put, ?_, ?_, ?_, ?_, ?_, after.pending⟩
  · simp [report, after.parts, List.range_succ]
  · have next := after.numbers_next (faults.failures n)
    unfold allStored report
    rw [decide_eq_true_eq, List.map_append]
    refine Iff.trans next ?_
    rw [after.numbers, Nat.forall_lt_succ_right]
  · have taken := after.taken
    dsimp only [report]
    omega
  · simp [report, after.progress, reports, List.range_succ]
  · simp [report, after.delays, List.range_succ]

theorem uploadParts_of_within (after : After faults config content n u) (left : Nat)
    (quiet : ∀ i, n ≤ i → i < n + left → faults.reader.seekPart i = false ∧
      faults.reader.readPart i = false ∧ faults.failures i ≤ config.maxRetries) :
    ∃ u', u.uploadParts faults config content left n = (u', .ok ()) ∧
      After faults config content (n + left) u' := by
  induction left generalizing n u with
  | zero => exact ⟨u, rfl, after⟩
  | succ left ih =>
    obtain ⟨sought, read, within⟩ := quiet n le_rfl (by omega)
    obtain ⟨put, taken, next⟩ := after.next within
    unfold uploadParts
    rw [sought, read, taken]
    obtain ⟨last, ended, done⟩ := ih next fun i low high => quiet i (by omega) (by omega)
    refine ⟨last, ended, ?_⟩
    rwa [Nat.add_comm left, ← Nat.add_assoc]

/-! ### Uploads of which only parts fail -/

/-- Only attempts at parts fail, and what was stored completely can be completed. -/
def puts (failures : Nat → Nat) : UploadFaults := ⟨.none, failures, id⟩

/-- The number of parts that are put: a file below the threshold is a single one. -/
def partsPut (config : MultipartConfig) (fileSize : Nat) : Nat :=
  if fileSize < config.threshold then 1 else config.partCount fileSize

/-- The progress rises to the size of the file; from the threshold on the parts are those of the
configuration, below it the file is the only one; and where no attempt at a part fails, the object
is the content. -/
structure StoresFile (config : MultipartConfig) (content : Bytes) (failures : Nat → Nat)
    (result : MultipartUploader × Except UploadError Unit) : Prop where
  rises : result.1.progress.Pairwise (· ≤ ·)
  ends : result.1.progress.getLast? = some content.length
  large : config.threshold ≤ content.length →
    (result.1.stored.map Prod.snd).length = config.partCount content.length ∧
    (∀ data ∈ (result.1.stored.map Prod.snd).dropLast, data.length = config.partSize) ∧
    (result.1.stored.map Prod.snd).flatten = content
  small : content.length < config.threshold → failures 0 = 0 →
    result.1.stored.map Prod.snd = [content]
  stores : (∀ i < partsPut config content.length, failures i = 0) →
    result.2 = .ok () ∧ result.1.object = some content

/-- A small file is put once. -/
theorem uploadFromReader_small (failures : Nat → Nat) (small : content.length < config.threshold) :
    create.uploadFromReader (puts failures) config content =
      if 0 < failures 0 then (⟨1, [], none, false, [content.length], [], 0⟩, .error .part)
      else (⟨1, [(0, content)], some content, false, [content.length], [], 0⟩, .ok ()) := by
  unfold uploadFromReader uploadSmall uploadPart
  simp only [puts, ReaderFaults.none, Bool.or_self, Bool.false_eq_true, if_false, if_pos small]
  by_cases fails : 0 < failures 0
  · simp [fails, report, create]
  · simp [fails, report, create, complete, allStored]

theorem complete_of_stored {failures : Nat → Nat} (stored : u.allStored = true) :
    u.complete (puts failures) =
      ({ u with object := some (u.stored.map Prod.snd).flatten }, .ok ()) :=
  if_pos stored

theorem complete_of_missing {failures : Nat → Nat} (missing : u.allStored ≠ true) :
    u.complete (puts failures) = (u, .error .complete) :=
  if_neg missing

/-- A large file is put part by part; then the upload can be completed if no attempt failed. -/
theorem uploadFromReader_large (failures : Nat → Nat) (large : config.threshold ≤ content.length)
    (within : ∀ i < config.partCount content.length, failures i ≤ config.maxRetries) :
    ∃ u, After (puts failures) config content (config.partCount content.length) u ∧
      create.uploadFromReader (puts failures) config content = u.complete (puts failures) := by
  obtain ⟨u, put, after⟩ := uploadParts_of_within (After.create (puts failures) config content)
    (config.partCount content.length) fun i _ below => ⟨rfl, rfl, within i (by omega)⟩
  rw [Nat.zero_add] at after
  refine ⟨u, after, ?_⟩
  unfold uploadFromReader
  rw [put, if_neg (by simp [puts, ReaderFaults.none]), if_neg (not_lt.mpr large)]

theorem reports_rise (config : MultipartConfig) (content : Bytes) (n : Nat) :
    (reports config content n).Pairwise (· ≤ ·) := by
  unfold reports
  refine List.Pairwise.map _ (fun i j before => ?_) List.pairwise_lt_range
  have below := Nat.mul_le_mul_right config.partSize (Nat.succ_le_succ (Nat.le_of_lt before))
  exact min_le_min_right _ below

theorem reports_end (some_ : 0 < content.length) :
    (reports config content (config.partCount content.length)).getLast? = some content.length := by
  have beyond := (config.lt_partCount_iff some_ (config.partCount content.length)).not.mp (lt_irrefl _)
  have first := (config.lt_partCount_iff some_ 0).mpr (by omega)
  obtain ⟨n, count⟩ := Nat.exists_eq_succ_of_ne_zero (Nat.ne_of_gt first)
  rw [count] at beyond ⊢
  unfold reports
  rw [List.range_succ, List.map_append, List.map_singleton, List.getLast?_concat, Option.some_inj]
  exact min_eq_right (not_lt.mp beyond)

theorem StoresFile.of_small (failures : Nat → Nat) (small : content.length < config.threshold) :
    StoresFile config content failures (create.uploadFromReader (puts failures) config content) := by
  rw [uploadFromReader_small failures small]
  have large : ¬config.threshold ≤ content.length := not_le.mpr small
  have one : partsPut config content.length = 1 := if_pos small
  split
  · rename_i fails
    refine ⟨List.pairwise_singleton _ _, rfl, fun reached => absurd reached large, ?_, ?_⟩
    · intro _ none_
      omega
    · intro none_
      have first := none_ 0 (by omega)
      omega
  · refine ⟨List.pairwise_singleton _ _, rfl, fun reached => absurd reached large, ?_, ?_⟩
    · exact fun _ _ => rfl
    · exact fun _ => ⟨rfl, rfl⟩

theorem StoresFile.of_large (failures : Nat → Nat) (large : config.threshold ≤ content.length)
    (within : ∀ i < config.partCount content.length, failures i ≤ config.maxRetries) :
    StoresFile config content failures (create.uploadFromReader (puts failures) config content) := by
  have some_ : 0 < content.length := lt_of_lt_of_le (by
    have bound := config.thresholdBound
    omega) large
  have all : partsPut config content.length = config.partCount content.length :=
    if_neg (not_lt.mpr large)
  obtain ⟨u, after, result⟩ := uploadFromReader_large failures large within
  have same : (u.complete (puts failures)).1.stored = u.stored ∧
      (u.complete (puts failures)).1.progress = u.progress := by
    unfold complete
    split
    · exact ⟨rfl, rfl⟩
    · exact ⟨rfl, rfl⟩
  rw [result]
  refine ⟨?_, ?_, fun _ => ?_, fun small => absurd small (not_lt.mpr large), fun none_ => ?_⟩
  · rw [same.2, after.progress]
    exact reports_rise config content _
  · rw [same.2, after.progress]
    exact reports_end some_
  · rw [same.1, after.parts]
    refine ⟨by simp, fun data member => ?_, all_parts_flatten some_⟩
    obtain ⟨i, below, rfl⟩ := List.getElem_of_mem member
    have early : i + 1 < config.partCount content.length := by
      simp only [List.length_dropLast, List.length_map, List.length_range] at below
      omega
    simpa using part_length some_ early
  · rw [all] at none_
    rw [complete_of_stored (after.numbers.mpr none_), after.parts]
    exact ⟨rfl, congrArg some (all_parts_flatten some_)⟩

/-- Within the retries, an upload reports its progress to the end and puts the parts of the file; and
where no attempt at a part fails, it stores the file. -/
theorem upload_stores_file (config : MultipartConfig) (content : Bytes) (failures : Nat → Nat)
    (within : ∀ i < partsPut config content.length, failures i ≤ config.maxRetries) :
    StoresFile config content failures (create.uploadFromReader (puts failures) config content) := by
  by_cases small : content.length < config.threshold
  · exact .of_small failures small
  · refine .of_large failures (not_lt.mp small) ?_
    rwa [partsPut, if_neg small] at within

/-- Parts of five megabytes, from a file of five megabytes on, and three retries. -/
def smallestParts : MultipartConfig where
  partSize := 5242880
  threshold := 5242880
  maxRetries := 3
  partBounds := ⟨Nat.le_of_ble_eq_true rfl, Nat.le_of_ble_eq_true rfl⟩
  thresholdBound := Nat.le_of_ble_eq_true rfl

/-- A file of one byte more than a part. -/
theorem two_parts_stored :
    StoresFile smallestParts (List.replicate 5242881 0) (fun _ => 0)
      (create.uploadFromReader (puts fun _ => 0) smallestParts (List.replicate 5242881 0)) :=
  upload_stores_file _ _ _ fun _ _ => Nat.zero_le _

/-- A part that is put again leaves a number that is not stored. -/
theorem retried_not_completed (failures : Nat → Nat) (large : config.threshold ≤ content.length)
    (within : ∀ i < config.partCount content.length, failures i ≤ config.maxRetries)
    (retried : ∃ i < config.partCount content.length, failures i ≠ 0) :
    (create.uploadFromReader (puts failures) config content).2 = .error .complete := by
  obtain ⟨u, after, result⟩ := uploadFromReader_large failures large within
  rw [result, complete_of_missing]
  intro stored
  obtain ⟨i, below, fails⟩ := retried
  exact fails (after.numbers.mp stored i below)

/-- An empty file is put as one part where no parts are counted; and when the first part of a large
file fails once, the upload is an error. -/
theorem one_failure_not_completed :
    ((create.uploadFromReader (puts fun _ => 0) smallestParts []).1.stored.length = 1 ∧
      smallestParts.partCount 0 = 0) ∧
    (create.uploadFromReader (puts fun i => if i = 0 then 1 else 0) smallestParts
      (List.replicate 5242881 0)).2 = .error .complete := by
  refine ⟨⟨rfl, rfl⟩, retried_not_completed _ ?_ (fun i _ => ?_) ⟨0, ?_, one_ne_zero⟩⟩
  · rw [List.length_replicate]
    exact Nat.le_of_ble_eq_true rfl
  · change (if i = 0 then 1 else 0) ≤ 3
    split
    · omega
    · omega
  · rw [smallestParts.lt_partCount_iff]
    · rw [List.length_replicate, Nat.zero_mul]
      omega
    · rw [List.length_replicate]
      omega

end MultipartUploader

end Roboflow.Storage
