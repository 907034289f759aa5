import Roboflow.Storage.MultipartUpload

/-! Whether every multipart upload is completed or aborted, one part after the other (`multipart.rs`) or
with parts in flight (`multipart_parallel.rs`). Only a part that fails too often leads to an abort:
the errors of the reader, of a small file's part and of the completion are returned at once. -/
namespace Roboflow.Storage

/-! ### Parallel uploads -/

structure ParallelUploadConfig where
  partSize : Nat
  threshold : Nat
  partBounds : 5 * 1024 * 1024 ≤ partSize ∧ partSize ≤ 5 * 1024 * 1024 * 1024
  thresholdBound : 5 * 1024 * 1024 ≤ threshold

def ParallelUploadConfig.partCount (config : ParallelUploadConfig) (fileSize : Nat) : Nat :=
  if fileSize = 0 then 0 else (fileSize + config.partSize - 1) / config.partSize

/-- A part of the reader's content. -/
def ParallelUploadConfig.part (config : ParallelUploadConfig) (content : Bytes) (partIndex : Nat) :
    Bytes :=
  (content.drop (partIndex * config.partSize)).take
    (min config.partSize (content.length - partIndex * config.partSize))

/-- How `finish` of the object store's writer ends: it has completed the upload, or failed, after an
abort or without one. -/
inductive Finish where
  | completed
  | failed (aborts : Bool)
  deriving DecidableEq

/-- What an upload has come to. -/
structure ParallelEnd where
  completed : Bool
  aborted : Bool
  result : Except UploadError Unit

/-- Returned before the writer was finished: it is dropped. -/
def ParallelEnd.dropped (error : UploadError) : ParallelEnd := ⟨false, false, .error error⟩

def Finish.end_ : Finish → ParallelEnd
  | .completed => ⟨true, false, .ok ()⟩
  | .failed aborts => ⟨false, aborts, .error .complete⟩

namespace ParallelMultipartUploader

/-- The loop over the parts, from an index on, with what was written before. -/
def writeParts (faults : ReaderFaults) (config : ParallelUploadConfig) (content : Bytes) :
    Nat → Nat → List Bytes → Except UploadError (List Bytes)
  | 0, _, written => .ok written
  | left + 1, partIndex, written =>
    if faults.seekPart partIndex then .error .seek
    else if faults.readPart partIndex then .error .read
    else
      writeParts faults config content left (partIndex + 1)
        (written ++ [config.part content partIndex])

/-- `upload_from_reader`, where `finish` depends on what was written. -/
def uploadFromReader (faults : ReaderFaults) (finish : List Bytes → Finish)
    (config : ParallelUploadConfig) (content : Bytes) : ParallelEnd :=
  if faults.seekEnd || faults.seekStart then .dropped .seek
  else if content.length < config.threshold then
    if faults.readToEnd then .dropped .read else (finish [content]).end_
  else
    match writeParts faults config content (config.partCount content.length) 0 [] with
    | .error error => .dropped error
    | .ok written => (finish written).end_

end ParallelMultipartUploader

/-! ### What is promised, and when it is kept -/

/-- Returned without an error and completed, or with one and aborted. -/
def MultipartUploader.Released (result : MultipartUploader × Except UploadError Unit) : Prop :=
  match result.2 with
  | .ok _ => result.1.object.isSome
  | .error _ => result.1.aborted = true

def ParallelEnd.Released (e : ParallelEnd) : Prop :=
  match e.result with
  | .ok _ => e.completed = true
  | .error _ => e.aborted = true

/-- The delays are numbers of 64 bits. -/
def MultipartUploader.DelaysFit (u : MultipartUploader) : Prop := ∀ delay ∈ u.delays, delay < 2 ^ 64

/-- No call fails that is made for this part, and the retries made are not too many. -/
def UploadFaults.Spares (faults : UploadFaults) (config : MultipartConfig) (i : Nat) : Prop :=
  faults.reader.seekPart i = false ∧ faults.reader.readPart i = false ∧
    min (faults.failures i) config.maxRetries ≤ 58

/-- No call of the reader fails that is made, nor the part of a small file, nor the completion; and no
part is retried more than 58 times. -/
structure OnlyPartsFail (faults : UploadFaults) (config : MultipartConfig) (content : Bytes) :
    Prop where
  seek : faults.reader.seekEnd = false ∧ faults.reader.seekStart = false
  small : content.length < config.threshold →
    faults.reader.readToEnd = false ∧ faults.failures 0 = 0 ∧ faults.completes true = true
  parts : config.threshold ≤ content.length → ∀ i < config.partCount content.length,
    (∀ j < i, faults.failures j ≤ config.maxRetries) → faults.Spares config i
  completes : config.threshold ≤ content.length →
    (∀ i < config.partCount content.length, faults.failures i ≤ config.maxRetries) →
    faults.completes (decide (∀ i < config.partCount content.length, faults.failures i = 0)) = true

/-- What a parallel upload writes. -/
def ParallelUploadConfig.written (config : ParallelUploadConfig) (content : Bytes) : List Bytes :=
  if content.length < config.threshold then [content]
  else (List.range (config.partCount content.length)).map (config.part content)

/-- No call of the reader fails that is made, and `finish` completes the upload or aborts it. -/
structure ReaderHolds (faults : ReaderFaults) (finish : List Bytes → Finish)
    (config : ParallelUploadConfig) (content : Bytes) : Prop where
  seek : faults.seekEnd = false ∧ faults.seekStart = false
  small : content.length < config.threshold → faults.readToEnd = false
  parts : config.threshold ≤ content.length → ∀ i < config.partCount content.length,
    faults.seekPart i = false ∧ faults.readPart i = false
  finished : finish (config.written content) ≠ .failed false

/-! ### Delays -/

namespace MultipartUploader

/-- The delays before as many retries fit into 64 bits. -/
theorem backoffs_fit_iff (retries : Nat) :
    (∀ delay ∈ backoffs 0 retries, delay < 2 ^ 64) ↔ retries ≤ 58 := by
  unfold backoffs backoff
  rw [← List.range_eq_range']
  simp only [List.mem_map, List.mem_range, forall_exists_index, and_imp, forall_apply_eq_imp_iff₂,
    Nat.add_sub_cancel]
  constructor
  · intro fit
    by_contra many
    have last := fit 58 (not_le.mp many)
    norm_num at last
  · intro few count below
    have power : 2 ^ count ≤ 2 ^ 57 := Nat.pow_le_pow_right (by omega) (by omega)
    omega

variable {faults : UploadFaults} {config : MultipartConfig} {content : Bytes}

/-- The delays of parts that were put. -/
theorem After.delaysFit_iff {u : MultipartUploader} (after : After faults config content n u) :
    u.DelaysFit ↔ ∀ i < n, faults.failures i ≤ 58 := by
  unfold DelaysFit
  rw [after.delays]
  simp only [List.mem_flatMap, List.mem_range, forall_exists_index, and_imp]
  constructor
  · intro fit i below
    exact (backoffs_fit_iff _).mp fun delay member => fit delay i below member
  · intro few delay i below member
    exact (backoffs_fit_iff _).mpr (few i below) delay member

/-! ### One part after the other -/

/-- Nothing ends the loop at this part. -/
def Passes (faults : UploadFaults) (config : MultipartConfig) (i : Nat) : Prop :=
  faults.reader.seekPart i = false ∧ faults.reader.readPart i = false ∧
    faults.failures i ≤ config.maxRetries

/-- The loop ended at a part, before it was put. -/
structure StoppedAt (faults : UploadFaults) (config : MultipartConfig) (content : Bytes) (i : Nat)
    (result : MultipartUploader × Except UploadError Unit) : Prop where
  failed : ∃ error, result.2 = .error error
  ended : ¬Passes faults config i
  aborted : result.1.aborted = true ↔
    faults.reader.seekPart i = false ∧ faults.reader.readPart i = false
  delays : result.1.aborted = true →
    (result.1.DelaysFit ↔ (∀ j < i, faults.failures j ≤ 58) ∧ config.maxRetries ≤ 58)

theorem After.stopped {u : MultipartUploader} (after : After faults config content n u)
    (ended : ¬Passes faults config n) (left : Nat) :
    StoppedAt faults config content n (u.uploadParts faults config content (left + 1) n) := by
  obtain ⟨-, pending⟩ := after.pending
  unfold uploadParts
  cases sought : faults.reader.seekPart n with
  | true =>
    refine ⟨⟨_, rfl⟩, ended, ?_, ?_⟩
    · simp [pending, sought]
    · simp [pending]
  | false =>
    cases read : faults.reader.readPart n with
    | true =>
      refine ⟨⟨_, rfl⟩, ended, ?_, ?_⟩
      · simp [pending, read]
      · simp [pending]
    | false =>
      have many : config.maxRetries + 1 ≤ faults.failures n - 0 := by
        unfold Passes at ended
        rw [sought, read] at ended
        simp at ended
        omega
      rw [attempts_of_many _ 0 u many]
      refine ⟨⟨_, rfl⟩, ended, ?_, fun _ => ?_⟩
      · simp [abort, sought, read]
      · have earlier := after.delaysFit_iff
        unfold DelaysFit at earlier ⊢
        simp only [Bool.false_eq_true, if_false, abort, List.mem_append, or_imp, forall_and, earlier]
        rw [Nat.add_sub_cancel, backoffs_fit_iff]

theorem uploadParts_ends {u : MultipartUploader} (after : After faults config content n u)
    (left : Nat) :
    (∃ u', u.uploadParts faults config content left n = (u', .ok ()) ∧
      After faults config content (n + left) u' ∧
      ∀ i, n ≤ i → i < n + left → Passes faults config i) ∨
    ∃ i, n ≤ i ∧ i < n + left ∧ (∀ j, n ≤ j → j < i → Passes faults config j) ∧
      StoppedAt faults config content i (u.uploadParts faults config content left n) := by
  induction left generalizing n u with
  | zero => exact .inl ⟨u, rfl, after, fun i low high => absurd high (not_lt.mpr low)⟩
  | succ left ih =>
    by_cases passes : Passes faults config n
    · obtain ⟨sought, read, within⟩ := passes
      obtain ⟨put, taken, next⟩ := after.next within
      have step : u.uploadParts faults config content (left + 1) n =
          (put.report (min ((n + 1) * config.partSize) content.length)).uploadParts faults config
            content left (n + 1) := by
        rw [uploadParts, sought, read, taken]
        rfl
      rw [step]
      have here : ∀ i, n ≤ i → ¬n + 1 ≤ i → Passes faults config i := by
        intro i low early
        obtain rfl : i = n := by omega
        exact ⟨sought, read, within⟩
      rcases ih next with ⟨last, ended, done, all⟩ | ⟨i, low, high, before, stopped⟩
      · refine .inl ⟨last, ended, ?_, fun i low high => ?_⟩
        · rwa [Nat.add_comm left, ← Nat.add_assoc]
        · by_cases later : n + 1 ≤ i
          · exact all i later (by omega)
          · exact here i low later
      · refine .inr ⟨i, by omega, by omega, fun j low below => ?_, stopped⟩
        by_cases later : n + 1 ≤ j
        · exact before j later below
        · exact here j low later
    · refine .inr ⟨n, le_rfl, by omega, fun j low below => ?_, after.stopped passes left⟩
      exact absurd below (not_lt.mpr low)

theorem small_released_iff :
    (Released (create.uploadSmall faults content) ∧
      (create.uploadSmall faults content).1.DelaysFit) ↔
    faults.reader.readToEnd = false ∧ faults.failures 0 = 0 ∧ faults.completes true = true := by
  unfold uploadSmall
  cases read : faults.reader.readToEnd with
  | true => simp [Released, create]
  | false =>
    by_cases fails : 0 < faults.failures 0
    · simp [uploadPart, fails, Released, report, create]
      omega
    · have none_ : faults.failures 0 = 0 := by omega
      have all : allStored ⟨1, [(0, content)], none, false, [content.length], [], 0⟩ = true := rfl
      simp only [uploadPart, none_, report, create]
      cases done : faults.completes true with
      | true => simp [complete, all, done, Released, DelaysFit]
      | false => simp [complete, all, done, Released]

theorem completed_released_iff {u : MultipartUploader} (after : After faults config content n u) :
    (Released (u.complete faults) ∧ (u.complete faults).1.DelaysFit) ↔
      faults.completes (decide (∀ i < n, faults.failures i = 0)) = true ∧
        ∀ i < n, faults.failures i ≤ 58 := by
  have stored : u.allStored = decide (∀ i < n, faults.failures i = 0) := by
    rw [Bool.eq_iff_iff, after.numbers, decide_eq_true_eq]
  have fit := after.delaysFit_iff
  unfold complete
  rw [stored]
  split
  · rename_i done
    simp only [Released, done, Option.isSome_some, true_and]
    exact fit
  · rename_i failed
    simp [Released, failed, after.pending.2]

/-- Where nothing ends the loop over the parts. -/
theorem onlyPartsFail_of_all (large : config.threshold ≤ content.length)
    (seeks : faults.reader.seekEnd = false ∧ faults.reader.seekStart = false)
    (all : ∀ i < config.partCount content.length, Passes faults config i) :
    OnlyPartsFail faults config content ↔
      faults.completes (decide (∀ i < config.partCount content.length, faults.failures i = 0)) = true ∧
        ∀ i < config.partCount content.length, faults.failures i ≤ 58 := by
  constructor
  · intro spared
    refine ⟨spared.completes large fun i below => (all i below).2.2, fun i below => ?_⟩
    obtain ⟨-, -, few⟩ := spared.parts large i below fun j before =>
      (all j (before.trans below)).2.2
    have within := (all i below).2.2
    omega
  · rintro ⟨completes, few⟩
    refine ⟨seeks, fun small => absurd small (not_lt.mpr large), fun _ i below _ => ?_,
      fun _ _ => completes⟩
    obtain ⟨sought, read, -⟩ := all i below
    exact ⟨sought, read, (min_le_left _ _).trans (few i below)⟩

/-- Where a part ends the loop. -/
theorem StoppedAt.released_iff {i : Nat} {result : MultipartUploader × Except UploadError Unit}
    (stopped : StoppedAt faults config content i result) (large : config.threshold ≤ content.length)
    (seeks : faults.reader.seekEnd = false ∧ faults.reader.seekStart = false)
    (below : i < config.partCount content.length) (before : ∀ j < i, Passes faults config j) :
    (Released result ∧ result.1.DelaysFit) ↔ OnlyPartsFail faults config content := by
  obtain ⟨error, failed⟩ := stopped.failed
  have released : Released result ↔ result.1.aborted = true := by
    unfold Released
    rw [failed]
  rw [released]
  constructor
  · rintro ⟨aborted, fit⟩
    obtain ⟨sought, read⟩ := stopped.aborted.mp aborted
    obtain ⟨few, retries⟩ := (stopped.delays aborted).mp fit
    have many : ¬faults.failures i ≤ config.maxRetries := fun within =>
      stopped.ended ⟨sought, read, within⟩
    refine ⟨seeks, fun small => absurd small (not_lt.mpr large), fun _ k _ within => ?_,
      fun _ within => absurd (within i below) many⟩
    rcases Nat.lt_trichotomy k i with earlier | rfl | later
    · obtain ⟨sought, read, -⟩ := before k earlier
      exact ⟨sought, read, (min_le_left _ _).trans (few k earlier)⟩
    · exact ⟨sought, read, (min_le_right _ _).trans retries⟩
    · exact absurd (within i later) many
  · intro spared
    have within : ∀ j < i, faults.failures j ≤ config.maxRetries := fun j earlier =>
      (before j earlier).2.2
    obtain ⟨sought, read, few⟩ := spared.parts large i below within
    have aborted := stopped.aborted.mpr ⟨sought, read⟩
    refine ⟨aborted, (stopped.delays aborted).mpr ⟨fun j earlier => ?_, ?_⟩⟩
    · obtain ⟨-, -, fewer⟩ := spared.parts large j (earlier.trans below) fun k first =>
        within k (first.trans earlier)
      have own := within j earlier
      omega
    · have many : ¬faults.failures i ≤ config.maxRetries := fun within =>
        stopped.ended ⟨sought, read, within⟩
      omega

theorem sequential_released_iff (faults : UploadFaults) (config : MultipartConfig)
    (content : Bytes) :
    (Released (create.uploadFromReader faults config content) ∧
      (create.uploadFromReader faults config content).1.DelaysFit) ↔
    OnlyPartsFail faults config content := by
  unfold uploadFromReader
  by_cases sought : faults.reader.seekEnd || faults.reader.seekStart
  · rw [if_pos sought]
    refine iff_of_false (fun both => ?_) fun spared => ?_
    · cases both.1
    · rw [spared.seek.1, spared.seek.2] at sought
      cases sought
  · rw [if_neg sought]
    have seeks : faults.reader.seekEnd = false ∧ faults.reader.seekStart = false := by
      simpa using sought
    by_cases small : content.length < config.threshold
    · rw [if_pos small, small_released_iff]
      have large : ¬config.threshold ≤ content.length := not_le.mpr small
      refine ⟨fun holds => ⟨seeks, fun _ => holds, ?_, ?_⟩, fun spared => spared.small small⟩
      · exact fun reached => absurd reached large
      · exact fun reached => absurd reached large
    · rw [if_neg small]
      have large := not_lt.mp small
      rcases uploadParts_ends (After.create faults config content)
        (config.partCount content.length) with ⟨u, ended, after, all⟩ | ⟨i, -, below, before, stopped⟩
      · rw [ended]
        dsimp only
        rw [Nat.zero_add] at after all
        rw [completed_released_iff after, onlyPartsFail_of_all large seeks fun i => all i (Nat.zero_le i)]
      · rw [Nat.zero_add] at below
        obtain ⟨error, failed⟩ := stopped.failed
        have whole := stopped.released_iff large seeks below fun j => before j (Nat.zero_le j)
        generalize create.uploadParts faults config content _ 0 = result at failed whole ⊢
        obtain ⟨u, outcome⟩ := result
        obtain rfl : outcome = .error error := failed
        exact whole

end MultipartUploader

/-! ### Parts in flight -/

namespace ParallelMultipartUploader

variable {faults : ReaderFaults} {config : ParallelUploadConfig} {content : Bytes}

theorem writeParts_of_all {left partIndex : Nat} {written : List Bytes}
    (all : ∀ i, partIndex ≤ i → i < partIndex + left →
      faults.seekPart i = false ∧ faults.readPart i = false) :
    writeParts faults config content left partIndex written =
      .ok (written ++ (List.range' partIndex left).map (config.part content)) := by
  induction left generalizing partIndex written with
  | zero => simp [writeParts]
  | succ left ih =>
    obtain ⟨sought, read⟩ := all partIndex le_rfl (by omega)
    have step : writeParts faults config content (left + 1) partIndex written =
        writeParts faults config content left (partIndex + 1)
          (written ++ [config.part content partIndex]) := by
      rw [writeParts, sought, read]
      rfl
    rw [step, ih fun i low high => all i (by omega) (by omega), List.range'_succ, List.map_cons,
      List.append_assoc]
    rfl

theorem writeParts_of_fault (config : ParallelUploadConfig) (content : Bytes)
    (left partIndex : Nat) (written : List Bytes) {i : Nat} (low : partIndex ≤ i)
    (high : i < partIndex + left) (fault : ¬(faults.seekPart i = false ∧ faults.readPart i = false)) :
    ∃ error, writeParts faults config content left partIndex written = .error error := by
  induction left generalizing partIndex written with
  | zero => omega
  | succ left ih =>
    unfold writeParts
    split
    · exact ⟨_, rfl⟩
    · rename_i sought
      split
      · exact ⟨_, rfl⟩
      · rename_i read
        have later : partIndex ≠ i := by
          rintro rfl
          exact fault ⟨by simpa using sought, by simpa using read⟩
        exact ih _ _ (by omega) (by omega)

theorem finish_released_iff (finish : Finish) : finish.end_.Released ↔ finish ≠ .failed false := by
  cases finish with
  | completed => simp [Finish.end_, ParallelEnd.Released]
  | failed aborts => simp [Finish.end_, ParallelEnd.Released]

theorem dropped_not_released (error : UploadError) : ¬(ParallelEnd.dropped error).Released := by
  simp [ParallelEnd.dropped, ParallelEnd.Released]

theorem parallel_released_iff (faults : ReaderFaults) (finish : List Bytes → Finish)
    (config : ParallelUploadConfig) (content : Bytes) :
    (uploadFromReader faults finish config content).Released ↔
      ReaderHolds faults finish config content := by
  unfold uploadFromReader
  by_cases sought : faults.seekEnd || faults.seekStart
  · rw [if_pos sought]
    refine iff_of_false (dropped_not_released _) fun holds => ?_
    rw [holds.seek.1, holds.seek.2] at sought
    cases sought
  · rw [if_neg sought]
    have seeks : faults.seekEnd = false ∧ faults.seekStart = false := by simpa using sought
    by_cases small : content.length < config.threshold
    · have one : config.written content = [content] := if_pos small
      rw [if_pos small]
      split
      · rename_i failed
        refine iff_of_false (dropped_not_released _) fun holds => ?_
        rw [holds.small small] at failed
        cases failed
      · rename_i read
        rw [finish_released_iff, ← one]
        refine ⟨fun finished => ⟨seeks, fun _ => ?_, fun large => ?_, finished⟩, ReaderHolds.finished⟩
        · simpa using read
        · exact absurd small (not_lt.mpr large)
    · have all : config.written content =
          (List.range (config.partCount content.length)).map (config.part content) := if_neg small
      rw [if_neg small]
      by_cases quiet : ∀ i < config.partCount content.length,
          faults.seekPart i = false ∧ faults.readPart i = false
      · rw [writeParts_of_all fun i _ below => quiet i (by omega), List.nil_append,
          ← List.range_eq_range', ← all]
        dsimp only
        rw [finish_released_iff]
        exact ⟨fun finished => ⟨seeks, fun few => absurd few small, fun _ => quiet, finished⟩,
          ReaderHolds.finished⟩
      · obtain ⟨i, fault⟩ := Classical.not_forall.mp quiet
        obtain ⟨below, fault⟩ := Classical.not_imp.mp fault
        obtain ⟨error, failed⟩ := writeParts_of_fault config content
          (config.partCount content.length) 0 [] (Nat.zero_le i) (by omega) fault
        rw [failed]
        refine iff_of_false (dropped_not_released _) fun holds => ?_
        exact fault (holds.parts (not_lt.mp small) i below)

end ParallelMultipartUploader

/-- Every upload is completed or aborted, and its delays fit into 64 bits, exactly where only parts
fail; a parallel one is completed or aborted exactly where its reader holds and `finish` does one of
the two. -/
theorem every_upload_released_iff (faults : UploadFaults) (config : MultipartConfig)
    (finish : List Bytes → Finish) (parallel : ParallelUploadConfig) (content : Bytes) :
    ((MultipartUploader.Released (MultipartUploader.create.uploadFromReader faults config content) ∧
        (MultipartUploader.create.uploadFromReader faults config content).1.DelaysFit) ↔
      OnlyPartsFail faults config content) ∧
    ((ParallelMultipartUploader.uploadFromReader faults.reader finish parallel content).Released ↔
      ReaderHolds faults.reader finish parallel content) :=
  ⟨MultipartUploader.sequential_released_iff faults config content,
    ParallelMultipartUploader.parallel_released_iff faults.reader finish parallel content⟩

/-- The part of a small file fails once, and the upload is left. -/
theorem small_part_left : ¬MultipartUploader.Released
    (MultipartUploader.create.uploadFromReader (MultipartUploader.puts fun _ => 1)
      MultipartUploader.smallestParts [1]) := by
  intro released
  exact Bool.false_ne_true released

end Roboflow.Storage
