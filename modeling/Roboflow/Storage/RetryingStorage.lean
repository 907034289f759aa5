import Roboflow.Storage.LocalFiles
import Roboflow.Library.Retries

/-! The retrying wrapper of a storage, `retry.rs` of both crates, and the bodies that the trait `Storage`
gives to the methods a storage does not write itself, `traits.rs`. The wrapper writes ten methods; the
others get those bodies, whatever the storage inside has for them. -/
namespace Roboflow.Storage
open Library

/-- `StorageError::is_retryable`. -/
def OperationError.isRetryable : OperationError → Bool
  | .networkError _ | .timeout _ | .cloud _ => true
  | _ => false

/-! ### The trait -/

structure StreamingConfig where
  chunkSize : Nat
  prefetchCount : Nat

/-- A writer that was opened. -/
structure Writer (σ : Type) where
  writeAll : List UInt8 → Library.Action σ OperationError Unit
  flush : Library.Action σ OperationError Unit

/-- The methods of the trait with their arguments, by what they return. A streaming reader and the types
that a storage can be cast to are not looked into; `none` stands for the type `()`. -/
inductive StorageCall (σ Stream Tag : Type) : Type → Type where
  | reader (path : List Char) : StorageCall σ Stream Tag Reader
  | writer (path : List Char) : StorageCall σ Stream Tag (Writer σ)
  | exists_ (path : List Char) : StorageCall σ Stream Tag Bool
  | size (path : List Char) : StorageCall σ Stream Tag Nat
  | metadata (path : List Char) : StorageCall σ Stream Tag ObjectMetadata
  | list (path : List Char) : StorageCall σ Stream Tag (List ObjectMetadata)
  | delete (path : List Char) : StorageCall σ Stream Tag Unit
  | copy (source target : List Char) : StorageCall σ Stream Tag Unit
  | createDir (path : List Char) : StorageCall σ Stream Tag Unit
  | createDirAll (path : List Char) : StorageCall σ Stream Tag Unit
  | readRange (path : List Char) (start : Nat) (end_ : Option Nat) : StorageCall σ Stream Tag Reader
  | streamingReader (path : List Char) (config : StreamingConfig) : StorageCall σ Stream Tag Stream
  | uploadFile (localPath remotePath : List Char) : StorageCall σ Stream Tag Nat
  | downloadFile (remotePath localPath : List Char) : StorageCall σ Stream Tag Nat
  | asAny : StorageCall σ Stream Tag (Option Tag)
  | deletePrefix (path : List Char) : StorageCall σ Stream Tag Nat

/-- `dyn Storage`. -/
abbrev DynStorage (σ Stream Tag : Type) :=
  ∀ α, StorageCall σ Stream Tag α → Library.Action σ OperationError α

/-- The files of the machine itself. -/
structure LocalDisk (σ : Type) where
  read : List Char → Library.Action σ OperationError (List UInt8)
  create : List Char → Library.Action σ OperationError (Writer σ)

variable {σ Stream Tag : Type}

/-! ### Bodies of the trait -/

/-- `read_exact`: what is left after some bytes. -/
def Reader.readExact (reader : Reader) (length : Nat) : Except IoError Reader :=
  if length ≤ reader.bytes.length then .ok { reader with bytes := reader.bytes.drop length }
  else .error (reader.fault.getD .unexpectedEof)

/-- The loop of `read_range`, which skips a buffer at a time; a round skips one byte at least. -/
def skip (buffer : Nat) : Nat → Reader → Nat → Except IoError Reader
  | 0, reader, _ => .ok reader
  | rounds + 1, reader, remaining =>
    if remaining = 0 then .ok reader
    else
      match reader.readExact (min buffer remaining) with
      | .ok rest => skip buffer rounds rest (remaining - min buffer remaining)
      | .error error => .error error

/-- `read_range`. The end is not looked at. -/
def readRangeDefault (reader : Library.Action σ OperationError Reader) (start : Nat) :
    Library.Action σ OperationError Reader := do
  let opened ← reader
  match skip (min 8192 start) start opened start with
  | .ok rest => pure rest
  | .error error => Library.Action.fail (.io error)

/-- `streaming_reader`. -/
def streamingReaderDefault : Library.Action σ OperationError Stream :=
  Library.Action.fail (.storage (.other "streaming_reader not implemented for this storage type".toList))

/-- `upload_file`. -/
def uploadFileDefault (read : Library.Action σ OperationError (List UInt8))
    (writer : Library.Action σ OperationError (Writer σ)) : Library.Action σ OperationError Nat := do
  let content ← read
  let opened ← writer
  opened.writeAll content
  opened.flush
  pure content.length

/-- `download_file`. What was read before a fault is written all the same. -/
def downloadFileDefault (reader : Library.Action σ OperationError Reader)
    (create : Library.Action σ OperationError (Writer σ)) : Library.Action σ OperationError Nat := do
  let opened ← reader
  let file ← create
  file.writeAll opened.bytes
  match opened.fault with
  | some fault => Library.Action.fail (.io fault)
  | none =>
    file.flush
    pure opened.bytes.length

/-- `as_any`. -/
def asAnyDefault : Library.Action σ OperationError (Option Tag) := pure none

/-- `delete_prefix`. -/
def deletePrefixDefault : Library.Action σ OperationError Nat :=
  Library.Action.fail (.storage (.other "delete_prefix not implemented for this storage type".toList))

/-! ### Waiting -/

/-- `RetryConfig`. The base of each wait and the range of its jitter, computed in floating point from the
fields left out, are given. -/
structure RetryConfig where
  maxRetries : Nat
  jitterEnabled : Bool
  clampedMs : Nat → Nat
  jitterRange : Nat → Nat

/-- How the program was built, whether warnings are logged, and the clock at each attempt. -/
structure RetryEnv where
  overflowChecks : Bool
  warnings : Bool
  nanos : Nat → Nat

/-- `as i64`. -/
def asI64 (value : Int) : Int :=
  let low := value % 2 ^ 64
  if low < 2 ^ 63 then low else low - 2 ^ 64

/-- `RetryConfig::backoff_duration` in milliseconds, or a panic. -/
def backoffDuration (config : RetryConfig) (env : RetryEnv) (attempt : Nat) : Option Nat :=
  let clamped := config.clampedMs attempt
  let range := config.jitterRange attempt
  if config.jitterEnabled ∧ 0 < range then
    if env.overflowChecks ∧ 2 ^ 64 ≤ 2 * range then none
    else if 2 * range % 2 ^ 64 = 0 then none
    else
      let jitter := asI64 (env.nanos attempt % (2 * range % 2 ^ 64) : Nat) - asI64 range
      if env.overflowChecks ∧ (jitter < -2 ^ 63 ∨ 2 ^ 63 ≤ jitter) then none
      else some (min (clamped + asI64 jitter).toNat (2 ^ 64 - 1))
  else some clamped

/-- Whether the wait after an attempt is possible, with the line that is logged before it. -/
def waits (config : RetryConfig) (env : RetryEnv) (attempt : Nat) : Bool :=
  (backoffDuration config env attempt).isSome &&
    !(env.overflowChecks && env.warnings && decide (2 ^ 32 ≤ config.maxRetries + 1))

/-- `retry_with_backoff`. -/
def retryWithBackoff {α : Type} (config : RetryConfig) (env : RetryEnv)
    (act : Library.Action σ OperationError α) : Library.Action σ OperationError α :=
  Library.Action.retry OperationError.isRetryable (waits config env) act config.maxRetries 0

/-! ### The wrapper -/

/-- `RetryingStorage`. -/
def retrying (config : RetryConfig) (env : RetryEnv) (disk : LocalDisk σ)
    (inner : DynStorage σ Stream Tag) : DynStorage σ Stream Tag
  | _, .reader path => retryWithBackoff config env (inner _ (.reader path))
  | _, .writer path => inner _ (.writer path)
  | _, .exists_ path => inner _ (.exists_ path)
  | _, .size path => retryWithBackoff config env (inner _ (.size path))
  | _, .metadata path => retryWithBackoff config env (inner _ (.metadata path))
  | _, .list path => retryWithBackoff config env (inner _ (.list path))
  | _, .delete path => retryWithBackoff config env (inner _ (.delete path))
  | _, .copy source target => retryWithBackoff config env (inner _ (.copy source target))
  | _, .createDir path => retryWithBackoff config env (inner _ (.createDir path))
  | _, .createDirAll path => retryWithBackoff config env (inner _ (.createDirAll path))
  | _, .readRange path start _ =>
    readRangeDefault (retryWithBackoff config env (inner _ (.reader path))) start
  | _, .streamingReader _ _ => streamingReaderDefault
  | _, .uploadFile localPath remotePath =>
    uploadFileDefault (disk.read localPath) (inner _ (.writer remotePath))
  | _, .downloadFile remotePath localPath =>
    downloadFileDefault (retryWithBackoff config env (inner _ (.reader remotePath)))
      (disk.create localPath)
  | _, .asAny => asAnyDefault
  | _, .deletePrefix _ => deletePrefixDefault

/-- The methods that go through `retry_with_backoff`. -/
def StorageCall.retried {α : Type} : StorageCall σ Stream Tag α → Bool
  | .reader _ | .size _ | .metadata _ | .list _ | .delete _ | .copy _ _ | .createDir _
  | .createDirAll _ => true
  | _ => false

/-! ### When it is transparent -/

/-- No wait of an attempt overflows. -/
def WaitFits (config : RetryConfig) (env : RetryEnv) (attempt : Nat) : Prop :=
  let range := config.jitterRange attempt
  (config.jitterEnabled = true → 0 < range →
    if env.overflowChecks then 2 * range < 2 ^ 64 ∧ env.nanos attempt % (2 * range) < 2 ^ 63
    else 2 * range % 2 ^ 64 ≠ 0) ∧
    (env.overflowChecks = true → env.warnings = true → config.maxRetries + 1 < 2 ^ 32)

/-- The storage inside does what the body of the trait would, where the wrapper writes no method. -/
def AsTrait {α : Type} (disk : LocalDisk σ) (inner : DynStorage σ Stream Tag) (s : σ) :
    StorageCall σ Stream Tag α → Prop
  | .readRange path start end_ =>
    inner _ (.readRange path start end_) s = readRangeDefault (inner _ (.reader path)) start s
  | .streamingReader _ _ => False
  | .uploadFile localPath remotePath =>
    inner _ (.uploadFile localPath remotePath) s =
      uploadFileDefault (disk.read localPath) (inner _ (.writer remotePath)) s
  | .downloadFile remotePath localPath =>
    inner _ (.downloadFile remotePath localPath) s =
      downloadFileDefault (inner _ (.reader remotePath)) (disk.create localPath) s
  | .asAny => inner _ .asAny s = asAnyDefault s
  | .deletePrefix _ => False
  | _ => True

/-- A storage that never fails. -/
def NeverFails (inner : DynStorage σ Stream Tag) : Prop :=
  ∀ α call s, ∃ value s', inner α call s = some (.ok value, s')

/-- Reading and range reading of a local storage. -/
structure ServesFiles (inner : DynStorage FileSystem Stream Tag) (cwd : List FileName)
    (root : List PathComponent) (stats : Stats) : Prop where
  reader : ∀ path fs, inner _ (.reader path) fs = some (LocalStorage.reader cwd root path fs, fs)
  readRange : ∀ path start end_ fs, inner _ (.readRange path start end_) fs =
    some (LocalStorage.readRange cwd root stats path start end_ fs, fs)

/-! ### Skipping -/

/-- Skipping a buffer at a time skips as much as skipping at once. -/
theorem skip_eq {buffer : Nat} (positive : 0 < buffer) {rounds remaining : Nat}
    (enough : remaining ≤ rounds) (reader : Reader) :
    skip buffer rounds reader remaining = reader.readExact remaining := by
  have none_left (reader : Reader) : reader.readExact 0 = .ok reader := by
    simp [Reader.readExact]
  induction rounds generalizing reader remaining with
  | zero =>
    obtain rfl : remaining = 0 := Nat.le_zero.mp enough
    exact (none_left reader).symm
  | succ rounds ih =>
    unfold skip
    split
    · rename_i done
      rw [done, none_left]
    · rename_i more
      have step : 0 < min buffer remaining := Nat.lt_min.mpr ⟨positive, Nat.pos_of_ne_zero more⟩
      have part : min buffer remaining ≤ remaining := Nat.min_le_right _ _
      by_cases held : min buffer remaining ≤ reader.bytes.length
      · have taken : reader.readExact (min buffer remaining) =
            .ok { reader with bytes := reader.bytes.drop (min buffer remaining) } := if_pos held
        rw [taken]
        dsimp only
        rw [ih (by omega)]
        unfold Reader.readExact
        dsimp only
        rw [List.length_drop, List.drop_drop, Nat.add_sub_cancel' part]
        by_cases all : remaining ≤ reader.bytes.length
        · rw [if_pos all, if_pos (by omega)]
        · rw [if_neg all, if_neg (by omega)]
      · have short : reader.readExact (min buffer remaining) =
            .error (reader.fault.getD .unexpectedEof) := if_neg held
        have fewer : ¬remaining ≤ reader.bytes.length := by omega
        rw [short, Reader.readExact, if_neg fewer]

theorem skip_default (start : Nat) (reader : Reader) :
    skip (min 8192 start) start reader start = reader.readExact start := by
  by_cases some_ : start = 0
  · subst some_
    simp [skip, Reader.readExact]
  · apply skip_eq
    · omega
    · exact Nat.le_refl _

/-! ### Waiting -/

theorem asI64_of_small {value : Nat} (small : value < 2 ^ 63) : asI64 value = value := by
  unfold asI64
  dsimp only
  have low : (value : Int) % 2 ^ 64 = value := by omega
  rw [low, if_pos (by omega)]

theorem asI64_of_large {value : Nat} (large : 2 ^ 63 ≤ value) (bound : value < 2 ^ 64) :
    asI64 value = value - 2 ^ 64 := by
  unfold asI64
  dsimp only
  have low : (value : Int) % 2 ^ 64 = value := by omega
  rw [low, if_neg (by omega)]

/-- The jitter overflows exactly if the clock's part of it does not fit. -/
theorem jitter_fits_iff {range nanos : Nat} (positive : 0 < range) (small : 2 * range < 2 ^ 64) :
    ¬(asI64 (nanos % (2 * range) : Nat) - asI64 range < -2 ^ 63 ∨
        2 ^ 63 ≤ asI64 (nanos % (2 * range) : Nat) - asI64 range) ↔ nanos % (2 * range) < 2 ^ 63 := by
  have below : nanos % (2 * range) < 2 * range := Nat.mod_lt _ (by omega)
  have half : asI64 range = range := asI64_of_small (by omega)
  generalize nanos % (2 * range) = part at below ⊢
  by_cases fits : part < 2 ^ 63
  · rw [half, asI64_of_small fits]
    omega
  · rw [half, asI64_of_large (by omega) (by omega)]
    omega

theorem backoff_iff (config : RetryConfig) (env : RetryEnv) (attempt : Nat) :
    (backoffDuration config env attempt).isSome = true ↔
      (config.jitterEnabled = true → 0 < config.jitterRange attempt →
        if env.overflowChecks then
          2 * config.jitterRange attempt < 2 ^ 64 ∧
            env.nanos attempt % (2 * config.jitterRange attempt) < 2 ^ 63
        else 2 * config.jitterRange attempt % 2 ^ 64 ≠ 0) := by
  unfold backoffDuration
  dsimp only
  by_cases jittered : config.jitterEnabled = true ∧ 0 < config.jitterRange attempt
  · rw [if_pos jittered]
    have enter {goal : Prop} : (config.jitterEnabled = true → 0 < config.jitterRange attempt → goal) ↔
        goal := ⟨fun holds => holds jittered.1 jittered.2, fun holds _ _ => holds⟩
    rw [enter]
    cases env.overflowChecks with
    | false => simp
    | true =>
      by_cases small : 2 * config.jitterRange attempt < 2 ^ 64
      · have whole : 2 * config.jitterRange attempt % 2 ^ 64 = 2 * config.jitterRange attempt :=
          Nat.mod_eq_of_lt small
        have positive := jittered.2
        have fits := @jitter_fits_iff _ (env.nanos attempt) positive small
        have within : ¬(true = true ∧ 2 ^ 64 ≤ 2 * config.jitterRange attempt) :=
          fun both => absurd small (Nat.not_lt.mpr both.2)
        have some_ : ¬2 * config.jitterRange attempt = 0 := by omega
        rw [whole, if_neg within, if_neg some_, if_pos rfl, and_iff_right small, ← fits]
        split
        · rename_i overflow
          exact iff_of_false (by simp) (fun fine => fine overflow.2)
        · rename_i fine
          exact iff_of_true rfl (fun overflow => fine ⟨rfl, overflow⟩)
      · rw [if_pos ⟨rfl, Nat.not_lt.mp small⟩, if_pos rfl]
        exact iff_of_false (by simp) (fun both => small both.1)
  · rw [if_neg jittered]
    refine iff_of_true rfl fun enabled positive => absurd ⟨enabled, positive⟩ jittered

theorem waits_iff (config : RetryConfig) (env : RetryEnv) (attempt : Nat) :
    waits config env attempt = true ↔ WaitFits config env attempt := by
  unfold waits WaitFits
  rw [Bool.and_eq_true, backoff_iff]
  apply and_congr_right
  intro _
  cases env.overflowChecks with
  | false => simp
  | true =>
    cases env.warnings with
    | false => simp
    | true =>
      simp
      omega

/-! ### The wrapper -/

theorem retrying_retried {α : Type} (config : RetryConfig) (env : RetryEnv) (disk : LocalDisk σ)
    (inner : DynStorage σ Stream Tag) {call : StorageCall σ Stream Tag α}
    (retried : call.retried = true) :
    retrying config env disk inner α call = retryWithBackoff config env (inner α call) := by
  cases call with
  | reader | size | metadata | list | delete | copy | createDir | createDirAll => rfl
  | writer | exists_ | readRange | streamingReader | uploadFile | downloadFile | asAny
  | deletePrefix => cases retried

/-- What succeeds at once is not tried again. -/
theorem retryWithBackoff_of_never {α : Type} (config : RetryConfig) (env : RetryEnv)
    {inner : DynStorage σ Stream Tag} (never : NeverFails inner) (call : StorageCall σ Stream Tag α)
    (s : σ) : retryWithBackoff config env (inner α call) s = inner α call s := by
  obtain ⟨value, s', ran⟩ := never α call s
  rw [ran]
  exact Library.Action.retry_of_ok ran _ _

/-- Around a storage that never fails the wrapper does the same exactly where the storage does what the
trait does. -/
theorem retrying_same_iff {α : Type} (config : RetryConfig) (env : RetryEnv) (disk : LocalDisk σ)
    {inner : DynStorage σ Stream Tag} (never : NeverFails inner) (call : StorageCall σ Stream Tag α)
    (s : σ) : retrying config env disk inner α call s = inner α call s ↔ AsTrait disk inner s call := by
  have once {β : Type} (call : StorageCall σ Stream Tag β) (s : σ) :=
    retryWithBackoff_of_never config env never call s
  cases call with
  | reader path => exact iff_of_true (once _ s) trivial
  | writer path => exact iff_of_true rfl trivial
  | exists_ path => exact iff_of_true rfl trivial
  | size path => exact iff_of_true (once _ s) trivial
  | metadata path => exact iff_of_true (once _ s) trivial
  | list path => exact iff_of_true (once _ s) trivial
  | delete path => exact iff_of_true (once _ s) trivial
  | copy source target => exact iff_of_true (once _ s) trivial
  | createDir path => exact iff_of_true (once _ s) trivial
  | createDirAll path => exact iff_of_true (once _ s) trivial
  | readRange path start end_ =>
    have same : retrying config env disk inner _ (.readRange path start end_) s =
        readRangeDefault (inner _ (.reader path)) start s :=
      Library.Action.bind_congr (once (.reader path) s) _
    rw [same]
    exact eq_comm
  | streamingReader path streaming =>
    obtain ⟨value, s', ran⟩ := never _ (.streamingReader path streaming) s
    refine iff_of_false (fun same => ?_) not_false
    rw [ran] at same
    cases same
  | uploadFile localPath remotePath => exact eq_comm
  | downloadFile remotePath localPath =>
    have same : retrying config env disk inner _ (.downloadFile remotePath localPath) s =
        downloadFileDefault (inner _ (.reader remotePath)) (disk.create localPath) s :=
      Library.Action.bind_congr (once (.reader remotePath) s) _
    rw [same]
    exact eq_comm
  | asAny => exact eq_comm
  | deletePrefix path =>
    obtain ⟨value, s', ran⟩ := never _ (.deletePrefix path) s
    refine iff_of_false (fun same => ?_) not_false
    rw [ran] at same
    cases same

/-- A retried call gives the first outcome that is not worth another attempt, exactly if no wait before
it overflows. -/
theorem retrying_settles_iff {α : Type} {config : RetryConfig} {env : RetryEnv} {disk : LocalDisk σ}
    {inner : DynStorage σ Stream Tag} {call : StorageCall σ Stream Tag α} {errors : Nat} {s : σ}
    {last : Except OperationError α × σ} (retried : call.retried = true)
    (settles : Library.Action.Settles OperationError.isRetryable (inner α call) errors s last)
    (within : errors ≤ config.maxRetries) :
    retrying config env disk inner α call s = some last ↔ ∀ i < errors, WaitFits config env i := by
  rw [retrying_retried config env disk inner retried, retryWithBackoff,
    Library.Action.retry_iff settles within 0]
  apply forall₂_congr
  intro i _
  rw [Nat.zero_add, waits_iff]

/-! ### Local files -/

section
variable {cwd : List FileName} {root full : List PathComponent} {stats : Stats} {path : List Char}
variable {fs : FileSystem} {bytes : List UInt8}

theorem local_reader (resolved : fullPath root path = .ok full)
    (held : fs.lookup (place cwd full) = some (.file bytes)) :
    LocalStorage.reader cwd root path fs = .ok ⟨bytes, none⟩ := by
  unfold LocalStorage.reader FileSystem.openFile
  rw [resolved]
  dsimp only
  rw [held]

/-- A range of a local file is exactly its bytes. -/
theorem local_readRange (resolved : fullPath root path = .ok full)
    (held : fs.lookup (place cwd full) = some (.file bytes)) {start : Nat} {end_ : Option Nat}
    (ordered : start ≤ end_.getD bytes.length) (within : end_.getD bytes.length ≤ bytes.length) :
    LocalStorage.readRange cwd root stats path start end_ fs =
      .ok ⟨(bytes.drop start).take (end_.getD bytes.length - start), none⟩ := by
  have size : LocalStorage.size cwd root stats path fs = .ok bytes.length := by
    unfold LocalStorage.size LocalStorage.metadata
    rw [resolved]
    dsimp only
    rw [held]
    rfl
  have opened : fs.openFile (place cwd full) = .ok ⟨bytes, none⟩ := by
    unfold FileSystem.openFile
    rw [held]
  have enough : end_.getD bytes.length - start ≤ bytes.length - start := by omega
  unfold LocalStorage.readRange
  cases end_ with
  | none =>
    rw [Option.getD_none] at ordered within enough ⊢
    have fine : ¬bytes.length < start := Nat.not_lt.mpr ordered
    simp only [resolved, size, opened, Except.mapError, bind, Except.bind, fine, if_false]
    rw [List.length_drop, if_pos enough]
    split
    · rename_i nothing
      rw [nothing, List.take_zero]
      rfl
    · rfl
  | some stop =>
    rw [Option.getD_some] at ordered within enough ⊢
    have fine : ¬stop < start := Nat.not_lt.mpr ordered
    simp only [resolved, opened, Except.mapError, bind, Except.bind, pure, Except.pure, fine, if_false]
    rw [List.length_drop, if_pos enough]
    split
    · rename_i nothing
      rw [nothing, List.take_zero]
    · rfl

/-- Around local files the wrapper reads on to the end of the file. -/
theorem retrying_local_range {config : RetryConfig} {env : RetryEnv} {disk : LocalDisk FileSystem}
    {inner : DynStorage FileSystem Stream Tag} (serves : ServesFiles inner cwd root stats)
    (resolved : fullPath root path = .ok full)
    (held : fs.lookup (place cwd full) = some (.file bytes)) {start : Nat}
    (inside : start ≤ bytes.length) (end_ : Option Nat) :
    retrying config env disk inner _ (.readRange path start end_) fs =
      some (.ok ⟨bytes.drop start, none⟩, fs) := by
  have read : retryWithBackoff config env (inner _ (.reader path)) fs =
      some (.ok ⟨bytes, none⟩, fs) := by
    apply Library.Action.retry_of_ok
    rw [serves.reader, local_reader resolved held]
  have skipped : skip (min 8192 start) start ⟨bytes, none⟩ start = .ok ⟨bytes.drop start, none⟩ := by
    rw [skip_default, Reader.readExact, if_pos inside]
  unfold retrying readRangeDefault
  dsimp only
  rw [Library.Action.bind_of_ok read, skipped]
  rfl

/-- A local file's range is read exactly, by the wrapper only if it ends with the file. -/
theorem local_range_iff {config : RetryConfig} {env : RetryEnv} {disk : LocalDisk FileSystem}
    {inner : DynStorage FileSystem Stream Tag} (serves : ServesFiles inner cwd root stats)
    (resolved : fullPath root path = .ok full)
    (held : fs.lookup (place cwd full) = some (.file bytes)) {start : Nat} {end_ : Option Nat}
    (ordered : start ≤ end_.getD bytes.length) (within : end_.getD bytes.length ≤ bytes.length) :
    inner _ (.readRange path start end_) fs =
        some (.ok ⟨(bytes.drop start).take (end_.getD bytes.length - start), none⟩, fs) ∧
      (retrying config env disk inner _ (.readRange path start end_) fs =
          inner _ (.readRange path start end_) fs ↔
        end_.getD bytes.length = bytes.length) := by
  have range : inner _ (.readRange path start end_) fs =
      some (.ok ⟨(bytes.drop start).take (end_.getD bytes.length - start), none⟩, fs) := by
    rw [serves.readRange, local_readRange resolved held ordered within]
  refine ⟨range, ?_⟩
  rw [range, retrying_local_range serves resolved held (ordered.trans within)]
  constructor
  · intro same
    have taken : bytes.drop start = (bytes.drop start).take (end_.getD bytes.length - start) := by
      simpa using same
    have count := congrArg List.length taken
    rw [List.length_take, List.length_drop] at count
    omega
  · intro last
    rw [last, List.take_of_length_le (Nat.le_of_eq List.length_drop)]

end

/-- The wrapper retries as it should exactly if no wait overflows. Around a storage that never fails it
gives the storage's own results exactly where the storage does what the trait does, which is never so for
`streaming_reader` and `delete_prefix`; around local files a range is read exactly only if it ends with the
file. -/
theorem wrapper_transparent_iff (config : RetryConfig) (env : RetryEnv) (disk : LocalDisk σ)
    (inner : DynStorage σ Stream Tag) :
    (∀ α (call : StorageCall σ Stream Tag α) errors s last, call.retried = true →
        Library.Action.Settles OperationError.isRetryable (inner α call) errors s last →
        errors ≤ config.maxRetries →
        (retrying config env disk inner α call s = some last ↔
          ∀ i < errors, WaitFits config env i)) ∧
      (NeverFails inner → ∀ α (call : StorageCall σ Stream Tag α) s,
        (retrying config env disk inner α call s = inner α call s ↔ AsTrait disk inner s call)) ∧
      ∀ (files : LocalDisk FileSystem) (storage : DynStorage FileSystem Stream Tag) cwd root stats path
        full fs bytes start (end_ : Option Nat),
        ServesFiles storage cwd root stats → fullPath root path = .ok full →
        fs.lookup (place cwd full) = some (.file bytes) →
        start ≤ end_.getD bytes.length → end_.getD bytes.length ≤ bytes.length →
        storage _ (.readRange path start end_) fs =
            some (.ok ⟨(bytes.drop start).take (end_.getD bytes.length - start), none⟩, fs) ∧
          (retrying config env files storage _ (.readRange path start end_) fs =
              storage _ (.readRange path start end_) fs ↔
            end_.getD bytes.length = bytes.length) := by
  refine ⟨fun _ _ _ _ _ retried settles within => retrying_settles_iff retried settles within,
    fun never _ call s => retrying_same_iff config env disk never call s, ?_⟩
  intro _ _ _ _ _ _ _ _ _ _ _ serves resolved held ordered within
  exact local_range_iff serves resolved held ordered within

/-! ### A storage with one file -/

/-- Every call succeeds, but for the first call for a size, which may time out. -/
def threeBytes (slow : Bool) : DynStorage Nat Unit Unit
  | _, .reader _ => fun s => some (.ok ⟨[1, 2, 3], none⟩, s)
  | _, .writer _ => fun s => some (.ok ⟨fun _ => pure (), pure ()⟩, s)
  | _, .exists_ _ => fun s => some (.ok true, s)
  | _, .size _ => fun s =>
    if slow ∧ s = 0 then some (.error (.timeout "slow".toList), 1) else some (.ok 3, s)
  | _, .metadata path => fun s => some (.ok ⟨path, 3, none, none, false⟩, s)
  | _, .list _ => fun s => some (.ok [], s)
  | _, .delete _ => fun s => some (.ok (), s)
  | _, .copy _ _ => fun s => some (.ok (), s)
  | _, .createDir _ => fun s => some (.ok (), s)
  | _, .createDirAll _ => fun s => some (.ok (), s)
  | _, .readRange _ start end_ => fun s =>
    some (.ok ⟨([1, 2, 3].drop start).take (end_.getD 3 - start), none⟩, s)
  | _, .streamingReader _ _ => fun s => some (.ok (), s)
  | _, .uploadFile _ _ => fun s => some (.ok 3, s)
  | _, .downloadFile _ _ => fun s => some (.ok 3, s)
  | _, .asAny => fun s => some (.ok none, s)
  | _, .deletePrefix _ => fun s => some (.ok 1, s)

def noDisk : LocalDisk Nat := ⟨fun _ => pure [], fun _ => pure ⟨fun _ => pure (), pure ()⟩⟩

def plainConfig : RetryConfig := ⟨5, false, fun _ => 100, fun _ => 15⟩

def plainEnv : RetryEnv := ⟨true, true, fun _ => 0⟩

/-- A size is found at the second attempt. -/
theorem slow_size_found : retrying plainConfig plainEnv noDisk (threeBytes true) _ (.size "f".toList) 0 =
    some (.ok 3, 1) := by
  have settles : Library.Action.Settles OperationError.isRetryable
      (threeBytes true _ (.size "f".toList)) 1 0 (.ok 3, 1) := by
    apply Library.Action.Settles.later rfl rfl
    exact Library.Action.Settles.now rfl (fun _ same => by cases same)
  apply ((wrapper_transparent_iff plainConfig plainEnv noDisk (threeBytes true)).1 _ _ 1 0 _ rfl settles
    (by decide)).mpr
  intro i before
  obtain rfl : i = 0 := Nat.lt_one_iff.mp before
  unfold WaitFits
  dsimp only
  constructor
  · intro enabled
    exact absurd enabled (by decide)
  · intro _ _
    decide

theorem threeBytes_never_fails : NeverFails (threeBytes false) := by
  intro α call s
  cases call with
  | reader | writer | exists_ | size | metadata | list | delete | copy | createDir | createDirAll
  | readRange | streamingReader | uploadFile | downloadFile | asAny | deletePrefix =>
    exact ⟨_, _, rfl⟩

/-- A range that ends before the file does is read on to its end. -/
theorem range_read_on : ¬∀ (config : RetryConfig) (env : RetryEnv) (disk : LocalDisk Nat)
    (inner : DynStorage Nat Unit Unit), NeverFails inner → ∀ path start end_ s,
      retrying config env disk inner _ (.readRange path start end_) s =
        inner _ (.readRange path start end_) s := by
  intro transparent
  have range := transparent plainConfig plainEnv noDisk (threeBytes false) threeBytes_never_fails
    "f".toList 0 (some 1) 0
  have whole : retrying plainConfig plainEnv noDisk (threeBytes false) _
      (.readRange "f".toList 0 (some 1)) 0 = some (.ok ⟨[1, 2, 3], none⟩, 0) := rfl
  have one : threeBytes false _ (.readRange "f".toList 0 (some 1)) 0 = some (.ok ⟨[1], none⟩, 0) := rfl
  rw [whole, one] at range
  cases range

end Roboflow.Storage
