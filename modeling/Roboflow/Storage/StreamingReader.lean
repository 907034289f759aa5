import Roboflow.Library.GoodSteps
import Roboflow.Library.Streams
import Roboflow.Storage.CachedStorage

/-! Streaming readers, `streaming.rs`: one of an object that is fetched in chunks, with the chunk of
the last fetch kept, and one of a local file. An object's size, the offsets and the chunk size are 64
bits wide, and the sum of two of them is not checked. -/
namespace Roboflow.Storage
open Library

/-- `get_range` of an object store, with the offsets of a range whose end is exclusive. -/
abbrev GetRange := Nat → Nat → Except String Bytes

/-! ### The reader of an object -/

structure StreamingOssReader where
  objectSize : Nat
  position : Nat
  chunkSize : UInt64
  currentBuffer : Option Bytes
  bufferOffset : Nat

/-- What a call gives. Where the code would index or subtract out of range, it panics. -/
inductive StreamOut where
  | read (bytes : Bytes)
  | sought
  | failed (message : String)
  | panicked
  deriving DecidableEq

inductive StreamCall where
  | read (length : Nat)
  | seekTo (offset : Nat)
  deriving DecidableEq

namespace StreamingOssReader

def new (objectSize : Nat) (chunkSize : UInt64) : StreamingOssReader :=
  ⟨objectSize, 0, chunkSize, none, 0⟩

def needsFetch (r : StreamingOssReader) : Bool :=
  match r.currentBuffer with
  | none => true
  | some buffer => r.bufferOffset + buffer.length ≤ r.position

/-- `fetch_chunk_at`. The sum wraps. -/
def fetchChunkAt (r : StreamingOssReader) (getRange : GetRange) (start : Nat) :
    Except String Bytes :=
  match getRange start (min ((start + r.chunkSize.toNat) % 2 ^ 64) r.objectSize) with
  | .ok chunk => .ok chunk
  | .error message => .error s!"Failed to fetch range: {message}"

def ensureBuffer (r : StreamingOssReader) (getRange : GetRange) :
    Except String StreamingOssReader :=
  if r.needsFetch then
    if r.objectSize ≤ r.position then .ok r
    else
      match r.fetchChunkAt getRange r.position with
      | .ok chunk => .ok { r with bufferOffset := r.position, currentBuffer := some chunk }
      | .error message => .error message
  else .ok r

def bufferPosition (r : StreamingOssReader) : Nat :=
  if r.position < r.bufferOffset then 0 else r.position - r.bufferOffset

/-- The rest of `read`, once there is a buffer. -/
def copyBuffered (r : StreamingOssReader) (buffer : Bytes) (length : Nat) :
    StreamingOssReader × StreamOut :=
  if buffer.length < r.bufferPosition then (r, .panicked)
  else
    let toRead := min (buffer.length - r.bufferPosition) length
    if 0 < toRead then
      ({ r with position := r.position + toRead },
        .read ((buffer.drop r.bufferPosition).take toRead))
    else (r, .read [])

/-- `read` into a buffer of a length. -/
def read (r : StreamingOssReader) (getRange : GetRange) (length : Nat) :
    StreamingOssReader × StreamOut :=
  if r.objectSize ≤ r.position then (r, .read [])
  else
    match r.ensureBuffer getRange with
    | .error message => (r, .failed message)
    | .ok r =>
      match r.currentBuffer with
      | none => (r, .read [])
      | some buffer => r.copyBuffered buffer length

def seekTo (r : StreamingOssReader) (offset : Nat) : StreamingOssReader × StreamOut :=
  if r.objectSize < offset then
    (r, .failed s!"Seek offset {offset} exceeds object size {r.objectSize}")
  else ({ r with position := offset, currentBuffer := none, bufferOffset := 0 }, .sought)

def call (r : StreamingOssReader) (getRange : GetRange) : StreamCall → StreamingOssReader × StreamOut
  | .read length => r.read getRange length
  | .seekTo offset => r.seekTo offset

def machine (getRange : GetRange) : Machine StreamingOssReader StreamCall StreamOut where
  step r call := some (r.call getRange call)

end StreamingOssReader

/-! ### The reader of a local file -/

/-- The cursor of the buffered file is its own; seeking moves both. -/
structure StreamingLocalReader where
  inner : Nat
  position : Nat

/-- A call, with how many bytes the file gives to a read. -/
structure LocalCall where
  call : StreamCall
  gives : Nat

namespace StreamingLocalReader

def new : StreamingLocalReader := ⟨0, 0⟩

/-- What a buffered file reads: something, if there is anything and room for it. -/
def innerRead (content : Bytes) (inner length gives : Nat) : Bytes :=
  (content.drop inner).take (min (max 1 gives) length)

/-- A file has no offsets from `2 ^ 63`. -/
def call (r : StreamingLocalReader) (content : Bytes) (c : LocalCall) :
    StreamingLocalReader × StreamOut :=
  match c.call with
  | .read length =>
    let bytes := innerRead content r.inner length c.gives
    (⟨r.inner + bytes.length, r.position + bytes.length⟩, .read bytes)
  | .seekTo offset =>
    if 2 ^ 63 ≤ offset then (r, .failed "Invalid argument") else (⟨offset, offset⟩, .sought)

def machine (content : Bytes) : Machine StreamingLocalReader LocalCall StreamOut where
  step r c := some (r.call content c)

end StreamingLocalReader

/-! ### What is promised -/

/-- The bytes a call gave. -/
def StreamOut.bytes : StreamOut → Bytes
  | .read bytes => bytes
  | _ => []

/-- What calls gave, the oldest first. -/
def given (history : History σ α StreamOut) : List Bytes :=
  history.reverse.map fun e => e.out.bytes

/-- Reads only, with room for something. -/
def OnlyReads (asked : α → StreamCall) (history : History σ α StreamOut) : Prop :=
  ∀ e ∈ history, ∃ length, 0 < length ∧ asked e.act = .read length

/-- Reads up to one that gave nothing. -/
def ReadToEnd (asked : α → StreamCall) (history : History σ α StreamOut) : Prop :=
  OnlyReads asked history ∧ ∃ e ∈ history.head?, e.out = .read []

/-- Each read gives what the content has at the position. -/
def ReadsFollow (content : Bytes) (position : σ → Nat) (asked : α → StreamCall)
    (history : History σ α StreamOut) : Prop :=
  ∀ e ∈ history, ∀ length, asked e.act = .read length →
    ∃ bytes, e.out = .read bytes ∧ ReadsAt content (position e.pre) length bytes (position e.post)

theorem reads_from {m : Machine σ α StreamOut} {position : σ → Nat} {asked : α → StreamCall}
    (run : Run m s reads t) (only : OnlyReads asked reads)
    (follow : ReadsFollow content position asked reads) :
    ReadsFrom content (position s) (given reads) (position t) := by
  induction run with
  | start => exact .start
  | @next history s a s' out before moved ih =>
    obtain ⟨length, room, read⟩ := only _ List.mem_cons_self
    obtain ⟨bytes, rfl, here⟩ := follow _ List.mem_cons_self length read
    have earlier := ih (fun e member => only e (List.mem_cons_of_mem _ member))
      fun e member => follow e (List.mem_cons_of_mem _ member)
    have more := earlier.next here room
    simpa [given, StreamOut.bytes] using more

theorem given_of_ended {m : Machine σ α StreamOut} {position : σ → Nat} {asked : α → StreamCall}
    (run : Run m s reads t) (ended : ReadToEnd asked reads)
    (follow : ReadsFollow content position asked reads) :
    (given reads).flatten = content.drop (position s) := by
  obtain ⟨only, e, head, nothing⟩ := ended
  refine (reads_from run only follow).flatten_of_ended ?_
  unfold given
  rw [List.getLast?_map, List.getLast?_reverse, Option.mem_def.mp head]
  simp [nothing, StreamOut.bytes]

theorem reads_bounded {m : Machine σ α StreamOut} {position : σ → Nat} {asked : α → StreamCall}
    (run : Run m s reads t) (only : OnlyReads asked reads)
    (follow : ReadsFollow content position asked reads)
    (some_ : ∀ e ∈ reads, e.out ≠ .read []) : reads.length ≤ content.length - position s := by
  have bound := (reads_from run only follow).length_le ?_
  · simpa [given] using bound
  · intro bytes member
    obtain ⟨e, listed, rfl⟩ := List.mem_map.mp member
    have listed := List.mem_reverse.mp listed
    obtain ⟨length, -, read⟩ := only e listed
    obtain ⟨bytes, out, -⟩ := follow e listed length read
    intro nothing
    refine some_ e listed ?_
    rw [out] at nothing ⊢
    exact congrArg StreamOut.read nothing

/-! ### The reader of a local file reads to its end -/

namespace StreamingLocalReader

theorem innerRead_reads (content : Bytes) (inner length gives : Nat) :
    ReadsAt content inner length (innerRead content inner length gives)
      (inner + (innerRead content inner length gives).length) := by
  unfold innerRead
  refine ⟨?_, ?_, fun nothing => ?_, rfl⟩
  · exact List.prefix_iff_eq_take.mp (List.take_prefix _ _)
  · rw [List.length_take]
    omega
  · have none_ := congrArg List.length nothing
    rw [List.length_take, List.length_drop, List.length_nil] at none_
    omega

/-- The tracked position stays that of the file, and a read gives what is there. -/
theorem call_follows (tracked : r.inner = r.position)
    (moved : (machine content).step r c = some (r', out)) :
    r'.inner = r'.position ∧ ∀ length, c.call = .read length →
      ∃ bytes, out = .read bytes ∧ ReadsAt content r.position length bytes r'.position := by
  obtain ⟨inner, position⟩ := r
  obtain rfl : inner = position := tracked
  obtain ⟨asked, gives⟩ := c
  have moved := Option.some.inj moved
  cases asked with
  | read length =>
    obtain ⟨rfl, rfl⟩ := Prod.mk.inj moved
    refine ⟨rfl, fun length same => ?_⟩
    obtain rfl := StreamCall.read.inj same
    exact ⟨_, rfl, innerRead_reads content inner _ gives⟩
  | seekTo offset =>
    refine ⟨?_, fun length same => ?_⟩
    · by_cases large : 2 ^ 63 ≤ offset
      · obtain ⟨rfl, rfl⟩ := Prod.mk.inj ((if_pos large).symm.trans moved)
        rfl
      · obtain ⟨rfl, rfl⟩ := Prod.mk.inj ((if_neg large).symm.trans moved)
        rfl
    · cases same

theorem tracked_of_run (run : Run (machine content) r history r') (tracked : r.inner = r.position) :
    r'.inner = r'.position :=
  run.invariant (P := fun r => r.inner = r.position) tracked
    fun _ _ _ _ same moved => (call_follows same moved).1

theorem reads_follow (run : Run (machine content) r reads r') (tracked : r.inner = r.position) :
    ReadsFollow content position LocalCall.call reads := by
  intro e member
  obtain ⟨older, before, moved⟩ := run.recorded member
  exact (call_follows (tracked_of_run before tracked) moved).2

/-- After any calls, reading to the end gives the rest of the file. -/
theorem local_to_end (run : Run (machine content) new earlier r)
    (more : Run (machine content) r reads r') (ended : ReadToEnd LocalCall.call reads) :
    (given reads).flatten = content.drop r.position :=
  given_of_ended more ended (reads_follow more (tracked_of_run run rfl))

end StreamingLocalReader

/-! ### The reader of an object -/

/-- An object store gives exactly the bytes of a range of the object, and refuses a range that ends
before it starts. -/
structure Serves (content : Bytes) (getRange : GetRange) : Prop where
  served : ∀ start stop, start < stop → stop ≤ content.length →
    getRange start stop = .ok ((content.drop start).take (stop - start))
  refused : ∀ start stop, stop < start → ∃ message, getRange start stop = .error message

namespace StreamingOssReader

/-- A read gives what the object has at the position, and a seek moves to its offset unless that is
beyond the object, where it changes nothing. -/
structure FollowsObject (content : Bytes)
    (e : Transition StreamingOssReader StreamCall StreamOut) : Prop where
  read : ∀ length, e.act = .read length → ∃ bytes, e.out = .read bytes ∧
    ReadsAt content e.pre.position length bytes e.post.position
  seek : ∀ offset, e.act = .seekTo offset →
    if content.length < offset then (∃ message, e.out = .failed message) ∧ e.post = e.pre
    else e.out = .sought ∧ e.post.position = offset

/-- A chunk to be fetched ends at an offset that 64 bits hold, or at the end of the object. -/
def Addressable (r : StreamingOssReader) : StreamCall → Prop
  | .read _ => r.needsFetch = true → r.position < r.objectSize →
    r.position + r.chunkSize.toNat < 2 ^ 64
  | .seekTo _ => True

instance (r : StreamingOssReader) : (c : StreamCall) → Decidable (r.Addressable c)
  | .read _ => inferInstanceAs (Decidable (r.needsFetch = true → r.position < r.objectSize →
      r.position + r.chunkSize.toNat < 2 ^ 64))
  | .seekTo _ => .isTrue trivial

/-- The buffer holds a piece of the object that the position is in or at the end of. -/
structure Buffered (content : Bytes) (r : StreamingOssReader) : Prop where
  size : r.objectSize = content.length
  positive : r.chunkSize ≠ 0
  within : r.position ≤ content.length
  buffer : ∀ b ∈ r.currentBuffer, b <+: content.drop r.bufferOffset ∧
    r.bufferOffset ≤ r.position ∧ r.position ≤ r.bufferOffset + b.length

theorem buffered_new {chunkSize : UInt64} (positive : chunkSize ≠ 0) (content : Bytes) :
    Buffered content (new content.length chunkSize) := by
  refine ⟨rfl, positive, Nat.zero_le _, fun b member => ?_⟩
  cases member

/-- What is in the buffer from the position on is in the object there. -/
theorem buffer_at {r : StreamingOssReader} {buffer : Bytes} (held : Buffered content r)
    (some_ : r.currentBuffer = some buffer) {n : Nat}
    (enough : r.position + n ≤ r.bufferOffset + buffer.length) :
    (buffer.drop r.bufferPosition).take n = (content.drop r.position).take n ∧
      r.position + n ≤ content.length := by
  obtain ⟨⟨rest, whole⟩, low, -⟩ := held.buffer buffer some_
  have start : r.bufferPosition = r.position - r.bufferOffset := if_neg (not_lt.mpr low)
  have lengths := congrArg List.length whole
  rw [List.length_append, List.length_drop] at lengths
  have within := held.within
  refine ⟨?_, by omega⟩
  have shifted : content.drop r.position = buffer.drop r.bufferPosition ++ rest := by
    have position : r.position = r.bufferOffset + r.bufferPosition := by omega
    rw [position, ← List.drop_drop, ← whole, List.drop_append_of_le_length (by omega)]
  rw [shifted, List.take_append_of_le_length]
  rw [List.length_drop]
  omega

/-- From a buffer that reaches beyond the position. -/
theorem copyBuffered_reads {r : StreamingOssReader} {buffer : Bytes} (held : Buffered content r)
    (some_ : r.currentBuffer = some buffer) (beyond : r.position < r.bufferOffset + buffer.length)
    (length : Nat) :
    ∃ bytes, (r.copyBuffered buffer length).2 = .read bytes ∧
      ReadsAt content r.position length bytes (r.copyBuffered buffer length).1.position ∧
      Buffered content (r.copyBuffered buffer length).1 := by
  obtain ⟨piece, low, -⟩ := held.buffer buffer some_
  have start : r.bufferPosition = r.position - r.bufferOffset := if_neg (not_lt.mpr low)
  unfold copyBuffered
  rw [if_neg (by omega)]
  dsimp only
  split
  · rename_i some_to_read
    obtain ⟨same, within⟩ := buffer_at (n := min (buffer.length - r.bufferPosition) length) held some_
      (by omega)
    refine ⟨_, rfl, ?_, held.size, held.positive, within, fun b member => ?_⟩
    · rw [same]
      exact .take (by omega) within (.inl some_to_read)
    · obtain rfl := Option.some.inj (some_.symm.trans member)
      refine ⟨piece, ?_, ?_⟩
      · dsimp only
        omega
      · dsimp only
        omega
  · have none_ : length = 0 := by omega
    refine ⟨[], rfl, ?_, held⟩
    exact ⟨rfl, Nat.zero_le _, fun _ => .inl none_, rfl⟩

/-- A buffer that reaches beyond the position, fetched if need be. -/
theorem ensureBuffer_ok {r : StreamingOssReader} (serves : Serves content getRange)
    (held : Buffered content r) (left : r.position < content.length)
    (addressable : r.needsFetch = true → r.position + r.chunkSize.toNat < 2 ^ 64) :
    ∃ r' buffer, r.ensureBuffer getRange = .ok r' ∧ r'.position = r.position ∧
      Buffered content r' ∧ r'.currentBuffer = some buffer ∧
      r'.position < r'.bufferOffset + buffer.length := by
  have size := held.size
  cases fetch : r.needsFetch with
  | false =>
    unfold needsFetch at fetch
    split at fetch
    · cases fetch
    · rename_i buffer some_
      refine ⟨r, buffer, ?_, rfl, held, some_, by simpa using fetch⟩
      unfold ensureBuffer needsFetch
      simp only [some_, fetch, Bool.false_eq_true, if_false]
  | true =>
    have positive : 0 < r.chunkSize.toNat := Nat.pos_of_ne_zero fun zero =>
      held.positive (UInt64.toNat_inj.mp zero)
    have chunk := serves.served r.position
      (min ((r.position + r.chunkSize.toNat) % 2 ^ 64) r.objectSize) (by
        rw [Nat.mod_eq_of_lt (addressable fetch), size]
        omega) (by omega)
    have fetched : r.ensureBuffer getRange = .ok { r with
        bufferOffset := r.position
        currentBuffer := some ((content.drop r.position).take
          (min ((r.position + r.chunkSize.toNat) % 2 ^ 64) r.objectSize - r.position)) } := by
      unfold ensureBuffer fetchChunkAt
      rw [if_pos fetch, if_neg (by omega), chunk]
    rw [Nat.mod_eq_of_lt (addressable fetch)] at fetched
    have length : ((content.drop r.position).take
        (min (r.position + r.chunkSize.toNat) r.objectSize - r.position)).length =
          min (r.position + r.chunkSize.toNat) r.objectSize - r.position := by
      rw [List.length_take, List.length_drop]
      omega
    refine ⟨_, _, fetched, rfl, ⟨size, held.positive, held.within, fun b member => ?_⟩, rfl, ?_⟩
    · obtain rfl := Option.some.inj member
      exact ⟨List.take_prefix _ _, le_rfl, Nat.le_add_right _ _⟩
    · dsimp only
      rw [length]
      omega

theorem ensureBuffer_refused {r : StreamingOssReader} (serves : Serves content getRange)
    (held : Buffered content r) (left : r.position < content.length)
    (fetch : r.needsFetch = true) (wraps : 2 ^ 64 ≤ r.position + r.chunkSize.toNat) :
    ∃ message, r.ensureBuffer getRange = .error message := by
  have small := r.chunkSize.toNat_lt
  obtain ⟨message, refused⟩ := serves.refused r.position
    (min ((r.position + r.chunkSize.toNat) % 2 ^ 64) r.objectSize) (by omega)
  unfold ensureBuffer fetchChunkAt
  rw [if_pos fetch, if_neg (by rw [held.size]; omega), refused]
  exact ⟨_, rfl⟩

theorem follows_read {r r' : StreamingOssReader} {bytes : Bytes}
    (reads : ReadsAt content r.position length bytes r'.position) :
    FollowsObject content ⟨r, .read length, .read bytes, r'⟩ := by
  refine ⟨fun asked same => ?_, fun offset same => ?_⟩
  · obtain rfl := StreamCall.read.inj same
    exact ⟨bytes, rfl, reads⟩
  · cases same

theorem read_judged {r : StreamingOssReader} (serves : Serves content getRange)
    (held : Buffered content r) (length : Nat) :
    (FollowsObject content ⟨r, .read length, (r.read getRange length).2,
        (r.read getRange length).1⟩ ↔ r.Addressable (.read length)) ∧
      (r.Addressable (.read length) → Buffered content (r.read getRange length).1) := by
  have size := held.size
  unfold read
  by_cases ended : r.objectSize ≤ r.position
  · rw [if_pos ended]
    refine ⟨iff_of_true ?_ fun _ left => absurd left (not_lt.mpr ended), fun _ => held⟩
    exact follows_read (.at_end (size ▸ ended))
  · rw [if_neg ended]
    have left : r.position < content.length := by omega
    by_cases addressable : r.needsFetch = true → r.position + r.chunkSize.toNat < 2 ^ 64
    · obtain ⟨r', buffer, fetched, same, held', some_, beyond⟩ :=
        ensureBuffer_ok serves held left addressable
      obtain ⟨bytes, out, reads, after⟩ := copyBuffered_reads held' some_ beyond length
      rw [fetched]
      dsimp only
      rw [some_]
      dsimp only
      refine ⟨iff_of_true ?_ fun fetch _ => addressable fetch, fun _ => after⟩
      rw [out]
      rw [same] at reads
      exact follows_read reads
    · obtain ⟨fetch, wraps⟩ := Classical.not_imp.mp addressable
      obtain ⟨message, refused⟩ := ensureBuffer_refused serves held left fetch (not_lt.mp wraps)
      have unmet : ¬r.Addressable (.read length) := fun met =>
        wraps (met fetch (not_le.mp ended))
      rw [refused]
      refine ⟨iff_of_false (fun follows => ?_) unmet, fun met => absurd met unmet⟩
      obtain ⟨bytes, out, -⟩ := follows.read length rfl
      cases out

theorem seek_judged {r : StreamingOssReader} (held : Buffered content r) (offset : Nat) :
    FollowsObject content ⟨r, .seekTo offset, (r.seekTo offset).2, (r.seekTo offset).1⟩ ∧
      Buffered content (r.seekTo offset).1 := by
  unfold seekTo
  rw [held.size]
  refine ⟨⟨fun _ same => ?_, fun asked same => ?_⟩, ?_⟩
  · cases same
  · obtain rfl := StreamCall.seekTo.inj same
    split
    · exact ⟨⟨_, rfl⟩, rfl⟩
    · exact ⟨rfl, rfl⟩
  · split
    · exact held
    · rename_i within
      refine ⟨rfl, held.positive, not_lt.mp within, fun b member => ?_⟩
      cases member

theorem judged (serves : Serves content getRange) :
    Judged (machine getRange) (Buffered content) (FollowsObject content) Addressable := by
  refine ⟨fun r c r' out held moved => ?_, fun r c r' out held moved met => ?_⟩
  · obtain ⟨rfl, rfl⟩ := Prod.mk.inj (Option.some.inj moved)
    cases c with
    | read length => exact (read_judged serves held length).1
    | seekTo offset => exact iff_of_true (seek_judged held offset).1 trivial
  · obtain ⟨rfl, rfl⟩ := Prod.mk.inj (Option.some.inj moved)
    cases c with
    | read length => exact (read_judged serves held length).2 met
    | seekTo offset => exact (seek_judged held offset).2

/-- Each call follows the object; reads that find something come to an end, and then they have given
the rest of the object, as they do of a local file of this content. -/
structure StreamsObject (content : Bytes) (getRange : GetRange) (start : StreamingOssReader)
    (history : History StreamingOssReader StreamCall StreamOut) : Prop where
  steps : ∀ e ∈ history, FollowsObject content e
  bounded : ∀ r r' earlier reads, Run (machine getRange) start earlier r →
    Run (machine getRange) r reads r' → reads ++ earlier = history → OnlyReads id reads →
    (∀ e ∈ reads, e.out ≠ .read []) → reads.length ≤ content.length - r.position
  toEnd : ∀ r r' earlier reads, Run (machine getRange) start earlier r →
    Run (machine getRange) r reads r' → reads ++ earlier = history → ReadToEnd id reads →
    (given reads).flatten = content.drop r.position ∧
    ∀ file file' before more, Run (StreamingLocalReader.machine content) .new before file →
      Run (StreamingLocalReader.machine content) file more file' → ReadToEnd LocalCall.call more →
      file.position = r.position → (given more).flatten = (given reads).flatten

theorem reads_follow {reads : History StreamingOssReader StreamCall StreamOut}
    (steps : ∀ e ∈ reads, FollowsObject content e) : ReadsFollow content position id reads :=
  fun e member length read => (steps e member).read length read

theorem streamsObject_iff : StreamsObject content getRange start history ↔
    ∀ e ∈ history, FollowsObject content e := by
  refine ⟨StreamsObject.steps, fun steps => ⟨steps, ?_, ?_⟩⟩
  · rintro r r' earlier reads - more rfl only some_
    refine reads_bounded more only (reads_follow fun e member => ?_) some_
    exact steps e (List.mem_append_left _ member)
  · rintro r r' earlier reads - more rfl ended
    have rest := given_of_ended more ended (reads_follow fun e member =>
      steps e (List.mem_append_left _ member))
    refine ⟨rest, fun file file' before others run on_ ended' same => ?_⟩
    rw [StreamingLocalReader.local_to_end run on_ ended', rest, same]

/-- A reader streams the object if and only if the chunks it fetches are addressable. -/
theorem streams_object_iff (serves : Serves content getRange) {chunkSize : UInt64}
    (positive : chunkSize ≠ 0)
    (run : Run (machine getRange) (new content.length chunkSize) history r) :
    StreamsObject content getRange (new content.length chunkSize) history ↔
      ∀ e ∈ history, e.pre.Addressable e.act :=
  streamsObject_iff.trans ((judged serves).run_iff (buffered_new positive content) run)

/-- The ranges of a content. -/
def rangesOf (content : Bytes) : GetRange := fun start stop =>
  if stop < start then .error s!"Range started at {start} and ended at {stop}"
  else .ok ((content.drop start).take (stop - start))

theorem rangesOf_serves (content : Bytes) : Serves content (rangesOf content) := by
  refine ⟨fun start stop before _ => ?_, fun start stop after => ?_⟩
  · exact if_neg (by omega)
  · exact ⟨_, if_pos after⟩

/-- Five bytes in chunks of two, with a seek back and one too far. -/
theorem five_bytes_streamed : ∃ history r,
    Run (machine (rangesOf [1, 2, 3, 4, 5])) (new 5 2) history r ∧ r.position = 5 ∧
    given history = [[1, 2], [3], [], [], [2], [3], [4, 5], []] ∧
    StreamsObject [1, 2, 3, 4, 5] (rangesOf [1, 2, 3, 4, 5]) (new 5 2) history := by
  obtain ⟨history, r, run, seen⟩ := Run.of_observation (machine (rangesOf [1, 2, 3, 4, 5])) (new 5 2)
    [.read 9, .read 1, .seekTo 1, .seekTo 6, .read 1, .read 2, .read 2, .read 2]
    (fun end_ => (end_.2.position, given end_.1,
      decide (∀ e ∈ end_.1, e.pre.Addressable e.act)))
    (5, [[1, 2], [3], [], [], [2], [3], [4, 5], []], true) (by decide +kernel)
  simp only [Prod.mk.injEq] at seen
  obtain ⟨position, bytes, addressable⟩ := seen
  refine ⟨history, r, run, position, bytes, ?_⟩
  exact (streams_object_iff (rangesOf_serves _) (by decide) run).mpr
    (of_decide_eq_true addressable)

/-- With the largest chunk size, a read after a seek asks for a range that ends before it starts. -/
theorem largest_chunk_refused : ∃ history r,
    Run (machine (rangesOf [1, 2, 3])) (new 3 (2 ^ 64 - 1)) history r ∧
    ¬StreamsObject [1, 2, 3] (rangesOf [1, 2, 3]) (new 3 (2 ^ 64 - 1)) history := by
  obtain ⟨history, r, run, seen⟩ := Run.of_observation (machine (rangesOf [1, 2, 3]))
    (new 3 (2 ^ 64 - 1)) [.seekTo 1, .read 1]
    (fun end_ => end_.1.head?.map fun e => (e.act, e.out))
    (some (.read 1, .failed "Failed to fetch range: Range started at 1 and ended at 0"))
    (by decide +kernel)
  refine ⟨history, r, run, fun streams => ?_⟩
  obtain ⟨e, head, shown⟩ := Option.map_eq_some_iff.mp seen
  obtain ⟨act, out⟩ := Prod.mk.inj shown
  obtain ⟨bytes, given, -⟩ := (streams.steps e (List.mem_of_mem_head? head)).read 1 act
  rw [out] at given
  cases given

end StreamingOssReader

end Roboflow.Storage
