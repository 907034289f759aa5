import Roboflow.Library.Channels

/-! The bag sources of `sources/bag.rs` after their initialization. A decoder thread sends what it decodes
through a bounded channel, message by message or in batches of its own size, and the reads split and join
these. A thread that panics drops the batch it has not sent, which only the sources with batches have. -/
namespace Roboflow.Dataset
open Library

/-! ### The decoder threads -/

/-- The size of a batch, at least one. -/
structure BatchSize where
  size : Nat
  positive : 0 < size

/-- What the decoder has before it: the iterator over the decoded messages cannot be had, or it gives
these results and then ends or panics. -/
inductive Decoding (Msg : Type) where
  | noIterator (error : String)
  | results (results : List (Except String Msg)) (panics : Bool)

variable {Msg : Type}

/-- How the thread ends, as its join says. -/
inductive Joined where
  | finished
  | failed (error : String)
  | panicked

def Decoding.joined : Decoding Msg → Joined
  | .noIterator error => .failed ("Failed to get decoded iterator: " ++ error)
  | .results _ false => .finished
  | .results _ true => .panicked

/-- `spawn_local_decoder`. -/
def spawnLocalDecoder : Decoding Msg → Emit (Decoding Msg) Msg
  | .noIterator _ => .close
  | .results [] _ => .close
  | .results (.error _ :: rest) panics => .work (.results rest panics)
  | .results (.ok msg :: rest) panics => .send msg (.results rest panics)

/-- A decoder thread with the batch it has begun. -/
structure BatchedDecoder (Msg : Type) (batchSize : BatchSize) where
  decoding : Decoding Msg
  batch : List Msg
  begun : batch.length < batchSize.size

/-- `spawn_local_decoder_batched`. -/
def spawnLocalDecoderBatched (batchSize : BatchSize) (d : BatchedDecoder Msg batchSize) :
    Emit (BatchedDecoder Msg batchSize) (List Msg) :=
  match d.decoding with
  | .noIterator _ => .close
  | .results [] true => .close
  | .results [] false =>
    if d.batch.isEmpty then .close
    else .send d.batch ⟨.results [] false, [], batchSize.positive⟩
  | .results (.error _ :: rest) panics => .work ⟨.results rest panics, d.batch, d.begun⟩
  | .results (.ok msg :: rest) panics =>
    let batch := d.batch ++ [msg]
    if full : batchSize.size ≤ batch.length then
      .send batch ⟨.results rest panics, [], batchSize.positive⟩
    else .work ⟨.results rest panics, batch, Nat.lt_of_not_le full⟩

/-- `spawn_local_decoder_blocking`. -/
def spawnLocalDecoderBlocking (batchSize : BatchSize) (d : BatchedDecoder Msg batchSize) :
    Emit (BatchedDecoder Msg batchSize) (List Msg) :=
  spawnLocalDecoderBatched batchSize d

/-! ### The reads -/

/-- `SourceError::ReadFailed`. -/
structure ReadFailed where
  text : String

abbrev ReadAnswer (Msg : Type) := Except ReadFailed (Option (List Msg))

/-- `check_decoder_result`. -/
def checkDecoderResult : Joined → Except ReadFailed Unit
  | .finished => .ok ()
  | .failed error => .error ⟨"Decoder error: " ++ error⟩
  | .panicked => .error ⟨"Decoder thread panicked"⟩

/-- What a read returns that finds the channel closed. -/
def endAnswer (joined : Joined) : ReadAnswer Msg :=
  match checkDecoderResult joined with
  | .error e => .error e
  | .ok () => .ok none

structure BagSource where
  finished : Bool

/-- The loop of a read: as many messages more as there is room for and as are there. -/
def BagSource.drain (s : BagSource) : Nat → List Msg → Receiving Msg (BagSource × ReadAnswer Msg)
  | 0, batch => .done (s, .ok (some batch))
  | room + 1, batch =>
    .tryRecv fun
      | some msg => drain s room (batch ++ [msg])
      | none => .done (s, .ok (some batch))

/-- `BagSource::read_batch`. -/
def BagSource.readBatch (joined : Joined) (s : BagSource) (batchSize : BatchSize) :
    Receiving Msg (BagSource × ReadAnswer Msg) :=
  if s.finished then .done (s, .ok none)
  else
    .recv fun
      | some msg => s.drain (batchSize.size - 1) [msg]
      | none => .done ({ s with finished := true }, endAnswer joined)

structure BagSourceBatched (Msg : Type) where
  finished : Bool
  currentBatch : List Msg

/-- A batch is returned as far as it was asked for, and its rest is left over. -/
def BagSourceBatched.split (s : BagSourceBatched Msg) (batch : List Msg) (batchSize : BatchSize) :
    BagSourceBatched Msg × ReadAnswer Msg :=
  if batch.length ≤ batchSize.size then ({ s with currentBatch := [] }, .ok (some batch))
  else
    ({ s with currentBatch := batch.drop batchSize.size }, .ok (some (batch.take batchSize.size)))

/-- `BagSourceBatched::read_batch`. -/
def BagSourceBatched.readBatch (joined : Joined) (s : BagSourceBatched Msg) (batchSize : BatchSize) :
    Receiving (List Msg) (BagSourceBatched Msg × ReadAnswer Msg) :=
  if s.finished then .done (s, .ok none)
  else if !s.currentBatch.isEmpty then .done (s.split s.currentBatch batchSize)
  else
    .recv fun
      | some batch => .done (s.split batch batchSize)
      | none => .done ({ s with finished := true }, endAnswer joined)

/-- `BagSourceBlocking::read_batch`. -/
def readBatchBlocking (joined : Joined) (s : BagSourceBatched Msg) (batchSize : BatchSize) :
    Receiving (List Msg) (BagSourceBatched Msg × ReadAnswer Msg) :=
  s.readBatch joined batchSize

/-- The decoder thread and the reads of a `BagSource`. -/
def bagSource (decoding : Decoding Msg) :
    Machine (Pipe (Decoding Msg) Msg BagSource BatchSize (ReadAnswer Msg)) (PipeAct BatchSize)
      (Option (BatchSize × ReadAnswer Msg)) :=
  pipe 8192 spawnLocalDecoder (BagSource.readBatch decoding.joined)

def bagSourceBatched (batchSize : BatchSize) (decoding : Decoding Msg) :
    Machine (Pipe (BatchedDecoder Msg batchSize) (List Msg) (BagSourceBatched Msg) BatchSize
      (ReadAnswer Msg)) (PipeAct BatchSize) (Option (BatchSize × ReadAnswer Msg)) :=
  pipe 1024 (spawnLocalDecoderBatched batchSize) (BagSourceBatched.readBatch decoding.joined)

def bagSourceBlocking (batchSize : BatchSize) (decoding : Decoding Msg) :
    Machine (Pipe (BatchedDecoder Msg batchSize) (List Msg) (BagSourceBatched Msg) BatchSize
      (ReadAnswer Msg)) (PipeAct BatchSize) (Option (BatchSize × ReadAnswer Msg)) :=
  pipe 16 (spawnLocalDecoderBlocking batchSize) (readBatchBlocking decoding.joined)

/-! ### What a source is to deliver -/

/-- The messages that were decoded. -/
def Decoding.messages : Decoding Msg → List Msg
  | .noIterator _ => []
  | .results decoded _ => decoded.filterMap Except.toOption

/-- The messages of a read. -/
def ReadAnswer.batch : ReadAnswer Msg → List Msg
  | .ok (some batch) => batch
  | _ => []

/-- A read that returns a batch. -/
def ReadAnswer.IsBatch (answer : ReadAnswer Msg) : Prop := ∃ batch, answer = .ok (some batch)

/-- What reads have returned, in order: batches that are not empty nor longer than asked for and that
together are the messages in order; once one returns no batch all messages have been delivered, the first
such read says how the decoder ended, and every read after it returns `None`. -/
structure DeliversStream (decoding : Decoding Msg) (reads : List (BatchSize × ReadAnswer Msg)) : Prop where
  sizes : ∀ read ∈ reads, ∀ batch, read.2 = .ok (some batch) →
    batch ≠ [] ∧ batch.length ≤ read.1.size
  inOrder : (reads.flatMap fun read => read.2.batch) <+: decoding.messages
  ended : ∀ before read after, reads = before ++ read :: after → ¬read.2.IsBatch →
    (before.flatMap fun read => read.2.batch) = decoding.messages ∧
      ((∀ earlier ∈ before, earlier.2.IsBatch) → read.2 = endAnswer decoding.joined) ∧
      ∀ later ∈ after, later.2 = .ok none

/-- Every run of a source delivers the stream, and can be carried on to its end. -/
structure SourceDelivers {δ τ κ : Type}
    (m : Machine (Pipe δ τ κ BatchSize (ReadAnswer Msg)) (PipeAct BatchSize)
      (Option (BatchSize × ReadAnswer Msg)))
    (start : Pipe δ τ κ BatchSize (ReadAnswer Msg)) (decoding : Decoding Msg) : Prop where
  delivers : ∀ history s, Run m start history s → DeliversStream decoding (answersOf history)
  ends : ∀ history s, Run m start history s → ∃ more s', Run m start (more ++ history) s' ∧
    ∃ read ∈ answersOf (more ++ history), ¬read.2.IsBatch

/-- A source before its first read. -/
def sourceStart (decoding : Decoding Msg) :
    Pipe (Decoding Msg) Msg BagSource BatchSize (ReadAnswer Msg) :=
  .start decoding ⟨false⟩

def batchedStart (batchSize : BatchSize) (decoding : Decoding Msg) :
    Pipe (BatchedDecoder Msg batchSize) (List Msg) (BagSourceBatched Msg) BatchSize (ReadAnswer Msg) :=
  .start ⟨decoding, [], batchSize.positive⟩ ⟨false, []⟩

/-- All three sources deliver the stream. -/
structure SourcesDeliver (batchSize : BatchSize) (decoding : Decoding Msg) : Prop where
  single : SourceDelivers (bagSource decoding) (sourceStart decoding) decoding
  batched : SourceDelivers (bagSourceBatched batchSize decoding) (batchedStart batchSize decoding) decoding
  blocking : SourceDelivers (bagSourceBlocking batchSize decoding) (batchedStart batchSize decoding) decoding

/-! ### The reads pass on what they take -/

/-- The answers of a source, by the messages in them. -/
def readAnswering (joined : Joined) (held : κ → List Msg) (finished : κ → Bool) :
    Answering κ BatchSize (ReadAnswer Msg) Msg where
  given := ReadAnswer.batch
  held := held
  finished := finished
  fits size answer := ∃ batch, answer = .ok (some batch) ∧ batch ≠ [] ∧ batch.length ≤ size.size
  last := endAnswer joined
  quiet := .ok none

theorem endAnswer_notBatch (joined : Joined) : ¬(endAnswer joined : ReadAnswer Msg).IsBatch := by
  rintro ⟨batch, same⟩
  cases joined <;> cases same

theorem endAnswer_batch (joined : Joined) : (endAnswer joined : ReadAnswer Msg).batch = [] := by
  cases joined <;> rfl

def singleAnswering (joined : Joined) : Answering BagSource BatchSize (ReadAnswer Msg) Msg :=
  readAnswering joined (fun _ => []) BagSource.finished

def batchedAnswering (joined : Joined) :
    Answering (BagSourceBatched Msg) BatchSize (ReadAnswer Msg) Msg :=
  readAnswering joined BagSourceBatched.currentBatch BagSourceBatched.finished

theorem drain_proper (joined : Joined) (s : BagSource) (live : s.finished = false) (size : BatchSize)
    (room : Nat) (batch : List Msg) (some_ : batch ≠ []) (fits : batch.length + room ≤ size.size) :
    Proper (singleAnswering joined) (fun msg => [msg]) size batch (s.drain room batch) := by
  have ends : batch = (ReadAnswer.batch (.ok (some batch)) : List Msg) ++ [] := (List.append_nil _).symm
  induction room generalizing batch with
  | zero => exact ⟨live, ends, batch, rfl, some_, fits⟩
  | succ room ih =>
    refine ⟨fun msg _ => ?_, live, ends, batch, rfl, some_, by omega⟩
    refine ih (batch ++ [msg]) (by simp) ?_ (List.append_nil _).symm
    rw [List.length_append, List.length_singleton]
    omega

theorem single_consumes (joined : Joined) :
    Consumes (singleAnswering joined) (BagSource.readBatch joined) (fun msg : Msg => [msg]) where
  proper s size live := by
    have unfinished : s.finished = false := live
    unfold BagSource.readBatch
    rw [if_neg (by simp [unfinished])]
    refine ⟨rfl, fun msg _ => ?_, { s with finished := true }, rfl, rfl⟩
    refine drain_proper joined s unfinished size _ [msg] (List.cons_ne_nil _ _) ?_
    have := size.positive
    rw [List.length_singleton]
    omega
  over_ s size done := by
    have finished : s.finished = true := done
    unfold BagSource.readBatch
    rw [if_pos finished]
    rfl
  fits_given size answer fits := by
    obtain ⟨batch, rfl, some_, -⟩ := fits
    exact some_
  last_given := endAnswer_batch joined
  quiet_given := rfl

theorem split_proper (joined : Joined) (s : BagSourceBatched Msg) (live : s.finished = false)
    (size : BatchSize) (batch : List Msg) (some_ : batch ≠ []) :
    Proper (batchedAnswering joined) id size batch (.done (s.split batch size)) := by
  unfold BagSourceBatched.split
  split
  · rename_i short
    exact ⟨live, (List.append_nil _).symm, batch, rfl, some_, short⟩
  · rename_i long
    refine ⟨live, (List.take_append_drop ..).symm, _, rfl, ?_, ?_⟩
    · have := size.positive
      intro none_
      rcases List.take_eq_nil_iff.mp none_ with zero | empty
      · omega
      · exact some_ empty
    · rw [List.length_take]
      omega

theorem batched_consumes (joined : Joined) :
    Consumes (batchedAnswering joined) (BagSourceBatched.readBatch joined) (id : List Msg → List Msg) where
  proper s size live := by
    have unfinished : s.finished = false := live
    unfold BagSourceBatched.readBatch
    rw [if_neg (by simp [unfinished])]
    split
    · rename_i left
      refine split_proper joined s unfinished size s.currentBatch fun none_ => ?_
      simp [none_] at left
    · rename_i none_
      have empty : s.currentBatch = [] := by simpa using none_
      refine ⟨empty, fun batch some_ => ?_, { s with finished := true }, rfl, rfl⟩
      exact split_proper joined s unfinished size batch some_
  over_ s size done := by
    have finished : s.finished = true := done
    unfold BagSourceBatched.readBatch
    rw [if_pos finished]
    rfl
  fits_given size answer fits := by
    obtain ⟨batch, rfl, some_, -⟩ := fits
    exact some_
  last_given := endAnswer_batch joined
  quiet_given := rfl

/-! ### What the threads send -/

/-- The results that the thread has before it. -/
def Decoding.left : Decoding Msg → Nat
  | .noIterator _ => 0
  | .results decoded _ => decoded.length

theorem single_produces :
    Produces spawnLocalDecoder (fun msg : Msg => [msg]) Decoding.messages Decoding.left where
  works d d' next := by
    rcases d with _ | ⟨_ | ⟨_ | msg, rest⟩, panics⟩
    · cases next
    · cases next
    · cases next
      exact ⟨rfl, Nat.lt_succ_self _⟩
    · cases next
  sends d msg d' next := by
    rcases d with _ | ⟨_ | ⟨_ | msg, rest⟩, panics⟩
    · cases next
    · cases next
    · cases next
    · cases next
      exact ⟨rfl, List.cons_ne_nil _ _, Nat.lt_succ_self _⟩
  closes d next := by
    rcases d with _ | ⟨_ | ⟨_ | msg, rest⟩, panics⟩
    · rfl
    · rfl
    · cases next
    · cases next

/-- The full batches of a list. -/
def fullBatches (size : Nat) (messages : List α) : List α :=
  messages.take (size * (messages.length / size))

theorem fullBatches_short {size : Nat} {messages : List α} (short : messages.length < size) :
    fullBatches size messages = [] := by
  rw [fullBatches, Nat.div_eq_of_lt short, Nat.mul_zero, List.take_zero]

theorem fullBatches_append {size : Nat} (positive : 0 < size) {batch : List α}
    (full : batch.length = size) (rest : List α) :
    fullBatches size (batch ++ rest) = batch ++ fullBatches size rest := by
  have count : (batch ++ rest).length / size = rest.length / size + 1 := by
    rw [List.length_append, full, Nat.add_comm, Nat.add_div_right _ positive]
  rw [fullBatches, count, Nat.mul_succ, Nat.add_comm, ← full, List.take_length_add_append, full]
  rfl

theorem fullBatches_eq_iff {size : Nat} (messages : List α) :
    fullBatches size messages = messages ↔ size ∣ messages.length := by
  rw [fullBatches, List.take_eq_self_iff, Nat.dvd_iff_div_mul_eq, Nat.mul_comm]
  constructor
  · intro enough
    exact Nat.le_antisymm (Nat.div_mul_le_self ..) enough
  · intro same
    exact same.ge

/-- What a thread with batches will send: all it will have decoded, or the full batches of it when it
is to panic. -/
def BatchedDecoder.unsent {batchSize : BatchSize} (d : BatchedDecoder Msg batchSize) : List Msg :=
  match d.decoding with
  | .noIterator _ => []
  | .results _ true => fullBatches batchSize.size (d.batch ++ d.decoding.messages)
  | .results _ false => d.batch ++ d.decoding.messages

/-- The steps that the thread has before it at most. -/
def BatchedDecoder.left {batchSize : BatchSize} (d : BatchedDecoder Msg batchSize) : Nat :=
  2 * d.decoding.left + if d.batch.isEmpty then 0 else 1

theorem batched_produces (batchSize : BatchSize) :
    Produces (spawnLocalDecoderBatched batchSize) (id : List Msg → List Msg) BatchedDecoder.unsent
      BatchedDecoder.left where
  works d d' next := by
    obtain ⟨_ | ⟨_ | ⟨_ | msg, rest⟩, panics⟩, batch, begun⟩ := d
    · cases next
    · cases panics with
      | true => cases next
      | false =>
        simp only [spawnLocalDecoderBatched] at next
        split at next <;> cases next
    · cases next
      constructor
      · cases panics <;> rfl
      · simp only [BatchedDecoder.left, Decoding.left, List.length_cons]
        omega
    · simp only [spawnLocalDecoderBatched] at next
      split at next
      · cases next
      · cases next
        constructor
        · cases panics <;> simp [BatchedDecoder.unsent, Decoding.messages, Except.toOption]
        · simp only [BatchedDecoder.left, Decoding.left, List.length_cons]
          split <;> split <;> omega
  sends d sent d' next := by
    obtain ⟨_ | ⟨_ | ⟨_ | msg, rest⟩, panics⟩, batch, begun⟩ := d
    · cases next
    · cases panics with
      | true => cases next
      | false =>
        simp only [spawnLocalDecoderBatched] at next
        split at next
        · cases next
        · rename_i some_
          cases next
          refine ⟨?_, by simpa using some_, ?_⟩
          · simp [BatchedDecoder.unsent, Decoding.messages]
          · simp [BatchedDecoder.left, Decoding.left, some_]
    · cases next
    · simp only [spawnLocalDecoderBatched] at next
      split at next
      · rename_i full
        cases next
        have exactly : (batch ++ [msg]).length = batchSize.size := by
          rw [List.length_append, List.length_singleton] at full ⊢
          omega
        refine ⟨?_, by simp, ?_⟩
        · cases panics with
          | false => simp [BatchedDecoder.unsent, Decoding.messages, Except.toOption]
          | true =>
            have := fullBatches_append batchSize.positive exactly (rest.filterMap Except.toOption)
            simpa [BatchedDecoder.unsent, Decoding.messages, Except.toOption] using this
        · simp only [BatchedDecoder.left, Decoding.left, List.length_cons]
          split <;> split <;> omega
      · cases next
  closes d next := by
    obtain ⟨_ | ⟨_ | ⟨_ | msg, rest⟩, panics⟩, batch, begun⟩ := d
    · rfl
    · cases panics with
      | true => exact fullBatches_short (by simpa [Decoding.messages] using begun)
      | false =>
        simp only [spawnLocalDecoderBatched] at next
        split at next
        · rename_i none_
          have empty : batch = [] := by simpa using none_
          simp [BatchedDecoder.unsent, Decoding.messages, empty]
        · cases next
    · cases next
    · simp only [spawnLocalDecoderBatched] at next
      split at next <;> cases next

/-! ### The three sources -/

/-- The decoder thread does not panic, or its messages fill its batches. -/
def NothingDropped (batchSize : BatchSize) (decoding : Decoding Msg) : Prop :=
  decoding.joined = .panicked → batchSize.size ∣ decoding.messages.length

section Reads

variable {κ : Type} {held : κ → List Msg} {finished : κ → Bool} {decoding : Decoding Msg}
  {reads : List (BatchSize × ReadAnswer Msg)} {content : List Msg}

theorem batch_of_notBatch {answer : ReadAnswer Msg} (other : ¬answer.IsBatch) : answer.batch = [] := by
  rcases answer with e | _ | batch
  · rfl
  · rfl
  · exact absurd ⟨batch, rfl⟩ other

/-- What gives nothing is no batch. -/
theorem notBatch_of_passes (passes : Passes (readAnswering decoding.joined held finished) content reads)
    {read : BatchSize × ReadAnswer Msg} (member : read ∈ reads) (nothing : read.2.batch = []) :
    ¬read.2.IsBatch := by
  obtain ⟨before, after, split⟩ := List.append_of_mem member
  obtain ⟨-, first, later⟩ := passes.ended before read after split nothing
  by_cases ended : Ended (readAnswering decoding.joined held finished) before
  · rintro ⟨batch, same⟩
    rw [later ended] at same
    cases same
  · rw [first ended]
    exact endAnswer_notBatch _

theorem delivers_of_passes
    (passes : Passes (readAnswering decoding.joined held finished) decoding.messages reads) :
    DeliversStream decoding reads where
  sizes read member batch same := by
    have some_ : batch ≠ [] := by
      intro empty
      refine notBatch_of_passes passes member ?_ ⟨batch, same⟩
      rw [same, empty]
      rfl
    have gives : ReadAnswer.batch read.2 ≠ [] := by
      rw [same]
      exact some_
    obtain ⟨batch', same', -, short⟩ := passes.fits read member gives
    rw [same] at same'
    cases same'
    exact ⟨some_, short⟩
  inOrder := passes.inOrder
  ended before read after split other := by
    have nothing := batch_of_notBatch other
    obtain ⟨all, first, -⟩ := passes.ended before read after split nothing
    refine ⟨all, fun batches => first ?_, fun later member => ?_⟩
    · rintro ⟨earlier, member, empty⟩
      have inReads : earlier ∈ reads := by
        rw [split]
        exact List.mem_append_left _ member
      exact notBatch_of_passes passes inReads empty (batches earlier member)
    · obtain ⟨between, rest, rfl⟩ := List.append_of_mem member
      have split' : reads = (before ++ read :: between) ++ later :: rest := by
        rw [split, List.append_assoc, List.cons_append]
      have rest_ : later.2.batch = [] := by
        have order := passes.inOrder.length_le
        rw [split, delivered_append, all, List.length_append] at order
        have none_ : delivered (readAnswering decoding.joined held finished)
            (read :: (between ++ later :: rest)) = [] := List.eq_nil_of_length_eq_zero (by omega)
        exact List.flatMap_eq_nil_iff.mp none_ later
          (List.mem_cons_of_mem _ (List.mem_append_right _ List.mem_cons_self))
      exact (passes.ended _ later rest split' rest_).2.2
        ⟨read, List.mem_append_right _ List.mem_cons_self, nothing⟩

end Reads

section Sources

variable {δ τ κ : Type} {emit : δ → Emit δ τ} {flat : τ → List Msg} {unsent : δ → List Msg}
  {left : δ → Nat} {held : κ → List Msg} {finished : κ → Bool} {capacity : Nat} {decoding : Decoding Msg}
  {program : κ → BatchSize → Receiving τ (κ × ReadAnswer Msg)} {d : δ} {k : κ}

/-- A source whose thread is to send all messages delivers them, and no other source does. -/
theorem sourceDelivers_iff (produces : Produces emit flat unsent left)
    (consumes : Consumes (readAnswering decoding.joined held finished) program flat)
    (room : 0 < capacity) (live : finished k = false) (nothing : held k = []) :
    SourceDelivers (pipe capacity emit program) (.start d k) decoding ↔ unsent d = decoding.messages := by
  have passes : ∀ {history s}, Run (pipe capacity emit program) (.start d k) history s →
      Passes (readAnswering decoding.joined held finished) (unsent d) (answersOf history) := by
    intro history s run
    exact run_passes produces consumes live nothing run
  have ends : ∀ {history s}, Run (pipe capacity emit program) (.start d k) history s →
      ∃ more s', Run (pipe capacity emit program) (.start d k) (more ++ history) s' ∧
        ∃ read ∈ answersOf (more ++ history), ¬read.2.IsBatch := by
    intro history s run
    obtain ⟨more, s', run', read, member, empty⟩ :=
      run_ends produces consumes room ⟨1, Nat.one_pos⟩ live nothing run
    exact ⟨more, s', run', read, member, notBatch_of_passes (passes run') member empty⟩
  constructor
  · intro source
    obtain ⟨more, s', run, read, member, other⟩ := ends Run.start
    obtain ⟨before, after, split⟩ := List.append_of_mem member
    have sent := ((passes run).ended before read after split (batch_of_notBatch other)).1
    have all := ((source.delivers _ _ run).ended before read after split other).1
    exact sent.symm.trans all
  · intro same
    refine ⟨fun history s run => ?_, fun history s run => ends run⟩
    have passed := passes run
    rw [same] at passed
    exact delivers_of_passes passed

end Sources

theorem unsent_eq_iff (batchSize : BatchSize) (decoding : Decoding Msg) :
    BatchedDecoder.unsent ⟨decoding, [], batchSize.positive⟩ = decoding.messages ↔
      NothingDropped batchSize decoding := by
  obtain error | ⟨decoded, _ | _⟩ := decoding
  · refine iff_of_true rfl fun panicked => ?_
    cases panicked
  · refine iff_of_true rfl fun panicked => ?_
    cases panicked
  · refine (fullBatches_eq_iff _).trans ⟨fun divides _ => divides, fun divides => divides rfl⟩

/-- For every sequence of decode results, of read sizes and of steps of the two sides, all three sources
return exactly the messages in order and then the decoder's end, if and only if the decoder thread does
not panic or its messages fill its batches. -/
theorem sources_deliver_iff (batchSize : BatchSize) (decoding : Decoding Msg) :
    SourcesDeliver batchSize decoding ↔ NothingDropped batchSize decoding := by
  have single : SourceDelivers (bagSource decoding) (sourceStart decoding) decoding :=
    (sourceDelivers_iff single_produces (single_consumes _) (Nat.succ_pos _) rfl rfl).mpr rfl
  have batched : SourceDelivers (bagSourceBatched batchSize decoding) (batchedStart batchSize decoding)
      decoding ↔ _ :=
    sourceDelivers_iff (batched_produces batchSize) (batched_consumes _) (Nat.succ_pos _) rfl rfl
  have blocking : SourceDelivers (bagSourceBlocking batchSize decoding)
      (batchedStart batchSize decoding) decoding ↔ _ :=
    sourceDelivers_iff (batched_produces batchSize) (batched_consumes _) (Nat.succ_pos _) rfl rfl
  rw [← unsent_eq_iff]
  constructor
  · intro all
    exact batched.mp all.batched
  · intro same
    exact ⟨single, batched.mpr same, blocking.mpr same⟩

/-! ### A thread that panics -/

/-- One message, and then a panic. -/
def oneThenPanic : Decoding Nat := .results [.ok 7] true

/-- With batches of two the message is dropped, and the first read says that the thread panicked. -/
theorem panic_drops_batch : ¬SourcesDeliver ⟨2, Nat.two_pos⟩ oneThenPanic := by
  intro all
  have begun : Run (bagSourceBatched ⟨2, Nat.two_pos⟩ oneThenPanic)
      (batchedStart ⟨2, Nat.two_pos⟩ oneThenPanic) [] _ := .start
  have closed := (begun.move .produce _ _ rfl).move .produce _ _ rfl
  have called := closed.move (.call ⟨1, Nat.one_pos⟩) _ _ rfl
  have read := (called.move .consume _ _ rfl).move .consume _ _ rfl
  have stream := all.batched.delivers _ _ read
  have messages := (stream.ended [] _ [] rfl (by
    rintro ⟨batch, same⟩
    cases same)).1
  cases messages

end Roboflow.Dataset
