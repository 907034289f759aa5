import Roboflow.Library.GoodSteps
import Roboflow.Storage.CachedStorage

/-! The writer of the S3 storage, `SyncS3Writer` of `s3.rs`. It puts its buffer as the whole object,
once: the buffer is emptied before the put, whether or not that succeeds, and nothing written
after a put that succeeded is put again. -/
namespace Roboflow.Storage
open Library

/-! ### The writer -/

structure SyncS3Writer where
  buffer : Bytes
  uploaded : Bool
  maxBufferSize : Nat

namespace SyncS3Writer

def new (maxBufferSize : Nat) : SyncS3Writer := ⟨[], false, maxBufferSize⟩

/-- What a call leaves: the writer, what was put if a put was made, and whether the call succeeded. -/
structure Outcome where
  writer : SyncS3Writer
  payload : Option Bytes
  ok : Bool

/-- `upload`, where a put would succeed or not. -/
def upload (w : SyncS3Writer) (succeeds : Bool) : Outcome :=
  if w.uploaded then ⟨w, none, true⟩
  else ⟨{ w with buffer := [], uploaded := succeeds }, some w.buffer, succeeds⟩

def write (w : SyncS3Writer) (bytes : Bytes) (succeeds : Bool) : Outcome :=
  let w := { w with buffer := w.buffer ++ bytes }
  if w.maxBufferSize < w.buffer.length then w.upload succeeds else ⟨w, none, true⟩

def flush (w : SyncS3Writer) (succeeds : Bool) : Outcome := w.upload succeeds

def drop (w : SyncS3Writer) (succeeds : Bool) : Outcome :=
  if !w.uploaded && !w.buffer.isEmpty then w.upload succeeds else ⟨w, none, true⟩

end SyncS3Writer

/-! ### Its calls -/

/-- The writer until it is dropped, the object, and the bytes that calls of `write` accepted. -/
structure S3Upload where
  writer : Option SyncS3Writer
  stored : Option Bytes
  accepted : Bytes

/-- A call, and whether a put that it makes succeeds. -/
inductive S3Call where
  | write (bytes : Bytes) (succeeds : Bool)
  | flush (succeeds : Bool)
  | drop (succeeds : Bool)

/-- Whether the call succeeded, and whether the put did, if one was made. -/
structure S3Answer where
  ok : Bool
  put : Option Bool

namespace S3Upload

def new (maxBufferSize : Nat) : S3Upload := ⟨some (.new maxBufferSize), none, []⟩

/-- A call has ended: the object is what was put, if that succeeded. -/
def finish (s : S3Upload) (succeeds keeps : Bool) (bytes : Bytes)
    (outcome : SyncS3Writer.Outcome) : S3Upload × S3Answer :=
  (⟨if keeps then some outcome.writer else none,
      match outcome.payload with
      | some payload => if succeeds then some payload else s.stored
      | none => s.stored,
      if outcome.ok then s.accepted ++ bytes else s.accepted⟩,
    ⟨outcome.ok, outcome.payload.map fun _ => succeeds⟩)

def step (s : S3Upload) (call : S3Call) : Option (S3Upload × S3Answer) :=
  s.writer.map fun w =>
    match call with
    | .write bytes succeeds => s.finish succeeds true bytes (w.write bytes succeeds)
    | .flush succeeds => s.finish succeeds true [] (w.flush succeeds)
    | .drop succeeds => s.finish succeeds false [] (w.drop succeeds)

def machine : Machine S3Upload S3Call S3Answer := ⟨step⟩

end S3Upload

/-! ### What is promised, and what it takes -/

/-- After a flush that succeeds, and after a drop whose put does, the object is all that was
accepted; and after a put that failed, a flush would still make it so. -/
structure StoresAll (e : Transition S3Upload S3Call S3Answer) : Prop where
  flushed : ∀ succeeds, e.act = .flush succeeds → e.out.ok = true →
    e.post.stored = some e.post.accepted
  dropped : ∀ succeeds, e.act = .drop succeeds → e.out.put = some true →
    e.post.stored = some e.post.accepted
  kept : e.out.put = some false → ∀ later answer, e.post.step (.flush true) = some (later, answer) →
    answer.ok = true → later.stored = some later.accepted

/-- A put fails only when nothing was buffered before the call, and nothing is flushed that was
written after an upload. -/
def SyncS3Writer.Harmless (w : SyncS3Writer) : S3Call → Prop
  | .write bytes succeeds => w.buffer = [] ∨ w.uploaded = true ∨ succeeds = true ∨
    w.buffer.length + bytes.length ≤ w.maxBufferSize
  | .flush succeeds => w.buffer = [] ∨ w.uploaded = false ∧ succeeds = true
  | .drop _ => True

def S3Upload.Harmless (s : S3Upload) (call : S3Call) : Prop := ∀ w ∈ s.writer, w.Harmless call

instance (w : SyncS3Writer) : (call : S3Call) → Decidable (w.Harmless call)
  | .write bytes succeeds => inferInstanceAs (Decidable (w.buffer = [] ∨ w.uploaded = true ∨
      succeeds = true ∨ w.buffer.length + bytes.length ≤ w.maxBufferSize))
  | .flush succeeds =>
    inferInstanceAs (Decidable (w.buffer = [] ∨ w.uploaded = false ∧ succeeds = true))
  | .drop _ => .isTrue trivial

instance (s : S3Upload) (call : S3Call) : Decidable (s.Harmless call) :=
  inferInstanceAs (Decidable (∀ w ∈ s.writer, w.Harmless call))

/-- The accepted bytes are in the buffer, or in the object and then the buffer. -/
def S3Upload.Whole (s : S3Upload) : Prop :=
  ∀ w, s.writer = some w →
    if w.uploaded then ∃ bytes, s.stored = some bytes ∧ bytes ++ w.buffer = s.accepted
    else w.buffer = s.accepted

/-! ### The calls -/

namespace S3Upload

/-- A put that failed has emptied the buffer: a flush then makes up for it if nothing was accepted
before. -/
theorem emptied_flush_iff {stored : Option Bytes} {accepted : Bytes} {size : Nat} :
    (∀ later answer, (S3Upload.mk (some ⟨[], false, size⟩) stored accepted).step (.flush true) =
      some (later, answer) → answer.ok = true → later.stored = some later.accepted) ↔
    accepted = [] := by
  simp only [step, SyncS3Writer.flush, SyncS3Writer.upload, finish, Option.map_some]
  constructor
  · intro kept
    simpa [eq_comm] using kept _ _ rfl rfl
  · rintro rfl later answer moved -
    obtain ⟨rfl, rfl⟩ := Prod.mk.inj (Option.some.inj moved)
    rfl

/-- Where no put fails, a write breaks no promise. -/
theorem storesAll_of_write {s s' : S3Upload} {answer : S3Answer} (bytes : Bytes) (succeeds : Bool)
    (stored : answer.put ≠ some false) : StoresAll ⟨s, .write bytes succeeds, answer, s'⟩ where
  flushed _ same := by cases same
  dropped _ same := by cases same
  kept failed := absurd failed stored

theorem write_judged {w : SyncS3Writer} {stored : Option Bytes} {accepted : Bytes}
    (whole : Whole ⟨some w, stored, accepted⟩) (bytes : Bytes) (succeeds : Bool)
    (moved : step ⟨some w, stored, accepted⟩ (.write bytes succeeds) = some (s', answer)) :
    (StoresAll ⟨⟨some w, stored, accepted⟩, .write bytes succeeds, answer, s'⟩ ↔
      w.Harmless (.write bytes succeeds)) ∧
    (w.Harmless (.write bytes succeeds) → Whole s') := by
  have held := whole w rfl
  obtain ⟨buffer, uploaded, size⟩ := w
  obtain ⟨rfl, rfl⟩ := Prod.mk.inj (Option.some.inj moved)
  cases uploaded with
  | true =>
    obtain ⟨payload, rfl, rfl⟩ := held
    have outcome : SyncS3Writer.write ⟨buffer, true, size⟩ bytes succeeds =
        ⟨⟨buffer ++ bytes, true, size⟩, none, true⟩ := ite_self _
    rw [outcome]
    refine ⟨iff_of_true ?_ (.inr (.inl rfl)), fun _ => ?_⟩
    · exact storesAll_of_write bytes succeeds (by simp)
    · rintro w same
      obtain rfl := Option.some.inj same
      exact ⟨payload, rfl, by simp⟩
  | false =>
    obtain rfl : buffer = accepted := held
    by_cases fits : buffer.length + bytes.length ≤ size
    · have outcome : SyncS3Writer.write ⟨buffer, false, size⟩ bytes succeeds =
          ⟨⟨buffer ++ bytes, false, size⟩, none, true⟩ := by
        simp [SyncS3Writer.write, fits]
      rw [outcome]
      refine ⟨iff_of_true ?_ (.inr (.inr (.inr fits))), fun _ => ?_⟩
      · exact storesAll_of_write bytes succeeds (by simp)
      · rintro w same
        obtain rfl := Option.some.inj same
        rfl
    · have outcome : SyncS3Writer.write ⟨buffer, false, size⟩ bytes succeeds =
          ⟨⟨[], succeeds, size⟩, some (buffer ++ bytes), succeeds⟩ := by
        simp only [SyncS3Writer.write, SyncS3Writer.upload, List.length_append]
        rw [if_pos (not_le.mp fits)]
        rfl
      rw [outcome]
      cases succeeds with
      | true =>
        refine ⟨iff_of_true ?_ (.inr (.inr (.inl rfl))), fun _ => ?_⟩
        · exact storesAll_of_write bytes true (by simp)
        · rintro w same
          obtain rfl := Option.some.inj same
          exact ⟨_, rfl, List.append_nil _⟩
      | false =>
        have harmless : SyncS3Writer.Harmless ⟨buffer, false, size⟩ (.write bytes false) ↔
            buffer = [] := by
          simp [SyncS3Writer.Harmless, fits]
        rw [harmless]
        refine ⟨⟨fun stores => ?_, ?_⟩, ?_⟩
        · exact emptied_flush_iff.mp (stores.kept rfl)
        · intro empty
          refine ⟨fun _ same => ?_, fun _ same => ?_, fun _ => emptied_flush_iff.mpr empty⟩
          · cases same
          · cases same
        · rintro rfl w same
          obtain rfl := Option.some.inj same
          rfl

theorem flush_judged {w : SyncS3Writer} {stored : Option Bytes} {accepted : Bytes}
    (whole : Whole ⟨some w, stored, accepted⟩) (succeeds : Bool)
    (moved : step ⟨some w, stored, accepted⟩ (.flush succeeds) = some (s', answer)) :
    (StoresAll ⟨⟨some w, stored, accepted⟩, .flush succeeds, answer, s'⟩ ↔
      w.Harmless (.flush succeeds)) ∧
    (w.Harmless (.flush succeeds) → Whole s') := by
  have held := whole w rfl
  obtain ⟨buffer, uploaded, size⟩ := w
  obtain ⟨rfl, rfl⟩ := Prod.mk.inj (Option.some.inj moved)
  cases uploaded with
  | true =>
    obtain ⟨payload, rfl, rfl⟩ := held
    have harmless : SyncS3Writer.Harmless ⟨buffer, true, size⟩ (.flush succeeds) ↔ buffer = [] := by
      simp [SyncS3Writer.Harmless]
    rw [harmless]
    refine ⟨⟨fun stores => ?_, ?_⟩, ?_⟩
    · have same := stores.flushed succeeds rfl rfl
      simpa [finish, SyncS3Writer.flush, SyncS3Writer.upload] using same
    · rintro rfl
      refine ⟨fun _ _ _ => ?_, fun _ same => ?_, fun failed => ?_⟩
      · simp [SyncS3Writer.flush, SyncS3Writer.upload]
      · cases same
      · cases failed
    · rintro rfl w same
      obtain rfl := Option.some.inj same
      exact ⟨payload, rfl, by simp [SyncS3Writer.flush, SyncS3Writer.upload]⟩
  | false =>
    obtain rfl : buffer = accepted := held
    cases succeeds with
    | true =>
      refine ⟨iff_of_true ?_ (.inr ⟨rfl, rfl⟩), fun _ => ?_⟩
      · refine ⟨fun _ _ _ => ?_, fun _ same => ?_, fun failed => ?_⟩
        · simp [SyncS3Writer.flush, SyncS3Writer.upload]
        · cases same
        · cases failed
      · rintro w same
        obtain rfl := Option.some.inj same
        exact ⟨buffer, rfl, by simp [SyncS3Writer.flush, SyncS3Writer.upload]⟩
    | false =>
      have harmless : SyncS3Writer.Harmless ⟨buffer, false, size⟩ (.flush false) ↔ buffer = [] := by
        simp [SyncS3Writer.Harmless]
      rw [harmless]
      refine ⟨⟨fun stores => ?_, ?_⟩, ?_⟩
      · exact emptied_flush_iff.mp (stores.kept rfl)
      · intro empty
        refine ⟨fun _ _ ok => ?_, fun _ same => ?_, fun _ => emptied_flush_iff.mpr empty⟩
        · cases ok
        · cases same
      · rintro rfl w same
        obtain rfl := Option.some.inj same
        rfl

theorem drop_judged {w : SyncS3Writer} {stored : Option Bytes} {accepted : Bytes}
    (whole : Whole ⟨some w, stored, accepted⟩) (succeeds : Bool)
    (moved : step ⟨some w, stored, accepted⟩ (.drop succeeds) = some (s', answer)) :
    StoresAll ⟨⟨some w, stored, accepted⟩, .drop succeeds, answer, s'⟩ ∧ s'.writer = none := by
  have held := whole w rfl
  obtain ⟨buffer, uploaded, size⟩ := w
  obtain ⟨rfl, rfl⟩ := Prod.mk.inj (Option.some.inj moved)
  refine ⟨⟨fun _ same => ?_, fun _ _ put => ?_, fun _ later answer flushed => ?_⟩, rfl⟩
  · cases same
  · unfold SyncS3Writer.drop at put ⊢
    cases uploaded with
    | true => simp at put
    | false =>
      obtain rfl : buffer = accepted := held
      cases buffer with
      | nil => simp at put
      | cons b rest => simp_all [SyncS3Writer.upload]
  · cases flushed

theorem judged : Judged machine Whole StoresAll Harmless := by
  have each : ∀ s call s' answer, Whole s → step s call = some (s', answer) →
      (StoresAll ⟨s, call, answer, s'⟩ ↔ s.Harmless call) ∧ (s.Harmless call → Whole s') := by
    rintro ⟨writer, stored, accepted⟩ call s' answer whole moved
    cases writer with
    | none => cases moved
    | some w =>
      have harmless : Harmless ⟨some w, stored, accepted⟩ call ↔ w.Harmless call := by
        simp [Harmless]
      rw [harmless]
      cases call with
      | write bytes succeeds => exact write_judged whole bytes succeeds moved
      | flush succeeds => exact flush_judged whole succeeds moved
      | drop succeeds =>
        obtain ⟨stores, dropped⟩ := drop_judged whole succeeds moved
        refine ⟨iff_of_true stores trivial, fun _ w held => ?_⟩
        rw [dropped] at held
        cases held
  refine ⟨fun s a s' out whole moved => ?_, fun s a s' out whole moved => ?_⟩
  · exact (each s a s' out whole moved).1
  · exact (each s a s' out whole moved).2

theorem whole_new (maxBufferSize : Nat) : (new maxBufferSize).Whole := by
  rintro w same
  obtain rfl := Option.some.inj same
  rfl

/-- Every step of a run stores all that was accepted if and only if every step is harmless. -/
theorem stores_all_iff (maxBufferSize : Nat) (run : Run machine (new maxBufferSize) history s) :
    (∀ e ∈ history, StoresAll e) ↔ ∀ e ∈ history, e.pre.Harmless e.act :=
  judged.run_iff (whole_new maxBufferSize) run

/-- Four bytes over a limit of three, flushed and dropped. -/
theorem uploaded_when_full : ∃ history s, Run machine (new 3) history s ∧
    s.stored = some [1, 2, 3, 4] ∧ ∀ e ∈ history, StoresAll e := by
  obtain ⟨history, s, run, seen⟩ := Run.of_observation machine (new 3)
    [.write [1, 2] true, .write [3, 4] true, .flush true, .drop true]
    (fun end_ => (end_.2.stored, decide (∀ e ∈ end_.1, e.pre.Harmless e.act)))
    (some [1, 2, 3, 4], true) rfl
  obtain ⟨stored, harmless⟩ := Prod.mk.inj seen
  exact ⟨history, s, run, stored, (stores_all_iff 3 run).mpr (of_decide_eq_true harmless)⟩

/-- What the last step of a history was, with what is stored and accepted after it. -/
def lastFlush (history : History S3Upload S3Call S3Answer) :
    Option (S3Call × Bool × Option Bytes × Bytes) :=
  history.head?.map fun e => (e.act, e.out.ok, e.post.stored, e.post.accepted)

theorem not_all_stored {history : History S3Upload S3Call S3Answer} {stored : Option Bytes}
    {accepted : Bytes}
    (last : lastFlush history = some (.flush true, true, stored, accepted))
    (differ : stored ≠ some accepted) : ¬∀ e ∈ history, StoresAll e := by
  intro stores
  obtain ⟨e, head, shown⟩ := Option.map_eq_some_iff.mp last
  simp only [Prod.mk.injEq] at shown
  obtain ⟨act, ok, rfl, rfl⟩ := shown
  exact differ ((stores e (List.mem_of_mem_head? head)).flushed true act ok)

/-- A byte written after a flush is never stored, and a flush that fails loses what was written;
both times a flush that is reported to succeed comes after. -/
theorem flushed_without_storing :
    (∃ history s, Run machine (new 3) history s ∧
      lastFlush history = some (.flush true, true, some [1], [1, 2]) ∧
      ¬∀ e ∈ history, StoresAll e) ∧
    ∃ history s, Run machine (new 3) history s ∧
      lastFlush history = some (.flush true, true, some [], [1]) ∧
      ¬∀ e ∈ history, StoresAll e := by
  constructor
  · obtain ⟨history, s, run, last⟩ := Run.of_observation machine (new 3)
      [.write [1] true, .flush true, .write [2] true, .flush true]
      (fun end_ => lastFlush end_.1) (some (.flush true, true, some [1], [1, 2])) rfl
    exact ⟨history, s, run, last, not_all_stored last (by simp)⟩
  · obtain ⟨history, s, run, last⟩ := Run.of_observation machine (new 3)
      [.write [1] true, .flush false, .flush true]
      (fun end_ => lastFlush end_.1) (some (.flush true, true, some [], [1])) rfl
    exact ⟨history, s, run, last, not_all_stored last (by simp)⟩

end S3Upload

end Roboflow.Storage
