import Roboflow.Library.GoodSteps
import Roboflow.Storage.CacheFiles

/-! Cache fills that fail, `cached/storage.rs`. The file in the cache gets its name before anything is
copied, and a file of that name is taken for the object: what a failed copy leaves is served from
then on. -/
namespace Roboflow.Storage
open Library

/-! ### A fill -/

/-- A pass of the copy loop: a read of some bytes that are written, or of which only some are, or a
read that fails. -/
inductive Transfer where
  | copied (length : Nat)
  | writeFails (length written : Nat)
  | readFails

/-- The buffer of the copy loop. -/
def fillBufferSize : Nat := 64 * 1024

/-- A read before the end gives something, and no more than the buffer holds. -/
def readLength (length : Nat) : Nat := max 1 (min length fillBufferSize)

/-- The copy loop on the rest of an object: what it writes, and whether it gets to the end. After the
passes given nothing fails. -/
def copyLoop : List Transfer → Bytes → Bytes × Bool
  | [], rest => (rest, true)
  | .readFails :: _, _ => ([], false)
  | .copied length :: later, rest =>
    if rest = [] then ([], true)
    else
      let (written, ended) := copyLoop later (rest.drop (readLength length))
      (rest.take (readLength length) ++ written, ended)
  | .writeFails length written :: _, rest =>
    if rest = [] then ([], true)
    else (rest.take (min written (min (readLength length) rest.length - 1)), false)

/-- How the steps of a fill go: the directory, the remote reader, the file, the copy, and opening the
file again for the caller, which a seekable reader does a second time. -/
structure Fill where
  makesDir : Bool
  opensRemote : Bool
  creates : Bool
  transfers : List Transfer
  opens : Bool
  reopens : Bool

namespace CachedStorage

/-- `reader`, and reading to the end. -/
def fillReader (s : CachedStorage) (fill : Fill) (moment : Moment) (path : String) :
    CachedStorage × Option Bytes :=
  match s.cached path with
  | some bytes => (s.recordAccess moment path, if fill.opens then some bytes else none)
  | none =>
    if !fill.makesDir || !fill.opensRemote then (s, none)
    else
      match s.remote.get path with
      | none => (s, none)
      | some content =>
        if !fill.creates then (s, none)
        else
          let (written, ended) := copyLoop fill.transfers content
          let s := s.place path written
          if !ended then (s, none)
          else
            let s := s.addToCache moment path written.length
            (s, if fill.opens then s.cached path else none)

/-- `seekable_reader`, and reading to the end. -/
def seekableReader (s : CachedStorage) (fill : Fill) (moment : Moment) (path : String) :
    CachedStorage × Option Bytes :=
  match s.cached path with
  | some bytes => (s.recordAccess moment path, if fill.opens then some bytes else none)
  | none =>
    match s.fillReader fill moment path with
    | (s, none) => (s, none)
    | (s, some _) => (s, if fill.reopens then s.cached path else none)

end CachedStorage

/-! ### The calls for a path -/

/-- A call for the path, with how it goes, or any change of the storage by other calls that keeps the
object and does not write the file in the cache. -/
inductive FillCall where
  | reader (fill : Fill) (moment : Moment)
  | seekableReader (fill : Fill) (moment : Moment)
  | size (succeeds : Bool)
  | elsewhere (next : CachedStorage)

/-- What a call gives, where it succeeds. -/
inductive FillAnswer where
  | bytes (given : Option Bytes)
  | length (given : Option Nat)
  | nothing
  deriving DecidableEq

namespace CachedStorage

def Elsewhere (path : String) (s next : CachedStorage) : Prop :=
  next.remote.get path = s.remote.get path ∧
    (next.cached path = s.cached path ∨ next.cached path = none)

instance (path : String) (s next : CachedStorage) : Decidable (Elsewhere path s next) :=
  inferInstanceAs (Decidable (_ ∧ _))

def fillStep (path : String) (s : CachedStorage) (call : FillCall) :
    Option (CachedStorage × FillAnswer) :=
  match call with
  | .reader fill moment =>
    let (s, bytes) := s.fillReader fill moment path
    some (s, .bytes bytes)
  | .seekableReader fill moment =>
    let (s, bytes) := s.seekableReader fill moment path
    some (s, .bytes bytes)
  | .size succeeds => some (s, .length (if succeeds then s.size path else none))
  | .elsewhere next => if Elsewhere path s next then some (next, .nothing) else none

def fillMachine (path : String) : Machine CachedStorage FillCall FillAnswer := ⟨fillStep path⟩

end CachedStorage

/-! ### What is promised, and when it is kept -/

/-- The first failure among the passes, if the loop gets to it: the number of bytes that were left. -/
def failure : List Transfer → Nat → Option Nat
  | [], _ => none
  | .readFails :: _, left => some left
  | .copied length :: later, left => if left = 0 then none else failure later (left - readLength length)
  | .writeFails _ _ :: _, left => if left = 0 then none else some left

/-- Something fails before the file is opened again. -/
def Fill.Fails (fill : Fill) (content : Bytes) : Prop :=
  fill.makesDir = false ∨ fill.opensRemote = false ∨ fill.creates = false ∨
    (failure fill.transfers content.length).isSome

/-- If the copy fails, then after everything was copied. -/
def Fill.Leaves (fill : Fill) (content : Bytes) : Prop :=
  fill.makesDir = true → fill.opensRemote = true → fill.creates = true →
    ∀ left ∈ failure fill.transfers content.length, left = 0

instance (fill : Fill) (content : Bytes) : Decidable (fill.Leaves content) :=
  inferInstanceAs (Decidable (_ → _ → _ → _))

/-- An answer is an error or the complete object. -/
def FillAnswer.Complete (content : Bytes) : FillAnswer → Prop
  | .bytes given => ∀ b ∈ given, b = content
  | .length given => ∀ n ∈ given, n = content.length
  | .nothing => True

/-- A fill that fails is an error, and neither this call nor a later one gives less than the object. -/
structure NothingTruncated (content : Bytes) (path : String)
    (e : Transition CachedStorage FillCall FillAnswer) : Prop where
  failed : ∀ fill moment, e.act = .reader fill moment ∨ e.act = .seekableReader fill moment →
    e.pre.cached path = none → fill.Fails content → e.out = .bytes none
  complete : e.out.Complete content
  later : ∀ call s answer, e.post.fillStep path call = some (s, answer) → answer.Complete content

/-- A fill that is needed leaves no part of the object. -/
def LeavesNoPart (content : Bytes) (path : String) (s : CachedStorage) : FillCall → Prop
  | .reader fill _ => s.cached path = none → fill.Leaves content
  | .seekableReader fill _ => s.cached path = none → fill.Leaves content
  | .size _ => True
  | .elsewhere _ => True

instance (content : Bytes) (path : String) (s : CachedStorage) :
    (call : FillCall) → Decidable (LeavesNoPart content path s call)
  | .reader fill _ => inferInstanceAs (Decidable (s.cached path = none → fill.Leaves content))
  | .seekableReader fill _ => inferInstanceAs (Decidable (s.cached path = none → fill.Leaves content))
  | .size _ => .isTrue trivial
  | .elsewhere _ => .isTrue trivial

/-- The object is there, and a copy in the cache is complete. -/
structure Intact (content : Bytes) (path : String) (s : CachedStorage) : Prop where
  remote : s.remote.get path = some content
  cached : ∀ b ∈ s.cached path, b = content

/-! ### The copy loop -/

theorem copyLoop_of_success {transfers : List Transfer} {rest : Bytes}
    (none_ : failure transfers rest.length = none) : copyLoop transfers rest = (rest, true) := by
  induction transfers generalizing rest with
  | nil => rfl
  | cons transfer later ih =>
    cases transfer with
    | readFails => cases none_
    | copied length =>
      unfold copyLoop
      split
      · rename_i empty
        rw [empty]
      · rename_i some_
        rw [failure, if_neg (by simpa using some_), ← List.length_drop] at none_
        rw [ih none_]
        simp
    | writeFails length written =>
      unfold copyLoop
      split
      · rename_i empty
        rw [empty]
      · rename_i some_
        rw [failure, if_neg (by simpa using some_)] at none_
        cases none_

/-- A failed copy has written everything exactly if nothing was left. -/
theorem copyLoop_of_failure {transfers : List Transfer} {rest : Bytes} {left : Nat}
    (some_ : failure transfers rest.length = some left) :
    (copyLoop transfers rest).2 = false ∧ ((copyLoop transfers rest).1 = rest ↔ left = 0) := by
  induction transfers generalizing rest with
  | nil => cases some_
  | cons transfer later ih =>
    cases transfer with
    | readFails =>
      obtain rfl := Option.some.inj some_
      refine ⟨rfl, ?_⟩
      rw [List.length_eq_zero_iff]
      exact eq_comm
    | copied length =>
      rw [failure] at some_
      by_cases empty : rest = []
      · rw [if_pos (by simp [empty])] at some_
        cases some_
      · rw [if_neg (by simpa using empty), ← List.length_drop] at some_
        obtain ⟨failed, whole⟩ := ih some_
        simp only [copyLoop, if_neg empty]
        refine ⟨failed, ?_⟩
        rw [← whole]
        conv_lhs => rhs; rw [← List.take_append_drop (readLength length) rest]
        exact List.append_right_inj _
    | writeFails length written =>
      rw [failure] at some_
      by_cases empty : rest = []
      · rw [if_pos (by simp [empty])] at some_
        cases some_
      · rw [if_neg (by simpa using empty)] at some_
        obtain rfl := Option.some.inj some_
        rw [copyLoop, if_neg empty]
        have positive := List.length_pos_iff.mpr empty
        refine ⟨rfl, iff_of_false (fun same => ?_) (Nat.ne_of_gt positive)⟩
        have lengths := congrArg List.length same
        rw [List.length_take] at lengths
        omega

/-! ### The calls -/

namespace CachedStorage

variable {s : CachedStorage} {path : String} {content : Bytes}

theorem recordAccess_cached (moment : Moment) (path other : String) :
    (s.recordAccess moment path).cached other = s.cached other := by
  unfold recordAccess cached
  rw [updateEntry_cache]

theorem place_cached (s : CachedStorage) (path : String) (bytes : Bytes) :
    (s.place path bytes).cached path = some bytes := by
  unfold cached
  rw [place_read, if_pos rfl]

/-- An addition leaves the file, or evicts it. -/
theorem addToCache_cached (s : CachedStorage) (moment : Moment) (path : String) (size : Nat) :
    (s.addToCache moment path size).cached path = s.cached path ∨
      (s.addToCache moment path size).cached path = none := by
  unfold cached
  rw [addToCache_read]
  split
  · exact .inr rfl
  · exact .inl rfl

/-- What a reader leaves and gives. -/
structure Filled (content : Bytes) (path : String) (s : CachedStorage) (fill : Fill)
    (result : CachedStorage × Option Bytes) : Prop where
  remote : result.1.remote.get path = some content
  given : ∀ b ∈ result.2, b = content
  failed : s.cached path = none → fill.Fails content → result.2 = none
  kept : (∀ b ∈ result.1.cached path, b = content) ↔ (s.cached path = none → fill.Leaves content)

/-- From the file in the cache. -/
theorem filled_of_hit {bytes : Bytes} (intact : Intact content path s)
    (hit : s.cached path = some bytes) (fill : Fill) (moment : Moment) :
    Filled content path s fill (s.recordAccess moment path, if fill.opens then some bytes else none) := by
  have whole := intact.cached bytes hit
  refine ⟨?_, fun b member => ?_, fun miss => ?_, iff_of_true (fun b member => ?_) fun miss => ?_⟩
  · unfold recordAccess
    rw [updateEntry_remote]
    exact intact.remote
  · rw [← whole]
    dsimp only at member
    split at member
    · exact (Option.some.inj member).symm
    · cases member
  · rw [hit] at miss
    cases miss
  · rw [recordAccess_cached] at member
    exact intact.cached b member
  · rw [hit] at miss
    cases miss

/-- A fill that ends before there is a file. -/
theorem filled_of_nothing (intact : Intact content path s) {fill : Fill}
    (early : fill.makesDir = false ∨ fill.opensRemote = false ∨ fill.creates = false) :
    Filled content path s fill (s, none) := by
  refine ⟨intact.remote, fun b member => ?_, fun _ _ => rfl, iff_of_true intact.cached fun _ => ?_⟩
  · cases member
  · intro makesDir opensRemote creates
    simp_all

theorem leaves_of_success {fill : Fill} (success : ¬fill.Fails content) : fill.Leaves content := by
  intro _ _ _ left some_
  refine absurd (.inr (.inr (.inr ?_))) success
  rw [Option.mem_def.mp some_]
  rfl

/-- A fill that copied the object. -/
theorem filled_of_success (intact : Intact content path s) {fill : Fill}
    (created : fill.makesDir = true ∧ fill.opensRemote = true ∧ fill.creates = true)
    (success : failure fill.transfers content.length = none) (size : Nat) (moment : Moment) :
    let after := (s.place path content).addToCache moment path size
    Filled content path s fill (after, if fill.opens then after.cached path else none) := by
  intro after
  have whole : ∀ b ∈ after.cached path, b = content := by
    intro b member
    rcases addToCache_cached (s.place path content) moment path size with same | evicted
    · rw [same, place_cached] at member
      exact (Option.some.inj member).symm
    · rw [evicted] at member
      cases member
  refine ⟨intact.remote, fun b member => ?_, fun _ fails => ?_, iff_of_true whole fun _ => ?_⟩
  · dsimp only at member
    split at member
    · exact whole b member
    · cases member
  · simp [Fill.Fails, created, success] at fails
  · exact leaves_of_success (by simp [Fill.Fails, created, success])

/-- A fill that failed while it copied. -/
theorem filled_of_failure (intact : Intact content path s) {fill : Fill} (miss : s.cached path = none)
    (created : fill.makesDir = true ∧ fill.opensRemote = true ∧ fill.creates = true)
    (failed : failure fill.transfers content.length = some left) :
    Filled content path s fill (s.place path (copyLoop fill.transfers content).1, none) := by
  refine ⟨intact.remote, fun b member => ?_, fun _ _ => rfl, ?_⟩
  · cases member
  · have part := (copyLoop_of_failure failed).2
    dsimp only
    rw [place_cached]
    simp [Fill.Leaves, created, failed, part, miss]

theorem fillReader_filled (intact : Intact content path s) (fill : Fill) (moment : Moment) :
    Filled content path s fill (s.fillReader fill moment path) := by
  unfold fillReader
  cases hit : s.cached path with
  | some bytes => exact filled_of_hit intact hit fill moment
  | none =>
    dsimp only
    rw [intact.remote]
    dsimp only
    split
    · rename_i early
      refine filled_of_nothing intact ?_
      simpa [or_assoc] using Or.inl early
    · rename_i opened
      split
      · rename_i uncreated
        exact filled_of_nothing intact (.inr (.inr (by simpa using uncreated)))
      · rename_i created
        cases copied : failure fill.transfers content.length with
        | none =>
          rw [copyLoop_of_success copied]
          refine filled_of_success intact ?_ copied _ moment
          simpa [and_assoc] using And.intro opened created
        | some left =>
          rw [(copyLoop_of_failure copied).1]
          refine filled_of_failure intact hit ?_ copied
          simpa [and_assoc] using And.intro opened created

theorem seekableReader_filled (intact : Intact content path s) (fill : Fill) (moment : Moment) :
    Filled content path s fill (s.seekableReader fill moment path) := by
  unfold seekableReader
  cases hit : s.cached path with
  | some bytes => exact filled_of_hit intact hit fill moment
  | none =>
    have filled := fillReader_filled intact fill moment
    dsimp only
    cases result : s.fillReader fill moment path with
    | mk after given =>
      rw [result] at filled
      cases given with
      | none => exact filled
      | some bytes =>
        have copied : ¬fill.Fails content := by
          intro fails
          cases filled.failed hit fails
        have whole := filled.kept.mpr fun _ => leaves_of_success copied
        refine ⟨filled.remote, fun b member => ?_, fun _ fails => absurd fails copied, filled.kept⟩
        dsimp only at member
        split at member
        · exact whole b member
        · cases member

theorem size_complete (intact : Intact content path s) : ∀ n ∈ s.size path, n = content.length := by
  intro n member
  unfold size at member
  cases hit : s.cached path with
  | some bytes =>
    rw [hit] at member
    rw [← intact.cached bytes hit]
    exact (Option.some.inj member).symm
  | none =>
    rw [hit, intact.remote] at member
    exact (Option.some.inj member).symm

/-- With nothing less than the object in the cache, no call gives less. -/
theorem complete_of_intact (intact : Intact content path s)
    (moved : s.fillStep path call = some (s', answer)) : answer.Complete content := by
  cases call with
  | reader fill moment =>
    obtain ⟨-, rfl⟩ := Prod.mk.inj (Option.some.inj moved)
    exact (fillReader_filled intact fill moment).given
  | seekableReader fill moment =>
    obtain ⟨-, rfl⟩ := Prod.mk.inj (Option.some.inj moved)
    exact (seekableReader_filled intact fill moment).given
  | size succeeds =>
    obtain ⟨-, rfl⟩ := Prod.mk.inj (Option.some.inj moved)
    intro n member
    split at member
    · exact size_complete intact n member
    · cases member
  | elsewhere next =>
    unfold fillStep at moved
    dsimp only at moved
    split at moved
    · obtain ⟨-, rfl⟩ := Prod.mk.inj (Option.some.inj moved)
      trivial
    · cases moved

/-- A moment at which nothing changes its order. -/
def still : Moment := ⟨0, id, fun _ => .rfl⟩

/-- A reader of what is in the cache. -/
theorem later_iff (remote : s.remote.get path = some content) :
    (∀ call s' answer, s.fillStep path call = some (s', answer) → answer.Complete content) ↔
      ∀ b ∈ s.cached path, b = content := by
  constructor
  · intro later b hit
    have answer := later (.reader ⟨true, true, true, [], true, true⟩ still) _ _ rfl
    rw [Option.mem_def.mp hit] at answer
    exact answer b rfl
  · intro whole call s' answer moved
    exact complete_of_intact ⟨remote, whole⟩ moved

/-- A call that reads, by what it leaves and gives. -/
theorem read_judged {result : CachedStorage × Option Bytes} {call : FillCall} {fill : Fill}
    (filled : Filled content path s fill result)
    (own : ∀ other moment, call = .reader other moment ∨ call = .seekableReader other moment →
      other = fill)
    (leaves : LeavesNoPart content path s call ↔ (s.cached path = none → fill.Leaves content)) :
    (NothingTruncated content path ⟨s, call, .bytes result.2, result.1⟩ ↔
      LeavesNoPart content path s call) ∧
    (LeavesNoPart content path s call → Intact content path result.1) := by
  rw [leaves, ← filled.kept]
  refine ⟨⟨fun truncates => ?_, fun whole => ?_⟩, fun whole => ⟨filled.remote, whole⟩⟩
  · exact (later_iff filled.remote).mp truncates.later
  · refine ⟨fun other moment same miss fails => ?_, filled.given, (later_iff filled.remote).mpr whole⟩
    obtain rfl := own other moment same
    exact congrArg FillAnswer.bytes (filled.failed miss fails)

/-- A call that does not fill. -/
theorem other_judged {call : FillCall} {answer : FillAnswer}
    (other : ∀ fill moment, call ≠ .reader fill moment ∧ call ≠ .seekableReader fill moment)
    (complete : answer.Complete content) (intact : Intact content path s') :
    NothingTruncated content path ⟨s, call, answer, s'⟩ := by
  refine ⟨fun fill moment same => ?_, complete, (later_iff intact.remote).mpr intact.cached⟩
  exact absurd same (not_or.mpr (other fill moment))

/-- Each call from an intact state truncates nothing exactly if a fill that it makes leaves no part,
and then leaves an intact state. -/
theorem fill_judged (path : String) (content : Bytes) :
    Judged (fillMachine path) (Intact content path) (NothingTruncated content path)
      (LeavesNoPart content path) := by
  have each : ∀ s call s' answer, Intact content path s → s.fillStep path call = some (s', answer) →
      (NothingTruncated content path ⟨s, call, answer, s'⟩ ↔ LeavesNoPart content path s call) ∧
      (LeavesNoPart content path s call → Intact content path s') := by
    intro s call s' answer intact moved
    have complete := complete_of_intact intact moved
    cases call with
    | reader fill moment =>
      obtain ⟨rfl, rfl⟩ := Prod.mk.inj (Option.some.inj moved)
      refine read_judged (fillReader_filled intact fill moment) ?_ Iff.rfl
      rintro other moment (same | same)
      · exact (FillCall.reader.inj same).1.symm
      · cases same
    | seekableReader fill moment =>
      obtain ⟨rfl, rfl⟩ := Prod.mk.inj (Option.some.inj moved)
      refine read_judged (seekableReader_filled intact fill moment) ?_ Iff.rfl
      rintro other moment (same | same)
      · cases same
      · exact (FillCall.seekableReader.inj same).1.symm
    | size succeeds =>
      obtain ⟨rfl, -⟩ := Prod.mk.inj (Option.some.inj moved)
      refine ⟨iff_of_true (other_judged ?_ complete intact) trivial, fun _ => intact⟩
      intro fill moment
      constructor
      · rintro ⟨⟩
      · rintro ⟨⟩
    | elsewhere next =>
      unfold fillStep at moved
      dsimp only at moved
      split at moved
      · rename_i allowed
        obtain ⟨rfl, -⟩ := Prod.mk.inj (Option.some.inj moved)
        have after : Intact content path next := by
          refine ⟨allowed.1.trans intact.remote, fun b member => ?_⟩
          rcases allowed.2 with same | removed
          · exact intact.cached b (same ▸ member)
          · rw [removed] at member
            cases member
        refine ⟨iff_of_true (other_judged ?_ complete after) trivial, fun _ => after⟩
        intro fill moment
        constructor
        · rintro ⟨⟩
        · rintro ⟨⟩
      · cases moved
  refine ⟨fun s call s' answer intact moved => ?_, fun s call s' answer intact moved => ?_⟩
  · exact (each s call s' answer intact moved).1
  · exact (each s call s' answer intact moved).2

/-- In every run from a storage with the object and no copy of it in the cache but a complete one:
nothing less than the object is served if and only if no fill leaves a part of it. -/
theorem nothing_truncated_iff (intact : Intact content path start)
    (run : Run (fillMachine path) start history s) :
    (∀ e ∈ history, NothingTruncated content path e) ↔
      ∀ e ∈ history, LeavesNoPart content path e.pre e.act :=
  (fill_judged path content).run_iff intact run

/-- A storage of one object, with nothing in the cache. -/
def oneObject : CachedStorage :=
  .new ⟨10, 9, 1, 8, .lru, true⟩ (Kv.empty.put "a" [1, 2, 3, 4])

theorem oneObject_intact : Intact [1, 2, 3, 4] "a" oneObject :=
  ⟨rfl, by rintro b ⟨⟩⟩

/-- A fill without a file, one that fails after everything was copied, and readers after them. -/
theorem object_filled : ∃ history s, Run (fillMachine "a") oneObject history s ∧
    s.cached "a" = some [1, 2, 3, 4] ∧ ∀ e ∈ history, NothingTruncated [1, 2, 3, 4] "a" e := by
  obtain ⟨history, s, run, seen⟩ := Run.of_observation (fillMachine "a") oneObject
    [.reader ⟨true, true, false, [], true, true⟩ still, .size true,
      .seekableReader ⟨true, true, true, [.copied 3, .copied 5, .readFails], true, true⟩ still,
      .reader ⟨true, true, true, [], true, true⟩ still]
    (fun end_ => (end_.2.cached "a", decide (∀ e ∈ end_.1, LeavesNoPart [1, 2, 3, 4] "a" e.pre e.act)))
    (some [1, 2, 3, 4], true) (by decide +kernel)
  obtain ⟨cached, leaves⟩ := Prod.mk.inj seen
  exact ⟨history, s, run, cached,
    (nothing_truncated_iff oneObject_intact run).mpr (of_decide_eq_true leaves)⟩

/-- The remote fails after two bytes, and the next reader is given these. -/
theorem half_object_served : ∃ history s, Run (fillMachine "a") oneObject history s ∧
    history.head?.map (fun e => e.out) = some (.bytes (some [1, 2])) ∧
    ¬∀ e ∈ history, NothingTruncated [1, 2, 3, 4] "a" e := by
  obtain ⟨history, s, run, seen⟩ := Run.of_observation (fillMachine "a") oneObject
    [.reader ⟨true, true, true, [.copied 2, .readFails], true, true⟩ still,
      .reader ⟨true, true, true, [], true, true⟩ still]
    (fun end_ => end_.1.head?.map fun e => e.out) (some (.bytes (some [1, 2]))) (by decide +kernel)
  refine ⟨history, s, run, seen, fun truncates => ?_⟩
  obtain ⟨e, head, out⟩ := Option.map_eq_some_iff.mp seen
  have complete := (truncates e (List.mem_of_mem_head? head)).complete
  rw [out] at complete
  cases complete _ rfl

end CachedStorage

end Roboflow.Storage
