import Roboflow.Library.GoodSteps
import Roboflow.Library.PrefixRanges
import Roboflow.Batch.KeyFamilies

/-! Claims over the store that all components share. `claim_work_unit` takes the first key of a scan
whose prefix has no slash at its end, and the keys of the store that begin with the same word are
not all queue entries. A metadata key of a batch whose id begins with `pending-` or `pending.` comes
before the queue; the claim takes it for an entry, finds no unit and deletes it. -/
namespace Roboflow.Batch
open Library Tikv Metadata Assembly

/-- A `claim_work_unit` between its scan and its transaction. -/
structure HeldClaim where
  worker : String
  pendingKey : Bytes
  unitKey : Bytes

structure SharedStore where
  store : Kv Bytes Bytes
  claims : Nat → Option HeldClaim

/-- A key that one of the builders made from an accepted id. -/
abbrev BuiltKey := { key : TikvKey // key.Valid }

/-- The two steps of a claim, and the writes of every other component. -/
inductive SharedAct where
  | scan (task : Nat) (worker : String)
  | txn (task : Nat) (now : Time)
  | put (key : BuiltKey) (value : Bytes)
  | delete (key : BuiltKey)

inductive SharedOut where
  | working
  | notClaimed
  | claimed (unit : WorkUnit)
  /-- `Claim processor failed`: the value is no work unit. -/
  | failed
  | done

def pendingText : String := "/roboflow/v1/batch/pending"

/-- Batch and unit of a pending key, as `claim_work_unit` reads them. `from_utf8_lossy` gives back
the text of a key; a key that is no text does not occur. -/
def claimTarget (key : Bytes) : Option (String × String) :=
  (ofUtf8? key).bind fun text =>
    (pendingText.toList.isPrefixOf? text.toList).bind fun suffix =>
      (splitOnce (suffix.dropWhile (· = '/'))).map fun parts => (String.ofList parts.1, String.ofList parts.2)

def SharedStore.initial : SharedStore := ⟨.empty, fun _ => none⟩

section Machine
-- What bincode reads and writes.
variable (read : Bytes → Option WorkUnit) (write : WorkUnit → Bytes)

def sharedStep (s : SharedStore) : SharedAct → Option (SharedStore × SharedOut)
  | .scan task worker =>
    match s.claims task with
    | some _ => none
    | none =>
      match scan s.store TikvScan.pending.bytes 1 with
      | [] => some (s, .notClaimed)
      | (pendingKey, _) :: _ =>
        match claimTarget pendingKey with
        | none => some (s, .notClaimed)
        | some (batchId, unitId) =>
          let held := ⟨worker, pendingKey, (TikvKey.batch (.unit batchId unitId)).bytes⟩
          some ({ s with claims := Function.update s.claims task (some held) }, .working)
  | .txn task now =>
    match s.claims task with
    | none => none
    | some held =>
      let claims := Function.update s.claims task none
      match s.store.get held.unitKey with
      -- `transactional_claim`: no such unit, so the index entry is cleaned up.
      | none => some (⟨s.store.delete held.pendingKey, claims⟩, .notClaimed)
      | some data =>
        match read data with
        | none => some (⟨s.store, claims⟩, .failed)
        | some unit =>
          match unit.claim held.worker now with
          | .error _ => some (⟨s.store, claims⟩, .notClaimed)
          | .ok unit' =>
            some (⟨(s.store.put held.unitKey (write unit')).delete held.pendingKey, claims⟩, .claimed unit')
  | .put key value => some ({ s with store := s.store.put key.1.bytes value }, .done)
  | .delete key => some ({ s with store := s.store.delete key.1.bytes }, .done)

def sharedStore : Machine SharedStore SharedAct SharedOut := ⟨sharedStep read write⟩

end Machine

/-! ### What a claim is for -/

/-- The prefix of the queue as it is documented, with its slash. -/
def documentedPrefix : Bytes := utf8 (pendingText ++ "/")

def TikvKey.OfQueue : TikvKey → Prop
  | .batch (.unit _ _) | .batch (.pending _ _) => True
  | _ => False

/-- A scan takes the first entry of the queue, and a transaction changes only units and the queue. -/
def TakesQueued (e : Transition SharedStore SharedAct SharedOut) : Prop :=
  match e.act with
  | .scan task _ => (e.post.claims task).map HeldClaim.pendingKey =
      (scan e.pre.store documentedPrefix 1).head?.map Prod.fst
  | .txn _ _ => ∀ key : BuiltKey, ¬key.1.OfQueue →
      e.post.store.get key.1.bytes = e.pre.store.get key.1.bytes
  | _ => True

def SharedStore.Has (s : SharedStore) (key : TikvKey) : Prop := (s.store.get key.bytes).isSome

/-- At a scan, metadata whose batch id begins with `pending` stands behind the queue. -/
def QueueFirst (s : SharedStore) : SharedAct → Prop
  | .scan _ _ => ∀ batchId key, validateBatchId batchId = .ok () → s.Has (.metadata batchId key) →
      "pending".toList <+: batchId.toList →
        (∃ owner unitId, validateBatchId owner = .ok () ∧ s.Has (.batch (.pending owner unitId))) ∧
        ¬"pending-".toList <+: batchId.toList ∧ ¬"pending.".toList <+: batchId.toList
  | _ => True

/-! ### Keys that begin with the word of the queue -/

theorem utf8_cons {c : Char} (ascii : c.toNat < 128) (rest : List Char) :
    utf8 (String.ofList (c :: rest)) = UInt8.ofNat c.toNat :: utf8 (String.ofList rest) := by
  have small : c.val.toNat ≤ 127 := Nat.le_of_lt_succ ascii
  rw [utf8_eq, utf8_eq, String.toList_ofList, String.toList_ofList, List.flatMap_cons,
    String.utf8EncodeChar, if_pos small]
  rfl

theorem pending_bytes (batchId unitId : String) : (TikvKey.batch (.pending batchId unitId)).bytes =
    utf8 pendingText ++ utf8 (String.ofList ('/' :: (batchId.toList ++ '/' :: unitId.toList))) := by
  rw [TikvKey.bytes_eq, ← utf8_append, utf8_inj, ← String.toList_inj]
  simp [TikvKey.text, TikvKey.parts, TikvKey.last, pathText, pendingText]

theorem metadata_bytes {rest : List Char} (begins : batchId.toList = "pending".toList ++ rest)
    (key : MetadataKey) : (TikvKey.metadata batchId key).bytes =
      utf8 pendingText ++ (utf8 (String.ofList (rest ++ ['/'])) ++ key.tail) := by
  have start : metadataPrefix ++ "/" ++ batchId ++ "/" = pendingText ++ String.ofList (rest ++ ['/']) := by
    rw [← String.toList_inj, String.toList_append, String.toList_append, String.toList_append, begins,
      String.toList_append, String.toList_ofList]
    simp [metadataPrefix, pendingText]
  rw [TikvKey.bytes, MetadataKey.bytes_eq, batchStart, start, utf8_append, List.append_assoc]

/-- The characters of an accepted id, against the slash. -/
theorem validateBatchId_chars (accepted : validateBatchId batchId = .ok ()) :
    ∀ c ∈ batchId.toList, c.toNat < 128 ∧ (c = '-' ∨ c = '.' ∨ '/'.toNat < c.toNat) := by
  have labels : ∀ label, isValidLabel label = true →
      ∀ c ∈ label, c.toNat < 128 ∧ (c = '-' ∨ c = '.' ∨ '/'.toNat < c.toNat) := by
    intro label valid c member
    rw [isValidLabel, Bool.and_eq_true, List.all_eq_true] at valid
    have kinds := valid.2 c member
    simp only [Bool.or_eq_true, Bool.and_eq_true, decide_eq_true_eq] at kinds
    rcases kinds with ((⟨low, high⟩ | ⟨low, high⟩) | rfl) | rfl
    · have low : 97 ≤ c.toNat := low
      have high : c.toNat ≤ 122 := high
      have slash : '/'.toNat = 47 := rfl
      omega
    · have low : 48 ≤ c.toNat := low
      have high : c.toNat ≤ 57 := high
      have slash : '/'.toNat = 47 := rfl
      omega
    · decide
    · decide
  simp only [validateBatchId] at accepted
  repeat' split at accepted
  all_goals cases accepted
  rename_i colon label parts _ _ space name
  have separator : colon = ':' := by
    have := List.head?_dropWhile_not (· ≠ ':') batchId.toList
    rw [parts] at this
    simpa using this
  intro c member
  rw [← List.takeWhile_append_dropWhile (p := (· ≠ ':')) (l := batchId.toList), parts, separator,
    List.mem_append, List.mem_cons] at member
  rcases member with inSpace | rfl | inName
  · exact labels _ (by simpa using space) c inSpace
  · decide
  · exact labels _ (by simpa using name) c inName

theorem TikvKey.valid_metadata (key : MetadataKey) :
    (TikvKey.metadata batchId key).Valid ↔ validateBatchId batchId = .ok () := by
  cases key <;> rfl

/-- An accepted id has more than the word `pending`, and goes on with another byte than a queue entry. -/
theorem metadata_first_byte (accepted : validateBatchId batchId = .ok ())
    (begins : "pending".toList <+: batchId.toList) (key : MetadataKey) :
    ∃ b tail, (TikvKey.metadata batchId key).bytes = utf8 pendingText ++ b :: tail ∧ b ≠ 47 ∧
      (b < 47 ↔ "pending-".toList <+: batchId.toList ∨ "pending.".toList <+: batchId.toList) := by
  obtain ⟨rest, whole⟩ := begins
  have chars := validateBatchId_chars accepted
  have colon := validateBatchId_colon accepted
  rw [metadata_bytes whole.symm key]
  rw [← whole] at chars colon ⊢
  cases rest with
  | nil => exact absurd colon (by decide)
  | cons c more =>
    obtain ⟨ascii, kind⟩ := chars c (by simp)
    refine ⟨UInt8.ofNat c.toNat, _, by rw [List.cons_append, utf8_cons ascii, List.cons_append], ?_⟩
    have starts : ∀ d : Char, ("pending".toList ++ [d] <+: "pending".toList ++ c :: more) ↔ d = c := by
      intro d
      rw [List.prefix_append_right_inj, List.cons_prefix_cons]
      simp
    rw [show "pending-".toList = "pending".toList ++ ['-'] from rfl,
      show "pending.".toList = "pending".toList ++ ['.'] from rfl, starts, starts]
    rcases kind with rfl | rfl | above
    · decide
    · decide
    · have value : (UInt8.ofNat c.toNat).toNat = c.toNat := by
        rw [UInt8.toNat_ofNat', Nat.mod_eq_of_lt (by omega)]
      have slash : '/'.toNat = 47 := rfl
      refine ⟨fun same => ?_, iff_of_false (fun below => ?_) ?_⟩
      · rw [same] at value
        have : (47 : UInt8).toNat = 47 := rfl
        omega
      · rw [UInt8.lt_iff_toNat_lt, value] at below
        have : (47 : UInt8).toNat = 47 := rfl
        omega
      · rintro (rfl | rfl) <;> exact absurd above (by decide)

theorem pending_first_byte (batchId unitId : String) : ∃ tail,
    (TikvKey.batch (.pending batchId unitId)).bytes = utf8 pendingText ++ 47 :: tail :=
  ⟨_, by rw [pending_bytes, utf8_cons (by decide)]; rfl⟩

theorem pending_scan_bytes : TikvScan.pending.bytes = utf8 pendingText := by
  rw [TikvScan.bytes_eq, utf8_inj, ← String.toList_inj]
  simp [TikvScan.text, TikvScan.parts, TikvScan.last, pathText, pendingText]

/-- What the scan of a claim reaches. -/
theorem inScan_pending {key : TikvKey} (valid : key.Valid)
    (reached : inScan TikvScan.pending.bytes key.bytes = true) :
    (∃ batchId unitId, key = .batch (.pending batchId unitId)) ∨
      ∃ batchId key', key = .metadata batchId key' ∧ validateBatchId batchId = .ok () ∧
        "pending".toList <+: batchId.toList := by
  have fixed : TikvScan.pending.Valid := trivial
  rw [TikvScan.inScan_iff_reaches fixed valid] at reached
  cases key with
  | batch key =>
    cases key with
    | pending batchId unitId => exact .inl ⟨batchId, unitId, rfl⟩
    | _ => exact absurd reached (by simp [TikvScan.Reaches])
  | metadata batchId key =>
    refine .inr ⟨batchId, key, rfl, (TikvKey.valid_metadata key).mp valid, ?_⟩
    cases key <;> exact reached
  | _ => exact absurd reached (by simp [TikvScan.Reaches])

/-- The documented prefix reaches the queue and nothing else. -/
theorem inScan_documented {key : TikvKey} (valid : key.Valid) : inScan documentedPrefix key.bytes = true ↔
    ∃ batchId unitId, key = .batch (.pending batchId unitId) := by
  have slash : documentedPrefix = utf8 pendingText ++ [47] := by
    rw [documentedPrefix, utf8_append]
    rfl
  have text := TikvKey.bytes_eq key
  have starts : inScan documentedPrefix (utf8 (String.ofList key.text)) = true ↔
      documentedPrefix <+: utf8 (String.ofList key.text) := inScan_utf8
  rw [← text] at starts
  rw [starts, slash]
  constructor
  · intro begins
    have reached : inScan TikvScan.pending.bytes key.bytes = true := by
      rw [pending_scan_bytes, text, inScan_utf8, ← text]
      exact (List.prefix_append _ _).trans begins
    rcases inScan_pending valid reached with queued | ⟨batchId, key', rfl, accepted, word⟩
    · exact queued
    · obtain ⟨b, tail, bytes, different, -⟩ := metadata_first_byte accepted word key'
      rw [bytes, List.prefix_append_right_inj, List.cons_prefix_cons] at begins
      exact absurd begins.1.symm different
  · rintro ⟨batchId, unitId, rfl⟩
    obtain ⟨tail, bytes⟩ := pending_first_byte batchId unitId
    rw [bytes, List.prefix_append_right_inj, List.cons_prefix_cons]
    exact ⟨rfl, List.nil_prefix⟩

/-! ### The first key of a scan -/

/-- Every key was made by one of the builders. -/
def Built (store : Kv Bytes Bytes) : Prop :=
  ∀ key value, store.get key = some value → ∃ k : BuiltKey, key = k.1.bytes

theorem Built.put (built : Built store) (key : BuiltKey) (value : Bytes) :
    Built (store.put key.1.bytes value) := by
  intro other found stored
  rw [Kv.get_put] at stored
  split at stored
  · rename_i same
    exact ⟨key, same⟩
  · exact built other found stored

theorem Built.delete (built : Built store) (key : Bytes) : Built (store.delete key) := by
  intro other found stored
  rw [Kv.get_delete] at stored
  split at stored
  · cases stored
  · exact built other found stored

/-- Where nothing begins with `pending-` or `pending.`, metadata comes after every queue entry. -/
theorem pending_le_metadata (accepted : validateBatchId batchId = .ok ())
    (begins : "pending".toList <+: batchId.toList) (key : MetadataKey) (owner unitId : String) :
    ((TikvKey.metadata batchId key).bytes ≤ (TikvKey.batch (.pending owner unitId)).bytes ↔
      "pending-".toList <+: batchId.toList ∨ "pending.".toList <+: batchId.toList) ∧
    ((TikvKey.batch (.pending owner unitId)).bytes ≤ (TikvKey.metadata batchId key).bytes ↔
      ¬("pending-".toList <+: batchId.toList ∨ "pending.".toList <+: batchId.toList)) := by
  obtain ⟨b, tail, metadata, different, early⟩ := metadata_first_byte accepted begins key
  obtain ⟨rest, queued⟩ := pending_first_byte owner unitId
  rw [metadata, queued, ← early, ← not_lt, ← not_lt, append_lt_append_iff, append_lt_append_iff,
    List.cons_lt_cons_iff, List.cons_lt_cons_iff]
  rcases lt_or_gt_of_ne different with below | above
  · simp [below, below.not_gt, different.symm]
  · simp [above, above.not_gt, different]

theorem queued_reached (valid : (TikvKey.batch (.pending batchId unitId)).Valid) :
    inScan TikvScan.pending.bytes (TikvKey.batch (.pending batchId unitId)).bytes = true := by
  have fixed : TikvScan.pending.Valid := trivial
  rw [TikvScan.inScan_iff_reaches fixed valid]
  trivial

theorem metadata_reached (accepted : validateBatchId batchId = .ok ())
    (begins : "pending".toList <+: batchId.toList) (key : MetadataKey) :
    inScan TikvScan.pending.bytes (TikvKey.metadata batchId key).bytes = true := by
  have fixed : TikvScan.pending.Valid := trivial
  rw [TikvScan.inScan_iff_reaches fixed ((TikvKey.valid_metadata key).mpr accepted)]
  exact begins

/-- What the documented prefix reaches, the scan of a claim reaches too. -/
theorem documented_reached (built : Built store) (stored : entry ∈ store.entries)
    (reached : inScan documentedPrefix entry.1 = true) :
    inScan TikvScan.pending.bytes entry.1 = true := by
  obtain ⟨⟨k, valid⟩, same⟩ := built entry.1 entry.2 (store.mem_entries.mp stored)
  rw [same] at reached ⊢
  obtain ⟨batchId, unitId, rfl⟩ := (inScan_documented valid).mp reached
  exact queued_reached valid

/-- The scan of a claim gives what the documented prefix would give exactly if the metadata it also
reaches stands behind the queue. -/
theorem first_scanned_iff {s : SharedStore} (built : Built s.store) (task : Nat) (worker : String) :
    (scan s.store TikvScan.pending.bytes 1).head?.map Prod.fst =
        (scan s.store documentedPrefix 1).head?.map Prod.fst ↔ QueueFirst s (.scan task worker) := by
  have found : ∀ {key : TikvKey}, s.Has key → ∃ entry ∈ s.store.entries, entry.1 = key.bytes := by
    intro key has
    obtain ⟨value, stored⟩ := Option.isSome_iff_exists.mp has
    exact ⟨(key.bytes, value), s.store.mem_entries.mpr stored, rfl⟩
  rcases scan_one_cases s.store (inScan TikvScan.pending.bytes) with ⟨empty, nothing⟩ | ⟨entry, first⟩
  · -- Nothing begins with the word.
    have unqueued : scan s.store documentedPrefix 1 = [] := by
      rcases scan_one_cases s.store (inScan documentedPrefix) with ⟨unqueued, -⟩ | ⟨entry, first⟩
      · exact unqueued
      · obtain ⟨stored, reached, -⟩ := (scan_one_iff _ _ _).mp first
        have missed := nothing entry stored
        rw [documented_reached built stored reached] at missed
        cases missed
    refine iff_of_true (by rw [unqueued, scan, empty]) fun batchId key accepted has begins => ?_
    obtain ⟨entry, stored, same⟩ := found has
    have missed := nothing entry stored
    rw [same, metadata_reached accepted begins key] at missed
    cases missed
  · obtain ⟨stored, reached, least⟩ := (scan_one_iff _ _ _).mp first
    obtain ⟨⟨k, valid⟩, same⟩ := built entry.1 entry.2 (s.store.mem_entries.mp stored)
    rw [scan, first]
    rcases inScan_pending valid (same ▸ reached) with ⟨owner, unitId, rfl⟩ | ⟨batchId, key, rfl, accepted, begins⟩
    · -- The first key is a queue entry.
      have queued : scan s.store documentedPrefix 1 = [entry] := by
        refine (scan_one_iff _ _ _).mpr ⟨stored, ?_, fun other inside within => ?_⟩
        · rw [same]
          exact (inScan_documented valid).mpr ⟨owner, unitId, rfl⟩
        · exact least other inside (documented_reached built inside within)
      refine iff_of_true (by rw [queued]) fun batchId key accepted has begins => ?_
      obtain ⟨other, inside, otherSame⟩ := found has
      have before := least other inside (by rw [otherSame]; exact metadata_reached accepted begins key)
      rw [same, otherSame, (pending_le_metadata accepted begins key owner unitId).2, not_or] at before
      refine ⟨⟨owner, unitId, valid, ?_⟩, before⟩
      exact Option.isSome_iff_exists.mpr ⟨entry.2, by rw [← same]; exact s.store.mem_entries.mp stored⟩
    · -- The first key is metadata.
      refine iff_of_false (fun agree => ?_) fun queueFirst => ?_
      · rcases scan_one_cases s.store (inScan documentedPrefix) with ⟨unqueued, -⟩ | ⟨other, queued⟩
        · rw [scan, unqueued] at agree
          cases agree
        · obtain ⟨-, within, -⟩ := (scan_one_iff _ _ _).mp queued
          rw [scan, queued] at agree
          have sameKey : entry.1 = other.1 := Option.some.inj agree
          rw [← sameKey, same] at within
          obtain ⟨_, _, mixed⟩ := (inScan_documented valid).mp within
          cases mixed
      · have has : s.Has (.metadata batchId key) :=
          Option.isSome_iff_exists.mpr ⟨entry.2, by rw [← same]; exact s.store.mem_entries.mp stored⟩
        obtain ⟨⟨owner, unitId, ownerAccepted, queued⟩, late⟩ := queueFirst batchId key accepted has begins
        obtain ⟨other, inside, otherSame⟩ := found queued
        have before := least other inside (by rw [otherSame]; exact queued_reached ownerAccepted)
        rw [same, otherSame, (pending_le_metadata accepted begins key owner unitId).1] at before
        exact not_or.mpr late before

/-! ### Reading a key as a queue entry -/

theorem claimTarget_text (suffix : List Char) :
    claimTarget (utf8 (pendingText ++ String.ofList suffix)) =
      (splitOnce (suffix.dropWhile (· = '/'))).map fun parts => (String.ofList parts.1, String.ofList parts.2) := by
  have text : ofUtf8? (utf8 (pendingText ++ String.ofList suffix)) = some (pendingText ++ String.ofList suffix) :=
    ofUtf8?_eq_some.mpr rfl
  have cut : pendingText.toList.isPrefixOf? (pendingText ++ String.ofList suffix).toList = some suffix := by
    rw [List.isPrefixOf?_eq_some_iff_append_eq, String.toList_append, String.toList_ofList]
  rw [claimTarget, text, Option.bind_some, cut, Option.bind_some]

/-- An entry of the queue is read as its own batch and unit. -/
theorem claimTarget_pending (accepted : validateBatchId batchId = .ok ()) (unitId : String) :
    claimTarget (TikvKey.batch (.pending batchId unitId)).bytes = some (batchId, unitId) := by
  have free : '/' ∉ batchId.toList := validateBatchId_slashFree accepted
  have nonempty := List.ne_nil_of_mem (validateBatchId_colon accepted)
  rw [pending_bytes, ← utf8_append, claimTarget_text, List.dropWhile_cons_of_pos (by simp),
    dropWhile_part free nonempty, splitOnce_part free]
  simp

/-- Metadata that the scan reaches is read as an entry too. -/
theorem claimTarget_metadata (accepted : validateBatchId batchId = .ok ())
    (begins : "pending".toList <+: batchId.toList) (key : MetadataKey) :
    (claimTarget (TikvKey.metadata batchId key).bytes).isSome := by
  obtain ⟨rest, whole⟩ := begins
  have free : '/' ∉ batchId.toList := validateBatchId_slashFree accepted
  have colon := validateBatchId_colon accepted
  obtain ⟨tail, text⟩ : ∃ tail, (TikvKey.metadata batchId key).text =
      "/roboflow/v1/batch/".toList ++ (batchId.toList ++ '/' :: tail) := by
    cases key <;> exact ⟨_, rfl⟩
  rw [← whole] at free colon text
  have nonempty : rest ≠ [] := by
    rintro rfl
    exact absurd colon (by decide)
  have restFree : '/' ∉ rest := fun slash => free (List.mem_append_right _ slash)
  have bytes : (TikvKey.metadata batchId key).bytes = utf8 (pendingText ++ String.ofList (rest ++ '/' :: tail)) := by
    rw [TikvKey.bytes_eq, text, utf8_inj, ← String.toList_inj]
    simp only [String.toList_append, String.toList_ofList, List.append_assoc]
    rfl
  rw [bytes, claimTarget_text, dropWhile_part restFree nonempty, splitOnce_part restFree]
  rfl

/-! ### Claims along a run -/

/-- What the claims under way hold is an entry of the queue and its unit. -/
def HoldsQueued (s : SharedStore) : Prop :=
  ∀ task held, s.claims task = some held → ∃ batchId unitId, validateBatchId batchId = .ok () ∧
    held.pendingKey = (TikvKey.batch (.pending batchId unitId)).bytes ∧
    held.unitKey = (TikvKey.batch (.unit batchId unitId)).bytes

structure Orderly (s : SharedStore) : Prop where
  built : Built s.store
  held : HoldsQueued s

theorem HoldsQueued.end (held : HoldsQueued s) (task : Nat) (store : Kv Bytes Bytes) :
    HoldsQueued ⟨store, Function.update s.claims task none⟩ := by
  intro other claim holds
  by_cases same : other = task
  · subst same
    simp at holds
  · change Function.update s.claims task none other = some claim at holds
    rw [Function.update_of_ne same] at holds
    exact held other claim holds

variable {read : Bytes → Option WorkUnit} {write : WorkUnit → Bytes}

/-- A transaction writes the unit and the entry of its claim, or nothing. -/
theorem txn_store (moved : sharedStep read write s (.txn task now) = some (s', out)) :
    ∃ held, s.claims task = some held ∧ s'.claims = Function.update s.claims task none ∧
      (s'.store = s.store ∨ s'.store = s.store.delete held.pendingKey ∨
        ∃ value, s'.store = (s.store.put held.unitKey value).delete held.pendingKey) := by
  simp only [sharedStep] at moved
  cases claim : s.claims task with
  | none => rw [claim] at moved; cases moved
  | some held =>
    refine ⟨held, rfl, ?_⟩
    simp only [claim] at moved
    repeat' split at moved
    all_goals
      obtain ⟨rfl, -⟩ := Prod.mk.inj (Option.some.inj moved)
      refine ⟨rfl, ?_⟩
    · exact .inr (.inl rfl)
    · exact .inl rfl
    · exact .inl rfl
    · exact .inr (.inr ⟨_, rfl⟩)

/-- A scan holds the key it found, with the unit it reads from it. -/
theorem scan_claims (built : Built s.store)
    (moved : sharedStep read write s (.scan task worker) = some (s', out)) :
    s'.store = s.store ∧
      (s'.claims task).map HeldClaim.pendingKey = (scan s.store TikvScan.pending.bytes 1).head?.map Prod.fst ∧
      ∀ other held, s'.claims other = some held → s.claims other = some held ∨
        ∃ target, claimTarget held.pendingKey = some target ∧
          held.unitKey = (TikvKey.batch (.unit target.1 target.2)).bytes ∧
          (scan s.store TikvScan.pending.bytes 1).head?.map Prod.fst = some held.pendingKey := by
  simp only [sharedStep] at moved
  cases claim : s.claims task with
  | some held => simp [claim] at moved
  | none =>
    simp only [claim] at moved
    rcases scan_one_cases s.store (inScan TikvScan.pending.bytes) with ⟨empty, -⟩ | ⟨entry, first⟩
    · simp only [scan, empty] at moved ⊢
      obtain ⟨rfl, -⟩ := Prod.mk.inj (Option.some.inj moved)
      exact ⟨rfl, by rw [claim]; rfl, fun other held holds => .inl holds⟩
    · obtain ⟨stored, reached, -⟩ := (scan_one_iff _ _ _).mp first
      obtain ⟨⟨k, valid⟩, same⟩ := built entry.1 entry.2 (s.store.mem_entries.mp stored)
      have read : ∃ target, claimTarget entry.1 = some target := by
        rw [same] at reached ⊢
        rcases inScan_pending valid reached with ⟨owner, unitId, rfl⟩ | ⟨batchId, key, rfl, accepted, begins⟩
        · exact ⟨_, claimTarget_pending valid unitId⟩
        · exact Option.isSome_iff_exists.mp (claimTarget_metadata accepted begins key)
      obtain ⟨target, read⟩ := read
      simp only [scan, first, read] at moved ⊢
      obtain ⟨rfl, -⟩ := Prod.mk.inj (Option.some.inj moved)
      refine ⟨rfl, by simp, fun other held holds => ?_⟩
      by_cases mine : other = task
      · subst mine
        simp only [Function.update_self, Option.some.injEq] at holds
        subst holds
        exact .inr ⟨target, read, rfl, rfl⟩
      · exact .inl (by simpa [mine] using holds)

theorem scan_judged {s : SharedStore} (orderly : Orderly s)
    (moved : sharedStep read write s (.scan task worker) = some (s', out)) :
    (TakesQueued ⟨s, .scan task worker, out, s'⟩ ↔ QueueFirst s (.scan task worker)) ∧
      (QueueFirst s (.scan task worker) → Orderly s') := by
  obtain ⟨store, taken, holds⟩ := scan_claims orderly.built moved
  have agree := first_scanned_iff orderly.built task worker
  refine ⟨?_, fun queueFirst => ⟨store ▸ orderly.built, fun other held claim => ?_⟩⟩
  · rw [← agree, TakesQueued]
    simp only [taken]
  · rcases holds other held claim with before | ⟨target, read, unit, first⟩
    · exact orderly.held other held before
    · rw [agree.mpr queueFirst] at first
      rcases scan_one_cases s.store (inScan documentedPrefix) with ⟨empty, -⟩ | ⟨entry, queued⟩
      · rw [scan, empty] at first
        cases first
      · obtain ⟨stored, within, -⟩ := (scan_one_iff _ _ _).mp queued
        obtain ⟨⟨k, valid⟩, same⟩ := orderly.built entry.1 entry.2 (s.store.mem_entries.mp stored)
        rw [scan, queued] at first
        have entryKey : entry.1 = held.pendingKey := Option.some.inj first
        rw [same] at within entryKey
        obtain ⟨batchId, unitId, rfl⟩ := (inScan_documented valid).mp within
        rw [← entryKey, claimTarget_pending valid unitId] at read
        cases read
        exact ⟨batchId, unitId, valid, entryKey.symm, unit⟩

theorem txn_judged {s : SharedStore} (orderly : Orderly s)
    (moved : sharedStep read write s (.txn task now) = some (s', out)) :
    TakesQueued ⟨s, .txn task now, out, s'⟩ ∧ Orderly s' := by
  obtain ⟨held, claim, claims, written⟩ := txn_store moved
  obtain ⟨batchId, unitId, accepted, pendingKey, unitKey⟩ := orderly.held task held claim
  have unitValid : (TikvKey.batch (.unit batchId unitId)).Valid := accepted
  have pendingValid : (TikvKey.batch (.pending batchId unitId)).Valid := accepted
  have builtAfter : Built s'.store := by
    rcases written with same | same | ⟨value, same⟩ <;> rw [same]
    · exact orderly.built
    · exact orderly.built.delete _
    · rw [unitKey]
      exact (orderly.built.put ⟨_, unitValid⟩ value).delete _
  refine ⟨?_, builtAfter, ?_⟩
  · intro key other
    have notPending : key.1.bytes ≠ held.pendingKey := by
      intro same
      rw [pendingKey] at same
      exact other (TikvKey.bytes_injective key.2 pendingValid same ▸ trivial)
    have notUnit : key.1.bytes ≠ held.unitKey := by
      intro same
      rw [unitKey] at same
      exact other (TikvKey.bytes_injective key.2 unitValid same ▸ trivial)
    rcases written with same | same | ⟨value, same⟩ <;> simp only [same]
    · exact Kv.get_delete_ne _ notPending
    · rw [Kv.get_delete_ne _ notPending, Kv.get_put_ne _ notUnit]
  · have ended := orderly.held.end task s'.store
    rw [← claims] at ended
    exact ended

theorem sharedStore_judged :
    Judged (sharedStore read write) Orderly TakesQueued QueueFirst where
  decided := by
    intro s act s' out orderly moved
    have moved : sharedStep read write s act = some (s', out) := moved
    cases act with
    | scan task worker => exact (scan_judged orderly moved).1
    | txn task now => exact iff_of_true (txn_judged orderly moved).1 trivial
    | put key value | delete key => exact iff_of_true trivial trivial
  kept := by
    intro s act s' out orderly moved queueFirst
    have moved : sharedStep read write s act = some (s', out) := moved
    cases act with
    | scan task worker => exact (scan_judged orderly moved).2 queueFirst
    | txn task now => exact (txn_judged orderly moved).2
    | put key value =>
      obtain ⟨rfl, -⟩ := Prod.mk.inj (Option.some.inj moved)
      exact ⟨orderly.built.put key value, orderly.held⟩
    | delete key =>
      obtain ⟨rfl, -⟩ := Prod.mk.inj (Option.some.inj moved)
      exact ⟨orderly.built.delete key.1.bytes, orderly.held⟩

theorem initial_orderly : Orderly .initial where
  built := by
    intro key value stored
    cases stored
  held := by
    intro task held claim
    cases claim

/-- In every run, the claims take the first entry of the queue and change nothing but units and the
queue if and only if, at each of their scans, the metadata of batches whose id begins with
`pending` stands behind a queue entry. -/
theorem claims_take_queued_iff (read : Bytes → Option WorkUnit) (write : WorkUnit → Bytes)
    (history : History SharedStore SharedAct SharedOut) (s : SharedStore)
    (run : Run (sharedStore read write) .initial history s) :
    (∀ e ∈ history, TakesQueued e) ↔ ∀ e ∈ history, QueueFirst e.pre e.act :=
  sharedStore_judged.run_iff initial_orderly run

/-- One queued unit and a worker that asks for it. -/
theorem claims_take_queued_once : ∃ (history : History SharedStore SharedAct SharedOut) (s : SharedStore),
    Run (sharedStore (fun _ => none) fun _ => []) .initial history s ∧ history.length = 2 ∧
      ∀ e ∈ history, TakesQueued e := by
  have valid : (TikvKey.batch (.pending "jobs:b" "u")).Valid := rfl
  let stored : SharedStore := ⟨Kv.empty.put (TikvKey.batch (.pending "jobs:b" "u")).bytes [1], fun _ => none⟩
  have put : Run (sharedStore (fun _ => none) fun _ => []) .initial _ stored :=
    Run.start.move (.put ⟨_, valid⟩ [1]) .done _ rfl
  obtain ⟨⟨s, out⟩, moved⟩ : ∃ next, sharedStep (fun _ => none) (fun _ => []) stored (.scan 0 "w") = some next :=
    Option.isSome_iff_exists.mp (by decide)
  have unregistered : QueueFirst stored (.scan 0 "w") := by
    intro batchId key accepted has
    have apart : (TikvKey.metadata batchId key).bytes ≠ (TikvKey.batch (.pending "jobs:b" "u")).bytes :=
      fun same => by cases TikvKey.bytes_injective ((TikvKey.valid_metadata key).mpr accepted) valid same
    rw [SharedStore.Has, Kv.get_put_ne _ apart] at has
    cases has
  have run := put.move (.scan 0 "w") out s moved
  refine ⟨_, s, run, rfl, (claims_take_queued_iff _ _ _ _ run).mpr ?_⟩
  simpa [QueueFirst] using unregistered

/-- The step of a scan whose first key is read as an entry, and the transaction after it when there
is no such unit. -/
theorem claim_unitless (idle : s.claims task = none)
    (first : scan s.store TikvScan.pending.bytes 1 = [entry]) (target : claimTarget entry.1 = some (batchId, unitId))
    (unitless : ¬s.Has (.batch (.unit batchId unitId))) :
    ∃ history, (sharedStore read write).replay [] s [.scan task worker, .txn task now] =
        some (history, ⟨s.store.delete entry.1, s.claims⟩) ∧
      (history.head?.map fun e => e.out) = some .notClaimed := by
  have missing : s.store.get (TikvKey.batch (.unit batchId unitId)).bytes = none := by
    simpa [SharedStore.Has] using unitless
  have back : Function.update s.claims task none = s.claims := by
    rw [← idle, Function.update_eq_self]
  let held : HeldClaim := ⟨worker, entry.1, (TikvKey.batch (.unit batchId unitId)).bytes⟩
  let scanned : SharedStore := { s with claims := Function.update s.claims task (some held) }
  have scanStep : sharedStep read write s (.scan task worker) = some (scanned, .working) := by
    simp only [sharedStep, idle, first, target, scanned, held]
  have txnStep : sharedStep read write scanned (.txn task now) =
      some (⟨s.store.delete entry.1, s.claims⟩, .notClaimed) := by
    simp only [sharedStep, scanned, held, Function.update_self, missing, Function.update_idem, back]
  refine ⟨[⟨scanned, .txn task now, .notClaimed, ⟨s.store.delete entry.1, s.claims⟩⟩,
    ⟨s, .scan task worker, .working, scanned⟩], ?_, rfl⟩
  simp only [Machine.replay, sharedStore, scanStep, txnStep]

/-- While there is metadata of a batch whose id begins with `pending-` or `pending.`, a worker that
claims gets no unit, whatever is queued, and deletes the metadata it took for a queue entry. -/
theorem claim_deletes_metadata (read : Bytes → Option WorkUnit) (write : WorkUnit → Bytes)
    (s : SharedStore) (built : Built s.store) (task : Nat) (idle : s.claims task = none)
    (worker : String) (now : Time)
    (early : ∃ batchId key, validateBatchId batchId = .ok () ∧ s.Has (.metadata batchId key) ∧
      ("pending-".toList <+: batchId.toList ∨ "pending.".toList <+: batchId.toList))
    (unitless : ∀ batchId key target, claimTarget (TikvKey.metadata batchId key).bytes = some target →
      ¬s.Has (.batch (.unit target.1 target.2))) :
    ∃ batchId key, s.Has (.metadata batchId key) ∧
      ("pending-".toList <+: batchId.toList ∨ "pending.".toList <+: batchId.toList) ∧
      ∃ history, (sharedStore read write).replay [] s [.scan task worker, .txn task now] =
          some (history, ⟨s.store.delete (TikvKey.metadata batchId key).bytes, s.claims⟩) ∧
        (history.head?.map fun e => e.out) = some .notClaimed := by
  obtain ⟨batchId, key, accepted, has, word⟩ := early
  have begins : "pending".toList <+: batchId.toList := by
    rcases word with dash | dot
    · exact (show "pending".toList <+: "pending-".toList from ⟨['-'], rfl⟩).trans dash
    · exact (show "pending".toList <+: "pending.".toList from ⟨['.'], rfl⟩).trans dot
  obtain ⟨value, stored⟩ := Option.isSome_iff_exists.mp has
  have member := s.store.mem_entries.mpr stored
  have reached := metadata_reached accepted begins key
  rcases scan_one_cases s.store (inScan TikvScan.pending.bytes) with ⟨-, nothing⟩ | ⟨entry, first⟩
  · have missed := nothing _ member
    rw [reached] at missed
    cases missed
  · obtain ⟨inside, within, least⟩ := (scan_one_iff _ _ _).mp first
    have before := least _ member reached
    obtain ⟨⟨k, valid⟩, same⟩ := built entry.1 entry.2 (s.store.mem_entries.mp inside)
    rw [same] at within before
    rcases inScan_pending valid within with ⟨owner, unitId, rfl⟩ | ⟨lost, lostKey, rfl, lostAccepted, lostBegins⟩
    · exact absurd word ((pending_le_metadata accepted begins key owner unitId).2.mp before)
    · obtain ⟨target, read⟩ := Option.isSome_iff_exists.mp (claimTarget_metadata lostAccepted lostBegins lostKey)
      refine ⟨lost, lostKey, ?_, ?_, ?_⟩
      · exact Option.isSome_iff_exists.mpr ⟨entry.2, by rw [← same]; exact s.store.mem_entries.mp inside⟩
      · obtain ⟨b, tail, bytes, -, early⟩ := metadata_first_byte accepted begins key
        obtain ⟨c, rest, lostBytes, different, lostEarly⟩ := metadata_first_byte lostAccepted lostBegins lostKey
        rw [← lostEarly]
        refine lt_of_le_of_lt (not_lt.mp fun above => ?_) (early.mpr word)
        rw [bytes, lostBytes, ← not_lt, append_lt_append_iff, List.cons_lt_cons_iff] at before
        exact before (.inl above)
      · rw [← same] at read ⊢
        exact claim_unitless idle first read (unitless lost lostKey target (by rw [← same]; exact read))

/-- The task counter of one batch, and a queued unit of another that nobody can claim. -/
def crowded : SharedStore where
  store := (Kv.empty.put (TikvKey.metadata "pending-x:n" .taskCounter).bytes [1]).put
    (TikvKey.batch (.pending "jobs:b" "u")).bytes [2]
  claims _ := none

theorem crowded_unitless (owner unitId : String) : ¬crowded.Has (.batch (.unit owner unitId)) := by
  have unit : (TikvKey.batch (.unit owner unitId)).bytes =
      utf8 "/roboflow/v1/batch/workunits/" ++ utf8 (owner ++ "/" ++ unitId) := by
    rw [TikvKey.bytes_eq, ← utf8_append, utf8_inj, ← String.toList_inj]
    simp [TikvKey.text, TikvKey.parts, TikvKey.last, pathText]
  -- The two stored keys have another letter where this one has the `w` of its word.
  have letter : (TikvKey.batch (.unit owner unitId)).bytes[19]? = some 119 := by
    rw [unit, List.getElem?_append_left (by decide)]
    decide
  have apart : ∀ key : Bytes, key[19]? ≠ some 119 → (TikvKey.batch (.unit owner unitId)).bytes ≠ key :=
    fun key other same => other (same ▸ letter)
  rw [SharedStore.Has, crowded, Kv.get_put_ne _ (apart _ (by decide)), Kv.get_put_ne _ (apart _ (by decide))]
  simp

theorem claim_deletes_task_counter : ∃ batchId key, crowded.Has (.metadata batchId key) ∧
    ("pending-".toList <+: batchId.toList ∨ "pending.".toList <+: batchId.toList) ∧
    ∃ history, (sharedStore (fun _ => none) fun _ => []).replay [] crowded [.scan 0 "w", .txn 0 5] =
        some (history, ⟨crowded.store.delete (TikvKey.metadata batchId key).bytes, crowded.claims⟩) ∧
      (history.head?.map fun e => e.out) = some .notClaimed := by
  have metadata : (TikvKey.metadata "pending-x:n" .taskCounter).Valid := rfl
  have queued : (TikvKey.batch (.pending "jobs:b" "u")).Valid := rfl
  have empty : Built .empty := by
    intro key value stored
    cases stored
  refine claim_deletes_metadata (fun _ => none) (fun _ => []) crowded
    ((empty.put ⟨_, metadata⟩ [1]).put ⟨_, queued⟩ [2]) 0 rfl "w" 5
    ⟨"pending-x:n", .taskCounter, rfl, ?_, .inl (by decide)⟩ fun _ _ _ _ => crowded_unitless _ _
  have apart : (TikvKey.metadata "pending-x:n" .taskCounter).bytes ≠ (TikvKey.batch (.pending "jobs:b" "u")).bytes :=
    fun same => by cases TikvKey.bytes_injective metadata queued same
  rw [SharedStore.Has, crowded, Kv.get_put_ne _ apart, Kv.get_put_self]
  rfl

end Roboflow.Batch
