import Roboflow.Batch.MergeReadiness
import Roboflow.Tikv.KeySpace

/-! The keys of `batch/key.rs` and which of them a batch's prefix scans return.
The documented prefixes end in a slash, the built ones do not, so a batch whose id
begins with another batch's id is scanned along with it. -/
namespace Roboflow.Batch
open Library Tikv

/-! ## Batch ids -/

/-- `char::is_control`: the Unicode category Cc. -/
def isControl (c : Char) : Bool := c.toNat < 32 || (127 ≤ c.toNat && c.toNat < 160)

def dangerousChars : List Char := [';', '|', '&', '$', '\x60', '\n', '\r']

/-- `is_valid_label` of `validate_batch_id`. -/
def isValidLabel (label : List Char) : Bool :=
  !label.isEmpty && label.all fun c =>
    ('a' ≤ c && c ≤ 'z') || ('0' ≤ c && c ≤ '9') || c = '-' || c = '.'

/-- `validate_batch_id` of the command line. -/
def validateBatchId (batchId : String) : Except String Unit :=
  let chars := batchId.toList
  if chars.isEmpty then .error "Batch ID cannot be empty"
  else if 1024 < (utf8 batchId).length then .error "Batch ID too long (max 1024 characters)"
  else if chars.contains '\x00' then .error "Batch ID contains null bytes"
  else if chars.any fun c => isControl c && c ≠ '\t' then .error "Batch ID contains control characters"
  else if chars.any fun c => dangerousChars.contains c then .error "Batch ID contains invalid characters"
  else
    -- `splitn(2, ':')`
    match chars.dropWhile (· ≠ ':') with
    | [] => .error "Batch ID must be in format 'namespace:name'"
    | _ :: label =>
      let space := chars.takeWhile (· ≠ ':')
      if space.isEmpty then .error "Batch ID namespace cannot be empty"
      else if label.isEmpty then .error "Batch ID name cannot be empty"
      else if !isValidLabel space then
        .error ("Batch ID namespace '" ++ String.ofList space ++
          "' contains invalid characters (use lowercase letters, digits, hyphens, dots)")
      else if !isValidLabel label then
        .error ("Batch ID name '" ++ String.ofList label ++
          "' contains invalid characters (use lowercase letters, digits, hyphens, dots)")
      else .ok ()

theorem isValidLabel_slashFree (valid : isValidLabel label = true) : '/' ∉ label := by
  intro slash
  rw [isValidLabel, Bool.and_eq_true, List.all_eq_true] at valid
  have := valid.2 '/' slash
  revert this
  decide

/-- An accepted id has no slash. -/
theorem validateBatchId_slashFree (accepted : validateBatchId batchId = .ok ()) : SlashFree batchId := by
  simp only [validateBatchId] at accepted
  repeat' split at accepted
  all_goals cases accepted
  rename_i colon label parts _ _ space name
  have whole := List.takeWhile_append_dropWhile (p := (· ≠ ':')) (l := batchId.toList)
  have separator : colon = ':' := by
    have := List.head?_dropWhile_not (· ≠ ':') batchId.toList
    rw [parts] at this
    simpa using this
  intro slash
  rw [← whole, parts, separator, List.mem_append, List.mem_cons] at slash
  rcases slash with inSpace | isColon | inName
  · exact isValidLabel_slashFree (by simpa using space) inSpace
  · revert isColon
    decide
  · exact isValidLabel_slashFree (by simpa using name) inName

/-! ## The builders -/

/-- A key of the batch namespace, by what it is built from. -/
inductive BatchKey where
  | spec (batchId : String)
  | status (batchId : String)
  | phase (current : BatchPhase) (batchId : String)
  | unit (batchId unitId : String)
  | pending (batchId unitId : String)

/-- What `BatchKeys`, `BatchIndexKeys` and `WorkUnitKeys` push. -/
def BatchKey.parts : BatchKey → List String
  | spec batchId => ["batch", "specs", batchId]
  | status batchId => ["batch", "statuses", batchId]
  | phase current batchId => ["batch", "index", "phase", current.text, batchId]
  | unit batchId unitId => ["batch", "workunits", batchId, unitId]
  | pending batchId unitId => ["batch", "pending", batchId, unitId]

def BatchKey.bytes (key : BatchKey) : Bytes := buildKey key.parts

/-- `WorkUnitKeys::batch_prefix`. -/
def batchPrefix (batchId : String) : Bytes := buildKey ["batch", "workunits", batchId]

/-- `WorkUnitKeys::pending_batch_prefix`. -/
def pendingBatchPrefix (batchId : String) : Bytes := buildKey ["batch", "pending", batchId]

/-- Accepted batch ids, and unit ids without a slash. -/
def BatchKey.Valid : BatchKey → Prop
  | spec batchId | status batchId | phase _ batchId => validateBatchId batchId = .ok ()
  | unit batchId unitId | pending batchId unitId =>
    validateBatchId batchId = .ok () ∧ SlashFree unitId

theorem BatchPhase.text_slashFree (phase : BatchPhase) : SlashFree phase.text := by
  cases phase <;> simp [SlashFree, BatchPhase.text]

theorem BatchPhase.text_injective : Function.Injective BatchPhase.text := by
  intro a b same
  cases a <;> cases b <;> first | rfl | simp [BatchPhase.text] at same

theorem BatchKey.parts_slashFree {key : BatchKey} (valid : key.Valid) :
    ∀ part ∈ key.parts, SlashFree part := by
  cases key with
  | spec batchId =>
    have free := validateBatchId_slashFree valid
    simpa [parts, SlashFree] using free
  | status batchId =>
    have free := validateBatchId_slashFree valid
    simpa [parts, SlashFree] using free
  | phase current batchId =>
    have free := validateBatchId_slashFree valid
    have named := current.text_slashFree
    simpa [parts, SlashFree] using ⟨named, free⟩
  | unit batchId unitId =>
    have free := validateBatchId_slashFree valid.1
    simpa [parts, SlashFree] using ⟨free, valid.2⟩
  | pending batchId unitId =>
    have free := validateBatchId_slashFree valid.1
    simpa [parts, SlashFree] using ⟨free, valid.2⟩

theorem BatchKey.parts_injective : Function.Injective BatchKey.parts := by
  intro a b same
  cases a <;> cases b <;> simp [parts, BatchPhase.text_injective.eq_iff] at same ⊢ <;> exact same

/-- Each builder is injective, and no two builders make the same key. -/
theorem BatchKey.bytes_injective {key other : BatchKey} (valid : key.Valid) (otherValid : other.Valid)
    (same : key.bytes = other.bytes) : key = other :=
  parts_injective (buildKey_injective (parts_slashFree valid) (parts_slashFree otherValid) same)

/-! ## What a batch's scans return -/

/-- A text without a slash begins a slash-joined text where it begins its first part. -/
theorem prefix_part_iff {start part rest : List Char} (free : '/' ∉ start) :
    start <+: part ++ '/' :: rest ↔ start <+: part := by
  constructor
  · intro begins
    rcases List.prefix_or_prefix_of_prefix begins (List.prefix_append part ('/' :: rest)) with
      inside | ⟨tail, rfl⟩
    · exact inside
    · cases tail with
      | nil => exact (List.append_nil part).symm ▸ List.prefix_rfl
      | cons c tail =>
        have first := List.cons_prefix_cons.mp ((List.prefix_append_right_inj part).mp begins)
        exact absurd (List.mem_append_right _ (first.1 ▸ List.mem_cons_self)) free
  · intro inside
    exact inside.trans (List.prefix_append _ _)

/-- A scan of the keys below some parts and a batch id reaches the keys below the
same parts whose batch id begins with it. -/
theorem inScan_parts (start : List String) (free : SlashFree batchId) :
    inScan (buildKey (start ++ [batchId])) (buildKey (start ++ [other, unitId])) = true ↔
      batchId.toList <+: other.toList := by
  rw [buildKey, buildKey, inScan_utf8, utf8_prefix_iff, buildWithPrefix_toList, buildWithPrefix_toList,
    List.prefix_append_right_inj, List.flatMap_append, List.flatMap_append,
    List.prefix_append_right_inj]
  simp only [List.flatMap_cons, List.flatMap_nil, List.append_nil, List.cons_append]
  rw [List.cons_prefix_cons, prefix_part_iff free]
  simp

theorem inScan_batchPrefix (free : SlashFree batchId) (unitId : String) :
    inScan (batchPrefix batchId) (BatchKey.unit other unitId).bytes = true ↔
      batchId.toList <+: other.toList :=
  inScan_parts ["batch", "workunits"] free

theorem inScan_pendingBatchPrefix (free : SlashFree batchId) (unitId : String) :
    inScan (pendingBatchPrefix batchId) (BatchKey.pending other unitId).bytes = true ↔
      batchId.toList <+: other.toList :=
  inScan_parts ["batch", "pending"] free

/-- The scan of one namespace never reaches into the other. -/
theorem inScan_other_namespace (batchId other unitId : String) :
    inScan (batchPrefix batchId) (BatchKey.pending other unitId).bytes = false ∧
      inScan (pendingBatchPrefix batchId) (BatchKey.unit other unitId).bytes = false := by
  rw [← Bool.not_eq_true, ← Bool.not_eq_true, batchPrefix, pendingBatchPrefix, BatchKey.bytes,
    BatchKey.bytes, buildKey, buildKey, buildKey, buildKey, inScan_utf8, inScan_utf8, utf8_prefix_iff,
    utf8_prefix_iff]
  simp only [buildWithPrefix_toList, List.prefix_append_right_inj, BatchKey.parts, List.flatMap_cons,
    List.cons_append, List.cons_prefix_cons, true_and]
  simp

/-- No key of the other batch is in a scan of this one, and the controller's scan
returns the batch's own units, up to its limit. -/
structure Isolated (batchId other : String) : Prop where
  units : ∀ unitId, SlashFree unitId →
    inScan (batchPrefix batchId) (BatchKey.unit other unitId).bytes = false ∧
    inScan (pendingBatchPrefix batchId) (BatchKey.unit other unitId).bytes = false
  pending : ∀ unitId, SlashFree unitId →
    inScan (batchPrefix batchId) (BatchKey.pending other unitId).bytes = false ∧
    inScan (pendingBatchPrefix batchId) (BatchKey.pending other unitId).bytes = false
  counted : ∀ units : Kv String WorkUnit,
    (∀ key unit, units.get key = some unit →
      ∃ owner unitId, (owner = batchId ∨ owner = other) ∧ SlashFree unitId ∧ key = unitKey owner unitId) →
    scanBatchUnits units batchId = ((batchUnits units batchId).take 10000).map Prod.snd

theorem prefix_unitKey_iff (free : SlashFree batchId) :
    batchId.toList.isPrefixOf (unitKey owner unitId).toList = true ↔
      batchId.toList <+: owner.toList := by
  rw [List.isPrefixOf_iff_prefix, unitKey, String.toList_append, String.toList_append, List.append_assoc]
  exact prefix_part_iff free

theorem own_unitKey_iff (free : SlashFree owner) (batchFree : SlashFree batchId) :
    (batchId ++ "/").toList.isPrefixOf (unitKey owner unitId).toList = true ↔ batchId = owner := by
  rw [List.isPrefixOf_iff_prefix, unitKey, String.toList_append, String.toList_append,
    String.toList_append, List.append_assoc]
  constructor
  · rintro ⟨rest, same⟩
    rw [List.append_assoc] at same
    exact String.toList_inj.mp (part_of_append batchFree free (by simp) (by simp) same).1
  · rintro rfl
    rw [List.prefix_append_right_inj]
    exact List.prefix_append _ _

/-- The scan sees the batch's own units only, as long as no stored batch id begins
with its id. -/
theorem scanBatchUnits_own (free : SlashFree batchId) (otherFree : SlashFree other)
    (apart : ¬batchId.toList <+: other.toList) (units : Kv String WorkUnit)
    (stored : ∀ key unit, units.get key = some unit →
      ∃ owner unitId, (owner = batchId ∨ owner = other) ∧ SlashFree unitId ∧ key = unitKey owner unitId) :
    scanBatchUnits units batchId = ((batchUnits units batchId).take 10000).map Prod.snd := by
  have agree : units.entries.filter (fun entry => batchId.toList.isPrefixOf entry.1.toList) =
      batchUnits units batchId := by
    refine List.filter_congr ?_
    rintro ⟨key, unit⟩ member
    obtain ⟨owner, unitId, which, -, rfl⟩ := stored key unit (units.mem_entries.mp member)
    rw [Bool.eq_iff_iff, prefix_unitKey_iff free]
    rcases which with rfl | rfl
    · rw [own_unitKey_iff free free]
      exact iff_of_true List.prefix_rfl rfl
    · rw [own_unitKey_iff otherFree free]
      exact iff_of_false apart fun same => apart (same ▸ List.prefix_rfl)
  rw [scanBatchUnits, Kv.scan, agree]

/-- For all accepted ids: one batch is isolated from another exactly when its id
does not begin the other's, and the keys of specs, statuses, phases, units and
pending units are never confused. -/
theorem batch_keys_isolated_iff (batchId other : String) (accepted : validateBatchId batchId = .ok ())
    (otherAccepted : validateBatchId other = .ok ()) :
    (Isolated batchId other ↔ ¬batchId.toList <+: other.toList) ∧
      ∀ key key' : BatchKey, key.Valid → key'.Valid → key.bytes = key'.bytes → key = key' := by
  have free := validateBatchId_slashFree accepted
  have otherFree := validateBatchId_slashFree otherAccepted
  refine ⟨⟨fun isolated begins => ?_, fun apart => ⟨fun unitId _ => ?_, fun unitId _ => ?_, ?_⟩⟩,
    fun key key' valid valid' => BatchKey.bytes_injective valid valid'⟩
  · have reached := (inScan_batchPrefix free "").mpr begins
    rw [(isolated.units "" (by simp [SlashFree])).1] at reached
    cases reached
  · refine ⟨?_, (inScan_other_namespace batchId other unitId).2⟩
    rw [← Bool.not_eq_true, inScan_batchPrefix free unitId]
    exact apart
  · refine ⟨(inScan_other_namespace batchId other unitId).1, ?_⟩
    rw [← Bool.not_eq_true, inScan_pendingBatchPrefix free unitId]
    exact apart
  · exact scanBatchUnits_own free otherFree apart

theorem batch_keys_isolated_siblings :
    validateBatchId "jobs:a" = .ok () ∧ validateBatchId "jobs:b" = .ok () ∧
      Isolated "jobs:a" "jobs:b" :=
  ⟨rfl, rfl, (batch_keys_isolated_iff "jobs:a" "jobs:b" rfl rfl).1.mpr (by decide)⟩

/-- One pending unit of `jobs:b` and one of `jobs:b2`. -/
def twoBatches : Kv String WorkUnit :=
  (Kv.empty.put (unitKey "jobs:b" "u") (.withId "u" "jobs:b" [] "out" "cfg" 0)).put
    (unitKey "jobs:b2" "u") (.withId "u" "jobs:b2" [] "out" "cfg" 0)

/-- The units of `jobs:b2` are scanned, and counted, as units of `jobs:b`. -/
theorem batch_scan_reaches_longer_id :
    validateBatchId "jobs:b" = .ok () ∧ validateBatchId "jobs:b2" = .ok () ∧
    inScan (batchPrefix "jobs:b") (BatchKey.unit "jobs:b2" "u").bytes = true ∧
    inScan (pendingBatchPrefix "jobs:b") (BatchKey.pending "jobs:b2" "u").bytes = true ∧
    (scanBatchUnits twoBatches "jobs:b").map (·.batchId) = ["jobs:b", "jobs:b2"] ∧
    ¬Isolated "jobs:b" "jobs:b2" := by
  have free : SlashFree "jobs:b" := by
    unfold SlashFree
    decide
  have begins : "jobs:b".toList <+: "jobs:b2".toList := by decide
  have reached := (inScan_batchPrefix free "u").mpr begins
  refine ⟨rfl, rfl, reached, (inScan_pendingBatchPrefix free "u").mpr begins, by decide, fun isolated => ?_⟩
  rw [(isolated.units "u" (by unfold SlashFree; decide)).1] at reached
  cases reached

end Roboflow.Batch
