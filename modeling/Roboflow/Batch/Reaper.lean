import Roboflow.Batch.WorkQueue

/-! One iteration of the reaper, `reaper.rs`. It looks for the stale heartbeats first,
then for the units of their owners, and reclaims those one by one; `reclaim_work_unit`
takes a missing heartbeat for a stale one, the search does not see it. Nothing else
writes during the iteration, and the clock is read once for the search and once for
every reclaim. -/
namespace Roboflow.Batch
open Library Tikv

structure ReaperConfig where
  staleThreshold : Int
  maxReclaimsPerIteration : Nat
  maxWorkUnitScan : Nat

/-- A unit that was found with a stale owner. -/
structure OrphanedUnit where
  unitId : String
  batchId : String
  owner : String

def OrphanedUnit.key (orphan : OrphanedUnit) : String := unitKey orphan.batchId orphan.unitId

namespace ReaperConfig

variable (config : ReaperConfig) (heartbeats : Kv String HeartbeatRecord)

def findStaleWorkers (now : Time) : List String :=
  ((heartbeats.scan (fun _ => true) 1000).filter fun entry =>
    entry.2.isStale config.staleThreshold now).map (·.2.podId)

/-- The test of the search on one unit. -/
def orphaned (staleWorkers : List String) (unit : WorkUnit) : Option OrphanedUnit :=
  if unit.status = .processing then
    match unit.owner with
    | some owner => if owner ∈ staleWorkers then some ⟨unit.id, unit.batchId, owner⟩ else none
    | none => none
  else none

def findOrphanedWorkUnits (units : Kv String WorkUnit) (now : Time) : List OrphanedUnit :=
  let staleWorkers := config.findStaleWorkers heartbeats now
  if staleWorkers.isEmpty then []
  else (units.scan (fun _ => true) config.maxWorkUnitScan).filterMap fun entry =>
    orphaned staleWorkers entry.2

/-- The transaction of `reclaim_work_unit`. -/
def reclaimStored (units : Kv String WorkUnit) (orphan : OrphanedUnit) (now : Time) :
    Kv String WorkUnit × ReclaimResult :=
  match units.get orphan.key with
  | none => (units, .skipped)
  | some unit =>
    if unit.status = .processing ∧ unit.owner = some orphan.owner then
      (units.put orphan.key (unit.fail reclaimError now), .reclaimed)
    else (units, .skipped)

def reclaimWorkUnit (units : Kv String WorkUnit) (orphan : OrphanedUnit) (now : Time) :
    Kv String WorkUnit × ReclaimResult :=
  let recovered := match heartbeats.get orphan.owner with
    | some record => !record.isStale config.staleThreshold now
    | none => false
  if recovered then (units, .notStale) else reclaimStored units orphan now

/-- The loop of `run_iteration`; the clock reads at its passes come in order. -/
def reclaimAll (later : Nat → Time) :
    Nat → List OrphanedUnit → Kv String WorkUnit → Kv String WorkUnit × Nat
  | _, [], units => (units, 0)
  | pass, orphan :: rest, units =>
    let (units, result) := config.reclaimWorkUnit heartbeats units orphan (later pass)
    let (units, reclaimed) := reclaimAll later (pass + 1) rest units
    (units, if result = .reclaimed then reclaimed + 1 else reclaimed)

def runIteration (units : Kv String WorkUnit) (now : Time) (later : Nat → Time) :
    Kv String WorkUnit × Nat :=
  config.reclaimAll heartbeats later 0
    ((config.findOrphanedWorkUnits heartbeats units now).take config.maxReclaimsPerIteration) units

end ReaperConfig

/-- The call of the work queue, with nothing between its two steps. -/
theorem reclaimWorkUnit_steps (config : ReaperConfig) (work : WorkConfig)
    (same : work.staleThreshold = config.staleThreshold) (s : WorkState) (task : Nat)
    (idle : (s.tasks task).call = .idle) (orphan : OrphanedUnit) (now : Time) :
    ∃ s' result, (workStep work s (.reclaimGet task orphan.batchId orphan.unitId orphan.owner now) =
        some (s', .reclaim result) ∨
      ∃ judged, workStep work s (.reclaimGet task orphan.batchId orphan.unitId orphan.owner now) =
        some (judged, .working) ∧ workStep work judged (.reclaimTxn task now) =
          some (s', .reclaim result)) ∧
      config.reclaimWorkUnit s.heartbeats s.units orphan now = (s'.units, result) := by
  let judged := s.setCall task (.reclaiming orphan.key orphan.owner)
  have carried : ∃ s' result, workStep work judged (.reclaimTxn task now) =
      some (s', .reclaim result) ∧
      ReaperConfig.reclaimStored s.units orphan now = (s'.units, result) := by
    unfold ReaperConfig.reclaimStored
    simp only [workStep, judged, WorkState.setCall_call, WorkState.setCall_units]
    cases s.units.get orphan.key with
    | none => exact ⟨_, _, rfl, rfl⟩
    | some unit =>
      dsimp only
      split
      · exact ⟨_, _, rfl, rfl⟩
      · exact ⟨_, _, rfl, rfl⟩
  obtain ⟨s', result, txn, same'⟩ := carried
  unfold ReaperConfig.reclaimWorkUnit
  cases found : s.heartbeats.get orphan.owner with
  | none =>
    refine ⟨s', result, .inr ⟨judged, ?_, txn⟩, same'⟩
    simp only [workStep, idle, found]
    rfl
  | some record =>
    cases stale : record.isStale config.staleThreshold now with
    | true =>
      refine ⟨s', result, .inr ⟨judged, ?_, txn⟩, by simpa [stale] using same'⟩
      simp only [workStep, idle, found, same, stale, if_true]
      rfl
    | false =>
      refine ⟨s, .notStale, .inl ?_, by simp [stale]⟩
      simp [workStep, idle, found, same, stale]

/-! ### What is to be reclaimed -/

/-- The owner has no heartbeat record, or one that is older than the threshold. -/
def OwnerGone (config : ReaperConfig) (heartbeats : Kv String HeartbeatRecord) (now : Time)
    (owner : String) : Prop :=
  ∀ record, heartbeats.get owner = some record → record.isStale config.staleThreshold now = true

def Orphan (config : ReaperConfig) (heartbeats : Kv String HeartbeatRecord) (now : Time)
    (unit : WorkUnit) : Prop :=
  unit.status = .processing ∧ ∃ owner, unit.owner = some owner ∧
    OwnerGone config heartbeats now owner

instance (config : ReaperConfig) (heartbeats : Kv String HeartbeatRecord) (now : Time)
    (owner : String) : Decidable (OwnerGone config heartbeats now owner) :=
  match found : heartbeats.get owner with
  | none => .isTrue (by simp [OwnerGone, found])
  | some record =>
    decidable_of_iff (record.isStale config.staleThreshold now = true) (by simp [OwnerGone, found])

instance (config : ReaperConfig) (heartbeats : Kv String HeartbeatRecord) (now : Time)
    (unit : WorkUnit) : Decidable (Orphan config heartbeats now unit) :=
  match found : unit.owner with
  | none => .isFalse (by simp [Orphan, found])
  | some owner =>
    decidable_of_iff (unit.status = .processing ∧ OwnerGone config heartbeats now owner)
      (by simp [Orphan, found])

def orphans (config : ReaperConfig) (heartbeats : Kv String HeartbeatRecord)
    (units : Kv String WorkUnit) (now : Time) : List (String × WorkUnit) :=
  units.entries.filter fun entry => Orphan config heartbeats now entry.2

/-- Every orphan failed, every other unit is as it was, and the number of orphans is
returned. -/
structure ReapedExactly (config : ReaperConfig) (heartbeats : Kv String HeartbeatRecord)
    (units : Kv String WorkUnit) (now : Time) (result : Kv String WorkUnit × Nat) : Prop where
  failed : ∀ key unit, units.get key = some unit → Orphan config heartbeats now unit →
    ∃ at_, result.1.get key = some (unit.fail reclaimError at_)
  kept : ∀ key unit, units.get key = some unit → ¬Orphan config heartbeats now unit →
    result.1.get key = some unit
  absent : ∀ key, units.get key = none → result.1.get key = none
  count : result.2 = (orphans config heartbeats units now).length

/-- Records are stored under their own keys, as every writer puts them. -/
structure Keyed (heartbeats : Kv String HeartbeatRecord) (units : Kv String WorkUnit) : Prop where
  heartbeats : ∀ pod record, heartbeats.get pod = some record → record.podId = pod
  units : ∀ key unit, units.get key = some unit → key = unitKey unit.batchId unit.id

/-! ### The search -/

variable {config : ReaperConfig} {heartbeats : Kv String HeartbeatRecord}
  {units : Kv String WorkUnit} {now : Time} {later : Nat → Time}

theorem scan_all {ν : Type} {store : Kv String ν} {limit : Nat} (few : store.entries.length < limit) :
    store.scan (fun _ => true) limit = store.entries := by
  rw [Kv.scan, List.filter_eq_self.mpr fun _ _ => rfl, List.take_of_length_le few.le]

theorem mem_findStaleWorkers (keyed : Keyed heartbeats units)
    (few : heartbeats.entries.length < 1000) (pod : String) :
    pod ∈ config.findStaleWorkers heartbeats now ↔
      ∃ record, heartbeats.get pod = some record ∧
        record.isStale config.staleThreshold now = true := by
  unfold ReaperConfig.findStaleWorkers
  rw [scan_all few, List.mem_map]
  constructor
  · rintro ⟨⟨key, record⟩, member, rfl⟩
    obtain ⟨listed, stale⟩ := List.mem_filter.mp member
    have found := (Kv.mem_entries _).mp listed
    rw [keyed.heartbeats key record found]
    exact ⟨record, found, stale⟩
  · rintro ⟨record, found, stale⟩
    refine ⟨(pod, record), List.mem_filter.mpr ⟨(Kv.mem_entries _).mpr found, stale⟩, ?_⟩
    exact keyed.heartbeats pod record found

theorem orphaned_eq_some {staleWorkers : List String} {unit : WorkUnit} {orphan : OrphanedUnit} :
    ReaperConfig.orphaned staleWorkers unit = some orphan ↔
      unit.status = .processing ∧ unit.owner = some orphan.owner ∧ orphan.owner ∈ staleWorkers ∧
        orphan = ⟨unit.id, unit.batchId, orphan.owner⟩ := by
  unfold ReaperConfig.orphaned
  constructor
  · intro found
    split at found
    · rename_i processing
      split at found
      · rename_i owner owned
        split at found
        · rename_i stale
          cases found
          exact ⟨processing, owned, stale, rfl⟩
        · cases found
      · cases found
    · cases found
  · rintro ⟨processing, owned, stale, same⟩
    rw [if_pos processing, owned]
    dsimp only
    rw [if_pos stale, same]

theorem findOrphanedWorkUnits_eq (few : units.entries.length < config.maxWorkUnitScan) :
    config.findOrphanedWorkUnits heartbeats units now = units.entries.filterMap fun entry =>
      ReaperConfig.orphaned (config.findStaleWorkers heartbeats now) entry.2 := by
  unfold ReaperConfig.findOrphanedWorkUnits
  dsimp only
  rw [scan_all few]
  split
  · rename_i none_
    rw [List.isEmpty_iff.mp none_]
    refine (List.filterMap_eq_nil_iff.mpr ?_).symm
    intro entry _
    rw [Option.eq_none_iff_forall_ne_some]
    intro orphan found
    exact absurd (orphaned_eq_some.mp found).2.2.1 List.not_mem_nil
  · rfl

/-! ### The reclaims -/

/-- Units that are processed by an owner who stays stale are reclaimed, each once. -/
theorem reclaimAll_spec {list : List OrphanedUnit}
    (stale : ∀ orphan ∈ list, ∀ record, heartbeats.get orphan.owner = some record →
      ∀ pass, record.isStale config.staleThreshold (later pass) = true)
    (nodup : (list.map OrphanedUnit.key).Nodup)
    (held : ∀ orphan ∈ list, ∃ unit, units.get orphan.key = some unit ∧
      unit.status = .processing ∧ unit.owner = some orphan.owner) (pass : Nat) :
    (config.reclaimAll heartbeats later pass list units).2 = list.length ∧
      (∀ orphan ∈ list, ∀ unit, units.get orphan.key = some unit →
        ∃ at_, (config.reclaimAll heartbeats later pass list units).1.get orphan.key =
          some (unit.fail reclaimError at_)) ∧
      ∀ key, key ∉ list.map OrphanedUnit.key →
        (config.reclaimAll heartbeats later pass list units).1.get key = units.get key := by
  induction list generalizing units pass with
  | nil => exact ⟨rfl, fun _ member => absurd member List.not_mem_nil, fun _ _ => rfl⟩
  | cons first rest ih =>
    obtain ⟨unit, stored, processing, owned⟩ := held first List.mem_cons_self
    rw [List.map_cons, List.nodup_cons] at nodup
    have reclaimed : config.reclaimWorkUnit heartbeats units first (later pass) =
        (units.put first.key (unit.fail reclaimError (later pass)), .reclaimed) := by
      unfold ReaperConfig.reclaimWorkUnit
      cases found : heartbeats.get first.owner with
      | none => simp [ReaperConfig.reclaimStored, stored, processing, owned]
      | some record =>
        have gone := stale first List.mem_cons_self record found pass
        simp [ReaperConfig.reclaimStored, gone, stored, processing, owned]
    have heldLater : ∀ orphan ∈ rest, ∃ unit',
        (units.put first.key (unit.fail reclaimError (later pass))).get orphan.key = some unit' ∧
          unit'.status = .processing ∧ unit'.owner = some orphan.owner := by
      intro orphan member
      obtain ⟨unit', stored', as⟩ := held orphan (List.mem_cons_of_mem _ member)
      refine ⟨unit', ?_, as⟩
      rw [Kv.get_put_ne _ ?_, stored']
      intro same
      exact nodup.1 (same ▸ List.mem_map_of_mem member)
    obtain ⟨count, failed, kept⟩ := ih
      (fun orphan member => stale orphan (List.mem_cons_of_mem _ member)) nodup.2 heldLater (pass + 1)
    unfold ReaperConfig.reclaimAll
    rw [reclaimed]
    refine ⟨?_, ?_, ?_⟩
    · simp only [if_true, count, List.length_cons]
    · intro orphan member unit' stored'
      dsimp only
      rcases List.mem_cons.mp member with rfl | later_
      · rw [kept _ nodup.1, Kv.get_put_self]
        rw [stored] at stored'
        cases stored'
        exact ⟨_, rfl⟩
      · refine failed orphan later_ unit' ?_
        rw [Kv.get_put_ne _ ?_, stored']
        intro same
        exact nodup.1 (same ▸ List.mem_map_of_mem later_)
    · intro key absent
      rw [List.map_cons, List.mem_cons, not_or] at absent
      dsimp only
      rw [kept key absent.2, Kv.get_put_ne _ absent.1]

/-! ### The iteration -/

/-- What the search finds is an orphan, under its own key. -/
theorem orphan_of_found (keyed : Keyed heartbeats units) (few : heartbeats.entries.length < 1000)
    {unit : WorkUnit} {orphan : OrphanedUnit}
    (found : ReaperConfig.orphaned (config.findStaleWorkers heartbeats now) unit = some orphan) :
    Orphan config heartbeats now unit ∧ orphan.key = unitKey unit.batchId unit.id ∧
      (heartbeats.get orphan.owner).isSome := by
  obtain ⟨processing, owned, stale, same⟩ := orphaned_eq_some.mp found
  obtain ⟨record, stored, old⟩ := (mem_findStaleWorkers keyed few _).mp stale
  refine ⟨⟨processing, _, owned, ?_⟩, by rw [same]; rfl, by rw [stored]; rfl⟩
  intro record' stored'
  rw [stored] at stored'
  cases stored'
  exact old

/-- Where the owners of all processed units have heartbeats, the search finds every orphan. -/
theorem found_of_orphan (keyed : Keyed heartbeats units) (few : heartbeats.entries.length < 1000)
    {unit : WorkUnit} (seen : ∀ owner, unit.owner = some owner → (heartbeats.get owner).isSome)
    (orphan : Orphan config heartbeats now unit) :
    (ReaperConfig.orphaned (config.findStaleWorkers heartbeats now) unit).isSome := by
  obtain ⟨processing, owner, owned, gone⟩ := orphan
  obtain ⟨record, stored⟩ := Option.isSome_iff_exists.mp (seen owner owned)
  have stale : owner ∈ config.findStaleWorkers heartbeats now :=
    (mem_findStaleWorkers keyed few owner).mpr ⟨record, stored, gone record stored⟩
  exact Option.isSome_iff_exists.mpr
    ⟨⟨unit.id, unit.batchId, owner⟩, orphaned_eq_some.mpr ⟨processing, owned, stale, rfl⟩⟩

theorem length_filterMap_eq {f : α → Option β} (l : List α) :
    (l.filterMap f).length = (l.filter fun a => (f a).isSome).length := by
  induction l with
  | nil => rfl
  | cons a rest ih =>
    cases found : f a with
    | none => simp [found, ih]
    | some b => simp [found, ih]

/-- The iteration on a state within its limits: the units found are failed, nothing else
is touched. -/
theorem runIteration_spec (keyed : Keyed heartbeats units)
    (fewHeartbeats : heartbeats.entries.length < 1000)
    (fewUnits : units.entries.length < config.maxWorkUnitScan)
    (room : (orphans config heartbeats units now).length ≤ config.maxReclaimsPerIteration)
    (clock : ∀ pass, now ≤ later pass) :
    (config.runIteration heartbeats units now later).2 = (units.entries.filter fun entry =>
        (ReaperConfig.orphaned (config.findStaleWorkers heartbeats now) entry.2).isSome).length ∧
      (∀ key unit, units.get key = some unit →
        (ReaperConfig.orphaned (config.findStaleWorkers heartbeats now) unit).isSome →
        ∃ at_, (config.runIteration heartbeats units now later).1.get key =
          some (unit.fail reclaimError at_)) ∧
      ∀ key, (∀ unit, units.get key = some unit →
        ReaperConfig.orphaned (config.findStaleWorkers heartbeats now) unit = none) →
        (config.runIteration heartbeats units now later).1.get key = units.get key := by
  let search := ReaperConfig.orphaned (config.findStaleWorkers heartbeats now)
  let found := units.entries.filterMap fun entry => search entry.2
  have own : ∀ orphan ∈ found, ∃ unit, units.get orphan.key = some unit ∧
      search unit = some orphan := by
    intro orphan member
    obtain ⟨⟨key, unit⟩, listed, seen⟩ := List.mem_filterMap.mp member
    have stored := (Kv.mem_entries _).mp listed
    rw [(orphan_of_found keyed fewHeartbeats seen).2.1, ← keyed.units key unit stored]
    exact ⟨unit, stored, seen⟩
  have all : (config.findOrphanedWorkUnits heartbeats units now).take
      config.maxReclaimsPerIteration = found := by
    rw [findOrphanedWorkUnits_eq fewUnits]
    refine List.take_of_length_le (le_trans ?_ room)
    rw [length_filterMap_eq, orphans, ← List.countP_eq_length_filter, ← List.countP_eq_length_filter]
    refine List.countP_mono_left ?_
    rintro ⟨key, unit⟩ - seen
    obtain ⟨orphan, same⟩ := Option.isSome_iff_exists.mp seen
    exact decide_eq_true (orphan_of_found keyed fewHeartbeats same).1
  have stale : ∀ orphan ∈ found, ∀ record, heartbeats.get orphan.owner = some record →
      ∀ pass, record.isStale config.staleThreshold (later pass) = true := by
    intro orphan member record stored pass
    obtain ⟨unit, -, seen⟩ := own orphan member
    obtain ⟨record', stored', old⟩ :=
      (mem_findStaleWorkers keyed fewHeartbeats _).mp (orphaned_eq_some.mp seen).2.2.1
    rw [stored] at stored'
    cases stored'
    unfold HeartbeatRecord.isStale at old ⊢
    rw [decide_eq_true_iff] at old ⊢
    exact old.trans_le (Int.sub_le_sub_right (clock pass) _)
  have nodup : (found.map OrphanedUnit.key).Nodup := by
    have keys : found.map OrphanedUnit.key = units.entries.filterMap fun entry =>
        (search entry.2).map fun _ => entry.1 := by
      rw [List.map_filterMap]
      refine List.filterMap_congr ?_
      rintro ⟨key, unit⟩ listed
      cases seen : search unit with
      | none => rfl
      | some orphan =>
        rw [Option.map_some, Option.map_some, (orphan_of_found keyed fewHeartbeats seen).2.1,
          ← keyed.units key unit ((Kv.mem_entries _).mp listed)]
    rw [keys]
    refine units.sorted.filterMap _ ?_
    intro first second less key own key' own' same
    obtain ⟨-, -, rfl⟩ := Option.map_eq_some_iff.mp own
    obtain ⟨-, -, rfl⟩ := Option.map_eq_some_iff.mp own'
    exact absurd same less.ne
  have held : ∀ orphan ∈ found, ∃ unit, units.get orphan.key = some unit ∧
      unit.status = .processing ∧ unit.owner = some orphan.owner := by
    intro orphan member
    obtain ⟨unit, stored, seen⟩ := own orphan member
    obtain ⟨processing, owned, -⟩ := orphaned_eq_some.mp seen
    exact ⟨unit, stored, processing, owned⟩
  obtain ⟨count, failed, kept⟩ := reclaimAll_spec stale nodup held 0
  unfold ReaperConfig.runIteration
  rw [all]
  refine ⟨count.trans (length_filterMap_eq _), ?_, ?_⟩
  · intro key unit stored seen
    obtain ⟨orphan, same⟩ := Option.isSome_iff_exists.mp seen
    have listed : orphan ∈ found :=
      List.mem_filterMap.mpr ⟨(key, unit), (Kv.mem_entries _).mpr stored, same⟩
    have named : orphan.key = key := by
      rw [(orphan_of_found keyed fewHeartbeats same).2.1, ← keyed.units key unit stored]
    rw [← named]
    exact failed orphan listed unit (named ▸ stored)
  · intro key unseen
    refine kept key ?_
    intro listed
    obtain ⟨orphan, member, rfl⟩ := List.mem_map.mp listed
    obtain ⟨unit, stored, seen⟩ := own orphan member
    have missed : search unit = none := unseen unit stored
    rw [missed] at seen
    cases seen

/-- For every stored state within the limits, and a clock that does not go back: the
iteration reaps the orphans and nothing else exactly if the owner of every processed unit
has a heartbeat record, stale or not. -/
theorem reaps_exactly_iff_owners_recorded (config : ReaperConfig)
    (heartbeats : Kv String HeartbeatRecord) (units : Kv String WorkUnit) (now : Time)
    (later : Nat → Time) (keyed : Keyed heartbeats units)
    (fewHeartbeats : heartbeats.entries.length < 1000)
    (fewUnits : units.entries.length < config.maxWorkUnitScan)
    (room : (orphans config heartbeats units now).length ≤ config.maxReclaimsPerIteration)
    (clock : ∀ pass, now ≤ later pass) :
    ReapedExactly config heartbeats units now (config.runIteration heartbeats units now later) ↔
      ∀ key unit, units.get key = some unit → unit.status = .processing →
        ∀ owner, unit.owner = some owner → (heartbeats.get owner).isSome := by
  obtain ⟨count, failed, kept⟩ :=
    runIteration_spec keyed fewHeartbeats fewUnits room clock
  constructor
  · intro exactly key unit stored processing owner owned
    by_contra unrecorded
    have orphan : Orphan config heartbeats now unit := by
      refine ⟨processing, owner, owned, ?_⟩
      intro record found
      rw [found] at unrecorded
      exact absurd rfl unrecorded
    obtain ⟨at_, moved⟩ := exactly.failed key unit stored orphan
    have unseen : ReaperConfig.orphaned (config.findStaleWorkers heartbeats now) unit = none := by
      rw [Option.eq_none_iff_forall_ne_some]
      intro found same
      have owns := (orphaned_eq_some.mp same).2.1
      rw [owned] at owns
      have recorded := (orphan_of_found keyed fewHeartbeats same).2.2
      rw [← Option.some.inj owns] at recorded
      exact unrecorded recorded
    rw [kept key fun unit' stored' => by rw [stored] at stored'; cases stored'; exact unseen,
      stored] at moved
    have status := congrArg WorkUnit.status (Option.some.inj moved)
    rw [processing, WorkUnit.fail] at status
    dsimp only at status
    split at status <;> cases status
  · intro recorded
    have same : ∀ key unit, units.get key = some unit →
        ((ReaperConfig.orphaned (config.findStaleWorkers heartbeats now) unit).isSome = true ↔
          Orphan config heartbeats now unit) := by
      intro key unit stored
      constructor
      · intro seen
        obtain ⟨orphan, found⟩ := Option.isSome_iff_exists.mp seen
        exact (orphan_of_found keyed fewHeartbeats found).1
      · intro orphan
        exact found_of_orphan keyed fewHeartbeats (recorded key unit stored orphan.1) orphan
    refine ⟨?_, ?_, ?_, ?_⟩
    · intro key unit stored orphan
      exact failed key unit stored ((same key unit stored).mpr orphan)
    · intro key unit stored spared
      rw [kept key fun unit' stored' => ?_, stored]
      rw [stored] at stored'
      cases stored'
      rw [← Option.not_isSome_iff_eq_none]
      exact fun seen => spared ((same key unit stored).mp seen)
    · intro key absent
      rw [kept key fun unit stored => ?_, absent]
      rw [absent] at stored
      cases stored
    · rw [count, orphans]
      congr 1
      refine List.filter_congr ?_
      rintro ⟨key, unit⟩ member
      rw [Bool.eq_iff_iff, decide_eq_true_iff]
      exact same key unit ((Kv.mem_entries _).mp member)

/-- A unit of the batch `b` that a worker processes. -/
def processedBy (id owner : String) : WorkUnit :=
  (WorkUnit.withId id "b" [] "out" "cfg" 0).claimedBy owner 0

/-- One worker is stale and one is not: the unit of the first is reclaimed. -/
theorem stale_owner_reaped :
    ReapedExactly ⟨30, 10, 100⟩ ((Kv.empty.put "old" ⟨"old", 0⟩).put "new" ⟨"new", seconds 50⟩)
      ((Kv.empty.put "b/u" (processedBy "u" "old")).put "b/v" (processedBy "v" "new")) (seconds 60)
      (ReaperConfig.runIteration ⟨30, 10, 100⟩
        ((Kv.empty.put "old" ⟨"old", 0⟩).put "new" ⟨"new", seconds 50⟩)
        ((Kv.empty.put "b/u" (processedBy "u" "old")).put "b/v" (processedBy "v" "new")) (seconds 60)
        fun _ => seconds 61) := by
  refine (reaps_exactly_iff_owners_recorded _ _ _ _ _ ⟨?_, ?_⟩ (by decide) (by decide) (by decide +kernel)
    fun _ => by decide).mpr ?_
  · intro pod record found
    simp only [Kv.get_put, Kv.get_empty] at found
    split at found
    · rename_i same
      cases found
      exact same.symm
    · split at found
      · rename_i same
        cases found
        exact same.symm
      · cases found
  · intro key unit found
    simp only [Kv.get_put, Kv.get_empty] at found
    split at found
    · rename_i same
      cases found
      exact same
    · split at found
      · rename_i same
        cases found
        exact same
      · cases found
  · intro key unit found _ owner owned
    simp only [Kv.get_put, Kv.get_empty] at found
    split at found
    · cases found
      cases owned
      decide
    · split at found
      · cases found
        cases owned
        decide
      · cases found

/-- A worker claimed a unit and stopped before its first heartbeat: the unit stays. -/
theorem unrecorded_owner_not_reaped :
    Keyed .empty (Kv.empty.put "b/u" (processedBy "u" "w")) ∧
      (orphans ⟨30, 10, 100⟩ .empty (Kv.empty.put "b/u" (processedBy "u" "w")) (seconds 60)).length = 1 ∧
      (ReaperConfig.runIteration ⟨30, 10, 100⟩ .empty (Kv.empty.put "b/u" (processedBy "u" "w"))
        (seconds 60) fun _ => seconds 61) = (Kv.empty.put "b/u" (processedBy "u" "w"), 0) ∧
      ¬ReapedExactly ⟨30, 10, 100⟩ .empty (Kv.empty.put "b/u" (processedBy "u" "w")) (seconds 60)
        (ReaperConfig.runIteration ⟨30, 10, 100⟩ .empty (Kv.empty.put "b/u" (processedBy "u" "w"))
          (seconds 60) fun _ => seconds 61) := by
  have one : (orphans ⟨30, 10, 100⟩ .empty (Kv.empty.put "b/u" (processedBy "u" "w"))
      (seconds 60)).length = 1 := by decide +kernel
  refine ⟨⟨?_, ?_⟩, one, rfl, ?_⟩
  · intro pod record found
    cases found
  · intro key unit found
    rw [Kv.get_put] at found
    split at found
    · rename_i same
      cases found
      exact same
    · cases found
  · intro exactly
    have count := exactly.count
    rw [one] at count
    cases count

end Roboflow.Batch
