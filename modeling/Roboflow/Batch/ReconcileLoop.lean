import Roboflow.Batch.KeyFamilies
import Roboflow.Batch.PhaseIndex

/-! One pass of the controller, `reconcile_all`. It finds the batches to reconcile through the phase index,
phase by phase, instead of looking at every stored batch, and stops adding phases when it has found enough.
Nothing else writes during the pass; any of its calls may fail. -/
namespace Roboflow.Batch
open Library Tikv

/-! ### The pass -/

/-- `active_phases`. -/
def activePhases : List BatchPhase :=
  [.pending, .discovering, .running, .merging, .suspending, .suspended, .failed]

/-- `INDEX_SCAN_LIMIT`. -/
def indexScanLimit : Nat := 1000

/-- What comes after a key's last slash. -/
def lastPart (key : String) : String := String.ofList ((segments '/' key.toList).getLast?.getD [])

/-- The batch ids of one scan of the index. -/
def phaseIds (index : Kv String Unit) (phase : BatchPhase) : List String :=
  (index.scan (fun key => phase.text.toList.isPrefixOf key.toList) indexScanLimit).map fun entry =>
    lastPart entry.1

/-- The ids of the phases, scanned one after the other up to the one with which there are enough. A scan that
fails ends the pass. -/
def scanPhases (maxBatches : Nat) (scanErrors : BatchPhase → Option String) (idsOf : BatchPhase → List String) :
    List BatchPhase → List String → Except String (List String)
  | [], ids => .ok ids
  | phase :: rest, ids =>
    match scanErrors phase with
    | some error => .error error
    | none =>
      if maxBatches ≤ (ids ++ idsOf phase).length then .ok (ids ++ idsOf phase)
      else scanPhases maxBatches scanErrors idsOf rest (ids ++ idsOf phase)

/-- What the status of a batch becomes. -/
def reconciled (timeoutSecs : Nat) (spec : BatchSpec) (units : Kv String WorkUnit) (status : BatchStatus)
    (now : Time) : BatchStatus :=
  match status.phase with
  | .running | .failed => reconcileRunning spec status (scanBatchUnits units spec.batchId) now
  | _ => reconcilePhase timeoutSecs spec status now

def saveStatus (batchId : String) (status : BatchStatus) (s : Cluster) : Cluster :=
  { s with statuses := s.statuses.put batchId status }

def indexPhase (batchId : String) (phase : BatchPhase) (s : Cluster) : Cluster :=
  { s with index := s.index.put (phaseKey phase batchId) () }

def unindexPhase (batchId : String) (phase : BatchPhase) (s : Cluster) : Cluster :=
  { s with index := s.index.delete (phaseKey phase batchId) }

/-- The reads of `reconcile_batch`: the status, and of a batch that runs or failed the work units. -/
def readCalls : BatchPhase → Nat
  | .running | .failed => 2
  | _ => 1

/-- The calls that `reconcile_batch` makes on a status, with what they write. -/
def reconcileCalls (timeoutSecs : Nat) (spec : BatchSpec) (units : Kv String WorkUnit) (status : BatchStatus)
    (now : Time) : List (Cluster → Cluster) :=
  let next := reconciled timeoutSecs spec units status now
  if status.phase = .complete ∨ status.phase = .cancelled then [id]
  else List.replicate (readCalls status.phase) id ++ saveStatus spec.batchId next ::
    if status.phase = next.phase then []
    else [indexPhase spec.batchId next.phase, unindexPhase spec.batchId status.phase]

/-- `reconcile_batch`, of whose calls so many are answered before one fails, and whether one does. -/
def reconcileBatch (timeoutSecs : Nat) (spec : BatchSpec) (now : Time) (answered : Nat) (s : Cluster) :
    Cluster × Bool :=
  let status := (s.statuses.get spec.batchId).getD (.new now)
  let calls := reconcileCalls timeoutSecs spec s.work.units status now
  ((calls.take answered).foldl (fun s call => call s) s, answered < calls.length)

/-- How the calls for one batch go: whether its spec can be read, how many of the calls of
`reconcile_batch` succeed before one fails, and the time. -/
structure Visit where
  specError : Option String
  answered : Nat
  now : Time

/-- The loop over the ids found, from some turn on: the ids that failed, or the error that ended it. -/
def visitAll (timeoutSecs : Nat) (specs : String → Option BatchSpec) (visits : Nat → Visit) :
    Nat → List String → Cluster → Cluster × Except String (List String)
  | _, [], s => (s, .ok [])
  | turn, batchId :: rest, s =>
    match (visits turn).specError with
    | some error => (s, .error error)
    | none =>
      match specs batchId with
      -- a stale index entry
      | none => visitAll timeoutSecs specs visits (turn + 1) rest s
      | some spec =>
        let (after, failed) := reconcileBatch timeoutSecs spec (visits turn).now (visits turn).answered s
        let (last, result) := visitAll timeoutSecs specs visits (turn + 1) rest after
        (last, result.map fun ids => if failed then batchId :: ids else ids)

/-- `reconcile_all`. -/
def reconcileAll (timeoutSecs maxBatches : Nat) (scanErrors : BatchPhase → Option String)
    (specs : String → Option BatchSpec) (visits : Nat → Visit) (s : Cluster) : Cluster × Except String Unit :=
  match scanPhases maxBatches scanErrors (phaseIds s.index) activePhases [] with
  | .error error => (s, .error error)
  | .ok ids =>
    let (after, result) := visitAll timeoutSecs specs visits 0 ids s
    (after, result.bind fun failed =>
      if failed = [] then .ok ()
      else .error ("Failed to reconcile " ++ toString failed.length ++ " batch(es): " ++
        String.intercalate ", " failed))

/-! ### What the index says -/

/-- The batches stored with a phase, in the order of their ids. -/
def storedIn (statuses : Kv String BatchStatus) (phase : BatchPhase) : List String :=
  (statuses.entries.filter fun entry => entry.2.phase = phase).map Prod.fst

/-- The keys of the index are made from phases and ids, and the ids have no slash. -/
structure IndexKeys (s : Cluster) : Prop where
  built : ∀ key, (s.index.get key).isSome → ∃ phase batchId, key = phaseKey phase batchId
  slashFree : ∀ batchId, (s.statuses.get batchId).isSome → SlashFree batchId

theorem mem_storedIn {statuses : Kv String BatchStatus} :
    batchId ∈ storedIn statuses phase ↔ (statuses.get batchId).map (·.phase) = some phase := by
  simp only [storedIn, List.mem_map, List.mem_filter, decide_eq_true_eq, Option.map_eq_some_iff]
  constructor
  · rintro ⟨⟨key, status⟩, ⟨member, same⟩, rfl⟩
    exact ⟨status, (Kv.mem_entries _).mp member, same⟩
  · rintro ⟨status, found, same⟩
    exact ⟨(batchId, status), ⟨(Kv.mem_entries _).mpr found, same⟩, rfl⟩

theorem storedIn_sorted (statuses : Kv String BatchStatus) (phase : BatchPhase) :
    (storedIn statuses phase).Pairwise (· < ·) :=
  List.pairwise_map.mpr (statuses.sorted.filter _)

theorem lastPart_phaseKey (free : SlashFree batchId) : lastPart (phaseKey phase batchId) = batchId := by
  have path : (phaseKey phase batchId).toList = pathText '/' [phase.text.toList] batchId.toList := by
    simp [phaseKey, pathText]
  have separate : Separate '/' [phase.text.toList] := by
    simpa [Separate, SlashFree] using phase.text_slashFree
  rw [lastPart, path, segments_pathText separate, segments_free free]
  simp

theorem phaseKey_lt (phase : BatchPhase) (less : batchId < other) :
    phaseKey phase batchId < phaseKey phase other := by
  rw [String.lt_iff_toList_lt] at less ⊢
  simp only [phaseKey, String.toList_append]
  exact List.Lex.append_left _ less _

theorem phase_prefix_iff (phase stored : BatchPhase) (batchId : String) :
    phase.text.toList.isPrefixOf (phaseKey stored batchId).toList = true ↔ phase = stored := by
  have path : (phaseKey stored batchId).toList = stored.text.toList ++ '/' :: batchId.toList := by
    simp [phaseKey]
  rw [List.isPrefixOf_iff_prefix, path, prefix_part_iff phase.text_slashFree]
  exact TikvScan.phase_text_prefix_iff phase stored

/-- Two ascending lists of the same ids are the same. -/
theorem eq_of_ascending {ids others : List String} (ascending : ids.Pairwise (· < ·))
    (otherAscending : others.Pairwise (· < ·)) (same : ∀ id, id ∈ ids ↔ id ∈ others) : ids = others := by
  have perm : ids.Perm others := (List.perm_ext_iff_of_nodup (ascending.imp ne_of_lt)
    (otherAscending.imp ne_of_lt)).mpr same
  exact perm.eq_of_pairwise (fun _ _ _ _ below above => absurd (below.trans above) (lt_irrefl _)) ascending
    otherAscending

/-- A scan of an exact index lists the first batches that are stored with the phase. -/
theorem phaseIds_eq {s : Cluster} (exact : IndexExact s.index s.statuses) (keys : IndexKeys s)
    (phase : BatchPhase) : phaseIds s.index phase = (storedIn s.statuses phase).take indexScanLimit := by
  have named {entry : String × Unit} (member : entry ∈ s.index.entries.filter fun entry =>
      phase.text.toList.isPrefixOf entry.1.toList) : ∃ batchId, entry.1 = phaseKey phase batchId ∧
        SlashFree batchId ∧ (s.index.get entry.1).isSome := by
    obtain ⟨found, begins⟩ := List.mem_filter.mp member
    have stored : s.index.get entry.1 = some entry.2 := (Kv.mem_entries _).mp found
    obtain ⟨built, batchId, key⟩ := keys.built entry.1 (by rw [stored]; rfl)
    rw [key] at begins stored
    cases (phase_prefix_iff phase built batchId).mp begins
    have known := (exact batchId phase).mp (by rw [stored]; rfl)
    refine ⟨batchId, key, keys.slashFree batchId ?_, by rw [key, stored]; rfl⟩
    cases status : s.statuses.get batchId with
    | none => simp [status] at known
    | some _ => rfl
  rw [phaseIds, Kv.scan, List.map_take]
  refine congrArg (List.take indexScanLimit) (eq_of_ascending ?_ (storedIn_sorted ..) fun batchId => ?_)
  · refine List.pairwise_map.mpr ((s.index.sorted.filter _).imp_of_mem fun {entry other} member member' less => ?_)
    obtain ⟨batchId, key, free, -⟩ := named member
    obtain ⟨otherId, otherKey, otherFree, -⟩ := named member'
    rw [key, otherKey] at less ⊢
    rw [lastPart_phaseKey free, lastPart_phaseKey otherFree]
    by_contra notLess
    rcases lt_or_eq_of_le (not_lt.mp notLess) with after | rfl
    · exact absurd (less.trans (phaseKey_lt phase after)) (lt_irrefl _)
    · exact lt_irrefl _ less
  · rw [mem_storedIn, ← exact batchId phase, List.mem_map]
    constructor
    · rintro ⟨entry, member, rfl⟩
      obtain ⟨batchId, key, free, found⟩ := named member
      rwa [key, lastPart_phaseKey free, ← key]
    · intro found
      obtain ⟨value, stored⟩ := Option.isSome_iff_exists.mp found
      have member : (phaseKey phase batchId, value) ∈ s.index.entries.filter fun entry =>
          phase.text.toList.isPrefixOf entry.1.toList :=
        List.mem_filter.mpr ⟨(Kv.mem_entries _).mpr stored, (phase_prefix_iff phase phase batchId).mpr rfl⟩
      obtain ⟨same, key, free, -⟩ := named member
      exact ⟨_, member, by rw [(phaseKey_injective key).2, lastPart_phaseKey free]⟩

/-! ### Which batches are visited -/

section Gather
variable {maxBatches : Nat} {idsOf : BatchPhase → List String} {scanErrors : BatchPhase → Option String}

/-- What is found if no scan fails. -/
def gather (maxBatches : Nat) (idsOf : BatchPhase → List String) : List BatchPhase → List String → List String
  | [], ids => ids
  | phase :: rest, ids =>
    if maxBatches ≤ (ids ++ idsOf phase).length then ids ++ idsOf phase
    else gather maxBatches idsOf rest (ids ++ idsOf phase)

/-- A phase is scanned unless the phases before it have given enough. -/
def PhaseScanned (maxBatches : Nat) (idsOf : BatchPhase → List String) (phases : List BatchPhase) (ids : List String)
    (phase : BatchPhase) : Prop :=
  ∃ before after, phases = before ++ phase :: after ∧
    (before = [] ∨ (ids ++ before.flatMap idsOf).length < maxBatches)

theorem phaseScanned_cons {phases : List BatchPhase} {ids : List String} {first phase : BatchPhase} :
    PhaseScanned maxBatches idsOf (first :: phases) ids phase ↔ phase = first ∨
      (ids ++ idsOf first).length < maxBatches ∧ PhaseScanned maxBatches idsOf phases (ids ++ idsOf first) phase := by
  constructor
  · rintro ⟨before, after, parts, room⟩
    cases before with
    | nil =>
      cases parts
      exact .inl rfl
    | cons other before =>
      cases parts
      rcases room with none | room
      · cases none
      · rw [List.flatMap_cons, ← List.append_assoc] at room
        have fewer := (List.prefix_append (ids ++ idsOf first) (before.flatMap idsOf)).length_le
        exact .inr ⟨fewer.trans_lt room, before, after, rfl, .inr room⟩
  · rintro (rfl | ⟨few, before, after, rfl, room⟩)
    · exact ⟨[], phases, rfl, .inl rfl⟩
    · refine ⟨first :: before, after, rfl, .inr ?_⟩
      rw [List.flatMap_cons, ← List.append_assoc]
      rcases room with rfl | room
      · rwa [List.flatMap_nil, List.append_nil]
      · exact room

theorem scanPhases_ok (phases : List BatchPhase) (ids : List String)
    (answered : ∀ phase, PhaseScanned maxBatches idsOf phases ids phase → scanErrors phase = none) :
    scanPhases maxBatches scanErrors idsOf phases ids = .ok (gather maxBatches idsOf phases ids) := by
  induction phases generalizing ids with
  | nil => rfl
  | cons first rest ih =>
    rw [scanPhases, gather, answered first (phaseScanned_cons.mpr (.inl rfl))]
    dsimp only
    split
    · rfl
    · rename_i few
      exact ih _ fun phase scanned => answered phase (phaseScanned_cons.mpr (.inr ⟨not_le.mp few, scanned⟩))

theorem scanPhases_error (phases : List BatchPhase) (ids : List String) {phase : BatchPhase}
    (scanned : PhaseScanned maxBatches idsOf phases ids phase) (fails : scanErrors phase ≠ none) :
    ∃ error, scanPhases maxBatches scanErrors idsOf phases ids = .error error := by
  induction phases generalizing ids with
  | nil =>
    obtain ⟨before, after, parts, -⟩ := scanned
    cases before <;> cases parts
  | cons first rest ih =>
    rw [scanPhases]
    cases answer : scanErrors first with
    | some error => exact ⟨error, rfl⟩
    | none =>
      rcases phaseScanned_cons.mp scanned with rfl | ⟨few, later⟩
      · exact absurd answer fails
      · dsimp only
        rw [if_neg (not_le.mpr few)]
        exact ih _ later

theorem gather_begins (phases : List BatchPhase) (ids : List String) :
    gather maxBatches idsOf phases ids <+: ids ++ phases.flatMap idsOf := by
  induction phases generalizing ids with
  | nil => simp [gather]
  | cons phase rest ih =>
    rw [gather, List.flatMap_cons, ← List.append_assoc]
    split
    · exact List.prefix_append ..
    · exact ih _

/-- The ids of the scanned phases are found. -/
theorem mem_gather (phases : List BatchPhase) (ids : List String) :
    batchId ∈ gather maxBatches idsOf phases ids ↔ batchId ∈ ids ∨
      ∃ phase, PhaseScanned maxBatches idsOf phases ids phase ∧ batchId ∈ idsOf phase := by
  induction phases generalizing ids with
  | nil => simp [gather, PhaseScanned]
  | cons first rest ih =>
    rw [gather]
    split
    · rename_i enough
      rw [List.mem_append]
      refine or_congr_right ⟨fun found => ⟨first, phaseScanned_cons.mpr (.inl rfl), found⟩, ?_⟩
      rintro ⟨phase, scanned, found⟩
      rcases phaseScanned_cons.mp scanned with rfl | ⟨few, -⟩
      · exact found
      · exact absurd few (not_lt.mpr enough)
    · rename_i few
      rw [ih, List.mem_append, or_assoc]
      refine or_congr_right ⟨?_, ?_⟩
      · rintro (found | ⟨phase, scanned, found⟩)
        · exact ⟨first, phaseScanned_cons.mpr (.inl rfl), found⟩
        · exact ⟨phase, phaseScanned_cons.mpr (.inr ⟨not_le.mp few, scanned⟩), found⟩
      · rintro ⟨phase, scanned, found⟩
        rcases phaseScanned_cons.mp scanned with rfl | ⟨-, later⟩
        · exact .inl found
        · exact .inr ⟨phase, later, found⟩

end Gather

/-- What one scan of an exact index lists. -/
def firstIn (statuses : Kv String BatchStatus) (phase : BatchPhase) : List String :=
  (storedIn statuses phase).take indexScanLimit

/-- What a pass finds when the index is exact. -/
def visitedIds (maxBatches : Nat) (statuses : Kv String BatchStatus) : List String :=
  gather maxBatches (firstIn statuses) activePhases []

theorem visitedIds_nodup (maxBatches : Nat) (statuses : Kv String BatchStatus) :
    (visitedIds maxBatches statuses).Nodup := by
  refine (gather_begins _ _).sublist.nodup ?_
  rw [List.nil_append, List.nodup_flatMap]
  refine ⟨fun phase _ => ((storedIn_sorted statuses phase).imp ne_of_lt).sublist (List.take_sublist ..), ?_⟩
  have distinct : activePhases.Pairwise (· ≠ ·) := by decide
  refine distinct.imp fun {phase other} different => ?_
  rw [Function.onFun, List.disjoint_left]
  intro batchId here there
  have stored := mem_storedIn.mp (List.mem_of_mem_take here)
  rw [mem_storedIn.mp (List.mem_of_mem_take there)] at stored
  exact different (Option.some.inj stored).symm

/-! ### One batch -/

section OneBatch
variable {timeoutSecs : Nat} {spec : BatchSpec} {now : Time} {answered : Nat} {s : Cluster}

theorem foldl_take_replicate (reads answered : Nat) (rest : List (Cluster → Cluster)) (s : Cluster) :
    ((List.replicate reads (id : Cluster → Cluster) ++ rest).take answered).foldl (fun s call => call s) s =
      (rest.take (answered - reads)).foldl (fun s call => call s) s := by
  have nothing (n : Nat) : (List.replicate n (id : Cluster → Cluster)).foldl (fun s call => call s) s = s := by
    induction n with
    | zero => rfl
    | succ n ih => exact ih
  rw [List.take_append, List.foldl_append, List.length_replicate, List.take_replicate, nothing]

/-- The calls on the index leave everything else. -/
theorem foldl_index (batchId : String) (old new : BatchPhase) (answered : Nat) (s : Cluster) :
    let after := ([indexPhase batchId new, unindexPhase batchId old].take answered).foldl (fun s call => call s) s
    after.work = s.work ∧ after.statuses = s.statuses ∧ (2 ≤ answered →
      after.index = (s.index.put (phaseKey new batchId) ()).delete (phaseKey old batchId)) := by
  rcases answered with _ | _ | answered
  · exact ⟨rfl, rfl, by simp⟩
  · exact ⟨rfl, rfl, by simp⟩
  · simp only [List.take_succ_cons, List.take_nil]
    exact ⟨rfl, rfl, fun _ => rfl⟩

theorem foldl_tasks {calls : List (Cluster → Cluster)} (keep : ∀ call ∈ calls, ∀ s, (call s).tasks = s.tasks)
    (s : Cluster) : (calls.foldl (fun s call => call s) s).tasks = s.tasks := by
  induction calls generalizing s with
  | nil => rfl
  | cons call rest ih =>
    rw [List.foldl_cons, ih fun other member => keep other (List.mem_cons_of_mem _ member)]
    exact keep call List.mem_cons_self s

theorem reconcileBatch_tasks (timeoutSecs : Nat) (spec : BatchSpec) (now : Time) (answered : Nat) (s : Cluster) :
    (reconcileBatch timeoutSecs spec now answered s).1.tasks = s.tasks := by
  refine foldl_tasks (fun call member s => ?_) s
  have known := List.mem_of_mem_take member
  unfold reconcileCalls at known
  dsimp only at known
  split at known
  · rw [List.mem_singleton.mp known]
    rfl
  · rcases List.mem_append.mp known with reads | writes
    · rw [List.eq_of_mem_replicate reads]
      rfl
    · rcases List.mem_cons.mp writes with rfl | index
      · rfl
      · split at index
        · cases index
        · simp only [List.mem_cons, List.not_mem_nil, or_false] at index
          rcases index with rfl | rfl <;> rfl

/-- What the calls write, by the number of calls that were answered. -/
structure Writes (timeoutSecs : Nat) (spec : BatchSpec) (now : Time) (answered : Nat) (s : Cluster)
    (status : BatchStatus) : Prop where
  work : (reconcileBatch timeoutSecs spec now answered s).1.work = s.work
  statuses : (reconcileBatch timeoutSecs spec now answered s).1.statuses =
    if readCalls status.phase < answered then
      s.statuses.put spec.batchId (reconciled timeoutSecs spec s.work.units status now) else s.statuses
  index : (reconcileBatch timeoutSecs spec now answered s).2 = false →
    (reconcileBatch timeoutSecs spec now answered s).1.index =
      let next := reconciled timeoutSecs spec s.work.units status now
      if status.phase = next.phase then s.index
      else (s.index.put (phaseKey next.phase spec.batchId) ()).delete (phaseKey status.phase spec.batchId)
  whole : (reconcileBatch timeoutSecs spec now answered s).2 = false → readCalls status.phase < answered

theorem reconcileBatch_writes {status : BatchStatus} (stored : s.statuses.get spec.batchId = some status)
    (active : status.phase ≠ .complete ∧ status.phase ≠ .cancelled) :
    Writes timeoutSecs spec now answered s status := by
  have open_ : ¬(status.phase = .complete ∨ status.phase = .cancelled) := by
    rintro (same | same)
    · exact active.1 same
    · exact active.2 same
  have calls : reconcileBatch timeoutSecs spec now answered s =
      let next := reconciled timeoutSecs spec s.work.units status now
      let rest := saveStatus spec.batchId next :: if status.phase = next.phase then []
        else [indexPhase spec.batchId next.phase, unindexPhase spec.batchId status.phase]
      ((rest.take (answered - readCalls status.phase)).foldl (fun s call => call s) s,
        decide (answered < readCalls status.phase + rest.length)) := by
    simp only [reconcileBatch, stored, Option.getD_some, reconcileCalls, if_neg open_]
    rw [foldl_take_replicate, List.length_append, List.length_replicate]
  generalize next_eq : reconciled timeoutSecs spec s.work.units status now = next at calls
  by_cases some_ : readCalls status.phase < answered
  · obtain ⟨more, rfl⟩ : ∃ more, answered = readCalls status.phase + 1 + more :=
      ⟨answered - readCalls status.phase - 1, by omega⟩
    have written : readCalls status.phase + 1 + more - readCalls status.phase = more + 1 := by omega
    dsimp only at calls
    rw [written, List.take_succ_cons, List.foldl_cons] at calls
    by_cases kept : status.phase = next.phase
    · rw [if_pos kept, List.take_nil, List.foldl_nil] at calls
      refine ⟨by rw [calls]; rfl, ?_, fun _ => ?_, fun _ => some_⟩
      · rw [calls, if_pos some_, next_eq]
        rfl
      · dsimp only
        rw [calls, next_eq, if_pos kept]
        rfl
    · rw [if_neg kept] at calls
      obtain ⟨work, statuses, index⟩ := foldl_index spec.batchId status.phase next.phase more
        (saveStatus spec.batchId next s)
      refine ⟨?_, ?_, fun done => ?_, fun _ => some_⟩
      · rw [calls, work]
        rfl
      · rw [calls, if_pos some_, next_eq, statuses]
        rfl
      · rw [calls] at done ⊢
        have all := of_decide_eq_false done
        simp only [List.length_cons, List.length_nil] at all
        dsimp only
        rw [next_eq, if_neg kept, index (by omega)]
        rfl
  · have none_ : answered - readCalls status.phase = 0 := by omega
    dsimp only at calls
    rw [none_, List.take_zero, List.foldl_nil] at calls
    have failed : (reconcileBatch timeoutSecs spec now answered s).2 = true := by
      rw [calls]
      refine decide_eq_true ?_
      rw [List.length_cons]
      omega
    refine ⟨by rw [calls], by rw [calls, if_neg some_], fun done => ?_, fun done => ?_⟩
    · rw [failed] at done
      cases done
    · rw [failed] at done
      cases done

end OneBatch

/-! ### Calls as steps of the cluster -/

section Steps
variable {config : ClusterConfig} {s start : Cluster} {history : History Cluster ClusterAction ClusterOut}

theorem setCall_setCall (s : Cluster) (call next : BatchCall) :
    (s.setCall 0 call).setCall 0 next = s.setCall 0 next := by
  simp [Cluster.setCall]

theorem setCall_idle (idle : s.tasks 0 = .idle) : s.setCall 0 .idle = s := by
  rw [Cluster.setCall, ← idle, Function.update_eq_self]

/-- A reconcile that loses its next call leaves what it has written. -/
theorem lose_run (idle : s.tasks 0 = .idle) {call : BatchCall} (noClaim : call.claim = none)
    (started : call ≠ .idle) (run : Run (cluster config) start history (s.setCall 0 call)) :
    ∃ history, Run (cluster config) start history s := by
  refine ⟨_, run.move (.lose 0 "") .finished s ?_⟩
  have ended : (s.setCall 0 call).setCall 0 .idle = s := by
    rw [setCall_setCall, setCall_idle idle]
  simp only [cluster, clusterStep, Cluster.setCall_self]
  split
  · exact absurd rfl started
  · cases noClaim
  · cases noClaim
  · rw [noClaim]
    exact congrArg some (Prod.ext ended rfl)

theorem claim_indexed (id : String) (old new : BatchPhase) : (indexed id old new .idle).claim = none := by
  unfold indexed
  split <;> rfl

/-- The put of a status and the update of its index, as far as they are answered. -/
theorem save_run (idle : s.tasks 0 = .idle) (batchId : String) (old : BatchPhase) (status : BatchStatus)
    (answered : Nat) (run : Run (cluster config) start history
      (s.setCall 0 (saving .reconcile batchId (some old) old status))) :
    ∃ history, Run (cluster config) start history
      (((saveStatus batchId status :: if old = status.phase then []
        else [indexPhase batchId status.phase, unindexPhase batchId old]).take answered).foldl
          (fun s call => call s) s) := by
  have put := run.move (.put 0) .working
    ((saveStatus batchId status s).setCall 0 (indexed batchId old status.phase .idle)) (by
      simp only [cluster, clusterStep, saving, Cluster.setCall_self]
      exact congrArg (fun s => some (s, ClusterOut.working)) (setCall_setCall (saveStatus batchId status s) _ _))
  have saved : (saveStatus batchId status s).tasks 0 = .idle := idle
  rcases answered with _ | answered
  · have waiting : saving .reconcile batchId (some old) old status ≠ .idle := by simp [saving]
    have noClaim : (saving .reconcile batchId (some old) old status).claim = none := claim_indexed ..
    exact lose_run idle noClaim waiting run
  · by_cases kept : old = status.phase
    · rw [indexed, if_pos kept, setCall_idle saved] at put
      rw [if_pos kept]
      exact ⟨_, by simpa using put⟩
    · rw [indexed, if_neg kept] at put
      rw [if_neg kept]
      rcases answered with _ | answered
      · exact lose_run saved rfl (by simp) put
      · have listed := put.move (.indexPut 0) .working
          ((indexPhase batchId status.phase (saveStatus batchId status s)).setCall 0
            (.unindexing batchId old .idle)) (by
              simp only [cluster, clusterStep, Cluster.setCall_self]
              exact congrArg (fun s => some (s, ClusterOut.working))
                (setCall_setCall (indexPhase batchId status.phase (saveStatus batchId status s)) _ _))
        have indexed_ : (indexPhase batchId status.phase (saveStatus batchId status s)).tasks 0 = .idle := idle
        rcases answered with _ | answered
        · exact lose_run indexed_ rfl (by simp) listed
        · let removed := unindexPhase batchId old (indexPhase batchId status.phase (saveStatus batchId status s))
          have removed_ : removed.tasks 0 = .idle := idle
          refine ⟨_, listed.move (.indexDelete 0) .working _ ?_⟩
          simp only [cluster, clusterStep, Cluster.setCall_self, List.take_succ_cons, List.take_nil,
            List.foldl_cons, List.foldl_nil]
          exact congrArg (fun s => some (s, ClusterOut.working))
            ((setCall_setCall removed _ _).trans (setCall_idle removed_))

/-- `reconcile_batch` is a part of a run in which nothing else happens. -/
theorem reconcileBatch_run (idle : s.tasks 0 = .idle) {status : BatchStatus}
    (stored : s.statuses.get spec.batchId = some status) (now : Time) (answered : Nat)
    (run : Run (cluster config) start history s) : ∃ history,
      Run (cluster config) start history (reconcileBatch config.discoveryTimeout spec now answered s).1 := by
  by_cases closed : status.phase = .complete ∨ status.phase = .cancelled
  · refine ⟨history, ?_⟩
    simp only [reconcileBatch, stored, Option.getD_some, reconcileCalls, if_pos closed]
    rcases answered with _ | answered
    · exact run
    · simpa using run
  · simp only [reconcileBatch, stored, Option.getD_some, reconcileCalls, if_neg closed]
    rw [foldl_take_replicate]
    rcases answered with _ | answered
    · exact ⟨history, by simpa using run⟩
    · -- the status is read
      have read (call : BatchCall) (moved : clusterStep config s (.reconcile 0 spec now) =
          some (s.setCall 0 call, .working)) : Run (cluster config) start _ (s.setCall 0 call) :=
        run.move (.reconcile 0 spec now) .working _ moved
      by_cases scans : status.phase = .running ∨ status.phase = .failed
      · have reads : readCalls status.phase = 2 := by
          rcases scans with same | same <;> rw [same] <;> rfl
        have next : reconciled config.discoveryTimeout spec s.work.units status now =
            reconcileRunning spec status (scanBatchUnits s.work.units spec.batchId) now := by
          rcases scans with same | same <;> simp only [reconciled, same]
        have first := read (.scanning spec status) (by
          rcases scans with same | same <;> simp only [clusterStep, idle, stored, Option.getD_some, same])
        rw [reads, next]
        rcases answered with _ | answered
        · obtain ⟨_, lost⟩ := lose_run idle rfl (by simp) first
          exact ⟨_, by simpa using lost⟩
        · have second := first.move (.scanUnits 0 now) .working
            (s.setCall 0 (saving .reconcile spec.batchId (some status.phase) status.phase
              (reconcileRunning spec status (scanBatchUnits s.work.units spec.batchId) now))) (by
              simp only [cluster, clusterStep, Cluster.setCall_self]
              exact congrArg (fun s => some (s, ClusterOut.working)) (setCall_setCall s _ _))
          exact save_run idle spec.batchId status.phase _ answered second
      · have reads : readCalls status.phase = 1 := by
          revert closed scans
          cases status.phase <;> simp [readCalls]
        have next : reconciled config.discoveryTimeout spec s.work.units status now =
            reconcilePhase config.discoveryTimeout spec status now := by
          revert closed scans
          cases phase : status.phase <;> simp [reconciled, phase]
        have first := read (saving .reconcile spec.batchId (some status.phase) status.phase
          (reconcilePhase config.discoveryTimeout spec status now)) (by
          revert closed scans
          cases phase : status.phase <;> simp [clusterStep, idle, stored, phase])
        rw [reads, next]
        exact save_run idle spec.batchId status.phase _ answered first

end Steps

/-! ### All batches -/

/-- From a turn on, so many further batches are come to: every spec up to there could be read. -/
def reaches (visits : Nat → Visit) : Nat → Nat → Bool
  | turn, 0 => (visits turn).specError.isNone
  | turn, further + 1 => (visits turn).specError.isNone && reaches visits (turn + 1) further

section AllBatches
variable (timeoutSecs : Nat) (specs : String → Option BatchSpec) (visits : Nat → Visit)

/-- The status that the visit after so many further ones leaves a batch with. -/
def statusAfter (units : Kv String WorkUnit) (turn further : Nat) (batchId : String) (status : BatchStatus) :
    BatchStatus :=
  match specs batchId with
  | none => status
  | some spec =>
    if reaches visits turn further = true ∧ readCalls status.phase < (visits (turn + further)).answered then
      reconciled timeoutSecs spec units status (visits (turn + further)).now
    else status

/-- What the loop makes of the batches it has found. -/
structure Visits (turn : Nat) (ids : List String) (s after : Cluster) (result : Except String (List String)) :
    Prop where
  work : after.work = s.work
  others : ∀ batchId, batchId ∉ ids → after.statuses.get batchId = s.statuses.get batchId
  each : ∀ further batchId, ids[further]? = some batchId → after.statuses.get batchId =
    (s.statuses.get batchId).map (statusAfter timeoutSecs specs visits s.work.units turn further batchId)
  exact : result = .ok [] → IndexExact s.index s.statuses → IndexExact after.index after.statuses
  done : result = .ok [] → ∀ further batchId spec status, ids[further]? = some batchId →
    specs batchId = some spec → s.statuses.get batchId = some status →
      reaches visits turn further = true ∧ readCalls status.phase < (visits (turn + further)).answered

variable {timeoutSecs specs visits}

/-- A pass that goes on leaves what the rest of the loop leaves. -/
theorem statusAfter_succ (read : (visits turn).specError = none) :
    statusAfter timeoutSecs specs visits units turn (further + 1) batchId =
      statusAfter timeoutSecs specs visits units (turn + 1) further batchId := by
  funext status
  have shift : turn + (further + 1) = turn + 1 + further := by omega
  rw [statusAfter, statusAfter, reaches, read, shift]
  rfl

theorem reaches_succ (read : (visits turn).specError = none) :
    reaches visits turn (further + 1) = reaches visits (turn + 1) further := by
  rw [reaches, read]
  rfl

theorem reconcileBatch_others (answered : Nat) {status : BatchStatus}
    (stored : s.statuses.get spec.batchId = some status)
    (active : status.phase ≠ .complete ∧ status.phase ≠ .cancelled) (different : batchId ≠ spec.batchId) :
    (reconcileBatch timeoutSecs spec now answered s).1.statuses.get batchId = s.statuses.get batchId := by
  rw [(reconcileBatch_writes stored active).statuses]
  split
  · exact Kv.get_put_ne _ different _
  · rfl

theorem reconcileBatch_exact {status : BatchStatus} (stored : s.statuses.get spec.batchId = some status)
    (active : status.phase ≠ .complete ∧ status.phase ≠ .cancelled)
    (succeeds : (reconcileBatch timeoutSecs spec now answered s).2 = false)
    (exact : IndexExact s.index s.statuses) :
    IndexExact (reconcileBatch timeoutSecs spec now answered s).1.index
      (reconcileBatch timeoutSecs spec now answered s).1.statuses := by
  have writes : Writes timeoutSecs spec now answered s status := reconcileBatch_writes stored active
  have held : (s.statuses.get spec.batchId).map (·.phase) = some status.phase := by rw [stored, Option.map_some]
  rw [writes.statuses, if_pos (writes.whole succeeds), writes.index succeeds]
  dsimp only
  split
  · rename_i kept
    exact exact.rewritten (held.trans (congrArg some kept))
  · rename_i changed
    exact exact.moved (fun phase found => Option.some.inj (found.symm.trans held)) (Ne.symm changed)

theorem map_eq_ok_nil {result : Except String (List String)} {failed : Bool}
    (succeeds : (result.map fun ids => if failed then batchId :: ids else ids) = .ok []) :
    failed = false ∧ result = .ok [] := by
  cases result with
  | error => cases succeeds
  | ok ids => cases failed <;> simp_all [Except.map]

/-- The loop ends at a spec that cannot be read. -/
theorem Visits.stopped (read : (visits turn).specError = some error) (ids : List String) (s : Cluster) :
    Visits timeoutSecs specs visits turn ids s s (.error error) := by
  have never (further : Nat) : reaches visits turn further = false := by
    cases further <;> simp [reaches, read]
  refine ⟨rfl, fun _ _ => rfl, fun further batchId found => ?_, by simp, by simp⟩
  have same : statusAfter timeoutSecs specs visits s.work.units turn further batchId = id := by
    funext status
    rw [statusAfter]
    split
    · rfl
    · rw [never, if_neg (by simp)]
      rfl
  rw [same, Option.map_id]
  rfl

/-- A batch without a spec is passed over. -/
theorem Visits.skipped {after : Cluster} {result : Except String (List String)}
    (read : (visits turn).specError = none) (known : specs batchId = none) (notLater : batchId ∉ rest)
    (loop : Visits timeoutSecs specs visits (turn + 1) rest s after result) :
    Visits timeoutSecs specs visits turn (batchId :: rest) s after result := by
  refine ⟨loop.work, fun other absent => loop.others other fun member => absent (List.mem_cons_of_mem _ member),
    fun further other found => ?_, loop.exact, fun succeeds further other spec status found hasSpec at_ => ?_⟩
  · cases further with
    | zero =>
      cases found
      have same : statusAfter timeoutSecs specs visits s.work.units turn 0 batchId = id := by
        funext status
        rw [statusAfter, known]
        rfl
      rw [loop.others batchId notLater, same, Option.map_id]
      rfl
    | succ further =>
      rw [statusAfter_succ read]
      exact loop.each further other found
  · cases further with
    | zero =>
      cases found
      rw [known] at hasSpec
      cases hasSpec
    | succ further =>
      have shift : turn + (further + 1) = turn + 1 + further := by omega
      rw [reaches_succ read, shift]
      exact loop.done succeeds further other spec status found hasSpec at_

/-- A batch with a spec is reconciled before the others. -/
theorem Visits.visited {spec : BatchSpec} {status : BatchStatus} {last : Cluster}
    {result : Except String (List String)} (read : (visits turn).specError = none)
    (known : specs spec.batchId = some spec) (stored : s.statuses.get spec.batchId = some status)
    (active : status.phase ≠ .complete ∧ status.phase ≠ .cancelled) (notLater : spec.batchId ∉ rest)
    (loop : Visits timeoutSecs specs visits (turn + 1) rest
      (reconcileBatch timeoutSecs spec (visits turn).now (visits turn).answered s).1 last result) :
    Visits timeoutSecs specs visits turn (spec.batchId :: rest) s last (result.map fun ids =>
      if (reconcileBatch timeoutSecs spec (visits turn).now (visits turn).answered s).2 then spec.batchId :: ids
      else ids) := by
  have writes : Writes timeoutSecs spec (visits turn).now (visits turn).answered s status :=
    reconcileBatch_writes stored active
  have later {further : Nat} {other : String} (found : rest[further]? = some other) : other ≠ spec.batchId :=
    fun same => notLater (same ▸ List.mem_of_getElem? found)
  refine ⟨loop.work.trans writes.work, fun other absent => ?_, fun further other found => ?_,
    fun succeeds before => ?_, fun succeeds further other spec' held found hasSpec at_ => ?_⟩
  · rw [loop.others other fun member => absent (List.mem_cons_of_mem _ member)]
    exact reconcileBatch_others _ stored active fun same => absent (same ▸ List.mem_cons_self)
  · cases further with
    | zero =>
      cases found
      rw [loop.others _ notLater, writes.statuses, stored, Option.map_some, statusAfter, known]
      dsimp only
      rw [reaches, read, Nat.add_zero]
      split
      · rename_i enough
        rw [Kv.get_put_self, if_pos ⟨rfl, enough⟩]
      · rename_i few
        rw [stored, if_neg fun both => few both.2]
    | succ further =>
      rw [statusAfter_succ read, loop.each further other found,
        reconcileBatch_others _ stored active (later found), writes.work]
  · obtain ⟨succeeds', rest'⟩ := map_eq_ok_nil succeeds
    exact loop.exact rest' (reconcileBatch_exact stored active succeeds' before)
  · obtain ⟨succeeds', rest'⟩ := map_eq_ok_nil succeeds
    cases further with
    | zero =>
      cases found
      rw [known] at hasSpec
      cases hasSpec
      rw [stored] at at_
      cases at_
      exact ⟨by rw [reaches, read]; rfl, writes.whole succeeds'⟩
    | succ further =>
      have shift : turn + (further + 1) = turn + 1 + further := by omega
      rw [reaches_succ read, shift]
      exact loop.done rest' further other spec' held found hasSpec
        ((reconcileBatch_others _ stored active (later found)).trans at_)

theorem visitAll_visits (own : ∀ batchId spec, specs batchId = some spec → spec.batchId = batchId)
    {ids : List String} (nodup : ids.Nodup) (turn : Nat) {s : Cluster}
    (active : ∀ batchId ∈ ids, ∃ status, s.statuses.get batchId = some status ∧
      status.phase ≠ .complete ∧ status.phase ≠ .cancelled) :
    Visits timeoutSecs specs visits turn ids s (visitAll timeoutSecs specs visits turn ids s).1
      (visitAll timeoutSecs specs visits turn ids s).2 := by
  induction ids generalizing turn s with
  | nil => exact ⟨rfl, fun _ _ => rfl, by simp, fun _ => id, by simp⟩
  | cons batchId rest ih =>
    obtain ⟨notLater, restNodup⟩ := List.nodup_cons.mp nodup
    obtain ⟨status, stored, isActive⟩ := active batchId List.mem_cons_self
    rw [visitAll]
    cases read : (visits turn).specError with
    | some error => exact .stopped read ..
    | none =>
      dsimp only
      cases known : specs batchId with
      | none =>
        exact .skipped read known notLater
          (ih restNodup (turn + 1) fun other member => active other (List.mem_cons_of_mem _ member))
      | some spec =>
        have same := own batchId spec known
        subst same
        refine .visited read known stored isActive notLater (ih restNodup (turn + 1) fun other member => ?_)
        rw [reconcileBatch_others _ stored isActive fun same => notLater (same ▸ member)]
        exact active other (List.mem_cons_of_mem _ member)

/-- A pass is a run of the cluster in which only the controller moves. -/
theorem visitAll_run {config : ClusterConfig} {start : Cluster}
    (own : ∀ batchId spec, specs batchId = some spec → spec.batchId = batchId) {ids : List String}
    (nodup : ids.Nodup) (turn : Nat) {s : Cluster} (idle : s.tasks 0 = .idle)
    (active : ∀ batchId ∈ ids, ∃ status, s.statuses.get batchId = some status ∧
      status.phase ≠ .complete ∧ status.phase ≠ .cancelled)
    (run : Run (cluster config) start history s) : ∃ history, Run (cluster config) start history
      (visitAll config.discoveryTimeout specs visits turn ids s).1 := by
  induction ids generalizing turn s history with
  | nil => exact ⟨history, run⟩
  | cons batchId rest ih =>
    obtain ⟨notLater, restNodup⟩ := List.nodup_cons.mp nodup
    obtain ⟨status, stored, isActive⟩ := active batchId List.mem_cons_self
    rw [visitAll]
    split
    · exact ⟨history, run⟩
    · split
      · exact ih restNodup (turn + 1) idle (fun other member => active other (List.mem_cons_of_mem _ member)) run
      · rename_i spec known
        have same := own batchId spec known
        subst same
        obtain ⟨_, batch⟩ := reconcileBatch_run idle stored (visits turn).now (visits turn).answered run
        refine ih restNodup (turn + 1) ((congrFun (reconcileBatch_tasks ..) 0).trans idle)
          (fun other member => ?_) batch
        rw [reconcileBatch_others _ stored isActive fun same => notLater (same ▸ member)]
        exact active other (List.mem_cons_of_mem _ member)

theorem mem_visitedIds_active (found : batchId ∈ visitedIds maxBatches statuses) : ∃ status,
    statuses.get batchId = some status ∧ status.phase ≠ .complete ∧ status.phase ≠ .cancelled := by
  rcases (mem_gather _ _).mp found with none | ⟨phase, ⟨before, after, parts, -⟩, listed⟩
  · cases none
  · have stored := mem_storedIn.mp (List.mem_of_mem_take listed)
    obtain ⟨status, held, same⟩ := Option.map_eq_some_iff.mp stored
    have isActive : phase ∈ activePhases := parts ▸ List.mem_append_right _ List.mem_cons_self
    refine ⟨status, held, ?_, ?_⟩ <;> intro other <;> rw [← same, other] at isActive <;> revert isActive <;> decide

/-- With room in every scan and in the pass, no active batch is left out. -/
theorem mem_visitedIds_of_room (scans : ∀ phase ∈ activePhases, (storedIn statuses phase).length ≤ indexScanLimit)
    (room : (activePhases.dropLast.flatMap (storedIn statuses)).length < maxBatches) :
    batchId ∈ visitedIds maxBatches statuses ↔ ∃ status, statuses.get batchId = some status ∧
      status.phase ≠ .complete ∧ status.phase ≠ .cancelled := by
  refine ⟨mem_visitedIds_active, ?_⟩
  rintro ⟨status, held, notComplete, notCancelled⟩
  have isActive : status.phase ∈ activePhases := by
    revert notComplete notCancelled
    cases status.phase <;> decide
  obtain ⟨before, after, parts⟩ := List.append_of_mem isActive
  have all (phase : BatchPhase) (member : phase ∈ activePhases) : firstIn statuses phase = storedIn statuses phase :=
    List.take_of_length_le (scans phase member)
  refine (mem_gather _ _).mpr (.inr ⟨status.phase, ⟨before, after, parts, .inr ?_⟩, ?_⟩)
  · -- the phases before are among those before the last
    have fewer : before.flatMap (firstIn statuses) <+: activePhases.dropLast.flatMap (storedIn statuses) := by
      have same : before.flatMap (firstIn statuses) = before.flatMap (storedIn statuses) :=
        List.flatMap_congr fun phase member => all phase (parts ▸ List.mem_append_left _ member)
      have cut : activePhases.dropLast = before ++ (status.phase :: after).dropLast := by
        rw [parts, List.dropLast_append_of_ne_nil (by simp)]
      rw [same, cut, List.flatMap_append]
      exact List.prefix_append ..
    rw [List.nil_append]
    exact fewer.length_le.trans_lt room
  · rw [all _ isActive]
    exact mem_storedIn.mpr (by rw [held, Option.map_some])

theorem phaseIds_firstIn (exact : IndexExact s.index s.statuses) (keys : IndexKeys s) :
    phaseIds s.index = firstIn s.statuses :=
  funext (phaseIds_eq exact keys)

/-- The pass when every scan is answered. -/
theorem reconcileAll_answered (exact : IndexExact s.index s.statuses) (keys : IndexKeys s)
    (answered : ∀ phase, PhaseScanned maxBatches (firstIn s.statuses) activePhases [] phase →
      scanErrors phase = none) :
    let loop := visitAll timeoutSecs specs visits 0 (visitedIds maxBatches s.statuses) s
    (reconcileAll timeoutSecs maxBatches scanErrors specs visits s).1 = loop.1 ∧
      ((reconcileAll timeoutSecs maxBatches scanErrors specs visits s).2 = .ok () → loop.2 = .ok []) := by
  intro loop
  have found : scanPhases maxBatches scanErrors (phaseIds s.index) activePhases [] =
      .ok (visitedIds maxBatches s.statuses) := by
    rw [phaseIds_firstIn exact keys]
    exact scanPhases_ok _ _ answered
  rw [reconcileAll, found]
  refine ⟨rfl, fun done => ?_⟩
  change (loop.2.bind _ : Except String Unit) = .ok () at done
  cases result : loop.2 with
  | error =>
    rw [result] at done
    cases done
  | ok failed =>
    rw [result] at done
    change (if failed = [] then _ else _) = _ at done
    split at done
    · rename_i none
      rw [none]
    · cases done

/-- A scan that fails leaves everything as it is. -/
theorem reconcileAll_refused (exact : IndexExact s.index s.statuses) (keys : IndexKeys s)
    (scanned : PhaseScanned maxBatches (firstIn s.statuses) activePhases [] phase) (fails : scanErrors phase ≠ none) :
    ∃ error, reconcileAll timeoutSecs maxBatches scanErrors specs visits s = (s, .error error) := by
  obtain ⟨error, refused⟩ := scanPhases_error activePhases [] scanned fails
  refine ⟨error, ?_⟩
  rw [reconcileAll, phaseIds_firstIn exact keys, refused]

/-- A pass over an exact index scans the active phases up to the one with which it has enough, and finds the
first batches of each of these. If a scan fails it leaves everything as it is. Otherwise it reconciles what it
found once, as far as its calls are answered, and leaves every other batch. If it reports no error, everything
it found that has a spec is reconciled and the index is exact again. With room in the scans and in the pass,
it finds every batch that is neither complete nor cancelled, as a look at all stored batches would. All its
steps are steps of the cluster. -/
theorem reconcile_all_covers (timeoutSecs maxBatches : Nat) (scanErrors : BatchPhase → Option String)
    (visits : Nat → Visit) (exact : IndexExact s.index s.statuses) (keys : IndexKeys s)
    (own : ∀ batchId spec, specs batchId = some spec → spec.batchId = batchId) :
    let ids := visitedIds maxBatches s.statuses
    let pass := reconcileAll timeoutSecs maxBatches scanErrors specs visits s
    let scanned := PhaseScanned maxBatches (firstIn s.statuses) activePhases []
    (∀ batchId, batchId ∈ ids ↔ ∃ phase, scanned phase ∧ batchId ∈ firstIn s.statuses phase) ∧
    (∀ phase, scanned phase → scanErrors phase ≠ none → ∃ error, pass = (s, .error error)) ∧
    (∀ batchId, batchId ∉ ids → pass.1.statuses.get batchId = s.statuses.get batchId) ∧
    ((∀ phase, scanned phase → scanErrors phase = none) → ∀ turn batchId, ids[turn]? = some batchId →
      pass.1.statuses.get batchId =
        (s.statuses.get batchId).map (statusAfter timeoutSecs specs visits s.work.units 0 turn batchId)) ∧
    (pass.2 = .ok () → IndexExact pass.1.index pass.1.statuses ∧ ∀ turn batchId spec status,
      ids[turn]? = some batchId → specs batchId = some spec → s.statuses.get batchId = some status →
        pass.1.statuses.get batchId =
          some (reconciled timeoutSecs spec s.work.units status (visits turn).now)) ∧
    ((∀ phase ∈ activePhases, (storedIn s.statuses phase).length ≤ indexScanLimit) →
      (activePhases.dropLast.flatMap (storedIn s.statuses)).length < maxBatches →
        ∀ batchId, batchId ∈ ids ↔ ∃ status, s.statuses.get batchId = some status ∧
          status.phase ≠ .complete ∧ status.phase ≠ .cancelled) ∧
    (∀ config start history, config.discoveryTimeout = timeoutSecs → s.tasks 0 = .idle →
      Run (cluster config) start history s → ∃ longer, Run (cluster config) start longer pass.1) := by
  intro ids pass scanned
  have refused (phase : BatchPhase) (isScanned : scanned phase) (fails : scanErrors phase ≠ none) :
      ∃ error, pass = (s, .error error) := reconcileAll_refused exact keys isScanned fails
  have loop : Visits timeoutSecs specs visits 0 ids s (visitAll timeoutSecs specs visits 0 ids s).1
      (visitAll timeoutSecs specs visits 0 ids s).2 :=
    visitAll_visits own (visitedIds_nodup ..) 0 fun batchId member => mem_visitedIds_active member
  have goes (answered : ∀ phase, scanned phase → scanErrors phase = none) :
      pass.1 = (visitAll timeoutSecs specs visits 0 ids s).1 ∧
        (pass.2 = .ok () → (visitAll timeoutSecs specs visits 0 ids s).2 = .ok []) :=
    reconcileAll_answered exact keys answered
  -- a pass either ends at its scans or is the loop over what it found
  have outcome : (∃ error, pass = (s, .error error)) ∨ ∀ phase, scanned phase → scanErrors phase = none := by
    by_cases answered : ∀ phase, scanned phase → scanErrors phase = none
    · exact .inr answered
    · push Not at answered
      obtain ⟨phase, isScanned, fails⟩ := answered
      exact .inl (refused phase isScanned fails)
  refine ⟨fun batchId => ?_, refused, fun batchId absent => ?_, fun answered turn batchId at_ => ?_, fun done => ?_,
    fun scans room batchId => mem_visitedIds_of_room scans room, fun config start history same idle run => ?_⟩
  · exact (mem_gather ..).trans (by simp [scanned])
  · rcases outcome with ⟨error, unchanged⟩ | answered
    · rw [unchanged]
    · rw [(goes answered).1]
      exact loop.others batchId absent
  · rw [(goes answered).1]
    exact loop.each turn batchId at_
  · rcases outcome with ⟨error, unchanged⟩ | answered
    · rw [unchanged] at done
      cases done
    · obtain ⟨state, succeeds⟩ := goes answered
      refine ⟨?_, fun turn batchId spec status at_ known stored => ?_⟩
      · rw [state]
        exact loop.exact (succeeds done) exact
      · have both := loop.done (succeeds done) turn batchId spec status at_ known stored
        rw [state, loop.each turn batchId at_, stored, Option.map_some, statusAfter, known]
        dsimp only
        rw [if_pos both, Nat.zero_add]
  · rcases outcome with ⟨error, unchanged⟩ | answered
    · rw [unchanged]
      exact ⟨history, run⟩
    · rw [(goes answered).1]
      subst same
      exact visitAll_run own (visitedIds_nodup ..) 0 idle (fun _ member => mem_visitedIds_active member) run

end AllBatches

/-- The batch `jobs:b` as it is submitted. -/
def submitted : Cluster :=
  { Cluster.initial with
    statuses := Kv.empty.put oneSource.batchId (.new 0)
    index := Kv.empty.put (phaseKey .pending oneSource.batchId) () }

theorem submitted_is_discovered :
    let pass := reconcileAll 300 100 (fun _ => none)
      (fun batchId => if batchId = oneSource.batchId then some oneSource else none)
      (fun _ => ⟨none, 9, 5⟩) submitted
    pass.2 = .ok () ∧ IndexExact pass.1.index pass.1.statuses ∧ pass.1.statuses.get oneSource.batchId =
      some (reconciled 300 oneSource .empty (.new 0) 5) := by
  intro pass
  have exact : IndexExact submitted.index submitted.statuses := by
    intro batchId phase
    rw [submitted, index_put, Kv.get_put]
    split
    · simp_all [BatchStatus.new, eq_comm]
    · simp_all
  have keys : IndexKeys submitted := by
    refine ⟨fun key found => ?_, fun batchId found => ?_⟩
    · rw [submitted, Kv.get_put] at found
      split at found
      · exact ⟨_, _, by assumption⟩
      · cases found
    · rw [submitted, Kv.get_put] at found
      split at found
      · rename_i same
        rw [same, SlashFree]
        decide
      · cases found
  have own : ∀ batchId spec, (if batchId = oneSource.batchId then some oneSource else none) = some spec →
      spec.batchId = batchId := by
    intro batchId spec known
    split at known
    · rename_i same
      cases known
      exact same.symm
    · cases known
  obtain ⟨-, -, -, -, succeeds, -⟩ :=
    reconcile_all_covers 300 100 (fun _ => none) (fun _ => ⟨none, 9, 5⟩) exact keys own
  have done : pass.2 = .ok () := by decide
  refine ⟨done, (succeeds done).1, (succeeds done).2 0 oneSource.batchId oneSource (.new 0) ?_ ?_ ?_⟩
  · decide
  · simp
  · rw [submitted, Kv.get_put_self]

end Roboflow.Batch
