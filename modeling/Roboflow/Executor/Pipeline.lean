import Roboflow.Library.Acyclic
import Roboflow.Library.IterationOrder
import Roboflow.Library.KeyedBuffers

/-! The pipeline graph of `pipeline.rs`: its builder, and Kahn's algorithm over in-degrees
that are counted edge by edge and taken down stage by stage. Every hash map that is
iterated is iterated in an arbitrary order. -/
namespace Roboflow.Executor
open Library

/-- The identifiers are `u64`s. -/
abbrev StageId := Nat
abbrev PartitionId := Nat
abbrev TaskId := Nat

structure TaskContext where
  taskId : TaskId
  stageId : StageId
  partition : PartitionId
  deriving DecidableEq

/-- A task is known by the stage that created it and the partition it was created for. -/
structure Task where
  stage : StageId
  partition : PartitionId
  deriving DecidableEq

/-- What a stage tells about itself. -/
structure Stage where
  id : StageId
  partitionCount : Nat
  dependencies : List StageId
  deriving DecidableEq

def Stage.createTask (stage : Stage) (partition : PartitionId) : Task := ⟨stage.id, partition⟩

inductive PipelineError where
  | duplicateStage (id : StageId)
  | cyclicDependency
  | invalidDependency (dependent dependency : StageId)
  deriving DecidableEq

def PipelineError.message : PipelineError → String
  | .duplicateStage id => "duplicate stage ID: Stage(" ++ toString id ++ ")"
  | .cyclicDependency => "cyclic dependency detected"
  | .invalidDependency dependent dependency =>
    "invalid dependency: stage Stage(" ++ toString dependent ++
      ") depends on non-existent stage Stage(" ++ toString dependency ++ ")"

/-- What stops a build: an error that is returned, a counter that is not there, or a
counter taken below zero. -/
inductive Fault where
  | refused (error : PipelineError)
  | unwrapped
  | underflow
  deriving DecidableEq

structure Pipeline where
  stages : Kv StageId Stage
  dependencies : Kv StageId (List StageId)
  topologicalOrder : List StageId

/-- The orders of the two maps that the algorithm iterates. -/
structure HashOrders where
  dependencies : IterationOrder (StageId × List StageId)
  inDegree : IterationOrder (StageId × Nat)

namespace Pipeline

/-- The stages that are not completed and wait for none, as the stage map gives them. -/
def readyStages (pipeline : Pipeline) (order : IterationOrder (StageId × Stage))
    (completed : Finset StageId) : List StageId :=
  ((order.arrange pipeline.stages.entries).map Prod.fst).filter fun id =>
    id ∉ completed ∧ ((pipeline.dependencies.get id).map fun deps =>
      deps.all fun dep => dep ∈ completed).getD true

theorem mem_readyStages {pipeline : Pipeline} {order : IterationOrder (StageId × Stage)} {id : StageId} :
    id ∈ pipeline.readyStages order completed ↔ (pipeline.stages.get id).isSome ∧ id ∉ completed ∧
      ∀ dep ∈ pipeline.dependencies.bucket id, dep ∈ completed := by
  rw [readyStages, List.mem_filter, ((order.perm _).map Prod.fst).mem_iff, Kv.mem_keys, decide_eq_true_iff,
    Kv.bucket]
  cases pipeline.dependencies.get id <;> simp

theorem readyStages_nodup (pipeline : Pipeline) (order : IterationOrder (StageId × Stage))
    (completed : Finset StageId) : (pipeline.readyStages order completed).Nodup :=
  (((order.perm _).map Prod.fst).nodup_iff.mpr pipeline.stages.keys_nodup).filter _

/-! ### Kahn's algorithm -/

def increment (inDegree : Kv StageId Nat) (id : StageId) : Except Fault (Kv StageId Nat) :=
  match inDegree.get id with
  | none => .error .unwrapped
  | some count => .ok (inDegree.put id (count + 1))

/-- The edges into one stage, a repeated one each time it is listed. -/
def countEdges (stages : Kv StageId Stage) (stageId : StageId) :
    List StageId → Kv StageId Nat → Except Fault (Kv StageId Nat)
  | [], inDegree => .ok inDegree
  | dep :: deps, inDegree =>
    if (stages.get dep).isSome then
      match increment inDegree stageId with
      | .error fault => .error fault
      | .ok inDegree => countEdges stages stageId deps inDegree
    else countEdges stages stageId deps inDegree

def countIncoming (stages : Kv StageId Stage) :
    List (StageId × List StageId) → Kv StageId Nat → Except Fault (Kv StageId Nat)
  | [], inDegree => .ok inDegree
  | (stageId, deps) :: rest, inDegree =>
    match countEdges stages stageId deps inDegree with
    | .error fault => .error fault
    | .ok inDegree => countIncoming stages rest inDegree

/-- The counters of the stages that depend on `stageId` taken down by one; those that reach
zero are queued. -/
def release (stageId : StageId) :
    List (StageId × List StageId) → Kv StageId Nat → List StageId →
      Except Fault (Kv StageId Nat × List StageId)
  | [], inDegree, queue => .ok (inDegree, queue)
  | (id, deps) :: rest, inDegree, queue =>
    if stageId ∈ deps then
      match inDegree.get id with
      | none => .error .unwrapped
      | some 0 => .error .underflow
      | some (count + 1) =>
        release stageId rest (inDegree.put id count) (if count = 0 then queue ++ [id] else queue)
    else release stageId rest inDegree queue

/-- What is left of all counters. -/
def outstanding (inDegree : Kv StageId Nat) : Nat :=
  (inDegree.entries.map fun entry => entry.2).sum

theorem release_outstanding (released : release stageId entries inDegree queue = .ok (inDegree', queue')) :
    queue'.length + outstanding inDegree' ≤ queue.length + outstanding inDegree := by
  induction entries generalizing inDegree queue with
  | nil =>
    obtain ⟨rfl, rfl⟩ := Prod.mk.inj (Except.ok.inj released)
    exact le_rfl
  | cons entry rest ih =>
    obtain ⟨id, deps⟩ := entry
    simp only [release] at released
    split at released
    · cases held : inDegree.get id with
      | none => simp [held] at released
      | some count =>
        cases count with
        | zero => simp [held] at released
        | succ count =>
          simp only [held] at released
          have bound := ih released
          have taken := inDegree.sum_put (fun n => n) id count
          simp only [held, Option.map_some, Option.getD_some] at taken
          unfold outstanding at bound ⊢
          by_cases zero : count = 0
          · rw [if_pos zero, List.length_append, List.length_singleton] at bound
            omega
          · rw [if_neg zero] at bound
            omega
    · exact ih released

/-- The loop over the queue, which is popped at its end. -/
def drain (dependencies : List (StageId × List StageId)) (inDegree : Kv StageId Nat)
    (queue result : List StageId) : Except Fault (List StageId) :=
  match _popped : queue.getLast? with
  | none => .ok result
  | some stageId =>
    match _released : release stageId dependencies inDegree queue.dropLast with
    | .error fault => .error fault
    | .ok (inDegree, queue) => drain dependencies inDegree queue (result ++ [stageId])
termination_by queue.length + outstanding inDegree
decreasing_by
  have bound := release_outstanding _released
  obtain ⟨rest, rfl⟩ := List.getLast?_eq_some_iff.mp _popped
  simp only [List.dropLast_concat, List.length_append, List.length_singleton] at bound ⊢
  omega

def computeTopologicalOrder (orders : HashOrders) (stages : Kv StageId Stage)
    (dependencies : Kv StageId (List StageId)) : Except Fault (List StageId) :=
  let entries := orders.dependencies.arrange dependencies.entries
  match countIncoming stages entries (stages.map fun _ => 0) with
  | .error fault => .error fault
  | .ok inDegree =>
    let queue := ((orders.inDegree.arrange inDegree.entries).filter fun entry =>
      entry.2 = 0).map Prod.fst
    match drain entries inDegree queue [] with
    | .error fault => .error fault
    | .ok result =>
      if result.length ≠ stages.entries.length then .error (.refused .cyclicDependency)
      else .ok result

/-! ### Counting the edges -/

variable {stages : Kv StageId Stage}

theorem countEdges_spec (known : ∀ dep ∈ deps, (stages.get dep).isSome)
    (held : inDegree.get stageId = some count) :
    ∃ counted, countEdges stages stageId deps inDegree = .ok counted ∧
      ∀ id, counted.get id = if id = stageId then some (count + deps.length) else inDegree.get id := by
  induction deps generalizing inDegree count with
  | nil =>
    refine ⟨inDegree, rfl, fun id => ?_⟩
    split
    · rename_i same
      rw [same, held]
      rfl
    · rfl
  | cons dep deps ih =>
    have raised : (inDegree.put stageId (count + 1)).get stageId = some (count + 1) :=
      Kv.get_put_self ..
    obtain ⟨counted, ran, read⟩ := ih (fun other member => known other (List.mem_cons_of_mem _ member)) raised
    refine ⟨counted, ?_, fun id => ?_⟩
    · simp only [countEdges, known dep List.mem_cons_self, if_true, increment, held]
      exact ran
    · rw [read, List.length_cons]
      split
      · congr 1
        omega
      · rename_i other
        rw [Kv.get_put, if_neg other]

/-- The edges a list of entries names for a stage. -/
def edgesOf (entries : List (StageId × List StageId)) (id : StageId) : Nat :=
  ((entries.filter fun entry => entry.1 = id).map fun entry => entry.2.length).sum

theorem countIncoming_spec (known : ∀ entry ∈ entries, ∀ dep ∈ entry.2, (stages.get dep).isSome)
    (present : ∀ entry ∈ entries, (inDegree.get entry.1).isSome) :
    ∃ counted, countIncoming stages entries inDegree = .ok counted ∧
      ∀ id, counted.get id = (inDegree.get id).map (· + edgesOf entries id) := by
  induction entries generalizing inDegree with
  | nil => exact ⟨inDegree, rfl, fun id => by simp [edgesOf]⟩
  | cons entry rest ih =>
    obtain ⟨stageId, deps⟩ := entry
    obtain ⟨count, held⟩ := Option.isSome_iff_exists.mp (present _ List.mem_cons_self)
    obtain ⟨after, edged, read⟩ := countEdges_spec (known _ List.mem_cons_self) held
    have still : ∀ entry ∈ rest, (after.get entry.1).isSome := by
      intro entry member
      rw [read]
      split
      · rfl
      · exact present entry (List.mem_cons_of_mem _ member)
    obtain ⟨counted, ran, total⟩ :=
      ih (fun entry member => known entry (List.mem_cons_of_mem _ member)) still
    refine ⟨counted, ?_, fun id => ?_⟩
    · simp only [countIncoming, edged]
      exact ran
    · rw [total, read]
      by_cases same : id = stageId
      · subst same
        simp [edgesOf, held, Nat.add_assoc]
      · simp [edgesOf, same, Ne.symm same]

/-! ### Taking the counters down -/

theorem release_spec (queue : List StageId) (distinct : (entries.map Prod.fst).Nodup)
    (positive : ∀ entry ∈ entries, stageId ∈ entry.2 → ∃ count, inDegree.get entry.1 = some (count + 1)) :
    ∃ lowered, release stageId entries inDegree queue =
        .ok (lowered, queue ++ (entries.filter fun entry =>
          stageId ∈ entry.2 ∧ inDegree.get entry.1 = some 1).map Prod.fst) ∧
      ∀ id, lowered.get id =
        (inDegree.get id).map (· -
          (entries.any fun entry => entry.1 = id ∧ stageId ∈ entry.2).toNat) := by
  induction entries generalizing inDegree queue with
  | nil => exact ⟨inDegree, by simp [release], fun id => by simp⟩
  | cons entry rest ih =>
    obtain ⟨id, deps⟩ := entry
    obtain ⟨fresh, tail⟩ := List.nodup_cons.mp distinct
    have elsewhere : ∀ entry ∈ rest, entry.1 ≠ id := by
      intro entry member same
      exact fresh (List.mem_map.mpr ⟨entry, member, same⟩)
    by_cases needs : stageId ∈ deps
    · obtain ⟨count, held⟩ := positive _ List.mem_cons_self needs
      have kept : ∀ entry ∈ rest, (inDegree.put id count).get entry.1 = inDegree.get entry.1 :=
        fun entry member => by rw [Kv.get_put, if_neg (elsewhere entry member)]
      have positive' : ∀ entry ∈ rest, stageId ∈ entry.2 →
          ∃ count', (inDegree.put id count).get entry.1 = some (count' + 1) := by
        intro entry member needed
        rw [kept entry member]
        exact positive entry (List.mem_cons_of_mem _ member) needed
      obtain ⟨lowered, ran, read⟩ :=
        ih (if count = 0 then queue ++ [id] else queue) tail positive'
      refine ⟨lowered, ?_, fun other => ?_⟩
      · simp only [release, needs, if_true, held]
        rw [ran]
        have same : (rest.filter fun entry =>
              stageId ∈ entry.2 ∧ (inDegree.put id count).get entry.1 = some 1) =
            rest.filter fun entry => stageId ∈ entry.2 ∧ inDegree.get entry.1 = some 1 :=
          List.filter_congr fun entry member => by rw [kept entry member]
        rw [same, List.filter_cons]
        by_cases zero : count = 0
        · simp [zero, needs, held]
        · simp [zero, held]
      · rw [read, Kv.get_put]
        by_cases same : other = id
        · subst same
          have none_left : (rest.any fun entry => entry.1 = other ∧ stageId ∈ entry.2) = false := by
            rw [List.any_eq_false]
            intro entry member
            simp [elsewhere entry member]
          rw [List.any_cons, none_left]
          simp [held, needs]
        · simp [same, Ne.symm same]
    · obtain ⟨lowered, ran, read⟩ :=
        ih queue tail fun entry member => positive entry (List.mem_cons_of_mem _ member)
      refine ⟨lowered, ?_, fun other => ?_⟩
      · simp only [release, needs, if_false]
        rw [ran, List.filter_cons]
        simp [needs]
      · rw [read]
        simp [needs]

/-! ### What Kahn's loop keeps -/

/-- The dependencies in a list that are in the result, each counted once. -/
def settled (deps result : List StageId) : Nat := (deps.toFinset ∩ result.toFinset).card

theorem settled_le (deps result : List StageId) : settled deps result ≤ deps.length :=
  (Finset.card_le_card Finset.inter_subset_left).trans deps.toFinset_card_le

theorem settled_concat (fresh : stageId ∉ result) :
    settled deps (result ++ [stageId]) = settled deps result + (decide (stageId ∈ deps)).toNat := by
  have joined : (result ++ [stageId]).toFinset = insert stageId result.toFinset := by
    ext id
    simp
  rw [settled, joined]
  by_cases needs : stageId ∈ deps
  · rw [Finset.inter_insert_of_mem (List.mem_toFinset.mpr needs), Finset.card_insert_of_notMem]
    · simp [settled, needs]
    · intro member
      exact fresh (List.mem_toFinset.mp (Finset.mem_of_mem_inter_right member))
  · rw [Finset.inter_insert_of_notMem fun member => needs (List.mem_toFinset.mp member)]
    simp [settled, needs]

theorem settled_eq_length_iff :
    settled deps result = deps.length ↔ deps.Nodup ∧ ∀ dep ∈ deps, dep ∈ result := by
  have inner : settled deps result ≤ deps.toFinset.card :=
    Finset.card_le_card Finset.inter_subset_left
  constructor
  · intro full
    have distinct : deps.Nodup := by
      have whole : deps.toFinset.card = deps.length :=
        le_antisymm deps.toFinset_card_le (full ▸ inner)
      rw [List.card_toFinset] at whole
      exact List.dedup_eq_self.mp ((List.dedup_sublist deps).eq_of_length whole)
    refine ⟨distinct, fun dep member => ?_⟩
    have same : deps.toFinset ∩ result.toFinset = deps.toFinset := by
      refine Finset.eq_of_subset_of_card_le Finset.inter_subset_left ?_
      rw [List.toFinset_card_of_nodup distinct]
      exact full.ge
    have kept := same.ge (List.mem_toFinset.mpr member)
    exact List.mem_toFinset.mp (Finset.mem_of_mem_inter_right kept)
  · rintro ⟨distinct, all⟩
    have same : deps.toFinset ∩ result.toFinset = deps.toFinset :=
      Finset.inter_eq_left.mpr fun dep member =>
        List.mem_toFinset.mpr (all dep (List.mem_toFinset.mp member))
    rw [settled, same, List.toFinset_card_of_nodup distinct]

/-- Every counter is short of the listed dependencies by those in the result, and the
stages that are queued or done are those whose counter is down to zero. -/
structure Sorting (ids : List StageId) (dependencies : Kv StageId (List StageId))
    (inDegree : Kv StageId Nat) (queue result : List StageId) : Prop where
  distinct : (result ++ queue).Nodup
  known : ∀ id ∈ result ++ queue, id ∈ ids
  counted : ∀ id ∈ ids, inDegree.get id =
    some ((dependencies.bucket id).length - settled (dependencies.bucket id) result)
  placed : ∀ id ∈ ids, id ∈ result ++ queue ↔
    settled (dependencies.bucket id) result = (dependencies.bucket id).length
  respects : Respects (fun id dep => dep ∈ dependencies.bucket id) result

variable {dependencies : Kv StageId (List StageId)} {entries : List (StageId × List StageId)}
  {id : StageId}

theorem bucket_of_mem (member : (id, deps) ∈ dependencies.entries) :
    dependencies.bucket id = deps := by
  rw [Kv.bucket, dependencies.mem_entries.mp member, Option.getD_some]

/-- The entries, in any order, name a stage's dependencies. -/
theorem mem_bucket_iff (perm : entries.Perm dependencies.entries) :
    (∃ entry ∈ entries, entry.1 = id ∧ stageId ∈ entry.2) ↔ stageId ∈ dependencies.bucket id := by
  constructor
  · rintro ⟨⟨other, deps⟩, member, rfl, needs⟩
    rwa [bucket_of_mem (perm.mem_iff.mp member)]
  · intro needs
    cases held : dependencies.get id with
    | none => simp [Kv.bucket, held] at needs
    | some deps =>
      rw [Kv.bucket, held, Option.getD_some] at needs
      exact ⟨(id, deps), perm.mem_iff.mpr (dependencies.mem_entries.mpr held), rfl, needs⟩

theorem any_entries (perm : entries.Perm dependencies.entries) :
    (entries.any fun entry => entry.1 = id ∧ stageId ∈ entry.2) =
      decide (stageId ∈ dependencies.bucket id) := by
  rw [Bool.eq_iff_iff, List.any_eq_true, decide_eq_true_iff, ← mem_bucket_iff perm]
  simp only [decide_eq_true_iff]

namespace Sorting

/-- One stage taken off the queue. -/
theorem step (sorting : Sorting ids dependencies inDegree (queue ++ [stageId]) result)
    (perm : entries.Perm dependencies.entries) (ends : ∀ entry ∈ entries, entry.1 ∈ ids) :
    ∃ lowered queue', release stageId entries inDegree queue = .ok (lowered, queue') ∧
      Sorting ids dependencies lowered queue' (result ++ [stageId]) := by
  have fresh : stageId ∉ result := fun member =>
    (List.nodup_append.mp sorting.distinct).2.2 _ member stageId (by simp) rfl
  have needed : ∀ id, settled (dependencies.bucket id) (result ++ [stageId]) =
      settled (dependencies.bucket id) result + (decide (stageId ∈ dependencies.bucket id)).toNat :=
    fun id => settled_concat fresh
  have bound := fun id => settled_le (dependencies.bucket id) (result ++ [stageId])
  have keys : (entries.map Prod.fst).Nodup := (perm.map Prod.fst).nodup_iff.mpr dependencies.keys_nodup
  have positive : ∀ entry ∈ entries, stageId ∈ entry.2 →
      ∃ count, inDegree.get entry.1 = some (count + 1) := by
    intro entry member needs
    rw [← bucket_of_mem (perm.mem_iff.mp member)] at needs
    have room := bound entry.1
    rw [needed, decide_eq_true needs, Bool.toNat_true] at room
    refine ⟨(dependencies.bucket entry.1).length - settled (dependencies.bucket entry.1) result - 1, ?_⟩
    rw [sorting.counted _ (ends entry member), Option.some.injEq]
    omega
  obtain ⟨lowered, ran, read⟩ := release_spec queue keys positive
  refine ⟨lowered, _, ran, ?_⟩
  have ready_iff : ∀ id, id ∈ (entries.filter fun entry =>
      stageId ∈ entry.2 ∧ inDegree.get entry.1 = some 1).map Prod.fst ↔
        stageId ∈ dependencies.bucket id ∧ inDegree.get id = some 1 := by
    intro id
    rw [← mem_bucket_iff perm]
    simp only [List.mem_map, List.mem_filter, decide_eq_true_iff]
    constructor
    · rintro ⟨entry, ⟨member, needs, one⟩, rfl⟩
      exact ⟨⟨entry, member, rfl, needs⟩, one⟩
    · rintro ⟨⟨entry, member, rfl, needs⟩, one⟩
      exact ⟨entry, ⟨member, needs, one⟩, rfl⟩
  have last : ∀ id ∈ ids, inDegree.get id = some 1 ↔
      (dependencies.bucket id).length = settled (dependencies.bucket id) result + 1 := by
    intro id member
    rw [sorting.counted id member, Option.some.injEq]
    omega
  have once := keys.sublist (List.filter_sublist (p := fun entry =>
    decide (stageId ∈ entry.2 ∧ inDegree.get entry.1 = some 1)).map Prod.fst)
  generalize (entries.filter fun entry =>
    stageId ∈ entry.2 ∧ inDegree.get entry.1 = some 1).map Prod.fst = ready at ready_iff ran once ⊢
  have from_ids : ∀ id ∈ ready, id ∈ ids := by
    intro id member
    obtain ⟨entry, listed, rfl, -⟩ := (mem_bucket_iff perm).mpr ((ready_iff id).mp member).1
    exact ends entry listed
  have around : ∀ id, id ∈ result ++ [stageId] ++ (queue ++ ready) ↔
      id ∈ result ++ (queue ++ [stageId]) ∨ id ∈ ready := by
    intro id
    simp only [List.mem_append, List.mem_singleton]
    tauto
  have mine := (sorting.placed stageId (sorting.known stageId (by simp))).mp (by simp)
  exact {
    distinct := by
      have shuffled : (result ++ [stageId] ++ (queue ++ ready)).Perm
          (result ++ (queue ++ [stageId]) ++ ready) := by
        simp only [List.append_assoc]
        refine List.Perm.append_left result ?_
        rw [← List.append_assoc, ← List.append_assoc]
        exact List.perm_append_comm.append_right ready
      rw [shuffled.nodup_iff, List.nodup_append]
      refine ⟨sorting.distinct, once, ?_⟩
      rintro id member other listed rfl
      have full := (sorting.placed id (from_ids id listed)).mp member
      have one := (last id (from_ids id listed)).mp ((ready_iff id).mp listed).2
      omega
    known := by
      intro id member
      exact ((around id).mp member).elim (sorting.known id) (from_ids id)
    counted := by
      intro id member
      rw [read, any_entries perm, sorting.counted id member, needed, Option.map_some, Nat.sub_sub]
    placed := by
      intro id member
      have before := sorting.placed id member
      have one := last id member
      have room := bound id
      rw [needed] at room ⊢
      rw [around, before, ready_iff, one]
      by_cases needs : stageId ∈ dependencies.bucket id
      · simp only [needs, decide_true, Bool.toNat_true, true_and] at room ⊢
        omega
      · simp [needs]
    respects := sorting.respects.concat fun dep needs => (settled_eq_length_iff.mp mine).2 dep needs }

/-- The loop ends, and without a fault. -/
theorem drain (sorting : Sorting ids dependencies inDegree queue result)
    (perm : entries.Perm dependencies.entries) (ends : ∀ entry ∈ entries, entry.1 ∈ ids) :
    ∃ lowered order, Pipeline.drain entries inDegree queue result = .ok order ∧
      Sorting ids dependencies lowered [] order := by
  fun_induction Pipeline.drain entries inDegree queue result with
  | case1 inDegree queue result empty =>
    obtain rfl := List.getLast?_eq_none_iff.mp empty
    exact ⟨inDegree, result, rfl, sorting⟩
  | case2 inDegree queue result stageId popped fault refused =>
    obtain ⟨rest, rfl⟩ := List.getLast?_eq_some_iff.mp popped
    obtain ⟨_, _, ran, -⟩ := sorting.step perm ends
    rw [List.dropLast_concat, ran] at refused
    cases refused
  | case3 inDegree queue result stageId popped lowered queue' released ih =>
    obtain ⟨rest, rfl⟩ := List.getLast?_eq_some_iff.mp popped
    obtain ⟨_, _, ran, next⟩ := sorting.step perm ends
    rw [List.dropLast_concat, ran] at released
    obtain ⟨rfl, rfl⟩ := Prod.mk.inj (Except.ok.inj released)
    exact ih next

/-- At the end the stages in the order are those whose dependencies are distinct and
themselves in it. -/
theorem mem_order (sorting : Sorting ids dependencies inDegree [] order) (member : id ∈ ids) :
    id ∈ order ↔ (dependencies.bucket id).Nodup ∧ ∀ dep ∈ dependencies.bucket id, dep ∈ order := by
  rw [← settled_eq_length_iff, ← sorting.placed id member, List.append_nil]

theorem perm (sorting : Sorting ids dependencies inDegree [] order)
    (full : order.length = ids.length) : order.Perm ids := by
  have distinct := sorting.distinct
  rw [List.append_nil] at distinct
  have within : order.Subperm ids :=
    List.subperm_of_subset distinct fun id member => sorting.known id (by simpa using member)
  exact within.perm_of_length_le full.ge

/-- Every stage is reached exactly if no dependency is repeated and there is no cycle. -/
theorem full_iff (sorting : Sorting ids dependencies inDegree [] order) (distinct : ids.Nodup)
    (ends : ∀ id dep, dep ∈ dependencies.bucket id → id ∈ ids ∧ dep ∈ ids) :
    order.length = ids.length ↔ (∀ id ∈ ids, (dependencies.bucket id).Nodup) ∧
      Acyclic fun id dep => dep ∈ dependencies.bucket id := by
  have once := sorting.distinct
  rw [List.append_nil] at once
  constructor
  · intro full
    have perm := sorting.perm full
    refine ⟨fun id member => ((sorting.mem_order member).mp (perm.mem_iff.mpr member)).1, ?_⟩
    exact sorting.respects.acyclic once fun id dep needs => perm.mem_iff.mpr (ends id dep needs).1
  · rintro ⟨single, acyclic⟩
    have covered : ∀ id ∈ ids, id ∈ order := by
      refine acyclic.all_done fun id member left => ?_
      -- A stage all of whose dependencies are in the order would have been queued.
      by_contra none_waits
      push Not at none_waits
      exact left ((sorting.mem_order member).mpr ⟨single id member, fun dep needs =>
        none_waits dep (ends id dep needs).2 needs⟩)
    have reached : ids.Subperm order := List.subperm_of_subset distinct covered
    have inside : order.Subperm ids :=
      List.subperm_of_subset once fun id member => sorting.known id (by simpa using member)
    exact le_antisymm inside.length_le reached.length_le

end Sorting
/-! ### The order -/

variable {stages : Kv StageId Stage} {dependencies : Kv StageId (List StageId)}
  {entries : List (StageId × List StageId)}

theorem edgesOf_perm (perm : entries.Perm dependencies.entries) (id : StageId) :
    edgesOf entries id = (dependencies.bucket id).length := by
  have moved := ((perm.filter fun entry => entry.1 = id).map Prod.snd).map List.length
  rw [Kv.filter_entries, List.map_map] at moved
  rw [edgesOf, show (fun entry : StageId × List StageId => entry.2.length) =
    List.length ∘ Prod.snd from rfl, moved.sum_eq, Kv.bucket]
  cases dependencies.get id <;> simp

/-- Both ends of every edge are stages. -/
def Closed (stages : Kv StageId Stage) (dependencies : Kv StageId (List StageId)) : Prop :=
  ∀ entry ∈ dependencies.entries, (stages.get entry.1).isSome ∧ ∀ dep ∈ entry.2, (stages.get dep).isSome

theorem Closed.ends (closed : Closed stages dependencies) (id dep : StageId)
    (needs : dep ∈ dependencies.bucket id) :
    id ∈ stages.entries.map Prod.fst ∧ dep ∈ stages.entries.map Prod.fst := by
  obtain ⟨entry, member, rfl, listed⟩ := (mem_bucket_iff (List.Perm.refl _)).mpr needs
  exact ⟨(Kv.mem_keys _).mpr (closed entry member).1, (Kv.mem_keys _).mpr ((closed entry member).2 dep listed)⟩

/-- The algorithm ends without a fault in a list that is refused if stages are missing. -/
theorem computeTopologicalOrder_spec (orders : HashOrders) (closed : Closed stages dependencies) :
    ∃ lowered order, Sorting (stages.entries.map Prod.fst) dependencies lowered [] order ∧
      computeTopologicalOrder orders stages dependencies =
        if order.length ≠ stages.entries.length then .error (.refused .cyclicDependency)
        else .ok order := by
  have perm := orders.dependencies.perm dependencies.entries
  have ends : ∀ entry ∈ orders.dependencies.arrange dependencies.entries,
      entry.1 ∈ stages.entries.map Prod.fst :=
    fun entry member => (Kv.mem_keys _).mpr (closed entry (perm.mem_iff.mp member)).1
  have zero : ∀ id, (stages.map fun _ => 0).get id = (stages.get id).map fun _ => 0 :=
    Kv.get_map _ stages
  have present : ∀ entry ∈ orders.dependencies.arrange dependencies.entries,
      ((stages.map fun _ => 0).get entry.1).isSome := by
    intro entry member
    rw [zero, Option.isSome_map]
    exact (Kv.mem_keys _).mp (ends entry member)
  obtain ⟨inDegree, counted, read⟩ :=
    countIncoming_spec (fun entry member => (closed entry (perm.mem_iff.mp member)).2) present
  have listed := orders.inDegree.perm inDegree.entries
  have queued : ∀ id, id ∈ ((orders.inDegree.arrange inDegree.entries).filter fun entry =>
      entry.2 = 0).map Prod.fst ↔ inDegree.get id = some 0 := by
    intro id
    simp only [List.mem_map, List.mem_filter, decide_eq_true_iff, listed.mem_iff]
    constructor
    · rintro ⟨⟨other, count⟩, ⟨member, rfl⟩, rfl⟩
      exact inDegree.mem_entries.mp member
    · intro held
      exact ⟨(id, 0), ⟨inDegree.mem_entries.mpr held, rfl⟩, rfl⟩
  have initial : ∀ id, inDegree.get id =
      (stages.get id).map fun _ => (dependencies.bucket id).length := by
    intro id
    rw [read, zero, edgesOf_perm perm, Option.map_map]
    congr 1
    funext _
    exact Nat.zero_add _
  have sorting : Sorting (stages.entries.map Prod.fst) dependencies inDegree
      (((orders.inDegree.arrange inDegree.entries).filter fun entry => entry.2 = 0).map Prod.fst) [] := {
    distinct := by
      rw [List.nil_append]
      exact ((listed.map Prod.fst).nodup_iff.mpr inDegree.keys_nodup).sublist
        (List.filter_sublist.map _)
    known := by
      intro id member
      rw [List.nil_append, queued, initial] at member
      cases held : stages.get id with
      | none => simp [held] at member
      | some stage => exact (Kv.mem_keys _).mpr (by rw [held]; rfl)
    counted := by
      intro id member
      obtain ⟨stage, held⟩ := Option.isSome_iff_exists.mp ((Kv.mem_keys _).mp member)
      simp [initial, held, settled]
    placed := by
      intro id member
      obtain ⟨stage, held⟩ := Option.isSome_iff_exists.mp ((Kv.mem_keys _).mp member)
      rw [List.nil_append, queued, initial, held]
      simp [settled, eq_comm]
    respects := Respects.nil }
  obtain ⟨lowered, order, drained, final⟩ := sorting.drain perm ends
  refine ⟨lowered, order, final, ?_⟩
  simp only [computeTopologicalOrder, counted, drained]

end Pipeline

end Roboflow.Executor
