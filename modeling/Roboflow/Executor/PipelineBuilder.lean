import Roboflow.Executor.Pipeline

/-! The pipeline builder: which lists of stages and dependency pairs become a pipeline. -/
namespace Roboflow.Executor
open Library

structure PipelineBuilder where
  stages : List Stage
  dependencies : List (StageId × StageId)

namespace PipelineBuilder

def stageMap : List Stage → Kv StageId Stage → Except Fault (Kv StageId Stage)
  | [], map => .ok map
  | stage :: rest, map =>
    if (map.get stage.id).isSome then .error (.refused (.duplicateStage stage.id))
    else stageMap rest (map.put stage.id stage)

def depMap (stages : Kv StageId Stage) :
    List (StageId × StageId) → Kv StageId (List StageId) → Except Fault (Kv StageId (List StageId))
  | [], map => .ok map
  | (dependent, dependency) :: rest, map =>
    if (stages.get dependent).isNone then
      .error (.refused (.invalidDependency dependent dependency))
    else if (stages.get dependency).isNone then
      .error (.refused (.invalidDependency dependent dependency))
    else depMap stages rest (map.push dependent dependency)

def build (builder : PipelineBuilder) (orders : HashOrders) : Except Fault Pipeline :=
  match stageMap builder.stages .empty with
  | .error fault => .error fault
  | .ok stages =>
    match depMap stages builder.dependencies .empty with
    | .error fault => .error fault
    | .ok dependencies =>
      match Pipeline.computeTopologicalOrder orders stages dependencies with
      | .error fault => .error fault
      | .ok order => .ok ⟨stages, dependencies, order⟩

/-! ### The builder -/

variable {added : List Stage} {known : Kv StageId Stage} {pairs : List (StageId × StageId)}
  {id dep : StageId}

theorem stageMap_ok (mapped : stageMap added map = .ok final) :
    (added.map Stage.id).Nodup ∧ (∀ stage ∈ added, map.get stage.id = none) ∧
      final = map.putAll (added.map fun stage => (stage.id, stage)) := by
  induction added generalizing map with
  | nil => exact ⟨List.nodup_nil, by simp, (Except.ok.inj mapped).symm⟩
  | cons stage rest ih =>
    simp only [stageMap] at mapped
    split at mapped
    · cases mapped
    · rename_i fresh
      obtain ⟨distinct, absent, rfl⟩ := ih mapped
      have apart : ∀ other ∈ rest, other.id ≠ stage.id := by
        intro other member same
        have := absent other member
        rw [same, Kv.get_put_self] at this
        cases this
      refine ⟨List.nodup_cons.mpr ⟨?_, distinct⟩, ?_, rfl⟩
      · intro member
        obtain ⟨other, listed, same⟩ := List.mem_map.mp member
        exact apart other listed same
      · intro other member
        rcases List.mem_cons.mp member with rfl | later
        · simpa using fresh
        · have := absent other later
          rwa [Kv.get_put, if_neg (apart other later)] at this

theorem stageMap_error (refused : stageMap added map = .error fault) :
    (∃ id, fault = .refused (.duplicateStage id)) ∧
      ((added.map Stage.id).Nodup → ∃ stage ∈ added, (map.get stage.id).isSome) := by
  induction added generalizing map with
  | nil => cases refused
  | cons stage rest ih =>
    simp only [stageMap] at refused
    split at refused
    · rename_i taken
      exact ⟨⟨stage.id, (Except.error.inj refused).symm⟩, fun _ => ⟨stage, List.mem_cons_self, taken⟩⟩
    · obtain ⟨kind, clash⟩ := ih refused
      refine ⟨kind, fun distinct => ?_⟩
      obtain ⟨fresh, tail⟩ := List.nodup_cons.mp distinct
      obtain ⟨other, member, held⟩ := clash tail
      have apart : other.id ≠ stage.id := fun same =>
        fresh (List.mem_map.mpr ⟨other, member, same⟩)
      rw [Kv.get_put, if_neg apart] at held
      exact ⟨other, List.mem_cons_of_mem _ member, held⟩

theorem depMap_ok (mapped : depMap known pairs map = .ok final) :
    (∀ pair ∈ pairs, (known.get pair.1).isSome ∧ (known.get pair.2).isSome) ∧
      final = map.pushAll pairs := by
  induction pairs generalizing map with
  | nil => exact ⟨by simp, (Except.ok.inj mapped).symm⟩
  | cons pair rest ih =>
    obtain ⟨dependent, dependency⟩ := pair
    simp only [depMap] at mapped
    split at mapped
    · cases mapped
    · split at mapped
      · cases mapped
      · rename_i first second
        obtain ⟨both, rfl⟩ := ih mapped
        refine ⟨fun pair member => ?_, rfl⟩
        rcases List.mem_cons.mp member with rfl | later
        · exact ⟨by simpa [Option.isSome_iff_ne_none] using first,
            by simpa [Option.isSome_iff_ne_none] using second⟩
        · exact both pair later

theorem depMap_error (refused : depMap known pairs map = .error fault) :
    ∃ pair ∈ pairs, fault = .refused (.invalidDependency pair.1 pair.2) ∧
      ((known.get pair.1).isNone ∨ (known.get pair.2).isNone) := by
  induction pairs generalizing map with
  | nil => cases refused
  | cons pair rest ih =>
    obtain ⟨dependent, dependency⟩ := pair
    simp only [depMap] at refused
    split at refused
    · rename_i missing
      exact ⟨_, List.mem_cons_self, (Except.error.inj refused).symm, .inl missing⟩
    · split at refused
      · rename_i missing
        exact ⟨_, List.mem_cons_self, (Except.error.inj refused).symm, .inr missing⟩
      · obtain ⟨pair, member, kind, missing⟩ := ih refused
        exact ⟨pair, List.mem_cons_of_mem _ member, kind, missing⟩

def ids (builder : PipelineBuilder) : List StageId := builder.stages.map Stage.id

/-- `id` depends on `dep`. -/
def DependsOn (builder : PipelineBuilder) (id dep : StageId) : Prop :=
  (id, dep) ∈ builder.dependencies

/-- Ids are not shared, and both ends of every pair are stages. -/
def WellFormed (builder : PipelineBuilder) : Prop :=
  builder.ids.Nodup ∧ ∀ pair ∈ builder.dependencies, pair.1 ∈ builder.ids ∧ pair.2 ∈ builder.ids

/-- A graph a pipeline can be made of. -/
structure Valid (builder : PipelineBuilder) : Prop where
  distinct : builder.ids.Nodup
  ends : ∀ pair ∈ builder.dependencies, pair.1 ∈ builder.ids ∧ pair.2 ∈ builder.ids
  acyclic : Acyclic builder.DependsOn

theorem bucket_pairs (pairs : List (StageId × StageId)) (id : StageId) :
    ((Kv.empty : Kv StageId (List StageId)).pushAll pairs).bucket id =
      (pairs.filter fun pair => pair.1 = id).map Prod.snd := by
  rw [Kv.bucket_pushAll, Kv.bucket_empty, List.nil_append]

theorem mem_bucket_pairs :
    dep ∈ ((Kv.empty : Kv StageId (List StageId)).pushAll pairs).bucket id ↔ (id, dep) ∈ pairs := by
  rw [bucket_pairs]
  simp only [List.mem_map, List.mem_filter, decide_eq_true_iff]
  constructor
  · rintro ⟨pair, ⟨member, rfl⟩, rfl⟩
    exact member
  · intro member
    exact ⟨(id, dep), ⟨member, rfl⟩, rfl⟩

/-- No stage lists a dependency twice exactly if no pair is repeated. -/
theorem nodup_bucket_pairs :
    (∀ id, (((Kv.empty : Kv StageId (List StageId)).pushAll pairs).bucket id).Nodup) ↔ pairs.Nodup := by
  simp only [bucket_pairs]
  constructor
  · intro single
    rw [List.nodup_iff_sublist]
    intro pair twice
    have again := (twice.filter fun other => decide (other.1 = pair.1)).map Prod.snd
    simp only [List.filter_cons, decide_true, if_true, List.filter_nil, List.map_cons, List.map_nil] at again
    exact List.nodup_iff_sublist.mp (single pair.1) pair.2 again
  · intro distinct id
    refine (distinct.filter _).map_on fun pair member other listed same => ?_
    have named := of_decide_eq_true (List.mem_filter.mp member).2
    have named' := of_decide_eq_true (List.mem_filter.mp listed).2
    exact Prod.ext (named.trans named'.symm) same

/-! ### Which graphs are accepted -/

variable {builder : PipelineBuilder}

/-- The stages under their ids. -/
def stagesById (builder : PipelineBuilder) : Kv StageId Stage :=
  Kv.empty.putAll (builder.stages.map fun stage => (stage.id, stage))

/-- The dependencies under their dependents. -/
def edges (builder : PipelineBuilder) : Kv StageId (List StageId) :=
  Kv.empty.pushAll builder.dependencies

theorem isSome_stagesById (id : StageId) : (builder.stagesById.get id).isSome ↔ id ∈ builder.ids := by
  have keys : (builder.stages.map fun stage => (stage.id, stage)).map Prod.fst = builder.ids := by
    rw [List.map_map]
    rfl
  rw [← keys, stagesById]
  constructor
  · intro held
    by_contra absent
    rw [Kv.get_putAll_of_notMem absent, Kv.get_empty] at held
    cases held
  · intro member
    obtain ⟨stage, -, read⟩ := Kv.get_putAll_of_mem Kv.empty member
    rw [read]
    rfl

theorem keys_stagesById (distinct : builder.ids.Nodup) :
    (builder.stagesById.entries.map Prod.fst).Perm builder.ids := by
  refine (List.perm_ext_iff_of_nodup builder.stagesById.keys_nodup distinct).mpr fun id => ?_
  rw [Kv.mem_keys, isSome_stagesById]

theorem dependsOn_iff {id dep : StageId} : dep ∈ builder.edges.bucket id ↔ builder.DependsOn id dep :=
  mem_bucket_pairs

theorem bucket_edges :
    (fun id dep => dep ∈ builder.edges.bucket id) = builder.DependsOn := by
  funext id dep
  exact propext dependsOn_iff

theorem closed_edges (ends : ∀ pair ∈ builder.dependencies, pair.1 ∈ builder.ids ∧ pair.2 ∈ builder.ids) :
    Pipeline.Closed builder.stagesById builder.edges := by
  intro entry member
  simp only [isSome_stagesById]
  refine ⟨?_, fun dep listed => ?_⟩
  · have held := (Kv.mem_keys _).mp (List.mem_map_of_mem (f := Prod.fst) member)
    rw [edges, Kv.isSome_get_pushAll] at held
    rcases held with none_yet | pushed
    · cases none_yet
    · obtain ⟨pair, made, same⟩ := List.mem_map.mp pushed
      exact same ▸ (ends pair made).1
  · have needs : dep ∈ builder.edges.bucket entry.1 := by
      rwa [Pipeline.bucket_of_mem member]
    exact (ends _ (dependsOn_iff.mp needs)).2

theorem nodup_edges (ends : ∀ pair ∈ builder.dependencies, pair.1 ∈ builder.ids ∧ pair.2 ∈ builder.ids) :
    (∀ id ∈ builder.stagesById.entries.map Prod.fst, (builder.edges.bucket id).Nodup) ↔
      builder.dependencies.Nodup := by
  rw [← nodup_bucket_pairs]
  refine ⟨fun single id => ?_, fun single id _ => single id⟩
  by_cases member : id ∈ builder.stagesById.entries.map Prod.fst
  · exact single id member
  · have bare : builder.edges.bucket id = [] :=
      List.eq_nil_iff_forall_not_mem.mpr fun dep needs =>
        member ((closed_edges ends).ends id dep needs).1
    rw [show Kv.pushAll _ _ = builder.edges from rfl, bare]
    exact List.nodup_nil

theorem get_stagesById {stage : Stage} (distinct : builder.ids.Nodup) (member : stage ∈ builder.stages) :
    builder.stagesById.get stage.id = some stage := by
  refine Kv.get_putAll_of_nodup _ ?_ (List.mem_map.mpr ⟨stage, member, rfl⟩)
  rw [List.map_map]
  exact distinct

/-- No stage is ready only when all are completed. -/
theorem completed_of_stuck (valid : builder.Valid)
    (empty : Pipeline.readyStages ⟨builder.stagesById, builder.edges, sorted⟩ order completed = []) :
    ∀ id ∈ builder.ids, id ∈ completed := by
  refine valid.acyclic.all_done fun id member left => ?_
  by_contra none_waits
  push Not at none_waits
  have ready : id ∈ Pipeline.readyStages ⟨builder.stagesById, builder.edges, sorted⟩ order completed := by
    refine Pipeline.mem_readyStages.mpr ⟨(isSome_stagesById id).mpr member, left, fun dep needs => ?_⟩
    have edge := dependsOn_iff.mp needs
    exact none_waits dep (valid.ends _ edge).2 edge
  rw [empty] at ready
  cases ready

/-- Some stage depends on this one in the graph of the pipeline. -/
def HasDependent (builder : PipelineBuilder) (id : StageId) : Prop :=
  ∃ pair ∈ builder.dependencies, pair.2 = id

/-- Some stage names this one as a dependency of its own. -/
def Named (builder : PipelineBuilder) (id : StageId) : Prop :=
  ∃ other ∈ builder.stages, id ∈ other.dependencies

instance : DecidablePred builder.HasDependent := fun id =>
  inferInstanceAs (Decidable (∃ pair ∈ builder.dependencies, pair.2 = id))

instance : DecidablePred builder.Named := fun id =>
  inferInstanceAs (Decidable (∃ other ∈ builder.stages, id ∈ other.dependencies))

/-- A build gives the graph it was told and an order that respects it, and refuses the
graphs that are not valid and those with a repeated pair. -/
theorem build_spec (builder : PipelineBuilder) (orders : HashOrders) :
    (∃ order, builder.build orders = .ok ⟨builder.stagesById, builder.edges, order⟩ ∧
      builder.Valid ∧ builder.dependencies.Nodup ∧ order.Perm builder.ids ∧
        Respects builder.DependsOn order) ∨
    ∃ error, builder.build orders = .error (.refused error) ∧
      ¬ (builder.Valid ∧ builder.dependencies.Nodup) ∧
      (error = .cyclicDependency ↔ builder.WellFormed) := by
  cases mapped : stageMap builder.stages .empty with
  | error fault =>
    obtain ⟨⟨id, rfl⟩, clash⟩ := stageMap_error mapped
    have repeated : ¬ builder.ids.Nodup := by
      intro distinct
      obtain ⟨stage, -, held⟩ := clash distinct
      simp at held
    exact .inr ⟨.duplicateStage id, by simp only [build, mapped],
      fun fit => repeated fit.1.distinct, nofun, fun formed => absurd formed.1 repeated⟩
  | ok stages =>
    obtain ⟨distinct, -, rfl⟩ := stageMap_ok mapped
    cases linked : depMap builder.stagesById builder.dependencies .empty with
    | error fault =>
      obtain ⟨pair, member, rfl, missing⟩ := depMap_error linked
      have open_ : ¬ ∀ pair ∈ builder.dependencies, pair.1 ∈ builder.ids ∧ pair.2 ∈ builder.ids := by
        intro ends
        obtain ⟨first, second⟩ := ends pair member
        rw [← isSome_stagesById] at first second
        rcases missing with missing | missing
        · exact Option.isSome_iff_ne_none.mp first (Option.isNone_iff_eq_none.mp missing)
        · exact Option.isSome_iff_ne_none.mp second (Option.isNone_iff_eq_none.mp missing)
      refine .inr ⟨.invalidDependency pair.1 pair.2, ?_, fun fit => open_ fit.1.ends, nofun,
        fun formed => absurd formed.2 open_⟩
      simp only [build, mapped]
      rw [show Kv.putAll _ _ = builder.stagesById from rfl, linked]
    | ok dependencies =>
      obtain ⟨known, rfl⟩ := depMap_ok linked
      simp only [isSome_stagesById] at known
      obtain ⟨lowered, order, sorting, ran⟩ :=
        Pipeline.computeTopologicalOrder_spec orders (closed_edges known)
      have full := sorting.full_iff builder.stagesById.keys_nodup (closed_edges known).ends
      rw [bucket_edges, nodup_edges known, List.length_map] at full
      have built : builder.build orders = if order.length ≠ builder.stagesById.entries.length then
          .error (.refused .cyclicDependency)
          else .ok ⟨builder.stagesById, builder.edges, order⟩ := by
        simp only [build, mapped]
        rw [show Kv.putAll _ _ = builder.stagesById from rfl, linked]
        simp only
        rw [show Kv.pushAll _ _ = builder.edges from rfl, ran]
        split_ifs <;> rfl
      rw [built]
      by_cases whole : order.length = builder.stagesById.entries.length
      · obtain ⟨single, acyclic⟩ := full.mp whole
        have perm := sorting.perm (by rw [List.length_map]; exact whole)
        have respects := sorting.respects
        rw [bucket_edges] at respects
        exact .inl ⟨order, by simp [whole], ⟨distinct, known, acyclic⟩, single,
          perm.trans (keys_stagesById distinct), respects⟩
      · refine .inr ⟨.cyclicDependency, by simp [whole], ?_, fun _ => ⟨distinct, known⟩, fun _ => rfl⟩
        rintro ⟨valid, single⟩
        exact whole (full.mpr ⟨single, valid.acyclic⟩)

/-- The graphs are accepted as they should be: the valid ones, in an order in which every
dependency comes before its dependents, and a cycle is reported only where there is one. -/
structure BuildsExactly (builder : PipelineBuilder) (orders : HashOrders) : Prop where
  accepts : (∃ pipeline, builder.build orders = .ok pipeline) ↔ builder.Valid
  ordered : ∀ pipeline, builder.build orders = .ok pipeline →
    pipeline.topologicalOrder.Perm builder.ids ∧ ∀ pair ∈ builder.dependencies,
      pipeline.topologicalOrder.idxOf pair.2 < pipeline.topologicalOrder.idxOf pair.1
  counted : builder.build orders ≠ .error .underflow ∧ builder.build orders ≠ .error .unwrapped
  cyclic : builder.build orders = .error (.refused .cyclicDependency) → ¬ Acyclic builder.DependsOn

/-- A pair that is listed twice counts twice into the in-degree and is taken off once. -/
theorem builds_exactly_iff (builder : PipelineBuilder) (orders : HashOrders) :
    BuildsExactly builder orders ↔ (builder.Valid → builder.dependencies.Nodup) := by
  rcases build_spec builder orders with
    ⟨order, built, valid, single, perm, respects⟩ | ⟨error, refused, unfit, cyclic⟩
  · refine ⟨fun _ _ => single, fun _ => ⟨⟨fun _ => valid, fun _ => ⟨_, built⟩⟩, ?_, ?_, ?_⟩⟩
    · intro pipeline other
      obtain rfl := Except.ok.inj (built.symm.trans other)
      refine ⟨perm, fun pair member => ?_⟩
      exact respects.idxOf_lt (perm.nodup_iff.mpr valid.distinct)
        (perm.mem_iff.mpr (valid.ends pair member).1) member
    · rw [built]
      exact ⟨nofun, nofun⟩
    · rw [built]
      exact nofun
  · constructor
    · intro exact_ valid
      obtain ⟨pipeline, built⟩ := exact_.accepts.mpr valid
      rw [refused] at built
      cases built
    · intro single
      have invalid : ¬ builder.Valid := fun valid => unfit ⟨valid, single valid⟩
      refine ⟨⟨?_, fun valid => absurd valid invalid⟩, ?_, ?_, ?_⟩
      · rintro ⟨pipeline, built⟩
        rw [refused] at built
        cases built
      · intro pipeline built
        rw [refused] at built
        cases built
      · rw [refused]
        exact ⟨nofun, nofun⟩
      · intro reported
        rw [refused] at reported
        have kind : error = .cyclicDependency := by simpa using reported
        obtain ⟨distinct, ends⟩ := cyclic.mp kind
        exact fun acyclic => invalid ⟨distinct, ends, acyclic⟩

def inKeyOrder : HashOrders := ⟨⟨fun entries => entries, .refl⟩, ⟨fun entries => entries, .refl⟩⟩

/-- Two stages, the second told twice to wait for the first. -/
def toldTwice : PipelineBuilder where
  stages := [⟨0, 1, []⟩, ⟨1, 1, []⟩]
  dependencies := [(1, 0), (1, 0)]

/-- No cycle, and refused for one in every iteration order. -/
theorem repeated_pair_refused : toldTwice.Valid ∧
    ∀ orders, toldTwice.build orders = .error (.refused .cyclicDependency) := by
  have valid : toldTwice.Valid := by
    refine ⟨by decide, by decide, ?_⟩
    have respects : Respects toldTwice.DependsOn [0, 1] := by
      refine Respects.concat (Respects.concat Respects.nil ?_) ?_ <;> simp [DependsOn, toldTwice]
    refine respects.acyclic (by decide) fun id dep needs => ?_
    simp_all [DependsOn, toldTwice]
  refine ⟨valid, fun orders => ?_⟩
  rcases build_spec toldTwice orders with ⟨_, _, _, single, _⟩ | ⟨error, refused, -, cyclic⟩
  · exact absurd single (by decide)
  · rw [refused, cyclic.mpr ⟨valid.distinct, valid.ends⟩]

end PipelineBuilder
end Roboflow.Executor
