import Roboflow.Batch.ScannerCoverage
import Roboflow.Batch.SourceListing

/-! The work units of one source. `process_single_source` is the scanner's steps from
the listing of a source to its last chunk. Each unit carries the URL of the source
instead of the URL of its file, so it is right only when the source is the file. -/
namespace Roboflow.Batch
open Library Storage

/-! ### What the chunks leave behind -/

/-- The units of a creation have been put: nothing else is touched, and each id has the unit
of one of its files. -/
structure Filled (creation : Creation) (units units' : Kv String WorkUnit) : Prop where
  kept : ∀ id, id ∉ creation.files.map Prod.snd → units'.get id = units.get id
  put : ∀ id ∈ creation.files.map Prod.snd, ∃ file now, (file, id) ∈ creation.files ∧
    units'.get id = some (createWorkUnit creation file id now)

section
variable {config : ScannerConfig} {spec : BatchSpec}

theorem Filled.nothing {creation : Creation} (empty : creation.files = []) (units : Kv String WorkUnit) :
    Filled creation units units := by
  refine ⟨fun _ _ => rfl, ?_⟩
  intro id member
  rw [empty] at member
  cases member

/-- One chunk, and then the rest. -/
theorem Filled.chunk {creation : Creation} {size count : Nat} {now : Time}
    {units units' : Kv String WorkUnit}
    (rest : Filled { creation with files := creation.files.drop size, created := count }
      (units.putAll (newUnits creation (creation.files.take size) now)) units') :
    Filled creation units units' := by
  have split : creation.files.map Prod.snd =
      (creation.files.take size).map Prod.snd ++ (creation.files.drop size).map Prod.snd := by
    rw [← List.map_append, List.take_append_drop]
  have named : (newUnits creation (creation.files.take size) now).map Prod.fst =
      (creation.files.take size).map Prod.snd := by
    simp [newUnits, Function.comp_def]
  refine ⟨?_, ?_⟩
  · intro id outside
    rw [split, List.mem_append, not_or] at outside
    rw [rest.kept id outside.2, Kv.get_putAll_of_notMem (named ▸ outside.1)]
  · intro id inside
    by_cases later : id ∈ (creation.files.drop size).map Prod.snd
    · obtain ⟨file, at_, member, stored⟩ := rest.put id later
      exact ⟨file, at_, List.mem_of_mem_drop member, stored⟩
    · have first : id ∈ (creation.files.take size).map Prod.snd := by
        rw [split, List.mem_append] at inside
        exact inside.resolve_right later
      obtain ⟨unit, written, stored⟩ := Kv.get_putAll_of_mem units (named ▸ first)
      obtain ⟨⟨file, hash⟩, member, same⟩ := List.mem_map.mp written
      obtain ⟨rfl, rfl⟩ := Prod.mk.inj same
      refine ⟨file, now, List.mem_of_mem_take member, ?_⟩
      rw [rest.kept _ later, stored]

/-- From the start of `create_work_units_for_files` to its return. -/
theorem creating_filled {times : List Time} {history history' : History ScanState ScanAction ScanOut}
    {s s' : ScanState} {work work' : Discovery} {listed : Nat} {creation : Creation}
    (creating : s.call = .creating work listed creation)
    (ran : (scanner config spec).replay history s (times.map .createChunk) = some (history', s'))
    (returned : s'.call = .saving work') : Filled creation s.units s'.units := by
  induction times generalizing history s creation with
  | nil =>
    simp only [List.map_nil, Machine.replay, Option.some.injEq, Prod.mk.injEq] at ran
    obtain ⟨-, rfl⟩ := ran
    rw [creating] at returned
    cases returned
  | cons now times ih =>
    simp only [List.map_cons, Machine.replay, scanner, scanStep, creating] at ran
    by_cases empty : creation.files = []
    · simp only [empty, ↓reduceIte] at ran
      cases times with
      | nil =>
        simp only [List.map_nil, Machine.replay, Option.some.injEq, Prod.mk.injEq] at ran
        obtain ⟨-, rfl⟩ := ran
        exact .nothing empty _
      | cons next times =>
        simp only [List.map_cons, Machine.replay, scanStep] at ran
        cases ran
    · by_cases panics : config.batchSize = 0
      · simp only [empty, panics, ↓reduceIte] at ran
        cases ran
      · simp only [empty, panics, ↓reduceIte] at ran
        exact Filled.chunk (ih rfl ran)

/-- The listed files that have no unit yet. -/
def newFiles (config : ScannerConfig) (spec : BatchSpec) (units : Kv String WorkUnit)
    (files : List ObjectMetadata) : List ObjectMetadata :=
  files.filter fun file => (units.get (config.fileHash file spec.config)).isNone

/-- Where a listed file is: its path is a key in the bucket of the source, or a local path. -/
def fileAddress (source : StorageUrl) (file : ObjectMetadata) : Address :=
  match source with
  | .localPath _ => .file (UnixPath.components file.path.toList)
  | .s3 bucket _ _ _ => .object bucket file.path.toList

/-- The unit has one work file, and its URL names this file. -/
def UnitOf (source : StorageUrl) (unit : WorkUnit) (file : ObjectMetadata) : Prop :=
  ∃ workFile named, unit.files = [workFile] ∧ StorageUrl.fromStr workFile.url.toList = .ok named ∧
    named.address = fileAddress source file

/-- What is stored stays, each new file has exactly one new unit, and each new unit is stored
under its own id and is that of exactly one new file. -/
structure OneUnitEach (source : StorageUrl) (new : List ObjectMetadata)
    (units units' : Kv String WorkUnit) : Prop where
  kept : ∀ id unit, units.get id = some unit → units'.get id = some unit
  stored : ∀ file ∈ new, ∃! id, units.get id = none ∧
    ∃ unit, units'.get id = some unit ∧ UnitOf source unit file
  nothingElse : ∀ id unit, units.get id = none → units'.get id = some unit →
    unit.id = id ∧ ∃! file, file ∈ new ∧ UnitOf source unit file

/-- The new files, with any number of listings, are the one file that the source names. -/
def SourceIsFile (source : StorageUrl) (new : List ObjectMetadata) : Prop :=
  ∀ file ∈ new, source.address = fileAddress source file ∧ ∀ other ∈ new, other = file

/-- The steps of `process_single_source` put exactly the units of the new files. -/
theorem process_filled {times : List Time} {history : History ScanState ScanAction ScanOut}
    {s s' : ScanState} {work work' : Discovery} {source : String} {rest : List String}
    {files : List ObjectMetadata} (scanning : s.call = .scanning work)
    (next : work.remaining = source :: rest)
    (ran : (scanner config spec).replay [] s
      (.list (some files) :: .check :: times.map .createChunk) = some (history, s'))
    (returned : s'.call = .saving work') :
    ∃ creation : Creation, creation.sourceUrl = source ∧
      creation.files = (newFiles config spec s.units files).map
        (fun file => (file, config.fileHash file spec.config)) ∧
      Filled creation s.units s'.units := by
  simp only [Machine.replay, scanner, scanStep, scanning, next] at ran
  change (scanner config spec).replay _ _ _ = _ at ran
  have filled := creating_filled rfl ran returned
  refine ⟨_, rfl, ?_, filled⟩
  simp [newFiles, List.filter_map, Function.comp_def]

/-- A unit made for a source names a file exactly if the source does. -/
theorem unitOf_created {creation : Creation} {source : StorageUrl}
    (accepted : StorageUrl.fromStr creation.sourceUrl.toList = .ok source)
    (made file : ObjectMetadata) (id : String) (now : Time) :
    UnitOf source (createWorkUnit creation made id now) file ↔
      source.address = fileAddress source file := by
  constructor
  · rintro ⟨workFile, named, single, parsed, same⟩
    obtain rfl := List.singleton_inj.mp single
    obtain rfl := Except.ok.inj (accepted.symm.trans parsed)
    exact same
  · intro same
    exact ⟨_, source, rfl, accepted, same⟩

end

/-- Units put for new files are right exactly if the source is the one new file. -/
theorem Filled.oneUnitEach_iff {creation : Creation} {units units' : Kv String WorkUnit}
    {hash : ObjectMetadata → String} {new : List ObjectMetadata} {parsed : StorageUrl}
    (filled : Filled creation units units')
    (named : creation.files = new.map fun file => (file, hash file))
    (fresh : ∀ file ∈ new, units.get (hash file) = none)
    (accepted : StorageUrl.fromStr creation.sourceUrl.toList = .ok parsed) :
    OneUnitEach parsed new units units' ↔ SourceIsFile parsed new := by
  have created := unitOf_created accepted
  have hashed : ∀ id, id ∈ creation.files.map Prod.snd ↔ ∃ file ∈ new, hash file = id := by
    intro id
    rw [named]
    simp
  have own : ∀ file id, (file, id) ∈ creation.files → file ∈ new ∧ hash file = id := by
    intro file id member
    rw [named] at member
    obtain ⟨other, inNew, same⟩ := List.mem_map.mp member
    obtain ⟨rfl, rfl⟩ := Prod.mk.inj same
    exact ⟨inNew, rfl⟩
  have newId : ∀ id unit, units.get id = none → units'.get id = some unit →
      id ∈ creation.files.map Prod.snd := by
    intro id unit absent stored
    by_contra outside
    rw [filled.kept id outside, absent] at stored
    cases stored
  constructor
  · intro each file member
    have names : ∀ file ∈ new, parsed.address = fileAddress parsed file := by
      intro file member
      obtain ⟨id, ⟨absent, unit, stored, unitOf⟩, -⟩ := each.stored file member
      obtain ⟨made, now, -, put⟩ := filled.put id (newId id unit absent stored)
      rw [put] at stored
      obtain rfl := Option.some.inj stored
      exact (created made file id now).mp unitOf
    refine ⟨names file member, ?_⟩
    intro other inNew
    obtain ⟨made, now, -, put⟩ := filled.put _ ((hashed _).mpr ⟨file, member, rfl⟩)
    obtain ⟨-, one⟩ := each.nothingElse _ _ (fresh file member) put
    exact one.unique ⟨inNew, (created made other _ now).mpr (names other inNew)⟩
      ⟨member, (created made file _ now).mpr (names file member)⟩
  · intro only
    refine ⟨?_, ?_, ?_⟩
    · intro id unit stored
      rw [filled.kept id, stored]
      rw [hashed]
      rintro ⟨file, member, rfl⟩
      rw [fresh file member] at stored
      cases stored
    · intro file member
      obtain ⟨made, now, -, put⟩ := filled.put _ ((hashed _).mpr ⟨file, member, rfl⟩)
      refine ⟨hash file, ⟨fresh file member, _, put,
        (created made file _ now).mpr (only file member).1⟩, ?_⟩
      rintro id ⟨absent, unit, stored, -⟩
      obtain ⟨other, inNew, same⟩ := (hashed id).mp (newId id unit absent stored)
      rw [← same, (only file member).2 other inNew]
    · intro id unit absent stored
      obtain ⟨made, now, member, put⟩ := filled.put id (newId id unit absent stored)
      obtain ⟨inNew, -⟩ := own made id member
      rw [put] at stored
      obtain rfl := Option.some.inj stored
      refine ⟨rfl, made, ⟨inNew, (created made made id now).mpr (only made inNew).1⟩, ?_⟩
      rintro other ⟨otherNew, -⟩
      exact (only made inNew).2 other otherNew

theorem newFiles_fresh {config : ScannerConfig} {spec : BatchSpec} {units : Kv String WorkUnit}
    {files : List ObjectMetadata} : ∀ file ∈ newFiles config spec units files,
      units.get (config.fileHash file spec.config) = none := by
  intro file member
  simpa using (List.mem_filter.mp member).2

/-- For every source, listing and stored units: processing the source makes one right unit for
each new file exactly if the source itself is the only new file. -/
theorem one_unit_each_iff (config : ScannerConfig) (spec : BatchSpec) (s s' : ScanState)
    (work work' : Discovery) (source : String) (rest : List String) (parsed : StorageUrl)
    (files : List ObjectMetadata) (times : List Time)
    (history : History ScanState ScanAction ScanOut) (scanning : s.call = .scanning work)
    (next : work.remaining = source :: rest)
    (accepted : StorageUrl.fromStr source.toList = .ok parsed)
    (ran : (scanner config spec).replay [] s
      (.list (some files) :: .check :: times.map .createChunk) = some (history, s'))
    (returned : s'.call = .saving work') :
    OneUnitEach parsed (newFiles config spec s.units files) s.units s'.units ↔
      SourceIsFile parsed (newFiles config spec s.units files) := by
  obtain ⟨creation, rfl, named, filled⟩ := process_filled scanning next ran returned
  exact filled.oneUnitEach_iff named newFiles_fresh accepted

/-- A batch with one source, and a scanner in front of it. -/
def oneSourceBatch (source : String) : BatchSpec := ⟨"jobs", "b", [source], "s3://out/", "cfg", 3⟩

def inFront (source : String) : ScanState :=
  { ScanState.submitted 0 with
    call := .scanning {
      spec := oneSourceBatch source
      status := (BatchStatus.new 0).transitionTo .discovering 0
      remaining := [source] } }

/-- The source is the file. -/
theorem single_file_unit : ∃ history s',
    (scanner twoFiles (oneSourceBatch "s3://bucket/1.mcap")).replay [] (inFront "s3://bucket/1.mcap")
        [.list (some [⟨"1.mcap", 10⟩]), .check, .createChunk 1, .createChunk 1] = some (history, s') ∧
      newFiles twoFiles (oneSourceBatch "s3://bucket/1.mcap") (inFront "s3://bucket/1.mcap").units
        [⟨"1.mcap", 10⟩] = [⟨"1.mcap", 10⟩] ∧
      OneUnitEach (.s3 "bucket".toList "1.mcap".toList none none)
        (newFiles twoFiles (oneSourceBatch "s3://bucket/1.mcap")
          (inFront "s3://bucket/1.mcap").units [⟨"1.mcap", 10⟩])
        (inFront "s3://bucket/1.mcap").units s'.units := by
  refine ⟨_, _, rfl, by decide, (one_unit_each_iff twoFiles (oneSourceBatch "s3://bucket/1.mcap")
    (inFront "s3://bucket/1.mcap") _ _ _ "s3://bucket/1.mcap" [] (.s3 "bucket".toList "1.mcap".toList none none)
    [⟨"1.mcap", 10⟩] [1, 1] _ rfl rfl (by decide) rfl rfl).mpr ?_⟩
  unfold SourceIsFile
  decide

/-- Both units of a directory carry the URL of the directory. -/
theorem directory_units_misnamed : ¬ ∀ (config : ScannerConfig) (spec : BatchSpec) (s s' : ScanState)
    (work work' : Discovery) (source : String) (rest : List String) (parsed : StorageUrl)
    (files : List ObjectMetadata) (times : List Time)
    (history : History ScanState ScanAction ScanOut), s.call = .scanning work →
    work.remaining = source :: rest → StorageUrl.fromStr source.toList = .ok parsed →
    (scanner config spec).replay [] s (.list (some files) :: .check :: times.map .createChunk) =
      some (history, s') → s'.call = .saving work' →
    OneUnitEach parsed (newFiles config spec s.units files) s.units s'.units := by
  intro always
  have accepted : StorageUrl.fromStr "s3://bucket/in/".toList =
      .ok (.s3 "bucket".toList "in/".toList none none) := by decide
  obtain ⟨history, s', work', ran, returned⟩ : ∃ history s' work',
      (scanner twoFiles (oneSourceBatch "s3://bucket/in/")).replay [] (inFront "s3://bucket/in/")
          (.list (some [⟨"in/1.mcap", 10⟩, ⟨"in/2.mcap", 20⟩]) :: .check ::
            [1, 1].map .createChunk) = some (history, s') ∧
        s'.call = .saving work' := ⟨_, _, _, rfl, rfl⟩
  have each := always _ _ _ _ _ _ _ _ _ _ _ _ rfl rfl accepted ran returned
  obtain ⟨creation, origin, named, filled⟩ := process_filled rfl rfl ran returned
  have only := (filled.oneUnitEach_iff named newFiles_fresh (origin ▸ accepted)).mp each
    ⟨"in/1.mcap", 10⟩ (by decide)
  exact absurd only.1 (by decide)

end Roboflow.Batch
