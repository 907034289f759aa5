import Roboflow.Batch.ClusterMoves

/-! The scanner's cycles over one batch: `process_batch` with the listing, the check
for existing units and the creation of new ones for each source, cut at its
`TikvClient` calls. A restart may fall between any two.

How far a batch was scanned is stored as a count of listed sources. The next cycle
skips that many sources from the front, so a source that failed before another was
listed is never listed again; and `work_units_total` is set to what the last cycle
alone created. -/
namespace Roboflow.Batch
open Library

structure ScannerConfig where
  batchSize : Nat
  /-- `compute_file_hash`, by the file and the config hash. -/
  fileHash : ObjectMetadata → String → String

/-- Where `process_batch` is between two `TikvClient` calls. -/
inductive ScanCall where
  | idle
  /-- Before the put of `initialize_discovery_phase`. -/
  | starting (work : Discovery)
  /-- In front of the next source. -/
  | scanning (work : Discovery)
  /-- The source is listed; which of its files have units is not yet known. -/
  | checking (work : Discovery) (source : String) (files : List (ObjectMetadata × String))
  /-- In `create_work_units_for_files`, for a source of so many files. -/
  | creating (work : Discovery) (listed : Nat) (creation : Creation)
  /-- Before the put that ends a source. -/
  | saving (work : Discovery)
  /-- Before the put of `finalize_batch_phase`. -/
  | concluding (status : BatchStatus)

/-- Sources with the files `scan_atSourceurl` returned for them. -/
abbrev Listings := List (String × List ObjectMetadata)

/-- The batch's own keys, and the scanner. Units are stored by their id. -/
structure ScanState where
  units : Kv String WorkUnit
  pending : Kv String String
  status : Option BatchStatus
  /-- What `get_pending_batches` has read of this batch and the cycle has not processed. -/
  fetched : List BatchStatus
  call : ScanCall
  /-- What `scan_atSourceurl` has returned so far. No step reads it. -/
  listings : Listings

/-- A batch just submitted. -/
def ScanState.submitted (now : Time) : ScanState :=
  ⟨.empty, .empty, some (.new now), [], .idle, []⟩

inductive ScanOut where
  | quiet
  /-- `finalize_batch_phase` has put this status. -/
  | concluded (status : BatchStatus)

inductive ScanAction where
  | fetch (now : Time)
  | process (now : Time)
  /-- The answer of `scan_atSourceurl`, `none` for an error. -/
  | list (answer : Option (List ObjectMetadata))
  | check
  | createChunk (now : Time)
  /-- A `TikvClient` call of `process_single_source` fails. -/
  | failSource
  | put
  | finish (now : Time)
  /-- A put of a status fails, which ends `process_batch`. -/
  | abort
  | restart
  /-- A worker or the reaper puts a unit that is stored. -/
  | work (id : String) (unit : WorkUnit)

/-- The units of one chunk, by id. -/
def newUnits (creation : Creation) (chunk : List (ObjectMetadata × String)) (now : Time) :
    List (String × WorkUnit) :=
  chunk.map fun file => (file.2, createWorkUnit creation file.1 file.2 now)

/-- The queue entries of one chunk. -/
def newPending (creation : Creation) (chunk : List (ObjectMetadata × String)) :
    List (String × String) :=
  chunk.map fun file => (file.2, creation.batchId)

/-- The rest of a cycle after a source that could not be processed. -/
def Discovery.skipped (work : Discovery) : Discovery := { work with remaining := work.remaining.tail }

/-- `sources_scanned`, as `process_batch` reads it. -/
def BatchStatus.sourcesScanned (status : BatchStatus) : Nat :=
  (status.discoveryStatus.map (·.sourcesScanned)).getD 0

def scanStep (config : ScannerConfig) (spec : BatchSpec) (s : ScanState) :
    ScanAction → Option (ScanState × ScanOut)
  | .fetch now =>
    match s.call with
    | .idle =>
      let status := s.status.getD (.new now)
      if status.phase = .pending ∨ status.phase = .discovering then
        some ({ s with fetched := s.fetched ++ [status] }, .quiet)
      else some (s, .quiet)
    | _ => none
  | .process now =>
    match s.call, s.fetched with
    | .idle, status :: rest =>
      if status.phase = .pending then
        let status' := initializeDiscovery spec status now
        some ({ s with
          fetched := rest
          call := .starting { spec := spec, status := status', remaining := spec.sources } }, .quiet)
      else
        some ({ s with
          fetched := rest
          call := .scanning {
            spec := spec
            status := status
            remaining := spec.sources.drop status.sourcesScanned } }, .quiet)
    | _, _ => none
  | .list answer =>
    match s.call with
    | .scanning work =>
      match work.remaining, answer with
      | [], _ => none
      | _ :: _, none => some ({ s with call := .scanning work.skipped }, .quiet)
      | source :: _, some files =>
        let hashed := files.map fun file => (file, config.fileHash file spec.config)
        some ({ s with
          call := .checking work source hashed
          listings := (source, files) :: s.listings }, .quiet)
    | _ => none
  | .check =>
    match s.call with
    | .checking work source files =>
      let creation := {
        batchId := spec.batchId
        sourceUrl := source
        outputPrefix := spec.output
        configHash := spec.config
        files := files.filter fun file => (s.units.get file.2).isNone }
      some ({ s with call := .creating work files.length creation }, .quiet)
    | _ => none
  | .createChunk now =>
    match s.call with
    | .creating work listed creation =>
      if creation.files = [] then
        some ({ s with
          call := .saving (work.scanned work.remaining.tail listed creation.created) }, .quiet)
      -- `chunks(0)` panics.
      else if config.batchSize = 0 then none
      else
        let chunk := creation.files.take config.batchSize
        some ({ s with
          units := s.units.putAll (newUnits creation chunk now)
          pending := s.pending.putAll (newPending creation chunk)
          call := .creating work listed { creation with
            files := creation.files.drop config.batchSize
            created := creation.created + chunk.length } }, .quiet)
    | _ => none
  | .failSource =>
    match s.call with
    | .checking work _ _ | .creating work _ _ =>
      some ({ s with call := .scanning work.skipped }, .quiet)
    | _ => none
  | .put =>
    match s.call with
    | .starting work | .saving work =>
      some ({ s with status := some work.status, call := .scanning work }, .quiet)
    | .concluding status => some ({ s with status := some status, call := .idle }, .concluded status)
    | _ => none
  | .finish now =>
    match s.call with
    | .scanning work =>
      if work.remaining = [] then
        match work.finalize now with
        | none => some ({ s with call := .idle }, .quiet)
        | some status => some ({ s with call := .concluding status }, .quiet)
      else none
    | _ => none
  | .abort => some ({ s with call := .idle }, .quiet)
  | .restart => some ({ s with fetched := [], call := .idle }, .quiet)
  | .work id unit =>
    match s.units.get id with
    | none => none
    | some _ => some ({ s with units := s.units.put id unit }, .quiet)

def scanner (config : ScannerConfig) (spec : BatchSpec) : Machine ScanState ScanAction ScanOut :=
  ⟨scanStep config spec⟩

/-! ### Coverage -/

variable (config : ScannerConfig) (spec : BatchSpec)

/-- Every source was listed, every listed file has its unit, and the total is the
number of units. -/
structure SourcesCovered (units : Kv String WorkUnit) (listings : Listings) (status : BatchStatus) :
    Prop where
  sources : ∀ source ∈ spec.sources, ∃ files, (source, files) ∈ listings
  files : ∀ source files file, (source, files) ∈ listings → file ∈ files →
    (units.get (config.fileHash file spec.config)).isSome
  total : status.workUnitsTotal = units.entries.length

/-- Whenever the scanner moves the batch to `Running`, it is covered. -/
def CoversRuns (history : History ScanState ScanAction ScanOut) : Prop :=
  ∀ e ∈ history, ∀ status, e.out = .concluded status → status.phase = .running →
    SourcesCovered config spec e.post.units e.post.listings status

/-- The status a cycle has read is the one that is stored. -/
def ScanState.current (s : ScanState) (status : BatchStatus) : Bool :=
  match s.status with
  | some stored => stored = status
  | none => status.phase = .pending

/-- A cycle begins before any unit of the batch is stored, on the stored status. No
source is listed after one that failed in the same cycle. The files of a listing
have different hashes, and are all those of an earlier listing of the source that
have no unit. Counts fit 32 bits. -/
def ScansInOrder (s : ScanState) : ScanAction → Bool
  | .process _ =>
    spec.sources.length < 2 ^ 32 && s.units.entries.isEmpty && s.fetched.head?.all s.current
  | .list (some files) =>
    match s.call with
    | .scanning work =>
      work.remaining.length + work.status.sourcesScanned = spec.sources.length &&
        (files.map fun file => config.fileHash file spec.config).Nodup &&
        s.units.entries.length + files.length < 2 ^ 32 &&
        s.listings.all fun listing =>
          !(work.remaining.head? = some listing.1) || listing.2.all fun file =>
            (s.units.get (config.fileHash file spec.config)).isSome || files.contains file
    | _ => true
  | _ => true

/-! ### Where a cycle stands -/

/-- The first sources of the spec, up to a count, were listed. -/
def Scanned (listings : Listings) (count : Nat) : Prop :=
  ∀ source ∈ spec.sources.take count, ∃ files, (source, files) ∈ listings

/-- A listed file has its unit, or its source and hash excuse it. -/
def FilesAccounted (units : Kv String WorkUnit) (listings : Listings)
    (excused : String → String → Prop) : Prop :=
  ∀ source files file, (source, files) ∈ listings → file ∈ files →
    (units.get (config.fileHash file spec.config)).isSome ∨
      excused source (config.fileHash file spec.config)

/-- The count a cycle would resume from; none once discovery is over. -/
def resumeCount (stored : Option BatchStatus) : Option Nat :=
  match stored with
  | none => some 0
  | some status =>
    match status.phase with
    | .pending => some 0
    | .discovering => some status.sourcesScanned
    | _ => none

/-- A cycle's copy of the batch, with the units that the current source has added. -/
structure Cycling (units : Kv String WorkUnit) (work : Discovery) (added : Nat) : Prop where
  same : work.spec = spec
  phase : work.status.phase = .discovering
  suffix : ∃ skipped, work.status.sourcesScanned ≤ skipped ∧
    work.remaining = spec.sources.drop skipped
  /-- As long as no source of the cycle has failed. -/
  created : work.remaining = spec.sources.drop work.status.sourcesScanned →
    work.jobsCreated + added = units.entries.length
  few : spec.sources.length < 2 ^ 32
  small : units.entries.length < 2 ^ 32

/-- The cycle is at the source its count points to, and has listed it. Every listed
file without a unit is among those still to be written. -/
structure AtSource (units : Kv String WorkUnit) (stored : Option BatchStatus) (listings : Listings)
    (work : Discovery) (files : List (ObjectMetadata × String)) : Prop where
  position : resumeCount stored = some work.status.sourcesScanned
  here : work.remaining = spec.sources.drop work.status.sourcesScanned
  listed : ∃ source rest found, work.remaining = source :: rest ∧ (source, found) ∈ listings
  distinct : (files.map Prod.snd).Nodup
  small : units.entries.length + files.length < 2 ^ 32
  accounted : FilesAccounted config spec units listings fun _ hash => hash ∈ files.map Prod.snd

def ScanCall.Sound (units : Kv String WorkUnit) (stored : Option BatchStatus) (listings : Listings) :
    ScanCall → Prop
  | .idle => True
  | .starting work =>
    Cycling spec units work 0 ∧ work.status.sourcesScanned = 0 ∧ resumeCount stored = some 0
  | .scanning work =>
    Cycling spec units work 0 ∧ resumeCount stored = some work.status.sourcesScanned
  | .checking work _ files =>
    Cycling spec units work 0 ∧ AtSource config spec units stored listings work files
  | .creating work _ creation =>
    Cycling spec units work creation.created ∧
      AtSource config spec units stored listings work creation.files ∧
      ∀ file ∈ creation.files, units.get file.2 = none
  | .saving work =>
    Cycling spec units work 0 ∧ Scanned spec listings work.status.sourcesScanned ∧
      FilesAccounted config spec units listings fun _ _ => False
  | .concluding status =>
    (status.phase = .failed ∨ status.phase = .running) ∧
      (status.phase = .running → SourcesCovered config spec units listings status)

/-- What holds between any two steps. A file listed for the source that is next may
have no unit yet: a restart can fall between its listing and its unit. -/
structure ScanInvariant (s : ScanState) : Prop where
  fetched : ∀ status ∈ s.fetched, status.phase = .pending ∨ status.phase = .discovering
  scanned : ∀ count, resumeCount s.status = some count → Scanned spec s.listings count
  accounted : ∀ count, resumeCount s.status = some count →
    FilesAccounted config spec s.units s.listings fun source _ => spec.sources[count]? = some source
  call : s.call.Sound config spec s.units s.status s.listings

variable {config spec} {s s' : ScanState} {units units' : Kv String WorkUnit} {listings : Listings}

namespace FilesAccounted

/-- Units are only added, and excuses may be widened. -/
theorem mono {excused excused' : String → String → Prop}
    (accounted : FilesAccounted config spec units listings excused)
    (kept : ∀ id, (units.get id).isSome → (units'.get id).isSome)
    (wider : ∀ source hash, excused source hash → (units'.get hash).isSome ∨ excused' source hash) :
    FilesAccounted config spec units' listings excused' := by
  intro source files file listed member
  rcases accounted source files file listed member with stored | excuse
  · exact .inl (kept _ stored)
  · exact wider _ _ excuse

end FilesAccounted

/-- The next count covers the source at the present one. -/
theorem Scanned.next (scanned : Scanned spec listings count)
    (here : spec.sources.drop count = source :: rest) (listed : (source, files) ∈ listings) :
    Scanned spec listings (count + 1) := by
  intro other member
  have first : spec.sources[count]? = some source := by
    rw [← List.head?_drop, here, List.head?_cons]
  rw [List.take_add_one, first, List.mem_append] at member
  rcases member with before | last
  · exact scanned other before
  · rw [Option.toList_some, List.mem_singleton] at last
    exact ⟨files, last ▸ listed⟩

/-- After a failed source the cycle lags behind its count for good. -/
theorem Cycling.skipped (cycling : Cycling spec units work added) (more : work.remaining ≠ []) :
    Cycling spec units work.skipped 0 := by
  obtain ⟨skipped, le, suffix⟩ := cycling.suffix
  have short : skipped < spec.sources.length := by
    by_contra beyond
    rw [suffix, List.drop_eq_nil_of_le (not_lt.mp beyond)] at more
    exact more rfl
  have tail : work.skipped.remaining = spec.sources.drop (skipped + 1) := by
    rw [Discovery.skipped, suffix, List.tail_drop]
  refine ⟨cycling.same, cycling.phase, ⟨skipped + 1, Nat.le_succ_of_le le, tail⟩, ?_, cycling.few,
    cycling.small⟩
  intro aligned
  have lengths := congrArg List.length (tail.symm.trans aligned)
  simp only [List.length_drop, Discovery.skipped] at lengths
  omega

/-- The count after a source, unless the status has none to increment. -/
theorem sourcesScanned_scanned {work : Discovery} (room : work.status.sourcesScanned + 1 < 2 ^ 32) :
    (work.scanned rest files jobs).status.sourcesScanned = work.status.sourcesScanned + 1 ∨
      (work.scanned rest files jobs).status.sourcesScanned = 0 ∧ work.status.sourcesScanned = 0 := by
  unfold BatchStatus.sourcesScanned at *
  cases found : work.status.discoveryStatus with
  | none => simp [Discovery.scanned, found]
  | some discovery =>
    rw [found] at room
    simp only [Option.map_some, Option.getD_some] at room
    refine .inl ?_
    simp only [Discovery.scanned, found, Option.map_some, Option.getD_some,
      DiscoveryStatus.incrementScanned, DiscoveryStatus.addFiles]
    rw [Nat.mod_eq_of_lt room]

theorem resumeCount_of_pending {status : BatchStatus} (current : s.current status = true)
    (pending : status.phase = .pending) : resumeCount s.status = some 0 := by
  unfold ScanState.current at current
  split at current
  · rename_i stored found
    have same : stored = status := of_decide_eq_true current
    simp [found, resumeCount, same, pending]
  · rename_i found
    rw [found, resumeCount]

theorem resumeCount_of_discovering {status : BatchStatus} (current : s.current status = true)
    (discovering : status.phase = .discovering) :
    resumeCount s.status = some status.sourcesScanned := by
  unfold ScanState.current at current
  split at current
  · rename_i stored found
    have same : stored = status := of_decide_eq_true current
    simp [found, resumeCount, same, discovering]
  · simp [discovering] at current

/-! ### Steps -/

theorem scan_fetch (inv : ScanInvariant config spec s)
    (moved : scanStep config spec s (.fetch now) = some (s', out)) : ScanInvariant config spec s' := by
  simp only [scanStep] at moved
  split at moved
  · split at moved
    · rename_i phase
      cases moved
      refine ⟨?_, inv.scanned, inv.accounted, inv.call⟩
      intro status member
      rcases List.mem_append.mp member with before | last
      · exact inv.fetched status before
      · rw [List.mem_singleton.mp last]
        exact phase
    · cases moved
      exact inv
  · cases moved

theorem scan_process (inv : ScanInvariant config spec s)
    (ordered : ScansInOrder config spec s (.process now) = true)
    (moved : scanStep config spec s (.process now) = some (s', out)) :
    ScanInvariant config spec s' := by
  simp only [scanStep] at moved
  split at moved
  · rename_i status rest idle fetched
    have phases := inv.fetched
    rw [fetched] at phases
    have later : ∀ other ∈ rest, other.phase = .pending ∨ other.phase = .discovering :=
      fun other member => phases other (List.mem_cons_of_mem _ member)
    simp only [ScansInOrder, fetched, List.head?_cons, Option.all_some, Bool.and_eq_true,
      decide_eq_true_eq, List.isEmpty_iff] at ordered
    obtain ⟨⟨few, none⟩, current⟩ := ordered
    have empty : s.units.entries.length = 0 := by rw [none, List.length_nil]
    split at moved
    · rename_i pending
      cases moved
      refine ⟨later, inv.scanned, inv.accounted,
        ⟨⟨rfl, rfl, ⟨0, le_rfl, rfl⟩, ?_, few, ?_⟩, rfl, ?_⟩⟩
      · intro _
        exact empty.symm
      · simp only [empty]
        decide
      · exact resumeCount_of_pending current pending
    · rename_i started
      cases moved
      have discovering : status.phase = .discovering :=
        (phases status List.mem_cons_self).resolve_left started
      refine ⟨later, inv.scanned, inv.accounted,
        ⟨⟨rfl, discovering, ⟨_, le_rfl, rfl⟩, ?_, few, ?_⟩, ?_⟩⟩
      · intro _
        exact empty.symm
      · simp only [empty]
        decide
      · exact resumeCount_of_discovering current discovering
  · cases moved

/-- The source at the head of the rest is the one the count points to. -/
theorem Cycling.here (cycling : Cycling spec units work added) (more : work.remaining ≠ [])
    (inOrder : work.remaining.length + work.status.sourcesScanned = spec.sources.length) :
    work.remaining = spec.sources.drop work.status.sourcesScanned := by
  obtain ⟨skipped, le, suffix⟩ := cycling.suffix
  have some : 0 < work.remaining.length := List.length_pos_iff.mpr more
  have length : work.remaining.length = spec.sources.length - skipped := by
    rw [suffix, List.length_drop]
  have same : skipped = work.status.sourcesScanned := by omega
  rw [suffix, same]

theorem scan_list (inv : ScanInvariant config spec s)
    (ordered : ScansInOrder config spec s (.list answer) = true)
    (moved : scanStep config spec s (.list answer) = some (s', out)) :
    ScanInvariant config spec s' := by
  simp only [scanStep] at moved
  split at moved
  · rename_i work scanning
    have sound := inv.call
    rw [scanning] at sound
    obtain ⟨cycling, position⟩ := sound
    split at moved
    · cases moved
    · rename_i more
      cases moved
      exact ⟨inv.fetched, inv.scanned, inv.accounted,
        ⟨cycling.skipped (by rw [more]; simp), position⟩⟩
    · rename_i source rest files more
      cases moved
      simp only [ScansInOrder, scanning, Bool.and_eq_true, decide_eq_true_eq] at ordered
      obtain ⟨⟨⟨inOrder, distinct⟩, small⟩, repeated⟩ := ordered
      have here := cycling.here (by rw [more]; simp) inOrder
      have next : spec.sources[work.status.sourcesScanned]? = some source := by
        rw [← List.head?_drop, ← here, more, List.head?_cons]
      refine ⟨inv.fetched, ?_, ?_, ⟨cycling, ⟨position, here, ?_, ?_, ?_, ?_⟩⟩⟩
      · intro count resumes other member
        obtain ⟨found, listed⟩ := inv.scanned count resumes other member
        exact ⟨found, List.mem_cons_of_mem _ listed⟩
      · intro count resumes other found file listed member
        rcases List.mem_cons.mp listed with latest | earlier
        · cases latest
          rw [position, Option.some.injEq] at resumes
          exact .inr (resumes ▸ next)
        · exact inv.accounted count resumes other found file earlier member
      · exact ⟨source, rest, files, more, List.mem_cons_self⟩
      · rw [List.map_map]
        exact distinct
      · rw [List.length_map]
        exact small
      · intro other found file listed member
        rw [List.map_map]
        rcases List.mem_cons.mp listed with latest | earlier
        · cases latest
          exact .inr (List.mem_map_of_mem member)
        · rcases inv.accounted _ position other found file earlier member with stored | at_next
          · exact .inl stored
          · have again := List.all_eq_true.mp repeated _ earlier
            have same : other = source := Option.some.inj (at_next.symm.trans next)
            simp only [more, List.head?_cons, same, decide_true, Bool.not_true, Bool.false_or,
              List.all_eq_true, Bool.or_eq_true, List.contains_iff_mem] at again
            exact (again file member).imp_right List.mem_map_of_mem
  · cases moved

theorem scan_check (inv : ScanInvariant config spec s)
    (moved : scanStep config spec s .check = some (s', out)) : ScanInvariant config spec s' := by
  simp only [scanStep] at moved
  split at moved
  · rename_i work source files checking
    have sound := inv.call
    rw [checking] at sound
    obtain ⟨cycling, atSource⟩ := sound
    cases moved
    refine ⟨inv.fetched, inv.scanned, inv.accounted, ⟨cycling, ⟨atSource.position, atSource.here,
      atSource.listed, ?_, ?_, ?_⟩, ?_⟩⟩
    · exact atSource.distinct.sublist ((List.filter_sublist).map _)
    · exact lt_of_le_of_lt (Nat.add_le_add_left (List.length_filter_le _ _) _) atSource.small
    · refine atSource.accounted.mono (fun _ stored => stored) ?_
      intro _ hash member
      obtain ⟨file, inFiles, rfl⟩ := List.mem_map.mp member
      cases found : s.units.get file.2 with
      | none => exact .inr (List.mem_map_of_mem (List.mem_filter.mpr ⟨inFiles, by simp [found]⟩))
      | some unit => exact .inl rfl
    · intro file member
      simpa using (List.mem_filter.mp member).2
  · cases moved

/-- A source whose files all have units is behind the cycle. -/
theorem AtSource.done (cycling : Cycling spec units work added)
    (atSource : AtSource config spec units stored listings work [])
    (scanned : Scanned spec listings work.status.sourcesScanned) (files : Nat) :
    let next := work.scanned work.remaining.tail files added
    Cycling spec units next 0 ∧ Scanned spec listings next.status.sourcesScanned ∧
      FilesAccounted config spec units listings fun _ _ => False := by
  intro next
  obtain ⟨source, rest, found, more, listed⟩ := atSource.listed
  have here := atSource.here
  have short : work.status.sourcesScanned < spec.sources.length := by
    by_contra beyond
    rw [here, List.drop_eq_nil_of_le (not_lt.mp beyond)] at more
    cases more
  have tail : next.remaining = spec.sources.drop (work.status.sourcesScanned + 1) := by
    show work.remaining.tail = _
    rw [here, List.tail_drop]
  have jobs : next.jobsCreated = units.entries.length := cycling.created here
  have few := cycling.few
  have counted : next.status.sourcesScanned = work.status.sourcesScanned + 1 ∨
      next.status.sourcesScanned = 0 ∧ work.status.sourcesScanned = 0 :=
    sourcesScanned_scanned (by omega)
  refine ⟨⟨cycling.same, cycling.phase, ⟨_, ?_, tail⟩, fun _ => jobs, few, cycling.small⟩, ?_, ?_⟩
  · rcases counted with incremented | ⟨zero, _⟩ <;> omega
  · rcases counted with incremented | ⟨zero, _⟩
    · rw [incremented]
      exact scanned.next (here.symm.trans more) listed
    · rw [zero]
      intro other member
      simp at member
  · exact atSource.accounted.mono (fun _ stored => stored) (by simp)

/-- One chunk of new units, under the hashes of the first files still to be written. -/
theorem AtSource.write (cycling : Cycling spec units work created)
    (atSource : AtSource config spec units stored listings work files)
    (fresh : ∀ file ∈ files, units.get file.2 = none) (size : Nat) {pairs : List (String × WorkUnit)}
    (named : pairs.map Prod.fst = (files.take size).map Prod.snd) :
    Cycling spec (units.putAll pairs) work (created + (files.take size).length) ∧
      AtSource config spec (units.putAll pairs) stored listings work (files.drop size) ∧
      ∀ file ∈ files.drop size, (units.putAll pairs).get file.2 = none := by
  have split : (files.take size).map Prod.snd ++ (files.drop size).map Prod.snd =
      files.map Prod.snd := by
    rw [← List.map_append, List.take_append_drop]
  have distinct := atSource.distinct
  rw [← split, List.nodup_append] at distinct
  obtain ⟨distinctChunk, distinctRest, apart⟩ := distinct
  have new : ∀ pair ∈ pairs, units.get pair.1 = none := by
    intro pair member
    have key : pair.1 ∈ (files.take size).map Prod.snd := named ▸ List.mem_map_of_mem member
    obtain ⟨file, inChunk, same⟩ := List.mem_map.mp key
    rw [← same]
    exact fresh file (List.mem_of_mem_take inChunk)
  have length : (units.putAll pairs).entries.length =
      units.entries.length + (files.take size).length := by
    rw [Kv.length_putAll new (by rw [named]; exact distinctChunk)]
    have same := congrArg List.length named
    simpa using same
  have small := atSource.small
  have lengths : (files.take size).length + (files.drop size).length = files.length := by
    rw [← List.length_append, List.take_append_drop]
  refine ⟨⟨cycling.same, cycling.phase, cycling.suffix, ?_, cycling.few, by omega⟩,
    ⟨atSource.position, atSource.here, atSource.listed, distinctRest, by omega, ?_⟩, ?_⟩
  · intro aligned
    have before := cycling.created aligned
    omega
  · refine atSource.accounted.mono (fun _ => Kv.isSome_putAll pairs) ?_
    intro _ hash member
    rw [← split, List.mem_append] at member
    rcases member with written | left
    · obtain ⟨unit, _, read⟩ := Kv.get_putAll_of_mem units (named ▸ written)
      exact .inl (by rw [read, Option.isSome_some])
    · exact .inr left
  · intro file member
    rw [Kv.get_putAll_of_notMem]
    · exact fresh file (List.mem_of_mem_drop member)
    · rw [named]
      intro written
      exact apart _ written _ (List.mem_map_of_mem member) rfl

theorem scan_createChunk (inv : ScanInvariant config spec s)
    (moved : scanStep config spec s (.createChunk now) = some (s', out)) :
    ScanInvariant config spec s' := by
  simp only [scanStep] at moved
  split at moved
  · rename_i work files creation creating
    have sound := inv.call
    rw [creating] at sound
    obtain ⟨cycling, atSource, fresh⟩ := sound
    split at moved
    · rename_i written
      cases moved
      rw [written] at atSource
      exact ⟨inv.fetched, inv.scanned, inv.accounted,
        atSource.done cycling (inv.scanned _ atSource.position) files⟩
    · split at moved
      · cases moved
      · cases moved
        refine ⟨inv.fetched, inv.scanned, ?_, atSource.write cycling fresh _ ?_⟩
        · intro count resumes
          exact (inv.accounted count resumes).mono (fun _ => Kv.isSome_putAll _) (fun _ _ => .inr)
        · rw [newUnits, List.map_map]
          rfl
  · cases moved

theorem scan_failSource (inv : ScanInvariant config spec s)
    (moved : scanStep config spec s .failSource = some (s', out)) : ScanInvariant config spec s' := by
  have skip : ∀ {work added files}, Cycling spec s.units work added →
      AtSource config spec s.units s.status s.listings work files →
      ScanInvariant config spec { s with call := .scanning work.skipped } := by
    intro work added files cycling atSource
    obtain ⟨source, rest, found, more, _⟩ := atSource.listed
    exact ⟨inv.fetched, inv.scanned, inv.accounted,
      ⟨cycling.skipped (by rw [more]; simp), atSource.position⟩⟩
  have sound := inv.call
  simp only [scanStep] at moved
  split at moved
  · rename_i checking
    rw [checking] at sound
    cases moved
    exact skip sound.1 sound.2
  · rename_i creating
    rw [creating] at sound
    cases moved
    exact skip sound.1 sound.2.1
  · cases moved

theorem scan_put (inv : ScanInvariant config spec s)
    (moved : scanStep config spec s .put = some (s', out)) : ScanInvariant config spec s' := by
  have sound := inv.call
  simp only [scanStep] at moved
  split at moved
  · rename_i work starting
    rw [starting] at sound
    obtain ⟨cycling, zero, position⟩ := sound
    cases moved
    have resumes : resumeCount (some work.status) = some work.status.sourcesScanned := by
      simp [resumeCount, cycling.phase]
    refine ⟨inv.fetched, ?_, ?_, ⟨cycling, resumes⟩⟩
    · intro count same
      rw [resumes, zero] at same
      exact inv.scanned count (position.trans same)
    · intro count same
      rw [resumes, zero] at same
      exact inv.accounted count (position.trans same)
  · rename_i work saving
    rw [saving] at sound
    obtain ⟨cycling, scanned, accounted⟩ := sound
    cases moved
    have resumes : resumeCount (some work.status) = some work.status.sourcesScanned := by
      simp [resumeCount, cycling.phase]
    refine ⟨inv.fetched, ?_, ?_, ⟨cycling, resumes⟩⟩
    · intro count same
      rw [resumes, Option.some.injEq] at same
      exact same ▸ scanned
    · intro count _
      exact accounted.mono (fun _ stored => stored) (by simp)
  · rename_i status concluding
    rw [concluding] at sound
    cases moved
    have ended : resumeCount (some status) = none := by
      rcases sound.1 with phase | phase <;> simp [resumeCount, phase]
    exact ⟨inv.fetched, by simp [ended], by simp [ended], trivial⟩
  · cases moved

/-- A cycle that has passed every source without a failure covers them. -/
theorem covered_of_finalize (cycling : Cycling spec units work 0) (ended : work.remaining = [])
    (scanned : Scanned spec listings work.status.sourcesScanned)
    (accounted : FilesAccounted config spec units listings fun source _ =>
      spec.sources[work.status.sourcesScanned]? = some source)
    (final : work.finalize now = some status) (running : status.phase = .running) :
    SourcesCovered config spec units listings status := by
  simp only [Discovery.finalize, cycling.same, Nat.mod_eq_of_lt cycling.few] at final
  split at final
  · cases final
  · rename_i reached
    have all : spec.sources.length ≤ work.status.sourcesScanned := not_lt.mp reached
    split at final
    · cases final
      cases running
    · cases final
      refine ⟨?_, ?_, ?_⟩
      · intro source member
        exact scanned source (by rwa [List.take_of_length_le all])
      · intro source files file listed member
        refine (accounted source files file listed member).resolve_right ?_
        rw [List.getElem?_eq_none all]
        simp
      · have created := cycling.created (by rw [ended, List.drop_eq_nil_of_le all])
        show work.jobsCreated % 2 ^ 32 = _
        rw [Nat.mod_eq_of_lt (by have := cycling.small; omega)]
        exact created

theorem scan_finish (inv : ScanInvariant config spec s)
    (moved : scanStep config spec s (.finish now) = some (s', out)) :
    ScanInvariant config spec s' := by
  have sound := inv.call
  simp only [scanStep] at moved
  split at moved
  · rename_i work scanning
    rw [scanning] at sound
    obtain ⟨cycling, position⟩ := sound
    split at moved
    · rename_i ended
      split at moved
      · cases moved
        exact ⟨inv.fetched, inv.scanned, inv.accounted, trivial⟩
      · rename_i status final
        cases moved
        refine ⟨inv.fetched, inv.scanned, inv.accounted, finalize_phase final, ?_⟩
        exact covered_of_finalize cycling ended (inv.scanned _ position)
          (inv.accounted _ position) final
    · cases moved
  · cases moved

/-- The same units are stored, under changed records. -/
structure SameUnits (units units' : Kv String WorkUnit) : Prop where
  length : units'.entries.length = units.entries.length
  keys : ∀ id, (units'.get id).isSome = (units.get id).isSome

namespace SameUnits

variable (same : SameUnits units units')
include same

theorem accounted (accounted : FilesAccounted config spec units listings excused) :
    FilesAccounted config spec units' listings excused :=
  accounted.mono (fun id stored => (same.keys id).trans stored) (fun _ _ => .inr)

theorem cycling (cycling : Cycling spec units work added) : Cycling spec units' work added := by
  refine ⟨cycling.same, cycling.phase, cycling.suffix, ?_, cycling.few, ?_⟩
  · rw [same.length]
    exact cycling.created
  · rw [same.length]
    exact cycling.small

theorem atSource (atSource : AtSource config spec units stored listings work files) :
    AtSource config spec units' stored listings work files := by
  refine ⟨atSource.position, atSource.here, atSource.listed, atSource.distinct, ?_,
    same.accounted atSource.accounted⟩
  rw [same.length]
  exact atSource.small

theorem sound (sound : ScanCall.Sound config spec units stored listings call) :
    ScanCall.Sound config spec units' stored listings call := by
  cases call with
  | idle => trivial
  | starting work => exact ⟨same.cycling sound.1, sound.2⟩
  | scanning work => exact ⟨same.cycling sound.1, sound.2⟩
  | checking work source files => exact ⟨same.cycling sound.1, same.atSource sound.2⟩
  | creating work files creation =>
    obtain ⟨cycling, atSource, fresh⟩ := sound
    refine ⟨same.cycling cycling, same.atSource atSource, ?_⟩
    intro file member
    rw [← Option.isSome_eq_false_iff.trans Option.isNone_iff_eq_none, same.keys, fresh file member]
    rfl
  | saving work => exact ⟨same.cycling sound.1, sound.2.1, same.accounted sound.2.2⟩
  | concluding status =>
    refine ⟨sound.1, fun running => ?_⟩
    have covered := sound.2 running
    refine ⟨covered.sources, ?_, covered.total.trans same.length.symm⟩
    intro source files file listed member
    exact (same.keys _).trans (covered.files source files file listed member)

end SameUnits

theorem scan_work (inv : ScanInvariant config spec s)
    (moved : scanStep config spec s (.work unitId unit) = some (s', out)) :
    ScanInvariant config spec s' := by
  simp only [scanStep] at moved
  split at moved
  · cases moved
  · rename_i old stored
    cases moved
    have same : SameUnits s.units (s.units.put unitId unit) := by
      refine ⟨by rw [Kv.length_put, stored]; rfl, fun id => ?_⟩
      rw [Kv.get_put]
      split
      · rename_i here
        rw [here, stored]
        rfl
      · rfl
    exact ⟨inv.fetched, inv.scanned, fun count resumes => same.accounted (inv.accounted count resumes),
      same.sound inv.call⟩

/-- Every step in order keeps the invariant. -/
theorem scan_step (inv : ScanInvariant config spec s)
    (ordered : ScansInOrder config spec s action = true)
    (moved : scanStep config spec s action = some (s', out)) : ScanInvariant config spec s' := by
  cases action with
  | fetch now => exact scan_fetch inv moved
  | process now => exact scan_process inv ordered moved
  | list answer => exact scan_list inv ordered moved
  | check => exact scan_check inv moved
  | createChunk now => exact scan_createChunk inv moved
  | failSource => exact scan_failSource inv moved
  | put => exact scan_put inv moved
  | finish now => exact scan_finish inv moved
  | abort =>
    cases moved
    exact ⟨inv.fetched, inv.scanned, inv.accounted, trivial⟩
  | restart =>
    cases moved
    exact ⟨by simp, inv.scanned, inv.accounted, trivial⟩
  | work unitId unit => exact scan_work inv moved

/-- Only the last put of a cycle concludes it. -/
theorem covered_of_concluded (inv : ScanInvariant config spec s)
    (moved : scanStep config spec s action = some (s', .concluded status))
    (running : status.phase = .running) : SourcesCovered config spec s'.units s'.listings status := by
  cases action <;> simp only [scanStep] at moved <;> repeat' split at moved
  all_goals cases moved
  rename_i concluding
  have sound := inv.call
  rw [concluding] at sound
  exact sound.2 running

/-- A batch no cycle has scanned. -/
structure Unscanned (s : ScanState) : Prop where
  idle : s.call = .idle
  unfetched : s.fetched = []
  unlisted : s.listings = []
  count : ∀ count, resumeCount s.status = some count → count = 0

/-- In every run whose cycles scan in order, the scanner moves the batch to `Running`
only when it is covered. -/
theorem scanner_covers (unscanned : Unscanned start)
    (run : Run ((scanner config spec).under (fun s action => ScansInOrder config spec s action)) start
      history s) : CoversRuns config spec history := by
  have initial : ScanInvariant config spec start := by
    refine ⟨by simp [unscanned.unfetched], ?_, ?_, by rw [unscanned.idle]; trivial⟩
    · intro count resumes source member
      rw [unscanned.count count resumes] at member
      simp at member
    · intro count _ source files file listed
      simp [unscanned.unlisted] at listed
  intro e recorded status concluded running
  obtain ⟨older, before, moved⟩ := run.recorded recorded
  have inv : ScanInvariant config spec e.pre := by
    refine before.invariant initial ?_
    intro s action s' out inv moved
    obtain ⟨ordered, moved⟩ := (Machine.under_step _ _).mp moved
    exact scan_step inv ordered moved
  obtain ⟨_, moved⟩ := (Machine.under_step _ _).mp moved
  rw [concluded] at moved
  exact covered_of_concluded inv moved running

/-- The phase a step moves the batch to. -/
def ScanOut.concludes : ScanOut → Option BatchPhase
  | .concluded status => some status.phase
  | .quiet => none

theorem concluded_of_concludes {out : ScanOut} (concludes : out.concludes = some phase) :
    ∃ status, out = .concluded status ∧ status.phase = phase := by
  cases out with
  | quiet => cases concludes
  | concluded status => exact ⟨status, rfl, Option.some.inj concludes⟩

/-- Two sources with one file each. -/
def twoSources : BatchSpec := ⟨"jobs", "b", ["s3://a/", "s3://b/"], "s3://out/", "cfg", 3⟩

/-- The hashes of the two files below. -/
def twoFiles : ScannerConfig where
  batchSize := 100
  fileHash file _ := if file.path = "1.mcap" then "62a96ce6e5cf65dd" else "db66017d2c63c014"

/-- The scanner restarts in the first source, fails on both in the next cycle, and
then lists both. -/
theorem restarted_scanner_covers : ∃ history s,
    Run ((scanner twoFiles twoSources).under
        (fun s action => ScansInOrder twoFiles twoSources s action)) (.submitted 0) history s ∧
      CoversRuns twoFiles twoSources history ∧
      s.status.map (fun status => (status.phase, status.workUnitsTotal)) = some (.running, 2) := by
  obtain ⟨history, s, run, seen⟩ := Run.of_observation
    ((scanner twoFiles twoSources).under (fun s action => ScansInOrder twoFiles twoSources s action))
    (.submitted 0)
    [.fetch 0, .process 0, .put, .list (some [⟨"1.mcap", 10⟩]), .check, .restart,
      .fetch 1, .process 1, .list none, .list none, .finish 1,
      .fetch 2, .process 2, .list (some [⟨"1.mcap", 10⟩]), .check, .createChunk 2, .createChunk 2,
      .put, .list (some [⟨"2.mcap", 20⟩]), .check, .createChunk 2, .createChunk 2, .put, .finish 2,
      .put]
    (fun reached => reached.2.status.map fun status => (status.phase, status.workUnitsTotal))
    (some (.running, 2)) (by decide)
  have unscanned : Unscanned (.submitted 0) := by
    refine ⟨rfl, rfl, rfl, ?_⟩
    intro count resumes
    exact (Option.some.inj resumes).symm
  exact ⟨history, s, run, scanner_covers unscanned run, seen⟩

/-- The first source fails and the second is listed. The next cycle skips one source
and lists the second again, and the batch runs without the first and with no units. -/
theorem failed_source_is_never_listed :
    ¬ ∀ history s, Run (scanner twoFiles twoSources) (.submitted 0) history s →
      CoversRuns twoFiles twoSources history := by
  intro covers
  obtain ⟨history, s, run, seen⟩ := Run.of_observation (scanner twoFiles twoSources) (.submitted 0)
    [.fetch 0, .process 0, .put, .list none, .list (some [⟨"2.mcap", 20⟩]), .check, .createChunk 0,
      .createChunk 0, .put, .finish 0,
      .fetch 1, .process 1, .list (some [⟨"2.mcap", 20⟩]), .check, .createChunk 1, .put, .finish 1,
      .put]
    (fun reached => reached.1.head?.map fun e => (e.out.concludes, e.post.listings.map Prod.fst))
    (some (some .running, ["s3://b/", "s3://b/"])) (by decide)
  cases history with
  | nil => simp at seen
  | cons e older =>
    simp only [List.head?_cons, Option.map_some, Option.some.injEq, Prod.mk.injEq] at seen
    obtain ⟨concludes, listed⟩ := seen
    obtain ⟨status, concluded, running⟩ := concluded_of_concludes concludes
    have covered := covers _ _ run e List.mem_cons_self status concluded running
    obtain ⟨files, missing⟩ := covered.sources "s3://a/" (by decide)
    have named := List.mem_map_of_mem (f := Prod.fst) missing
    rw [listed] at named
    simp at named

end Roboflow.Batch
