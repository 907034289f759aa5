import Roboflow.Library.Machine
import Roboflow.Merge.MergeState

/-! `register_staging_complete` of `merge/coordinator.rs`, called by any workers in
any order. A call gets the merge record, adds its worker and puts the record back,
so a record put in between is lost, and a worker that reports again is added to the
frame total once more. -/
namespace Roboflow.Merge
open Library

/-- The arguments of a call. -/
structure StagingReport where
  jobId : String
  workerId : String
  stagingPath : String
  frameCount : Nat

/-- Where a task is between the get and the put. -/
inductive StagingCall where
  | idle
  /-- Before the put, with what the get returned and the time it was at. -/
  | registering (report : StagingReport) (found : Option MergeState) (now : Time)

structure StagingState where
  mergeStates : Kv String MergeState
  tasks : Nat → StagingCall

inductive StagingAction where
  | registerGet (task : Nat) (report : StagingReport) (now : Time)
  | registerPut (task : Nat)

/-- The record a call puts. -/
def StagingReport.record (report : StagingReport) (found : Option MergeState) (now : Time) : MergeState :=
  (found.getD (.new report.jobId 1 "" now)).addWorker report.workerId report.stagingPath
    report.frameCount now

/-- The output of a put is the report it completes. -/
def stagingStep (s : StagingState) : StagingAction → Option (StagingState × Option StagingReport)
  | .registerGet task report now =>
    match s.tasks task with
    | .idle =>
      some ({ s with
        tasks := Function.update s.tasks task
          (.registering report (s.mergeStates.get report.jobId) now) }, none)
    | _ => none
  | .registerPut task =>
    match s.tasks task with
    | .registering report found now =>
      some ({ mergeStates := s.mergeStates.put report.jobId (report.record found now)
              tasks := Function.update s.tasks task .idle }, some report)
    | _ => none

def staging : Machine StagingState StagingAction (Option StagingReport) := ⟨stagingStep⟩

def StagingState.initial : StagingState := ⟨.empty, fun _ => .idle⟩

abbrev StagingHistory := History StagingState StagingAction (Option StagingReport)

/-- Path and frame count each worker reported last, by the calls completed so far. -/
def latest (jobId : String) : StagingHistory → Kv String (String × Nat)
  | [] => .empty
  | e :: older =>
    match e.out with
    | some report =>
      if report.jobId = jobId then
        (latest jobId older).put report.workerId (report.stagingPath, report.frameCount)
      else latest jobId older
    | none => latest jobId older

/-- The latest reports of a job, and nothing else, are in its record. -/
structure Accounts (reports : Kv String (String × Nat)) (state : MergeState) : Prop where
  paths : state.stagingPaths = reports.map Prod.fst
  workers : state.completedWorkers = reports.entries.length
  frames : state.totalFrames = (reports.entries.map fun entry => entry.2.2).sum

/-- Every job has the record its completed reports call for. -/
def Accounted (history : StagingHistory) (s : StagingState) : Prop :=
  ∀ jobId,
    match s.mergeStates.get jobId with
    | none => latest jobId history = .empty
    | some state => Accounts (latest jobId history) state

/-- A put that finds the record as its call read it, for a worker whose frames are
not counted yet, and whose frames fit into the total. -/
def addsOnce (older : StagingHistory) (s : StagingState) : StagingAction → Bool
  | .registerPut task =>
    match s.tasks task with
    | .registering report found _ =>
      s.mergeStates.get report.jobId = found &&
        (((latest report.jobId older).get report.workerId).map Prod.snd).getD 0 = 0 &&
        (found.map (·.totalFrames)).getD 0 + report.frameCount < 2 ^ 64
    | .idle => true
  | .registerGet .. => true

/-- All steps of a history meet the condition. -/
def AddsOnce : StagingHistory → Prop
  | [] => True
  | e :: older => addsOnce older e.pre e.act = true ∧ AddsOnce older

instance decidableAddsOnce : (history : StagingHistory) → Decidable (AddsOnce history)
  | [] => isTrue trivial
  | _ :: older => @instDecidableAnd _ _ _ (decidableAddsOnce older)

/-! ### One report -/

theorem accounts_new (jobId : String) (now : Time) : Accounts .empty (.new jobId 1 "" now) :=
  ⟨rfl, rfl, rfl⟩

/-- A report not counted yet is added to what the record accounts for. -/
theorem Accounts.addWorker (accounts : Accounts reports state)
    (uncounted : ((reports.get workerId).map Prod.snd).getD 0 = 0)
    (fits : state.totalFrames + frameCount < 2 ^ 64) (now : Time) :
    Accounts (reports.put workerId (stagingPath, frameCount))
      (state.addWorker workerId stagingPath frameCount now) := by
  have paths : (state.addWorker workerId stagingPath frameCount now).stagingPaths =
      (reports.put workerId (stagingPath, frameCount)).map Prod.fst := by
    rw [Kv.map_put, ← accounts.paths]
    rfl
  have sum := reports.sum_put Prod.snd workerId (stagingPath, frameCount)
  refine ⟨paths, ?_, ?_⟩
  · have counted : (state.addWorker workerId stagingPath frameCount now).completedWorkers =
        (state.addWorker workerId stagingPath frameCount now).stagingPaths.entries.length := rfl
    rw [counted, paths]
    exact List.length_map _
  · change (state.totalFrames + frameCount) % 2 ^ 64 = _
    rw [Nat.mod_eq_of_lt fits, accounts.frames]
    omega

/-! ### Every interleaving -/

theorem accounted_registerPut (accounted : Accounted history s)
    (call : s.tasks task = .registering report found now)
    (once : addsOnce history s (.registerPut task) = true) :
    Accounted (⟨s, .registerPut task, some report, s'⟩ :: history)
      ⟨s.mergeStates.put report.jobId (report.record found now), Function.update s.tasks task .idle⟩ := by
  simp only [addsOnce, call, Bool.and_eq_true, decide_eq_true_eq] at once
  obtain ⟨⟨unchanged, uncounted⟩, fits⟩ := once
  intro jobId
  have before := accounted jobId
  simp only [latest, Kv.get_put]
  by_cases here : jobId = report.jobId
  · subst here
    rw [unchanged] at before
    simp only [if_true]
    cases found with
    | none =>
      simp only at before
      rw [before] at uncounted ⊢
      exact (accounts_new report.jobId now).addWorker uncounted fits now
    | some state => exact before.addWorker uncounted fits now
  · simp only [if_neg here, if_neg (Ne.symm here)]
    exact before

/-- In every interleaving all of whose puts add their report once, the stored
record has each worker's latest path, counts the workers and sums up their frames. -/
theorem staging_accounted (history : StagingHistory) (s : StagingState)
    (run : Run staging .initial history s) (once : AddsOnce history) : Accounted history s := by
  induction run with
  | start => exact fun _ => rfl
  | @next history s action s' out before moved ih =>
    obtain ⟨step, older⟩ := once
    have accounted := ih older
    cases action with
    | registerGet task report now =>
      simp only [staging, stagingStep] at moved
      split at moved
      · cases moved
        exact accounted
      · cases moved
    | registerPut task =>
      simp only [staging, stagingStep] at moved
      split at moved
      · rename_i report found now call
        cases moved
        exact accounted_registerPut accounted call step
      · cases moved

def stagingReport (worker path : String) (frames : Nat) : StagingReport := ⟨"jobs:b", worker, path, frames⟩

theorem staging_accounted_in_turn :
    ∃ history s, Run staging .initial history s ∧ AddsOnce history ∧ Accounted history s ∧
      (s.mergeStates.get "jobs:b").map (fun state => (state.completedWorkers, state.totalFrames)) =
        some (2, 30) := by
  obtain ⟨history, s, run, seen⟩ := Run.of_observation staging .initial
    [.registerGet 0 (stagingReport "w1" "s3://a" 10) 0, .registerPut 0,
      .registerGet 1 (stagingReport "w2" "s3://b" 20) 1, .registerPut 1]
    (fun reached => (decide (AddsOnce reached.1), (reached.2.mergeStates.get "jobs:b").map
      fun state => (state.completedWorkers, state.totalFrames)))
    (true, some (2, 30)) (by decide)
  simp only [Prod.mk.injEq, decide_eq_true_eq] at seen
  exact ⟨history, s, run, seen.1, staging_accounted history s run seen.1, seen.2⟩

/-- Two workers register at once and one report is lost; the other worker reports
its ten frames again and is counted twice. -/
theorem staging_lost_and_double_counted :
    ∃ history s, Run staging .initial history s ∧
      (latest "jobs:b" history).entries.map (fun entry => (entry.1, entry.2.2)) =
        [("w1", 10), ("w2", 20)] ∧
      (s.mergeStates.get "jobs:b").map (fun state =>
        (state.stagingPaths.entries, state.totalFrames)) = some ([("w1", "s3://a")], 20) ∧
      ¬Accounted history s := by
  obtain ⟨history, s, run, seen⟩ := Run.of_observation staging .initial
    [.registerGet 0 (stagingReport "w1" "s3://a" 10) 0, .registerGet 1 (stagingReport "w2" "s3://b" 20) 0,
      .registerPut 1, .registerPut 0,
      .registerGet 0 (stagingReport "w1" "s3://a" 10) 1, .registerPut 0]
    (fun reached => ((latest "jobs:b" reached.1).entries.map (fun entry => (entry.1, entry.2.2)),
      (reached.2.mergeStates.get "jobs:b").map fun state =>
        (state.stagingPaths.entries, state.totalFrames)))
    ([("w1", 10), ("w2", 20)], some ([("w1", "s3://a")], 20)) (by decide)
  simp only [Prod.mk.injEq] at seen
  obtain ⟨reports, stored⟩ := seen
  refine ⟨history, s, run, reports, stored, fun accounted => ?_⟩
  have job := accounted "jobs:b"
  obtain ⟨state, present, values⟩ := Option.map_eq_some_iff.mp stored
  rw [present] at job
  simp only [Prod.mk.injEq] at values
  have reported : (latest "jobs:b" history).entries.length = 2 := by
    simpa using congrArg List.length reports
  have lengths := congrArg (fun paths => paths.entries.length) job.paths
  simp only [values.1, Kv.map, List.length_map, reported] at lengths
  cases lengths

end Roboflow.Merge
