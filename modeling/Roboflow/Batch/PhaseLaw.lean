import Roboflow.Batch.ClusterMoves

/-! The phase law of a batch. Five components write a batch's status from a copy
they read before, and `transition_to` does not consult the transition table. The
law is kept as long as no put replaces a phase its writer did not count on. -/
namespace Roboflow.Batch
open Library Merge

/-- The table, and the recovery of a failed batch that `reconcile_running` documents. -/
def BatchPhase.mayBecome (before after : BatchPhase) : Bool :=
  before.canTransitionTo after || (before = .failed && after = .running)

/-- A step under which every stored phase changes lawfully, final ones not at all. -/
def LawfulPhase (e : Transition Cluster ClusterAction ClusterOut) : Prop :=
  ∀ batchId before, e.pre.statuses.get batchId = some before →
    ∃ after, e.post.statuses.get batchId = some after ∧
      before.phase.mayBecome after.phase = true ∧
      (before.phase = .complete ∨ before.phase = .cancelled → after.phase = before.phase)

/-- What a writer needs of the phase it replaces: the phase it read, for those that
decide by it, and for the others one that may still end the way they end it. -/
def Writer.mayReplace (writer : Writer) (stored seen : Option BatchPhase) : Bool :=
  match writer with
  | .reconcile | .scanner | .claimMerge => stored = seen
  | .cancel => stored = seen && seen ≠ some .merging
  | .completeMerge | .markComplete => stored.all fun phase => phase = .merging || phase = .complete
  | .failMerge | .markFailed => stored.all fun phase => phase ≠ .complete && phase ≠ .cancelled

/-- Every put finds a phase its writer may replace, and no rollback deletes a status. -/
def WritesInTurn (s : Cluster) : ClusterAction → Bool
  | .put task =>
    match s.tasks task with
    | .writing writer batchId seen _ _ =>
      writer.mayReplace ((s.statuses.get batchId).map (·.phase)) seen
    | _ => true
  | .rollback task =>
    match s.tasks task with
    | .rollingBack claim => (s.statuses.get claim.batchId).isNone
    | _ => true
  | _ => true

/-! ### What a call still has to write -/

/-- The phases a writer writes, given the phase it read. -/
def Writer.Writes (writer : Writer) (seen : Option BatchPhase) (phase : BatchPhase) : Prop :=
  match writer with
  | .reconcile | .scanner | .claimMerge => ∀ read ∈ seen, read.mayBecome phase = true
  | .cancel => phase = .cancelled ∧ ∀ read ∈ seen, read.isActive = true ∨ read = .pending
  | .completeMerge | .markComplete => phase = .complete
  | .failMerge | .markFailed => phase = .failed

/-- The copies a call carries are the ones its writers may make. -/
def BatchCall.Lawful : BatchCall → Prop
  | .scanning _ status => status.phase = .running ∨ status.phase = .failed
  | .discovering work => work.status.phase = .discovering
  | .writing writer _ seen status next => writer.Writes seen status.phase ∧ next.Lawful
  | .indexing _ _ _ next | .unindexing _ _ next => next.Lawful
  | _ => True

theorem mayBecome_self (phase : BatchPhase) : phase.mayBecome phase = true := by
  simp [BatchPhase.mayBecome, BatchPhase.canTransitionTo]

/-- Nothing follows `Complete` or `Cancelled`. -/
theorem final_of_mayBecome {before after : BatchPhase} (lawful : before.mayBecome after = true)
    (final : before = .complete ∨ before = .cancelled) : after = before := by
  rcases final with rfl | rfl <;> revert lawful <;> cases after <;> decide

/-- A write in turn changes the phase lawfully. -/
theorem mayBecome_of_replace {writer : Writer} (writes : writer.Writes seen written)
    (turn : writer.mayReplace (some stored) seen = true) : stored.mayBecome written = true := by
  cases writer with
  | reconcile | scanner | claimMerge =>
    exact writes stored (by simpa [Writer.mayReplace, eq_comm] using turn)
  | cancel =>
    simp only [Writer.mayReplace, Bool.and_eq_true, decide_eq_true_eq] at turn
    obtain ⟨rfl, unmerged⟩ := turn
    obtain ⟨rfl, active⟩ := writes
    have live := active stored rfl
    revert live unmerged
    cases stored <;> decide
  | completeMerge | markComplete =>
    subst writes
    simp only [Writer.mayReplace, Option.all_some, Bool.or_eq_true, decide_eq_true_eq] at turn
    rcases turn with rfl | rfl <;> decide
  | failMerge | markFailed =>
    subst writes
    simp only [Writer.mayReplace, Option.all_some] at turn
    revert turn
    cases stored <;> decide

@[simp] theorem indexed_lawful : (indexed batchId old target next).Lawful ↔ next.Lawful := by
  unfold indexed
  split <;> rfl

@[simp] theorem saving_lawful :
    (saving writer batchId seen old status).Lawful ↔ writer.Writes seen status.phase := by
  simp [saving, BatchCall.Lawful]

theorem reconcilePhase_lawful (timeout : Nat) (spec : BatchSpec) (status : BatchStatus) (now : Time) :
    status.phase.mayBecome (reconcilePhase timeout spec status now).phase = true := by
  rcases reconcilePhase_phase timeout spec status now with
    same | ⟨pending, starts⟩ | ⟨undiscovered, fails⟩
  · rw [same]
    exact mayBecome_self _
  · rw [pending, starts]
    decide
  · rw [fails]
    rcases undiscovered with phase | phase <;> rw [phase] <;> decide

theorem reconcileRunning_lawful {status : BatchStatus} (spec : BatchSpec) (units : List WorkUnit)
    (now : Time) (phase : status.phase = .running ∨ status.phase = .failed) :
    status.phase.mayBecome (reconcileRunning spec status units now).phase = true := by
  rcases reconcileRunning_phase spec status units now with same | fails | ⟨failed, recovers⟩
  · rw [same]
    exact mayBecome_self _
  · rw [fails]
    rcases phase with phase | phase <;> rw [phase] <;> decide
  · rw [failed, recovers]
    decide

/-- Every move hands on only lawful copies. -/
theorem lawful_of_moves (lawful : call.Lawful) (moved : Moves config s action call next out) :
    next.Lawful := by
  cases moved with
  | @reconciles found now status task spec _ current =>
    rw [saving_lawful]
    intro read seen
    obtain ⟨stored, rfl, rfl⟩ := Option.map_eq_some_iff.mp seen
    obtain rfl : stored = status := current
    exact reconcilePhase_lawful _ spec stored now
  | scans _ phase => exact phase
  | recounts =>
    rw [saving_lawful]
    rintro read ⟨⟩
    exact reconcileRunning_lawful _ _ _ lawful
  | cancels _ active =>
    rw [saving_lawful]
    refine ⟨rfl, ?_⟩
    rintro read ⟨⟩
    exact active
  | @discovers found now status task spec _ current pending =>
    refine ⟨?_, rfl⟩
    intro read seen
    obtain ⟨stored, rfl, rfl⟩ := Option.map_eq_some_iff.mp seen
    obtain rfl : stored = status := current
    rw [pending]
    rfl
  | resumes _ phase => exact phase
  | skips => exact lawful
  | saves =>
    refine ⟨?_, lawful⟩
    rintro read ⟨⟩
    exact mayBecome_self _
  | concludes final =>
    refine ⟨?_, trivial⟩
    rintro read ⟨⟩
    have discovering : _ = BatchPhase.discovering := lawful
    rw [discovering]
    rcases finalize_phase final with phase | phase <;> rw [phase] <;> rfl
  | indexes => exact lawful
  | unindexes => exact lawful
  | losesIndex => trivial
  | losesUnindex => trivial
  | begins => trivial
  | claims _ running _ =>
    refine ⟨?_, trivial⟩
    rintro read ⟨⟩
    rw [running]
    rfl
  | verifies => trivial
  | unready => trivial
  | refuses => trivial
  | prepares => trivial
  | executes => trivial
  | succeeds => trivial
  | breaks => trivial
  | completes => exact ⟨rfl, trivial⟩
  | fails => exact ⟨rfl, indexed_lawful.mpr trivial⟩
  | closes => trivial
  | marksComplete => exact saving_lawful.mpr rfl
  | marksFailed => exact saving_lawful.mpr rfl
  | ends => trivial

/-! ### Steps and runs -/

/-- Every copy of a status in flight is one its writer may make. -/
def LawfulCopies (s : Cluster) : Prop := ∀ task, (s.tasks task).Lawful

/-- The copies in flight stay lawful, in turn or not. -/
theorem LawfulCopies.step (lawful : LawfulCopies s) (moved : ClusterMove config s action out s') :
    LawfulCopies s' :=
  moved.calls trivial (fun _ _ _ _ _ held => held.2) (fun _ _ held step => lawful_of_moves held step)
    lawful

theorem lawfulPhase_of_same {e : Transition Cluster ClusterAction ClusterOut}
    (statuses : e.post.statuses = e.pre.statuses) : LawfulPhase e := by
  intro batchId before stored
  exact ⟨before, by rw [statuses]; exact stored, mayBecome_self _, fun _ => rfl⟩

/-- One step in turn, with lawful copies in flight, is lawful. -/
theorem lawfulPhase_of_move (lawful : LawfulCopies s)
    (turn : WritesInTurn s action = true) (moved : ClusterMove config s action out s') :
    LawfulPhase ⟨s, action, out, s'⟩ := by
  cases moved with
  | works _ => exact lawfulPhase_of_same rfl
  | rests _ _ => exact lawfulPhase_of_same rfl
  | moves _ _ statuses _ _ => exact lawfulPhase_of_same statuses
  | @puts task writer written seen status next call =>
    have copy := lawful task
    rw [call] at copy
    intro batchId before stored
    show ∃ after, (s.statuses.put written status).get batchId = some after ∧ _
    rw [Kv.get_put]
    split
    · rename_i here
      subst here
      have replaced : writer.mayReplace (some before.phase) seen = true := by
        simpa [WritesInTurn, call, stored] using turn
      have changed := mayBecome_of_replace copy.1 replaced
      exact ⟨status, rfl, changed, final_of_mayBecome changed⟩
    · exact ⟨before, stored, mayBecome_self _, fun _ => rfl⟩
  | @deletes task claim call =>
    intro batchId before stored
    have absent : s.statuses.get claim.batchId = none := by
      simpa [WritesInTurn, call] using turn
    have elsewhere : batchId ≠ claim.batchId := by
      rintro rfl
      simp [absent] at stored
    refine ⟨before, ?_, mayBecome_self _, fun _ => rfl⟩
    exact (Kv.get_delete_ne s.statuses elsewhere).trans stored

/-- Over every schedule whose status writes are in turn, every change of a stored
phase follows the table or is the recovery, and `Complete` and `Cancelled` stay. -/
theorem phase_law {config : ClusterConfig} (idle : ∀ task, start.tasks task = .idle)
    (run : Run ((cluster config).under (WritesInTurn · ·)) start history s) :
    ∀ e ∈ history, LawfulPhase e := by
  intro e member
  obtain ⟨older, before, moved⟩ := run.recorded member
  obtain ⟨turn, moved⟩ := (Machine.under_step _ _).mp moved
  have lawful : LawfulCopies e.pre := by
    apply before.invariant
    · simp [LawfulCopies, idle, BatchCall.Lawful]
    · intro s action s' out lawful moved
      exact lawful.step (clusterMove_of_step ((Machine.under_step _ _).mp moved).2)
  exact lawfulPhase_of_move lawful turn (clusterMove_of_step moved)

/-- A batch that is counted, merged and completed; a late cancel finds it final. -/
theorem phase_law_merged : ∃ history s,
    Run ((cluster ⟨⟨10, 30⟩, 3600, 1⟩).under (WritesInTurn · ·))
      (runningBatch [("u", .complete)]) history s ∧
    (∀ e ∈ history, LawfulPhase e) ∧ (s.statuses.get "jobs:b").map (·.phase) = some .complete := by
  obtain ⟨history, s, run, seen⟩ := Run.of_observation
    ((cluster ⟨⟨10, 30⟩, 3600, 1⟩).under (WritesInTurn · ·)) (runningBatch [("u", .complete)])
    [.reconcile 0 oneSource 1, .scanUnits 0 1, .put 0, .claimMerge 1 ⟨0, "jobs:b", 1, "s3://out/"⟩,
      .claimGet 1 2, .put 1, .indexPut 1, .indexDelete 1, .verify 1, .prepare 1 "merge" 3,
      .saveMerge 1, .execute 1 (.ok 7), .completeGet 1 4, .put 1, .indexPut 1, .indexDelete 1,
      .closeGet 1 5, .closePut 1, .cancel 2 "jobs:b" 6]
    (fun reached => (reached.2.statuses.get "jobs:b").map (·.phase)) (some .complete) (by decide)
  exact ⟨history, s, run, phase_law (fun _ => rfl) run, seen⟩

/-- A batch is cancelled between the controller's scan and its put; the put makes
the cancelled batch `Running` again. -/
theorem cancelled_batch_runs_again :
    ¬ ∀ history s, Run (cluster ⟨⟨10, 30⟩, 3600, 1⟩) (runningBatch [("u", .processing)]) history s →
      ∀ e ∈ history, LawfulPhase e := by
  intro law
  obtain ⟨history, s, run, seen⟩ := Run.of_observation
    (cluster ⟨⟨10, 30⟩, 3600, 1⟩) (runningBatch [("u", .processing)])
    [.reconcile 0 oneSource 1, .scanUnits 0 1, .cancel 1 "jobs:b" 2, .put 1, .put 0]
    (fun reached => reached.1.head?.map fun e =>
      ((e.pre.statuses.get "jobs:b").map (·.phase), (e.post.statuses.get "jobs:b").map (·.phase)))
    (some (some .cancelled, some .running)) (by decide)
  cases history with
  | nil => simp at seen
  | cons e older =>
    simp only [List.head?_cons, Option.map_some, Option.some.injEq, Prod.mk.injEq,
      Option.map_eq_some_iff] at seen
    obtain ⟨⟨before, stored, cancelled⟩, ⟨after, written, running⟩⟩ := seen
    obtain ⟨_, read, _, final⟩ := law _ _ run e List.mem_cons_self "jobs:b" before stored
    obtain rfl := Option.some.inj (written.symm.trans read)
    have kept := final (.inr cancelled)
    rw [cancelled, running] at kept
    cases kept

end Roboflow.Batch
