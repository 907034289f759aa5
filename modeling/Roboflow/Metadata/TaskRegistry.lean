import Roboflow.Library.Kv
import Roboflow.Library.Machine

/-! Task registration, `register_task` of `metadata/registry.rs`, by any number of
clients on one batch. A call is cut at its TiKV operations: the get of the task
key, the get of the counter, the begin of the transaction and its commit. A commit
aborts exactly when a key it writes was committed after the transaction began; the
counter is read before it began, so a commit between the two is not noticed, and
neither is a task that was registered after the first get. -/
namespace Roboflow.Metadata
open Library

structure TaskEntry where
  taskIndex : Nat
  task : String
  deriving DecidableEq

/-- Where a client is between two operations. -/
inductive RegisterCall where
  | idle
  /-- The task key held nothing; before the get of the counter. -/
  | counting (task : String)
  /-- Before the begin, with the counter it read. -/
  | beginning (task : String) (current : Nat)
  /-- Before the commit of a transaction that began at this time. -/
  | committing (task : String) (current start : Nat)
  deriving DecidableEq

/-- The committed values of one batch, and when each key was last committed. The counter is a `u64` of the
source, which no batch exhausts. -/
structure RegistryState where
  counter : Option Nat
  tasks : Kv String TaskEntry
  counterAt : Nat
  taskAt : String → Nat
  clock : Nat
  calls : Nat → RegisterCall

inductive RegisterAction where
  | registerGet (client : Nat) (task : String)
  | counterGet (client : Nat)
  | beginTxn (client : Nat)
  | commit (client : Nat)

inductive RegisterOut where
  | working
  | returned (task : String) (index : Nat)
  deriving DecidableEq

namespace RegistryState

def initial : RegistryState := ⟨none, .empty, 0, fun _ => 0, 0, fun _ => .idle⟩

def setCall (s : RegistryState) (client : Nat) (call : RegisterCall) : RegistryState :=
  { s with calls := Function.update s.calls client call }

/-- A key the transaction writes was committed after its start. -/
def conflicts (s : RegistryState) (taskHash : String) (start : Nat) : Bool :=
  start < s.counterAt || start < s.taskAt taskHash

/-- The commit of the counter and the entry. -/
def commitTask (s : RegistryState) (taskHash task : String) (current : Nat) : RegistryState :=
  { s with
    counter := some (current + 1)
    tasks := s.tasks.put taskHash { taskIndex := current, task := task }
    counterAt := s.clock + 1
    taskAt := Function.update s.taskAt taskHash (s.clock + 1)
    clock := s.clock + 1 }

end RegistryState

section
variable (hashTask : String → String)

def registerStep (s : RegistryState) : RegisterAction → Option (RegistryState × RegisterOut)
  | .registerGet client task =>
    match s.calls client with
    | .idle =>
      match s.tasks.get (hashTask task) with
      | some entry => some (s, .returned task entry.taskIndex)
      | none => some (s.setCall client (.counting task), .working)
    | _ => none
  | .counterGet client =>
    match s.calls client with
    | .counting task => some (s.setCall client (.beginning task (s.counter.getD 0)), .working)
    | _ => none
  | .beginTxn client =>
    match s.calls client with
    | .beginning task current => some (s.setCall client (.committing task current s.clock), .working)
    | _ => none
  | .commit client =>
    match s.calls client with
    | .committing task current start =>
      if s.conflicts (hashTask task) start then some (s.setCall client (.counting task), .working)
      else
        some ((s.commitTask (hashTask task) task current).setCall client .idle,
          .returned task current)
    | _ => none

def taskRegistry : Machine RegistryState RegisterAction RegisterOut := ⟨registerStep hashTask⟩

/-- A transaction that is about to commit read the counter as it is stored now, and
nothing is stored for its hash. -/
def commitsFresh (s : RegistryState) : RegisterAction → Bool
  | .commit client =>
    match s.calls client with
    | .committing task current start =>
      s.conflicts (hashTask task) start ||
        (s.counter.getD 0 = current && (s.tasks.get (hashTask task)).isNone)
    | _ => true
  | _ => true

end

/-- Tasks and the indices returned for them, newest first. -/
def registrations (history : History RegistryState RegisterAction RegisterOut) : List (String × Nat) :=
  history.filterMap fun e =>
    match e.out with
    | .returned task index => some (task, index)
    | .working => none

/-- One index for each text, different ones for different hashes, and as many in
use as there are hashes, from zero on. -/
structure Agreement (hashTask : String → String) (answers : List (String × Nat)) : Prop where
  same : ∀ a ∈ answers, ∀ b ∈ answers, a.1 = b.1 → a.2 = b.2
  different : ∀ a ∈ answers, ∀ b ∈ answers, hashTask a.1 ≠ hashTask b.1 → a.2 ≠ b.2
  dense : (answers.map Prod.snd).toFinset =
    Finset.range (answers.map fun a => hashTask a.1).toFinset.card

/-! ### The invariant -/

/-- Answers and entries say the same, entries differ in their indices, and the
counter is the next index. -/
structure Registered (hashTask : String → String) (answers : List (String × Nat)) (s : RegistryState) :
    Prop where
  answered : ∀ a ∈ answers, ∃ entry, s.tasks.get (hashTask a.1) = some entry ∧ entry.taskIndex = a.2
  entered : ∀ h entry, s.tasks.get h = some entry →
    ∃ a ∈ answers, hashTask a.1 = h ∧ a.2 = entry.taskIndex
  distinct : ∀ h h' entry entry', s.tasks.get h = some entry → s.tasks.get h' = some entry' →
    entry.taskIndex = entry'.taskIndex → h = h'
  dense : ∀ i, i < s.counter.getD 0 ↔ ∃ h entry, s.tasks.get h = some entry ∧ entry.taskIndex = i

variable {hashTask : String → String}

/-- The next free index goes to a hash that had none. -/
theorem Registered.commitTask (registered : Registered hashTask answers s)
    (fresh : s.counter.getD 0 = current) (absent : s.tasks.get (hashTask task) = none) :
    Registered hashTask ((task, current) :: answers) (s.commitTask (hashTask task) task current) := by
  obtain ⟨answered, entered, distinct, dense⟩ := registered
  have below : ∀ h entry, s.tasks.get h = some entry → entry.taskIndex < current := by
    intro h entry present
    rw [← fresh]
    exact (dense _).mpr ⟨h, entry, present, rfl⟩
  have read : ∀ h, (s.commitTask (hashTask task) task current).tasks.get h =
      if h = hashTask task then some ⟨current, task⟩ else s.tasks.get h := fun h => Kv.get_put _ _ _ _
  have own : (s.commitTask (hashTask task) task current).tasks.get (hashTask task) =
      some ⟨current, task⟩ := Kv.get_put_self _ _ _
  have kept : ∀ h entry, s.tasks.get h = some entry →
      (s.commitTask (hashTask task) task current).tasks.get h = some entry := by
    intro h entry present
    rw [read, if_neg, present]
    intro taken
    rw [taken, absent] at present
    cases present
  refine ⟨fun a member => ?_, fun h entry present => ?_, fun h h' entry entry' present present' same => ?_,
    fun i => ?_⟩
  · rcases List.mem_cons.mp member with rfl | older
    · exact ⟨⟨current, task⟩, own, rfl⟩
    · obtain ⟨entry, present, index⟩ := answered a older
      exact ⟨entry, kept _ entry present, index⟩
  · rw [read] at present
    split at present
    · rename_i here
      cases present
      exact ⟨(task, current), List.mem_cons_self, here.symm, rfl⟩
    · obtain ⟨a, older, named, index⟩ := entered h entry present
      exact ⟨a, List.mem_cons_of_mem _ older, named, index⟩
  · rw [read] at present present'
    split at present <;> split at present'
    · rename_i here here'
      rw [here, here']
    · cases present
      have := below h' entry' present'
      simp only at same
      omega
    · cases present'
      have := below h entry present
      simp only at same
      omega
    · exact distinct h h' entry entry' present present' same
  · change i < current + 1 ↔ _
    constructor
    · intro small
      rcases Nat.lt_or_eq_of_le (Nat.le_of_lt_succ small) with less | rfl
      · obtain ⟨h, entry, present, index⟩ := (dense i).mp (fresh ▸ less)
        exact ⟨h, entry, kept h entry present, index⟩
      · exact ⟨hashTask task, ⟨i, task⟩, own, rfl⟩
    · rintro ⟨h, entry, present, rfl⟩
      rw [read] at present
      split at present
      · cases present
        exact Nat.lt_succ_self _
      · exact (below h entry present).trans (Nat.lt_succ_self _)

/-- Answering from a stored entry adds nothing new. -/
theorem Registered.answer (registered : Registered hashTask answers s)
    (present : s.tasks.get (hashTask task) = some entry) :
    Registered hashTask ((task, entry.taskIndex) :: answers) s := by
  refine ⟨fun a member => ?_, fun h other stored => ?_, registered.distinct, registered.dense⟩
  · rcases List.mem_cons.mp member with rfl | older
    · exact ⟨entry, present, rfl⟩
    · exact registered.answered a older
  · obtain ⟨a, older, named⟩ := registered.entered h other stored
    exact ⟨a, List.mem_cons_of_mem _ older, named⟩

/-- Moving a client on changes nothing that is stored. -/
theorem Registered.setCall (registered : Registered hashTask answers s) (client : Nat)
    (call : RegisterCall) : Registered hashTask answers (s.setCall client call) :=
  ⟨registered.answered, registered.entered, registered.distinct, registered.dense⟩

theorem registerStep_registered (registered : Registered hashTask (registrations history) s)
    (fresh : commitsFresh hashTask s action = true)
    (moved : registerStep hashTask s action = some (s', out)) :
    Registered hashTask (registrations (⟨s, action, out, s'⟩ :: history)) s' := by
  cases action with
  | registerGet client task =>
    simp only [registerStep] at moved
    split at moved
    · split at moved
      · rename_i entry present
        cases moved
        exact registered.answer present
      · cases moved
        exact registered.setCall client _
    · cases moved
  | counterGet client =>
    simp only [registerStep] at moved
    split at moved
    · cases moved
      exact registered.setCall client _
    · cases moved
  | beginTxn client =>
    simp only [registerStep] at moved
    split at moved
    · cases moved
      exact registered.setCall client _
    · cases moved
  | commit client =>
    simp only [registerStep] at moved
    split at moved
    · rename_i task current start call
      split at moved
      · cases moved
        exact registered.setCall client _
      · rename_i clear
        cases moved
        simp only [commitsFresh, call, Bool.or_eq_true, Bool.and_eq_true, decide_eq_true_eq,
          Option.isNone_iff_eq_none] at fresh
        obtain ⟨counter, absent⟩ := fresh.resolve_left clear
        exact (registered.commitTask counter absent).setCall client .idle
    · cases moved

theorem registered_initial : Registered hashTask [] .initial where
  answered := by simp
  entered := by simp [RegistryState.initial]
  distinct := by simp [RegistryState.initial]
  dense := by simp [RegistryState.initial]

/-! ### Agreement -/

theorem Registered.agreement (registered : Registered hashTask answers s) :
    Agreement hashTask answers := by
  obtain ⟨answered, entered, distinct, dense⟩ := registered
  let index := fun h => ((s.tasks.get h).map TaskEntry.taskIndex).getD 0
  have indexed : ∀ a ∈ answers, index (hashTask a.1) = a.2 := by
    intro a member
    obtain ⟨entry, present, same⟩ := answered a member
    simp only [index, present, Option.map_some, Option.getD_some, same]
  have used : (answers.map Prod.snd).toFinset = Finset.range (s.counter.getD 0) := by
    ext i
    rw [List.mem_toFinset, List.mem_map, Finset.mem_range, dense]
    constructor
    · rintro ⟨a, member, rfl⟩
      obtain ⟨entry, present, same⟩ := answered a member
      exact ⟨_, entry, present, same⟩
    · rintro ⟨h, entry, present, rfl⟩
      obtain ⟨a, member, -, same⟩ := entered h entry present
      exact ⟨a, member, same⟩
  have image : (answers.map Prod.snd).toFinset =
      (answers.map fun a => hashTask a.1).toFinset.image index := by
    ext i
    simp only [List.mem_toFinset, List.mem_map, Finset.mem_image]
    constructor
    · rintro ⟨a, member, rfl⟩
      exact ⟨_, ⟨a, member, rfl⟩, indexed a member⟩
    · rintro ⟨h, ⟨a, member, rfl⟩, rfl⟩
      exact ⟨a, member, (indexed a member).symm⟩
  have injective : Set.InjOn index (answers.map fun a => hashTask a.1).toFinset := by
    intro h member h' member' same
    simp only [List.coe_toFinset, List.mem_map, Set.mem_ofPred_eq] at member member'
    obtain ⟨a, inA, rfl⟩ := member
    obtain ⟨b, inB, rfl⟩ := member'
    obtain ⟨entry, present, i⟩ := answered a inA
    obtain ⟨entry', present', i'⟩ := answered b inB
    rw [indexed a inA, indexed b inB] at same
    exact distinct _ _ entry entry' present present' (by rw [i, i', same])
  have count : (answers.map fun a => hashTask a.1).toFinset.card = s.counter.getD 0 := by
    rw [← Finset.card_image_of_injOn injective, ← image, used, Finset.card_range]
  refine ⟨fun a inA b inB same => ?_, fun a inA b inB different same => ?_, by rw [used, count]⟩
  · rw [← indexed a inA, ← indexed b inB, same]
  · obtain ⟨entry, present, i⟩ := answered a inA
    obtain ⟨entry', present', i'⟩ := answered b inB
    exact different (distinct _ _ entry entry' present present' (by rw [i, i', same]))

/-- In every interleaving whose commits are fresh, the calls agree on the indices. -/
theorem task_registry_agreement (hashTask : String → String)
    (history : History RegistryState RegisterAction RegisterOut) (s : RegistryState)
    (run : Run ((taskRegistry hashTask).under fun s action => commitsFresh hashTask s action)
      .initial history s) : Agreement hashTask (registrations history) := by
  have registered : Registered hashTask (registrations history) s := by
    induction run with
    | start => exact registered_initial
    | next _ moved ih =>
      obtain ⟨fresh, moved⟩ := (Machine.under_step _ _).mp moved
      exact registerStep_registered ih fresh moved
  exact registered.agreement

/-- `hash_task` on the texts used below. -/
def hashSample (task : String) : String :=
  if task = "pick" then "a678ddda0c17324f" else if task = "place" then "8f65b59dc5ab26c6" else "8193d09c0a966916"

theorem task_registry_agreement_in_turn :
    ∃ history s, Run ((taskRegistry hashSample).under fun s action => commitsFresh hashSample s action)
        .initial history s ∧
      registrations history = [("pick", 0), ("place", 1), ("pick", 0)] ∧
      Agreement hashSample (registrations history) := by
  obtain ⟨history, s, run, seen⟩ := Run.of_observation
    ((taskRegistry hashSample).under fun s action => commitsFresh hashSample s action) .initial
    [.registerGet 0 "pick", .counterGet 0, .beginTxn 0, .commit 0,
      .registerGet 1 "place", .counterGet 1, .beginTxn 1, .commit 1, .registerGet 2 "pick"]
    (fun reached => registrations reached.1) [("pick", 0), ("place", 1), ("pick", 0)] (by decide)
  exact ⟨history, s, run, seen, task_registry_agreement hashSample history s run⟩

/-- Two clients register one text and get two indices; two others register two
texts and get one. -/
theorem task_indices_disagree :
    ∃ history s, Run (taskRegistry hashSample) .initial history s ∧
      registrations history = [("place", 2), ("push", 2), ("pick", 1), ("pick", 0)] ∧
      ¬Agreement hashSample (registrations history) := by
  obtain ⟨history, s, run, seen⟩ := Run.of_observation (taskRegistry hashSample) .initial
    [.registerGet 0 "pick", .registerGet 1 "pick", .counterGet 0, .beginTxn 0, .commit 0,
      .counterGet 1, .beginTxn 1, .commit 1,
      .registerGet 2 "place", .counterGet 2, .registerGet 3 "push", .counterGet 3, .beginTxn 3,
      .commit 3, .beginTxn 2, .commit 2]
    (fun reached => registrations reached.1)
    [("place", 2), ("push", 2), ("pick", 1), ("pick", 0)] (by decide)
  refine ⟨history, s, run, seen, fun agreement => ?_⟩
  have same := agreement.same ("pick", 1) (by simp [seen]) ("pick", 0) (by simp [seen]) rfl
  cases same

end Roboflow.Metadata
