import Roboflow.Library.Machine
import Roboflow.Library.Positions

/-! Threads that take jobs from one bounded channel and send what they make of them to another.
Whatever the schedule, a job that was sent is waiting, with a worker, or made into a result that is
received once. After the last job the workers go on until the results no longer fit. -/
namespace Library

/-! ### The pool -/

/-- How much the two channels hold. -/
structure Capacity where
  pending : Nat
  completed : Nat

inductive Worker (Job Result : Type) where
  | waiting
  | working (job : Job)
  | sending (result : Result)
  | exited

structure WorkerPool (Job Result : Type) where
  pending : List Job
  workers : List (Worker Job Result)
  completed : List Result
  /-- Nobody can send jobs any more. -/
  closed : Bool

inductive WorkerTurn where
  | take
  | work
  | deliver
  | exit

/-- A channel of capacity zero holds nothing: a sender and a receiver that wait for each other
exchange what they have, so such a call names the worker. -/
inductive WorkersAct (Job : Type) where
  | send (job : Job) (taker : Option Nat)
  | receive (sender : Option Nat)
  | close
  | turn (worker : Nat) (turn : WorkerTurn)

inductive WorkersOut (Result : Type) where
  | done
  | got (result : Result)
  /-- All workers have exited, so the other end of the channel is gone. -/
  | disconnected

variable {Job Result : Type}

namespace WorkerPool

def new (workerCount : Nat) : WorkerPool Job Result := ⟨[], .replicate workerCount .waiting, [], false⟩

def setWorker (pool : WorkerPool Job Result) (i : Nat) (worker : Worker Job Result) : WorkerPool Job Result :=
  { pool with workers := pool.workers.set i worker }

def abandoned (pool : WorkerPool Job Result) : Bool :=
  pool.workers.all fun worker => match worker with
    | .exited => true
    | _ => false

def workerStep (handle : Job → Result) (capacity : Capacity) (pool : WorkerPool Job Result) (i : Nat) :
    WorkerTurn → Option (WorkerPool Job Result)
  | .take =>
    match pool.workers[i]?, pool.pending with
    | some .waiting, job :: rest => some { pool.setWorker i (.working job) with pending := rest }
    | _, _ => none
  | .work =>
    match pool.workers[i]? with
    | some (.working job) => some (pool.setWorker i (.sending (handle job)))
    | _ => none
  | .deliver =>
    match pool.workers[i]? with
    | some (.sending result) =>
      if pool.completed.length < capacity.completed then
        some { pool.setWorker i .waiting with completed := pool.completed ++ [result] }
      else none
    | _ => none
  | .exit =>
    match pool.workers[i]?, pool.pending with
    | some .waiting, [] => if pool.closed then some (pool.setWorker i .exited) else none
    | _, _ => none

def step (handle : Job → Result) (capacity : Capacity) (pool : WorkerPool Job Result) :
    WorkersAct Job → Option (WorkerPool Job Result × WorkersOut Result)
  | .send job taker =>
    if pool.closed then none
    else if pool.abandoned then some (pool, .disconnected)
    else match taker with
      | none =>
        if pool.pending.length < capacity.pending then
          some ({ pool with pending := pool.pending ++ [job] }, .done)
        else none
      | some i =>
        match pool.workers[i]? with
        | some .waiting =>
          if capacity.pending = 0 then some (pool.setWorker i (.working job), .done) else none
        | _ => none
  | .receive sender =>
    match pool.completed, sender with
    | result :: rest, none => some ({ pool with completed := rest }, .got result)
    | [], none => if pool.abandoned then some (pool, .disconnected) else none
    | _, some i =>
      match pool.workers[i]? with
      | some (.sending result) =>
        if capacity.completed = 0 then some (pool.setWorker i .waiting, .got result) else none
      | _ => none
  | .close => if pool.closed then none else some ({ pool with closed := true }, .done)
  | .turn i turn => (pool.workerStep handle capacity i turn).map fun pool => (pool, .done)

end WorkerPool

def workerPool (handle : Job → Result) (capacity : Capacity) :
    Machine (WorkerPool Job Result) (WorkersAct Job) (WorkersOut Result) := ⟨WorkerPool.step handle capacity⟩

/-- The workers alone. -/
def workersOf (handle : Job → Result) (capacity : Capacity) :
    Machine (WorkerPool Job Result) (Nat × WorkerTurn) (WorkersOut Result) :=
  (workerPool handle capacity).via fun (i, turn) => .turn i turn

abbrev WorkersHistory (Job Result : Type) := History (WorkerPool Job Result) (WorkersAct Job) (WorkersOut Result)

/-! ### Every job comes back once -/

/-- What a worker still owes. -/
def Worker.due (handle : Job → Result) : Worker Job Result → Option Result
  | .working job => some (handle job)
  | .sending result => some result
  | _ => none

/-- The results that are still to be received. -/
def WorkerPool.due (handle : Job → Result) (pool : WorkerPool Job Result) : List Result :=
  pool.completed ++ (pool.workers.filterMap (Worker.due handle) ++ pool.pending.map handle)

def WorkersOut.received : WorkersOut Result → List Result
  | .got result => [result]
  | _ => []

/-- The job that a step sends. -/
def WorkersAct.sent : WorkersAct Job → WorkersOut Result → List Job
  | .send job _, .done => [job]
  | _, _ => []

/-- The jobs sent, oldest first. -/
def sentJobs : WorkersHistory Job Result → List Job
  | [] => []
  | e :: older => sentJobs older ++ e.act.sent e.out

/-- The results received, oldest first. -/
def receivedResults : WorkersHistory Job Result → List Result
  | [] => []
  | e :: older => receivedResults older ++ e.out.received

/-- What a worker's turn can be. -/
inductive WorkerMove (handle : Job → Result) (capacity : Capacity) (pool : WorkerPool Job Result) (i : Nat) :
    WorkerTurn → WorkerPool Job Result → Prop where
  | taken (held : pool.workers[i]? = some .waiting) (pending : pool.pending = job :: rest) :
      WorkerMove handle capacity pool i .take { pool.setWorker i (.working job) with pending := rest }
  | worked (held : pool.workers[i]? = some (.working job)) :
      WorkerMove handle capacity pool i .work (pool.setWorker i (.sending (handle job)))
  | delivered (held : pool.workers[i]? = some (.sending result))
      (room : pool.completed.length < capacity.completed) : WorkerMove handle capacity pool i .deliver
        { pool.setWorker i .waiting with completed := pool.completed ++ [result] }
  | left (held : pool.workers[i]? = some .waiting) (pending : pool.pending = [])
      (closed : pool.closed = true) : WorkerMove handle capacity pool i .exit (pool.setWorker i .exited)

/-- What a step can be. -/
inductive WorkersMove (handle : Job → Result) (capacity : Capacity) (pool : WorkerPool Job Result) :
    WorkersAct Job → WorkersOut Result → WorkerPool Job Result → Prop where
  | sent (stillOpen : pool.closed = false) (here : pool.abandoned = false) :
      WorkersMove handle capacity pool (.send job none) .done { pool with pending := pool.pending ++ [job] }
  | handed (stillOpen : pool.closed = false) (held : pool.workers[i]? = some .waiting) :
      WorkersMove handle capacity pool (.send job (some i)) .done (pool.setWorker i (.working job))
  | unsent (stillOpen : pool.closed = false) (empty : pool.abandoned = true) :
      WorkersMove handle capacity pool (.send job taker) .disconnected pool
  | received (completed : pool.completed = result :: rest) :
      WorkersMove handle capacity pool (.receive none) (.got result) { pool with completed := rest }
  | taken (held : pool.workers[i]? = some (.sending result)) :
      WorkersMove handle capacity pool (.receive (some i)) (.got result) (pool.setWorker i .waiting)
  | unreceived : WorkersMove handle capacity pool (.receive none) .disconnected pool
  | closed : WorkersMove handle capacity pool .close .done { pool with closed := true }
  | turned (move : WorkerMove handle capacity pool i turn pool') :
      WorkersMove handle capacity pool (.turn i turn) .done pool'

section
variable {handle : Job → Result} {capacity : Capacity} {pool pool' : WorkerPool Job Result} {i : Nat}
  {worker : Worker Job Result} {turn : WorkerTurn} {out : WorkersOut Result}

/-- One worker's place among what the others owe. -/
theorem owed_perm (handle : Job → Result) (held : pool.workers[i]? = some worker)
    (next : Worker Job Result) : ∃ others,
    (pool.workers.filterMap (Worker.due handle)).Perm ((worker.due handle).toList ++ others) ∧
      ((pool.setWorker i next).workers.filterMap (Worker.due handle)).Perm
        ((next.due handle).toList ++ others) := by
  obtain ⟨before, after, whole, replaced, -⟩ := exists_split held
  have moved (one : Worker Job Result) : ((before ++ one :: after).filterMap (Worker.due handle)).Perm
      ((one.due handle).toList ++ (before ++ after).filterMap (Worker.due handle)) := by
    rw [List.filterMap_append, List.filterMap_append, List.filterMap_cons]
    cases one.due handle with
    | none => exact .refl _
    | some result => exact List.perm_middle
  refine ⟨(before ++ after).filterMap (Worker.due handle), ?_, ?_⟩
  · rw [whole]
    exact moved worker
  · show ((pool.workers.set i next).filterMap (Worker.due handle)).Perm _
    rw [replaced]
    exact moved next

theorem workerStep_move (moved : pool.workerStep handle capacity i turn = some pool') :
    WorkerMove handle capacity pool i turn pool' := by
  cases turn with
  | take =>
    simp only [WorkerPool.workerStep] at moved
    split at moved
    · rename_i waiting pending
      cases moved
      exact .taken waiting pending
    · cases moved
  | work =>
    simp only [WorkerPool.workerStep] at moved
    split at moved
    · rename_i working
      cases moved
      exact .worked working
    · cases moved
  | deliver =>
    simp only [WorkerPool.workerStep] at moved
    split at moved
    · rename_i sending
      split at moved
      · rename_i room
        cases moved
        exact .delivered sending room
      · cases moved
    · cases moved
  | exit =>
    simp only [WorkerPool.workerStep] at moved
    split at moved
    · rename_i waiting pending
      split at moved
      · rename_i closed
        cases moved
        exact .left waiting pending closed
      · cases moved
    · cases moved

theorem step_move {act : WorkersAct Job} (moved : pool.step handle capacity act = some (pool', out)) :
    WorkersMove handle capacity pool act out pool' := by
  cases act with
  | send job taker =>
    simp only [WorkerPool.step] at moved
    split at moved
    · cases moved
    rename_i stillOpen
    split at moved
    · rename_i empty
      cases moved
      exact .unsent (by simpa using stillOpen) empty
    rename_i here
    cases taker with
    | none =>
      simp only at moved
      split at moved
      · cases moved
        exact .sent (by simpa using stillOpen) (by simpa using here)
      · cases moved
    | some i =>
      simp only at moved
      split at moved
      · rename_i held
        split at moved
        · cases moved
          exact .handed (by simpa using stillOpen) held
        · cases moved
      · cases moved
  | receive sender =>
    simp only [WorkerPool.step] at moved
    split at moved
    · rename_i completed
      cases moved
      exact .received completed
    · split at moved
      · cases moved
        exact .unreceived
      · cases moved
    · split at moved
      · rename_i held
        split at moved
        · cases moved
          exact .taken held
        · cases moved
      · cases moved
  | close =>
    simp only [WorkerPool.step] at moved
    split at moved
    · cases moved
    · cases moved
      exact .closed
  | turn i turn =>
    obtain ⟨after, turned, same⟩ := Option.map_eq_some_iff.mp moved
    cases same
    exact .turned (workerStep_move turned)

/-- A turn of a worker moves what is owed, and neither adds to it nor takes from it. -/
theorem WorkerMove.due (move : WorkerMove handle capacity pool i turn pool') :
    (pool'.due handle).Perm (pool.due handle) := by
  cases move with
  | @taken job rest held pending =>
    obtain ⟨others, before, after⟩ := owed_perm handle held (.working job)
    refine List.Perm.append_left _ ((after.append_right _).trans ?_)
    refine .trans ?_ (before.append_right _).symm
    rw [pending]
    exact List.perm_middle.symm
  | @worked job held =>
    obtain ⟨others, before, after⟩ := owed_perm handle held (.sending (handle job))
    exact List.Perm.append_left _ ((after.trans before.symm).append_right _)
  | @delivered result held room =>
    obtain ⟨others, before, after⟩ := owed_perm handle held .waiting
    show (pool.completed ++ [result] ++ (_ ++ _)).Perm (pool.completed ++ (_ ++ _))
    rw [List.append_assoc]
    exact List.Perm.append_left _ (((after.append_right _).cons result).trans (before.append_right _).symm)
  | left held pending closed =>
    obtain ⟨others, before, after⟩ := owed_perm handle held .exited
    exact List.Perm.append_left _ ((after.trans before.symm).append_right _)

/-- What a step sends is owed from then on, and what it receives is not owed any more. -/
theorem WorkersMove.due {act : WorkersAct Job} (move : WorkersMove handle capacity pool act out pool') :
    (out.received ++ pool'.due handle).Perm (pool.due handle ++ (act.sent out).map handle) := by
  cases move with
  | sent stillOpen here => simp [WorkerPool.due, WorkersOut.received, WorkersAct.sent]
  | @handed i job stillOpen held =>
    obtain ⟨others, before, after⟩ := owed_perm handle held (.working job)
    show (pool.completed ++ (_ ++ _)).Perm (pool.completed ++ (_ ++ _) ++ [handle job])
    rw [List.append_assoc]
    refine List.Perm.append_left _ ((after.append_right _).trans ?_)
    refine .trans ?_ ((before.append_right _).append_right _).symm
    exact (List.perm_append_singleton _ _).symm
  | unsent stillOpen empty => exact .of_eq (List.append_nil _).symm
  | received completed => simp [WorkerPool.due, WorkersOut.received, WorkersAct.sent, completed]
  | @taken i result held =>
    obtain ⟨others, before, after⟩ := owed_perm handle held .waiting
    show (result :: (pool.completed ++ (_ ++ _))).Perm (pool.completed ++ (_ ++ _) ++ [])
    rw [List.append_nil]
    refine List.perm_middle.symm.trans (List.Perm.append_left _ ?_)
    exact ((after.append_right _).cons result).trans (before.append_right _).symm
  | unreceived => exact .of_eq (List.append_nil _).symm
  | closed => exact .of_eq (List.append_nil _).symm
  | turned move =>
    show (pool'.due handle).Perm (pool.due handle ++ [])
    rw [List.append_nil]
    exact move.due

/-- The workers stay as many as they are. -/
theorem WorkersMove.workers {act : WorkersAct Job} (move : WorkersMove handle capacity pool act out pool') :
    pool'.workers.length = pool.workers.length := by
  have set (i : Nat) (worker : Worker Job Result) :
      (pool.setWorker i worker).workers.length = pool.workers.length := List.length_set
  cases move with
  | sent stillOpen here => rfl
  | handed stillOpen held => exact set ..
  | unsent stillOpen empty => rfl
  | received completed => rfl
  | taken held => exact set ..
  | unreceived => rfl
  | closed => rfl
  | turned move => cases move <;> exact set ..

/-- Only `close` closes a pool. -/
theorem WorkersMove.closed_eq {act : WorkersAct Job} (move : WorkersMove handle capacity pool act out pool')
    (goesOn : act ≠ .close) : pool'.closed = pool.closed := by
  cases move with
  | closed => exact absurd rfl goesOn
  | turned move => cases move <;> rfl
  | sent | handed | unsent | received | taken | unreceived => rfl

theorem due_new (workerCount : Nat) : (WorkerPool.new workerCount : WorkerPool Job Result).due handle = [] := by
  simp [WorkerPool.due, WorkerPool.new, Worker.due]

/-- In every run, what was received and what is still owed are the results of the jobs sent. -/
theorem WorkerPool.accounted {workerCount : Nat} {history : WorkersHistory Job Result}
    (run : Run (workerPool handle capacity) (.new workerCount) history pool) :
    (receivedResults history ++ pool.due handle).Perm ((sentJobs history).map handle) := by
  refine run.history_invariant (P := fun history pool =>
    (receivedResults history ++ pool.due handle).Perm ((sentJobs history).map handle))
    (.of_eq (by simp [receivedResults, sentJobs, due_new])) ?_
  intro older pool act pool' out _ kept moved
  have same := (step_move moved).due
  rw [receivedResults, sentJobs, List.append_assoc, List.map_append]
  exact (same.append_left _).trans (by rw [← List.append_assoc]; exact kept.append_right _)

end

/-! ### When the workers are done -/

/-- What holds of the channels and the workers in every run. -/
structure WorkerPool.Sound (capacity : Capacity) (pool : WorkerPool Job Result) : Prop where
  room : pool.completed.length ≤ capacity.completed
  gone : Worker.exited ∈ pool.workers → pool.closed = true ∧ pool.pending = []
  served : pool.pending ≠ [] → pool.workers ≠ []

/-- Workers exit together with the last job. -/
def WorkerPool.Finished (pool : WorkerPool Job Result) : Prop := ∀ worker ∈ pool.workers, worker = .exited

/-- How many turns a worker has before it needs another job, with the one to exit. -/
def Worker.turnsLeft : Worker Job Result → Nat
  | .waiting => 1
  | .working _ => 3
  | .sending _ => 2
  | .exited => 0

/-- How many turns the workers have until they have all exited. -/
def WorkerPool.turnsLeft (pool : WorkerPool Job Result) : Nat :=
  3 * pool.pending.length + (pool.workers.map Worker.turnsLeft).sum

section
variable {handle : Job → Result} {capacity : Capacity} {pool pool' : WorkerPool Job Result} {i : Nat}
  {worker next : Worker Job Result} {turn : WorkerTurn} {out : WorkersOut Result}

theorem turnsLeft_set (held : pool.workers[i]? = some worker) (next : Worker Job Result) :
    (pool.workers.map Worker.turnsLeft).sum + next.turnsLeft =
      ((pool.setWorker i next).workers.map Worker.turnsLeft).sum + worker.turnsLeft := by
  obtain ⟨before, after, whole, replaced, -⟩ := exists_split held
  have set : (pool.setWorker i next).workers = before ++ next :: after := replaced next
  rw [set, whole]
  simp only [List.map_append, List.map_cons, List.sum_append, List.sum_cons]
  omega

/-- Every turn of a worker leaves one less. -/
theorem WorkerMove.turnsLeft (move : WorkerMove handle capacity pool i turn pool') :
    pool.turnsLeft = pool'.turnsLeft + 1 := by
  cases move with
  | @taken job rest held pending =>
    have left := turnsLeft_set held (.working job)
    simp only [WorkerPool.turnsLeft, WorkerPool.setWorker, Worker.turnsLeft, pending, List.length_cons] at left ⊢
    omega
  | @worked job held =>
    have left := turnsLeft_set held (.sending (handle job))
    simp only [WorkerPool.turnsLeft, WorkerPool.setWorker, Worker.turnsLeft] at left ⊢
    omega
  | delivered held room =>
    have left := turnsLeft_set held .waiting
    simp only [WorkerPool.turnsLeft, WorkerPool.setWorker, Worker.turnsLeft] at left ⊢
    omega
  | left held pending closed =>
    have left := turnsLeft_set held .exited
    simp only [WorkerPool.turnsLeft, WorkerPool.setWorker, Worker.turnsLeft] at left ⊢
    omega

namespace WorkerPool.Sound

theorem initial (workerCount : Nat) : (WorkerPool.new workerCount : WorkerPool Job Result).Sound capacity where
  room := Nat.zero_le _
  gone member := by cases List.eq_of_mem_replicate member
  served pending := absurd rfl pending

/-- A worker that goes on leaves the others as they are. -/
theorem exited_of_set (goes : next ≠ .exited) (member : .exited ∈ (pool.setWorker i next).workers) :
    .exited ∈ pool.workers :=
  (List.mem_or_eq_of_mem_set member).resolve_right fun same => goes same.symm

theorem workers_set (held : pool.workers[i]? = some worker) : (pool.setWorker i next).workers ≠ [] := by
  obtain ⟨before, after, -, replaced, -⟩ := exists_split held
  show pool.workers.set i next ≠ []
  rw [replaced]
  simp

theorem turned (sound : pool.Sound capacity) (move : WorkerMove handle capacity pool i turn pool') :
    pool'.Sound capacity := by
  cases move with
  | taken held pending =>
    refine ⟨sound.room, fun member => ?_, fun _ => workers_set held⟩
    have none_ := (sound.gone (exited_of_set (by simp) member)).2
    rw [pending] at none_
    cases none_
  | worked held =>
    exact ⟨sound.room, fun member => sound.gone (exited_of_set (by simp) member), fun _ => workers_set held⟩
  | delivered held room =>
    refine ⟨?_, fun member => sound.gone (exited_of_set (by simp) member), fun _ => workers_set held⟩
    simpa using room
  | left held pending closed =>
    exact ⟨sound.room, fun _ => ⟨closed, pending⟩, fun _ => workers_set held⟩

theorem moved (sound : pool.Sound capacity) {act : WorkersAct Job}
    (move : WorkersMove handle capacity pool act out pool') : pool'.Sound capacity := by
  cases move with
  | sent stillOpen here =>
    refine ⟨sound.room, fun member => ?_, fun _ empty => ?_⟩
    · have closed := (sound.gone member).1
      rw [stillOpen] at closed
      cases closed
    · have none_ : pool.workers = [] := empty
      simp [WorkerPool.abandoned, none_] at here
  | handed stillOpen held =>
    refine ⟨sound.room, fun member => ?_, fun _ => workers_set held⟩
    have closed := (sound.gone (exited_of_set (by simp) member)).1
    rw [stillOpen] at closed
    cases closed
  | unsent stillOpen empty => exact sound
  | received completed =>
    refine ⟨?_, sound.gone, sound.served⟩
    have room := sound.room
    rw [completed] at room
    exact Nat.le_of_succ_le room
  | taken held =>
    exact ⟨sound.room, fun member => sound.gone (exited_of_set (by simp) member), fun _ => workers_set held⟩
  | unreceived => exact sound
  | closed => exact ⟨sound.room, fun member => ⟨rfl, (sound.gone member).2⟩, sound.served⟩
  | turned move => exact sound.turned move

/-- As long as there are workers, what is sent arrives. -/
theorem sends (sound : pool.Sound capacity) (staffed : pool.workers ≠ []) {job : Job} {taker : Option Nat}
    (move : WorkersMove handle capacity pool (.send job taker) out pool') : out = .done := by
  cases move with
  | sent => rfl
  | handed => rfl
  | unsent stillOpen empty =>
    obtain ⟨worker, member⟩ := List.exists_mem_of_ne_nil _ staffed
    have exited := List.all_eq_true.mp empty worker member
    cases worker with
    | exited =>
      have closed := (sound.gone member).1
      rw [stillOpen] at closed
      cases closed
    | waiting => cases exited
    | working job => cases exited
    | sending result => cases exited

/-- A closed pool whose workers cannot go on: they have all exited if and only if the results that are
owed fit into their channel. -/
theorem finished_iff (sound : pool.Sound capacity) (closed : pool.closed = true)
    (stuck : ∀ i turn, pool.workerStep handle capacity i turn = none) :
    pool.Finished ↔ (pool.due handle).length ≤ capacity.completed := by
  constructor
  · intro finished
    have pending : pool.pending = [] := by
      by_contra left
      obtain ⟨worker, member⟩ := List.exists_mem_of_ne_nil _ (sound.served left)
      rw [finished worker member] at member
      exact left (sound.gone member).2
    have idle : pool.workers.filterMap (Worker.due handle) = [] := by
      rw [List.filterMap_eq_nil_iff]
      intro worker member
      rw [finished worker member]
      rfl
    simpa [WorkerPool.due, pending, idle] using sound.room
  · intro fits worker member
    obtain ⟨i, held⟩ := List.mem_iff_getElem?.mp member
    cases worker with
    | exited => rfl
    | waiting =>
      cases pending : pool.pending with
      | nil =>
        have exits := stuck i .exit
        simp [WorkerPool.workerStep, held, pending, closed] at exits
      | cons job rest =>
        have takes := stuck i .take
        simp [WorkerPool.workerStep, held, pending] at takes
    | working job =>
      have works := stuck i .work
      simp [WorkerPool.workerStep, held] at works
    | sending result =>
      have delivers := stuck i .deliver
      simp only [WorkerPool.workerStep, held, ite_eq_right_iff, reduceCtorEq, imp_false, not_lt] at delivers
      obtain ⟨others, owed, -⟩ := owed_perm handle held .waiting
      have count := owed.length_eq
      simp only [WorkerPool.due, List.length_append, List.length_map] at fits
      simp only [Worker.due, Option.toList_some, List.length_append, List.length_singleton] at count
      omega

end WorkerPool.Sound

/-- Turns of the workers alone: nothing is added or lost, and there are only so many of them. -/
theorem workersOf_run {history : History (WorkerPool Job Result) (Nat × WorkerTurn) (WorkersOut Result)}
    (run : Run (workersOf handle capacity) pool history pool') (sound : pool.Sound capacity) :
    pool'.Sound capacity ∧ pool'.closed = pool.closed ∧ (pool'.due handle).Perm (pool.due handle) ∧
      history.length + pool'.turnsLeft = pool.turnsLeft := by
  refine run.history_invariant (P := fun history pool' => pool'.Sound capacity ∧ pool'.closed = pool.closed ∧
    (pool'.due handle).Perm (pool.due handle) ∧ history.length + pool'.turnsLeft = pool.turnsLeft)
    ⟨sound, rfl, .refl _, Nat.zero_add _⟩ ?_
  rintro older s ⟨i, turn⟩ s' out - ⟨kept, closed, owed, left⟩ moved
  obtain ⟨after, turned, same⟩ := Option.map_eq_some_iff.mp moved
  cases same
  have move := workerStep_move turned
  have fewer := move.turnsLeft
  refine ⟨kept.turned move, ?_, move.due.trans owed, ?_⟩
  · rw [← closed]
    cases move <;> rfl
  · rw [List.length_cons]
    omega

/-- Once a pool is closed and nobody receives, the workers come to an end, in whatever order they run:
they have all exited then if and only if the results that were owed fit into their channel. -/
theorem WorkerPool.Sound.ends {history : History (WorkerPool Job Result) (Nat × WorkerTurn) (WorkersOut Result)}
    (sound : pool.Sound capacity) (closed : pool.closed = true)
    (run : Run (workersOf handle capacity) pool history pool') :
    history.length ≤ pool.turnsLeft ∧
      ((∀ act, (workersOf handle capacity).step pool' act = none) →
        (pool'.Finished ↔ (pool.due handle).length ≤ capacity.completed)) := by
  obtain ⟨kept, same, owed, left⟩ := workersOf_run run sound
  refine ⟨by omega, fun stuck => ?_⟩
  rw [← owed.length_eq]
  refine kept.finished_iff (same.trans closed) fun i turn => ?_
  exact Option.map_eq_none_iff.mp (stuck (i, turn))

/-- For every run before that: how many jobs may be unanswered when the pool is closed. -/
theorem WorkerPool.closed_ends {workerCount : Nat} {started : WorkersHistory Job Result}
    (run : Run (workerPool handle capacity) (.new workerCount) started pool) (closed : pool.closed = true)
    {history : History (WorkerPool Job Result) (Nat × WorkerTurn) (WorkersOut Result)}
    (ending : Run (workersOf handle capacity) pool history pool') :
    history.length ≤ pool.turnsLeft ∧
      ((∀ act, (workersOf handle capacity).step pool' act = none) →
        (pool'.Finished ↔
          (sentJobs started).length ≤ (receivedResults started).length + capacity.completed)) := by
  have sound : pool.Sound capacity :=
    run.invariant (.initial workerCount) fun _ _ _ _ before moved => before.moved (step_move moved)
  obtain ⟨bounded, ends⟩ := sound.ends closed ending
  refine ⟨bounded, fun stuck => (ends stuck).trans ?_⟩
  have count := (WorkerPool.accounted run).length_eq
  rw [List.length_append, List.length_map] at count
  omega

end

end Library
