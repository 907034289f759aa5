import Roboflow.Library.WorkerPool
import Roboflow.Media.ConcurrentEncoder
import Roboflow.Media.ConvertPool
import Roboflow.Media.DecodeOrder

/-! The worker pools of `video/decode.rs` and `video/convert.rs`: `submit`, `recv`, `shutdown` and the
workers' loops, under every schedule of the callers and the workers. A frame is its pixels, wherever
its buffer is; the statistics are left out. -/
namespace Roboflow.Media.Decode
open Library

/-! ### The decode pool -/

structure DecodeCommand where
  sequence : Nat
  cameraId : String
  image : ImageData

/-- The pixels of a frame. -/
def picture (buffer : FrameBuffer) : RgbImage := ⟨buffer.width, buffer.height, buffer.data⟩

/-- What decoding an image gives, without an arena. -/
def decodePicture (decoder : Decoder) (limits : DecodeLimits) (image : ImageData) :
    Except String (Option RgbImage) :=
  (decodeImage decoder limits none image).map (Option.map picture)

/-- What a worker sends for a command. -/
def decodeResult (decoder : Decoder) (limits : DecodeLimits) (cmd : DecodeCommand) : DecodeResult RgbImage :=
  ⟨cmd.sequence, cmd.cameraId, decodePicture decoder limits cmd.image⟩

/-- The channels with the workers, and the callers that have drawn a number and not sent it yet. -/
structure DecodePool where
  channels : WorkerPool DecodeCommand (DecodeResult RgbImage)
  nextSequence : Nat
  submitting : List DecodeCommand

/-- `submit` draws a number and then sends; `recv` and `try_recv` receive. -/
inductive DecodeAct where
  | submit (cameraId : String) (image : ImageData)
  | send (caller : Nat) (taker : Option Nat)
  | receive (sender : Option Nat)
  | shutdown
  | turn (worker : Nat) (turn : WorkerTurn)

namespace DecodePool

def new (workerCount : Nat) : DecodePool := ⟨.new workerCount, 0, []⟩

section
variable (decoder : Decoder) (limits : DecodeLimits) (capacity : Capacity)

/-- A step of the channels and the workers. -/
def act (s : DecodePool) (submitting : List DecodeCommand) (act : WorkersAct DecodeCommand) :
    Option (DecodePool × WorkersOut (DecodeResult RgbImage)) :=
  (s.channels.step (decodeResult decoder limits) capacity act).map fun (channels, out) =>
    ({ s with channels, submitting }, out)

/-- `shutdown` takes the pool, so no other call is under way then, and none comes after it. -/
def step (s : DecodePool) : DecodeAct → Option (DecodePool × WorkersOut (DecodeResult RgbImage))
  | .submit cameraId image =>
    if s.channels.closed then none
    else some ({ s with
      nextSequence := (s.nextSequence + 1) % 2 ^ 64
      submitting := s.submitting ++ [⟨s.nextSequence, cameraId, image⟩] }, .done)
  | .send caller taker =>
    match s.submitting[caller]? with
    | some cmd => s.act decoder limits capacity (s.submitting.eraseIdx caller) (.send cmd taker)
    | none => none
  | .receive sender =>
    if s.channels.closed then none else s.act decoder limits capacity s.submitting (.receive sender)
  | .shutdown => if s.submitting = [] then s.act decoder limits capacity [] .close else none
  | .turn worker turn => s.act decoder limits capacity s.submitting (.turn worker turn)

end

end DecodePool

def decodePool (decoder : Decoder) (limits : DecodeLimits) (capacity : Capacity) :
    Machine DecodePool DecodeAct (WorkersOut (DecodeResult RgbImage)) := ⟨DecodePool.step decoder limits capacity⟩

abbrev PoolRuns := History DecodePool DecodeAct (WorkersOut (DecodeResult RgbImage))

/-- The commands in the order in which their numbers were drawn. -/
def submitted : PoolRuns → List DecodeCommand
  | [] => []
  | e :: older => submitted older ++ match e.act with
    | .submit cameraId image => [⟨e.pre.nextSequence, cameraId, image⟩]
    | _ => []

/-- The results received, oldest first. -/
def received : PoolRuns → List (DecodeResult RgbImage)
  | [] => []
  | e :: older => received older ++ e.out.received

/-- Nothing is under way: every submission was answered. -/
def DecodePool.Idle (decoder : Decoder) (limits : DecodeLimits) (s : DecodePool) : Prop :=
  s.submitting = [] ∧ s.channels.due (decodeResult decoder limits) = []

/-! ### Where the pixels are -/

/-- A picture is the same in a slot of the arena and in a buffer of its own. -/
theorem picture_storePicture (slot : Option (List UInt8)) (stored : RgbImage) :
    picture (storePicture slot stored) = stored := by
  have own : picture (.rgb24 stored.width stored.height stored.data) = stored := by
    simp [picture, FrameBuffer.rgb24, FrameBuffer.fromOwned, FrameBuffer.data, FrameBufferInner.bytes]
  unfold storePicture
  split
  · exact own
  · split
    · simp [picture, FrameBuffer.fromArena, FrameBuffer.data, FrameBufferInner.bytes]
    · exact own

theorem decodeImage_picture (decoder : Decoder) (limits : DecodeLimits) (slot : Option (List UInt8))
    (image : ImageData) :
    (decodeImage decoder limits slot image).map (Option.map picture) = decodePicture decoder limits image := by
  unfold decodePicture decodeImage
  split
  · rfl
  split
  · cases decoder.decode image.data with
    | none => rfl
    | some stored =>
      cases checked : limits.check "Decoded image" stored.width stored.height stored.data.length with
      | error error => simp only [checked, bind, Except.bind, Except.map]
      | ok _ => simp only [checked, bind, Except.bind, Except.map, Option.map, picture_storePicture]
  · cases checked : limits.check "Image" image.width image.height
        (min (image.width.toNat * image.height.toNat * 3) (2 ^ 64 - 1)) with
    | error error => simp only [checked, bind, Except.bind, Except.map]
    | ok _ => simp only [checked, bind, Except.bind, Except.map, Option.map, picture_storePicture]

/-! ### Runs -/

section
variable {decoder : Decoder} {limits : DecodeLimits} {capacity : Capacity} {history : PoolRuns}
  {s s' : DecodePool} {out : WorkersOut (DecodeResult RgbImage)} {workerCount : Nat}

/-- What was received, what is with the channels and the workers and what is still to be sent are the
results of all submissions. -/
structure Kept (decoder : Decoder) (limits : DecodeLimits) (capacity : Capacity) (history : PoolRuns)
    (s : DecodePool) : Prop where
  sound : s.channels.Sound capacity
  staffed : s.channels.workers ≠ []
  next : s.nextSequence = (submitted history).length % 2 ^ 64
  numbers : (submitted history).map (·.sequence) = (List.range (submitted history).length).map (· % 2 ^ 64)
  all : (received history ++ (s.channels.due (decodeResult decoder limits) ++
    s.submitting.map (decodeResult decoder limits))).Perm ((submitted history).map (decodeResult decoder limits))
  alone : s.channels.closed = true → s.submitting = []

theorem kept_new (positive : 0 < workerCount) : Kept decoder limits capacity [] (.new workerCount) where
  sound := .initial workerCount
  staffed := by simp [DecodePool.new, WorkerPool.new, Nat.pos_iff_ne_zero.mp positive]
  next := rfl
  numbers := rfl
  all := by simp [received, submitted, DecodePool.new, due_new]
  alone closed := by cases closed

theorem act_move {submitting : List DecodeCommand} {act : WorkersAct DecodeCommand}
    (moved : s.act decoder limits capacity submitting act = some (s', out)) :
    WorkersMove (decodeResult decoder limits) capacity s.channels act out s'.channels := by
  obtain ⟨⟨channels, out'⟩, stepped, same⟩ := Option.map_eq_some_iff.mp moved
  cases same
  exact step_move stepped

/-- A step of the channels and the workers. -/
theorem Kept.act (kept : Kept decoder limits capacity history s) {call : DecodeAct}
    (quiet : ∀ cameraId image, call ≠ .submit cameraId image) {submitting : List DecodeCommand}
    {act : WorkersAct DecodeCommand} (moved : s.act decoder limits capacity submitting act = some (s', out))
    (left : (act.sent out ++ submitting).Perm s.submitting)
    (alone : s'.channels.closed = true → submitting = []) :
    Kept decoder limits capacity (⟨s, call, out, s'⟩ :: history) s' := by
  obtain ⟨⟨channels, out'⟩, stepped, same⟩ := Option.map_eq_some_iff.mp moved
  cases same
  have move := step_move stepped
  have quietly : submitted (⟨s, call, out, { s with channels, submitting }⟩ :: history) = submitted history := by
    cases call with
    | submit cameraId image => exact absurd rfl (quiet cameraId image)
    | send | receive | shutdown | turn => exact List.append_nil _
  refine ⟨kept.sound.moved move, ?_, by rw [quietly]; exact kept.next, by rw [quietly]; exact kept.numbers,
    ?_, alone⟩
  · intro empty
    have same := move.workers
    rw [empty] at same
    exact kept.staffed (List.eq_nil_of_length_eq_zero same.symm)
  · rw [quietly]
    refine .trans ?_ kept.all
    rw [received, List.append_assoc]
    refine List.Perm.append_left _ ?_
    rw [← List.append_assoc]
    refine (move.due.append_right _).trans ?_
    rw [List.append_assoc, ← List.map_append]
    exact (left.map _).append_left _

theorem Kept.step (kept : Kept decoder limits capacity history s) {call : DecodeAct}
    (moved : s.step decoder limits capacity call = some (s', out)) :
    Kept decoder limits capacity (⟨s, call, out, s'⟩ :: history) s' := by
  cases call with
  | submit cameraId image =>
    simp only [DecodePool.step] at moved
    split at moved
    · cases moved
    · rename_i stillOpen
      cases moved
      refine ⟨kept.sound, kept.staffed, ?_, ?_, ?_, fun closed => absurd closed stillOpen⟩
      · simp [submitted, kept.next]
      · simp [submitted, kept.numbers, kept.next, List.range_succ]
      · simp only [received, WorkersOut.received, submitted, List.append_nil, List.map_append, List.map_cons,
          List.map_nil]
        rw [← List.append_assoc, ← List.append_assoc]
        exact (by simpa only [List.append_assoc] using kept.all.append_right _)
  | send caller taker =>
    simp only [DecodePool.step] at moved
    split at moved
    · rename_i cmd drawn
      obtain ⟨before, after, whole, -, erased⟩ := exists_split drawn
      have move := act_move moved
      have done : out = .done := kept.sound.sends kept.staffed move
      refine kept.act (fun _ _ => by simp) moved ?_ fun closed => ?_
      · rw [done, erased, whole]
        show (cmd :: (before ++ after)).Perm _
        exact List.perm_middle.symm
      · have still := move.closed_eq (by simp)
        rw [kept.alone (still.symm.trans closed)] at drawn
        cases drawn
    · cases moved
  | receive sender =>
    simp only [DecodePool.step] at moved
    split at moved
    · cases moved
    · rename_i stillOpen
      have still := (act_move moved).closed_eq (by simp)
      exact kept.act (fun _ _ => by simp) moved (.refl _) fun closed =>
        absurd (still.symm.trans closed) stillOpen
  | shutdown =>
    simp only [DecodePool.step] at moved
    split at moved
    · rename_i none_
      exact kept.act (fun _ _ => by simp) moved (.of_eq none_.symm) fun _ => rfl
    · cases moved
  | turn worker turn =>
    have still := (act_move moved).closed_eq (by simp)
    exact kept.act (fun _ _ => by simp) moved (.refl _) fun closed => kept.alone (still.symm.trans closed)

theorem kept (positive : 0 < workerCount)
    (run : Run (decodePool decoder limits capacity) (.new workerCount) history s) :
    Kept decoder limits capacity history s :=
  run.history_invariant (kept_new positive) fun _ _ _ _ _ _ before moved => before.step moved

/-! ### The results in their order -/

namespace Kept

/-- A command's number is its place among the submissions. -/
theorem placed (kept : Kept decoder limits capacity history s)
    (fits : (submitted history).length ≤ 2 ^ 64) :
    (submitted history).map (·.sequence) = List.range (submitted history).length := by
  refine kept.numbers.trans ((List.map_congr_left fun i member => ?_).trans (List.map_id _))
  exact Nat.mod_eq_of_lt ((List.mem_range.mp member).trans_le fits)

theorem sequence_eq (kept : Kept decoder limits capacity history s)
    (fits : (submitted history).length ≤ 2 ^ 64) {i : Nat} {cmd : DecodeCommand}
    (sent : (submitted history)[i]? = some cmd) : cmd.sequence = i := by
  have place := congrArg (·[i]?) (kept.placed fits)
  simp only [List.getElem?_map, sent, Option.map_some] at place
  obtain ⟨_, same⟩ := List.getElem?_eq_some_iff.mp place.symm
  rw [← same, List.getElem_range]

/-- A result is that of the command with its number. -/
theorem genuine (kept : Kept decoder limits capacity history s)
    (fits : (submitted history).length ≤ 2 ^ 64) {result : DecodeResult RgbImage}
    (member : result ∈ received history) : ∃ cmd, (submitted history)[result.sequence]? = some cmd ∧
      result = decodeResult decoder limits cmd := by
  obtain ⟨cmd, sent, rfl⟩ := List.mem_map.mp (kept.all.subset (List.mem_append_left _ member))
  obtain ⟨i, held⟩ := List.mem_iff_getElem?.mp sent
  refine ⟨cmd, ?_, rfl⟩
  show (submitted history)[cmd.sequence]? = some cmd
  rw [kept.sequence_eq fits held]
  exact held

/-- No result is received twice. -/
theorem numbered (kept : Kept decoder limits capacity history s)
    (fits : (submitted history).length ≤ 2 ^ 64) :
    Numbered (submitted history).length (received history) where
  distinct := by
    have all := kept.all.map (·.sequence)
    have distinct : (((submitted history).map (decodeResult decoder limits)).map (·.sequence)).Nodup := by
      rw [List.map_map]
      show ((submitted history).map (·.sequence)).Nodup
      rw [kept.placed fits]
      exact List.nodup_range
    rw [List.map_append] at all
    exact (List.nodup_append.mp (all.nodup_iff.mpr distinct)).1
  below result member := by
    obtain ⟨cmd, sent, -⟩ := kept.genuine fits member
    exact (List.getElem?_eq_some_iff.mp sent).1

end Kept

/-- The pixels are the same whichever slot of an arena they are put in. Whatever the schedule of the
callers and the workers, a collector of the results gives back what decoding the images one after the
other would, and all of it once every submission was answered and nothing is ready. -/
theorem parallel_decoding (positive : 0 < workerCount)
    (run : Run (decodePool decoder limits capacity) (.new workerCount) history s)
    (fits : (submitted history).length ≤ 2 ^ 64)
    {collecting : DecodeHistory (FifoCollector RgbImage) RgbImage} {collector : FifoCollector RgbImage}
    (collects : Run fifoCollector .new collecting collector)
    (came : arrived collecting <+: received history) :
    (∀ slot cmd, (decodeImage decoder limits slot cmd.image).map (Option.map picture) =
      (decodeResult decoder limits cmd).result) ∧
    returned collecting =
      ((submitted history).take (returned collecting).length).map (decodeResult decoder limits) ∧
    (s.Idle decoder limits → arrived collecting = received history → collector.hasReady = false →
      returned collecting = (submitted history).map (decodeResult decoder limits)) := by
  have kept := kept positive run
  obtain ⟨later, whole⟩ := came
  have numbered : Numbered (submitted history).length (arrived collecting ++ later) := by
    rw [whole]
    exact kept.numbered fits
  have now := collected collects fits numbered.mono
  have inOrder : returned collecting =
      ((submitted history).take (returned collecting).length).map (decodeResult decoder limits) := by
    refine List.ext_getElem? fun i => ?_
    cases held : (returned collecting)[i]? with
    | none =>
      have past := List.getElem?_eq_none_iff.mp held
      refine (List.getElem?_eq_none ?_).symm
      rw [List.length_map, List.length_take]
      omega
    | some result =>
      have early := (List.getElem?_eq_some_iff.mp held).1
      have place := congrArg (·[i]?) now.order
      simp only [List.getElem?_map, held, Option.map_some, List.getElem?_range early, Option.some.injEq] at place
      have listed : result ∈ received history :=
        whole ▸ List.mem_append_left _ (now.genuine _ (List.mem_of_getElem? held))
      obtain ⟨cmd, sent, same⟩ := kept.genuine fits listed
      rw [place] at sent
      rw [List.getElem?_map, List.getElem?_take_of_lt early, sent, Option.map_some, same]
  refine ⟨fun slot cmd => decodeImage_picture decoder limits slot cmd.image, inOrder, fun idle all ready => ?_⟩
  have enough : (submitted history).length ≤ (returned collecting).length := by
    refine not_lt.mp fun more => ?_
    have sent := List.getElem?_eq_getElem more
    have everything : (received history).Perm ((submitted history).map (decodeResult decoder limits)) := by
      simpa [idle.1, idle.2] using kept.all
    have member := everything.symm.subset (List.mem_map_of_mem (List.getElem_mem more))
    have popped := (now.pop_iff numbered.mono fits _).mpr ⟨all ▸ member, kept.sequence_eq fits sent⟩
    rw [FifoCollector.hasReady_eq, popped] at ready
    cases ready
  exact inOrder.trans (by rw [List.take_of_length_le enough])

end

/-- Two images of different colors. -/
def twoImages : List DecodeAct :=
  [.submit "left" ⟨1, 1, [7, 8, 9], false⟩, .submit "left" ⟨1, 1, [1, 2, 3], false⟩, .send 0 none,
    .send 0 none]

/-- What the workers make of them. -/
def twoResults : List (DecodeResult RgbImage) :=
  [⟨0, "left", .ok (some ⟨1, 1, [7, 8, 9]⟩)⟩, ⟨1, "left", .ok (some ⟨1, 1, [1, 2, 3]⟩)⟩]

/-- The second worker overtakes the first one. -/
theorem overtaken_image_in_order : ∃ (history : PoolRuns) (s : DecodePool)
    (collecting : DecodeHistory (FifoCollector RgbImage) RgbImage) (collector : FifoCollector RgbImage),
    Run (decodePool rawOnly ⟨0, 0, 0⟩ ⟨2, 2⟩) (.new 2) history s ∧
      Run fifoCollector .new collecting collector ∧ received history = twoResults.reverse ∧
      returned collecting = (submitted history).map (decodeResult rawOnly ⟨0, 0, 0⟩) := by
  obtain ⟨history, s, run, seen⟩ := Run.of_observation
    (decodePool rawOnly ⟨0, 0, 0⟩ ⟨2, 2⟩) (DecodePool.new 2)
    (twoImages ++ [.turn 0 .take, .turn 1 .take, .turn 1 .work, .turn 1 .deliver, .receive none,
      .turn 0 .work, .turn 0 .deliver, .receive none])
    (fun reached => ((submitted reached.1).length, received reached.1, reached.2.submitting,
      reached.2.channels.due (decodeResult rawOnly ⟨0, 0, 0⟩)))
    (2, twoResults.reverse, [], []) rfl
  obtain ⟨collecting, collector, collects, shown⟩ := Run.of_observation fifoCollector FifoCollector.new
    [.arrive ⟨1, "left", .ok (some ⟨1, 1, [1, 2, 3]⟩)⟩, .ask,
      .arrive ⟨0, "left", .ok (some ⟨1, 1, [7, 8, 9]⟩)⟩, .ask, .ask]
    (fun reached => (arrived reached.1, reached.2.hasReady)) (twoResults.reverse, false) rfl
  simp only [Prod.mk.injEq] at seen shown
  obtain ⟨two, got, sent, answered⟩ := seen
  obtain ⟨came, ready⟩ := shown
  have all : arrived collecting = received history := came.trans got.symm
  refine ⟨history, s, collecting, collector, run, collects, got, ?_⟩
  have came' : arrived collecting <+: received history := ⟨[], by rw [all, List.append_nil]⟩
  have fits : (submitted history).length ≤ 2 ^ 64 := by
    rw [two]
    norm_num
  exact (parallel_decoding (by decide) run fits collects came').2.2 ⟨sent, answered⟩ all ready

/-! ### The convert pool -/

section
variable {arch : TargetArch} {strategy : ConversionStrategy} {target : TargetFormat} {zeroCopy : Bool}

/-- A command whose conversion has a result. -/
structure ConvertCommand (arch : TargetArch) (strategy : ConversionStrategy) (target : TargetFormat)
    (zeroCopy : Bool) where
  sequence : Nat
  cameraId : String
  frames : List DecodedFrame
  converts : (target.convertFrames arch strategy zeroCopy frames).isSome

structure ConvertResult where
  sequence : Nat
  cameraId : String
  result : Except String (List ConvertedFrameZeroCopy)

/-- What `convert_worker_loop` sends for a command. -/
def convertResult (cmd : ConvertCommand arch strategy target zeroCopy) : ConvertResult :=
  ⟨cmd.sequence, cmd.cameraId, (target.convertFrames arch strategy zeroCopy cmd.frames).get cmd.converts⟩

/-- `submit` sends a command that has its number already. -/
def convertPool (arch : TargetArch) (strategy : ConversionStrategy) (target : TargetFormat) (zeroCopy : Bool)
    (capacity : Capacity) :
    Machine (WorkerPool (ConvertCommand arch strategy target zeroCopy) ConvertResult)
      (WorkersAct (ConvertCommand arch strategy target zeroCopy)) (WorkersOut ConvertResult) :=
  workerPool convertResult capacity

end

/-! ### `shutdown` -/

theorem decodePool_shutdown {decoder : Decoder} {limits : DecodeLimits} {capacity : Capacity}
    {history : PoolRuns} {s : DecodePool} {workerCount : Nat} (positive : 0 < workerCount)
    (run : Run (decodePool decoder limits capacity) (.new workerCount) history s)
    (shut : s.channels.closed = true)
    {alone : History (WorkerPool DecodeCommand (DecodeResult RgbImage)) (Nat × WorkerTurn)
      (WorkersOut (DecodeResult RgbImage))} {channels : WorkerPool DecodeCommand (DecodeResult RgbImage)}
    (ending : Run (workersOf (decodeResult decoder limits) capacity) s.channels alone channels) :
    alone.length ≤ s.channels.turnsLeft ∧
      ((∀ act, (workersOf (decodeResult decoder limits) capacity).step channels act = none) →
        (channels.Finished ↔
          (submitted history).length ≤ (received history).length + capacity.completed)) := by
  have kept := kept positive run
  obtain ⟨bounded, ends⟩ := kept.sound.ends shut ending
  refine ⟨bounded, fun stuck => (ends stuck).trans ?_⟩
  have count := kept.all.length_eq
  simp only [kept.alone shut, List.map_nil, List.append_nil, List.length_append, List.length_map] at count
  omega

/-- `shutdown` waits for the workers, which come to an end in whatever order they run. It returns if
and only if the results that nobody has received by then fit into their channel. -/
theorem shutdown_returns_iff (workerCount : Nat) (positive : 0 < workerCount) (capacity : Capacity) :
    (∀ (decoder : Decoder) (limits : DecodeLimits) (history : PoolRuns) (s : DecodePool),
      Run (decodePool decoder limits capacity) (.new workerCount) history s → s.channels.closed = true →
      ∀ alone channels, Run (workersOf (decodeResult decoder limits) capacity) s.channels alone channels →
        alone.length ≤ s.channels.turnsLeft ∧
        ((∀ act, (workersOf (decodeResult decoder limits) capacity).step channels act = none) →
          (channels.Finished ↔
            (submitted history).length ≤ (received history).length + capacity.completed))) ∧
    ∀ (arch : TargetArch) (strategy : ConversionStrategy) (target : TargetFormat) (zeroCopy : Bool)
      (history : WorkersHistory (ConvertCommand arch strategy target zeroCopy) ConvertResult)
      (pool : WorkerPool (ConvertCommand arch strategy target zeroCopy) ConvertResult),
      Run (convertPool arch strategy target zeroCopy capacity) (.new workerCount) history pool →
      pool.closed = true →
      ∀ alone channels, Run (workersOf convertResult capacity) pool alone channels →
        alone.length ≤ pool.turnsLeft ∧
        ((∀ act, (workersOf convertResult capacity).step channels act = none) →
          (channels.Finished ↔
            (sentJobs history).length ≤ (receivedResults history).length + capacity.completed)) :=
  ⟨fun _ _ _ _ run shut _ _ ending => decodePool_shutdown positive run shut ending,
    fun _ _ _ _ _ _ run shut _ _ ending => WorkerPool.closed_ends run shut ending⟩

/-- One worker, room for one result, and two images that nobody asks for. -/
theorem shutdown_hangs : ∃ (history : PoolRuns) (s : DecodePool),
    Run (decodePool rawOnly ⟨0, 0, 0⟩ ⟨2, 1⟩) (.new 1) history s ∧ s.channels.closed = true ∧
      ∃ alone channels,
        Run (workersOf (decodeResult rawOnly ⟨0, 0, 0⟩) ⟨2, 1⟩) s.channels alone channels ∧
        (∀ act, (workersOf (decodeResult rawOnly ⟨0, 0, 0⟩) ⟨2, 1⟩).step channels act = none) ∧
        ¬channels.Finished := by
  obtain ⟨history, s, run, seen⟩ := Run.of_observation
    (decodePool rawOnly ⟨0, 0, 0⟩ ⟨2, 1⟩) (DecodePool.new 1)
    (twoImages ++ [.turn 0 .take, .shutdown])
    (fun reached => ((submitted reached.1).length, (received reached.1).length, reached.2.channels))
    (2, 0, ⟨[⟨1, "left", ⟨1, 1, [1, 2, 3], false⟩⟩],
      [.working ⟨0, "left", ⟨1, 1, [7, 8, 9], false⟩⟩], [], true⟩) rfl
  simp only [Prod.mk.injEq] at seen
  obtain ⟨two, none_, waiting⟩ := seen
  obtain ⟨alone, channels, ending, left⟩ := Run.of_observation
    (workersOf (decodeResult rawOnly ⟨0, 0, 0⟩) ⟨2, 1⟩) s.channels
    [(0, .work), (0, .deliver), (0, .take), (0, .work)] Prod.snd
    ⟨[], [.sending ⟨1, "left", .ok (some ⟨1, 1, [1, 2, 3]⟩)⟩],
      [⟨0, "left", .ok (some ⟨1, 1, [7, 8, 9]⟩)⟩], true⟩ (by rw [waiting]; rfl)
  have stuck : ∀ act, (workersOf (decodeResult rawOnly ⟨0, 0, 0⟩) ⟨2, 1⟩).step channels act = none := by
    dsimp only at left
    rw [left]
    rintro ⟨_ | i, turn⟩ <;> cases turn <;> rfl
  have shut : s.channels.closed = true := by rw [waiting]
  refine ⟨history, s, run, shut, alone, channels, ending, stuck, fun finished => ?_⟩
  have fits := (((shutdown_returns_iff 1 (by decide) ⟨2, 1⟩).1 _ _ history s run shut alone channels ending).2
    stuck).mp finished
  rw [two, none_] at fits
  exact absurd fits (by decide)

end Roboflow.Media.Decode
