import Roboflow.Library.Kv
import Roboflow.Library.Machine

/-! Decoded images back in the order of their submission, `video/decode.rs`: `recv_ordered` of the
pool with the caller's buffer, and `FifoCollector`. The workers send their results in any
order, and the channel keeps the order in which they were sent. -/
namespace Roboflow.Media.Decode
open Library

structure DecodeResult (Frame : Type) where
  sequence : Nat
  cameraId : String
  result : Except String (Option Frame)

variable {Frame σ : Type}

/-! ### The two ways to receive -/

/-- `recv_ordered` once it has received a result. The look at the buffer before that changes
nothing. -/
def release (buffer : Kv Nat (DecodeResult Frame)) (result : DecodeResult Frame) :
    Kv Nat (DecodeResult Frame) × Option (DecodeResult Frame) :=
  let buffer := buffer.put result.sequence result
  match buffer.entries.head? with
  | none => (buffer, none)
  | some (minSeq, _) =>
    match buffer.get minSeq with
    | some result => (buffer.delete minSeq, some result)
    | none => (buffer, none)

/-- The result channel of a live pool and the buffer of the only caller. -/
structure OrderedReceiver (Frame : Type) where
  completed : List (DecodeResult Frame)
  buffer : Kv Nat (DecodeResult Frame)

namespace OrderedReceiver

def new : OrderedReceiver Frame := ⟨[], .empty⟩

/-- `recv_ordered`, which waits while the channel is empty. -/
def recvOrdered (receiver : OrderedReceiver Frame) :
    Option (OrderedReceiver Frame × Option (DecodeResult Frame)) :=
  match receiver.completed with
  | [] => none
  | result :: completed =>
    let (buffer, released) := release receiver.buffer result
    some (⟨completed, buffer⟩, released)

end OrderedReceiver

structure FifoCollector (Frame : Type) where
  buffer : Kv Nat (DecodeResult Frame)
  nextExpected : Nat

namespace FifoCollector

def new : FifoCollector Frame := ⟨.empty, 0⟩

def push (collector : FifoCollector Frame) (result : DecodeResult Frame) : FifoCollector Frame :=
  { collector with buffer := collector.buffer.put result.sequence result }

def pop (collector : FifoCollector Frame) : FifoCollector Frame × Option (DecodeResult Frame) :=
  match collector.buffer.get collector.nextExpected with
  | some result =>
    (⟨collector.buffer.delete collector.nextExpected, (collector.nextExpected + 1) % 2 ^ 64⟩,
      some result)
  | none => (collector, none)

def bufferSize (collector : FifoCollector Frame) : Nat := collector.buffer.entries.length

def hasReady (collector : FifoCollector Frame) : Bool :=
  (collector.buffer.get collector.nextExpected).isSome

/-- A result is ready exactly if one can be popped. -/
theorem hasReady_eq (collector : FifoCollector Frame) :
    collector.hasReady = collector.pop.2.isSome := by
  unfold hasReady pop
  cases collector.buffer.get collector.nextExpected <;> rfl

end FifoCollector

/-- A worker's result comes in, or the caller asks for the next one. -/
inductive Event (Frame : Type) where
  | arrive (result : DecodeResult Frame)
  | ask

def orderedReceiver : Machine (OrderedReceiver Frame) (Event Frame) (Option (DecodeResult Frame)) where
  step receiver
    | .arrive result =>
      some ({ receiver with completed := receiver.completed ++ [result] }, none)
    | .ask => receiver.recvOrdered

def fifoCollector : Machine (FifoCollector Frame) (Event Frame) (Option (DecodeResult Frame)) where
  step collector
    | .arrive result => some (collector.push result, none)
    | .ask => some collector.pop

/-! ### What a caller sees -/

abbrev DecodeHistory (σ Frame : Type) := History σ (Event Frame) (Option (DecodeResult Frame))

def Event.arrival : Event Frame → Option (DecodeResult Frame)
  | .arrive result => some result
  | .ask => none

/-- The results that have come in, oldest first. -/
def arrived : DecodeHistory σ Frame → List (DecodeResult Frame)
  | [] => []
  | e :: older => arrived older ++ e.act.arrival.toList

/-- The results that were returned, oldest first. -/
def returned : DecodeHistory σ Frame → List (DecodeResult Frame)
  | [] => []
  | e :: older => returned older ++ e.out.toList

def asked : DecodeHistory σ Frame → Nat
  | [] => 0
  | e :: older => asked older + if e.act.arrival.isNone then 1 else 0

/-- Results of the first `n` submissions, none of them twice. -/
structure Numbered (n : Nat) (results : List (DecodeResult Frame)) : Prop where
  distinct : (results.map (·.sequence)).Nodup
  below : ∀ result ∈ results, result.sequence < n

/-- What is returned are the results in the order of their submission, and whoever asks when the
next one has come in gets it, without waiting. -/
structure SubmissionOrder (m : Machine σ (Event Frame) (Option (DecodeResult Frame)))
    (history : DecodeHistory σ Frame) (s : σ) : Prop where
  order : (returned history).map (·.sequence) = List.range (returned history).length
  genuine : ∀ result ∈ returned history, result ∈ arrived history
  prompt : ∀ newer e older, history = newer ++ e :: older → e.act = .ask →
    ∀ result ∈ arrived older, result.sequence = (returned older).length → e.out = some result
  answered : ∀ result ∈ arrived history, result.sequence = (returned history).length →
    (m.step s .ask).isSome

variable {results : List (DecodeResult Frame)}

theorem arrived_append (newer older : DecodeHistory σ Frame) :
    arrived (newer ++ older) = arrived older ++ arrived newer := by
  induction newer with
  | nil => simp [arrived]
  | cons e newer ih => simp only [List.cons_append, arrived, ih, List.append_assoc]

theorem returned_append (newer older : DecodeHistory σ Frame) :
    returned (newer ++ older) = returned older ++ returned newer := by
  induction newer with
  | nil => simp [returned]
  | cons e newer ih => simp only [List.cons_append, returned, ih, List.append_assoc]

namespace Numbered

theorem mono {others : List (DecodeResult Frame)} (numbered : Numbered n (results ++ others)) :
    Numbered n results where
  distinct := by
    have both := numbered.distinct
    rw [List.map_append] at both
    exact (List.nodup_append.mp both).1
  below result member := numbered.below result (List.mem_append_left _ member)

theorem unique {result other : DecodeResult Frame} (numbered : Numbered n results)
    (member : result ∈ results) (listed : other ∈ results)
    (same : result.sequence = other.sequence) : result = other :=
  List.inj_on_of_nodup_map numbered.distinct member listed same

end Numbered

/-! ### `recv_ordered` returns what it receives -/

section
variable {history : DecodeHistory (OrderedReceiver Frame) Frame} {receiver : OrderedReceiver Frame}

/-- Nothing stays in an empty buffer: its lowest result is the one just received. -/
theorem release_empty (result : DecodeResult Frame) : release .empty result = (.empty, some result) := by
  have first : ((Kv.empty : Kv Nat (DecodeResult Frame)).put result.sequence result).entries.head? =
      some (result.sequence, result) := rfl
  simp only [release, first, Kv.get_put_self, Prod.mk.injEq, and_true]
  refine Kv.ext_get fun key => ?_
  rw [Kv.get_delete, Kv.get_put]
  split <;> rfl

/-- The buffer is empty, and the channel holds what was not returned. -/
structure PassedThrough (history : DecodeHistory (OrderedReceiver Frame) Frame)
    (receiver : OrderedReceiver Frame) : Prop where
  buffer : receiver.buffer = .empty
  all : arrived history = returned history ++ receiver.completed
  count : (returned history).length = asked history

theorem passedThrough (run : Run orderedReceiver .new history receiver) :
    PassedThrough history receiver := by
  refine run.history_invariant ⟨rfl, rfl, rfl⟩ ?_
  rintro history ⟨completed, buffer⟩ (result | _) next out - ⟨rfl, all, count⟩ moved
  · obtain ⟨rfl, rfl⟩ := Prod.mk.inj (Option.some.inj moved)
    refine ⟨rfl, ?_, ?_⟩
    · simp [arrived, returned, Event.arrival, all]
    · simpa [returned, asked, Event.arrival] using count
  · cases completed with
    | nil => cases moved
    | cons result completed =>
      simp only [orderedReceiver, OrderedReceiver.recvOrdered, release_empty] at moved
      obtain ⟨rfl, rfl⟩ := Prod.mk.inj (Option.some.inj moved)
      refine ⟨rfl, ?_, ?_⟩
      · simpa [arrived, returned, Event.arrival] using all
      · simpa [returned, asked, Event.arrival] using count

/-- The pool returns the results in the order of their submission exactly as far as the workers
send them in it. -/
theorem recvOrdered_submission_order_iff (run : Run orderedReceiver .new history receiver)
    (numbered : Numbered n (arrived history)) :
    SubmissionOrder orderedReceiver history receiver ↔
      ((arrived history).take (asked history)).map (·.sequence) = List.range (asked history) := by
  have passed := passedThrough run
  have taken : (arrived history).take (asked history) = returned history := by
    rw [passed.all, ← passed.count, List.take_left]
  rw [taken, ← passed.count]
  refine ⟨SubmissionOrder.order, fun inOrder => ⟨inOrder, ?_, ?_, ?_⟩⟩
  · intro result member
    rw [passed.all]
    exact List.mem_append_left _ member
  · rintro newer ⟨⟨completed, buffer⟩, _, out, next⟩ older rfl rfl result member awaited
    obtain ⟨before, moved⟩ := run.split
    obtain ⟨rfl, all, -⟩ := passedThrough before
    cases completed with
    | nil => cases moved
    | cons first completed =>
      simp only [orderedReceiver, OrderedReceiver.recvOrdered, release_empty] at moved
      obtain ⟨-, rfl⟩ := Prod.mk.inj (Option.some.inj moved)
      have position := congrArg (·[(returned older).length]?) inOrder
      simp only [returned_append, returned, Option.toList_some, List.append_assoc, List.map_append,
        List.length_append] at position
      rw [List.getElem?_append_right (by simp)] at position
      have listed : first ∈ arrived older := by simp [all]
      rw [arrived_append, arrived, List.append_assoc] at numbered
      refine congrArg some (numbered.mono.unique listed member ?_)
      simp at position
      omega
  · intro result member awaited
    have waiting : result ∈ receiver.completed := by
      rw [passed.all] at member
      refine (List.mem_append.mp member).resolve_left fun listed => ?_
      have below : result.sequence ∈ List.range (returned history).length :=
        inOrder ▸ List.mem_map_of_mem listed
      have := List.mem_range.mp below
      omega
    obtain ⟨completed, buffer⟩ := receiver
    obtain ⟨first, rest, rfl⟩ := List.exists_cons_of_ne_nil (List.ne_nil_of_mem waiting)
    rfl

end

/-! ### The collector puts them in order -/

section
variable {history : DecodeHistory (FifoCollector Frame) Frame} {collector : FifoCollector Frame}

/-- The buffer has what came in and was not returned, and the next number is that of the results
returned so far. -/
structure Collected (history : DecodeHistory (FifoCollector Frame) Frame)
    (collector : FifoCollector Frame) : Prop where
  order : (returned history).map (·.sequence) = List.range (returned history).length
  genuine : ∀ result ∈ returned history, result ∈ arrived history
  next : collector.nextExpected = (returned history).length % 2 ^ 64
  buffer : ∀ key result, collector.buffer.get key = some result ↔
    result ∈ arrived history ∧ result.sequence = key ∧ (returned history).length ≤ key

namespace Collected

/-- What a call of `pop` returns. -/
theorem pop_iff (collected : Collected history collector) (numbered : Numbered n (arrived history))
    (fits : n ≤ 2 ^ 64) (result : DecodeResult Frame) :
    collector.pop.2 = some result ↔
      result ∈ arrived history ∧ result.sequence = (returned history).length := by
  have popped : collector.pop.2 = collector.buffer.get collector.nextExpected := by
    unfold FifoCollector.pop
    cases collector.buffer.get collector.nextExpected <;> rfl
  rw [popped, collected.buffer, collected.next]
  constructor
  · rintro ⟨member, same, late⟩
    refine ⟨member, ?_⟩
    have := Nat.mod_le (returned history).length (2 ^ 64)
    omega
  · rintro ⟨member, same⟩
    have below := numbered.below result member
    rw [Nat.mod_eq_of_lt (by omega)]
    exact ⟨member, same, le_rfl⟩

theorem push (collected : Collected history collector) {result : DecodeResult Frame}
    (numbered : Numbered n (arrived history ++ [result])) :
    Collected (⟨collector, .arrive result, none, collector.push result⟩ :: history)
      (collector.push result) := by
  have fresh : ∀ other ∈ arrived history, other.sequence ≠ result.sequence := by
    intro other member same
    have distinct := numbered.distinct
    rw [List.map_append] at distinct
    refine (List.nodup_append.mp distinct).2.2 _ (List.mem_map_of_mem member) _ ?_ same
    simp
  have late : (returned history).length ≤ result.sequence := by
    refine not_lt.mp fun early => ?_
    have listed : result.sequence ∈ (returned history).map (·.sequence) := by
      rw [collected.order]
      exact List.mem_range.mpr early
    obtain ⟨other, member, same⟩ := List.mem_map.mp listed
    exact fresh other (collected.genuine other member) same
  refine ⟨?_, ?_, ?_, ?_⟩
  · simpa [returned] using collected.order
  · intro other member
    simp only [returned, Option.toList_none, List.append_nil] at member
    exact List.mem_append_left _ (collected.genuine other member)
  · simpa [returned, FifoCollector.push] using collected.next
  · intro key other
    simp only [FifoCollector.push, Kv.get_put, arrived, Event.arrival, Option.toList_some, returned,
      Option.toList_none, List.append_nil, List.mem_append, List.mem_singleton]
    split
    · rename_i same
      constructor
      · rintro ⟨⟩
        exact ⟨.inr rfl, same.symm, same ▸ late⟩
      · rintro ⟨listed | rfl, named, -⟩
        · exact absurd (named.trans same) (fresh other listed)
        · rfl
    · rename_i different
      rw [collected.buffer]
      constructor
      · rintro ⟨listed, named⟩
        exact ⟨.inl listed, named⟩
      · rintro ⟨listed | rfl, named, held⟩
        · exact ⟨listed, named, held⟩
        · exact absurd named.symm different

theorem pop (collected : Collected history collector) (numbered : Numbered n (arrived history))
    (fits : n ≤ 2 ^ 64) :
    Collected (⟨collector, .ask, collector.pop.2, collector.pop.1⟩ :: history) collector.pop.1 := by
  have popped := collected.pop_iff numbered fits
  unfold FifoCollector.pop at popped ⊢
  cases found : collector.buffer.get collector.nextExpected with
  | none =>
    refine ⟨?_, ?_, ?_, ?_⟩
    · simpa [returned] using collected.order
    · simpa [returned, arrived, Event.arrival] using collected.genuine
    · simpa [returned] using collected.next
    · simpa [returned, arrived, Event.arrival] using collected.buffer
  | some result =>
    rw [found] at popped
    obtain ⟨member, same⟩ := (popped result).mp rfl
    have below := numbered.below result member
    have next : collector.nextExpected = (returned history).length := by
      rw [collected.next, Nat.mod_eq_of_lt (by omega)]
    refine ⟨?_, ?_, ?_, ?_⟩
    · simp [returned, collected.order, same, List.range_succ]
    · intro other listed
      simp only [returned, Option.toList_some, List.mem_append, List.mem_singleton] at listed
      simp only [arrived, Event.arrival, Option.toList_none, List.append_nil]
      obtain listed | rfl := listed
      · exact collected.genuine other listed
      · exact member
    · simp [returned, next]
    · intro key other
      simp only [Kv.get_delete, next, arrived, Event.arrival, Option.toList_none, List.append_nil,
        returned, Option.toList_some, List.length_append, List.length_singleton]
      split
      · rename_i equal
        subst equal
        simp
      · rename_i different
        rw [collected.buffer]
        constructor
        · rintro ⟨listed, named, held⟩
          exact ⟨listed, named, by omega⟩
        · rintro ⟨listed, named, held⟩
          exact ⟨listed, named, by omega⟩

end Collected

theorem collected (run : Run fifoCollector .new history collector) (fits : n ≤ 2 ^ 64)
    (numbered : Numbered n (arrived history)) : Collected history collector := by
  induction run with
  | start =>
    refine ⟨rfl, by simp [returned], rfl, fun key result => ?_⟩
    simp [FifoCollector.new, arrived]
  | @next history s action s' out before moved ih =>
    have earlier := ih numbered.mono
    cases action with
    | arrive result =>
      obtain ⟨rfl, rfl⟩ := Prod.mk.inj (Option.some.inj moved)
      exact earlier.push numbered
    | ask =>
      have popped : s.pop = (s', out) := Option.some.inj moved
      have after := earlier.pop numbered.mono fits
      rwa [popped] at after

/-- A collector gives the results back in the order of their submission, in whatever order they
come in and whenever it is asked. -/
theorem fifoCollector_submission_order (run : Run fifoCollector .new history collector)
    (fits : n ≤ 2 ^ 64) (numbered : Numbered n (arrived history)) :
    SubmissionOrder fifoCollector history collector := by
  have now := collected run fits numbered
  refine ⟨now.order, now.genuine, ?_, fun _ _ _ => rfl⟩
  rintro newer ⟨before, _, out, after⟩ older rfl rfl result member awaited
  obtain ⟨earlier, moved⟩ := run.split
  rw [arrived_append, arrived, List.append_assoc] at numbered
  have early := numbered.mono
  obtain rfl : before.pop.2 = out := congrArg Prod.snd (Option.some.inj moved)
  exact ((collected earlier fits early).pop_iff early fits result).mpr ⟨member, awaited⟩

end

/-- Whatever the order in which up to `n` results come in and the points at which they are asked
for: the collector returns them in the order of their submission, the pool exactly where those it
was asked for came in that order. -/
theorem submission_order_iff (n : Nat) (fits : n ≤ 2 ^ 64) :
    (∀ (history : DecodeHistory (OrderedReceiver Frame) Frame) receiver,
      Run orderedReceiver .new history receiver → Numbered n (arrived history) →
      (SubmissionOrder orderedReceiver history receiver ↔
        ((arrived history).take (asked history)).map (·.sequence) = List.range (asked history))) ∧
    ∀ (history : DecodeHistory (FifoCollector Frame) Frame) collector,
      Run fifoCollector .new history collector → Numbered n (arrived history) →
      SubmissionOrder fifoCollector history collector :=
  ⟨fun _ _ run numbered => recvOrdered_submission_order_iff run numbered,
    fun _ _ run numbered => fifoCollector_submission_order run fits numbered⟩

/-- The result of an image without a frame. -/
def noFrame (sequence : Nat) : DecodeResult Unit := ⟨sequence, "cam0", .ok none⟩

theorem numbered_noFrames : Numbered 2 [noFrame 1, noFrame 0] :=
  ⟨by simp [noFrame], by simp [noFrame]⟩

theorem submission_order_two :
    ∃ history collector, Run fifoCollector .new history collector ∧
      arrived history = [noFrame 1, noFrame 0] ∧ returned history = [noFrame 0, noFrame 1] ∧
      SubmissionOrder fifoCollector history collector := by
  obtain ⟨history, collector, run, seen⟩ := Run.of_observation fifoCollector FifoCollector.new
    [.arrive (noFrame 1), .ask, .arrive (noFrame 0), .ask, .ask]
    (fun reached => (arrived reached.1, returned reached.1))
    ([noFrame 1, noFrame 0], [noFrame 0, noFrame 1]) rfl
  obtain ⟨came, went⟩ := Prod.mk.inj seen
  refine ⟨history, collector, run, came, went, ?_⟩
  exact (submission_order_iff 2 (by norm_num)).2 history collector run (came ▸ numbered_noFrames)

/-- A worker overtakes another one, and the second image is returned first. -/
theorem overtaken_result_late :
    ¬∀ (history : DecodeHistory (OrderedReceiver Unit) Unit) receiver,
      Run orderedReceiver .new history receiver → Numbered 2 (arrived history) →
      SubmissionOrder orderedReceiver history receiver := by
  intro claimed
  obtain ⟨history, receiver, run, seen⟩ := Run.of_observation orderedReceiver OrderedReceiver.new
    [.arrive (noFrame 1), .arrive (noFrame 0), .ask]
    (fun reached => (arrived reached.1, returned reached.1))
    ([noFrame 1, noFrame 0], [noFrame 1]) rfl
  obtain ⟨came, went⟩ := Prod.mk.inj seen
  have order := (claimed history receiver run (came ▸ numbered_noFrames)).order
  rw [went] at order
  exact absurd order (by simp [noFrame])

end Roboflow.Media.Decode
