import Roboflow.Library.Ring

/-! The ring buffer between capture and encode threads, `ring_buffer.rs`: one
producer and one consumer thread, each on a handle of its own choice, cut at their
atomic operations. The three atomics are shared by every handle; `clone` gives the
new handle a slot vector of its own. `usize` is a word of `w` bits. -/
namespace Roboflow.Dataset
open Library

inductive RingBufferError where
  | full
  | empty
  | closed
  | timeout
  deriving DecidableEq

/-- A handle, without the atomics it shares with its clones. -/
structure FrameRingBuffer (w : Nat) (α : Type) where
  buffer : List (Option α)
  capacity : BitVec w
  mask : BitVec w
  deriving DecidableEq

/-- Where the producer is in `try_push`. -/
inductive PushCall (w : Nat) (α : Type) where
  | idle
  /-- The buffer was not closed; before the load of the write index. -/
  | admitted (frame : α)
  /-- Before the load of the read index. -/
  | loaded (frame : α) (write : BitVec w)
  /-- The buffer was not full; before the slot is written. -/
  | room (frame : α) (write : BitVec w)
  /-- The slot is written; before the store of the write index. -/
  | written (frame : α) (write : BitVec w)
  deriving DecidableEq

/-- Where the consumer is in `try_pop`. -/
inductive PopCall (w : Nat) (α : Type) where
  | idle
  /-- Before the load of the write index. -/
  | loaded (read : BitVec w)
  /-- The buffer was not empty; before the slot is taken. -/
  | present (read : BitVec w)
  /-- The slot is taken; before the store of the read index. -/
  | taken (read : BitVec w) (frame : Option α)
  deriving DecidableEq

structure RingState (w : Nat) (α : Type) where
  handles : List (FrameRingBuffer w α)
  writeIdx : BitVec w
  readIdx : BitVec w
  closed : BitVec w
  push : PushCall w α
  pop : PopCall w α
  deriving DecidableEq

inductive RingAction (α : Type) where
  | clone (handle : Nat)
  | close
  | tryPush (frame : α)
  | pushOn
  | tryPop
  | popOn

inductive RingOut (α : Type) where
  | working
  | pushOk (frame : α)
  | pushErr (error : RingBufferError)
  | popped (result : Option α)
  deriving DecidableEq

namespace FrameRingBuffer

variable {w : Nat} {α : Type}

/-- `FrameRingBuffer::new`; none where it panics, on a zero capacity and on one
whose rounding up leaves the word. -/
def new (w : Nat) (α : Type) (capacity : Nat) : Option (RingState w α) :=
  if capacity = 0 then none
  else
    let capacity := capacity.nextPowerOfTwo
    if capacity < 2 ^ w then
      some {
        handles := [{
          buffer := List.replicate capacity none
          capacity := BitVec.ofNat w capacity
          mask := BitVec.ofNat w (capacity - 1) }]
        writeIdx := 0
        readIdx := 0
        closed := 0
        push := .idle
        pop := .idle }
    else none

/-- `Clone`: the indices are shared, the slots are not. -/
def clone (b : FrameRingBuffer w α) : FrameRingBuffer w α :=
  { b with buffer := List.replicate b.capacity.toNat none }

def tryPush (s : RingState w α) (frame : α) : Option (RingState w α × RingOut α) :=
  match s.push with
  | .idle =>
    if s.closed ≠ 0 then some (s, .pushErr .closed)
    else some ({ s with push := .admitted frame }, .working)
  | _ => none

/-- The operations of `try_push` after the first one, on handle `producer`. -/
def pushOn (producer : Nat) (s : RingState w α) : Option (RingState w α × RingOut α) :=
  match s.handles[producer]? with
  | none => none
  | some b =>
    match s.push with
    | .idle => none
    | .admitted frame => some ({ s with push := .loaded frame s.writeIdx }, .working)
    | .loaded frame write =>
      if b.capacity ≤ write - s.readIdx then some ({ s with push := .idle }, .pushErr .full)
      else some ({ s with push := .room frame write }, .working)
    | .room frame write =>
      let b' := { b with buffer := b.buffer.set (write &&& b.mask).toNat (some frame) }
      some ({ s with handles := s.handles.set producer b', push := .written frame write }, .working)
    | .written frame write => some ({ s with writeIdx := write + 1, push := .idle }, .pushOk frame)

def tryPop (s : RingState w α) : Option (RingState w α × RingOut α) :=
  match s.pop with
  | .idle => some ({ s with pop := .loaded s.readIdx }, .working)
  | _ => none

/-- The operations of `try_pop` after the first one, on handle `consumer`. -/
def popOn (consumer : Nat) (s : RingState w α) : Option (RingState w α × RingOut α) :=
  match s.handles[consumer]? with
  | none => none
  | some b =>
    match s.pop with
    | .idle => none
    | .loaded read =>
      if read = s.writeIdx then some ({ s with pop := .idle }, .popped none)
      else some ({ s with pop := .present read }, .working)
    | .present read =>
      let slot := (read &&& b.mask).toNat
      let b' := { b with buffer := b.buffer.set slot none }
      some ({ s with
        handles := s.handles.set consumer b'
        pop := .taken read b.buffer[slot]?.join }, .working)
    | .taken read frame => some ({ s with readIdx := read + 1, pop := .idle }, .popped frame)

/-- A producer on one handle and a consumer on one handle; anyone may clone or close. -/
def threads (producer consumer : Nat) : Machine (RingState w α) (RingAction α) (RingOut α) where
  step s
    | .clone handle => s.handles[handle]?.map fun b =>
        ({ s with handles := s.handles ++ [b.clone] }, .working)
    | .close => some ({ s with closed := 1 }, .working)
    | .tryPush frame => if producer < s.handles.length then tryPush s frame else none
    | .pushOn => pushOn producer s
    | .tryPop => if consumer < s.handles.length then tryPop s else none
    | .popOn => popOn consumer s

end FrameRingBuffer

/-! ### The queue it is meant to be -/

abbrev RingHistory (w : Nat) (α : Type) := History (RingState w α) (RingAction α) (RingOut α)

namespace RingOut

def pushes : RingOut α → List α
  | .pushOk frame => [frame]
  | _ => []

def pops : RingOut α → List α
  | .popped (some frame) => [frame]
  | _ => []

end RingOut

/-- The frames pushed, oldest first. -/
def pushed : RingHistory w α → List α
  | [] => []
  | e :: older => pushed older ++ e.out.pushes

/-- The frames popped, oldest first. -/
def popped : RingHistory w α → List α
  | [] => []
  | e :: older => popped older ++ e.out.pops

/-- At every moment of the history what was popped is an initial part of what was
pushed, a push was refused as full only with `capacity` frames in the queue, and a
pop came back empty only with none. -/
def Fifo (capacity : Nat) : RingHistory w α → Prop
  | [] => True
  | e :: older =>
    Fifo capacity older ∧ popped (e :: older) <+: pushed (e :: older) ∧
    (e.out = .pushErr .full → (pushed older).length = (popped older).length + capacity) ∧
    (e.out = .popped none → popped older = pushed older)

instance Fifo.decidable [DecidableEq α] (capacity : Nat) :
    (history : RingHistory w α) → Decidable (Fifo capacity history)
  | [] => inferInstanceAs (Decidable True)
  | _ :: older =>
    have := Fifo.decidable capacity older
    inferInstanceAs (Decidable (_ ∧ _ ∧ _ ∧ _))

/-! ### One handle for both -/

/-- What the producer knows at its point of `try_push`; `last` is the slot after
the last frame. -/
def Pushing (slots : Nat) (s : RingState w α) (inside outside : List α)
    (last : Option (Option α)) : Prop :=
  match s.push with
  | .idle => True
  | .admitted _ => True
  | .loaded _ write => write = s.writeIdx
  | .room _ write => write = s.writeIdx ∧ inside.length < outside.length + slots
  | .written frame write =>
    write = s.writeIdx ∧ inside.length < outside.length + slots ∧ last = some (some frame)

/-- What the consumer knows at its point of `try_pop`. -/
def Popping (s : RingState w α) (inside outside : List α) : Prop :=
  match s.pop with
  | .idle => True
  | .loaded read => read = s.readIdx
  | .present read => read = s.readIdx ∧ outside.length < inside.length
  | .taken read frame =>
    read = s.readIdx ∧ outside.length < inside.length ∧ frame = inside[outside.length]?

/-- The slots the consumer has emptied without having advanced the read index. -/
def PopCall.inFlight : PopCall w α → Nat
  | .taken _ _ => 1
  | _ => 0

/-- A handle of a ring of `2 ^ k` slots. -/
structure Shaped (k : Nat) (b : FrameRingBuffer w α) : Prop where
  length : b.buffer.length = 2 ^ k
  capacity : b.capacity = BitVec.ofNat w (2 ^ k)
  mask : b.mask = BitVec.ofNat w (2 ^ k - 1)

/-- The words and the slots of handle `h` against the frames pushed and popped. -/
structure Consistent (k h : Nat) (s : RingState w α) (inside outside : List α) : Prop where
  shaped : ∀ b ∈ s.handles, Shaped k b
  write : s.writeIdx = BitVec.ofNat w inside.length
  read : s.readIdx = BitVec.ofNat w outside.length
  order : outside <+: inside
  bounded : inside.length ≤ outside.length + 2 ^ k
  absent : s.handles.length ≤ h → inside = [] ∧ s.push = .idle ∧ s.pop = .idle
  window : ∀ b, s.handles[h]? = some b →
    Ring.Window b.buffer inside (outside.length + s.pop.inFlight) inside.length
  pushing : ∀ b, s.handles[h]? = some b →
    Pushing (2 ^ k) s inside outside b.buffer[inside.length % 2 ^ k]?
  popping : Popping s inside outside

/-- What the queue owes a caller who was refused. -/
def Answered (capacity : Nat) (inside outside : List α) (out : RingOut α) : Prop :=
  (out = .pushErr .full → inside.length = outside.length + capacity) ∧
  (out = .popped none → outside = inside)

section Steps
variable {k w h : Nat} {s s' : RingState w α} {out : RingOut α} {inside outside : List α}

theorem Shaped.clone {b : FrameRingBuffer w α} (shaped : Shaped k b) (fits : k < w) :
    Shaped k b.clone where
  length := by
    have small : 2 ^ k < 2 ^ w := Nat.pow_lt_pow_right (by omega) fits
    simp only [FrameRingBuffer.clone, List.length_replicate, shaped.capacity, BitVec.toNat_ofNat]
    exact Nat.mod_eq_of_lt small
  capacity := shaped.capacity
  mask := shaped.mask

/-- The slot a handle's mask selects for the position `n`. -/
theorem Shaped.slot {b : FrameRingBuffer w α} (shaped : Shaped k b) (fits : k < w) (n : Nat) :
    (BitVec.ofNat w n &&& b.mask).toNat = n % 2 ^ k := by
  rw [shaped.mask, Ring.masked fits.le]

/-- Writing a slot keeps the shape of every handle. -/
theorem shaped_set {b : FrameRingBuffer w α} (shaped : ∀ b ∈ s.handles, Shaped k b)
    (found : s.handles[h]? = some b) (slot : Nat) (entry : Option α) :
    ∀ b' ∈ s.handles.set h { b with buffer := b.buffer.set slot entry }, Shaped k b' := by
  intro b' member
  rcases List.mem_or_eq_of_mem_set member with old | rfl
  · exact shaped b' old
  · have own := shaped b (List.mem_of_getElem? found)
    exact ⟨by simpa using own.length, own.capacity, own.mask⟩

theorem clone_consistent (c : Consistent k h s inside outside) (fits : k < w)
    {i : Nat} {b : FrameRingBuffer w α} (found : s.handles[i]? = some b) :
    Consistent k h { s with handles := s.handles ++ [b.clone] } inside outside := by
  have grown : ∀ b', (s.handles ++ [b.clone])[h]? = some b' →
      s.handles[h]? = some b' ∨ s.handles.length ≤ h := by
    intro b' at_h
    rcases Nat.lt_or_ge h s.handles.length with old | fresh
    · rw [List.getElem?_append_left old] at at_h
      exact .inl at_h
    · exact .inr fresh
  refine ⟨?_, c.write, c.read, c.order, c.bounded, ?_, ?_, ?_, c.popping⟩
  · intro b' member
    rcases List.mem_append.mp member with old | new
    · exact c.shaped b' old
    · rw [List.mem_singleton.mp new]
      exact (c.shaped b (List.mem_of_getElem? found)).clone fits
  · intro beyond
    apply c.absent
    simp only [List.length_append, List.length_singleton] at beyond
    omega
  · intro b' at_h
    rcases grown b' at_h with old | fresh
    · exact c.window b' old
    · obtain ⟨rfl, -, -⟩ := c.absent fresh
      intro i _ less
      simp at less
  · intro b' at_h
    rcases grown b' at_h with old | fresh
    · exact c.pushing b' old
    · obtain ⟨-, idle, -⟩ := c.absent fresh
      simp [Pushing, idle]

/-! ### The producer's operations -/

/-- A step that only moves the producer to a point whose knowledge it has. -/
theorem Consistent.movePush (c : Consistent k h s inside outside) (present : h < s.handles.length)
    {call : PushCall w α}
    (knows : ∀ b, s.handles[h]? = some b → Pushing (2 ^ k) { s with push := call } inside outside
      b.buffer[inside.length % 2 ^ k]?) :
    Consistent k h { s with push := call } inside outside :=
  ⟨c.shaped, c.write, c.read, c.order, c.bounded, fun beyond => absurd present (by simpa using beyond),
    c.window, knows, c.popping⟩

/-- The number of frames in the queue, as the producer computes it. -/
theorem Consistent.inQueue (c : Consistent k h s inside outside) (fits : k < w) :
    (s.writeIdx - s.readIdx).toNat = inside.length - outside.length := by
  have small : 2 ^ k < 2 ^ w := Nat.pow_lt_pow_right (by omega) fits
  have bounded := c.bounded
  have positive := Nat.two_pow_pos k
  rw [c.write, c.read]
  exact Ring.distance c.order.length_le (by omega)

theorem tryPush_consistent (c : Consistent k h s inside outside) (present : h < s.handles.length)
    (moved : FrameRingBuffer.tryPush s frame = some (s', out)) :
    Consistent k h s' (inside ++ out.pushes) (outside ++ out.pops) ∧
      Answered (2 ^ k) inside outside out := by
  unfold FrameRingBuffer.tryPush at moved
  cases at_push : s.push with
  | idle =>
    simp only [at_push] at moved
    split at moved
    · cases moved
      exact ⟨by simpa [RingOut.pushes, RingOut.pops] using c, by simp [Answered]⟩
    · cases moved
      simp only [RingOut.pushes, RingOut.pops, List.append_nil]
      exact ⟨c.movePush present fun b _ => by simp [Pushing], by simp [Answered]⟩
  | _ => simp [at_push] at moved

/-- The write of the slot. -/
theorem write_consistent {write : BitVec w} (c : Consistent k h s inside outside) (fits : k < w)
    {b : FrameRingBuffer w α} (found : s.handles[h]? = some b) (same : write = s.writeIdx)
    (room : inside.length < outside.length + 2 ^ k) :
    Consistent k h { s with
      handles := s.handles.set h
        { b with buffer := b.buffer.set (write &&& b.mask).toNat (some frame) }
      push := .written frame write } inside outside := by
  have own := c.shaped b (List.mem_of_getElem? found)
  have present : h < s.handles.length := (List.getElem?_eq_some_iff.mp found).1
  have slot : (write &&& b.mask).toNat = inside.length % 2 ^ k := by
    rw [same, c.write, own.slot fits]
  have updated : ∀ entry b', (s.handles.set h entry)[h]? = some b' → b' = entry := by
    intro entry b' at_h
    rw [List.getElem?_set_self present] at at_h
    exact (Option.some.inj at_h).symm
  refine ⟨shaped_set c.shaped found _ _, c.write, c.read, c.order, c.bounded, ?_, ?_, ?_, c.popping⟩
  · intro beyond
    simp only [List.length_set] at beyond
    omega
  · intro b' at_h
    rw [updated _ b' at_h, slot, ← own.length]
    have room' : inside.length < outside.length + s.pop.inFlight + b.buffer.length := by
      rw [own.length]
      omega
    exact (c.window b found).put room' _
  · intro b' at_h
    rw [updated _ b' at_h, slot]
    have inRange : inside.length % 2 ^ k < b.buffer.length := by
      rw [own.length]
      exact Nat.mod_lt _ (Nat.two_pow_pos k)
    exact ⟨same, room, by simp [inRange]⟩

/-- The store of the write index: the frame is in the queue. -/
theorem store_consistent {write : BitVec w} (c : Consistent k h s inside outside)
    {b : FrameRingBuffer w α} (found : s.handles[h]? = some b)
    (at_push : s.push = .written frame write) :
    Consistent k h { s with writeIdx := write + 1, push := .idle } (inside ++ [frame]) outside := by
  have own := c.shaped b (List.mem_of_getElem? found)
  have present : h < s.handles.length := (List.getElem?_eq_some_iff.mp found).1
  have knows := c.pushing b found
  simp only [Pushing, at_push] at knows
  obtain ⟨same, room, written⟩ := knows
  refine ⟨c.shaped, ?_, c.read, c.order.trans (List.prefix_append _ _), ?_, ?_, ?_, ?_, ?_⟩
  · simp only [same, c.write, List.length_append, List.length_singleton, BitVec.ofNat_add]
    rfl
  · simp only [List.length_append, List.length_singleton]
    omega
  · intro beyond
    exact absurd present (by simpa using beyond)
  · intro b' at_h
    obtain rfl : b' = b := Option.some.inj (at_h.symm.trans found)
    rw [← own.length] at written
    simpa using (c.window b' found).extend written
  · intro b' _
    simp [Pushing]
  · have popping := c.popping
    unfold Popping at popping ⊢
    simp only
    cases at_pop : s.pop with
    | idle => trivial
    | loaded read => simpa [at_pop] using popping
    | present read =>
      simp only [at_pop] at popping
      simp only [List.length_append, List.length_singleton]
      exact ⟨popping.1, by omega⟩
    | taken read taken =>
      simp only [at_pop] at popping
      obtain ⟨sameRead, less, what⟩ := popping
      refine ⟨sameRead, ?_, ?_⟩
      · simp only [List.length_append, List.length_singleton]
        omega
      · rw [List.getElem?_append_left less]
        exact what

theorem pushOn_consistent (c : Consistent k h s inside outside) (fits : k < w)
    (moved : FrameRingBuffer.pushOn h s = some (s', out)) :
    Consistent k h s' (inside ++ out.pushes) (outside ++ out.pops) ∧
      Answered (2 ^ k) inside outside out := by
  unfold FrameRingBuffer.pushOn at moved
  cases found : s.handles[h]? with
  | none => simp [found] at moved
  | some b =>
    have present : h < s.handles.length := (List.getElem?_eq_some_iff.mp found).1
    have own := c.shaped b (List.mem_of_getElem? found)
    have knows := c.pushing b found
    simp only [found] at moved
    cases at_push : s.push with
    | idle => simp [at_push] at moved
    | admitted frame =>
      simp only [at_push, Option.some.injEq, Prod.mk.injEq] at moved
      obtain ⟨rfl, rfl⟩ := moved
      simp only [RingOut.pushes, RingOut.pops, List.append_nil]
      exact ⟨c.movePush present fun b _ => by simp [Pushing], by simp [Answered]⟩
    | loaded frame write =>
      simp only [Pushing, at_push] at knows
      have small : 2 ^ k < 2 ^ w := Nat.pow_lt_pow_right (by omega) fits
      have enough : b.capacity ≤ write - s.readIdx ↔ 2 ^ k ≤ inside.length - outside.length := by
        rw [BitVec.le_def, own.capacity, BitVec.toNat_ofNat, Nat.mod_eq_of_lt small, knows,
          c.inQueue fits]
      simp only [at_push, enough] at moved
      split at moved
      · rename_i full
        cases moved
        simp only [RingOut.pushes, RingOut.pops, List.append_nil]
        refine ⟨c.movePush present fun b _ => by simp [Pushing], fun _ => ?_, by simp⟩
        have bounded := c.bounded
        have := Nat.two_pow_pos k
        omega
      · rename_i spare
        cases moved
        simp only [RingOut.pushes, RingOut.pops, List.append_nil]
        refine ⟨c.movePush present fun b _ => ⟨knows, ?_⟩, by simp [Answered]⟩
        have := Nat.two_pow_pos k
        omega
    | room frame write =>
      simp only [Pushing, at_push] at knows
      simp only [at_push, Option.some.injEq, Prod.mk.injEq] at moved
      obtain ⟨rfl, rfl⟩ := moved
      simp only [RingOut.pushes, RingOut.pops, List.append_nil]
      exact ⟨write_consistent c fits found knows.1 knows.2, by simp [Answered]⟩
    | written frame write =>
      simp only [at_push, Option.some.injEq, Prod.mk.injEq] at moved
      obtain ⟨rfl, rfl⟩ := moved
      simp only [RingOut.pushes, RingOut.pops, List.append_nil]
      exact ⟨store_consistent c found at_push, by simp [Answered]⟩

/-! ### The consumer's operations -/

/-- A step that only moves the consumer, with no slot emptied before or after. -/
theorem Consistent.movePop (c : Consistent k h s inside outside) (present : h < s.handles.length)
    (before : s.pop.inFlight = 0) {call : PopCall w α} (after : call.inFlight = 0)
    (knows : Popping { s with pop := call } inside outside) :
    Consistent k h { s with pop := call } inside outside := by
  refine ⟨c.shaped, c.write, c.read, c.order, c.bounded, ?_, ?_, c.pushing, knows⟩
  · intro beyond
    exact absurd present (by simpa using beyond)
  · intro b found
    have window := c.window b found
    rw [before] at window
    simpa only [after] using window

theorem tryPop_consistent (c : Consistent k h s inside outside) (present : h < s.handles.length)
    (moved : FrameRingBuffer.tryPop s = some (s', out)) :
    Consistent k h s' (inside ++ out.pushes) (outside ++ out.pops) ∧
      Answered (2 ^ k) inside outside out := by
  unfold FrameRingBuffer.tryPop at moved
  cases at_pop : s.pop with
  | idle =>
    simp only [at_pop, Option.some.injEq, Prod.mk.injEq] at moved
    obtain ⟨rfl, rfl⟩ := moved
    simp only [RingOut.pushes, RingOut.pops, List.append_nil]
    exact ⟨c.movePop present (by rw [at_pop]; rfl) rfl (by simp [Popping]), by simp [Answered]⟩
  | _ => simp [at_pop] at moved

/-- The first frame of the queue stands in the slot the read index selects. -/
theorem Consistent.first (c : Consistent k h s inside outside) {b : FrameRingBuffer w α}
    (found : s.handles[h]? = some b) (nothing : s.pop.inFlight = 0)
    (less : outside.length < inside.length) :
    b.buffer[outside.length % 2 ^ k]?.join = inside[outside.length]? := by
  have own := c.shaped b (List.mem_of_getElem? found)
  have stands := c.window b found outside.length (by omega) less
  rw [own.length] at stands
  rw [stands]
  rfl

/-- The take of the slot. -/
theorem take_consistent (c : Consistent k h s inside outside) (fits : k < w)
    {b : FrameRingBuffer w α} (found : s.handles[h]? = some b) {read : BitVec w}
    (at_pop : s.pop = .present read) :
    Consistent k h { s with
      handles := s.handles.set h
        { b with buffer := b.buffer.set (read &&& b.mask).toNat none }
      pop := .taken read b.buffer[(read &&& b.mask).toNat]?.join } inside outside := by
  have own := c.shaped b (List.mem_of_getElem? found)
  have present : h < s.handles.length := (List.getElem?_eq_some_iff.mp found).1
  have knows := c.popping
  simp only [Popping, at_pop] at knows
  obtain ⟨same, less⟩ := knows
  have nothing : s.pop.inFlight = 0 := by
    rw [at_pop]
    rfl
  have slot : (read &&& b.mask).toNat = outside.length % 2 ^ k := by
    rw [same, c.read, own.slot fits]
  have updated : ∀ entry b', (s.handles.set h entry)[h]? = some b' → b' = entry := by
    intro entry b' at_h
    rw [List.getElem?_set_self present] at at_h
    exact (Option.some.inj at_h).symm
  have window := c.window b found
  rw [nothing, Nat.add_zero] at window
  refine ⟨shaped_set c.shaped found _ _, c.write, c.read, c.order, c.bounded, ?_, ?_, ?_, ?_⟩
  · intro beyond
    simp only [List.length_set] at beyond
    omega
  · intro b' at_h
    rw [updated _ b' at_h, slot, ← own.length]
    exact window.take (by rw [own.length]; exact c.bounded) none
  · intro b' at_h
    rw [updated _ b' at_h, slot]
    have knows := c.pushing b found
    unfold Pushing at knows ⊢
    simp only
    cases at_push : s.push with
    | idle => trivial
    | admitted frame => trivial
    | loaded frame write => simpa [at_push] using knows
    | room frame write => simpa [at_push] using knows
    | written frame write =>
      simp only [at_push] at knows
      obtain ⟨sameWrite, room, written⟩ := knows
      refine ⟨sameWrite, room, ?_⟩
      -- the slot just written is not the one being emptied, as the queue is not full
      have apart : outside.length % 2 ^ k ≠ inside.length % 2 ^ k := Ring.slot_ne less room
      rw [List.getElem?_set_ne apart]
      exact written
  · refine ⟨same, less, ?_⟩
    rw [slot]
    exact c.first found nothing less

/-- One more frame taken off the queue in order. -/
theorem prefix_next (order : outside <+: inside) (next : inside[outside.length]? = some x) :
    outside ++ [x] <+: inside := by
  obtain ⟨rest, rfl⟩ := order
  cases rest with
  | nil => simp at next
  | cons y rest =>
    simp only [List.getElem?_append_right (Nat.le_refl _), Nat.sub_self, List.getElem?_cons_zero,
      Option.some.injEq] at next
    exact ⟨rest, by simp [next]⟩

/-- The store of the read index: the frame has left the queue. -/
theorem advance_consistent (c : Consistent k h s inside outside)
    (present : h < s.handles.length) {read : BitVec w} (at_pop : s.pop = .taken read frame) :
    ∃ x, frame = some x ∧
      Consistent k h { s with readIdx := read + 1, pop := .idle } inside (outside ++ [x]) := by
  have knows := c.popping
  simp only [Popping, at_pop] at knows
  obtain ⟨same, less, what⟩ := knows
  have first : frame = some inside[outside.length] := by
    rw [what, List.getElem?_eq_getElem less]
  have flight : s.pop.inFlight = 1 := by
    rw [at_pop]
    rfl
  refine ⟨_, first, c.shaped, c.write, ?_, prefix_next c.order (what.symm.trans first), ?_, ?_, ?_,
    ?_, ?_⟩
  · simp only [same, c.read, List.length_append, List.length_singleton, BitVec.ofNat_add]
    rfl
  · have bounded := c.bounded
    simp only [List.length_append, List.length_singleton]
    omega
  · intro beyond
    exact absurd present (by simpa using beyond)
  · intro b found
    have window := c.window b found
    rw [flight] at window
    simpa [PopCall.inFlight] using window
  · intro b found
    have pushing := c.pushing b found
    unfold Pushing at pushing ⊢
    simp only [List.length_append, List.length_singleton]
    cases at_push : s.push with
    | idle => trivial
    | admitted frame => trivial
    | loaded frame write => simpa [at_push] using pushing
    | room frame write =>
      simp only [at_push] at pushing
      exact ⟨pushing.1, by omega⟩
    | written frame write =>
      simp only [at_push] at pushing
      exact ⟨pushing.1, by omega, pushing.2.2⟩
  · simp [Popping]

theorem popOn_consistent (c : Consistent k h s inside outside) (fits : k < w)
    (moved : FrameRingBuffer.popOn h s = some (s', out)) :
    Consistent k h s' (inside ++ out.pushes) (outside ++ out.pops) ∧
      Answered (2 ^ k) inside outside out := by
  unfold FrameRingBuffer.popOn at moved
  cases found : s.handles[h]? with
  | none => simp [found] at moved
  | some b =>
    have present : h < s.handles.length := (List.getElem?_eq_some_iff.mp found).1
    have knows := c.popping
    simp only [found] at moved
    cases at_pop : s.pop with
    | idle => simp [at_pop] at moved
    | loaded read =>
      simp only [Popping, at_pop] at knows
      have nothing : s.pop.inFlight = 0 := by
        rw [at_pop]
        rfl
      have small : 2 ^ k < 2 ^ w := Nat.pow_lt_pow_right (by omega) fits
      have longer := c.order.length_le
      have bounded := c.bounded
      simp only [at_pop] at moved
      split at moved
      · rename_i level
        cases moved
        simp only [RingOut.pushes, RingOut.pops, List.append_nil]
        refine ⟨c.movePop present nothing rfl (by simp [Popping]), by simp, fun _ => ?_⟩
        rw [knows, c.read, c.write] at level
        exact c.order.eq_of_length (Ring.word_injective longer (by omega) level)
      · rename_i apart
        cases moved
        simp only [RingOut.pushes, RingOut.pops, List.append_nil]
        refine ⟨c.movePop present nothing rfl ⟨knows, ?_⟩, by simp [Answered]⟩
        refine Nat.lt_of_le_of_ne longer fun same => apart ?_
        rw [knows, c.read, c.write, same]
    | present read =>
      simp only [at_pop, Option.some.injEq, Prod.mk.injEq] at moved
      obtain ⟨rfl, rfl⟩ := moved
      simp only [RingOut.pushes, RingOut.pops, List.append_nil]
      exact ⟨take_consistent c fits found at_pop, by simp [Answered]⟩
    | taken read frame =>
      simp only [at_pop, Option.some.injEq, Prod.mk.injEq] at moved
      obtain ⟨rfl, rfl⟩ := moved
      obtain ⟨x, rfl, after⟩ := advance_consistent c present at_pop
      simp only [RingOut.pushes, RingOut.pops, List.append_nil]
      exact ⟨after, by simp [Answered]⟩

/-- Every step of two threads on one handle. -/
theorem step_consistent (fits : k < w) (c : Consistent k h s inside outside)
    (moved : (FrameRingBuffer.threads h h).step s a = some (s', out)) :
    Consistent k h s' (inside ++ out.pushes) (outside ++ out.pops) ∧
      Answered (2 ^ k) inside outside out := by
  cases a with
  | clone handle =>
    simp only [FrameRingBuffer.threads, Option.map_eq_some_iff, Prod.mk.injEq] at moved
    obtain ⟨b, found, rfl, rfl⟩ := moved
    simp only [RingOut.pushes, RingOut.pops, List.append_nil]
    exact ⟨clone_consistent c fits found, by simp [Answered]⟩
  | close =>
    simp only [FrameRingBuffer.threads, Option.some.injEq, Prod.mk.injEq] at moved
    obtain ⟨rfl, rfl⟩ := moved
    simp only [RingOut.pushes, RingOut.pops, List.append_nil]
    exact ⟨⟨c.shaped, c.write, c.read, c.order, c.bounded, c.absent, c.window, c.pushing, c.popping⟩,
      by simp [Answered]⟩
  | tryPush frame =>
    simp only [FrameRingBuffer.threads, Option.ite_none_right_eq_some] at moved
    exact tryPush_consistent c moved.1 moved.2
  | pushOn => exact pushOn_consistent c fits moved
  | tryPop =>
    simp only [FrameRingBuffer.threads, Option.ite_none_right_eq_some] at moved
    exact tryPop_consistent c moved.1 moved.2
  | popOn => exact popOn_consistent c fits moved

/-- A new buffer is an empty queue, of any of its handles to come. -/
theorem new_consistent (created : FrameRingBuffer.new w α requested = some s) :
    ∃ k, requested.nextPowerOfTwo = 2 ^ k ∧ k < w ∧ Consistent k h s [] [] := by
  obtain ⟨k, power⟩ := Nat.isPowerOfTwo_nextPowerOfTwo requested
  simp only [FrameRingBuffer.new, power] at created
  split at created
  · cases created
  · split at created
    · rename_i fits
      cases created
      refine ⟨k, power, (Nat.pow_lt_pow_iff_right (by omega)).mp fits, ?_⟩
      refine ⟨?_, rfl, rfl, List.prefix_rfl, by simp, fun _ => ⟨rfl, rfl, rfl⟩, ?_, ?_, by simp [Popping]⟩
      · intro b member
        rw [List.mem_singleton.mp member]
        exact ⟨by simp, rfl, rfl⟩
      · intro b _
        exact Ring.Window.empty
      · intro b _
        simp [Pushing]
    · cases created

end Steps

/-- Runs of two threads on one handle keep the words and slots in step with the
frames pushed and popped, whatever the indices have wrapped around to. -/
theorem run_consistent {s start : RingState w α} (fits : k < w)
    (initial : Consistent k h start [] [])
    (run : Run (FrameRingBuffer.threads h h) start history s) :
    Consistent k h s (pushed history) (popped history) ∧ Fifo (2 ^ k) history := by
  refine Run.history_invariant (P := fun history s =>
    Consistent k h s (pushed history) (popped history) ∧ Fifo (2 ^ k) history)
    ⟨initial, trivial⟩ ?_ run
  intro history s a s' out _ ih moved
  obtain ⟨after, answered⟩ := step_consistent fits ih.1 moved
  exact ⟨after, ih.2, after.order, answered⟩

/-! ### Two handles -/

/-- Cloning the first handle any number of times. -/
theorem clones_run (p c : Nat) {start : RingState w α} {b : FrameRingBuffer w α}
    (first : start.handles[0]? = some b) (n : Nat) :
    ∃ history, Run (FrameRingBuffer.threads p c) start history
        { start with handles := start.handles ++ List.replicate n b.clone } ∧
      pushed history = [] ∧ popped history = [] := by
  induction n with
  | zero => exact ⟨[], by simpa using Run.start, rfl, rfl⟩
  | succ n ih =>
    obtain ⟨history, run, none_in, none_out⟩ := ih
    have present : 0 < start.handles.length := (List.getElem?_eq_some_iff.mp first).1
    refine ⟨_, run.move (.clone 0) .working _ ?_, ?_, ?_⟩
    · simp only [FrameRingBuffer.threads, List.getElem?_append_left present, first, Option.map_some,
        List.replicate_succ', List.append_assoc]
    · simpa [pushed, RingOut.pushes] using none_in
    · simpa [popped, RingOut.pops] using none_out

/-- A frame pushed through one handle is not in the slots of another: the pop that
finds it counted comes back with nothing. -/
theorem other_handle_run {start s : RingState w α} (apart : p ≠ c) (positive : 0 < w) (frame : α)
    (run : Run (FrameRingBuffer.threads p c) start history s)
    (none_in : pushed history = []) (none_out : popped history = [])
    (idlePush : s.push = .idle) (idlePop : s.pop = .idle) (opened : s.closed = 0)
    (write : s.writeIdx = 0) (read : s.readIdx = 0)
    {bp bc : FrameRingBuffer w α} (atProducer : s.handles[p]? = some bp)
    (atConsumer : s.handles[c]? = some bc) (room : bp.capacity ≠ 0)
    (fresh : bc.buffer[0]?.join = none) :
    ∃ history s, Run (FrameRingBuffer.threads p c) start history s ∧ ¬Fifo capacity history := by
  have presentP : p < s.handles.length := (List.getElem?_eq_some_iff.mp atProducer).1
  have presentC : c < s.handles.length := (List.getElem?_eq_some_iff.mp atConsumer).1
  have notFull : ¬bp.capacity ≤ 0 := by
    intro zero
    apply room
    have := BitVec.le_def.mp zero
    exact BitVec.eq_of_toNat_eq (by simpa using this)
  let slots := { bp with buffer := bp.buffer.set 0 (some frame) }
  have atConsumer' : (s.handles.set p slots)[c]? = some bc := by
    rw [List.getElem?_set_ne apart, atConsumer]
  -- the push, operation by operation
  have r1 := run.move (.tryPush frame) .working
    { s with push := .admitted frame }
    (by simp [FrameRingBuffer.threads, FrameRingBuffer.tryPush, presentP, idlePush, opened])
  have r2 := r1.move .pushOn .working { s with push := .loaded frame 0 }
    (by simp [FrameRingBuffer.threads, FrameRingBuffer.pushOn, atProducer, write])
  have r3 := r2.move .pushOn .working { s with push := .room frame 0 }
    (by simpa [FrameRingBuffer.threads, FrameRingBuffer.pushOn, atProducer, read] using notFull)
  have r4 := r3.move .pushOn .working
    { s with handles := s.handles.set p slots, push := .written frame 0 }
    (by simp [FrameRingBuffer.threads, FrameRingBuffer.pushOn, atProducer, slots])
  have r5 := r4.move .pushOn (.pushOk frame)
    { s with handles := s.handles.set p slots, writeIdx := 1, push := .idle }
    (by simp [FrameRingBuffer.threads, FrameRingBuffer.pushOn, presentP])
  -- the pop, operation by operation
  have r6 := r5.move .tryPop .working
    { s with
      handles := s.handles.set p slots, writeIdx := 1, push := .idle, pop := .loaded 0 }
    (by simp [FrameRingBuffer.threads, FrameRingBuffer.tryPop, presentC, idlePop, read])
  have r7 := r6.move .popOn .working
    { s with
      handles := s.handles.set p slots, writeIdx := 1, push := .idle, pop := .present 0 }
    (by simp [FrameRingBuffer.threads, FrameRingBuffer.popOn, atConsumer', positive.ne'])
  have r8 := r7.move .popOn .working
    { s with
      handles := (s.handles.set p slots).set c { bc with buffer := bc.buffer.set 0 none }
      writeIdx := 1, push := .idle, pop := .taken 0 none }
    (by simp [FrameRingBuffer.threads, FrameRingBuffer.popOn, atConsumer', fresh])
  have r9 := r8.move .popOn (.popped none)
    { s with
      handles := (s.handles.set p slots).set c { bc with buffer := bc.buffer.set 0 none }
      writeIdx := 1, readIdx := 1, push := .idle, pop := .idle }
    (by simp [FrameRingBuffer.threads, FrameRingBuffer.popOn, presentC])
  refine ⟨_, _, r9, ?_⟩
  intro fifo
  have level := fifo.2.2.2 rfl
  simp [pushed, popped, RingOut.pushes, RingOut.pops, none_in, none_out] at level

/-- A new buffer: its one handle is as empty as a clone of it. -/
theorem new_only (created : FrameRingBuffer.new w α requested = some start) :
    ∃ b : FrameRingBuffer w α, b.clone = b ∧ b.capacity ≠ 0 ∧ b.buffer[0]?.join = none ∧
      start = ⟨[b], 0, 0, 0, .idle, .idle⟩ := by
  obtain ⟨k, power⟩ := Nat.isPowerOfTwo_nextPowerOfTwo requested
  simp only [FrameRingBuffer.new, power, Option.ite_none_left_eq_some,
    Option.ite_none_right_eq_some, Option.some.injEq] at created
  obtain ⟨-, fits, rfl⟩ := created
  have sized : (BitVec.ofNat w (2 ^ k)).toNat = 2 ^ k := by
    rw [BitVec.toNat_ofNat, Nat.mod_eq_of_lt fits]
  refine ⟨_, ?_, ?_, ?_, rfl⟩
  · simp only [FrameRingBuffer.clone, sized]
  · intro zero
    have positive := Nat.two_pow_pos k
    have empty : (BitVec.ofNat w (2 ^ k)).toNat = 0 := congrArg BitVec.toNat zero
    omega
  · simp

/-- For a buffer of any capacity: every run of a producer and a consumer, at the
granularity of the atomic operations and through any number of wraparounds, is a
bounded first-in first-out queue exactly when the two are on one handle. -/
theorem fifo_iff_same_handle [Inhabited α] {start : RingState w α}
    (created : FrameRingBuffer.new w α requested = some start) :
    (∀ history s, Run (FrameRingBuffer.threads p c) start history s →
      Fifo requested.nextPowerOfTwo history) ↔ p = c := by
  constructor
  · intro fifo
    by_contra apart
    obtain ⟨k, -, fits, -⟩ := new_consistent (h := 0) created
    obtain ⟨b, same, room, fresh, rfl⟩ := new_only created
    obtain ⟨history, run, none_in, none_out⟩ :=
      clones_run p c (show (⟨[b], 0, 0, 0, .idle, .idle⟩ : RingState w α).handles[0]? = some b from
        rfl) (p + c)
    have handle : ∀ i, i ≤ p + c → ([b] ++ List.replicate (p + c) b.clone)[i]? = some b := by
      intro i low
      rw [same, List.singleton_append, ← List.replicate_succ, List.getElem?_replicate,
        if_pos (by omega)]
    obtain ⟨history', s', run', broken⟩ := other_handle_run apart (by omega) default run none_in
      none_out rfl rfl rfl rfl rfl (handle p (by omega)) (handle c (by omega)) room fresh
    exact broken (fifo history' s' run')
  · rintro rfl history s run
    obtain ⟨k, power, fits, initial⟩ := new_consistent (h := p) created
    rw [power]
    exact (run_consistent fits initial run).2

/-- A buffer of two slots on a 64-bit target. -/
def twoSlots : RingState 64 Nat :=
  ⟨[⟨[none, none], 2, 1⟩], 0, 0, 0, .idle, .idle⟩

theorem twoSlots_new : FrameRingBuffer.new 64 Nat 2 = some twoSlots := by
  have rounded : Nat.nextPowerOfTwo 2 = 2 := by decide +kernel
  simp only [FrameRingBuffer.new, rounded]
  rfl

theorem fifo_on_the_first_handle :
    (∀ history s, Run (FrameRingBuffer.threads 0 0) twoSlots history s →
      Fifo (Nat.nextPowerOfTwo 2) history) ↔ 0 = 0 :=
  fifo_iff_same_handle twoSlots_new

/-- The producer pushes frame 7 through the original, the consumer pops through a
clone: the read index has moved past the frame, and the pop came back with nothing. -/
theorem clone_pops_nothing : ∃ history s,
    Run (FrameRingBuffer.threads 0 1) twoSlots history s ∧
      (pushed history, popped history, s.readIdx, decide (Fifo 2 history)) = ([7], [], 1, false) :=
  Run.of_observation _ _
    [.clone 0, .tryPush 7, .pushOn, .pushOn, .pushOn, .pushOn, .tryPop, .popOn, .popOn, .popOn]
    (fun r => (pushed r.1, popped r.1, r.2.readIdx, decide (Fifo 2 r.1))) _ (by decide)

end Roboflow.Dataset
