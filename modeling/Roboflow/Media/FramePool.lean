import Roboflow.Library.Tokens

/-! The frame pool of `video/arena.rs`. Any number of threads acquire and release
slots; a call is cut at its atomic operations, and an owned slot may be dropped by
another thread than the one that acquired it. `AtomicFramePool` holds a `FramePool`
and hands both calls on, so these are its steps as well. -/
namespace Roboflow.Media
open Library

structure FramePoolConfig where
  width : Nat
  height : Nat
  bytesPerPixel : Nat
  slotCount : Nat

inductive FramePoolError where
  | invalidConfig (message : String)
  | allocationFailed (message : String)
  | poolExhausted
  deriving DecidableEq

/-- `usize` products wrap where overflow is not checked. -/
def FramePoolConfig.slotSize (config : FramePoolConfig) : Nat :=
  config.width * config.height * config.bytesPerPixel % 2 ^ 64

/-- Where a thread is in `try_acquire_slot` or `release`. -/
inductive PoolCall where
  | idle
  /-- Before the load of the mask in the given attempt; the first load starts a call. -/
  | retrying (attempt : Nat)
  /-- Before the compare-and-exchange of the mask it loaded. -/
  | loaded (attempt : Nat) (mask : BitVec 64)
  /-- The exchange succeeded; before the flag is set. -/
  | claimed (slot : Nat)
  /-- Before the allocation is counted. -/
  | flagged (slot : Nat)
  /-- Releasing: the flag is cleared; before the bit is set. -/
  | clearing (slot : Nat)
  deriving DecidableEq

/-- The slot a thread is in the middle of acquiring or releasing. -/
def PoolCall.slot : PoolCall → Option Nat
  | .claimed slot => some slot
  | .flagged slot => some slot
  | .clearing slot => some slot
  | _ => none

structure FramePool where
  slotSize : Nat
  slotCount : Nat
  /-- The bytes allocated. -/
  layoutSize : Nat
  freeMask : BitVec 64
  inUse : List Bool
  allocCount : BitVec 64
  /-- The slots owned by an `OwnedSlot` or an `ArcSlot`. -/
  held : List Nat
  calls : Nat → PoolCall

inductive PoolAction where
  | load (thread : Nat)
  /-- The weak exchange may fail although the mask is the one expected. -/
  | exchange (thread : Nat) (spurious : Bool)
  | setFlag (thread : Nat)
  | count (thread : Nat)
  /-- The drop of an owned slot: the first store of `release`. -/
  | release (thread slot : Nat)
  | setBit (thread : Nat)

inductive PoolOut where
  | working
  | acquired (slot : Nat)
  | exhausted
  | released
  deriving DecidableEq

def trailingZeros (mask : BitVec 64) : Nat :=
  ((List.range 64).find? (mask.getLsbD ·)).getD 64

def countOnes (mask : BitVec 64) : Nat :=
  ((Finset.range 64).filter (mask.getLsbD ·)).card

namespace FramePool

/-- `FramePool::new`; whether the allocator returns memory is `allocated`. A layout
is refused when its size rounded up to the alignment of 64 exceeds `isize`. -/
def new (config : FramePoolConfig) (allocated : Bool) : Except FramePoolError FramePool :=
  if config.width = 0 ∨ config.height = 0 then
    .error (.invalidConfig "Width and height must be non-zero")
  else if config.slotCount = 0 then .error (.invalidConfig "Slot count must be non-zero")
  else if config.bytesPerPixel = 0 then .error (.invalidConfig "Bytes per pixel must be non-zero")
  else if 64 < config.slotCount then .error (.invalidConfig "Slot count must be <= 64")
  else
    let totalSize := config.slotSize * config.slotCount
    if 2 ^ 64 ≤ totalSize then .error (.invalidConfig "Total pool size overflow")
    else if 2 ^ 63 - 64 < totalSize then
      .error (.invalidConfig "invalid parameters to Layout::from_size_align")
    else if totalSize ≠ 0 ∧ !allocated then
      .error (.allocationFailed "Failed to allocate memory")
    else
      .ok {
        slotSize := config.slotSize
        slotCount := config.slotCount
        layoutSize := totalSize
        freeMask :=
          if config.slotCount = 64 then BitVec.allOnes 64
          else ((1 : BitVec 64) <<< config.slotCount) - 1
        inUse := List.replicate config.slotCount false
        allocCount := 0
        held := []
        calls := fun _ => .idle }

def setCall (s : FramePool) (thread : Nat) (call : PoolCall) : FramePool :=
  { s with calls := Function.update s.calls thread call }

/-- The load of one attempt of `try_acquire_slot`. -/
def load (s : FramePool) (thread attempt : Nat) : FramePool × PoolOut :=
  if s.slotCount ≤ trailingZeros s.freeMask then (s.setCall thread .idle, .exhausted)
  else (s.setCall thread (.loaded attempt s.freeMask), .working)

/-- `compare_exchange_weak` of the lowest free bit, and the end of the attempt. -/
def exchange (s : FramePool) (thread attempt : Nat) (mask : BitVec 64) (spurious : Bool) :
    FramePool × PoolOut :=
  let slot := trailingZeros mask
  if s.freeMask = mask ∧ !spurious then
    ({ s with freeMask := mask &&& ~~~((1 : BitVec 64) <<< slot) }.setCall thread (.claimed slot),
      .working)
  else if attempt + 1 < s.slotCount then (s.setCall thread (.retrying (attempt + 1)), .working)
  else (s.setCall thread .idle, .exhausted)

/-- The first store of `release`. -/
def release (s : FramePool) (thread slot : Nat) : FramePool × PoolOut :=
  if s.slotCount ≤ slot then (s, .released)
  else ({ s with inUse := s.inUse.set slot false }.setCall thread (.clearing slot), .working)

def freeCount (s : FramePool) : Nat := countOnes s.freeMask

def usedCount (s : FramePool) : Nat := s.slotCount - s.freeCount

/-- The pool under any number of threads. -/
def threads : Machine FramePool PoolAction PoolOut where
  step s
    | .load thread =>
      match s.calls thread with
      | .idle => some (s.load thread 0)
      | .retrying attempt => some (s.load thread attempt)
      | _ => none
    | .exchange thread spurious =>
      match s.calls thread with
      | .loaded attempt mask => some (s.exchange thread attempt mask spurious)
      | _ => none
    | .setFlag thread =>
      match s.calls thread with
      | .claimed slot =>
        some ({ s with inUse := s.inUse.set slot true }.setCall thread (.flagged slot), .working)
      | _ => none
    | .count thread =>
      match s.calls thread with
      | .flagged slot =>
        some ({ s with allocCount := s.allocCount + 1, held := slot :: s.held }.setCall thread .idle,
          .acquired slot)
      | _ => none
    | .release thread slot =>
      match s.calls thread with
      | .idle =>
        -- dropping the owner releases the slot
        if slot ∈ s.held then some ({ s with held := s.held.erase slot }.release thread slot) else none
      | _ => none
    | .setBit thread =>
      match s.calls thread with
      | .clearing slot =>
        some ({ s with freeMask := s.freeMask ||| ((1 : BitVec 64) <<< slot) }.setCall thread .idle,
          .released)
      | _ => none

end FramePool

/-! ### What exclusivity asks -/

/-- The slot each thread is in the middle of acquiring or releasing. -/
def FramePool.transit (s : FramePool) (thread : Nat) : Option Nat := (s.calls thread).slot

/-- A slot that is held, or in the middle of being acquired or released. -/
def FramePool.Taken (s : FramePool) (slot : Nat) : Prop := Owned s.held s.transit slot

/-- The first byte of a slot and the byte after its last. -/
def FramePool.byteRange (s : FramePool) (slot : Nat) : Nat × Nat :=
  (slot * s.slotSize, (slot + 1) * s.slotSize)

structure Exclusive (s : FramePool) (completed : Nat) : Prop where
  distinct : s.held.Nodup
  below : ∀ slot ∈ s.held, slot < s.slotCount
  disjoint : s.held.Pairwise fun a b =>
    (s.byteRange a).2 ≤ (s.byteRange b).1 ∨ (s.byteRange b).2 ≤ (s.byteRange a).1
  inside : ∀ slot ∈ s.held, (s.byteRange slot).2 ≤ s.layoutSize
  mask : ∀ slot, s.freeMask.getLsbD slot = true ↔ slot < s.slotCount ∧ ¬s.Taken slot
  noUnderflow : s.freeCount ≤ s.slotCount
  used : s.usedCount = {slot | s.Taken slot}.ncard
  flagged : ∀ slot ∈ s.held, s.inUse[slot]? = some true
  unflagged : ∀ slot, s.freeMask.getLsbD slot = true → s.inUse[slot]? = some false
  counted : s.allocCount = BitVec.ofNat 64 completed

def PoolOut.acquires : PoolOut → Nat
  | .acquired _ => 1
  | _ => 0

/-- The successful acquires completed in a history. -/
def completedAcquires : History FramePool PoolAction PoolOut → Nat
  | [] => 0
  | e :: older => completedAcquires older + e.out.acquires

/-! ### The bits of the mask -/

theorem trailingZeros_set {mask : BitVec 64} (found : trailingZeros mask < 64) :
    mask.getLsbD (trailingZeros mask) = true := by
  unfold trailingZeros at found ⊢
  cases first : (List.range 64).find? (mask.getLsbD ·) with
  | none => simp [first] at found
  | some bit => simpa using List.find?_some first

theorem bit_shift {slot : Nat} (small : slot < 64) (i : Nat) :
    ((1 : BitVec 64) <<< slot).getLsbD i = decide (i = slot) := by
  have power : (1 : BitVec 64) <<< slot = BitVec.twoPow 64 slot := rfl
  rw [power, BitVec.getLsbD_twoPow]
  simp [small, eq_comm]

theorem cleared {mask : BitVec 64} {slot : Nat} (small : slot < 64) (i : Nat) :
    (mask &&& ~~~((1 : BitVec 64) <<< slot)).getLsbD i = true ↔
      mask.getLsbD i = true ∧ i ≠ slot := by
  have inRange : mask.getLsbD i = true → i < 64 := BitVec.lt_of_getLsbD
  simp only [BitVec.getLsbD_and, BitVec.getLsbD_not, bit_shift small]
  by_cases same : i = slot <;> by_cases low : i < 64 <;> simp_all

theorem restored {mask : BitVec 64} {slot : Nat} (small : slot < 64) (i : Nat) :
    (mask ||| ((1 : BitVec 64) <<< slot)).getLsbD i = true ↔
      mask.getLsbD i = true ∨ i = slot := by
  rw [BitVec.getLsbD_or, bit_shift small, Bool.or_eq_true, decide_eq_true_eq]

/-- The mask of a new pool, the 64-slot pool included. -/
theorem initial_mask {n : Nat} (most : n ≤ 64) (i : Nat) :
    (if n = 64 then BitVec.allOnes 64 else ((1 : BitVec 64) <<< n) - 1).getLsbD i = true ↔
      i < n := by
  split
  · rename_i full
    rw [BitVec.getLsbD_allOnes, decide_eq_true_eq, full]
  · have power : ((1 : BitVec 64) <<< n) - 1 = BitVec.ofNat 64 (2 ^ n - 1) := by
      have small : 2 ^ n < 2 ^ 64 := Nat.pow_lt_pow_right (by omega) (by omega)
      have positive := Nat.two_pow_pos n
      apply BitVec.eq_of_toNat_eq
      rw [show (1 : BitVec 64) <<< n = BitVec.twoPow 64 n from rfl, BitVec.toNat_sub,
        BitVec.toNat_twoPow, BitVec.toNat_ofNat, Nat.mod_eq_of_lt small]
      have one : BitVec.toNat (1 : BitVec 64) = 1 := rfl
      omega
    rw [power, BitVec.getLsbD_ofNat, Nat.testBit_two_pow_sub_one]
    simp only [Bool.and_eq_true, decide_eq_true_eq]
    omega

/-! ### The invariant -/

/-- What a thread knows at its point of a call. -/
def PoolCall.Knows (slotCount : Nat) (inUse : List Bool) : PoolCall → Prop
  | .loaded _ mask => trailingZeros mask < slotCount
  | .flagged slot => inUse[slot]? = some true
  | .clearing slot => inUse[slot]? = some false
  | _ => True

structure Accounted (s : FramePool) : Prop where
  sized : s.inUse.length = s.slotCount
  most : s.slotCount ≤ 64
  layout : s.layoutSize = s.slotSize * s.slotCount
  owners : Owners s.held s.transit
  below : ∀ slot, s.Taken slot → slot < s.slotCount
  mask : ∀ slot, s.freeMask.getLsbD slot = true ↔ slot < s.slotCount ∧ ¬s.Taken slot
  flagged : ∀ slot ∈ s.held, s.inUse[slot]? = some true
  unflagged : ∀ slot, s.freeMask.getLsbD slot = true → s.inUse[slot]? = some false
  knows : ∀ thread, (s.calls thread).Knows s.slotCount s.inUse

section Steps
variable {s : FramePool} {thread : Nat}

@[simp] theorem setCall_inUse (s : FramePool) (thread : Nat) (call : PoolCall) :
    (s.setCall thread call).inUse = s.inUse := rfl

@[simp] theorem setCall_slotCount (s : FramePool) (thread : Nat) (call : PoolCall) :
    (s.setCall thread call).slotCount = s.slotCount := rfl

/-- A move of one thread changes what is in transit with that thread. -/
theorem transit_setCall (s : FramePool) (thread : Nat) (call : PoolCall) :
    (s.setCall thread call).transit = Function.update s.transit thread call.slot := by
  funext other
  by_cases same : other = thread <;> simp [FramePool.transit, FramePool.setCall, same]

theorem knows_setCall {call : PoolCall} {n : Nat} {inUse : List Bool}
    (others : ∀ other, other ≠ thread → (s.calls other).Knows n inUse)
    (own : call.Knows n inUse) (other : Nat) :
    ((s.setCall thread call).calls other).Knows n inUse := by
  by_cases same : other = thread
  · subst same
    simpa [FramePool.setCall] using own
  · simpa [FramePool.setCall, same] using others other same

/-- Setting one slot's flag leaves what the other threads know of theirs. -/
theorem knows_setFlag {call : PoolCall} {n slot : Nat} {inUse : List Bool} {flag : Bool}
    (known : call.Knows n inUse) (other : call.slot ≠ some slot) :
    call.Knows n (inUse.set slot flag) := by
  cases call with
  | flagged own =>
    have apart : slot ≠ own := by
      rintro rfl
      exact other rfl
    simpa [PoolCall.Knows, apart] using known
  | clearing own =>
    have apart : slot ≠ own := by
      rintro rfl
      exact other rfl
    simpa [PoolCall.Knows, apart] using known
  | _ => exact known

/-- A step that leaves the shared words and what is in transit alone. -/
theorem Accounted.moveCall (a : Accounted s) {call : PoolCall}
    (same : call.slot = (s.calls thread).slot) (own : call.Knows s.slotCount s.inUse) :
    Accounted (s.setCall thread call) := by
  have transit : (s.setCall thread call).transit = s.transit := by
    rw [transit_setCall, same]
    exact Function.update_eq_self thread s.transit
  have taken : ∀ slot, (s.setCall thread call).Taken slot ↔ s.Taken slot := by
    intro slot
    unfold FramePool.Taken
    rw [transit]
    exact Iff.rfl
  refine ⟨a.sized, a.most, a.layout, transit ▸ a.owners, ?_, ?_, a.flagged, a.unflagged, ?_⟩
  · intro slot owned
    exact a.below slot ((taken slot).mp owned)
  · intro slot
    rw [taken slot]
    exact a.mask slot
  · exact knows_setCall (fun other _ => a.knows other) own

theorem load_accounted (a : Accounted s) (idle : (s.calls thread).slot = none) (attempt : Nat) :
    Accounted (s.load thread attempt).1 := by
  unfold FramePool.load
  split
  · exact a.moveCall (by rw [idle]; rfl) trivial
  · rename_i found
    exact a.moveCall (by rw [idle]; rfl) (Nat.lt_of_not_le found)

theorem exchange_accounted (a : Accounted s) (at_call : s.calls thread = .loaded attempt mask)
    (spurious : Bool) : Accounted (s.exchange thread attempt mask spurious).1 := by
  have idle : s.transit thread = none := by simp [FramePool.transit, at_call, PoolCall.slot]
  have found : trailingZeros mask < s.slotCount := by
    simpa [at_call, PoolCall.Knows] using a.knows thread
  have small : trailingZeros mask < 64 := Nat.lt_of_lt_of_le found a.most
  unfold FramePool.exchange
  split
  · rename_i won
    have bit : s.freeMask.getLsbD (trailingZeros mask) = true := by
      rw [won.1]
      exact trailingZeros_set small
    have free := ((a.mask _).mp bit).2
    have taken : ∀ slot, ({ s with freeMask := mask &&& ~~~((1 : BitVec 64) <<< trailingZeros mask)
        }.setCall thread (.claimed (trailingZeros mask))).Taken slot ↔
          slot = trailingZeros mask ∨ s.Taken slot := by
      intro slot
      unfold FramePool.Taken
      rw [transit_setCall]
      exact Owners.owned_claim idle
    refine ⟨a.sized, a.most, a.layout, ?_, ?_, ?_, a.flagged, ?_, ?_⟩
    · rw [transit_setCall]
      exact a.owners.claim free
    · intro slot owned
      rcases (taken slot).mp owned with rfl | before
      · exact found
      · exact a.below slot before
    · intro slot
      have shared := a.mask slot
      rw [won.1] at shared
      rw [taken slot]
      refine (cleared small slot).trans ?_
      rw [shared]
      tauto
    · intro slot still
      apply a.unflagged slot
      rw [won.1]
      exact ((cleared small slot).mp still).1
    · exact knows_setCall (fun other _ => a.knows other) trivial
  · split
    · exact a.moveCall (by rw [at_call]; rfl) trivial
    · exact a.moveCall (by rw [at_call]; rfl) trivial

theorem setFlag_accounted (a : Accounted s) (at_call : s.calls thread = .claimed slot) :
    Accounted ({ s with inUse := s.inUse.set slot true }.setCall thread (.flagged slot)) := by
  have moving : s.transit thread = some slot := by simp [FramePool.transit, at_call, PoolCall.slot]
  have owned : s.Taken slot := Owners.owned_of_transit moving
  have transit : ({ s with inUse := s.inUse.set slot true }.setCall thread (.flagged slot)).transit =
      s.transit := by
    rw [transit_setCall]
    exact Function.update_eq_self_iff.mpr moving.symm
  have taken : ∀ i, ({ s with inUse := s.inUse.set slot true }.setCall thread
      (.flagged slot)).Taken i ↔ s.Taken i := by
    intro i
    unfold FramePool.Taken
    rw [transit]
    exact Iff.rfl
  refine ⟨?_, a.most, a.layout, transit ▸ a.owners, ?_, ?_, ?_, ?_, ?_⟩
  · exact (List.length_set ..).trans a.sized
  · intro i still
    exact a.below i ((taken i).mp still)
  · intro i
    rw [taken i]
    exact a.mask i
  · intro i within
    have apart : slot ≠ i := by
      rintro rfl
      exact a.owners.apart thread slot moving within
    exact (List.getElem?_set_ne apart).trans (a.flagged i within)
  · intro i free
    have apart : slot ≠ i := by
      rintro rfl
      exact ((a.mask slot).mp free).2 owned
    exact (List.getElem?_set_ne apart).trans (a.unflagged i free)
  · refine knows_setCall (fun other different => ?_) ?_
    · refine knows_setFlag (a.knows other) fun same => ?_
      exact different (a.owners.single other thread slot same moving)
    · have inRange : slot < s.inUse.length := a.sized ▸ a.below slot owned
      simp [PoolCall.Knows, inRange]

theorem count_accounted (a : Accounted s) (at_call : s.calls thread = .flagged slot) :
    Accounted ({ s with allocCount := s.allocCount + 1, held := slot :: s.held }.setCall thread
      .idle) := by
  have moving : s.transit thread = some slot := by simp [FramePool.transit, at_call, PoolCall.slot]
  have taken : ∀ i, ({ s with allocCount := s.allocCount + 1, held := slot :: s.held }.setCall thread
      .idle).Taken i ↔ s.Taken i := by
    intro i
    unfold FramePool.Taken
    rw [transit_setCall]
    exact Owners.owned_complete moving
  refine ⟨a.sized, a.most, a.layout, ?_, ?_, ?_, ?_, a.unflagged, ?_⟩
  · rw [transit_setCall]
    exact a.owners.complete moving
  · intro i still
    exact a.below i ((taken i).mp still)
  · intro i
    rw [taken i]
    exact a.mask i
  · intro i within
    rcases List.mem_cons.mp within with rfl | older
    · simpa [at_call, PoolCall.Knows] using a.knows thread
    · exact a.flagged i older
  · exact knows_setCall (fun other _ => a.knows other) trivial

theorem release_accounted (a : Accounted s) (at_call : s.calls thread = .idle)
    (within : slot ∈ s.held) : Accounted ({ s with held := s.held.erase slot }.release thread slot).1 := by
  have idle : s.transit thread = none := by simp [FramePool.transit, at_call, PoolCall.slot]
  have inRange : slot < s.slotCount := a.below slot (.inl within)
  have taken : ∀ i, ({ s with held := s.held.erase slot, inUse := s.inUse.set slot false }.setCall
      thread (.clearing slot)).Taken i ↔ s.Taken i := by
    intro i
    unfold FramePool.Taken
    rw [transit_setCall]
    exact Owners.owned_drop within idle
  unfold FramePool.release
  simp only [Nat.not_le.mpr inRange, ↓reduceIte]
  refine ⟨?_, a.most, a.layout, ?_, ?_, ?_, ?_, ?_, ?_⟩
  · exact (List.length_set ..).trans a.sized
  · rw [transit_setCall]
    exact a.owners.drop within
  · intro i still
    exact a.below i ((taken i).mp still)
  · intro i
    rw [taken i]
    exact a.mask i
  · intro i remains
    have apart : slot ≠ i := by
      rintro rfl
      exact a.owners.distinct.not_mem_erase remains
    exact (List.getElem?_set_ne apart).trans (a.flagged i (List.mem_of_mem_erase remains))
  · intro i free
    have apart : slot ≠ i := by
      rintro rfl
      exact ((a.mask slot).mp free).2 (.inl within)
    exact (List.getElem?_set_ne apart).trans (a.unflagged i free)
  · refine knows_setCall (fun other _ => ?_) ?_
    · refine knows_setFlag (a.knows other) fun same => ?_
      exact a.owners.apart other slot same within
    · have flag : slot < s.inUse.length := a.sized ▸ inRange
      simp [PoolCall.Knows, flag]

theorem setBit_accounted (a : Accounted s) (at_call : s.calls thread = .clearing slot) :
    Accounted ({ s with freeMask := s.freeMask ||| ((1 : BitVec 64) <<< slot) }.setCall thread
      .idle) := by
  have moving : s.transit thread = some slot := by simp [FramePool.transit, at_call, PoolCall.slot]
  have inRange : slot < s.slotCount := a.below slot (Owners.owned_of_transit moving)
  have small : slot < 64 := Nat.lt_of_lt_of_le inRange a.most
  have taken : ∀ i, ({ s with freeMask := s.freeMask ||| ((1 : BitVec 64) <<< slot) }.setCall thread
      .idle).Taken i ↔ s.Taken i ∧ i ≠ slot := by
    intro i
    unfold FramePool.Taken
    rw [transit_setCall]
    exact a.owners.owned_free moving
  refine ⟨a.sized, a.most, a.layout, ?_, ?_, ?_, a.flagged, ?_, ?_⟩
  · rw [transit_setCall]
    exact a.owners.free
  · intro i still
    exact a.below i ((taken i).mp still).1
  · intro i
    rw [taken i]
    refine (restored small i).trans ?_
    rw [a.mask i]
    by_cases same : i = slot
    · simp [same, inRange]
    · simp [same]
  · intro i free
    rcases (restored small i).mp free with before | rfl
    · exact a.unflagged i before
    · simpa [at_call, PoolCall.Knows] using a.knows thread
  · exact knows_setCall (fun other _ => a.knows other) trivial

end Steps

/-- The invariant over every step of every thread. -/
theorem step_accounted (a : Accounted s) (moved : FramePool.threads.step s act = some (s', out)) :
    Accounted s' := by
  have reached : ∀ next : FramePool × PoolOut, some next = some (s', out) → Accounted next.1 →
      Accounted s' := by
    rintro _ ⟨rfl⟩ after
    exact after
  cases act with
  | load thread =>
    simp only [FramePool.threads] at moved
    split at moved
    · rename_i at_call
      exact reached _ moved (load_accounted a (by rw [at_call]; rfl) 0)
    · rename_i attempt at_call
      exact reached _ moved (load_accounted a (by rw [at_call]; rfl) attempt)
    · cases moved
  | exchange thread spurious =>
    simp only [FramePool.threads] at moved
    split at moved
    · rename_i at_call
      exact reached _ moved (exchange_accounted a at_call spurious)
    · cases moved
  | setFlag thread =>
    simp only [FramePool.threads] at moved
    split at moved
    · rename_i at_call
      exact reached _ moved (setFlag_accounted a at_call)
    · cases moved
  | count thread =>
    simp only [FramePool.threads] at moved
    split at moved
    · rename_i at_call
      exact reached _ moved (count_accounted a at_call)
    · cases moved
  | release thread slot =>
    simp only [FramePool.threads] at moved
    split at moved
    · rename_i at_call
      rw [Option.ite_none_right_eq_some] at moved
      exact reached _ moved.2 (release_accounted a at_call moved.1)
    · cases moved
  | setBit thread =>
    simp only [FramePool.threads] at moved
    split at moved
    · rename_i at_call
      exact reached _ moved (setBit_accounted a at_call)
    · cases moved

/-- What a step did to the counter, against what it answered. -/
def Counts (s : FramePool) (next : FramePool × PoolOut) : Prop :=
  next.1.allocCount = s.allocCount + BitVec.ofNat 64 next.2.acquires

theorem quiet_counts {s after : FramePool} (same : after.allocCount = s.allocCount) {out : PoolOut}
    (quiet : out.acquires = 0) : Counts s (after, out) := by
  simp [Counts, same, quiet]

theorem load_counts (s : FramePool) (thread attempt : Nat) : Counts s (s.load thread attempt) := by
  unfold FramePool.load
  split <;> exact quiet_counts rfl rfl

theorem exchange_counts (s : FramePool) (thread attempt : Nat) (mask : BitVec 64)
    (spurious : Bool) : Counts s (s.exchange thread attempt mask spurious) := by
  unfold FramePool.exchange
  split
  · exact quiet_counts rfl rfl
  · split <;> exact quiet_counts rfl rfl

theorem release_counts (s : FramePool) (thread slot : Nat) : Counts s (s.release thread slot) := by
  unfold FramePool.release
  split <;> exact quiet_counts rfl rfl

/-- The counter moves with the completed acquires and with nothing else. -/
theorem step_counts (moved : FramePool.threads.step s act = some next) : Counts s next := by
  cases act with
  | load thread =>
    simp only [FramePool.threads] at moved
    split at moved
    · exact Option.some.inj moved ▸ load_counts s thread 0
    · exact Option.some.inj moved ▸ load_counts s thread _
    · cases moved
  | exchange thread spurious =>
    simp only [FramePool.threads] at moved
    split at moved
    · exact Option.some.inj moved ▸ exchange_counts s thread _ _ spurious
    · cases moved
  | setFlag thread =>
    simp only [FramePool.threads] at moved
    split at moved
    · exact Option.some.inj moved ▸ quiet_counts rfl rfl
    · cases moved
  | count thread =>
    simp only [FramePool.threads] at moved
    split at moved
    · exact Option.some.inj moved ▸ rfl
    · cases moved
  | release thread slot =>
    simp only [FramePool.threads] at moved
    split at moved
    · rw [Option.ite_none_right_eq_some] at moved
      exact Option.some.inj moved.2 ▸ release_counts { s with held := s.held.erase slot } thread slot
    · cases moved
  | setBit thread =>
    simp only [FramePool.threads] at moved
    split at moved
    · exact Option.some.inj moved ▸ quiet_counts rfl rfl
    · cases moved

/-! ### Exclusivity -/

/-- The free slots and the taken ones make up the pool. -/
theorem Accounted.used (a : Accounted s) :
    s.freeCount + {slot | s.Taken slot}.ncard = s.slotCount := by
  classical
  have taken : {slot | s.Taken slot} = ↑((Finset.range s.slotCount).filter s.Taken) := by
    ext slot
    simp only [Set.mem_ofPred_eq, Finset.coe_filter, Finset.mem_range]
    exact ⟨fun owned => ⟨a.below slot owned, owned⟩, And.right⟩
  have free : (Finset.range 64).filter (s.freeMask.getLsbD ·) =
      (Finset.range s.slotCount).filter (¬s.Taken ·) := by
    ext slot
    simp only [Finset.mem_filter, Finset.mem_range, a.mask slot]
    have most := a.most
    constructor
    · exact And.right
    · rintro ⟨low, unowned⟩
      exact ⟨by omega, low, unowned⟩
  have parts := Finset.card_filter_add_card_filter_not (s := Finset.range s.slotCount) s.Taken
  rw [Finset.card_range] at parts
  unfold FramePool.freeCount countOnes
  rw [taken, Set.ncard_coe_finset, free]
  omega

theorem Accounted.exclusive (a : Accounted s) (counted : s.allocCount = BitVec.ofNat 64 completed) :
    Exclusive s completed := by
  have parts := a.used
  refine ⟨a.owners.distinct, ?_, ?_, ?_, a.mask, by omega, ?_, a.flagged, a.unflagged, counted⟩
  · intro slot within
    exact a.below slot (.inl within)
  · refine a.owners.distinct.imp fun {x y} (apart : x ≠ y) => ?_
    rcases Nat.lt_or_gt_of_ne apart with before | after
    · exact .inl (Nat.mul_le_mul_right _ before)
    · exact .inr (Nat.mul_le_mul_right _ after)
  · intro slot within
    have low := a.below slot (.inl within)
    rw [a.layout, Nat.mul_comm]
    exact Nat.mul_le_mul_right _ low
  · unfold FramePool.usedCount
    omega

theorem new_accounted (created : FramePool.new config allocated = .ok s) :
    Accounted s ∧ s.allocCount = 0 := by
  simp only [FramePool.new] at created
  split at created
  · cases created
  split at created
  · cases created
  split at created
  · cases created
  split at created
  · cases created
  rename_i most
  split at created
  · cases created
  split at created
  · cases created
  split at created
  · cases created
  cases created
  have bits := initial_mask (Nat.le_of_not_lt most)
  have none : ∀ slot, ¬Owned ([] : List Nat) (fun _ : Nat => none) slot := by simp [Owned]
  refine ⟨⟨by simp, Nat.le_of_not_lt most, rfl, Owners.initial, ?_, ?_, by simp, ?_, ?_⟩, rfl⟩
  · intro slot owned
    exact absurd owned (none slot)
  · intro slot
    rw [bits slot]
    exact ⟨fun low => ⟨low, none slot⟩, And.left⟩
  · intro slot free
    simp [(bits slot).mp free]
  · intro thread
    trivial

/-- Over every interleaving of acquires and releases by any number of threads, on a
pool of any size the constructor accepts. -/
theorem slots_exclusive (created : FramePool.new config allocated = .ok start)
    (run : Run FramePool.threads start history s) : Exclusive s (completedAcquires history) := by
  obtain ⟨initial, zero⟩ := new_accounted created
  have kept : Accounted s ∧ s.allocCount = BitVec.ofNat 64 (completedAcquires history) := by
    refine Run.history_invariant (P := fun history s =>
      Accounted s ∧ s.allocCount = BitVec.ofNat 64 (completedAcquires history))
      ⟨initial, zero⟩ ?_ run
    intro history s act s' out _ ih moved
    refine ⟨step_accounted ih.1 moved, ?_⟩
    have counts : s'.allocCount = s.allocCount + BitVec.ofNat 64 out.acquires := step_counts moved
    rw [counts, ih.2, ← BitVec.ofNat_add]
    rfl
  exact kept.1.exclusive kept.2

/-- Two slots of four bytes. -/
def twoSlotPool : FramePool where
  slotSize := 4
  slotCount := 2
  layoutSize := 8
  freeMask := 3
  inUse := [false, false]
  allocCount := 0
  held := []
  calls := fun _ => .idle

/-- Two threads load the same mask; one takes slot 0, the other retries and is in the
middle of acquiring slot 1. -/
theorem slots_exclusive_of_a_race : ∃ history s,
    (Run FramePool.threads twoSlotPool history s ∧
      (s.held, s.calls 1, s.usedCount) = ([0], .claimed 1, 2)) ∧
    Exclusive s (completedAcquires history) := by
  obtain ⟨history, s, run, seen⟩ := Run.of_observation FramePool.threads twoSlotPool
    [.load 0, .load 1, .exchange 0 false, .exchange 1 false, .setFlag 0, .load 1, .count 0,
      .exchange 1 false]
    (fun r => (r.2.held, r.2.calls 1, r.2.usedCount)) ([0], .claimed 1, 2) (by decide)
  have created : FramePool.new ⟨2, 2, 1, 2⟩ true = .ok twoSlotPool := rfl
  exact ⟨history, s, ⟨run, seen⟩, slots_exclusive created run⟩

end Roboflow.Media
