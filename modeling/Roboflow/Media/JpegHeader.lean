import Mathlib

/-! Image headers, `image/format.rs`, as the pipeline executor reads them from a received
message. Slices are indexed as the source indexes them: a read outside one is the panic. -/
namespace Roboflow.Media

/-- The panic of an index outside a slice. -/
structure OutOfBounds where
  index : Nat
  length : Nat
  deriving DecidableEq

def readByte (data : List UInt8) (i : Nat) : Except OutOfBounds UInt8 :=
  match data[i]? with
  | some byte => .ok byte
  | none => .error ⟨i, data.length⟩

def readRange (data : List UInt8) (start stop : Nat) : Except OutOfBounds (List UInt8) :=
  if stop ≤ data.length then .ok ((data.take stop).drop start) else .error ⟨stop, data.length⟩

/-- `from_be_bytes`. -/
def fromBeBytes (bytes : List UInt8) : Nat :=
  bytes.foldl (fun value byte => value * 256 + byte.toNat) 0

inductive ImageFormat where
  | rgb8
  | bgr8
  | gray8
  | jpeg
  | png
  | unknown
  deriving DecidableEq

namespace ImageFormat

def fromMagicBytes (data : List UInt8) : ImageFormat :=
  if data.length < 4 then unknown
  else if data.take 3 = [0xFF, 0xD8, 0xFF] then jpeg
  else if data.take 4 = [0x89, 0x50, 0x4E, 0x47] then png
  else unknown

/-- The loop over padding bytes: where it leaves the cursor. -/
def skipPadding (data : List UInt8) (i : Nat) : Except OutOfBounds Nat :=
  if _within : i < data.length - 1 then
    match readByte data (i + 1) with
    | .error panic => .error panic
    | .ok next => if next = 0xFF then skipPadding data (i + 1) else .ok i
  else .ok i
termination_by data.length - i

theorem le_skipPadding {data : List UInt8} {i j : Nat} (skipped : skipPadding data i = .ok j) :
    i ≤ j := by
  fun_induction skipPadding data i with
  | case1 => cases skipped
  | case2 i within same ih => exact Nat.le_of_succ_le (ih skipped)
  | case3 => exact Nat.le_of_eq (Except.ok.inj skipped)
  | case4 => exact Nat.le_of_eq (Except.ok.inj skipped)

/-- The loop of `jpeg_dimensions` from a cursor on, with width and height. -/
def scanMarkers (data : List UInt8) (i : Nat) : Except OutOfBounds (Option (Nat × Nat)) :=
  if _within : i < data.length - 8 then do
    let byte ← readByte data i
    if byte ≠ 0xFF then scanMarkers data (i + 1)
    else
      match skipped : skipPadding data i with
      | .error panic => .error panic
      | .ok j => do
        let marker ← readByte data (j + 1)
        if marker = 0xC0 ∨ marker = 0xC2 then
          if data.length < j + 10 then .ok none
          else do
            let height := fromBeBytes [← readByte data (j + 5), ← readByte data (j + 6)]
            let width := fromBeBytes [← readByte data (j + 7), ← readByte data (j + 8)]
            .ok (some (width, height))
        else if data.length < j + 4 then .ok none
        else do
          let length := fromBeBytes [← readByte data (j + 2), ← readByte data (j + 3)]
          scanMarkers data (j + 2 + length)
  else .ok none
termination_by data.length - i
decreasing_by
  · omega
  · have := le_skipPadding skipped
    omega

def jpegDimensions (data : List UInt8) : Except OutOfBounds (Option (Nat × Nat)) :=
  if data.length < 4 then .ok none
  else do
    let first ← readByte data 0
    let second ← readByte data 1
    if first ≠ 0xFF ∨ second ≠ 0xD8 then .ok none else scanMarkers data 2

def pngDimensions (data : List UInt8) : Except OutOfBounds (Option (Nat × Nat)) :=
  if data.length < 24 then .ok none
  else do
    if (← readRange data 0 8) ≠ [0x89, 0x50, 0x4E, 0x47, 0x0D, 0x0A, 0x1A, 0x0A] then .ok none
    else if (← readRange data 12 16) ≠ [0x49, 0x48, 0x44, 0x52] then .ok none
    else
      let width := fromBeBytes (← readRange data 16 20)
      let height := fromBeBytes (← readRange data 20 24)
      if width = 0 ∨ height = 0 then .ok none else .ok (some (width, height))

def extractDimensions (format : ImageFormat) (data : List UInt8) :
    Except OutOfBounds (Option (Nat × Nat)) :=
  match format with
  | jpeg => jpegDimensions data
  | png => pngDimensions data
  | _ => .ok none

/-- The size `process_message_for_frame` gives a compressed image. -/
def receivedDimensions (image : List UInt8) : Except OutOfBounds (Nat × Nat) := do
  let dimensions ← (fromMagicBytes image).extractDimensions image
  .ok (dimensions.getD (0, 0))

/-! ### One round of the scan

What follows the cursor decides what a round does. -/

variable {data rest : List UInt8} {i n : Nat} {marker high low : UInt8}

theorem readByte_drop (at_ : data.drop i = rest) (k : Nat) :
    readByte data (i + k) =
      match rest[k]? with
      | some byte => .ok byte
      | none => .error ⟨i + k, data.length⟩ := by
  rw [readByte, ← at_, List.getElem?_drop]

theorem length_of_drop (at_ : data.drop i = rest) (some_ : rest ≠ []) :
    data.length = i + rest.length := by
  have length := congrArg List.length at_
  have positive := List.length_pos_iff.mpr some_
  rw [List.length_drop] at length
  omega

theorem drop_further (at_ : data.drop i = rest) (k : Nat) : data.drop (i + k) = rest.drop k := by
  rw [← at_, List.drop_drop]

/-- Padding ends before a byte of another value. -/
theorem skipPadding_run (at_ : data.drop i = List.replicate n 0xFF ++ 0xFF :: marker :: rest)
    (other : marker ≠ 0xFF) : skipPadding data i = .ok (i + n) := by
  induction n generalizing i with
  | zero =>
    have next := readByte_drop at_ 1
    have length := length_of_drop at_ (by simp)
    simp only [List.replicate_zero, List.nil_append, List.length_cons] at next length
    rw [skipPadding, dif_pos (by omega), next]
    simp [other]
  | succ n ih =>
    have next := readByte_drop at_ 1
    have length := length_of_drop at_ (by simp)
    have tail := drop_further at_ 1
    simp only [List.replicate_succ, List.cons_append, List.length_cons, List.length_append,
      List.length_replicate] at next length
    have again : (0xFF :: (List.replicate n (0xFF : UInt8) ++ 0xFF :: marker :: rest))[1]? =
        some 0xFF := by cases n <;> rfl
    rw [again] at next
    rw [skipPadding, dif_pos (by omega), next]
    simp only [if_true]
    rw [ih (by simpa [List.replicate_succ] using tail)]
    congr 1
    omega

/-- Padding up to the end leaves the cursor on the last byte. -/
theorem skipPadding_end (at_ : data.drop i = List.replicate (n + 1) 0xFF) :
    skipPadding data i = .ok (i + n) := by
  induction n generalizing i with
  | zero =>
    have length := length_of_drop at_ (by simp)
    rw [skipPadding, dif_neg (by simp at length; omega)]
    rfl
  | succ n ih =>
    have next := readByte_drop at_ 1
    have length := length_of_drop at_ (by simp)
    have tail := drop_further at_ 1
    rw [List.length_replicate] at length
    simp only [List.replicate_succ, List.getElem?_cons_succ, List.getElem?_cons_zero] at next
    rw [skipPadding, dif_pos (by omega), next]
    simp only [if_true]
    rw [ih (by simpa [List.replicate_succ] using tail)]
    congr 1
    omega

theorem scanMarkers_short (short : (data.drop i).length ≤ 8) : scanMarkers data i = .ok none := by
  rw [List.length_drop] at short
  rw [scanMarkers, dif_neg (by omega)]

theorem scanMarkers_skip (at_ : data.drop i = marker :: rest) (long : 8 ≤ rest.length)
    (other : marker ≠ 0xFF) : scanMarkers data i = scanMarkers data (i + 1) := by
  have first := readByte_drop at_ 0
  have length := length_of_drop at_ (by simp)
  simp only [List.length_cons, List.getElem?_cons_zero, Nat.add_zero] at first length
  conv => lhs; rw [scanMarkers, dif_pos (by omega), first]
  exact if_pos other

/-- A round on a padding byte, whatever the padding leads to. -/
theorem scanMarkers_skipped {j : Nat} (within : i < data.length - 8)
    (first : readByte data i = .ok 0xFF) (skipped : skipPadding data i = .ok j) :
    scanMarkers data i =
      (do
        let marker ← readByte data (j + 1)
        if marker = 0xC0 ∨ marker = 0xC2 then
          if data.length < j + 10 then .ok none
          else do
            let height := fromBeBytes [← readByte data (j + 5), ← readByte data (j + 6)]
            let width := fromBeBytes [← readByte data (j + 7), ← readByte data (j + 8)]
            .ok (some (width, height))
        else if data.length < j + 4 then .ok none
        else do
          let length := fromBeBytes [← readByte data (j + 2), ← readByte data (j + 3)]
          scanMarkers data (j + 2 + length)) := by
  conv => lhs; rw [scanMarkers, dif_pos within, first]
  simp only [bind, Except.bind, ne_eq, not_true, if_false]
  split
  · rename_i panic other
    rw [skipped] at other
    cases other
  · rename_i k other
    rw [skipped] at other
    cases other
    rfl

theorem drop_padding (at_ : data.drop i = List.replicate n 0xFF ++ 0xFF :: marker :: rest) :
    data.drop (i + n) = 0xFF :: marker :: rest := by
  rw [drop_further at_, List.drop_append_of_le_length (by simp), List.drop_replicate,
    Nat.sub_self, List.replicate_zero, List.nil_append]

/-- A round that meets a marker, behind any padding. -/
theorem scanMarkers_marker (at_ : data.drop i = List.replicate n 0xFF ++ 0xFF :: marker :: rest)
    (other : marker ≠ 0xFF) (long : 8 < n + rest.length + 2) :
    scanMarkers data i =
      (if marker = 0xC0 ∨ marker = 0xC2 then
        if data.length < i + n + 10 then .ok none
        else do
          let height := fromBeBytes [← readByte data (i + n + 5), ← readByte data (i + n + 6)]
          let width := fromBeBytes [← readByte data (i + n + 7), ← readByte data (i + n + 8)]
          .ok (some (width, height))
      else if data.length < i + n + 4 then .ok none
      else do
        let length := fromBeBytes [← readByte data (i + n + 2), ← readByte data (i + n + 3)]
        scanMarkers data (i + n + 2 + length)) := by
  have length := length_of_drop at_ (by simp)
  simp only [List.length_append, List.length_replicate, List.length_cons] at length
  have first : readByte data i = .ok 0xFF := by
    have read := readByte_drop at_ 0
    cases n <;> simpa [List.replicate_succ] using read
  have second : readByte data (i + n + 1) = .ok marker := readByte_drop (drop_padding at_) 1
  rw [scanMarkers_skipped (by omega) first (skipPadding_run at_ other), second]
  rfl

/-- What a marker's length is counted from. -/
theorem drop_after_marker (at_ : data.drop i = List.replicate n 0xFF ++ 0xFF :: marker :: rest)
    (length : Nat) : data.drop (i + n + 2 + length) = rest.drop length := by
  rw [Nat.add_assoc (i + n), drop_further (drop_padding at_), Nat.add_comm]
  rfl

/-- A segment is jumped over by its length. -/
theorem scanMarkers_segment
    (at_ : data.drop i = List.replicate n 0xFF ++ 0xFF :: marker :: high :: low :: rest)
    (other : marker ≠ 0xFF) (baseline : marker ≠ 0xC0) (progressive : marker ≠ 0xC2)
    (long : 8 < n + rest.length + 4) :
    scanMarkers data i = scanMarkers data (i + n + 2 + fromBeBytes [high, low]) := by
  have reads := readByte_drop (drop_padding at_)
  have length := length_of_drop at_ (by simp)
  simp only [List.length_append, List.length_replicate, List.length_cons] at length
  rw [scanMarkers_marker at_ other (by simp; omega), if_neg (by simp [baseline, progressive]),
    if_neg (by omega), reads 2, reads 3]
  rfl

/-- The bytes end inside the marker's length. -/
theorem scanMarkers_truncated
    (at_ : data.drop i = List.replicate n 0xFF ++ 0xFF :: marker :: rest)
    (other : marker ≠ 0xFF) (baseline : marker ≠ 0xC0) (progressive : marker ≠ 0xC2)
    (short : rest.length < 2) : scanMarkers data i = .ok none := by
  have length := length_of_drop at_ (by simp)
  simp only [List.length_append, List.length_replicate, List.length_cons] at length
  by_cases long : 8 < n + rest.length + 2
  · rw [scanMarkers_marker at_ other long, if_neg (by simp [baseline, progressive]),
      if_pos (by omega)]
  · exact scanMarkers_short (by rw [at_]; simp; omega)

/-- A frame header gives its size, when a byte more than the size is there. -/
theorem scanMarkers_frame {lengthHigh lengthLow precision h₁ h₀ w₁ w₀ : UInt8}
    (at_ : data.drop i = List.replicate n 0xFF ++ 0xFF :: marker :: lengthHigh :: lengthLow ::
      precision :: h₁ :: h₀ :: w₁ :: w₀ :: rest)
    (frame : marker = 0xC0 ∨ marker = 0xC2) :
    scanMarkers data i =
      if rest = [] then .ok none
      else .ok (some (fromBeBytes [w₁, w₀], fromBeBytes [h₁, h₀])) := by
  have other : marker ≠ 0xFF := by rcases frame with rfl | rfl <;> decide
  have reads := readByte_drop (drop_padding at_)
  have length := length_of_drop at_ (by simp)
  simp only [List.length_append, List.length_replicate, List.length_cons] at length
  rw [scanMarkers_marker at_ other (by simp; omega), if_pos frame]
  cases rest with
  | nil =>
    rw [if_pos (by simp at length; omega), if_pos rfl]
  | cons next more =>
    rw [if_neg (by simp at length; omega), if_neg (by simp), reads 5, reads 6, reads 7, reads 8]
    rfl

theorem scanMarkers_frame_truncated
    (at_ : data.drop i = List.replicate n 0xFF ++ 0xFF :: marker :: rest)
    (frame : marker = 0xC0 ∨ marker = 0xC2) (short : rest.length < 8) :
    scanMarkers data i = .ok none := by
  have other : marker ≠ 0xFF := by rcases frame with rfl | rfl <;> decide
  have length := length_of_drop at_ (by simp)
  simp only [List.length_append, List.length_replicate, List.length_cons] at length
  by_cases long : 8 < n + rest.length + 2
  · rw [scanMarkers_marker at_ other long, if_pos frame, if_pos (by omega)]
  · exact scanMarkers_short (by rw [at_]; simp; omega)

theorem scanMarkers_frame_ok {panic : OutOfBounds}
    (at_ : data.drop i = List.replicate n 0xFF ++ 0xFF :: marker :: rest)
    (frame : marker = 0xC0 ∨ marker = 0xC2) : scanMarkers data i ≠ .error panic := by
  match rest, at_ with
  | a :: b :: c :: h₁ :: h₀ :: w₁ :: w₀ :: more, at_ =>
    rw [scanMarkers_frame at_ frame]
    split <;> simp
  | [], at_ | [_], at_ | [_, _], at_ | [_, _, _], at_ | [_, _, _, _], at_ | [_, _, _, _, _], at_
  | [_, _, _, _, _, _], at_ =>
    rw [scanMarkers_frame_truncated at_ frame (by simp)]
    simp

/-- Padding up to the end: the marker is read behind it. -/
theorem scanMarkers_padding (at_ : data.drop i = List.replicate n 0xFF) (long : 8 < n) :
    scanMarkers data i = .error ⟨data.length, data.length⟩ := by
  obtain ⟨m, rfl⟩ : ∃ m, n = m + 1 := ⟨n - 1, by omega⟩
  have length := length_of_drop at_ (by simp)
  rw [List.length_replicate] at length
  have first : readByte data i = .ok 0xFF := by
    have read := readByte_drop at_ 0
    simpa [List.replicate_succ] using read
  have behind : readByte data (i + m + 1) = .error ⟨data.length, data.length⟩ := by
    have none_ : data[i + m + 1]? = none := List.getElem?_eq_none (by omega)
    rw [readByte, none_]
    simp only [Except.error.injEq, OutOfBounds.mk.injEq, and_true]
    omega
  rw [scanMarkers_skipped (by omega) first (skipPadding_end at_), behind]
  rfl

/-! ### Bytes that end in padding -/

/-- Bytes that a reader by markers follows to a last run of padding, which is longer than
a frame header and ends with the bytes: it passes over other bytes than `0xFF` and jumps
over the segments that are not frame headers. -/
inductive EndsInPadding : List UInt8 → Prop where
  | padding (n : Nat) (long : 8 < n) : EndsInPadding (List.replicate n 0xFF)
  | other (byte : UInt8) (rest : List UInt8) (other : byte ≠ 0xFF) (tail : EndsInPadding rest) :
      EndsInPadding (byte :: rest)
  | segment (n : Nat) (marker high low : UInt8) (rest : List UInt8) (other : marker ≠ 0xFF)
      (baseline : marker ≠ 0xC0) (progressive : marker ≠ 0xC2)
      (tail : EndsInPadding ((high :: low :: rest).drop (fromBeBytes [high, low]))) :
      EndsInPadding (List.replicate n 0xFF ++ 0xFF :: marker :: high :: low :: rest)

theorem EndsInPadding.long (ends : EndsInPadding rest) : 8 < rest.length := by
  induction ends with
  | padding n long => simpa using long
  | other byte rest other tail ih => exact Nat.lt_succ_of_lt ih
  | segment n marker high low rest other baseline progressive tail ih =>
    rw [List.length_drop] at ih
    simp only [List.length_append, List.length_replicate, List.length_cons] at ih ⊢
    omega

/-- Whatever follows a cursor is padding, and then nothing or a byte of another value. -/
theorem leading_padding (bytes : List UInt8) :
    (∃ n, bytes = List.replicate n 0xFF) ∨
      ∃ n byte rest, byte ≠ 0xFF ∧ bytes = List.replicate n 0xFF ++ byte :: rest := by
  induction bytes with
  | nil => exact .inl ⟨0, rfl⟩
  | cons first more ih =>
    by_cases padding : first = 0xFF
    · subst padding
      rcases ih with ⟨n, rfl⟩ | ⟨n, byte, rest, other, rfl⟩
      · exact .inl ⟨n + 1, rfl⟩
      · exact .inr ⟨n + 1, byte, rest, other, rfl⟩
    · exact .inr ⟨0, first, more, padding, rfl⟩

theorem scanMarkers_panics_of_endsInPadding (ends : EndsInPadding rest) :
    ∀ i, data.drop i = rest → ∃ panic, scanMarkers data i = .error panic := by
  induction ends with
  | padding n long => exact fun i at_ => ⟨_, scanMarkers_padding at_ long⟩
  | other byte rest other tail ih =>
    intro i at_
    have long := tail.long
    rw [scanMarkers_skip at_ (by omega) other]
    exact ih (i + 1) (drop_further at_ 1)
  | segment n marker high low rest other baseline progressive tail ih =>
    intro i at_
    have long := (EndsInPadding.segment n marker high low rest other baseline progressive tail).long
    simp only [List.length_append, List.length_replicate, List.length_cons] at long
    rw [scanMarkers_segment at_ other baseline progressive (by omega)]
    refine ih _ ?_
    rw [drop_after_marker at_]

/-- A panic is met only by following the bytes to padding at their end. -/
theorem endsInPadding_of_panic {panic : OutOfBounds} (panics : scanMarkers data i = .error panic) :
    EndsInPadding (data.drop i) := by
  induction remaining : data.length - i using Nat.strongRecOn generalizing i with
  | ind remaining ih =>
    by_cases short : (data.drop i).length ≤ 8
    · rw [scanMarkers_short short] at panics
      cases panics
    · have inside : i < data.length := by
        rw [List.length_drop] at short
        omega
      rcases leading_padding (data.drop i) with ⟨n, at_⟩ | ⟨n, byte, rest, other, at_⟩
      · rw [at_] at short ⊢
        exact .padding n (by simpa using short)
      · cases n with
        | zero =>
          have next : data.drop i = byte :: rest := at_
          rw [next] at short ⊢
          rw [scanMarkers_skip next (by simpa using short) other] at panics
          have tail := ih (data.length - (i + 1)) (by omega) panics rfl
          rw [drop_further next 1] at tail
          exact .other byte rest other tail
        | succ n =>
          rw [List.replicate_succ', List.append_assoc, List.singleton_append] at at_
          by_cases frame : byte = 0xC0 ∨ byte = 0xC2
          · exact absurd panics (scanMarkers_frame_ok at_ frame)
          · obtain ⟨baseline, progressive⟩ := not_or.mp frame
            match rest, at_ with
            | [], at_ =>
              rw [scanMarkers_truncated at_ other baseline progressive (by simp)] at panics
              cases panics
            | [single], at_ =>
              rw [scanMarkers_truncated at_ other baseline progressive (by simp)] at panics
              cases panics
            | high :: low :: rest, at_ =>
              rw [at_] at short
              simp only [List.length_append, List.length_replicate, List.length_cons] at short
              rw [scanMarkers_segment at_ other baseline progressive (by omega)] at panics
              have tail := ih _ (by omega) panics rfl
              rw [drop_after_marker at_] at tail
              rw [at_]
              exact .segment n byte high low rest other baseline progressive tail

/-- A start of image, and bytes that end in padding. -/
def PaddedJpeg (data : List UInt8) : Prop := ∃ rest, data = 0xFF :: 0xD8 :: rest ∧ EndsInPadding rest

theorem jpegDimensions_start (long : 2 ≤ rest.length) :
    jpegDimensions (0xFF :: 0xD8 :: rest) = scanMarkers (0xFF :: 0xD8 :: rest) 2 := by
  rw [jpegDimensions, if_neg (by simp; omega)]
  rfl

theorem jpegDimensions_other (other : ∀ rest, data ≠ 0xFF :: 0xD8 :: rest) :
    jpegDimensions data = .ok none := by
  match data with
  | [] | [_] => rfl
  | first :: second :: rest =>
    have different : first ≠ 0xFF ∨ second ≠ 0xD8 := by
      by_contra same
      rw [not_or, not_not, not_not] at same
      exact other rest (by rw [same.1, same.2])
    rw [jpegDimensions]
    split
    · rfl
    · exact if_pos different

theorem jpegDimensions_panics_iff (data : List UInt8) :
    (∃ panic, jpegDimensions data = .error panic) ↔ PaddedJpeg data := by
  constructor
  · rintro ⟨panic, panics⟩
    by_cases start : ∃ rest, data = 0xFF :: 0xD8 :: rest
    · obtain ⟨rest, rfl⟩ := start
      by_cases short : rest.length < 2
      · rw [jpegDimensions, if_pos (by simp; omega)] at panics
        cases panics
      · rw [jpegDimensions_start (by omega)] at panics
        exact ⟨rest, rfl, endsInPadding_of_panic panics⟩
    · rw [jpegDimensions_other (not_exists.mp start)] at panics
      cases panics
  · rintro ⟨rest, rfl, ends⟩
    have long := ends.long
    rw [jpegDimensions_start (by omega)]
    exact scanMarkers_panics_of_endsInPadding ends 2 rfl

theorem readRange_ok {start stop : Nat} (within : stop ≤ data.length) :
    readRange data start stop = .ok ((data.take stop).drop start) := if_pos within

theorem pngDimensions_ok (data : List UInt8) : ∃ dimensions, pngDimensions data = .ok dimensions := by
  by_cases short : data.length < 24
  · exact ⟨none, if_pos short⟩
  · rw [pngDimensions, if_neg short, readRange_ok (by omega), readRange_ok (by omega),
      readRange_ok (by omega), readRange_ok (by omega)]
    simp only [bind, Except.bind]
    split
    · exact ⟨_, rfl⟩
    · split
      · exact ⟨_, rfl⟩
      · split <;> exact ⟨_, rfl⟩

theorem ok_iff_no_panic {α : Type} (outcome : Except OutOfBounds α) :
    (∃ value, outcome = .ok value) ↔ ¬ ∃ panic, outcome = .error panic := by
  cases outcome <;> simp

theorem receivedDimensions_panics_iff (image : List UInt8) :
    (∃ panic, receivedDimensions image = .error panic) ↔
      fromMagicBytes image = jpeg ∧ PaddedJpeg image := by
  rw [← jpegDimensions_panics_iff]
  have same : (∃ panic, receivedDimensions image = .error panic) ↔
      ∃ panic, (fromMagicBytes image).extractDimensions image = .error panic := by
    rw [receivedDimensions]
    cases (fromMagicBytes image).extractDimensions image <;> simp [bind, Except.bind]
  rw [same]
  obtain ⟨dimensions, safe⟩ := pngDimensions_ok image
  cases fromMagicBytes image <;> simp [extractDimensions, safe]

/-- The scan reads inside the slice exactly if the slice is not a JPEG that ends in
padding, and so does the pipeline executor on what it takes for a JPEG. -/
theorem header_scan_safe_iff (data : List UInt8) :
    ((∃ dimensions, jpegDimensions data = .ok dimensions) ↔ ¬ PaddedJpeg data) ∧
    ((∃ size, receivedDimensions data = .ok size) ↔
      ¬ (fromMagicBytes data = jpeg ∧ PaddedJpeg data)) := by
  rw [ok_iff_no_panic, ok_iff_no_panic, jpegDimensions_panics_iff, receivedDimensions_panics_iff]
  exact ⟨Iff.rfl, Iff.rfl⟩

/-- Nothing but padding behind the start of image: the marker is read outside. -/
theorem padded_image_panics :
    jpegDimensions (0xFF :: 0xD8 :: List.replicate 9 0xFF) = .error ⟨11, 11⟩ ∧
    receivedDimensions (0xFF :: 0xD8 :: List.replicate 9 0xFF) = .error ⟨11, 11⟩ := by
  have panics : jpegDimensions (0xFF :: 0xD8 :: List.replicate 9 0xFF) = .error ⟨11, 11⟩ := by
    rw [jpegDimensions_start (by simp)]
    exact scanMarkers_padding rfl (by simp)
  refine ⟨panics, ?_⟩
  have taken : fromMagicBytes (0xFF :: 0xD8 :: List.replicate 9 0xFF) = jpeg := rfl
  rw [receivedDimensions, taken, extractDimensions, panics]
  rfl

/-! ### The frame header's size -/

/-- A length of two bytes. -/
def beBytes (n : UInt16) : List UInt8 := [(n >>> 8).toUInt8, n.toUInt8]

theorem fromBeBytes_beBytes (n : UInt16) : fromBeBytes (beBytes n) = n.toNat := by
  have small := n.toNat_lt
  simp [fromBeBytes, beBytes, UInt16.toNat_shiftRight, Nat.shiftRight_eq_div_pow]
  omega

/-- Neither a padding byte nor a marker that stands alone. -/
def carriesLength (marker : UInt8) : Prop :=
  marker ≠ 0xFF ∧ 0x01 < marker ∧ ¬ (0xD0 ≤ marker ∧ marker ≤ 0xD9)

def startsFrame (marker : UInt8) : Prop :=
  0xC0 ≤ marker ∧ marker ≤ 0xCF ∧ marker ≠ 0xC4 ∧ marker ≠ 0xC8 ∧ marker ≠ 0xCC

instance (marker : UInt8) : Decidable (carriesLength marker) := inferInstanceAs (Decidable (_ ∧ _))

instance (marker : UInt8) : Decidable (startsFrame marker) := inferInstanceAs (Decidable (_ ∧ _))

/-- A segment behind any padding. Its length counts its own two bytes. -/
structure Segment where
  fill : Nat
  marker : UInt8
  payload : List UInt8
  counted : carriesLength marker
  notFrame : ¬ startsFrame marker
  fits : 2 + payload.length < 2 ^ 16

def Segment.bytes (segment : Segment) : List UInt8 :=
  List.replicate segment.fill 0xFF ++ 0xFF :: segment.marker ::
    beBytes (UInt16.ofNat (2 + segment.payload.length)) ++ segment.payload

/-- A baseline or progressive frame header: the size, and at least the number of components. -/
structure FrameHeader where
  fill : Nat
  marker : UInt8
  precision : UInt8
  height : UInt16
  width : UInt16
  components : List UInt8
  frame : marker = 0xC0 ∨ marker = 0xC2
  complete : components ≠ []
  fits : 7 + components.length < 2 ^ 16

def FrameHeader.bytes (header : FrameHeader) : List UInt8 :=
  List.replicate header.fill 0xFF ++ 0xFF :: header.marker ::
    beBytes (UInt16.ofNat (7 + header.components.length)) ++
    header.precision :: beBytes header.height ++ beBytes header.width ++ header.components

theorem Segment.skipped (segment : Segment) :
    segment.marker ≠ 0xFF ∧ segment.marker ≠ 0xC0 ∧ segment.marker ≠ 0xC2 := by
  refine ⟨segment.counted.1, fun same => ?_, fun same => ?_⟩
  · exact segment.notFrame (by rw [same]; decide)
  · exact segment.notFrame (by rw [same]; decide)

/-- A round moves the cursor over a whole segment. -/
theorem scanMarkers_over_segment (segment : Segment) {more : List UInt8}
    (at_ : data.drop i = segment.bytes ++ more) (long : 8 ≤ more.length) :
    ∃ j, data.drop j = more ∧ scanMarkers data i = scanMarkers data j := by
  obtain ⟨other, baseline, progressive⟩ := segment.skipped
  have shape : data.drop i = List.replicate segment.fill 0xFF ++ 0xFF :: segment.marker ::
      (beBytes (UInt16.ofNat (2 + segment.payload.length)) ++ (segment.payload ++ more)) := by
    rw [at_, Segment.bytes]
    simp only [List.append_assoc, List.cons_append]
  refine ⟨_, ?_, scanMarkers_segment shape other baseline progressive ?_⟩
  · change data.drop (_ + _ + 2 + fromBeBytes (beBytes _)) = more
    rw [fromBeBytes_beBytes, drop_after_marker shape, UInt16.toNat_ofNat',
      Nat.mod_eq_of_lt segment.fits, ← List.append_assoc]
    exact List.drop_left' (by rw [List.length_append]; rfl)
  · change 8 < segment.fill + (segment.payload ++ more).length + 4
    rw [List.length_append]
    omega

theorem scanMarkers_frameHeader (header : FrameHeader) {tail : List UInt8}
    (at_ : data.drop i = header.bytes ++ tail) :
    scanMarkers data i = .ok (some (header.width.toNat, header.height.toNat)) := by
  have shape : data.drop i = List.replicate header.fill 0xFF ++ 0xFF :: header.marker ::
      (beBytes (UInt16.ofNat (7 + header.components.length)) ++ header.precision ::
        (beBytes header.height ++ (beBytes header.width ++ (header.components ++ tail)))) := by
    rw [at_, FrameHeader.bytes]
    simp only [List.append_assoc, List.cons_append]
  rw [scanMarkers_frame shape header.frame, if_neg (by simp [header.complete])]
  change Except.ok (some (fromBeBytes (beBytes header.width), fromBeBytes (beBytes header.height))) = _
  rw [fromBeBytes_beBytes, fromBeBytes_beBytes]

theorem length_frameHeader (header : FrameHeader) : 10 ≤ header.bytes.length := by
  have some_ := List.length_pos_iff.mpr header.complete
  simp [FrameHeader.bytes, beBytes]
  omega

theorem scanMarkers_segments (segments : List Segment) (header : FrameHeader) (tail : List UInt8)
    (at_ : data.drop i = segments.flatMap Segment.bytes ++ (header.bytes ++ tail)) :
    scanMarkers data i = .ok (some (header.width.toNat, header.height.toNat)) := by
  induction segments generalizing i with
  | nil => exact scanMarkers_frameHeader header at_
  | cons segment rest ih =>
    have shape : data.drop i =
        segment.bytes ++ (rest.flatMap Segment.bytes ++ (header.bytes ++ tail)) := by
      rw [at_, List.flatMap_cons, List.append_assoc]
    have long := length_frameHeader header
    obtain ⟨j, next, same⟩ := scanMarkers_over_segment segment shape (by simp; omega)
    rw [same]
    exact ih next

/-- Whatever the payloads hold, the size is the frame header's. -/
theorem jpegDimensions_frame_header (segments : List Segment) (header : FrameHeader)
    (tail : List UInt8) :
    jpegDimensions
      (0xFF :: 0xD8 :: (segments.flatMap Segment.bytes ++ (header.bytes ++ tail))) =
      .ok (some (header.width.toNat, header.height.toNat)) := by
  have long := length_frameHeader header
  rw [jpegDimensions_start (by simp; omega)]
  exact scanMarkers_segments segments header tail rfl

end ImageFormat

end Roboflow.Media
