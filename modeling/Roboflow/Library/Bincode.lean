import Roboflow.Library.Bytes

/-! The fixed-width little-endian binary format of the bincode crate, version 1:
integers in as many bytes as their type has, lengths as 64-bit integers in front
of strings and sequences, one tag byte in front of an optional value, and the
fields of a record one after the other. Decoding reads from the front and leaves
the rest; bytes left over at the end are accepted.

A codec carries the two laws that make it one: decoding undoes encoding, and what
decodes is the encoding of the result. -/
namespace Library

inductive DecodeError where
  | unexpectedEof
  | invalidTag (found : UInt8)
  | invalidUtf8
  deriving DecidableEq, Repr

structure Codec (α : Type) where
  encode : α → Bytes
  decode : Bytes → Except DecodeError (α × Bytes)
  complete : ∀ a rest, decode (encode a ++ rest) = .ok (a, rest)
  sound : ∀ {bytes a rest}, decode bytes = .ok (a, rest) → bytes = encode a ++ rest

namespace Codec

/-- Read a value from the front of a buffer, as `deserialize` does. -/
def read (codec : Codec α) (bytes : Bytes) : Except DecodeError α := (codec.decode bytes).map Prod.fst

/-- A value is read back from its own encoding. -/
theorem read_encode (codec : Codec α) (a : α) : codec.read (codec.encode a) = .ok a := by
  have decoded := codec.complete a []
  rw [List.append_nil] at decoded
  simp [read, decoded, Except.map]

/-- A buffer a value is read from is at least as long as the value's encoding. -/
theorem length_le_of_read (codec : Codec α) (ok : codec.read bytes = .ok a) :
    (codec.encode a).length ≤ bytes.length := by
  unfold read at ok
  cases decoded : codec.decode bytes with
  | error e => rw [decoded] at ok; cases ok
  | ok result =>
    obtain ⟨value, rest⟩ := result
    rw [decoded] at ok
    cases ok
    rw [codec.sound decoded, List.length_append]
    exact Nat.le_add_right _ _

/-! ### Integers -/

def leBytes : Nat → Nat → Bytes
  | 0, _ => []
  | width + 1, value => UInt8.ofNat (value % 256) :: leBytes width (value / 256)

def ofLeBytes : Bytes → Nat
  | [] => 0
  | b :: rest => b.toNat + 256 * ofLeBytes rest

@[simp] theorem length_leBytes (width value : Nat) : (leBytes width value).length = width := by
  induction width generalizing value with
  | zero => rfl
  | succ width ih => rw [leBytes, List.length_cons, ih]

theorem ofLeBytes_leBytes (width value : Nat) (small : value < 256 ^ width) :
    ofLeBytes (leBytes width value) = value := by
  induction width generalizing value with
  | zero =>
    have zero : value = 0 := Nat.lt_one_iff.mp small
    rw [zero]
    rfl
  | succ width ih =>
    have high : value / 256 < 256 ^ width := by
      rw [Nat.div_lt_iff_lt_mul (by decide), ← Nat.pow_succ]
      exact small
    rw [leBytes, ofLeBytes, ih _ high, UInt8.toNat_ofNat', Nat.mod_mod]
    exact Nat.mod_add_div value 256

theorem ofLeBytes_lt (bytes : Bytes) : ofLeBytes bytes < 256 ^ bytes.length := by
  induction bytes with
  | nil => exact Nat.one_pos
  | cons b rest ih =>
    have := b.toNat_lt
    rw [ofLeBytes, List.length_cons, Nat.pow_succ]
    omega

theorem leBytes_ofLeBytes (bytes : Bytes) : leBytes bytes.length (ofLeBytes bytes) = bytes := by
  induction bytes with
  | nil => rfl
  | cons b rest ih =>
    have low : (ofLeBytes (b :: rest)) % 256 = b.toNat := by
      have := b.toNat_lt
      rw [ofLeBytes]
      omega
    have high : ofLeBytes (b :: rest) / 256 = ofLeBytes rest := by
      have := b.toNat_lt
      rw [ofLeBytes]
      omega
    rw [List.length_cons, leBytes, low, high, ih, UInt8.ofNat_toNat]

/-- The next `count` bytes. -/
def takeExact (count : Nat) (bytes : Bytes) : Except DecodeError (Bytes × Bytes) :=
  if count ≤ bytes.length then .ok (bytes.take count, bytes.drop count) else .error .unexpectedEof

theorem takeExact_append (front rest : Bytes) :
    takeExact front.length (front ++ rest) = .ok (front, rest) := by
  simp [takeExact]

theorem takeExact_eq_ok (taken : takeExact count bytes = .ok (front, rest)) :
    bytes = front ++ rest ∧ front.length = count := by
  unfold takeExact at taken
  split at taken
  · rename_i enough
    cases taken
    exact ⟨(List.take_append_drop count bytes).symm, List.length_take_of_le enough⟩
  · cases taken

/-- An unsigned integer of `width` bytes. -/
def word (width : Nat) : Codec (Fin (256 ^ width)) where
  encode value := leBytes width value
  decode bytes :=
    match takeExact width bytes with
    | .error e => .error e
    | .ok (front, rest) =>
      .ok (⟨ofLeBytes front % 256 ^ width, Nat.mod_lt _ (Nat.pow_pos (by decide))⟩, rest)
  complete value rest := by
    have taken := takeExact_append (leBytes width value) rest
    rw [length_leBytes] at taken
    simp only [taken, ofLeBytes_leBytes width value value.isLt, Nat.mod_eq_of_lt value.isLt]
  sound := by
    intro bytes value rest decoded
    split at decoded
    · cases decoded
    · rename_i front remaining taken
      cases decoded
      obtain ⟨parts, length⟩ := takeExact_eq_ok taken
      have small := ofLeBytes_lt front
      rw [length] at small
      have exactly := leBytes_ofLeBytes front
      rw [length] at exactly
      simp only [Nat.mod_eq_of_lt small, exactly, parts]

abbrev U32 := Fin (256 ^ 4)
abbrev U64 := Fin (256 ^ 8)

instance u32NeZero : NeZero (256 ^ 4) := ⟨by decide⟩
instance u64NeZero : NeZero (256 ^ 8) := ⟨by decide⟩

def u32 : Codec U32 := word 4
def u64 : Codec U64 := word 8

/-! ### Records and optional values -/

/-- One field, then the next. -/
def pair (first : Codec α) (second : Codec β) : Codec (α × β) where
  encode value := first.encode value.1 ++ second.encode value.2
  decode bytes :=
    match first.decode bytes with
    | .error e => .error e
    | .ok (a, rest) =>
      match second.decode rest with
      | .error e => .error e
      | .ok (b, rest) => .ok ((a, b), rest)
  complete value rest := by
    rw [List.append_assoc]
    simp only [first.complete, second.complete]
  sound := by
    intro bytes value rest decoded
    split at decoded
    · cases decoded
    · rename_i a middle firstRead
      split at decoded
      · cases decoded
      · rename_i b remaining secondRead
        cases decoded
        rw [first.sound firstRead, second.sound secondRead, List.append_assoc]

/-- The same bytes read as another presentation of the value. -/
def iso (codec : Codec α) (same : α ≃ β) : Codec β where
  encode value := codec.encode (same.symm value)
  decode bytes := (codec.decode bytes).map fun read => (same read.1, read.2)
  complete value rest := by simp [codec.complete, Except.map]
  sound := by
    intro bytes value rest decoded
    cases inner : codec.decode bytes with
    | error e => rw [inner] at decoded; cases decoded
    | ok read =>
      rw [inner] at decoded
      cases decoded
      rw [same.symm_apply_apply]
      exact codec.sound inner

/-- The values that some values of another type stand for; the others do not decode. -/
def restrict (codec : Codec α) (toCode : β → α) (ofCode : α → Option β) (refusal : α → DecodeError)
    (complete : ∀ b, ofCode (toCode b) = some b) (sound : ∀ a b, ofCode a = some b → toCode b = a) :
    Codec β where
  encode value := codec.encode (toCode value)
  decode bytes :=
    match codec.decode bytes with
    | .error e => .error e
    | .ok (code, rest) =>
      match ofCode code with
      | none => .error (refusal code)
      | some value => .ok (value, rest)
  complete value rest := by simp only [codec.complete, complete]
  sound := by
    intro bytes value rest decoded
    split at decoded
    · cases decoded
    · rename_i code remaining read
      split at decoded
      · cases decoded
      · rename_i known
        cases decoded
        rw [sound _ _ known]
        exact codec.sound read

/-- A tag byte, 0 or 1, and the value after a 1. -/
def option (codec : Codec α) : Codec (Option α) where
  encode
    | none => [0]
    | some value => 1 :: codec.encode value
  decode
    | [] => .error .unexpectedEof
    | tag :: bytes =>
      if tag = 0 then .ok (none, bytes)
      else if tag = 1 then (codec.decode bytes).map fun read => (some read.1, read.2)
      else .error (.invalidTag tag)
  complete value rest := by
    cases value with
    | none => simp
    | some value => simp [codec.complete, Except.map]
  sound := by
    intro bytes value rest decoded
    cases bytes with
    | nil => cases decoded
    | cons tag bytes =>
      simp only at decoded
      split at decoded
      · rename_i zero
        cases decoded
        rw [zero]
        rfl
      · split at decoded
        · rename_i one
          cases inner : codec.decode bytes with
          | error e => rw [inner] at decoded; cases decoded
          | ok read =>
            rw [inner] at decoded
            cases decoded
            rw [one, codec.sound inner]
            rfl
        · cases decoded

/-! ### Lengths first -/

/-- A length, then a payload whose size the length gives. -/
def counted (size : α → Nat) (payload : α → Bytes)
    (take : Nat → Bytes → Except DecodeError (α × Bytes))
    (complete : ∀ a rest, take (size a) (payload a ++ rest) = .ok (a, rest))
    (sound : ∀ {count bytes a rest}, take count bytes = .ok (a, rest) →
      bytes = payload a ++ rest ∧ size a = count) :
    Codec { a : α // size a < 256 ^ 8 } where
  encode value := u64.encode ⟨size value.1, value.2⟩ ++ payload value.1
  decode bytes :=
    match u64.decode bytes with
    | .error e => .error e
    | .ok (count, rest) =>
      match taken : take count rest with
      | .error e => .error e
      | .ok (a, rest) => .ok (⟨a, (sound taken).2 ▸ count.isLt⟩, rest)
  complete value rest := by
    rw [List.append_assoc]
    simp only [u64.complete]
    split
    · rename_i e taken
      rw [complete] at taken
      cases taken
    · rename_i a remaining taken
      rw [complete] at taken
      cases taken
      rfl
  sound := by
    intro bytes value rest decoded
    split at decoded
    · cases decoded
    · rename_i count middle lengthRead
      split at decoded
      · cases decoded
      · rename_i a remaining taken
        cases decoded
        obtain ⟨parts, size_eq⟩ := sound taken
        have length : count = ⟨size a, size_eq ▸ count.isLt⟩ := Fin.ext size_eq.symm
        calc bytes = u64.encode count ++ middle := u64.sound lengthRead
          _ = u64.encode ⟨size a, size_eq ▸ count.isLt⟩ ++ (payload a ++ rest) := by
            rw [← length, ← parts]
          _ = _ := (List.append_assoc _ _ _).symm

/-- A string shorter than the address space. -/
abbrev Text := { s : String // (utf8 s).length < 256 ^ 8 }

/-- A sequence shorter than the address space. -/
abbrev Vec (α : Type) := { xs : List α // xs.length < 256 ^ 8 }

def takeText (count : Nat) (bytes : Bytes) : Except DecodeError (String × Bytes) :=
  match takeExact count bytes with
  | .error e => .error e
  | .ok (raw, rest) =>
    match ofUtf8? raw with
    | none => .error .invalidUtf8
    | some s => .ok (s, rest)

def text : Codec Text :=
  counted (fun s => (utf8 s).length) utf8 takeText
    (by
      intro s rest
      have decoded : ofUtf8? (utf8 s) = some s := ofUtf8?_eq_some.mpr rfl
      simp only [takeText, takeExact_append, decoded])
    (by
      intro count bytes s rest taken
      unfold takeText at taken
      split at taken
      · cases taken
      · rename_i raw remaining exactly
        split at taken
        · cases taken
        · rename_i decoded
          cases taken
          rw [ofUtf8?_eq_some.mp decoded]
          exact takeExact_eq_ok exactly)

def takeMany (codec : Codec α) : Nat → Bytes → Except DecodeError (List α × Bytes)
  | 0, bytes => .ok ([], bytes)
  | count + 1, bytes =>
    match codec.decode bytes with
    | .error e => .error e
    | .ok (a, rest) =>
      match takeMany codec count rest with
      | .error e => .error e
      | .ok (as, rest) => .ok (a :: as, rest)

theorem takeMany_append (codec : Codec α) (xs : List α) (rest : Bytes) :
    takeMany codec xs.length (xs.flatMap codec.encode ++ rest) = .ok (xs, rest) := by
  induction xs with
  | nil => rfl
  | cons x xs ih =>
    rw [List.flatMap_cons, List.append_assoc, List.length_cons]
    simp only [takeMany, codec.complete, ih]

theorem takeMany_eq_ok {codec : Codec α} (taken : takeMany codec count bytes = .ok (xs, rest)) :
    bytes = xs.flatMap codec.encode ++ rest ∧ xs.length = count := by
  induction count generalizing bytes xs with
  | zero =>
    cases taken
    exact ⟨rfl, rfl⟩
  | succ count ih =>
    simp only [takeMany] at taken
    split at taken
    · cases taken
    · rename_i a middle first
      split at taken
      · cases taken
      · rename_i as remaining others
        cases taken
        obtain ⟨parts, length⟩ := ih others
        rw [codec.sound first, parts, List.flatMap_cons, List.append_assoc, List.length_cons, length]
        exact ⟨rfl, rfl⟩

def vec (codec : Codec α) : Codec (Vec α) :=
  counted List.length (fun xs => xs.flatMap codec.encode) (takeMany codec)
    (takeMany_append codec) takeMany_eq_ok

end Codec

end Library
