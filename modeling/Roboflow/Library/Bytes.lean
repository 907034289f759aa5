import Roboflow.Library.Kv

/-! Byte strings as the keys of an ordered store. A range scan compares keys
lexicographically byte by byte; what such a range selects is said here in terms
of prefixes, and text enters through its UTF-8 encoding. -/
namespace Library

instance byteOrder : LinearOrder UInt8 where
  le_refl _ := UInt8.le_refl _
  le_trans _ _ _ := UInt8.le_trans
  le_antisymm _ _ := UInt8.le_antisymm
  le_total := UInt8.le_total
  lt_iff_le_not_ge a b := by rw [UInt8.le_iff_toNat_le, UInt8.le_iff_toNat_le, UInt8.lt_iff_toNat_lt]; omega
  toDecidableLE := inferInstance

abbrev Bytes := List UInt8

/-! ### Ranges of keys -/

section Ranges
variable {α : Type} [LinearOrder α]

theorem append_lt_append_iff (start left right : List α) :
    start ++ left < start ++ right ↔ left < right := by
  induction start with
  | nil => rfl
  | cons first rest ih => rw [List.cons_append, List.cons_append, List.cons_lt_cons_iff]; simp [ih]

/-- A range from `start` to an extension of `start` selects keys that extend
`start`, by less than the extension. -/
theorem mem_range_iff {start key right : List α} :
    (start ≤ key ∧ key < start ++ right) ↔ ∃ tail, key = start ++ tail ∧ tail < right := by
  constructor
  · rintro ⟨low, high⟩
    induction start generalizing key with
    | nil => exact ⟨key, rfl, high⟩
    | cons first rest ih =>
      cases key with
      | nil => exact absurd low (by simp)
      | cons b key =>
        rw [List.cons_append, List.cons_lt_cons_iff] at high
        rw [← not_lt, List.cons_lt_cons_iff, not_or, not_and] at low
        rcases high with less | ⟨rfl, high⟩
        · exact absurd less low.1
        · obtain ⟨tail, rfl, less⟩ := ih (not_lt.mp (low.2 rfl)) high
          exact ⟨tail, rfl, less⟩
  · rintro ⟨tail, rfl, less⟩
    refine ⟨not_lt.mp fun before => ?_, (append_lt_append_iff start tail right).mpr less⟩
    have impossible := (append_lt_append_iff start tail []).mp (by simpa using before)
    exact absurd impossible (by simp)

/-- The keys from `start` up to `start` followed by a top element are those that
`start` is a prefix of. -/
theorem mem_range_top_iff {top : α} {start key : List α} (below : ∀ b ∈ key, b < top) :
    (start ≤ key ∧ key < start ++ [top]) ↔ start <+: key := by
  rw [mem_range_iff]
  constructor
  · rintro ⟨tail, rfl, -⟩
    exact List.prefix_append start tail
  · rintro ⟨tail, rfl⟩
    refine ⟨tail, rfl, ?_⟩
    cases tail with
    | nil => exact List.nil_lt_cons _ _
    | cons b rest => exact List.cons_lt_cons_iff.mpr (Or.inl (below b (by simp)))

/-- The keys from `start` up to `start` followed by a bottom element are `start`
alone. -/
theorem mem_range_bot_iff {bot : α} (least : ∀ b, bot ≤ b) {start key : List α} :
    (start ≤ key ∧ key < start ++ [bot]) ↔ key = start := by
  rw [mem_range_iff]
  constructor
  · rintro ⟨tail, rfl, less⟩
    cases tail with
    | nil => exact List.append_nil start
    | cons b rest =>
      rcases List.cons_lt_cons_iff.mp less with lower | ⟨-, shorter⟩
      · exact absurd lower (not_lt.mpr (least b))
      · exact absurd shorter (by simp)
  · rintro rfl
    exact ⟨[], (List.append_nil key).symm, List.nil_lt_cons _ _⟩

end Ranges

/-! ### Segments -/

/-- `split` at a separator; there is always a first segment. -/
def segments [DecidableEq α] (separator : α) : List α → List (List α)
  | [] => [[]]
  | x :: rest =>
    if x = separator then [] :: segments separator rest
    else
      match segments separator rest with
      | [] => [[x]]
      | first :: others => (x :: first) :: others

theorem length_segments [DecidableEq α] (separator : α) (xs : List α) :
    (segments separator xs).length = xs.count separator + 1 := by
  induction xs with
  | nil => rfl
  | cons x rest ih =>
    simp only [segments]
    split
    · rename_i same
      rw [List.length_cons, ih, same, List.count_cons_self]
    · rename_i different
      rw [List.count_cons_of_ne different]
      split
      · rename_i none
        rw [none] at ih
        cases ih
      · rename_i first others some
        rw [some] at ih
        exact ih

/-! ### Text -/

/-- The UTF-8 encoding of a string. -/
def utf8 (s : String) : Bytes := s.toByteArray.data.toList

@[simp] theorem utf8_append (s t : String) : utf8 (s ++ t) = utf8 s ++ utf8 t := by
  simp [utf8, String.toByteArray_append]

theorem utf8_injective : Function.Injective utf8 := by
  intro s t same
  apply String.toByteArray_inj.mp
  exact ByteArray.ext (Array.toList_inj.mp same)

@[simp] theorem utf8_inj {s t : String} : utf8 s = utf8 t ↔ s = t := utf8_injective.eq_iff

/-- The string a byte sequence encodes, if it is valid UTF-8. -/
def ofUtf8? (bytes : Bytes) : Option String := String.fromUTF8? ⟨bytes.toArray⟩

theorem ofUtf8?_eq_some {bytes : Bytes} {s : String} : ofUtf8? bytes = some s ↔ utf8 s = bytes := by
  unfold ofUtf8? String.fromUTF8?
  constructor
  · intro decoded
    split at decoded
    · cases decoded
      rfl
    · cases decoded
  · rintro rfl
    exact dif_pos s.isValidUTF8

theorem utf8_eq (s : String) : utf8 s = s.toList.flatMap String.utf8EncodeChar := by
  conv_lhs => rw [← String.ofList_toList (s := s)]
  rw [utf8, String.toByteArray_ofList, List.utf8Encode]
  simp

/-- What follows an encoded text inside an encoded text is encoded text. -/
theorem exists_utf8_of_flatMap (start : List Char) (rest : Bytes) (whole : String)
    (same : utf8 whole = start.flatMap String.utf8EncodeChar ++ rest) : ∃ tail, utf8 tail = rest := by
  have valid : ByteArray.IsValidUTF8 ⟨(start.flatMap String.utf8EncodeChar ++ rest).toArray⟩ := by
    rw [← same]
    exact whole.isValidUTF8
  clear same whole
  induction start with
  | nil => exact ⟨⟨⟨rest.toArray⟩, valid⟩, rfl⟩
  | cons c start ih =>
    apply ih
    rw [← ByteArray.isValidUTF8_utf8Encode_singleton_append_iff (c := c)]
    convert valid using 1
    apply ByteArray.ext
    simp [List.utf8Encode]

/-- A prefix of the encoding is the encoding of a prefix. -/
theorem utf8_prefix_iff {s t : String} : utf8 s <+: utf8 t ↔ s.toList <+: t.toList := by
  constructor
  · rintro ⟨rest, same⟩
    obtain ⟨tail, rfl⟩ := exists_utf8_of_flatMap s.toList rest t (by rw [← utf8_eq, same])
    rw [← utf8_append, utf8_inj] at same
    rw [← same, String.toList_append]
    exact List.prefix_append _ _
  · rintro ⟨rest, same⟩
    rw [utf8_eq t, ← same, List.flatMap_append, ← utf8_eq]
    exact List.prefix_append _ _

theorem mem_utf8 {s : String} {b : UInt8} :
    b ∈ utf8 s ↔ ∃ c ∈ s.toList, b ∈ String.utf8EncodeChar c := by
  rw [utf8_eq, List.mem_flatMap]

/-- A byte of an encoded character is the ASCII character itself, or a byte above
all of ASCII and below `0xF8`. -/
theorem mem_utf8EncodeChar {c : Char} {b : UInt8} (member : b ∈ String.utf8EncodeChar c) :
    (c.toNat < 128 ∧ b.toNat = c.toNat) ∨ (128 ≤ b.toNat ∧ b.toNat < 248) := by
  have small : c.toNat < 1114112 := by
    have valid := c.valid
    simp only [UInt32.isValidChar, Nat.isValidChar] at valid
    change c.val.toNat < 1114112
    omega
  simp only [String.utf8EncodeChar] at member
  change (c.val.toNat < 128 ∧ b.toNat = c.val.toNat) ∨ _
  change c.val.toNat < 1114112 at small
  generalize c.val.toNat = v at *
  split at member
  · rename_i ascii
    rw [List.mem_singleton] at member
    subst member
    simp only [UInt8.toNat_ofNat']
    omega
  · right
    split at member
    · simp only [List.mem_cons, List.not_mem_nil, or_false] at member
      rcases member with rfl | rfl <;> simp only [UInt8.toNat_ofNat'] <;> omega
    · split at member
      · simp only [List.mem_cons, List.not_mem_nil, or_false] at member
        rcases member with rfl | rfl | rfl <;> simp only [UInt8.toNat_ofNat'] <;> omega
      · simp only [List.mem_cons, List.not_mem_nil, or_false] at member
        rcases member with rfl | rfl | rfl | rfl <;> simp only [UInt8.toNat_ofNat'] <;> omega

theorem utf8_lt_top (s : String) : ∀ b ∈ utf8 s, b < 0xFF := by
  intro b member
  obtain ⟨c, -, encoded⟩ := mem_utf8.mp member
  rw [UInt8.lt_iff_toNat_lt]
  rcases mem_utf8EncodeChar encoded with ⟨ascii, same⟩ | ⟨-, high⟩
  · rw [same]
    exact ascii.trans (by decide)
  · exact high.trans (by decide)

/-- An ASCII byte stands for its own character only. -/
theorem ascii_mem_utf8 {s : String} {c : Char} (ascii : c.toNat < 128) :
    UInt8.ofNat c.toNat ∈ utf8 s ↔ c ∈ s.toList := by
  have value : (UInt8.ofNat c.toNat).toNat = c.toNat := by
    rw [UInt8.toNat_ofNat', Nat.mod_eq_of_lt (by omega)]
  rw [mem_utf8]
  constructor
  · rintro ⟨other, member, encoded⟩
    rcases mem_utf8EncodeChar encoded with ⟨-, same⟩ | ⟨high, -⟩
    · have equal : c = other := Char.toNat_inj.mp (value ▸ same)
      exact equal ▸ member
    · omega
  · intro member
    refine ⟨c, member, ?_⟩
    have small : c.val.toNat ≤ 127 := Nat.le_of_lt_succ ascii
    rw [String.utf8EncodeChar, if_pos small]
    exact List.mem_singleton.mpr rfl

end Library
