import Roboflow.Media.Yuv

/-! What the kernels compute, and that they agree. Every kernel writes each cell of
its planes with a value that depends on the cell alone, so a kernel is described by
the function that gives these values; the kernels differ in one rounding constant. -/
namespace Roboflow.Media
open Library

/-! ### Integers -/

theorem i32_some {x : Int} (low : -2 ^ 31 ≤ x) (high : x < 2 ^ 31) : i32 x = some x :=
  if_pos ⟨low, high⟩

/-- The sum a component is computed from, in the integers. -/
def weightedSum (c : Weights) (p : Rgb) : Int :=
  c.r * p.r.toNat + c.g * p.g.toNat + c.b * p.b.toNat + 128

theorem product_bound {c : Int} (small : |c| ≤ 150) (x : UInt8) : |c * (x.toNat : Int)| ≤ 38250 := by
  have byte : |(x.toNat : Int)| ≤ 255 := by
    have := x.toNat_lt
    rw [abs_of_nonneg (by omega)]
    omega
  rw [abs_mul]
  calc |c| * |(x.toNat : Int)| ≤ 150 * 255 := mul_le_mul small byte (abs_nonneg _) (by omega)
    _ = 38250 := by norm_num

structure Weights.Small (c : Weights) : Prop where
  red : |c.r| ≤ 150
  green : |c.g| ≤ 150
  blue : |c.b| ≤ 150

theorem yWeights_small : yWeights.Small := ⟨by decide, by decide, by decide⟩

theorem uWeights_small : uWeights.Small := ⟨by decide, by decide, by decide⟩

theorem vWeights_small : vWeights.Small := ⟨by decide, by decide, by decide⟩

/-- None of the `i32` operations of a component overflows. -/
theorem weighted_eq {c : Weights} (small : c.Small) (p : Rgb) :
    weighted c p = some (weightedSum c p / 256) := by
  have red := abs_le.mp (product_bound small.red p.r)
  have green := abs_le.mp (product_bound small.green p.g)
  have blue := abs_le.mp (product_bound small.blue p.b)
  unfold weighted weightedSum
  rw [i32_some (by omega) (by omega), i32_some (by omega) (by omega)]
  simp only [Option.bind_eq_bind, Option.bind_some]
  rw [i32_some (by omega) (by omega), i32_some (by omega) (by omega)]
  simp only [Option.bind_some]
  rw [i32_some (by omega) (by omega)]
  simp only [Option.bind_some]
  rw [i32_some (by omega) (by omega)]
  simp only [Option.bind_some, Int.shiftRight_eq_div_pow]
  rfl

def lumaByte (p : Rgb) : UInt8 := clampU8 (weightedSum yWeights p / 256)

theorem luma_eq (p : Rgb) : luma p = some (lumaByte p) := by
  rw [luma, weighted_eq yWeights_small]
  rfl

/-- A chroma sample, in the integers. -/
def sample (c : Weights) (p : Rgb) : Int := weightedSum c p / 256 + 128

theorem uSample_bounds (p : Rgb) : 0 ≤ sample uWeights p ∧ sample uWeights p ≤ 256 := by
  have := p.r.toNat_lt
  have := p.g.toNat_lt
  have := p.b.toNat_lt
  simp only [sample, weightedSum, uWeights]
  omega

theorem vSample_bounds (p : Rgb) : 0 ≤ sample vWeights p ∧ sample vWeights p ≤ 256 := by
  have := p.r.toNat_lt
  have := p.g.toNat_lt
  have := p.b.toNat_lt
  simp only [sample, weightedSum, vWeights]
  omega

theorem chroma_eq {c : Weights} (small : c.Small) (p : Rgb)
    (bounds : 0 ≤ sample c p ∧ sample c p ≤ 256) : chroma c p = some (sample c p) := by
  unfold chroma
  rw [weighted_eq small]
  exact i32_some (by unfold sample at bounds; omega) (by unfold sample at bounds; omega)

theorem uChroma_eq (p : Rgb) : chroma uWeights p = some (sample uWeights p) :=
  chroma_eq uWeights_small p (uSample_bounds p)

theorem vChroma_eq (p : Rgb) : chroma vWeights p = some (sample vWeights p) :=
  chroma_eq vWeights_small p (vSample_bounds p)

/-- The average of four samples in the scalar kernel. -/
theorem average_eq {a b c d : Int} (ha : 0 ≤ a ∧ a ≤ 256) (hb : 0 ≤ b ∧ b ≤ 256)
    (hc : 0 ≤ c ∧ c ≤ 256) (hd : 0 ≤ d ∧ d ≤ 256) :
    average [a, b, c, d] = some ((a + b + c + d) / 4) := by
  simp only [average]
  rw [i32_some (by omega) (by omega)]
  simp only [Option.bind_eq_bind, Option.bind_some]
  rw [i32_some (by omega) (by omega)]
  simp only [Option.bind_some]
  rw [i32_some (by omega) (by omega)]
  simp only [Option.bind_some]
  rw [Int.tdiv_eq_ediv_of_nonneg (by omega)]

/-! ### The value of each cell -/

def pixelAt (rgb : List UInt8) (i : Nat) : Rgb :=
  ⟨rgb.getD (i * 3) 0, rgb.getD (i * 3 + 1) 0, rgb.getD (i * 3 + 2) 0⟩

theorem readPixel_eq {rgb : List UInt8} (inside : i * 3 + 2 < rgb.length) :
    readPixel rgb (i * 3) = some (pixelAt rgb i) := by
  unfold readPixel pixelAt
  simp [List.getD, List.getElem?_eq_getElem (show i * 3 < rgb.length by omega),
    List.getElem?_eq_getElem (show i * 3 + 1 < rgb.length by omega),
    List.getElem?_eq_getElem inside]

/-- The sample of one pixel of a block. -/
def blockSample (c : Weights) (rgb : List UInt8) (width blockY blockX dy dx : Nat) : Int :=
  sample c (pixelAt rgb ((blockY * 2 + dy) * width + (blockX * 2 + dx)))

/-- The four samples of a block. -/
def blockTotal (c : Weights) (rgb : List UInt8) (width blockY blockX : Nat) : Int :=
  blockSample c rgb width blockY blockX 0 0 + blockSample c rgb width blockY blockX 0 1 +
  blockSample c rgb width blockY blockX 1 0 + blockSample c rgb width blockY blockX 1 1

/-- The chroma byte of the block at `offset`, for a kernel that adds `rounding` to the
sum before it divides. -/
def chromaByte (rounding : Int) (c : Weights) (rgb : List UInt8) (width offset : Nat) : UInt8 :=
  clampU8 ((blockTotal c rgb width (offset / (width / 2)) (offset % (width / 2)) + rounding) / 4)

def cell (rounding : Int) (rgb : List UInt8) (width : Nat) : Plane → Nat → UInt8
  | .y, i => lumaByte (pixelAt rgb i)
  | .u, i => chromaByte rounding uWeights rgb width i
  | .v, i => chromaByte rounding vWeights rgb width i
  | .uv, i =>
    if i % 2 = 0 then chromaByte rounding uWeights rgb width (i / 2)
    else chromaByte rounding vWeights rgb width (i / 2)

/-- The cells the block at `(blockY, blockX)` has in the chroma planes. -/
def chromaCells (format : Format) (offset : Nat) : Set (Plane × Nat) :=
  match format with
  | .yuv420p => {(.u, offset), (.v, offset)}
  | .nv12 => {(.uv, offset * 2), (.uv, offset * 2 + 1)}

/-- The luma cells of a block. -/
def lumaCells (width blockY blockX : Nat) : Set (Plane × Nat) :=
  {i | ∃ dy < 2, ∃ dx < 2, i = (.y, (blockY * 2 + dy) * width + (blockX * 2 + dx))}

section Kernels
variable {format : Format} {rgb : List UInt8} {width height blockY blockX y x : Nat}
variable {rounding : Int} {S : Set (Plane × Nat)} {planes : Planes}

theorem position_lt (row : y < height) (column : x < width) : y * width + x < width * height := by
  calc y * width + x < y * width + width := by omega
    _ = (y + 1) * width := by ring
    _ ≤ height * width := Nat.mul_le_mul_right _ row
    _ = width * height := Nat.mul_comm _ _

theorem readPixel_at (size : rgb.length = width * height * 3) (row : y < height)
    (column : x < width) :
    readPixel rgb ((y * width + x) * 3) = some (pixelAt rgb (y * width + x)) := by
  have := position_lt row column
  exact readPixel_eq (by omega)

theorem chromaByte_block (rounding : Int) (rgb : List UInt8) (blockY : Nat)
    (column : blockX < width / 2) (c : Weights) :
    chromaByte rounding c rgb width (blockY * (width / 2) + blockX) =
      clampU8 ((blockTotal c rgb width blockY blockX + rounding) / 4) := by
  have quotient : (blockY * (width / 2) + blockX) / (width / 2) = blockY := by
    rw [Nat.mul_comm, Nat.mul_add_div (by omega), Nat.div_eq_of_lt column, Nat.add_zero]
  have remainder : (blockY * (width / 2) + blockX) % (width / 2) = blockX := by
    rw [Nat.mul_comm, Nat.mul_add_mod, Nat.mod_eq_of_lt column]
  rw [chromaByte, quotient, remainder]

theorem storeChroma_spec (painted : Painted (format.size width height) (cell rounding rgb width) S
    planes) (row : blockY < height / 2) (column : blockX < width / 2) {u v : UInt8}
    (isU : u = clampU8 ((blockTotal uWeights rgb width blockY blockX + rounding) / 4))
    (isV : v = clampU8 ((blockTotal vWeights rgb width blockY blockX + rounding) / 4)) :
    ∃ after, storeChroma format planes (blockY * (width / 2) + blockX) u v = some after ∧
      Painted (format.size width height) (cell rounding rgb width)
        (S ∪ chromaCells format (blockY * (width / 2) + blockX)) after := by
  have inside : blockY * (width / 2) + blockX < width / 2 * (height / 2) := position_lt row column
  have atU := isU.trans (chromaByte_block rounding rgb blockY column uWeights).symm
  have atV := isV.trans (chromaByte_block rounding rgb blockY column vWeights).symm
  cases format with
  | yuv420p =>
    obtain ⟨one, wroteU, paintedU⟩ := painted.write (p := .u) inside u atU
    obtain ⟨two, wroteV, paintedV⟩ := paintedU.write (p := .v) inside v atV
    refine ⟨two, by simp [storeChroma, wroteU, wroteV], ?_⟩
    rw [Set.union_assoc] at paintedV
    exact paintedV
  | nv12 =>
    have first : (blockY * (width / 2) + blockX) * 2 < Format.nv12.size width height .uv := by
      show _ < width / 2 * (height / 2) * 2
      omega
    have second : (blockY * (width / 2) + blockX) * 2 + 1 < Format.nv12.size width height .uv := by
      show _ < width / 2 * (height / 2) * 2
      omega
    have evenCell : u = cell rounding rgb width .uv ((blockY * (width / 2) + blockX) * 2) := by
      simp only [cell, Nat.mul_mod_left, if_pos, Nat.mul_div_cancel _ (show 0 < 2 by omega)]
      exact atU
    have oddCell : v = cell rounding rgb width .uv ((blockY * (width / 2) + blockX) * 2 + 1) := by
      have half : ((blockY * (width / 2) + blockX) * 2 + 1) / 2 = blockY * (width / 2) + blockX := by
        omega
      have odd : ((blockY * (width / 2) + blockX) * 2 + 1) % 2 ≠ 0 := by omega
      simp only [cell, if_neg odd, half]
      exact atV
    obtain ⟨one, wroteU, paintedU⟩ := painted.write first u evenCell
    obtain ⟨two, wroteV, paintedV⟩ := paintedU.write second v oddCell
    refine ⟨two, by simp [storeChroma, wroteU, wroteV], ?_⟩
    rw [Set.union_assoc] at paintedV
    exact paintedV

/-! ### The scalar kernel -/

theorem accumulate_eq {sums : List Int} {i : Nat} (zero : sums[i]? = some 0) {v : Int}
    (bounds : 0 ≤ v ∧ v ≤ 256) : accumulate sums i v = some (sums.set i v) := by
  unfold accumulate
  simp only [zero, Option.bind_eq_bind, Option.bind_some, Int.zero_add]
  rw [i32_some (by omega) (by omega)]
  rfl

theorem scalarPixel_spec (size : rgb.length = width * height * 3) (row : y < height)
    (column : x < width)
    (painted : Painted (format.size width height) (cell rounding rgb width) S planes)
    (uSum vSum : List Int) (index : ((y &&& 1) <<< 1) ||| (x &&& 1) = i) (uZero : uSum[i]? = some 0)
    (vZero : vSum[i]? = some 0) :
    ∃ after, scalarPixel rgb width (planes, uSum, vSum) y x = some (after,
        uSum.set i (sample uWeights (pixelAt rgb (y * width + x))),
        vSum.set i (sample vWeights (pixelAt rgb (y * width + x)))) ∧
      Painted (format.size width height) (cell rounding rgb width)
        (S ∪ {(.y, y * width + x)}) after := by
  obtain ⟨after, wrote, paintedAfter⟩ := painted.write (p := .y) (i := y * width + x)
    (position_lt row column) (lumaByte (pixelAt rgb (y * width + x))) rfl
  refine ⟨after, ?_, paintedAfter⟩
  unfold scalarPixel
  rw [readPixel_at size row column]
  simp only [Option.bind_eq_bind, Option.bind_some, luma_eq, wrote, uChroma_eq, vChroma_eq, index,
    accumulate_eq uZero (uSample_bounds _), accumulate_eq vZero (vSample_bounds _)]

/-- The place of a pixel of a block among the block's four. -/
theorem blockIdx_eq (dy dx : Nat) (rows : dy < 2) (columns : dx < 2) :
    (((blockY * 2 + dy) &&& 1) <<< 1) ||| ((blockX * 2 + dx) &&& 1) = dy * 2 + dx := by
  have vertical : (blockY * 2 + dy) &&& 1 = dy := by
    rw [Nat.and_one_is_mod]
    omega
  have horizontal : (blockX * 2 + dx) &&& 1 = dx := by
    rw [Nat.and_one_is_mod]
    omega
  rw [vertical, horizontal]
  interval_cases dy <;> interval_cases dx <;> rfl

/-- The four pixels of a block. -/
theorem scalarPixels_spec (size : rgb.length = width * height * 3) (row : blockY < height / 2)
    (column : blockX < width / 2)
    (painted : Painted (format.size width height) (cell rounding rgb width) S planes) :
    ∃ after, (List.range 2).foldlM (fun state dy =>
        (List.range 2).foldlM (fun state dx =>
          scalarPixel rgb width state (blockY * 2 + dy) (blockX * 2 + dx)) state)
        (planes, [0, 0, 0, 0], [0, 0, 0, 0]) = some (after,
          [blockSample uWeights rgb width blockY blockX 0 0,
            blockSample uWeights rgb width blockY blockX 0 1,
            blockSample uWeights rgb width blockY blockX 1 0,
            blockSample uWeights rgb width blockY blockX 1 1],
          [blockSample vWeights rgb width blockY blockX 0 0,
            blockSample vWeights rgb width blockY blockX 0 1,
            blockSample vWeights rgb width blockY blockX 1 0,
            blockSample vWeights rgb width blockY blockX 1 1]) ∧
      Painted (format.size width height) (cell rounding rgb width)
        (S ∪ lumaCells width blockY blockX) after := by
  let u := blockSample uWeights rgb width blockY blockX
  let v := blockSample vWeights rgb width blockY blockX
  obtain ⟨p00, step00, painted00⟩ := scalarPixel_spec size (y := blockY * 2 + 0)
    (x := blockX * 2 + 0) (by omega) (by omega) painted [0, 0, 0, 0] [0, 0, 0, 0]
    (blockIdx_eq 0 0 (by omega) (by omega)) rfl rfl
  obtain ⟨p01, step01, painted01⟩ := scalarPixel_spec size (y := blockY * 2 + 0)
    (x := blockX * 2 + 1) (by omega) (by omega) painted00 [u 0 0, 0, 0, 0]
    [v 0 0, 0, 0, 0] (blockIdx_eq 0 1 (by omega) (by omega)) rfl rfl
  obtain ⟨p10, step10, painted10⟩ := scalarPixel_spec size (y := blockY * 2 + 1)
    (x := blockX * 2 + 0) (by omega) (by omega) painted01 [u 0 0, u 0 1, 0, 0]
    [v 0 0, v 0 1, 0, 0] (blockIdx_eq 1 0 (by omega) (by omega)) rfl rfl
  obtain ⟨p11, step11, painted11⟩ := scalarPixel_spec size (y := blockY * 2 + 1)
    (x := blockX * 2 + 1) (by omega) (by omega) painted10 [u 0 0, u 0 1, u 1 0, 0]
    [v 0 0, v 0 1, v 1 0, 0] (blockIdx_eq 1 1 (by omega) (by omega)) rfl rfl
  refine ⟨p11, ?_, ?_⟩
  · have two : List.range 2 = [0, 1] := rfl
    have first : scalarPixel rgb width (planes, [0, 0, 0, 0], [0, 0, 0, 0]) (blockY * 2 + 0)
        (blockX * 2 + 0) = some (p00, [u 0 0, 0, 0, 0], [v 0 0, 0, 0, 0]) := step00
    have second : scalarPixel rgb width (p00, [u 0 0, 0, 0, 0], [v 0 0, 0, 0, 0]) (blockY * 2 + 0)
        (blockX * 2 + 1) = some (p01, [u 0 0, u 0 1, 0, 0], [v 0 0, v 0 1, 0, 0]) := step01
    have third : scalarPixel rgb width (p01, [u 0 0, u 0 1, 0, 0], [v 0 0, v 0 1, 0, 0])
        (blockY * 2 + 1) (blockX * 2 + 0) =
          some (p10, [u 0 0, u 0 1, u 1 0, 0], [v 0 0, v 0 1, v 1 0, 0]) := step10
    simp only [two, List.foldlM_cons, List.foldlM_nil, Option.bind_eq_bind, Option.pure_def,
      first, second, third, step11, Option.bind_some]
    rfl
  · have same : S ∪ {(.y, (blockY * 2 + 0) * width + (blockX * 2 + 0))} ∪
        {(.y, (blockY * 2 + 0) * width + (blockX * 2 + 1))} ∪
        {(.y, (blockY * 2 + 1) * width + (blockX * 2 + 0))} ∪
        {(.y, (blockY * 2 + 1) * width + (blockX * 2 + 1))} =
        S ∪ lumaCells width blockY blockX := by
      ext i
      simp only [lumaCells, Set.mem_union, Set.mem_singleton_iff, Set.mem_ofPred_eq]
      constructor
      · rintro ((((old | rfl) | rfl) | rfl) | rfl)
        · exact .inl old
        · exact .inr ⟨0, by omega, 0, by omega, rfl⟩
        · exact .inr ⟨0, by omega, 1, by omega, rfl⟩
        · exact .inr ⟨1, by omega, 0, by omega, rfl⟩
        · exact .inr ⟨1, by omega, 1, by omega, rfl⟩
      · rintro (old | ⟨dy, rows, dx, columns, rfl⟩)
        · exact .inl (.inl (.inl (.inl old)))
        · interval_cases dy <;> interval_cases dx <;> simp
    exact same ▸ painted11

theorem scalarBlock_spec (size : rgb.length = width * height * 3) (row : blockY < height / 2)
    (column : blockX < width / 2)
    (painted : Painted (format.size width height) (cell 0 rgb width) S planes) :
    ∃ after, scalarBlock format rgb width planes blockY blockX = some after ∧
      Painted (format.size width height) (cell 0 rgb width)
        (S ∪ (lumaCells width blockY blockX ∪
          chromaCells format (blockY * (width / 2) + blockX))) after := by
  obtain ⟨lit, pixels, paintedLit⟩ := scalarPixels_spec size row column painted
  obtain ⟨after, stored, paintedAfter⟩ := storeChroma_spec paintedLit row column
    (u := clampU8 (blockTotal uWeights rgb width blockY blockX / 4))
    (v := clampU8 (blockTotal vWeights rgb width blockY blockX / 4))
    (by rw [Int.add_zero]) (by rw [Int.add_zero])
  refine ⟨after, ?_, Set.union_assoc .. ▸ paintedAfter⟩
  unfold scalarBlock
  rw [pixels]
  simp only [Option.bind_eq_bind, Option.bind_some,
    average_eq (uSample_bounds _) (uSample_bounds _) (uSample_bounds _) (uSample_bounds _),
    average_eq (vSample_bounds _) (vSample_bounds _) (vSample_bounds _) (vSample_bounds _),
    blockSample]
  exact stored

/-- A kernel's loop over the blocks of an image gathers the cells of every block. -/
theorem blocks_spec (body : Planes → Nat → Nat → Option Planes)
    {cells : Nat → Nat → Set (Plane × Nat)}
    (block : ∀ blockY < height / 2, ∀ blockX < width / 2, ∀ S planes,
      Painted (format.size width height) (cell rounding rgb width) S planes →
      ∃ after, body planes blockY blockX = some after ∧
        Painted (format.size width height) (cell rounding rgb width) (S ∪ cells blockY blockX) after)
    (painted : Painted (format.size width height) (cell rounding rgb width) S planes) :
    ∃ after, (List.range (height / 2)).foldlM (fun planes blockY =>
        (List.range (width / 2)).foldlM (fun planes blockX => body planes blockY blockX) planes)
        planes = some after ∧
      Painted (format.size width height) (cell rounding rgb width)
        (S ∪ {i | ∃ blockY ∈ List.range (height / 2),
          i ∈ {i | ∃ blockX ∈ List.range (width / 2), i ∈ cells blockY blockX}}) after := by
  refine foldlM_gather _ _ _ ?_ painted
  intro blockY row S planes painted
  refine foldlM_gather _ _ _ ?_ painted
  intro blockX column S planes painted
  exact block blockY (List.mem_range.mp row) blockX (List.mem_range.mp column) S planes painted

/-- Every chroma cell belongs to a block. -/
theorem chromaCells_cover (p : Plane) (chromaPlane : p ≠ .y) (i : Nat)
    (inside : i < format.size width height p) :
    ∃ blockY < height / 2, ∃ blockX < width / 2,
      (p, i) ∈ chromaCells format (blockY * (width / 2) + blockX) := by
  have found : ∀ offset, offset < width / 2 * (height / 2) → ∃ blockY < height / 2,
      ∃ blockX < width / 2, blockY * (width / 2) + blockX = offset := by
    intro offset low
    have columns : 0 < width / 2 := by
      rcases Nat.eq_zero_or_pos (width / 2) with zero | positive
      · simp [zero] at low
      · exact positive
    exact ⟨offset / (width / 2), Nat.div_lt_of_lt_mul low, offset % (width / 2),
      Nat.mod_lt _ columns, Nat.div_add_mod' ..⟩
  cases format <;> cases p <;> simp only [Format.size, reduceCtorEq, ↓reduceIte, ne_eq,
    not_true_eq_false, Nat.not_lt_zero] at inside chromaPlane
  case yuv420p.u =>
    obtain ⟨blockY, row, blockX, column, same⟩ := found i inside
    exact ⟨blockY, row, blockX, column, by simp [chromaCells, same]⟩
  case yuv420p.v =>
    obtain ⟨blockY, row, blockX, column, same⟩ := found i inside
    exact ⟨blockY, row, blockX, column, by simp [chromaCells, same]⟩
  case nv12.uv =>
    obtain ⟨blockY, row, blockX, column, same⟩ := found (i / 2) (by omega)
    refine ⟨blockY, row, blockX, column, ?_⟩
    simp only [chromaCells, same, Set.mem_insert_iff, Set.mem_singleton_iff, Prod.mk.injEq, true_and]
    omega

/-- In an image of even dimensions every luma cell belongs to a block. -/
theorem lumaCells_cover (evenWidth : width % 2 = 0) (evenHeight : height % 2 = 0) (i : Nat)
    (inside : i < width * height) :
    ∃ blockY < height / 2, ∃ blockX < width / 2, (Plane.y, i) ∈ lumaCells width blockY blockX := by
  have columns : 0 < width := by
    rcases Nat.eq_zero_or_pos width with zero | positive
    · simp [zero] at inside
    · exact positive
  have row : i / width < height := Nat.div_lt_of_lt_mul inside
  have column : i % width < width := Nat.mod_lt _ columns
  refine ⟨i / width / 2, by omega, i % width / 2, by omega, i / width % 2, by omega,
    i % width % 2, by omega, ?_⟩
  rw [Nat.div_add_mod' (i / width) 2, Nat.div_add_mod' (i % width) 2, Nat.div_add_mod' i width]

/-- The planes with the value of every cell. -/
def rendered (rounding : Int) (format : Format) (rgb : List UInt8) (width height : Nat) : Planes :=
  fun p => (List.range (format.size width height p)).map (cell rounding rgb width p)

theorem scalar_eq (format : Format) (size : rgb.length = width * height * 3) (evenWidth : width % 2 = 0)
    (evenHeight : height % 2 = 0) :
    scalar format rgb width height (format.alloc width height) =
      some (rendered 0 format rgb width height) := by
  have painted : Painted (format.size width height) (cell 0 rgb width) ∅
      (format.alloc width height) := Painted.initial fun p => List.length_replicate ..
  obtain ⟨after, ran, done⟩ := blocks_spec
    (fun planes blockY blockX => scalarBlock format rgb width planes blockY blockX)
    (fun blockY row blockX column S planes painted => scalarBlock_spec size row column painted)
    painted
  refine ran.trans (congrArg some ?_)
  funext p
  refine done.complete fun i inside => .inr ?_
  simp only [Set.mem_ofPred_eq, List.mem_range, Set.mem_union]
  by_cases luma : p = .y
  · subst luma
    obtain ⟨blockY, row, blockX, column, member⟩ := lumaCells_cover evenWidth evenHeight i inside
    exact ⟨blockY, row, blockX, column, .inl member⟩
  · obtain ⟨blockY, row, blockX, column, member⟩ := chromaCells_cover p luma i inside
    exact ⟨blockY, row, blockX, column, .inr member⟩

/-! ### The vector kernels -/

theorem blockSums_eq (size : rgb.length = width * height * 3) (row : blockY < height / 2)
    (column : blockX < width / 2) :
    blockSums rgb width blockY blockX = some (blockTotal uWeights rgb width blockY blockX,
      blockTotal vWeights rgb width blockY blockX) := by
  have pixel : ∀ dy < 2, ∀ dx < 2,
      readPixel rgb (((blockY * 2 + dy) * width + (blockX * 2 + dx)) * 3) =
        some (pixelAt rgb ((blockY * 2 + dy) * width + (blockX * 2 + dx))) := by
    intro dy rows dx columns
    exact readPixel_at size (by omega) (by omega)
  have u := fun dy dx => uSample_bounds (pixelAt rgb ((blockY * 2 + dy) * width + (blockX * 2 + dx)))
  have v := fun dy dx => vSample_bounds (pixelAt rgb ((blockY * 2 + dy) * width + (blockX * 2 + dx)))
  have u00 := u 0 0
  have u01 := u 0 1
  have u10 := u 1 0
  have u11 := u 1 1
  have v00 := v 0 0
  have v01 := v 0 1
  have v10 := v 1 0
  have v11 := v 1 1
  have two : List.range 2 = [0, 1] := rfl
  unfold blockSums blockTotal blockSample
  simp only [two, List.foldlM_cons, List.foldlM_nil, Option.bind_eq_bind, Option.pure_def,
    pixel 0 (by omega) 0 (by omega), pixel 0 (by omega) 1 (by omega), pixel 1 (by omega) 0 (by omega),
    pixel 1 (by omega) 1 (by omega), uChroma_eq, vChroma_eq, Option.bind_some, Int.zero_add]
  rw [i32_some (by omega) (by omega), i32_some (by omega) (by omega)]
  simp only [Option.bind_some]
  rw [i32_some (by omega) (by omega), i32_some (by omega) (by omega)]
  simp only [Option.bind_some]
  rw [i32_some (by omega) (by omega), i32_some (by omega) (by omega)]
  simp only [Option.bind_some]
  rw [i32_some (by omega) (by omega), i32_some (by omega) (by omega)]
  simp only [Option.bind_some]

theorem blockTotal_bounds (rgb : List UInt8) (width blockY blockX : Nat) {c : Weights}
    (bounds : ∀ p, 0 ≤ sample c p ∧ sample c p ≤ 256) :
    0 ≤ blockTotal c rgb width blockY blockX ∧ blockTotal c rgb width blockY blockX ≤ 1024 := by
  have s00 := bounds (pixelAt rgb ((blockY * 2 + 0) * width + (blockX * 2 + 0)))
  have s01 := bounds (pixelAt rgb ((blockY * 2 + 0) * width + (blockX * 2 + 1)))
  have s10 := bounds (pixelAt rgb ((blockY * 2 + 1) * width + (blockX * 2 + 0)))
  have s11 := bounds (pixelAt rgb ((blockY * 2 + 1) * width + (blockX * 2 + 1)))
  unfold blockTotal blockSample
  omega

theorem roundedBlock_spec (size : rgb.length = width * height * 3) (row : blockY < height / 2)
    (column : blockX < width / 2)
    (painted : Painted (format.size width height) (cell 2 rgb width) S planes) :
    ∃ after, roundedBlock format rgb width planes blockY blockX = some after ∧
      Painted (format.size width height) (cell 2 rgb width)
        (S ∪ chromaCells format (blockY * (width / 2) + blockX)) after := by
  have u := blockTotal_bounds rgb width blockY blockX uSample_bounds
  have v := blockTotal_bounds rgb width blockY blockX vSample_bounds
  obtain ⟨after, stored, paintedAfter⟩ := storeChroma_spec painted row column rfl rfl
  refine ⟨after, ?_, paintedAfter⟩
  unfold roundedBlock
  rw [blockSums_eq size row column]
  simp only [Option.bind_eq_bind, Option.bind_some]
  rw [i32_some (by omega) (by omega), i32_some (by omega) (by omega)]
  simp only [Option.bind_some]
  rw [Int.tdiv_eq_ediv_of_nonneg (by omega), Int.tdiv_eq_ediv_of_nonneg (by omega)]
  exact stored

/-- Eight luma bytes from a pixel on. -/
def luma8Bytes (rgb : List UInt8) (i : Nat) : List UInt8 :=
  (List.range 8).map fun j => lumaByte (pixelAt rgb (i + j))

/-- A kernel's block of eight computes the luma bytes of its pixels. -/
def Luma8Correct (luma8 : List UInt8 → Nat → Option (List UInt8)) : Prop :=
  ∀ rgb i, (i + 8) * 3 ≤ rgb.length → luma8 rgb (i * 3) = some (luma8Bytes rgb i)

theorem lumaRow_spec {luma8 : List UInt8 → Nat → Option (List UInt8)}
    (correct : Luma8Correct luma8) (size : rgb.length = width * height * 3) (row : y < height)
    (painted : Painted (format.size width height) (cell rounding rgb width) S planes) :
    ∃ after, lumaRow luma8 rgb width planes y = some after ∧
      Painted (format.size width height) (cell rounding rgb width)
        (S ∪ {i | i.1 = .y ∧ y * width ≤ i.2 ∧ i.2 < y * width + width}) after := by
  have whole : width - width % 8 = width / 8 * 8 := by omega
  have rowEnd : y * width + width ≤ width * height := by
    calc y * width + width = (y + 1) * width := by ring
      _ ≤ height * width := Nat.mul_le_mul_right _ row
      _ = width * height := Nat.mul_comm _ _
  have offset : ∀ x, y * width * 3 + x * 3 = (y * width + x) * 3 := by
    intro x
    ring
  -- the blocks of eight
  obtain ⟨middle, ranBlocks, paintedBlocks⟩ := foldlM_gather
    (P := Painted (format.size width height) (cell rounding rgb width))
    (fun x => {i | i.1 = .y ∧ y * width + x ≤ i.2 ∧ i.2 < y * width + x + 8})
    (fun planes x => do
      writeRange planes .y (y * width + x) (← luma8 rgb (y * width * 3 + x * 3)))
    (List.range' 0 ((width - width % 8) / 8) 8) (by
      intro x member S planes painted
      obtain ⟨k, low, rfl⟩ := List.mem_range'.mp member
      have inside : y * width + (0 + 8 * k) + 8 ≤ width * height := by omega
      have eight : (luma8Bytes rgb (y * width + (0 + 8 * k))).length = 8 := by
        simp [luma8Bytes]
      obtain ⟨after, wrote, paintedAfter⟩ := painted.writeRange (p := .y)
        (i := y * width + (0 + 8 * k)) (luma8Bytes rgb (y * width + (0 + 8 * k)))
        (by rw [eight]; exact inside)
        (by
          intro j short
          rw [eight] at short
          simp [luma8Bytes, short, cell])
      refine ⟨after, ?_, ?_⟩
      · simp only [offset, correct rgb (y * width + (0 + 8 * k)) (by omega), Option.bind_eq_bind,
          Option.bind_some, wrote]
      · rw [eight] at paintedAfter
        exact paintedAfter) painted
  -- the columns after them
  obtain ⟨after, ranTail, paintedTail⟩ := foldlM_gather
    (P := Painted (format.size width height) (cell rounding rgb width))
    (fun x => {(.y, y * width + x)})
    (fun planes x => do
      let p ← readPixel rgb (y * width * 3 + x * 3)
      write planes .y (y * width + x) (← luma p))
    (List.range' (width - width % 8) (width - (width - width % 8))) (by
      intro x member S planes painted
      obtain ⟨k, low, rfl⟩ := List.mem_range'.mp member
      have column : width - width % 8 + 1 * k < width := by omega
      obtain ⟨after, wrote, paintedAfter⟩ := painted.write (p := .y)
        (i := y * width + (width - width % 8 + 1 * k)) (position_lt row column)
        (lumaByte (pixelAt rgb (y * width + (width - width % 8 + 1 * k)))) rfl
      refine ⟨after, ?_, paintedAfter⟩
      simp only [offset, readPixel_at size row column, Option.bind_eq_bind, Option.bind_some, luma_eq,
        wrote]) paintedBlocks
  refine ⟨after, ?_, ?_⟩
  · simp only [lumaRow, Option.bind_eq_bind] at ranBlocks ranTail ⊢
    rw [ranBlocks]
    exact ranTail
  · refine paintedTail.mono ?_
    rintro ⟨p, j⟩ (old | ⟨isLuma, start, upto⟩)
    · exact .inl (.inl old)
    · simp only at isLuma start upto
      subst isLuma
      by_cases inBlock : j - y * width < width - width % 8
      · refine .inl (.inr ⟨(j - y * width) / 8 * 8, ?_, rfl, ?_, ?_⟩)
        · exact List.mem_range'.mpr ⟨(j - y * width) / 8, by omega, by omega⟩
        · show y * width + (j - y * width) / 8 * 8 ≤ j
          omega
        · show j < y * width + (j - y * width) / 8 * 8 + 8
          omega
      · refine .inr ⟨j - y * width, ?_, ?_⟩
        · exact List.mem_range'.mpr
            ⟨j - y * width - (width - width % 8), by omega, by omega⟩
        · show (Plane.y, j) = (Plane.y, y * width + (j - y * width))
          rw [Nat.add_sub_cancel' start]

theorem vector_eq (format : Format) {luma8 : List UInt8 → Nat → Option (List UInt8)}
    (correct : Luma8Correct luma8) (size : rgb.length = width * height * 3) :
    vector luma8 format rgb width height (format.alloc width height) =
      some (rendered 2 format rgb width height) := by
  have painted : Painted (format.size width height) (cell 2 rgb width) ∅
      (format.alloc width height) := Painted.initial fun p => List.length_replicate ..
  obtain ⟨middle, ranLuma, paintedLuma⟩ := foldlM_gather
    (P := Painted (format.size width height) (cell 2 rgb width))
    (fun y => {i | i.1 = .y ∧ y * width ≤ i.2 ∧ i.2 < y * width + width})
    (lumaRow luma8 rgb width) (List.range height)
    (fun y member S planes painted => lumaRow_spec correct size (List.mem_range.mp member) painted)
    painted
  obtain ⟨after, ranChroma, done⟩ := blocks_spec
    (fun planes blockY blockX => roundedBlock format rgb width planes blockY blockX)
    (fun blockY row blockX column S planes painted => roundedBlock_spec size row column painted)
    paintedLuma
  have ran : vector luma8 format rgb width height (format.alloc width height) = some after := by
    unfold vector
    rw [ranLuma]
    exact ranChroma
  refine ran.trans (congrArg some ?_)
  funext p
  refine done.complete fun i inside => ?_
  by_cases isLuma : p = .y
  · subst isLuma
    have inside : i < width * height := inside
    have columns : 0 < width := by
      rcases Nat.eq_zero_or_pos width with zero | positive
      · simp [zero] at inside
      · exact positive
    refine .inl (.inr ⟨i / width, List.mem_range.mpr (Nat.div_lt_of_lt_mul inside), rfl, ?_, ?_⟩)
    · exact Nat.div_mul_le_self i width
    · show i < i / width * width + width
      have := Nat.mod_lt i columns
      have := Nat.div_add_mod' i width
      omega
  · obtain ⟨blockY, row, blockX, column, member⟩ := chromaCells_cover p isLuma i inside
    exact .inr ⟨blockY, List.mem_range.mpr row, blockX, List.mem_range.mpr column, member⟩

/-! ### The blocks of eight -/

theorem readPixels8_eq (inside : (i + 8) * 3 ≤ rgb.length) :
    readPixels8 rgb (i * 3) = some ((List.range 8).map fun j => pixelAt rgb (i + j)) := by
  have pixel : ∀ j < 8, readPixel rgb (i * 3 + j * 3) = some (pixelAt rgb (i + j)) := by
    intro j short
    rw [← Nat.add_mul]
    exact readPixel_eq (by omega)
  exact mapM_total _ fun j member => pixel j (List.mem_range.mp member)

theorem neonLuma8_correct : Luma8Correct neonLuma8 := by
  intro rgb i inside
  unfold neonLuma8
  rw [readPixels8_eq inside]
  simp only [Option.bind_eq_bind, Option.bind_some, mapM_total _ fun p _ => luma_eq p, List.map_map]
  rfl

end Kernels

/-! ### One lane of the AVX2 kernel -/

/-- The lane of `rgb8_to_y_avx2` a pixel is in, before the shift. -/
def lumaLane (p : Rgb) : BitVec 32 :=
  BitVec.ofNat 32 p.r.toNat * BitVec.ofInt 32 yWeights.r +
    BitVec.ofNat 32 p.g.toNat * BitVec.ofInt 32 yWeights.g +
    BitVec.ofNat 32 p.b.toNat * BitVec.ofInt 32 yWeights.b + BitVec.ofInt 32 128

/-- A small number read back from a wider register as a signed one. -/
theorem toInt_small {w n : Nat} (small : 2 * n < 2 ^ w) : (BitVec.ofNat w n).toInt = n := by
  have fits : n % 2 ^ w = n := Nat.mod_eq_of_lt (by omega)
  rw [BitVec.toInt_eq_toNat_of_lt (by rw [BitVec.toNat_ofNat, fits]; exact small),
    BitVec.toNat_ofNat, fits]

/-- One lane of `_mm256_max_epi32` with zero and `_mm256_min_epi32` with 255. -/
def clampLane (x : BitVec 32) : BitVec 32 :=
  let raised := if x.toInt < (BitVec.ofInt 32 0).toInt then BitVec.ofInt 32 0 else x
  if raised.toInt < (BitVec.ofInt 32 255).toInt then raised else BitVec.ofInt 32 255

theorem clampLane_byte {n : Nat} (small : n ≤ 255) :
    clampLane (BitVec.ofNat 32 n) = BitVec.ofNat 32 n := by
  have value : (BitVec.ofNat 32 n).toInt = n := toInt_small (by omega)
  have zero : (BitVec.ofInt 32 0).toInt = 0 := rfl
  have top : (BitVec.ofInt 32 255).toInt = 255 := rfl
  unfold clampLane
  simp only [value, zero, top, if_neg (show ¬(n : Int) < 0 by omega)]
  split
  · rfl
  · have : n = 255 := by omega
    subst this
    rfl

/-- A lane that holds a byte comes out of both packs as that byte. -/
theorem packed_byte {n : Nat} (small : n ≤ 255) :
    UInt8.ofBitVec (saturateU8 (saturate16 (BitVec.ofNat 32 n))) = UInt8.ofNat n := by
  have sixteen : saturate16 (BitVec.ofNat 32 n) = BitVec.ofNat 16 n := by
    unfold saturate16
    rw [toInt_small (by omega), min_eq_right (by omega), max_eq_right (by omega),
      BitVec.ofInt_natCast]
  have eight : saturateU8 (BitVec.ofNat 16 n) = BitVec.ofNat 8 n := by
    unfold saturateU8
    rw [toInt_small (by omega), min_eq_right (by omega), max_eq_right (by omega),
      BitVec.ofInt_natCast]
  rw [sixteen, eight]
  rfl

/-- The natural number a luma lane holds before the shift. -/
def lumaSum (p : Rgb) : Nat := p.r.toNat * 77 + p.g.toNat * 150 + p.b.toNat * 29 + 128

theorem lumaSum_bound (p : Rgb) : lumaSum p < 65536 := by
  have := p.r.toNat_lt
  have := p.g.toNat_lt
  have := p.b.toNat_lt
  unfold lumaSum
  omega

theorem lumaLane_eq (p : Rgb) : lumaLane p = BitVec.ofNat 32 (lumaSum p) := by
  unfold lumaLane lumaSum
  simp only [BitVec.ofNat_add, BitVec.ofNat_mul]
  rfl

theorem shifted_lane (p : Rgb) :
    (lumaLane p).sshiftRight 8 = BitVec.ofNat 32 (lumaSum p / 256) := by
  have bound := lumaSum_bound p
  apply BitVec.eq_of_toInt_eq
  rw [BitVec.toInt_sshiftRight, lumaLane_eq, toInt_small (by omega), toInt_small (by omega)]
  rw [Int.shiftRight_eq_div_pow]
  norm_cast

theorem lumaByte_eq (p : Rgb) : lumaByte p = UInt8.ofNat (lumaSum p / 256) := by
  have bound := lumaSum_bound p
  have same : weightedSum yWeights p = (lumaSum p : Int) := by
    simp only [weightedSum, yWeights, lumaSum]
    push_cast
    ring
  have quotient : (lumaSum p : Int) / 256 = ((lumaSum p / 256 : Nat) : Int) := by norm_cast
  unfold lumaByte clampU8
  rw [same, quotient, min_eq_right (by omega), max_eq_right (by omega), Int.toNat_natCast]

theorem lane_byte (p : Rgb) :
    UInt8.ofBitVec (saturateU8 (saturate16 (clampLane ((lumaLane p).sshiftRight 8)))) =
      lumaByte p := by
  have bound := lumaSum_bound p
  have small : lumaSum p / 256 ≤ 255 := by omega
  rw [shifted_lane, clampLane_byte small, packed_byte small, lumaByte_eq]

/-- A vector operation with a constant, over lanes given pixel by pixel. -/
theorem zipWith_set1 {g : BitVec 32 → BitVec 32 → BitVec 32} {f : Rgb → BitVec 32}
    {pixels : List Rgb} (eight : pixels.length = 8) (x : Int) :
    List.zipWith g (pixels.map f) (set1 x) = pixels.map fun p => g (f p) (BitVec.ofInt 32 x) := by
  rw [set1, ← eight, List.zipWith_map_left]
  exact List.ext_getElem (by simp) fun j _ _ => by simp

theorem rgb8ToY_lanes {pixels : List Rgb} (eight : pixels.length = 8) :
    rgb8ToY (pixels.map (BitVec.ofNat 32 ·.r.toNat)) (pixels.map (BitVec.ofNat 32 ·.g.toNat))
      (pixels.map (BitVec.ofNat 32 ·.b.toNat)) =
        pixels.map fun p => (lumaLane p).sshiftRight 8 := by
  simp only [rgb8ToY, mullo, addLanes, srai, zipWith_set1 eight, List.zipWith_map, List.zipWith_self,
    List.map_map]
  rfl

theorem clamped_lanes {pixels : List Rgb} (eight : pixels.length = 8) (f : Rgb → BitVec 32) :
    minLanes (maxLanes (pixels.map f) (set1 0)) (set1 255) = pixels.map fun p => clampLane (f p) := by
  simp only [minLanes, maxLanes, zipWith_set1 eight]
  rfl

/-- The two packs, the byte shift and the join put the eight lanes side by side. -/
theorem packed_lanes (a b c d e f g h : BitVec 32) :
    (orLanes ((packus (packs [a, b, c, d, e, f, g, h] (set1 0)) (List.replicate 16 0)).take 16)
      (slli 4 ((packus (packs [a, b, c, d, e, f, g, h] (set1 0)) (List.replicate 16 0)).drop 16))
      ).take 8 = [a, b, c, d, e, f, g, h].map fun x => saturateU8 (saturate16 x) := by
  have zero : saturateU8 (saturate16 0#32) = 0#8 := rfl
  simp [orLanes, packus, packs, slli, set1, List.replicate_succ, zero]

theorem packAndClamp_lanes {pixels : List Rgb} (eight : pixels.length = 8) (f : Rgb → BitVec 32) :
    (packAndClamp (pixels.map f)).take 8 =
      pixels.map fun p => saturateU8 (saturate16 (clampLane (f p))) := by
  unfold packAndClamp
  rw [clamped_lanes eight]
  match pixels, eight with
  | [p0, p1, p2, p3, p4, p5, p6, p7], _ => exact packed_lanes ..

theorem avx2Luma8_correct : Luma8Correct avx2Luma8 := by
  intro rgb i inside
  unfold avx2Luma8 loadRgbValues
  rw [readPixels8_eq inside]
  simp only [Option.bind_eq_bind, Option.bind_some]
  rw [rgb8ToY_lanes (by simp), packAndClamp_lanes (by simp)]
  simp only [List.map_map, luma8Bytes, Function.comp_def, lane_byte]

/-- The lanes of `rgb8_to_y_avx2` hold, at each operation, the number they stand for. -/
def LanesExact (p : Rgb) : Prop :=
  let r := BitVec.ofNat 32 p.r.toNat * BitVec.ofInt 32 yWeights.r
  let g := BitVec.ofNat 32 p.g.toNat * BitVec.ofInt 32 yWeights.g
  let b := BitVec.ofNat 32 p.b.toNat * BitVec.ofInt 32 yWeights.b
  r.toInt = yWeights.r * p.r.toNat ∧ g.toInt = yWeights.g * p.g.toNat ∧
  b.toInt = yWeights.b * p.b.toNat ∧
  (r + g).toInt = yWeights.r * p.r.toNat + yWeights.g * p.g.toNat ∧
  (r + g + b).toInt = yWeights.r * p.r.toNat + yWeights.g * p.g.toNat + yWeights.b * p.b.toNat ∧
  (r + g + b + BitVec.ofInt 32 128).toInt = weightedSum yWeights p

theorem lanes_exact (p : Rgb) : LanesExact p := by
  have := p.r.toNat_lt
  have := p.g.toNat_lt
  have := p.b.toNat_lt
  have r : BitVec.ofNat 32 p.r.toNat * BitVec.ofInt 32 yWeights.r =
      BitVec.ofNat 32 (p.r.toNat * 77) := (BitVec.ofNat_mul ..).symm
  have g : BitVec.ofNat 32 p.g.toNat * BitVec.ofInt 32 yWeights.g =
      BitVec.ofNat 32 (p.g.toNat * 150) := (BitVec.ofNat_mul ..).symm
  have b : BitVec.ofNat 32 p.b.toNat * BitVec.ofInt 32 yWeights.b =
      BitVec.ofNat 32 (p.b.toNat * 29) := (BitVec.ofNat_mul ..).symm
  have half : BitVec.ofInt 32 128 = BitVec.ofNat 32 128 := rfl
  simp only [LanesExact, r, g, b, half, ← BitVec.ofNat_add]
  rw [toInt_small (by omega), toInt_small (by omega), toInt_small (by omega), toInt_small (by omega),
    toInt_small (by omega), toInt_small (by omega)]
  simp only [weightedSum, yWeights]
  omega

/-! ### Agreement -/

/-- Planes of one size whose bytes differ by at most one. -/
def WithinOne (a b : List UInt8) : Prop :=
  List.Forall₂ (fun x y => x.toNat ≤ y.toNat + 1 ∧ y.toNat ≤ x.toNat + 1) a b

def interleave (us vs : List UInt8) : List UInt8 := (us.zip vs).flatMap fun uv => [uv.1, uv.2]

theorem clampU8_toNat (x : Int) : ((clampU8 x).toNat : Int) = max 0 (min 255 x) := by
  have small : (max 0 (min 255 x)).toNat < 256 := by omega
  unfold clampU8
  rw [UInt8.toNat_ofNat_of_lt' small]
  omega

theorem chromaByte_near {c : Weights} (bounds : ∀ p, 0 ≤ sample c p ∧ sample c p ≤ 256)
    (rgb : List UInt8) (width offset : Nat) :
    (chromaByte 2 c rgb width offset).toNat ≤ (chromaByte 0 c rgb width offset).toNat + 1 ∧
      (chromaByte 0 c rgb width offset).toNat ≤ (chromaByte 2 c rgb width offset).toNat + 1 := by
  have total := blockTotal_bounds rgb width (offset / (width / 2)) (offset % (width / 2)) bounds
  have rounded := clampU8_toNat
    ((blockTotal c rgb width (offset / (width / 2)) (offset % (width / 2)) + 2) / 4)
  have plain := clampU8_toNat
    ((blockTotal c rgb width (offset / (width / 2)) (offset % (width / 2)) + 0) / 4)
  unfold chromaByte
  omega

theorem cell_near (rgb : List UInt8) (width : Nat) (p : Plane) (i : Nat) :
    (cell 2 rgb width p i).toNat ≤ (cell 0 rgb width p i).toNat + 1 ∧
      (cell 0 rgb width p i).toNat ≤ (cell 2 rgb width p i).toNat + 1 := by
  cases p with
  | y => exact ⟨Nat.le_succ _, Nat.le_succ _⟩
  | u => exact chromaByte_near uSample_bounds rgb width i
  | v => exact chromaByte_near vSample_bounds rgb width i
  | uv =>
    simp only [cell]
    split
    · exact chromaByte_near uSample_bounds rgb width (i / 2)
    · exact chromaByte_near vSample_bounds rgb width (i / 2)

theorem rendered_near (format : Format) (rgb : List UInt8) (width height : Nat) (p : Plane) :
    WithinOne (rendered 2 format rgb width height p) (rendered 0 format rgb width height p) := by
  unfold WithinOne rendered
  rw [List.forall₂_map_left_iff, List.forall₂_map_right_iff]
  exact List.forall₂_same.mpr fun i _ => cell_near rgb width p i

theorem range_pairs (f : Nat → UInt8) (n : Nat) :
    (List.range (n * 2)).map f = (List.range n).flatMap fun i => [f (i * 2), f (i * 2 + 1)] := by
  induction n with
  | zero => rfl
  | succ n ih =>
    rw [Nat.succ_mul, List.range_succ, List.range_succ, List.range_succ, List.map_append,
      List.map_append, ih, List.flatMap_append]
    simp

theorem rendered_interleaved (rounding : Int) (rgb : List UInt8) (width height : Nat) :
    rendered rounding .nv12 rgb width height .uv =
      interleave (rendered rounding .yuv420p rgb width height .u)
        (rendered rounding .yuv420p rgb width height .v) := by
  have even : ∀ i, i * 2 % 2 = 0 := by omega
  have half : ∀ i, i * 2 / 2 = i := by omega
  have odd : ∀ i, (i * 2 + 1) % 2 ≠ 0 := by omega
  have halfOdd : ∀ i, (i * 2 + 1) / 2 = i := by omega
  unfold rendered interleave
  simp only [Format.size, ↓reduceIte]
  rw [range_pairs, List.zip_map', List.flatMap_map]
  simp only [cell, even, half, odd, halfOdd, ↓reduceIte]

/-- What a kernel adds to a sum of samples before it divides. -/
def roundingOf (arch : TargetArch) (strategy : ConversionStrategy) : Int :=
  match arch, strategy with
  | .x86, .avx2 => 2
  | .x86, .avx512 => 2
  | .aarch64, .neon => 2
  | _, _ => 0

section Routes
variable {rgb : List UInt8} {width height : Nat}

theorem kernel_eq (size : rgb.length = width * height * 3) (evenWidth : width % 2 = 0)
    (evenHeight : height % 2 = 0) (arch : TargetArch) (strategy : ConversionStrategy)
    (format : Format) :
    kernel arch strategy format rgb width height (format.alloc width height) =
      some (rendered (roundingOf arch strategy) format rgb width height) := by
  have plain := scalar_eq format size evenWidth evenHeight
  have onX86 := vector_eq format avx2Luma8_correct size
  have onArm := vector_eq format neonLuma8_correct size
  cases arch <;> cases strategy <;> first | exact plain | exact onX86 | exact onArm

/-- Every entry point runs one of the three routes. -/
theorem kernel_mem (arch : TargetArch) (strategy : ConversionStrategy) :
    kernel arch strategy ∈ [scalar, avx2, neon] := by
  cases arch <;> cases strategy <;> simp [kernel]

theorem convert_eq (size : rgb.length = width * height * 3) (evenWidth : width % 2 = 0)
    (evenHeight : height % 2 = 0) (wide : width ≠ 0) (high : height ≠ 0) (format : Format)
    (arch : TargetArch) (strategy : ConversionStrategy) :
    convert format arch strategy rgb width height =
      some (.ok (rendered (roundingOf arch strategy) format rgb width height)) := by
  simp only [convert, size, ne_eq, not_true_eq_false, ↓reduceIte, dimensionError, evenWidth,
    evenHeight, or_self, wide, high, kernel_eq size evenWidth evenHeight, Option.map_some]

theorem inPlace_eq (size : rgb.length = width * height * 3) (evenWidth : width % 2 = 0)
    (evenHeight : height % 2 = 0) (wide : width ≠ 0) (high : height ≠ 0) (arch : TargetArch)
    (strategy : ConversionStrategy) (rest : List UInt8) (planes : Planes)
    (same : planes = rendered (roundingOf arch strategy) .nv12 rgb width height) :
    rgbToNv12InPlace arch strategy (rgb ++ rest) width height =
      some (.ok ((planes .y ++ planes .uv).length,
        planes .y ++ planes .uv ++ (rgb ++ rest).drop (planes .y ++ planes .uv).length)) := by
  have ySize : (planes .y).length = width * height := by
    subst same
    simp [rendered, Format.size]
  have uvSize : (planes .uv).length = width / 2 * (height / 2) * 2 := by
    subst same
    simp [rendered, Format.size]
  have fits : width / 2 * (height / 2) * 2 ≤ width * height := by
    calc width / 2 * (height / 2) * 2 = width / 2 * 2 * (height / 2) := by ring
      _ ≤ width * height := Nat.mul_le_mul (by omega) (by omega)
  have long : width * height * 3 ≤ (rgb ++ rest).length := by
    rw [List.length_append, size]
    omega
  have front : (rgb ++ rest).take (width * height * 3) = rgb := by
    rw [← size, List.take_left]
  have run := kernel_eq size evenWidth evenHeight arch strategy .nv12
  rw [← same] at run
  simp only [rgbToNv12InPlace, Nat.not_lt.mpr long, ↓reduceIte, dimensionError, evenWidth,
    evenHeight, ne_eq, not_true_eq_false, or_self, wide, high, front, run, Option.bind_eq_bind,
    Option.bind_some]
  have first : copyFromSlice (rgb ++ rest) 0 (width * height) (planes .y) =
      some (planes .y ++ (rgb ++ rest).drop (width * height)) := by
    unfold copyFromSlice
    rw [if_pos ⟨by omega, by omega, by omega⟩]
    simp
  have second : copyFromSlice (planes .y ++ (rgb ++ rest).drop (width * height)) (width * height)
      (width * height + width / 2 * (height / 2) * 2) (planes .uv) =
        some (planes .y ++ planes .uv ++
          (rgb ++ rest).drop (width * height + width / 2 * (height / 2) * 2)) := by
    unfold copyFromSlice
    rw [if_pos ⟨by omega, by rw [List.length_append, List.length_drop]; omega, by omega⟩]
    rw [List.take_left' ySize, List.drop_append, List.drop_eq_nil_of_le (by omega), ySize,
      List.drop_drop]
    simp
  rw [first, Option.bind_some, second, Option.bind_some, List.length_append, ySize, uvSize]

theorem batch_eq {frames : List (List UInt8)}
    (sizes : ∀ frame ∈ frames, frame.length = width * height * 3) (evenWidth : width % 2 = 0)
    (evenHeight : height % 2 = 0) (wide : width ≠ 0) (high : height ≠ 0) (format : Format)
    (arch : TargetArch) (strategy : ConversionStrategy) :
    batch format arch strategy frames width height = some (.ok (frames.map fun frame =>
      rendered (roundingOf arch strategy) format frame width height)) := by
  unfold batch
  split
  · rename_i empty
    rw [empty]
    rfl
  · have sized : frames.zipIdx.find? (fun frame => frame.1.length ≠ width * height * 3) = none := by
      rw [List.find?_eq_none]
      rintro ⟨frame, i⟩ member
      have inside : frame ∈ frames := List.fst_mem_of_mem_zipIdx member
      simp [sizes frame inside]
    simp only [sized, dimensionError, evenWidth, evenHeight, ne_eq, not_true_eq_false, or_self,
      ↓reduceIte, wide, high, Option.bind_eq_bind]
    rw [mapM_total frames fun frame member =>
      kernel_eq (sizes frame member) evenWidth evenHeight arch strategy format]
    rfl

end Routes

/-- The routes from one image to its YUV planes. That each has a result says that no
index leaves its buffer and no `i32` operation overflows. -/
structure RoutesAgree (rgb : List UInt8) (width height : Nat) : Prop where
  vectors : ∀ route ∈ [avx2, neon], ∀ format : Format, ∃ plain fast,
    scalar format rgb width height (format.alloc width height) = some plain ∧
    route format rgb width height (format.alloc width height) = some fast ∧
    fast .y = plain .y ∧ ∀ p, WithinOne (fast p) (plain p)
  dispatched : ∀ format arch strategy, kernel arch strategy ∈ [scalar, avx2, neon] ∧ ∃ planes,
    kernel arch strategy format rgb width height (format.alloc width height) = some planes ∧
    convert format arch strategy rgb width height = some (.ok planes)
  interleaved : ∀ arch strategy, ∃ planar semi,
    rgbToYuv420p arch strategy rgb width height = some (.ok planar) ∧
    rgbToNv12 arch strategy rgb width height = some (.ok semi) ∧
    semi .uv = interleave (planar .u) (planar .v)
  inPlace : ∀ arch strategy rest, ∃ semi,
    rgbToNv12 arch strategy rgb width height = some (.ok semi) ∧
    rgbToNv12InPlace arch strategy (rgb ++ rest) width height =
      some (.ok ((semi .y ++ semi .uv).length,
        semi .y ++ semi .uv ++ (rgb ++ rest).drop (semi .y ++ semi .uv).length))
  batched : ∀ format arch strategy frames,
    (∀ frame ∈ frames, frame.length = width * height * 3) → ∃ results,
      batch format arch strategy frames width height = some (.ok results) ∧
      frames.map (convert format arch strategy · width height) =
        results.map fun planes => some (.ok planes)
  exactLanes : ∀ p, LanesExact p

/-- All routes agree, on every image of even non-zero dimensions. -/
theorem routes_agree {rgb : List UInt8} {width height : Nat} (wide : width ≠ 0)
    (high : height ≠ 0) (evenWidth : width % 2 = 0) (evenHeight : height % 2 = 0)
    (size : rgb.length = width * height * 3) : RoutesAgree rgb width height where
  vectors := by
    intro route member format
    refine ⟨_, rendered 2 format rgb width height, scalar_eq _ size evenWidth evenHeight, ?_, rfl,
      rendered_near format rgb width height⟩
    simp only [List.mem_cons, List.not_mem_nil, or_false] at member
    rcases member with rfl | rfl
    · exact vector_eq _ avx2Luma8_correct size
    · exact vector_eq _ neonLuma8_correct size
  dispatched := by
    intro format arch strategy
    exact ⟨kernel_mem arch strategy, _, kernel_eq size evenWidth evenHeight arch strategy format,
      convert_eq size evenWidth evenHeight wide high format arch strategy⟩
  interleaved := by
    intro arch strategy
    exact ⟨_, _, convert_eq size evenWidth evenHeight wide high .yuv420p arch strategy,
      convert_eq size evenWidth evenHeight wide high .nv12 arch strategy,
      rendered_interleaved _ rgb width height⟩
  inPlace := by
    intro arch strategy rest
    exact ⟨_, convert_eq size evenWidth evenHeight wide high .nv12 arch strategy,
      inPlace_eq size evenWidth evenHeight wide high arch strategy rest _ rfl⟩
  batched := by
    intro format arch strategy frames sizes
    refine ⟨_, batch_eq sizes evenWidth evenHeight wide high format arch strategy, ?_⟩
    rw [List.map_map]
    exact List.map_congr_left fun frame member =>
      convert_eq (sizes frame member) evenWidth evenHeight wide high format arch strategy
  exactLanes := lanes_exact

/-- Red, green, blue and yellow in a square. -/
theorem routes_agree_on_four_pixels :
    RoutesAgree [255, 0, 0, 0, 255, 0, 0, 0, 255, 255, 255, 0] 2 2 :=
  routes_agree (by decide) (by decide) (by decide) (by decide) rfl

end Roboflow.Media
