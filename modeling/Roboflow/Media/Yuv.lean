import Roboflow.Library.Painting

/-! RGB to YUV conversion, `video/simd`. The scalar, AVX2 and NEON kernels and the
entry points that choose between them. A kernel has no result where an index leaves
its buffer or an `i32` operation overflows; the lanes of a vector register wrap, as
the intrinsics do. -/
namespace Roboflow.Media
open Library

/-! ### Pixels -/

/-- An `i32` result. -/
def i32 (x : Int) : Option Int := if -2 ^ 31 ≤ x ∧ x < 2 ^ 31 then some x else none

structure Rgb where
  r : UInt8
  g : UInt8
  b : UInt8

/-- The coefficients of one component, scaled by 256. -/
structure Weights where
  r : Int
  g : Int
  b : Int

/-- `Y_R`, `Y_G`, `Y_B`. -/
def yWeights : Weights := ⟨77, 150, 29⟩

/-- `U_R`, `U_G`, `U_B`. -/
def uWeights : Weights := ⟨-43, -85, 128⟩

/-- `V_R`, `V_G`, `V_B`. -/
def vWeights : Weights := ⟨128, -107, -21⟩

def readPixel (rgb : List UInt8) (offset : Nat) : Option Rgb := do
  let r ← rgb[offset]?
  let g ← rgb[offset + 1]?
  let b ← rgb[offset + 2]?
  some ⟨r, g, b⟩

/-- `(C_R * r + C_G * g + C_B * b + 128) >> 8`. -/
def weighted (c : Weights) (p : Rgb) : Option Int := do
  let red ← i32 (c.r * p.r.toNat)
  let green ← i32 (c.g * p.g.toNat)
  let redGreen ← i32 (red + green)
  let blue ← i32 (c.b * p.b.toNat)
  let all ← i32 (redGreen + blue)
  let rounded ← i32 (all + 128)
  some (rounded >>> (8 : Nat))

/-- `x.clamp(0, 255) as u8`. -/
def clampU8 (x : Int) : UInt8 := UInt8.ofNat (max 0 (min 255 x)).toNat

def luma (p : Rgb) : Option UInt8 := (weighted yWeights p).map clampU8

/-- One chroma sample, before the average. -/
def chroma (c : Weights) (p : Rgb) : Option Int := do i32 ((← weighted c p) + 128)

/-! ### Planes -/

inductive Plane where
  | y
  | u
  | v
  | uv
  deriving DecidableEq

/-- The two families of conversions: `rgb_to_yuv420p` and `rgb_to_nv12`. -/
inductive Format where
  | yuv420p
  | nv12
  deriving DecidableEq

abbrev Planes := Plane → List UInt8

/-- The bytes of each plane; a format has no bytes in the other's planes. -/
def Format.size (format : Format) (width height : Nat) : Plane → Nat
  | .y => width * height
  | .u => if format = .yuv420p then width / 2 * (height / 2) else 0
  | .v => if format = .yuv420p then width / 2 * (height / 2) else 0
  | .uv => if format = .nv12 then width / 2 * (height / 2) * 2 else 0

def Format.alloc (format : Format) (width height : Nat) : Planes :=
  fun p => List.replicate (format.size width height p) 0

/-- The two chroma bytes of the block at `offset`. -/
def storeChroma (format : Format) (planes : Planes) (offset : Nat) (u v : UInt8) :
    Option Planes :=
  match format with
  | .yuv420p => do
    let planes ← write planes .u offset u
    write planes .v offset v
  | .nv12 => do
    let planes ← write planes .uv (offset * 2) u
    write planes .uv (offset * 2 + 1) v

/-! ### Scalar -/

/-- `sums[i] += x`. -/
def accumulate (sums : List Int) (i : Nat) (x : Int) : Option (List Int) := do
  let old ← sums[i]?
  let new ← i32 (old + x)
  some (sums.set i new)

/-- `(sums[0] + sums[1] + sums[2] + sums[3]) / 4`. -/
def average : List Int → Option Int
  | [a, b, c, d] => do
    let ab ← i32 (a + b)
    let abc ← i32 (ab + c)
    let abcd ← i32 (abc + d)
    some (abcd.tdiv 4)
  | _ => none

/-- One pixel of a block: its luma byte, and its chroma into the block's sums. -/
def scalarPixel (rgb : List UInt8) (width : Nat) (state : Planes × List Int × List Int)
    (y x : Nat) : Option (Planes × List Int × List Int) := do
  let p ← readPixel rgb ((y * width + x) * 3)
  let planes ← write state.1 .y (y * width + x) (← luma p)
  let blockIdx := ((y &&& 1) <<< 1) ||| (x &&& 1)
  let uSum ← accumulate state.2.1 blockIdx (← chroma uWeights p)
  let vSum ← accumulate state.2.2 blockIdx (← chroma vWeights p)
  some (planes, uSum, vSum)

def scalarBlock (format : Format) (rgb : List UInt8) (width : Nat) (planes : Planes)
    (blockY blockX : Nat) : Option Planes := do
  let (planes, uSum, vSum) ← (List.range 2).foldlM (fun state dy =>
    (List.range 2).foldlM (fun state dx =>
      scalarPixel rgb width state (blockY * 2 + dy) (blockX * 2 + dx)) state)
    (planes, [0, 0, 0, 0], [0, 0, 0, 0])
  let u ← average uSum
  let v ← average vSum
  storeChroma format planes (blockY * (width / 2) + blockX) (clampU8 u) (clampU8 v)

/-- `rgb_to_yuv420p_scalar` and `rgb_to_nv12_scalar`. -/
def scalar (format : Format) (rgb : List UInt8) (width height : Nat) (planes : Planes) :
    Option Planes :=
  (List.range (height / 2)).foldlM (fun planes blockY =>
    (List.range (width / 2)).foldlM (fun planes blockX =>
      scalarBlock format rgb width planes blockY blockX) planes) planes

/-! ### The intrinsics of the AVX2 kernel, lane by lane -/

abbrev Lanes (w : Nat) := List (BitVec w)

/-- `_mm256_set1_epi32`. -/
def set1 (x : Int) : Lanes 32 := List.replicate 8 (BitVec.ofInt 32 x)

/-- `_mm256_mullo_epi32`: the low 32 bits of each product. -/
def mullo (a b : Lanes 32) : Lanes 32 := List.zipWith (· * ·) a b

/-- `_mm256_add_epi32`. -/
def addLanes (a b : Lanes 32) : Lanes 32 := List.zipWith (· + ·) a b

/-- `_mm256_srai_epi32`: an arithmetic shift. -/
def srai (a : Lanes 32) (n : Nat) : Lanes 32 := a.map (·.sshiftRight n)

/-- `_mm256_max_epi32`. -/
def maxLanes (a b : Lanes 32) : Lanes 32 :=
  List.zipWith (fun x y => if x.toInt < y.toInt then y else x) a b

/-- `_mm256_min_epi32`. -/
def minLanes (a b : Lanes 32) : Lanes 32 :=
  List.zipWith (fun x y => if x.toInt < y.toInt then x else y) a b

/-- Signed saturation to 16 bits. -/
def saturate16 (x : BitVec 32) : BitVec 16 := BitVec.ofInt 16 (max (-32768) (min 32767 x.toInt))

/-- Unsigned saturation to 8 bits. -/
def saturateU8 (x : BitVec 16) : BitVec 8 := BitVec.ofInt 8 (max 0 (min 255 x.toInt))

/-- `_mm256_packs_epi32`: within each 128-bit half, the lanes of `a` before those of `b`. -/
def packs (a b : Lanes 32) : Lanes 16 :=
  (a.take 4 ++ b.take 4 ++ (a.drop 4 ++ b.drop 4)).map saturate16

/-- `_mm256_packus_epi16`, halves likewise. -/
def packus (a b : Lanes 16) : Lanes 8 :=
  (a.take 8 ++ b.take 8 ++ (a.drop 8 ++ b.drop 8)).map saturateU8

/-- `_mm_slli_si128` by `n` bytes. -/
def slli (n : Nat) (a : Lanes 8) : Lanes 8 := List.replicate n 0 ++ a.take (16 - n)

/-- `_mm_or_si128`. -/
def orLanes (a b : Lanes 8) : Lanes 8 := List.zipWith (· ||| ·) a b

/-! ### AVX2 and NEON -/

/-- The eight pixels from `offset` on. -/
def readPixels8 (rgb : List UInt8) (offset : Nat) : Option (List Rgb) :=
  (List.range 8).mapM fun i => readPixel rgb (offset + i * 3)

/-- `load_rgb_values`. -/
def loadRgbValues (rgb : List UInt8) (offset : Nat) : Option (Lanes 32 × Lanes 32 × Lanes 32) := do
  let pixels ← readPixels8 rgb offset
  some (pixels.map (BitVec.ofNat 32 ·.r.toNat), pixels.map (BitVec.ofNat 32 ·.g.toNat),
    pixels.map (BitVec.ofNat 32 ·.b.toNat))

/-- `rgb8_to_y_avx2`. -/
def rgb8ToY (r g b : Lanes 32) : Lanes 32 :=
  let rContrib := mullo r (set1 yWeights.r)
  let gContrib := mullo g (set1 yWeights.g)
  let bContrib := mullo b (set1 yWeights.b)
  let ySum := addLanes (addLanes rContrib gContrib) bContrib
  srai (addLanes ySum (set1 128)) 8

/-- `pack_and_clamp_epi32`. -/
def packAndClamp (v : Lanes 32) : Lanes 8 :=
  let clamped := minLanes (maxLanes v (set1 0)) (set1 255)
  let packed16 := packs clamped (set1 0)
  let packed8 := packus packed16 (List.replicate 16 0)
  let lo := packed8.take 16
  let hi := packed8.drop 16
  orLanes lo (slli 4 hi)

/-- The eight luma bytes the AVX2 kernel stores, the lower 64 bits of the register. -/
def avx2Luma8 (rgb : List UInt8) (offset : Nat) : Option (List UInt8) := do
  let (r, g, b) ← loadRgbValues rgb offset
  some (((packAndClamp (rgb8ToY r g b)).take 8).map UInt8.ofBitVec)

/-- `compute_y_values_8`; the bytes are widened to `i16` and to `i32` before use. -/
def neonLuma8 (rgb : List UInt8) (offset : Nat) : Option (List UInt8) := do
  let pixels ← readPixels8 rgb offset
  pixels.mapM luma

/-- One row of luma: blocks of eight pixels, then the remaining columns one by one. -/
def lumaRow (luma8 : List UInt8 → Nat → Option (List UInt8)) (rgb : List UInt8) (width : Nat)
    (planes : Planes) (y : Nat) : Option Planes := do
  let rowOffset := y * width * 3
  let yRowOffset := y * width
  let widthMinus8 := width - width % 8
  let planes ← (List.range' 0 (widthMinus8 / 8) 8).foldlM (fun planes x => do
    writeRange planes .y (yRowOffset + x) (← luma8 rgb (rowOffset + x * 3))) planes
  (List.range' widthMinus8 (width - widthMinus8)).foldlM (fun planes x => do
    let p ← readPixel rgb (rowOffset + x * 3)
    write planes .y (yRowOffset + x) (← luma p)) planes

/-- The sums of a block's chroma samples. -/
def blockSums (rgb : List UInt8) (width blockY blockX : Nat) : Option (Int × Int) :=
  (List.range 2).foldlM (fun sums dy => (List.range 2).foldlM (fun sums dx => do
    let p ← readPixel rgb (((blockY * 2 + dy) * width + (blockX * 2 + dx)) * 3)
    let uSum ← i32 (sums.1 + (← chroma uWeights p))
    let vSum ← i32 (sums.2 + (← chroma vWeights p))
    some (uSum, vSum)) sums) (0, 0)

def roundedBlock (format : Format) (rgb : List UInt8) (width : Nat) (planes : Planes)
    (blockY blockX : Nat) : Option Planes := do
  let (uSum, vSum) ← blockSums rgb width blockY blockX
  let u ← i32 (uSum + 2)
  let v ← i32 (vSum + 2)
  storeChroma format planes (blockY * (width / 2) + blockX) (clampU8 (u.tdiv 4))
    (clampU8 (v.tdiv 4))

/-- The luma plane by rows, then the chroma planes by blocks. -/
def vector (luma8 : List UInt8 → Nat → Option (List UInt8)) (format : Format) (rgb : List UInt8)
    (width height : Nat) (planes : Planes) : Option Planes := do
  let planes ← (List.range height).foldlM (lumaRow luma8 rgb width) planes
  (List.range (height / 2)).foldlM (fun planes blockY =>
    (List.range (width / 2)).foldlM (fun planes blockX =>
      roundedBlock format rgb width planes blockY blockX) planes) planes

/-- `rgb_to_yuv420p_avx2` and `rgb_to_nv12_avx2`. -/
def avx2 : Format → List UInt8 → Nat → Nat → Planes → Option Planes := vector avx2Luma8

/-- `rgb_to_yuv420p_neon` and `rgb_to_nv12_neon`. -/
def neon : Format → List UInt8 → Nat → Nat → Planes → Option Planes := vector neonLuma8

/-! ### Entry points -/

inductive ConversionStrategy where
  | avx512
  | avx2
  | sse2
  | neon
  | scalar
  deriving DecidableEq

inductive TargetArch where
  | x86
  | aarch64
  | other
  deriving DecidableEq

/-- The kernel an architecture runs for a strategy. -/
def kernel (arch : TargetArch) (strategy : ConversionStrategy) :
    Format → List UInt8 → Nat → Nat → Planes → Option Planes :=
  match arch, strategy with
  | .x86, .avx2 => avx2
  | .x86, .avx512 => avx2
  | .aarch64, .neon => neon
  | _, _ => scalar

def Format.name : Format → String
  | .yuv420p => "YUV420P"
  | .nv12 => "NV12"

/-- The checks of the dimensions every entry point makes after those of its sizes. -/
def dimensionError (format : Format) (width height : Nat) : Option String :=
  if width % 2 ≠ 0 ∨ height % 2 ≠ 0 then
    some ("Width and height must be even for " ++ format.name ++ " conversion")
  else if width = 0 ∨ height = 0 then some "Width and height must be non-zero"
  else none

/-- `rgb_to_yuv420p` and `rgb_to_nv12`. -/
def convert (format : Format) (arch : TargetArch) (strategy : ConversionStrategy)
    (rgb : List UInt8) (width height : Nat) : Option (Except String Planes) :=
  let expectedSize := width * height * 3
  if rgb.length ≠ expectedSize then
    some (.error s!"RGB data size mismatch: expected {expectedSize} bytes, got {rgb.length}")
  else
    match dimensionError format width height with
    | some message => some (.error message)
    | none =>
      (kernel arch strategy format rgb width height (format.alloc width height)).map .ok

def rgbToYuv420p := convert .yuv420p

def rgbToNv12 := convert .nv12

/-- `buffer[start..stop].copy_from_slice(source)`. -/
def copyFromSlice (buffer : List UInt8) (start stop : Nat) (source : List UInt8) :
    Option (List UInt8) :=
  if start ≤ stop ∧ stop ≤ buffer.length ∧ source.length = stop - start then
    some (buffer.take start ++ source ++ buffer.drop stop)
  else none

/-- The length of the converted data and the buffer after the call. -/
def rgbToNv12InPlace (arch : TargetArch) (strategy : ConversionStrategy) (buffer : List UInt8)
    (width height : Nat) : Option (Except String (Nat × List UInt8)) :=
  let rgbSize := width * height * 3
  if buffer.length < rgbSize then
    some (.error s!"Buffer too small: expected at least {rgbSize} bytes, got {buffer.length}")
  else
    match dimensionError .nv12 width height with
    | some message => some (.error message)
    | none => do
      let ySize := width * height
      let uvSize := width / 2 * (height / 2) * 2
      let nv12Size := ySize + uvSize
      let planes ← kernel arch strategy .nv12 (buffer.take rgbSize) width height
        (Format.nv12.alloc width height)
      let buffer ← copyFromSlice buffer 0 ySize (planes .y)
      let buffer ← copyFromSlice buffer ySize nv12Size (planes .uv)
      some (.ok (nv12Size, buffer))

/-- `rgb_batch_to_nv12` and `rgb_batch_to_yuv420p`. -/
def batch (format : Format) (arch : TargetArch) (strategy : ConversionStrategy)
    (frames : List (List UInt8)) (width height : Nat) : Option (Except String (List Planes)) :=
  if frames = [] then some (.ok [])
  else
    let expectedSize := width * height * 3
    match frames.zipIdx.find? (fun frame => frame.1.length ≠ expectedSize) with
    | some (rgb, i) => some (.error
        s!"Frame {i} size mismatch: expected {expectedSize} bytes, got {rgb.length}")
    | none =>
      match dimensionError format width height with
      | some message => some (.error message)
      | none => do
        let results ← frames.mapM fun rgb =>
          kernel arch strategy format rgb width height (format.alloc width height)
        some (.ok results)

end Roboflow.Media
