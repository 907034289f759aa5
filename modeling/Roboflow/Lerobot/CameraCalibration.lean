import Mathlib

/-! The calibration of a camera, `formats/lerobot/episode.rs` with the parameters of `camera.rs`: its
extrinsics from the projection matrix `P = K [R|t]`. Numbers are those of a field, so that nothing is
rounded. The conversion multiplies by the transpose of the inverse of `K`, which undoes `K` only
where the principal point does not show. -/
namespace Roboflow.Lerobot
open Matrix

variable {α : Type}

/-! ### Parameters -/

structure CameraCalibration (α : Type) where
  /-- Row by row. -/
  k : Fin 9 → α
  d : List α
  /-- Row by row. -/
  p : Option (Fin 12 → α)
  distortionModel : String

structure CameraIntrinsic (α : Type) where
  fx : α
  fy : α
  ppx : α
  ppy : α
  distortionModel : String
  k1 : α
  k2 : α
  k3 : α
  p1 : α
  p2 : α

structure ExtrinsicData (α : Type) where
  /-- Row by row. -/
  rotationMatrix : List (List α)
  translationVector : List α
  deriving DecidableEq

structure CameraExtrinsic (α : Type) where
  extrinsic : ExtrinsicData α
  deriving DecidableEq

def CameraExtrinsic.new (rotationMatrix : Fin 3 → Fin 3 → α) (translation : Fin 3 → α) :
    CameraExtrinsic α where
  extrinsic :=
    { rotationMatrix := [List.ofFn (rotationMatrix 0), List.ofFn (rotationMatrix 1),
        List.ofFn (rotationMatrix 2)]
      translationVector := List.ofFn translation }

section
variable [Field α]

def convertCameraIntrinsic (calibration : CameraCalibration α) : CameraIntrinsic α where
  fx := calibration.k 0
  fy := calibration.k 4
  ppx := calibration.k 2
  ppy := calibration.k 5
  distortionModel := calibration.distortionModel
  k1 := calibration.d[0]?.getD 0
  k2 := calibration.d[1]?.getD 0
  k3 := calibration.d[4]?.getD 0
  p1 := calibration.d[2]?.getD 0
  p2 := calibration.d[3]?.getD 0

def convertCameraExtrinsic (calibration : CameraCalibration α) : Option (CameraExtrinsic α) :=
  calibration.p.map fun p =>
    let k := calibration.k
    let fx := k 0
    let fy := k 4
    let cx := k 2
    let cy := k 5
    let r0 := ![p 0 / fx, p 1 / fx, p 2 / fx]
    let r1 := ![p 4 / fy, p 5 / fy, p 6 / fy]
    let r2 := ![p 8 - p 0 * cx / fx - p 4 * cy / fy, p 9 - p 1 * cx / fx - p 5 * cy / fy,
      p 10 - p 2 * cx / fx - p 6 * cy / fy]
    let t := ![p 3 / fx, p 7 / fy, p 11 - p 3 * cx / fx - p 7 * cy / fy]
    .new ![r0, r1, r2] t

def convertCameraCalibration (calibration : CameraCalibration α) :
    CameraIntrinsic α × Option (CameraExtrinsic α) :=
  (convertCameraIntrinsic calibration, convertCameraExtrinsic calibration)

end

/-! ### Matrices -/

/-- `[[fx, 0, cx], [0, fy, cy], [0, 0, 1]]`. -/
def cameraMatrix [Zero α] [One α] (fx fy cx cy : α) : Matrix (Fin 3) (Fin 3) α := !![fx, 0, cx; 0, fy, cy; 0, 0, 1]

/-- `[R|t]`. -/
def pose (rotation : Matrix (Fin 3) (Fin 3) α) (translation : Fin 3 → α) :
    Matrix (Fin 3) (Fin 4) α :=
  fun i => Fin.snoc (rotation i) (translation i)

def rowMajor {m n : Nat} (M : Matrix (Fin m) (Fin n) α) : Fin (m * n) → α :=
  fun i => M i.divNat i.modNat

/-- A calibration with a camera matrix and the projection matrix of a camera in this pose. -/
def projected [Field α] (fx fy cx cy : α) (rotation : Matrix (Fin 3) (Fin 3) α)
    (translation : Fin 3 → α) (d : List α) (distortionModel : String) : CameraCalibration α :=
  ⟨rowMajor (cameraMatrix fx fy cx cy), d,
    some (rowMajor (cameraMatrix fx fy cx cy * pose rotation translation)), distortionModel⟩

/-- The extrinsics of a matrix `[R|t]`. -/
def extrinsicOf (M : Matrix (Fin 3) (Fin 4) α) : CameraExtrinsic α :=
  .new (fun i j => M i j.castSucc) fun i => M i 3

theorem extrinsicOf_pose (rotation : Matrix (Fin 3) (Fin 3) α) (translation : Fin 3 → α) :
    extrinsicOf (pose rotation translation) = .new rotation translation := by
  have last : (3 : Fin 4) = Fin.last 3 := rfl
  simp only [extrinsicOf, pose, last, Fin.snoc_castSucc, Fin.snoc_last]

theorem extrinsicOf_injective {M N : Matrix (Fin 3) (Fin 4) α} (same : extrinsicOf M = extrinsicOf N) :
    M = N := by
  simp only [extrinsicOf, CameraExtrinsic.new, CameraExtrinsic.mk.injEq, ExtrinsicData.mk.injEq,
    List.cons.injEq,
    List.ofFn_inj, and_true, funext_iff] at same
  obtain ⟨⟨first, second, third⟩, last⟩ := same
  ext i j
  refine Fin.lastCases (last i) (fun j => ?_) j
  fin_cases i
  · exact first j
  · exact second j
  · exact third j

section
variable [Field α] {fx fy : α}

/-- What the conversion multiplies by. -/
def multiplier (fx fy cx cy : α) : Matrix (Fin 3) (Fin 3) α :=
  !![1 / fx, 0, 0; 0, 1 / fy, 0; -cx / fx, -cy / fy, 1]

theorem multiplied_entry (cx cy : α) (M : Matrix (Fin 3) (Fin 4) α) (i : Fin 3) (j : Fin 4) :
    (multiplier fx fy cx cy * M) i j =
      ![M 0 j / fx, M 1 j / fy, M 2 j - M 0 j * cx / fx - M 1 j * cy / fy] i := by
  rw [Matrix.mul_apply, Fin.sum_univ_three]
  fin_cases i <;> simp [multiplier] <;> ring

theorem convertCameraExtrinsic_eq (fx fy cx cy : α) (projection : Matrix (Fin 3) (Fin 4) α)
    (d : List α) (distortionModel : String) :
    convertCameraExtrinsic ⟨rowMajor (cameraMatrix fx fy cx cy), d, some (rowMajor projection),
        distortionModel⟩ =
      some (extrinsicOf (multiplier fx fy cx cy * projection)) := by
  refine congrArg some (congrArg₂ CameraExtrinsic.new ?_ ?_)
  · funext i j
    rw [multiplied_entry]
    fin_cases i <;> fin_cases j <;> rfl
  · funext i
    rw [multiplied_entry]
    fin_cases i <;> rfl

/-- The multiplier undoes the camera matrix on the columns the principal point does not move. -/
theorem column_kept_iff (wide : fx ≠ 0) (high : fy ≠ 0) (cx cy a b c : α) :
    ((fx * a + cx * c) / fx = a ∧ (fy * b + cy * c) / fy = b ∧
        c - (fx * a + cx * c) * cx / fx - (fy * b + cy * c) * cy / fy = c) ↔
      cx * c = 0 ∧ cy * c = 0 ∧ cx * a + cy * b = 0 := by
  have first : (fx * a + cx * c) / fx = a ↔ cx * c = 0 := by
    rw [div_eq_iff wide, mul_comm a fx, add_eq_left]
  have second : (fy * b + cy * c) / fy = b ↔ cy * c = 0 := by
    rw [div_eq_iff high, mul_comm b fy, add_eq_left]
  rw [first, second]
  refine and_congr_right fun noX => and_congr_right fun noY => ?_
  have third : c - (fx * a + cx * c) * cx / fx - (fy * b + cy * c) * cy / fy =
      c - (cx * a + cy * b) := by
    rw [noX, noY, add_zero, add_zero]
    field_simp
    ring
  rw [third, sub_eq_self]

theorem camera_entry (cx cy : α) (M : Matrix (Fin 3) (Fin 4) α) (i : Fin 3) (j : Fin 4) :
    (cameraMatrix fx fy cx cy * M) i j =
      ![fx * M 0 j + cx * M 2 j, fy * M 1 j + cy * M 2 j, M 2 j] i := by
  rw [Matrix.mul_apply, Fin.sum_univ_three]
  fin_cases i <;> simp [cameraMatrix]

theorem multiplier_undoes_iff (wide : fx ≠ 0) (high : fy ≠ 0) (cx cy : α)
    (M : Matrix (Fin 3) (Fin 4) α) :
    multiplier fx fy cx cy * (cameraMatrix fx fy cx cy * M) = M ↔
      ∀ j, cx * M 2 j = 0 ∧ cy * M 2 j = 0 ∧ cx * M 0 j + cy * M 1 j = 0 := by
  have columns : multiplier fx fy cx cy * (cameraMatrix fx fy cx cy * M) = M ↔
      ∀ j i, (multiplier fx fy cx cy * (cameraMatrix fx fy cx cy * M)) i j = M i j := by
    rw [← Matrix.ext_iff, forall_comm]
  rw [columns]
  refine forall_congr' fun j => ?_
  rw [Fin.forall_fin_succ, Fin.forall_fin_two, ← column_kept_iff wide high]
  simp only [multiplied_entry, camera_entry]
  rfl

/-- A column moves with the principal point only where it has something in its path. -/
theorem unmoved_iff (cx cy : α) (M : Matrix (Fin 3) (Fin 4) α) :
    (∀ j, cx * M 2 j = 0 ∧ cy * M 2 j = 0 ∧ cx * M 0 j + cy * M 1 j = 0) ↔
      cx = 0 ∧ cy = 0 ∨ (∀ j, M 2 j = 0) ∧ ∀ j, cx * M 0 j + cy * M 1 j = 0 := by
  constructor
  · intro unmoved
    by_cases centred : cx = 0 ∧ cy = 0
    · exact .inl centred
    · refine .inr ⟨fun j => ?_, fun j => (unmoved j).2.2⟩
      by_contra some_
      have noX := (mul_eq_zero.1 (unmoved j).1).resolve_right some_
      have noY := (mul_eq_zero.1 (unmoved j).2.1).resolve_right some_
      exact centred ⟨noX, noY⟩
  · rintro (⟨rfl, rfl⟩ | ⟨flat, level⟩) j
    · simp
    · exact ⟨by rw [flat j, mul_zero], by rw [flat j, mul_zero], level j⟩

/-- A matrix that can be inverted has a third row. -/
theorem third_row_of_invertible {rotation : Matrix (Fin 3) (Fin 3) α} (turns : rotation.det ≠ 0)
    (translation : Fin 3 → α) : ¬∀ j, pose rotation translation 2 j = 0 := by
  intro flat
  refine turns (Matrix.det_eq_zero_of_row_eq_zero 2 fun j => ?_)
  have entry : pose rotation translation 2 j.castSucc = rotation 2 j := Fin.snoc_castSucc ..
  rw [← entry, flat]

/-- The pose comes back where the principal point is the origin, or the pose has no third row and
its first two cancel along the principal point: for a rotation, with a centred camera only. -/
theorem extrinsics_recovered_iff (wide : fx ≠ 0) (high : fy ≠ 0) (cx cy : α)
    (rotation : Matrix (Fin 3) (Fin 3) α) (translation : Fin 3 → α) (d : List α)
    (distortionModel : String) :
    (convertCameraExtrinsic (projected fx fy cx cy rotation translation d distortionModel) =
        some (.new rotation translation) ↔
      cx = 0 ∧ cy = 0 ∨ (∀ j, pose rotation translation 2 j = 0) ∧
        ∀ j, cx * pose rotation translation 0 j + cy * pose rotation translation 1 j = 0) ∧
    (rotation.det ≠ 0 →
      (convertCameraExtrinsic (projected fx fy cx cy rotation translation d distortionModel) =
        some (.new rotation translation) ↔ cx = 0 ∧ cy = 0)) := by
  have recovered :
      convertCameraExtrinsic (projected fx fy cx cy rotation translation d distortionModel) =
        some (.new rotation translation) ↔
      cx = 0 ∧ cy = 0 ∨ (∀ j, pose rotation translation 2 j = 0) ∧
        ∀ j, cx * pose rotation translation 0 j + cy * pose rotation translation 1 j = 0 := by
    rw [← unmoved_iff, ← multiplier_undoes_iff wide high, ← extrinsicOf_pose]
    unfold projected
    rw [convertCameraExtrinsic_eq, Option.some_inj]
    exact ⟨extrinsicOf_injective, congrArg extrinsicOf⟩
  refine ⟨recovered, fun turns => ?_⟩
  rw [recovered, or_iff_left]
  exact fun flat => third_row_of_invertible turns translation flat.1

end

theorem extrinsics_recovered_centred :
    convertCameraExtrinsic (projected (500 : ℚ) 500 0 0 1 ![1, 2, 3] [] "plumb_bob") =
      some (.new (1 : Matrix (Fin 3) (Fin 3) ℚ) ![1, 2, 3]) :=
  (extrinsics_recovered_iff (by norm_num) (by norm_num) 0 0 1 ![1, 2, 3] [] "plumb_bob").1.2
    (.inl ⟨rfl, rfl⟩)

/-- A camera of 640 by 480 pixels that is neither turned nor moved. -/
theorem still_camera_turned :
    convertCameraExtrinsic (projected (500 : ℚ) 500 320 240 1 ![0, 0, 0] [] "plumb_bob") =
      some ⟨⟨[[1, 0, 16 / 25], [0, 1, 12 / 25], [-320, -240, -319]], [0, 0, 0]⟩⟩ := by
  decide +kernel

end Roboflow.Lerobot
