import FacePipeline.Align.SimilarityTransform
import Mathlib.Data.Rat.Cast.Defs

/-!
# The face aligner: poses and sizes

Moving the target points moves the covariance from the left, moving the source points moves it from the right,
and both moves pass through its conformal part. So the estimate follows the targets and undoes what was done to
the source (`fitted_images`, `fitted_images_source`): a face that is turned, scaled or shifted has the same crop,
and the crop grows with the template.
-/

namespace FacePipeline.Align

open Matrix Planar

section Moves

variable {F : Type} [Field F] {n : ℕ}

def linearPart (M : Matrix (Fin 2) (Fin 3) F) : Matrix (Fin 2) (Fin 2) F :=
  M.submatrix id Fin.castSucc

def shiftPart (M : Matrix (Fin 2) (Fin 3) F) : Fin 2 → F := fun i =>
  M i (Fin.last 2)

/-- One affine map after another. -/
def compose (M N : Matrix (Fin 2) (Fin 3) F) : Matrix (Fin 2) (Fin 3) F :=
  affine (linearPart M * linearPart N) (linearPart M *ᵥ shiftPart N + shiftPart M)

/-- Points, each moved by the map. -/
def images (M : Matrix (Fin 2) (Fin 3) F) (ps : Vector (Point2f F) n) : Vector (Point2f F) n :=
  ps.map (warp M)

/-- The matrix of the best fit. -/
def fitted (src dst : Vector (Point2f F) n) : Matrix (Fin 2) (Fin 3) F :=
  affine (bestLinear src dst) (colwiseMean (points dst) - bestLinear src dst *ᵥ colwiseMean (points src))

omit [Field F] in
theorem linearPart_affine (A : Matrix (Fin 2) (Fin 2) F) (t : Fin 2 → F) : linearPart (affine A t) = A := by
  ext i j
  fin_cases i <;> fin_cases j <;> rfl

omit [Field F] in
theorem shiftPart_affine (A : Matrix (Fin 2) (Fin 2) F) (t : Fin 2 → F) : shiftPart (affine A t) = t := by
  ext i
  fin_cases i <;> rfl

omit [Field F] in
theorem affine_parts (M : Matrix (Fin 2) (Fin 3) F) : affine (linearPart M) (shiftPart M) = M := by
  ext i j
  fin_cases i <;> fin_cases j <;> rfl

theorem compose_affine (A B : Matrix (Fin 2) (Fin 2) F) (s t : Fin 2 → F) :
    compose (affine A s) (affine B t) = affine (A * B) (A *ᵥ t + s) := by
  rw [compose, linearPart_affine, linearPart_affine, shiftPart_affine, shiftPart_affine]

theorem compose_assoc (A B C : Matrix (Fin 2) (Fin 2) F) (s t u : Fin 2 → F) :
    compose (compose (affine A s) (affine B t)) (affine C u) =
      compose (affine A s) (compose (affine B t) (affine C u)) := by
  rw [compose_affine, compose_affine, compose_affine, compose_affine, mul_assoc, mulVec_add, mulVec_mulVec,
    add_assoc]

/-- A point as a row of `points`. -/
def row (p : Point2f F) : Fin 2 → F :=
  ![p.x, p.y]

omit [Field F] in
theorem row_injective {p q : Point2f F} (h : row p = row q) : p = q :=
  Point2f.ext (congrFun h 0) (congrFun h 1)

theorem row_warp (A : Matrix (Fin 2) (Fin 2) F) (t : Fin 2 → F) (p : Point2f F) :
    row (warp (affine A t) p) = A *ᵥ row p + t := by
  funext k
  rw [Pi.add_apply, mulVec, dotProduct, Fin.sum_univ_two]
  fin_cases k <;> rfl

theorem warp_compose (M N : Matrix (Fin 2) (Fin 3) F) (p : Point2f F) :
    warp (compose M N) p = warp M (warp N p) := by
  rw [← affine_parts M, ← affine_parts N, compose_affine]
  apply row_injective
  rw [row_warp, row_warp, row_warp, mulVec_add, mulVec_mulVec, add_assoc]

theorem points_images (A : Matrix (Fin 2) (Fin 2) F) (t : Fin 2 → F) (ps : Vector (Point2f F) n) (i : Fin n) :
    points (images (affine A t) ps) i = A *ᵥ points ps i + t := by
  have hget : (images (affine A t) ps)[i] = warp (affine A t) ps[i] := by
    unfold images
    rw [Fin.getElem_fin, Vector.getElem_map]
    rfl
  show row (images (affine A t) ps)[i] = _
  rw [hget, row_warp]
  rfl

variable [LinearOrder F] [IsStrictOrderedRing F] {src dst : Vector (Point2f F) n}

theorem colwiseMean_images (hn : 0 < n) (A : Matrix (Fin 2) (Fin 2) F) (t : Fin 2 → F)
    (ps : Vector (Point2f F) n) :
    colwiseMean (points (images (affine A t) ps)) = A *ᵥ colwiseMean (points ps) + t := by
  have hne : (n : F) ≠ 0 := Nat.cast_ne_zero.2 hn.ne'
  have hmean : ∀ S : Fin n → Fin 2 → F, colwiseMean S = (n : F)⁻¹ • ∑ i, S i := by
    intro S
    funext j
    rw [colwiseMean, Pi.smul_apply, Finset.sum_apply, smul_eq_mul, div_eq_inv_mul]
  rw [hmean, hmean, Finset.sum_congr rfl fun i _ => points_images A t ps i, Finset.sum_add_distrib,
    Finset.sum_const, Finset.card_univ, Fintype.card_fin, ← mulVec_sum, smul_add, mulVec_smul,
    ← Nat.cast_smul_eq_nsmul F, smul_smul, inv_mul_cancel₀ hne, one_smul]

/-- A shift does not move the points around their mean. -/
theorem centred_images (hn : 0 < n) (A : Matrix (Fin 2) (Fin 2) F) (t : Fin 2 → F)
    (ps : Vector (Point2f F) n) (i : Fin n) : centred (images (affine A t) ps) i = A *ᵥ centred ps i := by
  rw [centred, centred, points_images, colwiseMean_images hn, mulVec_sub]
  abel

theorem of_centred_images (hn : 0 < n) (A : Matrix (Fin 2) (Fin 2) F) (t : Fin 2 → F)
    (ps : Vector (Point2f F) n) : of (centred (images (affine A t) ps)) = of (centred ps) * Aᵀ := by
  ext i k
  have hrow := congrFun (centred_images hn A t ps i) k
  rw [of_apply, hrow, mulVec, dotProduct, mul_apply]
  exact Finset.sum_congr rfl fun j _ => mul_comm _ _

omit [LinearOrder F] [IsStrictOrderedRing F] in
theorem covariance_eq (src dst : Vector (Point2f F) n) :
    covariance src dst = (n : F)⁻¹ • ((of (centred dst))ᵀ * of (centred src)) := by
  ext i j
  rw [covariance, map_apply, Matrix.smul_apply, smul_eq_mul, div_eq_inv_mul]

/-! ### The targets -/

theorem bestLinear_images (hn : 0 < n) {A : Matrix (Fin 2) (Fin 2) F} (hA : IsConformal A) (t : Fin 2 → F)
    (src dst : Vector (Point2f F) n) :
    bestLinear src (images (affine A t) dst) = A * bestLinear src dst := by
  have hcov : covariance src (images (affine A t) dst) = A * covariance src dst := by
    rw [covariance_eq, covariance_eq, of_centred_images hn, transpose_mul, transpose_transpose,
      Matrix.mul_assoc, mul_smul_comm]
  rw [bestLinear, hcov, conformalPart_mul_left hA, bestLinear, mul_smul_comm]

/-- **The estimate follows the targets.** -/
theorem fitted_images (hn : 0 < n) {A : Matrix (Fin 2) (Fin 2) F} (hA : IsConformal A) (t : Fin 2 → F)
    (src dst : Vector (Point2f F) n) :
    fitted src (images (affine A t) dst) = compose (affine A t) (fitted src dst) := by
  rw [fitted, fitted, compose_affine, bestLinear_images hn hA, colwiseMean_images hn, mulVec_sub, mulVec_mulVec]
  congr 1
  abel

/-! ### The source -/

theorem srcVar_images (hn : 0 < n) (S : Similarity F) (src : Vector (Point2f F) n) :
    srcVar (images (toMatrix S) src) = S.linear.det * srcVar src := by
  rw [srcVar_eq, srcVar_eq, toMatrix, funext (centred_images hn S.linear S.shift src),
    spread_mulVec S.isConformal_linear, mul_div_assoc]

theorem coincident_images (hn : 0 < n) {S : Similarity F} (hS : 0 < S.scale) (src : Vector (Point2f F) n) :
    Coincident (images (toMatrix S) src) ↔ Coincident src := by
  have hdet : 0 < S.linear.det := by
    rw [S.det_linear]
    exact pow_pos hS 2
  rw [← not_iff_not, ← srcVar_pos hn, ← srcVar_pos hn, srcVar_images hn, mul_pos_iff_of_pos_left hdet]

theorem bestLinear_images_source (hn : 0 < n) {S : Similarity F} (hS : 0 < S.scale)
    (src dst : Vector (Point2f F) n) :
    bestLinear (images (toMatrix S) src) dst = bestLinear src dst * S.inverse.linear := by
  have hdet : S.linear.det ≠ 0 := by
    rw [S.det_linear]
    exact pow_ne_zero 2 hS.ne'
  have hcov : covariance (images (toMatrix S) src) dst =
      covariance src dst * (S.linear.det • S.inverse.linear) := by
    rw [covariance_eq, covariance_eq, toMatrix, of_centred_images hn, ← Matrix.mul_assoc, S.transpose_linear hS,
      smul_mul_assoc]
  rw [bestLinear, hcov, srcVar_images hn, conformalPart_mul_right (S.inverse.isConformal_linear.smul _),
    bestLinear, mul_smul_comm, smul_smul, mul_inv, mul_right_comm, inv_mul_cancel₀ hdet, one_mul, smul_mul_assoc]

/-- **The estimate undoes what was done to the source.** -/
theorem fitted_images_source (hn : 0 < n) {S : Similarity F} (hS : 0 < S.scale)
    (src dst : Vector (Point2f F) n) :
    fitted (images (toMatrix S) src) dst = compose (fitted src dst) (toMatrix S.inverse) := by
  have hlinear : bestLinear src dst * S.inverse.linear * S.linear = bestLinear src dst := by
    rw [mul_assoc, S.linear_inverse_mul hS, mul_one]
  have hshift : bestLinear src dst *ᵥ S.inverse.shift =
      -((bestLinear src dst * S.inverse.linear) *ᵥ S.shift) := by
    rw [← mulVec_mulVec, ← mulVec_neg]
    rfl
  rw [fitted, fitted, bestLinear_images_source hn hS, toMatrix, toMatrix, compose_affine, colwiseMean_images hn,
    mulVec_add, mulVec_mulVec, hlinear, hshift]
  congr 1
  abel

end Moves

/-! ### The aligner -/

section Aligner

variable {F : Type} [Field F]

/-- Canonical 5-point reference for the 112x112 ArcFace template. -/
def kReference112 : Vector (Point2f F) 5 :=
  #v[⟨38.2946, 51.6963⟩, ⟨73.5318, 51.5014⟩, ⟨56.0252, 71.7366⟩, ⟨41.5493, 92.3655⟩, ⟨70.7299, 92.2041⟩]

/-- Side length the reference points are expressed in. -/
def kReferenceSize : F := 112

structure FaceAligner (F : Type) where
  outputSize : Int
  reference : Vector (Point2f F) 5

def FaceAligner.new (outputSize : Int) : FaceAligner F :=
  let k := (outputSize : F) / kReferenceSize
  ⟨outputSize, kReference112.map fun p => ⟨p.x * k, p.y * k⟩⟩

variable [LinearOrder F]

/-- The map from the source image to the crop. -/
def FaceAligner.transform (jacobiSVD : Matrix (Fin 2) (Fin 2) F → JacobiSVD F) (a : FaceAligner F)
    (landmarks : Landmarks F) : Except Exn (Matrix (Fin 2) (Fin 3) F) :=
  estimateSimilarityTransform jacobiSVD landmarks a.reference

/-- `align`, with `cv::warpAffine` as a parameter. -/
def FaceAligner.align {Image Crop : Type} (jacobiSVD : Matrix (Fin 2) (Fin 2) F → JacobiSVD F)
    (warpAffine : Image → Matrix (Fin 2) (Fin 3) F → Int → Int → Except Exn Crop) (a : FaceAligner F)
    (image : Image) (landmarks : Landmarks F) : Except Exn Crop := do
  let M ← a.transform jacobiSVD landmarks
  warpAffine image M a.outputSize a.outputSize

theorem align_eq {Image Crop : Type} {jacobiSVD : Matrix (Fin 2) (Fin 2) F → JacobiSVD F}
    {warpAffine : Image → Matrix (Fin 2) (Fin 3) F → Int → Int → Except Exn Crop} {a : FaceAligner F}
    {landmarks : Landmarks F} {M : Matrix (Fin 2) (Fin 3) F}
    (h : a.transform jacobiSVD landmarks = .ok M) (image : Image) :
    a.align jacobiSVD warpAffine image landmarks = warpAffine image M a.outputSize a.outputSize := by
  unfold FaceAligner.align
  rw [h]
  rfl

/-- A decomposition that Eigen may return. -/
def Decomposed {n : ℕ} (jacobiSVD : Matrix (Fin 2) (Fin 2) F → JacobiSVD F) (src dst : Vector (Point2f F) n) :
    Prop :=
  Decomposes (covariance src dst) (jacobiSVD (covariance src dst))

def scaled (c : F) (p : Point2f F) : Point2f F :=
  ⟨c * p.x, c * p.y⟩

variable [IsStrictOrderedRing F]

/-- Moving both lists of points moves the estimate. -/
def Equivariant {n : ℕ} (jacobiSVD jacobiSVD' : Matrix (Fin 2) (Fin 2) F → JacobiSVD F) (S T : Similarity F)
    (src dst : Vector (Point2f F) n) : Prop :=
  ∃ M, estimateSimilarityTransform jacobiSVD src dst = .ok M ∧
    estimateSimilarityTransform jacobiSVD' (images (toMatrix S) src) (images (toMatrix T) dst) =
      .ok (compose (toMatrix T) (compose M (toMatrix S.inverse)))

/-- A face that is moved is mapped to the same crop. -/
def SameCrop (jacobiSVD jacobiSVD' : Matrix (Fin 2) (Fin 2) F → JacobiSVD F) (S : Similarity F)
    (a : FaceAligner F) (landmarks : Landmarks F) : Prop :=
  ∃ M M', a.transform jacobiSVD landmarks = .ok M ∧
    a.transform jacobiSVD' (images (toMatrix S) landmarks) = .ok M' ∧
    ∀ p, warp M' (warp (toMatrix S) p) = warp M p

/-- A crop of size `k` is the one of size 112, scaled: for the landmarks always, and for every point unless the
landmarks coincide. -/
def ScalesWithSize (jacobiSVD jacobiSVD' : Matrix (Fin 2) (Fin 2) F → JacobiSVD F) (k : Int)
    (landmarks : Landmarks F) : Prop :=
  ∃ M M', (FaceAligner.new 112).transform jacobiSVD landmarks = .ok M ∧
    (FaceAligner.new k).transform jacobiSVD' landmarks = .ok M' ∧
    (∀ p ∈ landmarks, warp M' p = scaled ((k : F) / 112) (warp M p)) ∧
    (¬Coincident landmarks → ∀ p, warp M' p = scaled ((k : F) / 112) (warp M p))

variable {jacobiSVD jacobiSVD' : Matrix (Fin 2) (Fin 2) F → JacobiSVD F}

theorem estimate_fitted {n : ℕ} {src dst : Vector (Point2f F) n} (hn : 2 ≤ n) (hne : ¬Coincident src)
    (h : Decomposed jacobiSVD src dst) :
    estimateSimilarityTransform jacobiSVD src dst = .ok (fitted src dst) :=
  estimate_eq hn hne h

omit [LinearOrder F] [IsStrictOrderedRing F] in
theorem warp_scaling (c : F) (p : Point2f F) : warp (affine (c • 1) 0) p = scaled c p := by
  apply row_injective
  rw [row_warp, smul_mulVec, one_mulVec, add_zero]
  ext k
  fin_cases k <;> rfl

/-- The template of another size. -/
theorem reference_new (k : Int) : (FaceAligner.new k : FaceAligner F).reference =
    images (affine (((k : F) / 112) • 1) 0) (FaceAligner.new 112).reference := by
  have hone : ((112 : Int) : F) / kReferenceSize = 1 := by
    rw [kReferenceSize]
    norm_num
  unfold FaceAligner.new images
  simp only [hone, mul_one, Vector.map_map]
  congr 1
  funext p
  rw [Function.comp_apply, warp_scaling, scaled, mul_comm p.x, mul_comm p.y, kReferenceSize]

theorem sameCrop {S : Similarity F} (hS : 0 < S.scale) (a : FaceAligner F) {landmarks : Landmarks F}
    (hne : ¬Coincident landmarks) (h : Decomposed jacobiSVD landmarks a.reference)
    (h' : Decomposed jacobiSVD' (images (toMatrix S) landmarks) a.reference) :
    SameCrop jacobiSVD jacobiSVD' S a landmarks := by
  have hne' := mt (coincident_images (by decide) hS landmarks).1 hne
  refine ⟨_, _, estimate_fitted (by decide) hne h, estimate_fitted (by decide) hne' h', fun p => ?_⟩
  rw [fitted_images_source (by decide) hS, warp_compose]
  congr 1
  apply row_injective
  rw [toMatrix, row_warp, toMatrix, row_warp]
  exact S.inverse_apply hS (row p)

theorem scalesWithSize (k : Int) {landmarks : Landmarks F}
    (h : ¬Coincident landmarks → Decomposed jacobiSVD landmarks (FaceAligner.new 112).reference ∧
      Decomposed jacobiSVD' landmarks (FaceAligner.new k).reference) :
    ScalesWithSize jacobiSVD jacobiSVD' k landmarks := by
  by_cases hcoincident : Coincident landmarks
  · refine ⟨_, _, estimate_coincident (by decide) hcoincident, estimate_coincident (by decide) hcoincident,
      fun p hp => ?_, fun hne => absurd hcoincident hne⟩
    obtain ⟨i, hi, rfl⟩ := Vector.getElem_of_mem hp
    -- every landmark is the centroid, and is shifted to the centroid of the template
    have hmean : row landmarks[i] = colwiseMean (points landmarks) := by
      show points landmarks ⟨i, hi⟩ = _
      rw [points_eq, (coincident_iff (by decide) landmarks).1 hcoincident]
      exact zero_add _
    have hwarp : ∀ d : Fin 2 → F,
        row (warp (affine 1 (d - colwiseMean (points landmarks))) landmarks[i]) = d := by
      intro d
      rw [row_warp, one_mulVec, hmean, add_sub_cancel]
    rw [← warp_scaling]
    apply row_injective
    rw [hwarp, row_warp, hwarp, reference_new k, colwiseMean_images (by decide)]
  · obtain ⟨hsmall, hlarge⟩ := h hcoincident
    have hevery : ∀ p, warp (fitted landmarks (FaceAligner.new k).reference) p =
        scaled ((k : F) / 112) (warp (fitted landmarks (FaceAligner.new 112).reference) p) := by
      intro p
      rw [reference_new k, fitted_images (by decide) (isConformal_one.smul _), warp_compose, warp_scaling]
    exact ⟨_, _, estimate_fitted (by decide) hcoincident hsmall, estimate_fitted (by decide) hcoincident hlarge,
      fun p _ => hevery p, fun _ => hevery⟩

/-- **Alignment removes the pose and scales with the size.** Moving the points moves the estimate, whatever
decompositions it is given; a face that is turned, scaled or shifted has the same crop; and an aligner of size
`k` gives `k / 112` times the coordinates of the one of size 112. -/
theorem estimate_equivariant (jacobiSVD jacobiSVD' : Matrix (Fin 2) (Fin 2) F → JacobiSVD F)
    (S T : Similarity F) (hS : 0 < S.scale) :
    (∀ (n : ℕ) (src dst : Vector (Point2f F) n), 2 ≤ n → ¬Coincident src → Decomposed jacobiSVD src dst →
      Decomposed jacobiSVD' (images (toMatrix S) src) (images (toMatrix T) dst) →
      Equivariant jacobiSVD jacobiSVD' S T src dst) ∧
    (∀ (k : Int) (landmarks : Landmarks F), ¬Coincident landmarks →
      Decomposed jacobiSVD landmarks (FaceAligner.new k).reference →
      Decomposed jacobiSVD' (images (toMatrix S) landmarks) (FaceAligner.new k).reference →
      SameCrop jacobiSVD jacobiSVD' S (FaceAligner.new k) landmarks) ∧
    (∀ (k : Int) (landmarks : Landmarks F), (¬Coincident landmarks →
      Decomposed jacobiSVD landmarks (FaceAligner.new 112).reference ∧
      Decomposed jacobiSVD' landmarks (FaceAligner.new k).reference) →
      ScalesWithSize jacobiSVD jacobiSVD' k landmarks) := by
  refine ⟨fun n src dst hn hne h h' => ?_, fun k landmarks hne h h' => sameCrop hS _ hne h h',
    fun k landmarks h => scalesWithSize k h⟩
  have hpos : 0 < n := by omega
  refine ⟨_, estimate_fitted hn hne h, ?_⟩
  rw [estimate_fitted hn (mt (coincident_images hpos hS src).1 hne) h', fitted_images_source hpos hS]
  unfold toMatrix
  rw [fitted_images hpos T.isConformal_linear]
  exact congrArg Except.ok (compose_assoc _ _ _ _ _ _)

end Aligner

/-! ### A turned face -/

def quarterTurn : Matrix (Fin 2) (Fin 2) ℚ :=
  !![0, -1; 1, 0]

theorem quarterTurn_orthogonal : quarterTurnᵀ * quarterTurn = 1 := by
  decide +kernel

theorem det_quarterTurn : quarterTurn.det = 1 := by
  decide +kernel

theorem doubling_nonneg : (0 : ℚ) ≤ 2 :=
  zero_le_two

/-- A quarter turn, doubled and shifted. -/
def turn : Similarity ℚ :=
  ⟨2, quarterTurn, ![3, 5], doubling_nonneg, quarterTurn_orthogonal, det_quarterTurn⟩

/-- Landmarks that have a multiple of the identity as their covariance with the template. -/
def tilted : Landmarks ℚ :=
  #v[⟨-1019969, -875282⟩, ⟨1010224, -886578⟩, ⟨0, 0⟩, ⟨0, 0⟩, ⟨0, 0⟩]

/-- A decomposition of a multiple of the identity or of a quarter turn. -/
def axisSVD (C : Matrix (Fin 2) (Fin 2) ℚ) : JacobiSVD ℚ :=
  ⟨(|C 0 0| + |C 1 0|)⁻¹ • C, ![|C 0 0| + |C 1 0|, |C 0 0| + |C 1 0|], 1⟩

/-- A decomposition of the covariance of the diamond and its mirror image, both turned. -/
def turnedSVD : JacobiSVD ℚ :=
  ⟨!![0, -1; 1, 0], ![4, 2], !![0, 1; 1, 0]⟩

theorem estimate_equivariant_turn :
    Equivariant (fun _ => mirroringSVD) (fun _ => turnedSVD) turn turn diamond mirrored ∧
    SameCrop axisSVD axisSVD turn (FaceAligner.new 112) tilted ∧
    ScalesWithSize axisSVD axisSVD 224 tilted := by
  have hdiamond : ¬Coincident diamond := fun hc => absurd (hc 0 1) (by decide)
  have htilted : ¬Coincident tilted := fun hc => absurd (hc 0 1) (by decide)
  have hsmall : Decomposed axisSVD tilted (FaceAligner.new 112).reference :=
    ⟨by decide +kernel, by decide +kernel, by decide +kernel, by decide +kernel, by decide +kernel⟩
  refine ⟨?_, ?_, ?_⟩
  · refine (estimate_equivariant _ _ turn turn zero_lt_two).1 4 diamond mirrored (by decide) hdiamond ?_ ?_
    · exact ⟨by decide +kernel, by decide +kernel, by decide +kernel, by decide +kernel, by decide +kernel⟩
    · exact ⟨by decide +kernel, by decide +kernel, by decide +kernel, by decide +kernel, by decide +kernel⟩
  · refine (estimate_equivariant axisSVD axisSVD turn turn zero_lt_two).2.1 112 tilted htilted hsmall ?_
    exact ⟨by decide +kernel, by decide +kernel, by decide +kernel, by decide +kernel, by decide +kernel⟩
  · refine (estimate_equivariant axisSVD axisSVD turn turn zero_lt_two).2.2 224 tilted fun _ => ⟨hsmall, ?_⟩
    exact ⟨by decide +kernel, by decide +kernel, by decide +kernel, by decide +kernel, by decide +kernel⟩

end FacePipeline.Align
