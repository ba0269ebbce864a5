import FacePipeline.Basic
import FacePipeline.Lib.Similarity
import Mathlib.Algebra.Order.Field.Basic

/-!
# The similarity transform of the face aligner

`estimate_similarity_transform` in exact arithmetic, with the singular value decomposition that Eigen computes as
a parameter. Whatever decomposition of the covariance it is given, the guarded product `scale * R` is the
conformal part of the covariance over the variance of the source, and so the linear part of the one
least-squares similarity (`linear_fit`).
-/

namespace FacePipeline.Align

open Matrix Planar

section Estimate

variable {F : Type} [Field F] {n : ℕ}

/-- `S` and `D`: one row for each point. -/
def points (ps : Vector (Point2f F) n) : Fin n → Fin 2 → F := fun i =>
  ![ps[i].x, ps[i].y]

/-- `S.colwise().mean()`. -/
def colwiseMean (S : Fin n → Fin 2 → F) : Fin 2 → F := fun j =>
  (∑ i, S i j) / n

/-- `S_c` and `D_c`: the rows less their mean. -/
def centred (ps : Vector (Point2f F) n) : Fin n → Fin 2 → F := fun i =>
  points ps i - colwiseMean (points ps)

/-- `cov`. -/
def covariance (src dst : Vector (Point2f F) n) : Matrix (Fin 2) (Fin 2) F :=
  ((of (centred dst))ᵀ * of (centred src)).map (· / n)

/-- `src_var`. -/
def srcVar (src : Vector (Point2f F) n) : F :=
  (∑ i, (centred src i 0 ^ 2 + centred src i 1 ^ 2)) / n

/-- `Eigen::JacobiSVD<Eigen::Matrix2f>` with full `U` and `V`. -/
structure JacobiSVD (F : Type) where
  matrixU : Matrix (Fin 2) (Fin 2) F
  singularValues : Fin 2 → F
  matrixV : Matrix (Fin 2) (Fin 2) F

/-- `[M | t]` applied to a point, as `cv::warpAffine` does. -/
def warp (M : Matrix (Fin 2) (Fin 3) F) (p : Point2f F) : Point2f F :=
  ⟨M 0 0 * p.x + M 0 1 * p.y + M 0 2, M 1 0 * p.x + M 1 1 * p.y + M 1 2⟩

/-- The sum of the squared distances between the images and the targets. -/
def transformError (M : Matrix (Fin 2) (Fin 3) F) (src dst : Vector (Point2f F) n) : F :=
  ∑ i : Fin n, (((warp M src[i]).x - dst[i].x) ^ 2 + ((warp M src[i]).y - dst[i].y) ^ 2)

/-- A linear part and a shift as one matrix. -/
def affine (A : Matrix (Fin 2) (Fin 2) F) (t : Fin 2 → F) : Matrix (Fin 2) (Fin 3) F :=
  !![A 0 0, A 0 1, t 0; A 1 0, A 1 1, t 1]

/-- All points in one place. -/
def Coincident (ps : Vector (Point2f F) n) : Prop :=
  ∀ i j : Fin n, ps[i] = ps[j]

/-! ### The model in terms of the plane -/

variable {src dst : Vector (Point2f F) n}

theorem transformError_affine (A : Matrix (Fin 2) (Fin 2) F) (t : Fin 2 → F) :
    transformError (affine A t) src dst = squaredError A t (points src) (points dst) := by
  refine Finset.sum_congr rfl fun i _ => ?_
  have hrow : ∀ k, (A *ᵥ points src i) k = A k 0 * src[i].x + A k 1 * src[i].y := fun k => by
    rw [mulVec, dotProduct, Fin.sum_univ_two]
    rfl
  rw [normSq, dotProduct, Fin.sum_univ_two]
  simp only [Pi.sub_apply, Pi.add_apply, hrow]
  show (A 0 0 * src[i].x + A 0 1 * src[i].y + t 0 - dst[i].x) ^ 2 +
      (A 1 0 * src[i].x + A 1 1 * src[i].y + t 1 - dst[i].y) ^ 2 =
    (A 0 0 * src[i].x + A 0 1 * src[i].y + t 0 - dst[i].x) *
        (A 0 0 * src[i].x + A 0 1 * src[i].y + t 0 - dst[i].x) +
      (A 1 0 * src[i].x + A 1 1 * src[i].y + t 1 - dst[i].y) *
        (A 1 0 * src[i].x + A 1 1 * src[i].y + t 1 - dst[i].y)
  rw [sq, sq]

theorem points_eq (ps : Vector (Point2f F) n) (i : Fin n) :
    points ps i = centred ps i + colwiseMean (points ps) :=
  (sub_add_cancel _ _).symm

theorem srcVar_eq (src : Vector (Point2f F) n) : srcVar src = spread (centred src) / n := by
  rw [srcVar, spread]
  congr 1
  refine Finset.sum_congr rfl fun i _ => ?_
  rw [normSq, dotProduct, Fin.sum_univ_two]
  ring

theorem conformalPart_covariance : conformalPart (covariance src dst) =
    (n : F)⁻¹ • conformalPart ((of (centred dst))ᵀ * of (centred src)) := by
  rw [covariance, conformalPart_eq, conformalPart_eq]
  ext i j
  fin_cases i <;> fin_cases j <;> simp <;> ring

/-- The linear part of the transform. -/
def bestLinear (src dst : Vector (Point2f F) n) : Matrix (Fin 2) (Fin 2) F :=
  (srcVar src)⁻¹ • conformalPart (covariance src dst)

theorem isConformal_bestLinear (src dst : Vector (Point2f F) n) : IsConformal (bestLinear src dst) :=
  (isConformal_conformalPart _).smul _

/-! ### The estimate -/

variable [LinearOrder F]

/-- The guard against the reflection case. -/
def guard (svd : JacobiSVD F) : Matrix (Fin 2) (Fin 2) F :=
  diagonal ![1, if svd.matrixU.det * svd.matrixV.det < 0 then -1 else 1]

def estimateSimilarityTransform (jacobiSVD : Matrix (Fin 2) (Fin 2) F → JacobiSVD F)
    (src dst : Vector (Point2f F) n) : Except Exn (Matrix (Fin 2) (Fin 3) F) :=
  if n < 2 then
    .error (.invalidArgument "estimate_similarity_transform: need at least two point pairs")
  else
    let sMean := colwiseMean (points src)
    let dMean := colwiseMean (points dst)
    let svd := jacobiSVD (covariance src dst)
    let W := guard svd
    let scale := if 0 < srcVar src then svd.singularValues ⬝ᵥ W.diag / srcVar src else 1
    let R := if 0 < srcVar src then svd.matrixU * W * svd.matrixVᵀ else 1
    let t := dMean - (scale • R) *ᵥ sMean
    .ok !![scale * R 0 0, scale * R 0 1, t 0; scale * R 1 0, scale * R 1 1, t 1]

/-- A scaled proper rotation and a translation, as a matrix. -/
def toMatrix (T : Similarity F) : Matrix (Fin 2) (Fin 3) F :=
  affine T.linear T.shift

/-- What is known of a decomposition that Eigen returns. -/
structure Decomposes (C : Matrix (Fin 2) (Fin 2) F) (svd : JacobiSVD F) : Prop where
  orthogonalU : svd.matrixUᵀ * svd.matrixU = 1
  orthogonalV : svd.matrixVᵀ * svd.matrixV = 1
  decreasing : svd.singularValues 1 ≤ svd.singularValues 0
  nonneg : 0 ≤ svd.singularValues 1
  product : C = svd.matrixU * diagonal svd.singularValues * svd.matrixVᵀ

/-- `M` is the similarity that fits best. -/
structure LeastSquares (src dst : Vector (Point2f F) n) (M : Matrix (Fin 2) (Fin 3) F) : Prop where
  similarity : ∃ T : Similarity F, M = toMatrix T
  optimal : ∀ T : Similarity F, transformError M src dst ≤ transformError (toMatrix T) src dst
  /-- The linear part is `[[a, -b], [b, a]]`. -/
  neverMirrors : ∃ a b, M 0 0 = a ∧ M 0 1 = -b ∧ M 1 0 = b ∧ M 1 1 = a
  /-- An exact similarity is recovered. -/
  exact : ∀ T : Similarity F, (∀ i : Fin n, warp (toMatrix T) src[i] = dst[i]) → M = toMatrix T

variable [IsStrictOrderedRing F]

theorem isCentred_centred (hn : 0 < n) (ps : Vector (Point2f F) n) : IsCentred (centred ps) := by
  have hne : (n : F) ≠ 0 := Nat.cast_ne_zero.2 hn.ne'
  funext j
  rw [Finset.sum_apply]
  simp only [centred, Pi.sub_apply, Finset.sum_sub_distrib, Finset.sum_const, Finset.card_univ,
    Fintype.card_fin, nsmul_eq_mul, colwiseMean, Pi.zero_apply]
  rw [mul_div_cancel₀ _ hne, sub_self]

/-- Points coincide exactly when nothing is left of them around their mean. -/
theorem coincident_iff (hn : 0 < n) (ps : Vector (Point2f F) n) : Coincident ps ↔ centred ps = 0 := by
  have hne : (n : F) ≠ 0 := Nat.cast_ne_zero.2 hn.ne'
  have hpoint : ∀ i j : Fin n, ps[i] = ps[j] ↔ points ps i = points ps j := fun i j => by
    rw [Point2f.ext_iff, funext_iff, Fin.forall_fin_two]
    rfl
  simp only [Coincident, hpoint]
  constructor
  · intro hsame
    funext i
    have hmean : colwiseMean (points ps) = points ps i := by
      funext k
      rw [colwiseMean, Finset.sum_congr rfl fun j _ => congrFun (hsame j i) k, Finset.sum_const,
        Finset.card_univ, Fintype.card_fin, nsmul_eq_mul, mul_div_cancel_left₀ _ hne]
    rw [centred, hmean, sub_self]
    rfl
  · intro hzero i j
    rw [points_eq, points_eq ps j, hzero]
    rfl

theorem srcVar_pos (hn : 0 < n) : 0 < srcVar src ↔ ¬Coincident src := by
  rw [srcVar_eq, coincident_iff hn, div_pos_iff_of_pos_right (Nat.cast_pos.2 hn), spread_pos]

/-! ### The guarded product -/

variable {svd : JacobiSVD F}

theorem Decomposes.det_mul_det (h : Decomposes (covariance src dst) svd) :
    (svd.matrixU.det * svd.matrixV.det) * (svd.matrixU.det * svd.matrixV.det) = 1 := by
  linear_combination svd.matrixV.det * svd.matrixV.det * det_mul_det_of_orthogonal h.orthogonalU +
    det_mul_det_of_orthogonal h.orthogonalV

/-- The sign that the guard puts in. -/
theorem Decomposes.guard_eq (h : Decomposes (covariance src dst) svd) :
    guard svd = diagonal ![1, svd.matrixU.det * svd.matrixV.det] := by
  rw [guard]
  rcases mul_self_eq_one_iff.1 h.det_mul_det with hone | hone <;> rw [hone] <;> norm_num

/-- `scale`, before it is divided by the variance. -/
theorem Decomposes.trace_eq (h : Decomposes (covariance src dst) svd) :
    svd.singularValues ⬝ᵥ (guard svd).diag =
      svd.singularValues 0 + svd.matrixU.det * svd.matrixV.det * svd.singularValues 1 := by
  rw [h.guard_eq, diag_diagonal, dotProduct, Fin.sum_univ_two]
  show _ * 1 + _ * (svd.matrixU.det * svd.matrixV.det) = _
  ring

theorem Decomposes.trace_nonneg (h : Decomposes (covariance src dst) svd) :
    0 ≤ svd.singularValues ⬝ᵥ (guard svd).diag := by
  rw [h.trace_eq]
  rcases mul_self_eq_one_iff.1 h.det_mul_det with hone | hone
  · rw [hone]
    linarith [h.decreasing, h.nonneg]
  · rw [hone]
    linarith [h.decreasing]

/-- Whatever decomposition it comes from, the guarded product is the conformal part. -/
theorem Decomposes.linear_fit (h : Decomposes (covariance src dst) svd) :
    (svd.singularValues ⬝ᵥ (guard svd).diag) • (svd.matrixU * guard svd * svd.matrixVᵀ) =
      conformalPart (covariance src dst) := by
  rw [h.trace_eq, h.guard_eq, conformalPart_of_svd h.orthogonalU h.orthogonalV h.product rfl]

/-- The guard makes the product a proper rotation. -/
theorem Decomposes.rotation (h : Decomposes (covariance src dst) svd) :
    (svd.matrixU * guard svd * svd.matrixVᵀ)ᵀ * (svd.matrixU * guard svd * svd.matrixVᵀ) = 1 ∧
      (svd.matrixU * guard svd * svd.matrixVᵀ).det = 1 := by
  have hguard : guard svd * guard svd = 1 := by
    rw [h.guard_eq, diagonal_mul_diagonal, ← diagonal_one]
    congr 1
    funext i
    fin_cases i
    · exact mul_one 1
    · exact h.det_mul_det
  have htranspose : (guard svd)ᵀ = guard svd := diagonal_transpose _
  constructor
  · calc (svd.matrixU * guard svd * svd.matrixVᵀ)ᵀ * (svd.matrixU * guard svd * svd.matrixVᵀ)
        = svd.matrixV * (guard svd * (svd.matrixUᵀ * svd.matrixU) * guard svd) * svd.matrixVᵀ := by
          rw [transpose_mul, transpose_mul, transpose_transpose, htranspose]
          simp only [mul_assoc]
      _ = 1 := by
          rw [h.orthogonalU, mul_one, hguard, mul_one, mul_eq_one_comm.1 h.orthogonalV]
  · have hdet : (guard svd).det = svd.matrixU.det * svd.matrixV.det := by
      rw [h.guard_eq, det_diagonal, Fin.prod_univ_two]
      exact one_mul _
    rw [det_mul, det_mul, det_transpose, hdet]
    linear_combination h.det_mul_det

/-! ### The transform -/

variable {jacobiSVD : Matrix (Fin 2) (Fin 2) F → JacobiSVD F}

theorem estimate_eq (hn : 2 ≤ n) (hne : ¬Coincident src)
    (h : Decomposes (covariance src dst) (jacobiSVD (covariance src dst))) :
    estimateSimilarityTransform jacobiSVD src dst = .ok (affine (bestLinear src dst)
      (colwiseMean (points dst) - bestLinear src dst *ᵥ colwiseMean (points src))) := by
  have hvar : 0 < srcVar src := (srcVar_pos (by omega)).2 hne
  have hlinear := h.linear_fit
  rw [estimateSimilarityTransform, if_neg (by omega), bestLinear]
  simp only [hvar, if_true]
  rw [← hlinear, smul_smul, inv_mul_eq_div]
  rfl

/-- All source points in one place. -/
theorem estimate_coincident (hn : 2 ≤ n) (hcoincident : Coincident src) :
    estimateSimilarityTransform jacobiSVD src dst =
      .ok (affine 1 (colwiseMean (points dst) - colwiseMean (points src))) := by
  have hvar : ¬0 < srcVar src := fun hpos => (srcVar_pos (by omega)).1 hpos hcoincident
  rw [estimateSimilarityTransform, if_neg (by omega)]
  simp only [hvar, if_false, one_smul, one_mul, one_mulVec]
  rfl

theorem bestLinear_fit (hn : 0 < n) (hne : ¬Coincident src) : spread (centred src) • bestLinear src dst =
    conformalPart ((of (centred dst))ᵀ * of (centred src)) := by
  have hspread : spread (centred src) ≠ 0 := by
    rw [coincident_iff hn] at hne
    exact (spread_pos.2 hne).ne'
  have hcount : (n : F) ≠ 0 := Nat.cast_ne_zero.2 hn.ne'
  rw [bestLinear, conformalPart_covariance, srcVar_eq, smul_smul, smul_smul, inv_div,
    mul_div_cancel₀ _ hspread, mul_inv_cancel₀ hcount, one_smul]

/-- The transform as a similarity. -/
theorem exists_similarity (hn : 0 < n) (hne : ¬Coincident src)
    (h : Decomposes (covariance src dst) svd) (t : Fin 2 → F) :
    ∃ T : Similarity F, affine (bestLinear src dst) t = toMatrix T := by
  have hvar : 0 < srcVar src := (srcVar_pos hn).2 hne
  refine ⟨⟨(srcVar src)⁻¹ * (svd.singularValues ⬝ᵥ (guard svd).diag),
    svd.matrixU * guard svd * svd.matrixVᵀ, t, ?_, h.rotation.1, h.rotation.2⟩, ?_⟩
  · exact mul_nonneg (inv_nonneg.2 hvar.le) h.trace_nonneg
  · rw [toMatrix, Similarity.linear, ← smul_smul, h.linear_fit, bestLinear]

theorem leastSquares (hn : 0 < n) (hne : ¬Coincident src) (h : Decomposes (covariance src dst) svd) :
    LeastSquares src dst (affine (bestLinear src dst)
      (colwiseMean (points dst) - bestLinear src dst *ᵥ colwiseMean (points src))) := by
  have hbest := isConformal_bestLinear src dst
  have hfit : spread (centred src) • bestLinear src dst =
      conformalPart ((of (centred dst))ᵀ * of (centred src)) := bestLinear_fit hn hne
  refine ⟨exists_similarity hn hne h _, fun T => ?_, ?_, fun T hexact => ?_⟩
  · rw [toMatrix, transformError_affine, transformError_affine]
    exact squaredError_le (points_eq src) (points_eq dst) (isCentred_centred hn src)
      (isCentred_centred hn dst) T.isConformal_linear hbest hfit
  · rw [IsConformal] at hbest
    exact ⟨_, _, rfl, congrFun (congrFun hbest 0) 1, rfl, congrFun (congrFun hbest 1) 1⟩
  · have herror : squaredError T.linear T.shift (points src) (points dst) = 0 := by
      rw [← transformError_affine]
      refine Finset.sum_eq_zero fun i _ => ?_
      have hi : warp (affine T.linear T.shift) src[i] = dst[i] := hexact i
      rw [hi]
      ring
    have : Nonempty (Fin n) := ⟨⟨0, hn⟩⟩
    obtain ⟨hlinear, hshift⟩ := eq_of_squaredError_eq_zero (points_eq src) (points_eq dst)
      (isCentred_centred hn src) (isCentred_centred hn dst) T.isConformal_linear hbest hfit
      (fun hzero => hne ((coincident_iff hn src).2 hzero)) herror
    rw [toMatrix, hlinear, hshift]

/-- **The estimate is the least-squares similarity**, and the shift of the centroids when the source points
coincide. -/
theorem estimateSimilarityTransform_leastSquares (jacobiSVD : Matrix (Fin 2) (Fin 2) F → JacobiSVD F)
    (src dst : Vector (Point2f F) n) (hn : 2 ≤ n)
    (h : Decomposes (covariance src dst) (jacobiSVD (covariance src dst))) :
    ∃ M, estimateSimilarityTransform jacobiSVD src dst = .ok M ∧
      (¬Coincident src → LeastSquares src dst M ∧
        ∀ jacobiSVD', Decomposes (covariance src dst) (jacobiSVD' (covariance src dst)) →
          estimateSimilarityTransform jacobiSVD' src dst = .ok M) ∧
      (Coincident src → M = affine 1 (colwiseMean (points dst) - colwiseMean (points src))) := by
  by_cases hcoincident : Coincident src
  · exact ⟨_, estimate_coincident hn hcoincident, fun hne => absurd hcoincident hne, fun _ => rfl⟩
  · refine ⟨_, estimate_eq hn hcoincident h, fun hne => ⟨?_, fun _ h' => estimate_eq hn hne h'⟩, ?_⟩
    · exact leastSquares (by omega) hne h
    · exact fun hc => absurd hc hcoincident

end Estimate

/-- A diamond, and its mirror image stretched to the sides. -/
def diamond : Vector (Point2f ℚ) 4 :=
  #v[⟨1, 0⟩, ⟨-1, 0⟩, ⟨0, 1⟩, ⟨0, -1⟩]

def mirrored : Vector (Point2f ℚ) 4 :=
  #v[⟨2, 0⟩, ⟨-2, 0⟩, ⟨0, -1⟩, ⟨0, 1⟩]

/-- A decomposition of their covariance, with a mirroring `U`. -/
def mirroringSVD : JacobiSVD ℚ :=
  ⟨diagonal ![1, -1], ![1, 1 / 2], 1⟩

theorem estimateSimilarityTransform_mirrored : ∃ M,
    estimateSimilarityTransform (fun _ => mirroringSVD) diamond mirrored = .ok M ∧
    LeastSquares diamond mirrored M ∧ M = !![1 / 2, 0, 0; 0, 1 / 2, 0] := by
  have hsvd : Decomposes (covariance diamond mirrored) mirroringSVD :=
    ⟨by decide +kernel, by decide +kernel, by decide +kernel, by decide +kernel, by decide +kernel⟩
  have hne : ¬Coincident diamond := fun hc => absurd (hc 0 1) (by decide)
  obtain ⟨M, hM, hbest, _⟩ := estimateSimilarityTransform_leastSquares (fun _ => mirroringSVD) diamond
    mirrored (by decide) hsvd
  refine ⟨M, hM, (hbest hne).1, ?_⟩
  have hvalue : estimateSimilarityTransform (fun _ => mirroringSVD) diamond mirrored =
      .ok !![1 / 2, 0, 0; 0, 1 / 2, 0] := by
    decide +kernel
  exact Except.ok.inj (hM.symm.trans hvalue)

end FacePipeline.Align
