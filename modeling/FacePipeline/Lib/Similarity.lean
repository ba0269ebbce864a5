import Mathlib.LinearAlgebra.Matrix.Adjugate
import Mathlib.LinearAlgebra.Matrix.DotProduct
import Mathlib.Algebra.Order.BigOperators.Group.Finset
import Mathlib.Tactic.LinearCombination

/-!
# Similarities of the plane, and the one that fits best

A matrix `[[a, -b], [b, a]]` is its own cofactor matrix. Adding the cofactor matrix to any `C` gives such a
matrix, the conformal part of `C`, and a decomposition `C = U Σ Vᵀ` gives the conformal part as a
scaled rotation (`conformalPart_of_svd`): cofactors commute with products, and those of an orthogonal matrix
are its entries up to the sign of its determinant.

Between two families of points that are centred at the origin, the squared error of a conformal map is a
quadratic with a multiple of the identity as its second-order part, so that it has one minimum; a shift adds
what the centroids are apart (`squaredError_gap`).
-/

namespace Planar

open Matrix

/-! ### Conformal matrices -/

/-- The instance behind the two indices of the plane. -/
scoped instance neZero_two : NeZero 2 :=
  ⟨two_ne_zero⟩

section Conformal

variable {F : Type*} [CommRing F]

/-- The matrix of cofactors. -/
def cofactors (A : Matrix (Fin 2) (Fin 2) F) : Matrix (Fin 2) (Fin 2) F :=
  A.adjugateᵀ

/-- `[[a, -b], [b, a]]`. -/
def IsConformal (A : Matrix (Fin 2) (Fin 2) F) : Prop :=
  A = !![A 0 0, -A 1 0; A 1 0, A 0 0]

theorem isConformal_one : IsConformal (1 : Matrix (Fin 2) (Fin 2) F) := by
  rw [IsConformal]
  ext i j
  fin_cases i <;> fin_cases j <;> simp

/-- What is left of a matrix when its mirroring part is taken out, twice. -/
def conformalPart (C : Matrix (Fin 2) (Fin 2) F) : Matrix (Fin 2) (Fin 2) F :=
  C + cofactors C

theorem cofactors_eq (A : Matrix (Fin 2) (Fin 2) F) : cofactors A = !![A 1 1, -A 1 0; -A 0 1, A 0 0] := by
  rw [cofactors, adjugate_fin_two]
  ext i j
  fin_cases i <;> fin_cases j <;> rfl

theorem cofactors_mul (A B : Matrix (Fin 2) (Fin 2) F) : cofactors (A * B) = cofactors A * cofactors B := by
  rw [cofactors, adjugate_mul_distrib, transpose_mul]
  rfl

theorem cofactors_transpose (A : Matrix (Fin 2) (Fin 2) F) : cofactors Aᵀ = (cofactors A)ᵀ := by
  rw [cofactors, ← adjugate_transpose]
  rfl

theorem conformalPart_eq (C : Matrix (Fin 2) (Fin 2) F) : conformalPart C =
    !![C 0 0 + C 1 1, -(C 1 0 - C 0 1); C 1 0 - C 0 1, C 0 0 + C 1 1] := by
  rw [conformalPart, cofactors_eq]
  ext i j
  fin_cases i <;> fin_cases j <;> simp <;> ring

theorem isConformal_conformalPart (C : Matrix (Fin 2) (Fin 2) F) : IsConformal (conformalPart C) := by
  rw [conformalPart_eq]
  rfl

theorem IsConformal.smul {A : Matrix (Fin 2) (Fin 2) F} (h : IsConformal A) (c : F) :
    IsConformal (c • A) := by
  rw [IsConformal, h]
  ext i j
  fin_cases i <;> fin_cases j <;> simp

/-- The inverse of an orthogonal matrix is its transpose. -/
theorem cofactors_of_orthogonal {U : Matrix (Fin 2) (Fin 2) F} (h : Uᵀ * U = 1) :
    cofactors U = U.det • U := by
  have hadjugate : U.adjugate = U.det • Uᵀ := by
    calc U.adjugate = U.adjugate * (U * Uᵀ) := by rw [mul_eq_one_comm.1 h, mul_one]
      _ = U.det • Uᵀ := by rw [← mul_assoc, adjugate_mul, smul_mul_assoc, one_mul]
  rw [cofactors, hadjugate, transpose_smul, transpose_transpose]

theorem det_mul_det_of_orthogonal {U : Matrix (Fin 2) (Fin 2) F} (h : Uᵀ * U = 1) :
    U.det * U.det = 1 := by
  have hdet := congrArg det h
  rwa [det_mul, det_transpose, det_one] at hdet

/-- A proper rotation is conformal. -/
theorem isConformal_of_orthogonal {R : Matrix (Fin 2) (Fin 2) F} (h : Rᵀ * R = 1) (hdet : R.det = 1) :
    IsConformal R := by
  have hcofactors := cofactors_of_orthogonal h
  rw [hdet, one_smul, cofactors_eq] at hcofactors
  have h11 : R 1 1 = R 0 0 := congrFun (congrFun hcofactors 0) 0
  have h01 : -R 1 0 = R 0 1 := congrFun (congrFun hcofactors 0) 1
  rw [IsConformal, h01, ← h11]
  conv_lhs => rw [eta_fin_two R, ← h11]

/-- **The conformal part from a singular value decomposition.** -/
theorem conformalPart_of_svd {C U V : Matrix (Fin 2) (Fin 2) F} {σ : Fin 2 → F} {w : F}
    (hU : Uᵀ * U = 1) (hV : Vᵀ * V = 1) (hC : C = U * diagonal σ * Vᵀ) (hw : w = U.det * V.det) :
    conformalPart C = (σ 0 + w * σ 1) • (U * diagonal ![1, w] * Vᵀ) := by
  have hww : w * w = 1 := by
    rw [hw]
    linear_combination V.det * V.det * det_mul_det_of_orthogonal hU + det_mul_det_of_orthogonal hV
  have hdiagonal : diagonal σ + w • cofactors (diagonal σ) = (σ 0 + w * σ 1) • diagonal ![1, w] := by
    rw [cofactors_eq]
    ext i j
    fin_cases i <;> fin_cases j <;> simp
    linear_combination -σ 1 * hww
  have hcofactors : cofactors C = U * (w • cofactors (diagonal σ)) * Vᵀ := by
    rw [hC, cofactors_mul, cofactors_mul, cofactors_transpose, cofactors_of_orthogonal hU,
      cofactors_of_orthogonal hV, hw, transpose_smul]
    simp only [smul_mul_assoc, mul_smul_comm, smul_smul]
    rw [mul_comm V.det]
  rw [conformalPart, hcofactors, hC, ← add_mul, ← mul_add, hdiagonal, mul_smul_comm, smul_mul_assoc]

/-- A conformal matrix is its own cofactor matrix. -/
theorem IsConformal.cofactors_eq {A : Matrix (Fin 2) (Fin 2) F} (h : IsConformal A) : cofactors A = A := by
  have h01 : A 0 1 = -A 1 0 := congrFun (congrFun h 0) 1
  have h11 : A 1 1 = A 0 0 := congrFun (congrFun h 1) 1
  rw [Planar.cofactors_eq, h01, h11, neg_neg]
  conv_rhs => rw [eta_fin_two A, h01, h11]

/-- A conformal factor is a factor of the conformal part. -/
theorem conformalPart_mul_left {A : Matrix (Fin 2) (Fin 2) F} (hA : IsConformal A)
    (C : Matrix (Fin 2) (Fin 2) F) : conformalPart (A * C) = A * conformalPart C := by
  rw [conformalPart, conformalPart, cofactors_mul, hA.cofactors_eq, mul_add]

theorem conformalPart_mul_right {B : Matrix (Fin 2) (Fin 2) F} (hB : IsConformal B)
    (C : Matrix (Fin 2) (Fin 2) F) : conformalPart (C * B) = conformalPart C * B := by
  rw [conformalPart, conformalPart, cofactors_mul, hB.cofactors_eq, add_mul]

/-- The determinant of `[[a, -b], [b, a]]`. -/
theorem IsConformal.det_eq {A : Matrix (Fin 2) (Fin 2) F} (h : IsConformal A) :
    A.det = A 0 0 ^ 2 + A 1 0 ^ 2 := by
  have h01 : A 0 1 = -A 1 0 := congrFun (congrFun h 0) 1
  have h11 : A 1 1 = A 0 0 := congrFun (congrFun h 1) 1
  rw [det_fin_two, h01, h11]
  ring

theorem IsConformal.sub {A B : Matrix (Fin 2) (Fin 2) F} (hA : IsConformal A) (hB : IsConformal B) :
    IsConformal (A - B) := by
  rw [IsConformal, hA, hB]
  ext i j
  fin_cases i <;> fin_cases j <;> simp
  ring

end Conformal

/-! ### The squared error -/

section SquaredError

variable {F : Type*} [CommRing F] {ι : Type*} [Fintype ι]

/-- The squared length. -/
def normSq (v : Fin 2 → F) : F :=
  v ⬝ᵥ v

/-- The squared distances between the images of the points `S` and the points `D`. -/
def squaredError (A : Matrix (Fin 2) (Fin 2) F) (t : Fin 2 → F) (S D : ι → Fin 2 → F) : F :=
  ∑ i, normSq (A *ᵥ S i + t - D i)

/-- The sum of the squared lengths. -/
def spread (X : ι → Fin 2 → F) : F :=
  ∑ i, normSq (X i)

/-- Points around the origin. -/
def IsCentred (X : ι → Fin 2 → F) : Prop :=
  ∑ i, X i = 0

variable {A A₀ : Matrix (Fin 2) (Fin 2) F} {t : Fin 2 → F} {X Y : ι → Fin 2 → F}

theorem normSq_add (v t : Fin 2 → F) : normSq (v + t) = normSq v + 2 * (v ⬝ᵥ t) + normSq t := by
  rw [normSq, add_dotProduct, dotProduct_add, dotProduct_add, dotProduct_comm t v, normSq, normSq]
  ring

/-- Between centred families, a shift adds its own squared length for every point. -/
theorem squaredError_shift (hX : IsCentred X) (hY : IsCentred Y) :
    squaredError A t X Y = squaredError A 0 X Y + Fintype.card ι * normSq t := by
  have hterm : ∀ i, normSq (A *ᵥ X i + t - Y i) =
      normSq (A *ᵥ X i + 0 - Y i) + 2 * ((A *ᵥ X i - Y i) ⬝ᵥ t) + normSq t := fun i => by
    rw [add_zero, ← normSq_add]
    congr 1
    abel
  have hcross : ∑ i, (A *ᵥ X i - Y i) ⬝ᵥ t = 0 := by
    rw [← sum_dotProduct, Finset.sum_sub_distrib, ← mulVec_sum, hX, hY, mulVec_zero, sub_zero,
      zero_dotProduct]
  rw [squaredError, Finset.sum_congr rfl fun i _ => hterm i, Finset.sum_add_distrib,
    Finset.sum_add_distrib, ← Finset.mul_sum, hcross, mul_zero, add_zero, Finset.sum_const,
    Finset.card_univ, nsmul_eq_mul, squaredError]

/-- The squared error of a conformal map, as a quadratic in its entries. -/
theorem squaredError_conformal (hA : IsConformal A) : squaredError A 0 X Y =
    A.det * spread X -
      2 * (A 0 0 * conformalPart ((of Y)ᵀ * of X) 0 0 + A 1 0 * conformalPart ((of Y)ᵀ * of X) 1 0) + spread Y := by
  have h01 : A 0 1 = -A 1 0 := congrFun (congrFun hA 0) 1
  have h11 : A 1 1 = A 0 0 := congrFun (congrFun hA 1) 1
  have hterm : ∀ i, normSq (A *ᵥ X i + 0 - Y i) =
      A.det * normSq (X i) - 2 * (A 0 0 * (Y i 0 * X i 0 + Y i 1 * X i 1) +
        A 1 0 * (Y i 1 * X i 0 - Y i 0 * X i 1)) + normSq (Y i) := fun i => by
    rw [hA.det_eq]
    simp only [normSq, dotProduct, Fin.sum_univ_two, add_zero, Pi.sub_apply, mulVec, h01, h11]
    ring
  rw [squaredError, Finset.sum_congr rfl fun i _ => hterm i, Finset.sum_add_distrib,
    Finset.sum_sub_distrib, ← Finset.mul_sum, ← Finset.mul_sum, Finset.sum_add_distrib,
    ← Finset.mul_sum, ← Finset.mul_sum, Finset.sum_add_distrib, Finset.sum_sub_distrib, conformalPart_eq]
  rfl

/-- The best conformal map between centred families, and what any other one loses. -/
theorem squaredError_fit (hA : IsConformal A) (hA₀ : IsConformal A₀)
    (hfit : spread X • A₀ = conformalPart ((of Y)ᵀ * of X)) :
    squaredError A 0 X Y = squaredError A₀ 0 X Y + spread X * (A - A₀).det := by
  rw [squaredError_conformal hA, squaredError_conformal hA₀, ← hfit, (hA.sub hA₀).det_eq, hA.det_eq,
    hA₀.det_eq]
  simp only [Matrix.smul_apply, Matrix.sub_apply, smul_eq_mul]
  ring

variable {S D : ι → Fin 2 → F} {μ ν : Fin 2 → F}

/-- A conformal map scales squared lengths by its determinant. -/
theorem normSq_mulVec (hA : IsConformal A) (v : Fin 2 → F) : normSq (A *ᵥ v) = A.det * normSq v := by
  have h01 : A 0 1 = -A 1 0 := congrFun (congrFun hA 0) 1
  have h11 : A 1 1 = A 0 0 := congrFun (congrFun hA 1) 1
  rw [hA.det_eq]
  simp only [normSq, dotProduct, Fin.sum_univ_two, mulVec, h01, h11]
  ring

theorem spread_mulVec (hA : IsConformal A) (X : ι → Fin 2 → F) :
    spread (fun i => A *ᵥ X i) = A.det * spread X := by
  rw [spread, Finset.sum_congr rfl fun i _ => normSq_mulVec hA (X i), ← Finset.mul_sum, spread]

theorem squaredError_centre (hS : ∀ i, S i = X i + μ) (hD : ∀ i, D i = Y i + ν) :
    squaredError A t S D = squaredError A (A *ᵥ μ + t - ν) X Y := by
  refine Finset.sum_congr rfl fun i _ => ?_
  rw [hS, hD, mulVec_add]
  congr 1
  abel

/-- **What a conformal map and a shift lose against the best ones.** -/
theorem squaredError_gap (hS : ∀ i, S i = X i + μ) (hD : ∀ i, D i = Y i + ν) (hX : IsCentred X)
    (hY : IsCentred Y) (hA : IsConformal A) (hA₀ : IsConformal A₀)
    (hfit : spread X • A₀ = conformalPart ((of Y)ᵀ * of X)) :
    squaredError A t S D = squaredError A₀ (ν - A₀ *ᵥ μ) S D +
      (spread X * (A - A₀).det + Fintype.card ι * normSq (A *ᵥ μ + t - ν)) := by
  have hzero : A₀ *ᵥ μ + (ν - A₀ *ᵥ μ) - ν = 0 := by abel
  rw [squaredError_centre hS hD, squaredError_centre hS hD, hzero, squaredError_shift hX hY,
    squaredError_fit hA hA₀ hfit, add_assoc]

end SquaredError

/-! ### Similarities -/

section Similarity

variable {F : Type*} [Field F] [LinearOrder F] [IsStrictOrderedRing F]

/-- A scaled proper rotation and a shift. -/
structure Similarity (F : Type*) [Field F] [LinearOrder F] where
  scale : F
  rotation : Matrix (Fin 2) (Fin 2) F
  shift : Fin 2 → F
  scale_nonneg : 0 ≤ scale
  orthogonal : rotationᵀ * rotation = 1
  det_rotation : rotation.det = 1

namespace Similarity

def linear (T : Similarity F) : Matrix (Fin 2) (Fin 2) F :=
  T.scale • T.rotation

def apply (T : Similarity F) (v : Fin 2 → F) : Fin 2 → F :=
  T.linear *ᵥ v + T.shift

omit [IsStrictOrderedRing F] in
theorem isConformal_linear (T : Similarity F) : IsConformal T.linear :=
  (isConformal_of_orthogonal T.orthogonal T.det_rotation).smul T.scale

/-- The way back, when the scale is positive. -/
def inverse (T : Similarity F) : Similarity F where
  scale := T.scale⁻¹
  rotation := T.rotationᵀ
  shift := -((T.scale⁻¹ • T.rotationᵀ) *ᵥ T.shift)
  scale_nonneg := inv_nonneg.2 T.scale_nonneg
  orthogonal := (transpose_transpose T.rotation).symm ▸ mul_eq_one_comm.1 T.orthogonal
  det_rotation := (det_transpose _).trans T.det_rotation

theorem linear_inverse_mul (T : Similarity F) (h : 0 < T.scale) : T.inverse.linear * T.linear = 1 := by
  show (T.scale⁻¹ • T.rotationᵀ) * (T.scale • T.rotation) = 1
  rw [smul_mul_assoc, mul_smul_comm, smul_smul, inv_mul_cancel₀ h.ne', one_smul, T.orthogonal]

theorem inverse_apply (T : Similarity F) (h : 0 < T.scale) (v : Fin 2 → F) :
    T.inverse.apply (T.apply v) = v := by
  have hshift : T.inverse.shift = -(T.inverse.linear *ᵥ T.shift) := rfl
  rw [apply, apply, hshift, mulVec_add, mulVec_mulVec, T.linear_inverse_mul h, one_mulVec, add_neg_cancel_right]

omit [IsStrictOrderedRing F] in
theorem det_linear (T : Similarity F) : T.linear.det = T.scale ^ 2 := by
  rw [linear, det_smul, T.det_rotation, Fintype.card_fin, mul_one]

/-- The transposed linear part is the inverse, up to the scale. -/
theorem transpose_linear (T : Similarity F) (h : 0 < T.scale) :
    T.linearᵀ = T.linear.det • T.inverse.linear := by
  rw [det_linear]
  show (T.scale • T.rotation)ᵀ = T.scale ^ 2 • (T.scale⁻¹ • T.rotationᵀ)
  rw [transpose_smul, smul_smul, sq, mul_assoc, mul_inv_cancel₀ h.ne', mul_one]

end Similarity

theorem normSq_nonneg (v : Fin 2 → F) : 0 ≤ normSq v := by
  rw [normSq, dotProduct]
  exact Finset.sum_nonneg fun i _ => mul_self_nonneg (v i)

theorem normSq_eq_zero {v : Fin 2 → F} : normSq v = 0 ↔ v = 0 :=
  dotProduct_self_eq_zero

theorem IsConformal.det_nonneg {A : Matrix (Fin 2) (Fin 2) F} (h : IsConformal A) : 0 ≤ A.det := by
  rw [h.det_eq]
  positivity

theorem IsConformal.eq_zero_of_det {A : Matrix (Fin 2) (Fin 2) F} (h : IsConformal A) (hdet : A.det = 0) :
    A = 0 := by
  rw [h.det_eq] at hdet
  have h00 : A 0 0 = 0 := by nlinarith [sq_nonneg (A 0 0), sq_nonneg (A 1 0)]
  have h10 : A 1 0 = 0 := by nlinarith [sq_nonneg (A 0 0), sq_nonneg (A 1 0)]
  rw [h, h00, h10]
  ext i j
  fin_cases i <;> fin_cases j <;> simp

variable {ι : Type*} [Fintype ι] {S D X Y : ι → Fin 2 → F} {μ ν : Fin 2 → F}
  {A A₀ : Matrix (Fin 2) (Fin 2) F} {t : Fin 2 → F}

theorem spread_nonneg (X : ι → Fin 2 → F) : 0 ≤ spread X :=
  Finset.sum_nonneg fun i _ => normSq_nonneg (X i)

theorem spread_pos : 0 < spread X ↔ X ≠ 0 := by
  have hzero : spread X = 0 ↔ X = 0 := by
    rw [spread, Finset.sum_eq_zero_iff_of_nonneg fun i _ => normSq_nonneg (X i)]
    simp only [Finset.mem_univ, true_imp_iff, normSq_eq_zero]
    exact funext_iff.symm
  rw [(spread_nonneg X).lt_iff_ne', ne_eq, hzero]

/-- The best conformal map is a least-squares solution. -/
theorem squaredError_le (hS : ∀ i, S i = X i + μ) (hD : ∀ i, D i = Y i + ν) (hX : IsCentred X)
    (hY : IsCentred Y) (hA : IsConformal A) (hA₀ : IsConformal A₀)
    (hfit : spread X • A₀ = conformalPart ((of Y)ᵀ * of X)) :
    squaredError A₀ (ν - A₀ *ᵥ μ) S D ≤ squaredError A t S D := by
  rw [squaredError_gap hS hD hX hY hA hA₀ hfit]
  refine le_add_of_nonneg_right (add_nonneg ?_ ?_)
  · exact mul_nonneg (spread_nonneg X) (hA.sub hA₀).det_nonneg
  · exact mul_nonneg (Nat.cast_nonneg _) (normSq_nonneg _)

/-- A conformal map and a shift without error are the best ones. -/
theorem eq_of_squaredError_eq_zero [Nonempty ι] (hS : ∀ i, S i = X i + μ) (hD : ∀ i, D i = Y i + ν)
    (hX : IsCentred X) (hY : IsCentred Y) (hA : IsConformal A) (hA₀ : IsConformal A₀)
    (hfit : spread X • A₀ = conformalPart ((of Y)ᵀ * of X)) (hne : X ≠ 0) (herror : squaredError A t S D = 0) :
    A = A₀ ∧ t = ν - A₀ *ᵥ μ := by
  have hgap := squaredError_gap (t := t) hS hD hX hY hA hA₀ hfit
  have hbest : 0 ≤ squaredError A₀ (ν - A₀ *ᵥ μ) S D := Finset.sum_nonneg fun i _ => normSq_nonneg _
  have hturn : 0 ≤ spread X * (A - A₀).det := mul_nonneg (spread_nonneg X) (hA.sub hA₀).det_nonneg
  have hcard : (0 : F) < Fintype.card ι := Nat.cast_pos.2 Fintype.card_pos
  have hshift : 0 ≤ Fintype.card ι * normSq (A *ᵥ μ + t - ν) := mul_nonneg hcard.le (normSq_nonneg _)
  have hA_eq : A = A₀ := by
    have hdet := (mul_eq_zero.1 (show spread X * (A - A₀).det = 0 by linarith)).resolve_left
      (spread_pos.2 hne).ne'
    exact sub_eq_zero.1 ((hA.sub hA₀).eq_zero_of_det hdet)
  refine ⟨hA_eq, ?_⟩
  have hnorm := (mul_eq_zero.1 (show (Fintype.card ι : F) * normSq (A *ᵥ μ + t - ν) = 0 by
    linarith)).resolve_left hcard.ne'
  have hmid := normSq_eq_zero.1 hnorm
  rw [hA_eq] at hmid
  rw [← sub_eq_zero, ← hmid]
  abel

end Similarity

end Planar
