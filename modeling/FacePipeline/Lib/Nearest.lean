import FacePipeline.Lib.Binary64

/-!
# Rounding to nearest

`IsNearest v r` says that no representable number is nearer to `v` than `r`, and bounds the error by half a unit in
the last place. Conversion of a natural number, multiplication and square root round so, which is all that is
needed to say on which side of a representable number a result lies.
-/

namespace Binary64

open Float.Model Float.Model.UnpackedFloat

/-- `r` is a nearest double of `v`. -/
structure IsNearest (v r : ℝ) : Prop where
  error : |r - v| ≤ v / 2 ^ 53
  nearest : ∀ w, Representable w → |r - v| ≤ |w - v|

theorem IsNearest.exact {v r : ℝ} (h : IsNearest v r) (hv : Representable v) : r = v := by
  have hzero := h.nearest v hv
  rw [sub_self, abs_zero] at hzero
  exact sub_eq_zero.1 (abs_nonpos_iff.1 hzero)

theorem IsNearest.bounds {v r : ℝ} (h : IsNearest v r) (hv : 0 ≤ v) : v / 2 ≤ r ∧ r ≤ 2 * v := by
  have herror : |r - v| ≤ v / 2 := h.error.trans (div_le_div_of_nonneg_left hv two_pos (by norm_num))
  rw [abs_le] at herror
  constructor <;> linarith

/-- Rounding to nearest is a rounding. -/
theorem IsNearest.isRounding {v r : ℝ} (h : IsNearest v r) (hv : 0 ≤ v) : IsRounding v r :=
  ⟨h.error.trans (div_le_div_of_nonneg_left hv (by norm_num) (by norm_num)), h.exact⟩

/-- Four times a double. -/
theorem HasValue.representable_four_mul {x : Float} {r : ℝ} (hx : HasValue x r) : Representable (4 * r) := by
  obtain ⟨m, e, ⟨⟨hpos, -⟩, hlog⟩, rfl⟩ := hx
  refine ⟨m, e + 2, ((Nat.log2_eq_iff (Nat.ne_of_gt hpos)).1 hlog).2, ?_⟩
  rw [zpow_add₀ two_ne_zero]
  ring

/-- The next double below a power of two. -/
theorem representable_pred (t : ℤ) : Representable ((2 ^ 53 - 1) * 2 ^ t) :=
  ⟨2 ^ 53 - 1, t, by norm_num, by norm_num⟩

/-- Between that one and the power of two there is none. -/
theorem HasValue.le_pred {x : Float} {r : ℝ} (hx : HasValue x r) {t : ℤ} (h : r < 2 ^ 53 * 2 ^ t) :
    r ≤ (2 ^ 53 - 1) * 2 ^ t := by
  obtain ⟨m, e, ⟨⟨hpos, -⟩, hlog⟩, rfl⟩ := hx
  obtain ⟨hle, hlt⟩ := (Nat.log2_eq_iff (Nat.ne_of_gt hpos)).1 hlog
  have hle' : (2 : ℝ) ^ 52 ≤ m := by exact_mod_cast hle
  have hlt' : (m : ℝ) ≤ 2 ^ 53 - 1 := by
    have hsucc : (m : ℝ) + 1 ≤ 2 ^ 53 := by exact_mod_cast hlt
    linarith
  have het : e ≤ t := by
    by_contra hgt
    have hmono : (2 : ℝ) ^ (t + 1) ≤ 2 ^ e := zpow_le_zpow_right₀ one_le_two (by omega)
    have hpow : (0 : ℝ) < 2 ^ t := zpow_pos two_pos t
    rw [zpow_add_one₀ two_ne_zero] at hmono
    have hlarge : (2 : ℝ) ^ 52 * (2 ^ t * 2) ≤ m * 2 ^ e := mul_le_mul hle' hmono (by positivity) (by positivity)
    linarith
  calc (m : ℝ) * 2 ^ e ≤ (2 ^ 53 - 1) * 2 ^ e := mul_le_mul_of_nonneg_right hlt' (zpow_pos two_pos e).le
    _ ≤ (2 ^ 53 - 1) * 2 ^ t :=
      mul_le_mul_of_nonneg_left (zpow_le_zpow_right₀ one_le_two het) (by norm_num)

/-- What is nearer to that one than to the power of two is not rounded to the power of two. -/
theorem IsNearest.le_pred {x : Float} {v r : ℝ} (hx : HasValue x r) (h : IsNearest v r) {t : ℤ}
    (hv : v < (2 ^ 53 - 1 / 2) * 2 ^ t) : r ≤ (2 ^ 53 - 1) * 2 ^ t := by
  apply hx.le_pred
  by_contra hge
  have hpow : (0 : ℝ) < 2 ^ t := zpow_pos two_pos t
  have hnear := h.nearest _ (representable_pred t)
  rw [abs_of_nonneg (by linarith)] at hnear
  rcases abs_cases ((2 ^ 53 - 1) * 2 ^ t - v) with ⟨habs, -⟩ | ⟨habs, -⟩
  · linarith
  · linarith

/-! ### The residual bits -/

/-- The residual bits say on which side of the middle the number lies. -/
structure Digits (em : ExtendedMantissa) (x : ℝ) : Prop extends Covers em x where
  upper : em.roundBit = true → em.mantissa + 1 / 2 ≤ x
  lower : em.roundBit = false → x < em.mantissa + 1 / 2
  tie : em.stickyBit = false → x = em.mantissa ∨ x = em.mantissa + 1 / 2

theorem Digits.shiftRightOne {em : ExtendedMantissa} {x : ℝ} (h : Digits em x) : Digits em.shiftRightOne (x / 2) := by
  have hle := h.le
  have hlt := h.lt
  have hdiv : (em.mantissa : ℝ) = 2 * (em.mantissa / 2 : ℕ) + (em.mantissa % 2 : ℕ) := by
    exact_mod_cast (Nat.div_add_mod em.mantissa 2).symm
  refine ⟨h.toCovers.shiftRightOne, fun hround => ?_, fun hround => ?_, fun hsticky => ?_⟩
  · have hodd : em.mantissa % 2 = 1 := by
      have hne : em.mantissa % 2 ≠ 0 := by simpa [ExtendedMantissa.shiftRightOne] using hround
      omega
    show ((em.mantissa / 2 : ℕ) : ℝ) + 1 / 2 ≤ x / 2
    rw [hodd, Nat.cast_one] at hdiv
    linarith
  · have heven : em.mantissa % 2 = 0 := by simpa [ExtendedMantissa.shiftRightOne] using hround
    show x / 2 < ((em.mantissa / 2 : ℕ) : ℝ) + 1 / 2
    rw [heven, Nat.cast_zero] at hdiv
    linarith
  · have hclear : em.roundBit = false ∧ em.stickyBit = false := by
      simpa [ExtendedMantissa.shiftRightOne] using hsticky
    have hx : x = em.mantissa := by
      rcases h.tie hclear.2 with hx | hx
      · exact hx
      · have hbelow := h.lower hclear.1
        linarith
    show x / 2 = ((em.mantissa / 2 : ℕ) : ℝ) ∨ x / 2 = ((em.mantissa / 2 : ℕ) : ℝ) + 1 / 2
    rcases Nat.mod_two_eq_zero_or_one em.mantissa with hmod | hmod
    · rw [hmod, Nat.cast_zero] at hdiv
      exact .inl (by linarith)
    · rw [hmod, Nat.cast_one] at hdiv
      exact .inr (by linarith)

theorem Digits.shiftRight {em : ExtendedMantissa} {x : ℝ} (h : Digits em x) (k : ℕ) :
    Digits (em >>> k) (x / 2 ^ k) :=
  shiftRight_of_shiftRightOne (fun _ _ => Digits.shiftRightOne) h k

/-- Rounding moves by at most half a unit in the last place. -/
theorem Digits.abs_roundedMantissa_sub_le {em : ExtendedMantissa} {x : ℝ} (h : Digits em x) :
    |(em.roundedMantissa : ℝ) - x| ≤ 1 / 2 := by
  obtain ⟨m, roundBit, stickyBit⟩ := em
  have hle : (m : ℝ) ≤ x := h.le
  have hlt : x < m + 1 := h.lt
  rw [abs_le]
  cases roundBit with
  | false =>
    have hlower : x < m + 1 / 2 := h.lower rfl
    have hkept : ((⟨m, false, stickyBit⟩ : ExtendedMantissa).roundedMantissa : ℝ) = m := by
      cases stickyBit <;> rfl
    rw [hkept]
    constructor <;> linarith
  | true =>
    have hupper : (m : ℝ) + 1 / 2 ≤ x := h.upper rfl
    cases stickyBit with
    | true =>
      have hraised : ((⟨m, true, true⟩ : ExtendedMantissa).roundedMantissa : ℝ) = m + 1 := by
        simp [ExtendedMantissa.roundedMantissa, ExtendedMantissa.accuracy, Accuracy.roundToNearestEven]
      rw [hraised]
      constructor <;> linarith
    | false =>
      -- a tie, whose even neighbour may be either one
      have hx : x = m + 1 / 2 := by
        rcases h.tie rfl with hx | hx
        · have hx' : x = m := hx
          linarith
        · exact hx
      obtain ⟨hlow, hhigh⟩ := roundedMantissa_bounds ⟨m, true, false⟩
      have hlow' : (m : ℝ) ≤ (⟨m, true, false⟩ : ExtendedMantissa).roundedMantissa := by exact_mod_cast hlow
      have hhigh' : ((⟨m, true, false⟩ : ExtendedMantissa).roundedMantissa : ℝ) ≤ m + 1 := by exact_mod_cast hhigh
      constructor <;> linarith

/-- An integer at most half a unit away is nearest, among the numbers whose last place is that unit or a larger one,
and those with smaller ones are all below. -/
theorem isNearest_of_half {x : ℝ} {n : ℕ} (t : ℤ) (hx : 2 ^ 52 ≤ x) (h : |(n : ℝ) - x| ≤ 1 / 2) :
    IsNearest (x * 2 ^ t) (n * 2 ^ t) := by
  have hunit : (0 : ℝ) < 2 ^ t := zpow_pos two_pos t
  have hinteger : ∀ j : ℕ, |(n : ℝ) - x| ≤ |(j : ℝ) - x| := by
    intro j
    rcases eq_or_ne j n with rfl | hne
    · exact le_rfl
    · have hone : (1 : ℝ) ≤ |(j : ℝ) - n| := by
        have hcast : (1 : ℤ) ≤ |(j : ℤ) - n| := Int.one_le_abs (by omega)
        exact_mod_cast hcast
      have htriangle := abs_sub_le (j : ℝ) x n
      rw [abs_sub_comm x] at htriangle
      linarith
  constructor
  · rw [← sub_mul, abs_mul, abs_of_pos hunit, mul_div_right_comm]
    refine mul_le_mul_of_nonneg_right (h.trans ?_) hunit.le
    rw [le_div_iff₀ (by positivity)]
    linarith
  · intro w hw
    have hscale : w = w / 2 ^ t * 2 ^ t := (div_mul_cancel₀ w hunit.ne').symm
    rw [hscale, ← sub_mul, ← sub_mul, abs_mul, abs_mul]
    refine mul_le_mul_of_nonneg_right ?_ (abs_nonneg _)
    rcases le_or_gt (2 ^ 52) (w / 2 ^ t) with hlarge | hsmall
    · obtain ⟨j, hj⟩ := whole_of_representable hlarge (hscale ▸ hw)
      rw [hj]
      exact hinteger j
    · have hcast : ((2 ^ 52 : ℕ) : ℝ) = 2 ^ 52 := by norm_num
      have hfloor := hinteger (2 ^ 52)
      rw [hcast, abs_of_nonpos (by linarith : (2 : ℝ) ^ 52 - x ≤ 0)] at hfloor
      rw [abs_of_nonpos (by linarith : w / 2 ^ t - x ≤ 0)]
      linarith

/-- **One rounding to nearest.** -/
theorem hasValue_nearest {m k : ℕ} {e : ℤ} {acc : Accuracy} {x : ℝ} (hk : m.log2 = 52 + k)
    (hdigits : Digits (.ofMantissaAndAccuracy m acc) x) (hlow : -1074 ≤ e) (hhigh : e + k ≤ 970) :
    ∃ r, HasValue (ofUnpacked (roundWithAccuracy Format.binary64 .positive m e acc)) r ∧ IsNearest (x * 2 ^ e) r := by
  refine ⟨_, hasValue_roundedMantissa acc hk hlow hhigh, ?_⟩
  rw [rescale x k e]
  exact isNearest_of_half _ (hdigits.two_pow_le hk) (hdigits.shiftRight k).abs_roundedMantissa_sub_le

/-! ### The operations -/

theorem digits_exact (m : ℕ) : Digits (.ofMantissaAndAccuracy m .exact) m := by
  refine ⟨covers_exact m, fun h => ?_, fun _ => ?_, fun _ => .inl rfl⟩
  · cases h
  · show (m : ℝ) < m + 1 / 2
    linarith

theorem hasValue_mul {x y : Float} {v w : ℝ} (hx : HasValue x v) (hy : HasValue y w) (hv : InRange v)
    (hw : InRange w) : ∃ r, HasValue (x * y) r ∧ IsNearest (v * w) r := by
  obtain ⟨m₁, e₁, ⟨⟨hpos₁, hunpack₁⟩, hlog₁⟩, rfl⟩ := hx
  obtain ⟨m₂, e₂, ⟨⟨hpos₂, hunpack₂⟩, hlog₂⟩, rfl⟩ := hy
  obtain ⟨hlow₁, hhigh₁⟩ := exponent_inRange hlog₁ (Nat.ne_of_gt hpos₁) hv
  obtain ⟨hlow₂, hhigh₂⟩ := exponent_inRange hlog₂ (Nat.ne_of_gt hpos₂) hw
  obtain ⟨hle₁, hlt₁⟩ := (Nat.log2_eq_iff (Nat.ne_of_gt hpos₁)).1 hlog₁
  obtain ⟨hle₂, hlt₂⟩ := (Nat.log2_eq_iff (Nat.ne_of_gt hpos₂)).1 hlog₂
  have hmul : x * y = ofUnpacked (UnpackedFloat.mul Format.binary64 x.toModel.unpack y.toModel.unpack) := rfl
  have hne : m₁ * m₂ ≠ 0 := (Nat.mul_pos hpos₁ hpos₂).ne'
  have hle : 2 ^ 104 ≤ m₁ * m₂ := by
    calc 2 ^ 104 = 2 ^ 52 * 2 ^ 52 := by norm_num
      _ ≤ m₁ * m₂ := Nat.mul_le_mul hle₁ hle₂
  have hlt : m₁ * m₂ < 2 ^ 106 := by
    calc m₁ * m₂ < 2 ^ 53 * 2 ^ 53 := Nat.mul_lt_mul'' hlt₁ hlt₂
      _ = 2 ^ 106 := by norm_num
  have hlog := (Nat.le_log2 hne).2 hle
  have hlog' := (Nat.log2_lt hne).2 hlt
  obtain ⟨k, hk⟩ := Nat.exists_eq_add_of_le (show 52 ≤ (m₁ * m₂).log2 by omega)
  obtain ⟨r, hvalue, hnearest⟩ := hasValue_nearest hk (digits_exact (m₁ * m₂))
    (show -1074 ≤ e₁ + e₂ by omega) (by omega)
  have hexact : ((m₁ * m₂ : ℕ) : ℝ) * 2 ^ (e₁ + e₂) = m₁ * 2 ^ e₁ * (m₂ * 2 ^ e₂) := by
    rw [zpow_add₀ two_ne_zero]
    push_cast
    ring
  rw [hexact] at hnearest
  refine ⟨r, ?_, hnearest⟩
  rw [hmul, hunpack₁, hunpack₂]
  exact hvalue

/-- The root of a mantissa of 53 bits, computed to 53 bits. -/
theorem sqrtCore_eq {m : ℕ} {e : ℤ} (hlog : m.log2 = 52) (hlow : -900 ≤ e) : ∃ (j : ℕ) (t : ℤ),
    (j = 52 ∨ j = 53) ∧ e = 2 * t + j ∧ sqrtCore Format.binary64 m e =
      (Nat.sqrt (m <<< j), t, if m <<< j - Nat.sqrt (m <<< j) * Nat.sqrt (m <<< j) = 0 then .exact
        else .inexact (if m <<< j - Nat.sqrt (m <<< j) * Nat.sqrt (m <<< j) ≤ Nat.sqrt (m <<< j)
          then .lt else .gt)) := by
  have htarget : min (e.ediv 2) (Format.binary64.targetExponent ((totalExponent m e + 1).ediv 2)) =
      (e - 52) / 2 := by
    have hmin : Format.binary64.minExponent = -1074 := rfl
    have hbits : (Format.binary64.mantissaBits : ℤ) = 53 := rfl
    rw [Format.targetExponent, totalExponent, hmin, hbits, hlog]
    show min (e / 2) (max ((((52 : ℕ) : ℤ) + 1 + e + 1) / 2 - 53) (-1074)) = _
    omega
  obtain ⟨j, hj⟩ : ∃ j : ℕ, (j : ℤ) = e - 2 * ((e - 52) / 2) :=
    ⟨(e - 2 * ((e - 52) / 2)).toNat, by omega⟩
  have hshift : (e - 2 * ((e - 52) / 2)).toNat = j := by omega
  refine ⟨j, (e - 52) / 2, by omega, by omega, ?_⟩
  simp only [sqrtCore, htarget, hshift]

theorem covers_sqrt (n : ℕ) {o : Ordering} :
    Covers (.ofMantissaAndAccuracy (Nat.sqrt n)
      (if n - Nat.sqrt n * Nat.sqrt n = 0 then .exact else .inexact o)) (√n) := by
  refine covers_of_accuracy ?_ ?_ fun heq => ?_
  · exact Real.nat_sqrt_le_real_sqrt
  · exact Real.real_sqrt_lt_nat_sqrt_succ
  · have hsquare : n = Nat.sqrt n * Nat.sqrt n := by
      have h := Real.mul_self_sqrt (Nat.cast_nonneg (α := ℝ) n)
      rw [heq] at h
      exact_mod_cast h.symm
    rw [if_pos (by omega)]

/-- What the square root has computed before it rounds. -/
theorem digits_sqrt (n : ℕ) : Digits (.ofMantissaAndAccuracy (Nat.sqrt n)
    (if n - Nat.sqrt n * Nat.sqrt n = 0 then .exact
      else .inexact (if n - Nat.sqrt n * Nat.sqrt n ≤ Nat.sqrt n then .lt else .gt))) (√n) := by
  have hroot := Nat.sqrt_le n
  have hsquare : √(n : ℝ) * √n = n := Real.mul_self_sqrt (Nat.cast_nonneg n)
  have hnonneg : 0 ≤ √(n : ℝ) := Real.sqrt_nonneg _
  by_cases hexact : n - Nat.sqrt n * Nat.sqrt n = 0
  · have hn : (n : ℝ) = (Nat.sqrt n : ℝ) * Nat.sqrt n := by exact_mod_cast (by omega : n = Nat.sqrt n * Nat.sqrt n)
    have hsqrt : √(n : ℝ) = Nat.sqrt n := by
      conv_lhs => rw [hn]
      exact Real.sqrt_mul_self (Nat.cast_nonneg _)
    rw [if_pos hexact, hsqrt]
    exact digits_exact _
  · rw [if_neg hexact]
    by_cases hbelow : n - Nat.sqrt n * Nat.sqrt n ≤ Nat.sqrt n
    · have hn : (n : ℝ) ≤ Nat.sqrt n * Nat.sqrt n + Nat.sqrt n := by
        exact_mod_cast (by omega : n ≤ Nat.sqrt n * Nat.sqrt n + Nat.sqrt n)
      have hcovers : Covers (.ofMantissaAndAccuracy (Nat.sqrt n) (.inexact .lt)) (√n) := by
        simpa only [if_neg hexact] using covers_sqrt n (o := .lt)
      rw [if_pos hbelow]
      refine ⟨hcovers, fun h => ?_, fun _ => ?_, fun h => ?_⟩
      · cases h
      · show √(n : ℝ) < Nat.sqrt n + 1 / 2
        nlinarith
      · cases h
    · have hn : (Nat.sqrt n : ℝ) * Nat.sqrt n + Nat.sqrt n + 1 ≤ n := by
        exact_mod_cast (by omega : Nat.sqrt n * Nat.sqrt n + Nat.sqrt n + 1 ≤ n)
      have hcovers : Covers (.ofMantissaAndAccuracy (Nat.sqrt n) (.inexact .gt)) (√n) := by
        simpa only [if_neg hexact] using covers_sqrt n (o := .gt)
      rw [if_neg hbelow]
      refine ⟨hcovers, fun _ => ?_, fun h => ?_, fun h => ?_⟩
      · show (Nat.sqrt n : ℝ) + 1 / 2 ≤ √n
        nlinarith
      · cases h
      · cases h

theorem log2_root {m j : ℕ} (hpos : 0 < m) (hlog : m.log2 = 52) (hj : j = 52 ∨ j = 53) :
    (Nat.sqrt (m <<< j)).log2 = 52 + 0 := by
  obtain ⟨hle, hlt⟩ := (Nat.log2_eq_iff (Nat.ne_of_gt hpos)).1 hlog
  have hroot : 2 ^ 52 ≤ Nat.sqrt (m <<< j) := by
    rw [Nat.le_sqrt, Nat.shiftLeft_eq]
    rcases hj with rfl | rfl <;> omega
  have hroot' : Nat.sqrt (m <<< j) < 2 ^ 53 := by
    rw [Nat.sqrt_lt, Nat.shiftLeft_eq]
    rcases hj with rfl | rfl <;> omega
  exact (Nat.log2_eq_iff (by omega)).2 ⟨hroot, hroot'⟩

/-- The root is that of the shifted mantissa, in units of half the exponent. -/
theorem root_eq {m j : ℕ} {e t : ℤ} (ht : e = 2 * t + j) : √((m <<< j : ℕ) : ℝ) * 2 ^ t = √(m * 2 ^ e) := by
  have hsquare : (m : ℝ) * 2 ^ e = (m <<< j : ℕ) * (2 ^ t) ^ 2 := by
    rw [ht, zpow_add₀ two_ne_zero, two_mul, zpow_add₀ two_ne_zero, zpow_natCast, Nat.shiftLeft_eq,
      Nat.cast_mul, Nat.cast_pow, Nat.cast_ofNat]
    ring
  rw [hsquare, Real.sqrt_mul (Nat.cast_nonneg _), Real.sqrt_sq (zpow_pos two_pos t).le]

theorem sqrt_nearest {x : Float} {v : ℝ} (hx : HasValue x v) (hv : InRange v) :
    ∃ r, HasValue x.sqrt r ∧ IsNearest (√v) r := by
  obtain ⟨m, e, ⟨⟨hpos, hunpack⟩, hlog⟩, rfl⟩ := hx
  obtain ⟨hlow, hhigh⟩ := exponent_inRange hlog (by omega) hv
  have hsqrt : x.sqrt = ofUnpacked (UnpackedFloat.sqrt Format.binary64 x.toModel.unpack) := rfl
  obtain ⟨j, t, hj, ht, hcore⟩ := sqrtCore_eq hlog (by omega : -900 ≤ e)
  simp only [hsqrt, hunpack, UnpackedFloat.sqrt, hcore]
  obtain ⟨r, hvalue, hnearest⟩ :=
    hasValue_nearest (log2_root hpos hlog hj) (digits_sqrt (m <<< j)) (by omega : -1074 ≤ t) (by omega)
  rw [root_eq ht] at hnearest
  exact ⟨r, hvalue, hnearest⟩

theorem ofScientific_eq {n : ℕ} (hn : n ≠ 0) : UnpackedFloat.ofScientific Format.binary64 n 0 =
    roundWithAccuracy Format.binary64 .positive (n <<< 53) (-53) .exact := by
  have hbits : Format.binary64.mantissaBits = 53 := rfl
  rw [UnpackedFloat.ofScientific, dif_neg hn, if_neg (by decide), if_neg (by simp), if_pos le_rfl]
  simp only [UnpackedFloat.mul, hbits, Int.toNat_zero, pow_zero, Nat.mul_one, Int.add_zero]
  rfl

/-- A natural number converted to a double. -/
theorem hasValue_ofNat {n : ℕ} (hpos : 0 < n) (hlt : n < 2 ^ 64) :
    ∃ r, HasValue (Float.ofNat n) r ∧ IsNearest n r := by
  have hofNat : Float.ofNat n = Float.ofScientific n false 0 := rfl
  rw [hofNat, Float.ofScientific]
  by_cases hsmall : n < 2 ^ 53
  · -- the number converts exactly, and is multiplied by one
    have hword : n.toUInt64.toNat = n := by
      simp
      omega
    have hconvert : n.toUInt64.toFloat = ofInt n := by
      have hmodel : n.toUInt64.toFloat = ofInt (n.toUInt64.toNat : ℤ) := rfl
      rw [hmodel, hword]
    have hone : HasValue (Float.ofBits 0x3FF0000000000000) 1 :=
      ⟨2 ^ 52, -52, ⟨⟨by decide, rfl⟩, by decide⟩, by norm_num⟩
    have hn : HasValue n.toUInt64.toFloat n := by
      rw [hconvert]
      exact_mod_cast hasValue_ofInt (by omega : 0 < (n : ℤ)) (by omega)
    have hpos' : (1 : ℝ) ≤ n := by exact_mod_cast hpos
    have hlt' : (n : ℝ) < 2 ^ 64 := by exact_mod_cast hlt
    obtain ⟨r, hvalue, hnearest⟩ := hasValue_mul hn hone (inRange_of_bounds (by linarith) (by linarith))
      (inRange_of_bounds (by norm_num) (by norm_num))
    rw [mul_one] at hnearest
    rw [dif_pos ⟨hsmall, by decide⟩]
    exact ⟨r, hvalue, hnearest⟩
  · have hne : n ≠ 0 := hpos.ne'
    have hlog : n.log2 < 64 := (Nat.log2_lt hne).2 hlt
    have hlog' : (n <<< 53).log2 = 52 + (n.log2 + 1) := by
      rw [log2_shiftLeft hne]
      omega
    obtain ⟨r, hvalue, hnearest⟩ := hasValue_nearest hlog' (digits_exact _) (show -1074 ≤ -(53 : ℤ) by omega)
      (by omega)
    have hexact : ((n <<< 53 : ℕ) : ℝ) * 2 ^ (-(53 : ℤ)) = n := by
      have h53 : (2 : ℝ) ^ (53 : ℤ) = 2 ^ 53 := zpow_natCast 2 53
      rw [Nat.shiftLeft_eq, zpow_neg, h53, Nat.cast_mul, Nat.cast_pow, Nat.cast_ofNat]
      field_simp
    rw [hexact] at hnearest
    rw [dif_neg fun h => hsmall h.1]
    refine ⟨r, ?_, hnearest⟩
    have hmodel : Float.ofModel (Float.Model.ofScientific n 0) =
        ofUnpacked (UnpackedFloat.ofScientific Format.binary64 n 0) := rfl
    simp only [Bool.false_eq_true, if_false, Int.ofNat_eq_natCast, Nat.cast_zero]
    rw [hmodel, ofScientific_eq hne]
    exact hvalue

theorem roundToInt_eq (m : ℕ) (e : ℤ) : (roundToInt .positive m e).toNat = ⌊(m : ℝ) * 2 ^ e⌋₊ := by
  unfold roundToInt decreaseExponent shiftToExponent
  simp only [shiftRight_mantissa, ofMantissaAndAccuracy_mantissa]
  show (m <<< (e - 0).toNat) / 2 ^ (0 - (e - (e - 0).toNat)).toNat = _
  rw [Int.sub_zero, Nat.shiftLeft_eq]
  rcases le_or_gt 0 e with he | he
  · obtain ⟨j, rfl⟩ := Int.eq_ofNat_of_zero_le he
    have hwhole : (m : ℝ) * 2 ^ (j : ℤ) = (m * 2 ^ j : ℕ) := by
      rw [zpow_natCast]
      push_cast
      rfl
    rw [hwhole, Nat.floor_natCast, Int.toNat_natCast, Int.sub_self, Int.sub_self, Int.toNat_zero, pow_zero,
      Nat.div_one]
  · obtain ⟨j, hj⟩ := Int.eq_ofNat_of_zero_le (show 0 ≤ -e by omega)
    obtain rfl : e = -(j : ℤ) := by omega
    have hquotient : (m : ℝ) * 2 ^ (-(j : ℤ)) = (m : ℝ) / (2 ^ j : ℕ) := by
      rw [zpow_neg, zpow_natCast]
      push_cast
      rfl
    have hleft : (-(j : ℤ)).toNat = 0 := by omega
    have hright : (0 - (-(j : ℤ) - (0 : ℕ))).toNat = j := by omega
    rw [hquotient, Nat.floor_div_natCast, Nat.floor_natCast, hleft, hright, pow_zero, Nat.mul_one]

/-- The integer part. -/
theorem toUInt64_eq {x : Float} {v : ℝ} (hx : HasValue x v) (hv : v < 2 ^ 64) : x.toUInt64.toNat = ⌊v⌋₊ := by
  obtain ⟨m, e, ⟨⟨hpos, hunpack⟩, -⟩, rfl⟩ := hx
  have hword : x.toUInt64 = UInt64.ofNatClamp (x.toModel.unpack.toInt 0 (UInt64.size - 1)).toNat := rfl
  have hlt : ⌊(m : ℝ) * 2 ^ e⌋₊ < UInt64.size := (Nat.floor_lt (by positivity)).2 (by exact_mod_cast hv)
  rw [hword, hunpack]
  show (UInt64.ofNatClamp (roundToInt .positive m e).toNat).toNat = _
  rw [roundToInt_eq, UInt64.ofNatClamp, dif_pos hlt, UInt64.toNat_ofNatLT]

end Binary64
