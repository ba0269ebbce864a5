import Mathlib

/-!
# Doubles as real numbers

`HasValue x v` says that the double `x` is the positive normal number `v`. Conversion from an integer
and division return such a number for a real close to the exact result (`IsRounding`): the relative
error is below `2 ^ -52`, and a result that fits into 53 bits is exact. Both are one lemma about
`roundWithAccuracy` (`hasValue_round`), applied to what is known about the digits the operation has
computed before it rounds (`Covers`).
-/

namespace Binary64

open Float.Model Float.Model.UnpackedFloat

/-- The double of a rounded number. -/
abbrev ofUnpacked (f : UnpackedFloat) : Float :=
  .ofModel (.pack f)

/-- An integer converted to a double. -/
def ofInt (n : ℤ) : Float :=
  .ofModel (.ofInt n)

/-- `x` is the number `m * 2 ^ e`, with all 53 bits of the mantissa. -/
structure IsNormal (x : Float) (m : ℕ) (e : ℤ) : Prop where
  unpack : ∃ h, x.toModel.unpack = .finite .positive m e h
  log2 : m.log2 = 52

/-- `x` is a positive normal number, of value `v`. -/
def HasValue (x : Float) (v : ℝ) : Prop :=
  ∃ m e, IsNormal x m e ∧ v = m * 2 ^ e

/-- A real number that fits into 53 bits, wherever they start. -/
def Representable (v : ℝ) : Prop :=
  ∃ (m : ℕ) (e : ℤ), m < 2 ^ 53 ∧ v = m * 2 ^ e

/-- `r` is what a rounding of `v` may return. -/
structure IsRounding (v r : ℝ) : Prop where
  error : |r - v| ≤ v / 2 ^ 52
  exact : Representable v → r = v

/-! ### Packing -/

theorem toNat_append_one {w : ℕ} (b : BitVec w) : (1#1 ++ b).toNat = 2 ^ w + b.toNat := by
  rw [BitVec.toNat_append, ← Nat.shiftLeft_add_eq_or_of_lt b.isLt, Nat.shiftLeft_eq]
  simp

theorem unpackSign_packComponents {spec : Format} {sign exponent mantissa} :
    unpackSign (packComponents spec sign exponent mantissa) = sign.toBitVec := by
  ext i hi
  obtain rfl : i = 0 := by omega
  simp [unpackSign, packComponents, BitVec.getLsbD_append, BitVec.getElem_append]

/-- A normal number in range survives packing. -/
theorem isNormal_pack {m : ℕ} {e : ℤ} (hm : m.log2 = 52) (hpos : 0 < m) (hlow : -1074 ≤ e)
    (hhigh : e ≤ 971) : IsNormal (ofUnpacked (.finite .positive m e hpos)) m e := by
  obtain ⟨hle, hlt⟩ := (Nat.log2_eq_iff (Nat.ne_of_gt hpos)).1 hm
  obtain ⟨b, hb⟩ : ∃ b : ℕ, (b : ℤ) = e + 1075 := ⟨(e + 1075).toNat, by omega⟩
  have hexp : (e + Format.binary64.exponentBias +
      Format.binary64.mantissaBitsWithoutImplicit).toNat = b := by
    simp only [Format.exponentBias]
    omega
  have hpack : UnpackedFloat.pack Format.binary64 (.finite .positive m e hpos) =
      packComponents Format.binary64 .positive (BitVec.ofNat _ b) (BitVec.ofNat _ m) := by
    simp only [UnpackedFloat.pack]
    rw [hexp, if_neg (by show ¬2 ^ 11 ≤ b + 1; omega), if_pos (by rw [hm]; rfl)]
  have hb_toNat : (BitVec.ofNat 11 b).toNat = b := by
    rw [BitVec.toNat_ofNat, Nat.mod_eq_of_lt (by omega)]
  have hm_toNat : (1#1 ++ BitVec.ofNat 52 m).toNat = m := by
    rw [toNat_append_one, BitVec.toNat_ofNat]
    omega
  have hinf : BitVec.ofNat 11 b ≠ -1#11 := fun h => by
    have := congrArg BitVec.toNat h
    rw [hb_toNat] at this
    simp at this
    omega
  have hzero : BitVec.ofNat 11 b ≠ 0#11 := fun h => by
    have := congrArg BitVec.toNat h
    rw [hb_toNat] at this
    simp at this
    omega
  refine ⟨⟨hpos, ?_⟩, hm⟩
  show UnpackedFloat.unpack Format.binary64 (UnpackedFloat.pack Format.binary64 _) = _
  rw [hpack, UnpackedFloat.unpack]
  simp only [unpackMantissa_packComponents, unpackExponent_packComponents,
    unpackSign_packComponents, hinf, hzero, if_false]
  congr 1
  rw [hb_toNat]
  simp only [Format.exponentBias]
  omega

/-! ### Rounding -/

/-- `x` starts with the digits of the mantissa, and has no other digit when the residual bits are
clear. -/
structure Covers (em : ExtendedMantissa) (x : ℝ) : Prop where
  le : em.mantissa ≤ x
  lt : x < em.mantissa + 1
  clear : x = em.mantissa → em.roundBit = false ∧ em.stickyBit = false

theorem Covers.shiftRightOne {em : ExtendedMantissa} {x : ℝ} (h : Covers em x) :
    Covers em.shiftRightOne (x / 2) := by
  have hdiv : (em.mantissa : ℝ) = 2 * (em.mantissa / 2 : ℕ) + (em.mantissa % 2 : ℕ) := by
    exact_mod_cast (Nat.div_add_mod em.mantissa 2).symm
  have hmod : ((em.mantissa % 2 : ℕ) : ℝ) ≤ 1 := by
    exact_mod_cast Nat.le_of_lt_succ (Nat.mod_lt _ two_pos)
  have hnonneg : (0 : ℝ) ≤ (em.mantissa % 2 : ℕ) := Nat.cast_nonneg _
  have hle := h.le
  have hlt := h.lt
  refine ⟨?_, ?_, fun heq => ?_⟩
  · show ((em.mantissa / 2 : ℕ) : ℝ) ≤ x / 2
    linarith
  · show x / 2 < ((em.mantissa / 2 : ℕ) : ℝ) + 1
    linarith
  · have heq : x / 2 = ((em.mantissa / 2 : ℕ) : ℝ) := heq
    have hzero : em.mantissa % 2 = 0 := by
      have : ((em.mantissa % 2 : ℕ) : ℝ) ≤ 0 := by linarith
      exact_mod_cast le_antisymm this hnonneg
    have hx : x = em.mantissa := by
      rw [hzero, Nat.cast_zero] at hdiv
      linarith
    simp [ExtendedMantissa.shiftRightOne, hzero, h.clear hx]

/-- What one shift keeps while it halves the number, every shift keeps. -/
theorem shiftRight_of_shiftRightOne {p : ExtendedMantissa → ℝ → Prop}
    (hstep : ∀ em x, p em x → p em.shiftRightOne (x / 2)) {em : ExtendedMantissa} {x : ℝ} (h : p em x)
    (k : ℕ) : p (em >>> k) (x / 2 ^ k) := by
  show p (k.repeat ExtendedMantissa.shiftRightOne em) _
  induction k with
  | zero => simpa [Nat.repeat] using h
  | succ k ih =>
    rw [pow_succ, ← div_div]
    exact hstep _ _ ih

theorem Covers.shiftRight {em : ExtendedMantissa} {x : ℝ} (h : Covers em x) (k : ℕ) :
    Covers (em >>> k) (x / 2 ^ k) :=
  shiftRight_of_shiftRightOne (fun _ _ => Covers.shiftRightOne) h k

theorem shiftRight_mantissa (em : ExtendedMantissa) (k : ℕ) :
    (em >>> k).mantissa = em.mantissa / 2 ^ k := by
  show (k.repeat ExtendedMantissa.shiftRightOne em).mantissa = _
  induction k with
  | zero => simp [Nat.repeat]
  | succ k ih =>
    rw [pow_succ, ← Nat.div_div_eq_div_mul, ← ih]
    rfl

theorem roundedMantissa_bounds (em : ExtendedMantissa) :
    em.mantissa ≤ em.roundedMantissa ∧ em.roundedMantissa ≤ em.mantissa + 1 := by
  obtain ⟨m, roundBit, stickyBit⟩ := em
  cases roundBit <;> cases stickyBit <;> simp [ExtendedMantissa.roundedMantissa,
    ExtendedMantissa.accuracy, Accuracy.roundToNearestEven]
  omega

/-- Rounding moves by at most one unit in the last place. -/
theorem Covers.abs_roundedMantissa_sub_le {em : ExtendedMantissa} {x : ℝ} (h : Covers em x) :
    |(em.roundedMantissa : ℝ) - x| ≤ 1 := by
  have hlow : (em.mantissa : ℝ) ≤ em.roundedMantissa := by
    exact_mod_cast (roundedMantissa_bounds em).1
  have hhigh : (em.roundedMantissa : ℝ) ≤ em.mantissa + 1 := by
    exact_mod_cast (roundedMantissa_bounds em).2
  have hle := h.le
  have hlt := h.lt
  rw [abs_le]
  constructor <;> linarith

/-- Rounding does not move a whole number. -/
theorem Covers.roundedMantissa_eq {em : ExtendedMantissa} {n : ℕ} (h : Covers em n) :
    em.roundedMantissa = n := by
  have hle : em.mantissa ≤ n := by exact_mod_cast h.le
  have hlt : n < em.mantissa + 1 := by exact_mod_cast h.lt
  obtain rfl : n = em.mantissa := by omega
  obtain ⟨hround, hsticky⟩ := h.clear rfl
  obtain ⟨m, roundBit, stickyBit⟩ := em
  obtain rfl : roundBit = false := hround
  obtain rfl : stickyBit = false := hsticky
  rfl

theorem targetExponent_eq {m : ℕ} {e : ℤ} (h : -1074 ≤ e + m.log2 - 52) :
    Format.binary64.targetExponent (totalExponent m e) = e + m.log2 - 52 := by
  have hmin : Format.binary64.minExponent = -1074 := rfl
  have hbits : (Format.binary64.mantissaBits : ℤ) = 53 := rfl
  rw [Format.targetExponent, totalExponent, hmin, hbits]
  omega

/-- A mantissa of 53 bits or one more is brought to 53 bits. -/
theorem shiftToTargetExponent_eq {m k : ℕ} {e : ℤ} (acc : Accuracy) (hk : m.log2 = 52 + k)
    (h : -1074 ≤ e) : shiftToTargetExponent Format.binary64 m e acc =
      (ExtendedMantissa.ofMantissaAndAccuracy m acc >>> k, e + k) := by
  have hshift : (e + m.log2 - 52 - e).toNat = k := by omega
  rw [shiftToTargetExponent, targetExponent_eq (by omega)]
  simp only [shiftToExponent, hshift]

theorem ofMantissaAndAccuracy_mantissa (m : ℕ) (acc : Accuracy) :
    (ExtendedMantissa.ofMantissaAndAccuracy m acc).mantissa = m := by
  rcases acc with _ | o
  · rfl
  · cases o <;> rfl

/-- The mantissa after rounding, renormalised when it has grown to 54 bits. -/
theorem roundWithAccuracy_eq {m k : ℕ} {e : ℤ} (acc : Accuracy) (hk : m.log2 = 52 + k)
    (hlow : -1074 ≤ e) : ∃ (m' : ℕ) (e' : ℤ) (hpos : 0 < m'),
      roundWithAccuracy Format.binary64 .positive m e acc = .finite .positive m' e' hpos ∧
      m'.log2 = 52 ∧ (e' = e + k ∨ e' = e + k + 1) ∧
      (m' : ℝ) * 2 ^ e' =
        (ExtendedMantissa.ofMantissaAndAccuracy m acc >>> k).roundedMantissa * 2 ^ (e + k) := by
  have hm : m ≠ 0 := by
    rintro rfl
    simp at hk
    omega
  obtain ⟨hle, hlt⟩ := (Nat.log2_eq_iff hm).1 hk
  obtain ⟨hr, hr'⟩ := roundedMantissa_bounds (ExtendedMantissa.ofMantissaAndAccuracy m acc >>> k)
  rw [shiftRight_mantissa, ofMantissaAndAccuracy_mantissa] at hr hr'
  have hdiv : 2 ^ 52 ≤ m / 2 ^ k := by
    rw [Nat.le_div_iff_mul_le (by positivity), ← Nat.pow_add]
    exact hle
  have hdiv' : m / 2 ^ k < 2 ^ 53 := by
    rw [Nat.div_lt_iff_lt_mul (by positivity), ← Nat.pow_add]
    exact lt_of_lt_of_eq hlt (by congr 1; omega)
  rw [roundWithAccuracy, shiftToTargetExponent_eq acc hk hlow]
  simp only
  generalize (ExtendedMantissa.ofMantissaAndAccuracy m acc >>> k).roundedMantissa = r at *
  by_cases hsmall : r < 2 ^ 53
  · have hlog : r.log2 = 52 + 0 := (Nat.log2_eq_iff (by omega)).2 ⟨by omega, by omega⟩
    rw [shiftToTargetExponent_eq .exact hlog (by omega)]
    have hmantissa : (ExtendedMantissa.ofMantissaAndAccuracy r .exact >>> 0).mantissa = r := by
      rw [shiftRight_mantissa, ofMantissaAndAccuracy_mantissa, pow_zero, Nat.div_one]
    refine ⟨r, e + k, by omega, ?_, hlog, Or.inl rfl, rfl⟩
    simp only [hmantissa, Nat.cast_zero, add_zero, dif_neg (show r ≠ 0 by omega)]
  · obtain rfl : r = 2 ^ 53 := by omega
    have hlog : (2 ^ 53).log2 = 52 + 1 := by decide
    rw [shiftToTargetExponent_eq .exact hlog (by omega)]
    have hmantissa : (ExtendedMantissa.ofMantissaAndAccuracy (2 ^ 53) .exact >>> 1).mantissa =
        2 ^ 52 := by
      rw [shiftRight_mantissa, ofMantissaAndAccuracy_mantissa]
      norm_num
    refine ⟨2 ^ 52, e + k + 1, by norm_num, ?_, by decide, Or.inr rfl, ?_⟩
    · simp only [hmantissa]
      rw [dif_neg (by norm_num)]
      rfl
    · rw [zpow_add_one₀ two_ne_zero]
      push_cast
      ring

/-- A number of 53 digits before the point that fits into 53 bits has no others. -/
theorem whole_of_representable {x : ℝ} {t : ℤ} (hx : 2 ^ 52 ≤ x)
    (h : Representable (x * 2 ^ t)) : ∃ n : ℕ, x = n := by
  obtain ⟨m, e, hm, heq⟩ := h
  have hpos : (0 : ℝ) < 2 ^ t := zpow_pos two_pos t
  have hx' : x = m * 2 ^ (e - t) := by
    rw [zpow_sub₀ two_ne_zero, mul_div_assoc', eq_div_iff hpos.ne', heq]
  rcases lt_or_ge e t with hlt | hge
  · have hhalf : (2 : ℝ) ^ (e - t) ≤ 2 ^ (-1 : ℤ) :=
      zpow_le_zpow_right₀ one_le_two (by omega)
    have hm' : (m : ℝ) < 2 ^ 53 := by exact_mod_cast hm
    have hle : x ≤ m * 2 ^ (-1 : ℤ) := by
      rw [hx']
      exact mul_le_mul_of_nonneg_left hhalf (Nat.cast_nonneg m)
    rw [zpow_neg_one] at hle
    linarith
  · obtain ⟨n, hn⟩ := Int.eq_ofNat_of_zero_le (sub_nonneg.2 hge)
    refine ⟨m * 2 ^ n, ?_⟩
    rw [hx', hn, zpow_natCast]
    push_cast
    rfl

/-- The digits that remain are those of a number with 53 digits before the point. -/
theorem Covers.two_pow_le {m k : ℕ} {acc : Accuracy} {x : ℝ} (h : Covers (.ofMantissaAndAccuracy m acc) x)
    (hk : m.log2 = 52 + k) : (2 : ℝ) ^ 52 ≤ x / 2 ^ k := by
  have hm : m ≠ 0 := fun hzero => by
    rw [hzero, Nat.log2_zero] at hk
    omega
  rw [le_div_iff₀ (by positivity), ← pow_add]
  refine le_trans ?_ h.le
  rw [ofMantissaAndAccuracy_mantissa]
  exact_mod_cast ((Nat.log2_eq_iff hm).1 hk).1

theorem hasValue_roundedMantissa {m k : ℕ} {e : ℤ} (acc : Accuracy) (hk : m.log2 = 52 + k) (hlow : -1074 ≤ e)
    (hhigh : e + k ≤ 970) : HasValue (ofUnpacked (roundWithAccuracy Format.binary64 .positive m e acc))
      ((ExtendedMantissa.ofMantissaAndAccuracy m acc >>> k).roundedMantissa * 2 ^ (e + k)) := by
  obtain ⟨m', e', hpos, hround, hlog, he', hvalue⟩ := roundWithAccuracy_eq acc hk hlow
  refine ⟨m', e', ?_, hvalue.symm⟩
  rw [hround]
  exact isNormal_pack hlog hpos (by omega) (by omega)

/-- The number itself and its digits, in units of the last place. -/
theorem rescale (x : ℝ) (k : ℕ) (e : ℤ) : x * 2 ^ e = x / 2 ^ k * 2 ^ (e + k) := by
  rw [zpow_add₀ two_ne_zero, zpow_natCast]
  field_simp

/-- **One rounding.** The digits that the operation has computed are those of `x`, in units of
`2 ^ e`. -/
theorem hasValue_round {m k : ℕ} {e : ℤ} {acc : Accuracy} {x : ℝ} (hk : m.log2 = 52 + k)
    (hcovers : Covers (.ofMantissaAndAccuracy m acc) x) (hlow : -1074 ≤ e) (hhigh : e + k ≤ 970) :
    ∃ r, HasValue (ofUnpacked (roundWithAccuracy Format.binary64 .positive m e acc)) r ∧
      IsRounding (x * 2 ^ e) r := by
  have hcovers' := hcovers.shiftRight k
  have hunit : (0 : ℝ) < 2 ^ (e + k) := zpow_pos two_pos _
  have hdigits := hcovers.two_pow_le hk
  refine ⟨_, hasValue_roundedMantissa acc hk hlow hhigh, ?_, fun hrep => ?_⟩
  · rw [rescale x k e, ← sub_mul, abs_mul, abs_of_pos hunit, mul_div_right_comm]
    refine mul_le_mul_of_nonneg_right ?_ hunit.le
    refine hcovers'.abs_roundedMantissa_sub_le.trans ?_
    rw [le_div_iff₀ (by positivity), one_mul]
    exact hdigits
  · rw [rescale x k e] at hrep ⊢
    obtain ⟨n, hn⟩ := whole_of_representable hdigits hrep
    rw [hn] at hcovers' ⊢
    rw [hcovers'.roundedMantissa_eq]

/-! ### The operations -/

theorem log2_shiftLeft {m k : ℕ} (hm : m ≠ 0) : (m <<< k).log2 = m.log2 + k := by
  rw [Nat.shiftLeft_eq, Nat.log2_eq_iff (by positivity), Nat.pow_add, Nat.add_right_comm,
    Nat.pow_add]
  have hle := Nat.log2_self_le hm
  have hlt := Nat.lt_log2_self (n := m)
  exact ⟨Nat.mul_le_mul_right _ hle, Nat.mul_lt_mul_of_pos_right hlt (by positivity)⟩

theorem covers_exact (m : ℕ) : Covers (.ofMantissaAndAccuracy m .exact) m :=
  ⟨le_rfl, lt_add_one _, fun _ => ⟨rfl, rfl⟩⟩

/-- An operation whose inexact results are marked as such. -/
theorem covers_of_accuracy {m : ℕ} {acc : Accuracy} {x : ℝ} (hle : m ≤ x) (hlt : x < m + 1)
    (hacc : x = m → acc = .exact) : Covers (.ofMantissaAndAccuracy m acc) x := by
  refine ⟨?_, ?_, fun heq => ?_⟩
  · rwa [ofMantissaAndAccuracy_mantissa]
  · rwa [ofMantissaAndAccuracy_mantissa]
  · rw [ofMantissaAndAccuracy_mantissa] at heq
    rw [hacc heq]
    exact ⟨rfl, rfl⟩

/-- An integer of at most 53 bits converts exactly. -/
theorem hasValue_ofInt {n : ℤ} (hpos : 0 < n) (hlt : n < 2 ^ 53) : HasValue (ofInt n) n := by
  obtain ⟨m, rfl⟩ := Int.eq_ofNat_of_zero_le hpos.le
  have hm : m ≠ 0 := by omega
  have hlog : m.log2 < 53 := (Nat.log2_lt hm).2 (by omega)
  obtain ⟨j, hj⟩ : ∃ j, m.log2 + j = 52 := ⟨52 - m.log2, by omega⟩
  have hlog' : (m <<< j).log2 = 52 + 0 := by rw [log2_shiftLeft hm, hj]
  have hround : UnpackedFloat.ofInt Format.binary64 (m : ℤ) =
      roundWithAccuracy Format.binary64 .positive (m <<< j) (-j) .exact := by
    have hshift : (0 - (0 + (m.log2 : ℤ) - 52)).toNat = j := by omega
    rw [UnpackedFloat.ofInt, UnpackedFloat.normalize, Int.compare_eq_gt.2 hpos]
    simp only [Int.toNat_natCast, UnpackedFloat.round]
    rw [targetExponent_eq (by omega), decreaseExponent, hshift]
    simp
  obtain ⟨r, hvalue, hrounding⟩ :=
    hasValue_round hlog' (covers_exact _) (by omega : -1074 ≤ -(j : ℤ)) (by omega)
  have hexact : ((m <<< j : ℕ) : ℝ) * 2 ^ (-(j : ℤ)) = m := by
    rw [Nat.shiftLeft_eq, zpow_neg, zpow_natCast]
    push_cast
    field_simp
  have hrep : Representable m := ⟨m, 0, by omega, by simp⟩
  rw [hexact] at hrounding
  rw [hrounding.exact hrep, ← hround] at hvalue
  exact hvalue

/-- Far from both ends of the exponents, so that no operation leaves the normal numbers. -/
def InRange (v : ℝ) : Prop :=
  2 ^ (-400 : ℤ) ≤ v ∧ v < 2 ^ (400 : ℤ)

theorem inRange_of_bounds {v : ℝ} (hlow : 1 / 4 ≤ v) (hhigh : v ≤ 2 ^ 70) : InRange v := by
  have hquarter : (1 / 4 : ℝ) = 2 ^ (-2 : ℤ) := by norm_num
  have hpow : (2 : ℝ) ^ 70 = 2 ^ (70 : ℤ) := (zpow_natCast 2 70).symm
  rw [hquarter] at hlow
  rw [hpow] at hhigh
  constructor
  · exact (zpow_le_zpow_right₀ one_le_two (by norm_num)).trans hlow
  · exact hhigh.trans_lt (zpow_lt_zpow_right₀ one_lt_two (by norm_num))

theorem exponent_inRange {m : ℕ} {e : ℤ} (hlog : m.log2 = 52) (hm : m ≠ 0)
    (h : InRange (m * 2 ^ e)) : -453 ≤ e ∧ e ≤ 347 := by
  obtain ⟨hle, hlt⟩ := (Nat.log2_eq_iff hm).1 hlog
  have hle' : (2 : ℝ) ^ (52 : ℤ) ≤ m := by exact_mod_cast hle
  have hlt' : (m : ℝ) < 2 ^ (53 : ℤ) := by exact_mod_cast hlt
  have hpos : (0 : ℝ) < 2 ^ e := zpow_pos two_pos e
  have hlow : (2 : ℝ) ^ (-400 : ℤ) < 2 ^ (53 + e) := by
    rw [zpow_add₀ two_ne_zero]
    exact h.1.trans_lt (mul_lt_mul_of_pos_right hlt' hpos)
  have hhigh : (2 : ℝ) ^ (52 + e) < 2 ^ (400 : ℤ) := by
    rw [zpow_add₀ two_ne_zero]
    exact (mul_le_mul_of_nonneg_right hle' hpos.le).trans_lt h.2
  have h₁ := (zpow_lt_zpow_iff_right₀ one_lt_two).1 hlow
  have h₂ := (zpow_lt_zpow_iff_right₀ one_lt_two).1 hhigh
  omega

/-- The quotient of two mantissas of 53 bits, computed to 53 bits or one more. -/
theorem divCore_eq {m₁ m₂ : ℕ} {e₁ e₂ : ℤ} (h₁ : m₁.log2 = 52) (h₂ : m₂.log2 = 52)
    (hlow : -1074 ≤ e₁ - e₂ - 53) : divCore Format.binary64 m₁ e₁ m₂ e₂ =
      ((m₁ <<< 53) / m₂, e₁ - e₂ - 53, accuracyOfFraction ((m₁ <<< 53) % m₂) m₂) := by
  have htarget : Format.binary64.targetExponent (totalExponent m₁ e₁ - totalExponent m₂ e₂) =
      e₁ - e₂ - 53 := by
    have hmin : Format.binary64.minExponent = -1074 := rfl
    have hbits : (Format.binary64.mantissaBits : ℤ) = 53 := rfl
    rw [Format.targetExponent, totalExponent, totalExponent, hmin, hbits, h₁, h₂]
    omega
  have hmin : min (e₁ - e₂) (e₁ - e₂ - 53) = e₁ - e₂ - 53 := by omega
  have hshift : (e₁ - e₂ - (e₁ - e₂ - 53)).toNat = 53 := by omega
  simp only [divCore, htarget, hmin, hshift]

/-- What the division has computed before it rounds. -/
theorem covers_div {n m : ℕ} (hm : 0 < m) :
    Covers (.ofMantissaAndAccuracy (n / m) (accuracyOfFraction (n % m) m)) (n / m : ℝ) := by
  have hpos : (0 : ℝ) < m := by exact_mod_cast hm
  refine covers_of_accuracy ?_ ?_ fun heq => ?_
  · rw [le_div_iff₀ hpos]
    exact_mod_cast Nat.div_mul_le_self n m
  · rw [div_lt_iff₀ hpos]
    exact_mod_cast lt_of_lt_of_eq (Nat.lt_mul_div_succ n hm) (Nat.mul_comm _ _)
  · rw [div_eq_iff hpos.ne'] at heq
    have heq' : n = n / m * m := by exact_mod_cast heq
    have hmod : n % m = 0 := by
      have := Nat.div_add_mod n m
      rw [Nat.mul_comm] at this
      omega
    rw [hmod, accuracyOfFraction, if_pos rfl]

theorem log2_quotient {m₁ m₂ : ℕ} (h₁ : m₁.log2 = 52) (h₂ : m₂.log2 = 52) (hpos₁ : 0 < m₁)
    (hpos₂ : 0 < m₂) : ∃ k, k ≤ 1 ∧ ((m₁ <<< 53) / m₂).log2 = 52 + k := by
  obtain ⟨hle₁, hlt₁⟩ := (Nat.log2_eq_iff (Nat.ne_of_gt hpos₁)).1 h₁
  obtain ⟨hle₂, hlt₂⟩ := (Nat.log2_eq_iff (Nat.ne_of_gt hpos₂)).1 h₂
  have hle : 2 ^ 52 ≤ (m₁ <<< 53) / m₂ := by
    rw [Nat.le_div_iff_mul_le hpos₂, Nat.shiftLeft_eq]
    omega
  have hlt : (m₁ <<< 53) / m₂ < 2 ^ 54 := by
    rw [Nat.div_lt_iff_lt_mul hpos₂, Nat.shiftLeft_eq]
    omega
  have hne : (m₁ <<< 53) / m₂ ≠ 0 := by omega
  obtain ⟨k, hk⟩ := Nat.exists_eq_add_of_le ((Nat.le_log2 hne).2 hle)
  have hk' := (Nat.log2_lt hne).2 hlt
  exact ⟨k, by omega, hk⟩

theorem hasValue_div {x y : Float} {v w : ℝ} (hx : HasValue x v) (hy : HasValue y w)
    (hv : InRange v) (hw : InRange w) : ∃ r, HasValue (x / y) r ∧ IsRounding (v / w) r := by
  obtain ⟨m₁, e₁, ⟨⟨hpos₁, hunpack₁⟩, hlog₁⟩, rfl⟩ := hx
  obtain ⟨m₂, e₂, ⟨⟨hpos₂, hunpack₂⟩, hlog₂⟩, rfl⟩ := hy
  obtain ⟨hlow₁, hhigh₁⟩ := exponent_inRange hlog₁ (Nat.ne_of_gt hpos₁) hv
  obtain ⟨hlow₂, hhigh₂⟩ := exponent_inRange hlog₂ (Nat.ne_of_gt hpos₂) hw
  have hdiv : x / y = ofUnpacked (UnpackedFloat.div Format.binary64 x.toModel.unpack
      y.toModel.unpack) := rfl
  have hsign : Sign.positive / Sign.positive = Sign.positive := rfl
  have hlow : -1074 ≤ e₁ - e₂ - 53 := by omega
  obtain ⟨k, hk, hlog⟩ := log2_quotient hlog₁ hlog₂ hpos₁ hpos₂
  obtain ⟨r, hvalue, hrounding⟩ := hasValue_round hlog (covers_div hpos₂) hlow (by omega)
  have hexact : ((m₁ <<< 53 : ℕ) / m₂ : ℝ) * 2 ^ (e₁ - e₂ - 53) =
      m₁ * 2 ^ e₁ / (m₂ * 2 ^ e₂) := by
    have h53 : (2 : ℝ) ^ (53 : ℤ) = 2 ^ 53 := zpow_natCast 2 53
    rw [Nat.shiftLeft_eq, zpow_sub₀ two_ne_zero, zpow_sub₀ two_ne_zero, h53, Nat.cast_mul,
      Nat.cast_pow, Nat.cast_ofNat]
    field_simp
  rw [hexact] at hrounding
  refine ⟨r, ?_, hrounding⟩
  rw [hdiv, hunpack₁, hunpack₂]
  simp only [UnpackedFloat.div, divCore_eq hlog₁ hlog₂ hlow, hsign]
  exact hvalue

/-- `std::lround`: the nearest integer, halves away from zero. -/
def lround (x : Float) : ℤ :=
  match x.toModel.unpack with
  | .finite s m e _ =>
      s.apply (if 0 ≤ e then m * 2 ^ e.toNat else (2 * m + 2 ^ (-e).toNat) / 2 ^ ((-e).toNat + 1))
  | _ => 0

theorem lround_eq {x : Float} {v : ℝ} (hx : HasValue x v) : lround x = ⌊v + 1 / 2⌋ := by
  obtain ⟨m, e, ⟨⟨hpos, hunpack⟩, -⟩, rfl⟩ := hx
  rw [lround, hunpack]
  show (if 0 ≤ e then (m : ℤ) * 2 ^ e.toNat else _) = _
  split_ifs with he
  · obtain ⟨n, rfl⟩ := Int.eq_ofNat_of_zero_le he
    symm
    rw [Int.floor_eq_iff, Int.toNat_natCast, zpow_natCast]
    push_cast
    constructor <;> linarith
  · obtain ⟨d, hd⟩ := Int.eq_ofNat_of_zero_le (show 0 ≤ -e by omega)
    obtain rfl : e = -(d : ℤ) := by omega
    have hvalue : (m : ℝ) * 2 ^ (-(d : ℤ)) + 1 / 2 =
        ((2 * m + 2 ^ d : ℤ) : ℝ) / (2 ^ (d + 1) : ℕ) := by
      rw [zpow_neg, zpow_natCast, pow_succ]
      push_cast
      field_simp
    rw [hvalue, Int.floor_div_natCast, Int.floor_intCast, hd, Int.toNat_natCast]
    push_cast
    rfl

/-- A positive number is not at most zero. -/
theorem not_le_zero {x : Float} {v : ℝ} (hx : HasValue x v) : ¬x ≤ 0 := by
  obtain ⟨m, e, ⟨⟨hpos, hunpack⟩, -⟩, rfl⟩ := hx
  have hle : x ≤ 0 ↔ x.toModel.unpack.le (0 : Float).toModel.unpack = true := decide_eq_true_iff
  have hzero : (0 : Float).toModel.unpack = .zero .positive := rfl
  rw [hle, hunpack, hzero]
  simp [UnpackedFloat.le, UnpackedFloat.compare]

end Binary64
