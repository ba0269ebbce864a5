import FacePipeline.Lib.Nearest
import FacePipeline.Trt.ScrfdDetector

/-!
# When every output is bound to its own stride

The stride of an output with `n` rows is computed as `round (W / √(n / 2))`. For an input of `W` by `H`
the exact quotient is `s * √(W / H)`, so that the result is `s` only while the width stays close to the
height; the rounded doubles decide this exactly as real numbers do (`half_le_iff`), because a quotient
that is not half an odd number is far from one. The largest stride is the first to move.
-/

namespace FacePipeline.Trt

open FacePipeline.Config Binary64

/-! ### The rounded quotient -/

section Quotient

variable {s w h p : ℕ} {f r : ℝ}

/-- Two roundings cost three units. -/
theorem quotient_bounds {q c W : ℝ} (hc : 0 < c) (hW : 0 < W) (hq : q = W / c)
    (hf : IsRounding c f) (hr : IsRounding (W / f) r) :
    q * (1 - 3 / 2 ^ 52) ≤ r ∧ r ≤ q * (1 + 3 / 2 ^ 52) := by
  obtain ⟨hf_low, hf_high⟩ := abs_le.1 hf.error
  obtain ⟨hr_low, hr_high⟩ := abs_le.1 hr.error
  have hf_pos : 0 < f := by linarith
  have hq_pos : 0 < q := hq ▸ div_pos hW hc
  have hqc : W = q * c := by rw [hq, div_mul_cancel₀ _ hc.ne']
  -- the quotient by the rounded root
  have hlow : q * (1 - 1 / 2 ^ 52) ≤ W / f := by
    rw [le_div_iff₀ hf_pos, hqc, mul_assoc]
    refine mul_le_mul_of_nonneg_left ?_ hq_pos.le
    nlinarith
  have hhigh : W / f ≤ q * (1 + 3 / 2 / 2 ^ 52) := by
    rw [div_le_iff₀ hf_pos, hqc, mul_assoc]
    refine mul_le_mul_of_nonneg_left ?_ hq_pos.le
    nlinarith
  constructor <;> nlinarith

/-- The exact quotient of an input of `s * w` by `s * h`. -/
theorem quotient_sq (hs : 0 < s) (hw : 0 < w) (hh : 0 < h) :
    ((s * w : ℝ) / √(w * h)) ^ 2 * h = s ^ 2 * w := by
  have hw' : (0 : ℝ) < w := by exact_mod_cast hw
  have hh' : (0 : ℝ) < h := by exact_mod_cast hh
  rw [div_pow, Real.sq_sqrt (by positivity)]
  field_simp

/-- **The comparison with a half is exact.** -/
theorem half_le_iff (hs : 0 < s) (hw : 0 < w) (hh : 0 < h) (hp : 0 < p)
    (hcop : Nat.Coprime (p ^ 2) (4 * s ^ 2)) (hsmall : p ^ 2 * h < 2 ^ 40)
    (hf : IsRounding √(w * h) f) (hr : IsRounding (s * w / f) r) :
    (p : ℝ) / 2 ≤ r ↔ p ^ 2 * h ≤ 4 * s ^ 2 * w := by
  have hw' : (0 : ℝ) < w := by exact_mod_cast hw
  have hh' : (0 : ℝ) < h := by exact_mod_cast hh
  have hs' : (0 : ℝ) < s := by exact_mod_cast hs
  have hp' : (0 : ℝ) < p := by exact_mod_cast hp
  have hc : 0 < √(w * h : ℝ) := Real.sqrt_pos.2 (by positivity)
  have hsmall' : (p : ℝ) ^ 2 * h < 2 ^ 40 := by exact_mod_cast hsmall
  obtain ⟨hlow, hhigh⟩ := quotient_bounds hc (by positivity) rfl hf hr
  have hq := quotient_sq hs hw hh
  have hq_pos : 0 < (s * w : ℝ) / √(w * h) := by positivity
  generalize (s * w : ℝ) / √(w * h) = q at *
  rcases lt_trichotomy (p ^ 2 * h) (4 * s ^ 2 * w) with hlt | heq | hgt
  · -- the exact quotient exceeds the half by more than the roundings take away
    refine iff_of_true (not_lt.1 fun hr_lt => ?_) hlt.le
    have hlt' : (p : ℝ) ^ 2 * h + 1 ≤ 4 * s ^ 2 * w := by exact_mod_cast hlt
    have hsq : (q * (1 - 3 / 2 ^ 52)) ^ 2 < (p / 2 : ℝ) ^ 2 :=
      pow_lt_pow_left₀ (hlow.trans_lt hr_lt) (by norm_num; positivity) two_ne_zero
    have hmul := mul_lt_mul_of_pos_right hsq hh'
    have hfar : 4 * (s ^ 2 * w : ℝ) * (1 - 3 / 2 ^ 52) ^ 2 < p ^ 2 * h := by
      rw [← hq]
      linarith
    norm_num at hfar hsmall'
    linarith
  · -- the half is reached: the root and the quotient are exact
    refine iff_of_true ?_ heq.le
    obtain ⟨k, rfl⟩ : p ^ 2 ∣ w := hcop.dvd_of_dvd_mul_left ⟨h, heq.symm⟩
    obtain rfl : h = 4 * s ^ 2 * k := by
      have hp2 : 0 < p ^ 2 := by positivity
      refine Nat.eq_of_mul_eq_mul_left hp2 (heq.trans ?_)
      ring
    have hroot : √((p ^ 2 * k : ℕ) * (4 * s ^ 2 * k : ℕ) : ℝ) = (2 * s * p * k : ℕ) := by
      rw [Real.sqrt_eq_iff_mul_self_eq (by positivity) (by positivity)]
      push_cast
      ring
    have hf_eq : f = (2 * s * p * k : ℕ) := by
      rw [← hroot]
      refine hf.exact ⟨2 * s * p * k, 0, ?_, by rw [hroot]; simp⟩
      have hle : 2 * s * p * k ≤ p ^ 2 * (4 * s ^ 2 * k) := by
        calc 2 * s * p * k = 2 * s * p * k * 1 := (Nat.mul_one _).symm
          _ ≤ 2 * s * p * k * (2 * s * p) := Nat.mul_le_mul_left _ (Nat.succ_le_of_lt (by positivity))
          _ = p ^ 2 * (4 * s ^ 2 * k) := by ring
      omega
    have hk : 0 < k := Nat.pos_of_mul_pos_left hw
    have hvalue : (s * (p ^ 2 * k : ℕ) : ℝ) / f = p / 2 := by
      have hk' : (0 : ℝ) < k := by exact_mod_cast hk
      rw [hf_eq]
      push_cast
      field_simp
    have hp_lt : p < 2 ^ 53 := by
      have hle : p ≤ p ^ 2 * (4 * s ^ 2 * k) := by
        calc p ≤ p * (p * (4 * s ^ 2 * k)) := Nat.le_mul_of_pos_right _ (by positivity)
          _ = p ^ 2 * (4 * s ^ 2 * k) := by ring
      omega
    rw [hr.exact ⟨p, -1, hp_lt, by rw [hvalue, zpow_neg_one]; ring⟩, hvalue]
  · refine iff_of_false (fun hr_le => ?_) (not_le.2 hgt)
    have hgt' : 4 * s ^ 2 * w + 1 ≤ (p : ℝ) ^ 2 * h := by exact_mod_cast hgt
    have hsq : (p / 2 : ℝ) ^ 2 ≤ (q * (1 + 3 / 2 ^ 52)) ^ 2 :=
      pow_le_pow_left₀ (by positivity) (hr_le.trans hhigh) 2
    have hmul := mul_le_mul_of_nonneg_right hsq hh'.le
    have hfar : p ^ 2 * h ≤ 4 * (s ^ 2 * w : ℝ) * (1 + 3 / 2 ^ 52) ^ 2 := by
      rw [← hq]
      linarith
    norm_num at hfar hsmall'
    linarith

end Quotient

/-! ### The stride of a number of rows -/

/-- The root that the loop divides by. -/
theorem exists_feat {w h : ℕ} (hw : 0 < w) (hh : 0 < h) (hsmall : w * h < 2 ^ 31) :
    ∃ f, HasValue (ofInt (h * w * kAnchorsPerLocation) / ofInt kAnchorsPerLocation).sqrt f ∧
      IsRounding √(w * h) f := by
  have hrows_pos : (0 : Int) < h * w * kAnchorsPerLocation := by
    have : 0 < h * w := Nat.mul_pos hh hw
    rw [kAnchorsPerLocation]
    omega
  have hcells : h * w < 2 ^ 31 := by rwa [Nat.mul_comm]
  have hcells' : (h * w : ℝ) < 2 ^ 31 := by exact_mod_cast hcells
  have hone : (1 : ℝ) ≤ h * w := by exact_mod_cast Nat.succ_le_of_lt (Nat.mul_pos hh hw)
  have hnum := hasValue_ofInt hrows_pos (by
    rw [kAnchorsPerLocation]
    omega)
  have hden := hasValue_ofInt (n := kAnchorsPerLocation) (by decide) (by decide)
  have hnum_eq : ((h * w * kAnchorsPerLocation : Int) : ℝ) = h * w * 2 := by
    rw [kAnchorsPerLocation]
    push_cast
    rfl
  have hden_eq : ((kAnchorsPerLocation : Int) : ℝ) = 2 := by
    rw [kAnchorsPerLocation]
    norm_num
  rw [hnum_eq] at hnum
  rw [hden_eq] at hden
  obtain ⟨c, hc, hc_rounding⟩ := hasValue_div hnum hden
    (inRange_of_bounds (by linarith) (by linarith)) (inRange_of_bounds (by norm_num) (by norm_num))
  rw [mul_div_cancel_right₀ _ two_ne_zero] at hc_rounding
  rw [hc_rounding.exact ⟨h * w, 0, by omega, by simp⟩, mul_comm (h : ℝ)] at hc
  obtain ⟨f, hf, hnearest⟩ := sqrt_nearest hc (inRange_of_bounds (by linarith) (by linarith))
  exact ⟨f, hf, hnearest.isRounding (Real.sqrt_nonneg _)⟩

/-- An output of stride `s` is bound to `s` exactly when the quotient rounds to `s`. -/
theorem bindingStride_eq_iff {W : UInt32} {s w h : ℕ} (hs : s ∈ [8, 16, 32]) (hW : W.toNat = s * w)
    (hw : 0 < w) (hh : 0 < h) (hsmall : 3 * (s * h * (s * w)) < 2 ^ 31) :
    bindingStride W (h * w * kAnchorsPerLocation) = some (s : Int) ↔
      (2 * s - 1) ^ 2 * h ≤ 4 * s ^ 2 * w ∧ 4 * s ^ 2 * w < (2 * s + 1) ^ 2 * h := by
  have hs_pos : 8 ≤ s ∧ s ≤ 32 := by
    simp only [List.mem_cons, List.not_mem_nil, or_false] at hs
    omega
  have hcop : ∀ s ∈ [8, 16, 32], Nat.Coprime ((2 * s - 1) ^ 2) (4 * s ^ 2) ∧
      Nat.Coprime ((2 * s + 1) ^ 2) (4 * s ^ 2) := by decide
  have hcells : w * h ≤ s * h * (s * w) := by
    calc w * h = h * w := Nat.mul_comm _ _
      _ ≤ s * h * (s * w) := Nat.mul_le_mul (Nat.le_mul_of_pos_left _ (by omega))
          (Nat.le_mul_of_pos_left _ (by omega))
  have hh_le : h * 8 * 8 ≤ s * h * (s * w) := by
    rw [Nat.mul_comm h 8]
    exact Nat.mul_le_mul (Nat.mul_le_mul_right h hs_pos.1)
      (hs_pos.1.trans (Nat.le_mul_of_pos_right s hw))
  have hsmall' : ∀ p ≤ 65, p ^ 2 * h < 2 ^ 40 := fun p hp => by
    have hle : p ^ 2 * h ≤ 65 ^ 2 * h := Nat.mul_le_mul_right h (Nat.pow_le_pow_left hp 2)
    omega
  have hW_le : s * w ≤ s * h * (s * w) := Nat.le_mul_of_pos_left _ (Nat.mul_pos (by omega) hh)
  obtain ⟨f, hfeat, hf⟩ := exists_feat hw hh (by omega)
  have hrows_pos : ¬(h * w * kAnchorsPerLocation : Int) ≤ 0 := by
    have : 0 < h * w := Nat.mul_pos hh hw
    rw [kAnchorsPerLocation]
    omega
  have hW_pos : 0 < s * w := Nat.mul_pos (by omega) hw
  have hwidth : HasValue (ofInt W.toNat) (s * w : ℕ) := by
    rw [hW]
    exact_mod_cast hasValue_ofInt (n := (s * w : ℕ)) (by omega) (by omega)
  -- the root lies between one and the number of cells
  have hone : (1 : ℝ) ≤ √(w * h) := by
    rw [Real.one_le_sqrt]
    exact_mod_cast Nat.succ_le_of_lt (Nat.mul_pos hw hh)
  have hroot : √(w * h : ℝ) ≤ 2 ^ 31 := by
    rw [Real.sqrt_le_left (by norm_num)]
    have : w * h ≤ (2 ^ 31) ^ 2 := by omega
    exact_mod_cast this
  obtain ⟨hf_low, hf_high⟩ := abs_le.1 hf.error
  have hW_real : ((s * w : ℕ) : ℝ) < 2 ^ 30 := by
    have : s * w < 2 ^ 30 := by omega
    exact_mod_cast this
  have hW_one : (1 : ℝ) ≤ (s * w : ℕ) := by exact_mod_cast hW_pos
  obtain ⟨r, hquotient, hr⟩ := hasValue_div hwidth hfeat
    (inRange_of_bounds (by linarith) (by linarith)) (inRange_of_bounds (by linarith) (by linarith))
  obtain ⟨hr_low, hr_high⟩ := quotient_bounds (zero_lt_one.trans_le hone)
    (zero_lt_one.trans_le hW_one) rfl hf hr
  have hq_le : ((s * w : ℕ) : ℝ) / √(w * h) ≤ (s * w : ℕ) := div_le_self (by linarith) hone
  have hq_pos : 0 < ((s * w : ℕ) : ℝ) / √(w * h) := div_pos (by linarith) (by linarith)
  have hr_pos : 0 < r := lt_of_lt_of_le (mul_pos hq_pos (by norm_num)) hr_low
  have hstride_pos : 0 ≤ ⌊r + 1 / 2⌋ := Int.floor_nonneg.2 (by linarith)
  have hstride_lt : ⌊r + 1 / 2⌋ < 2 ^ 31 := by
    rw [Int.floor_lt]
    push_cast
    linarith
  have hodd : ((2 * s - 1 : ℕ) : ℝ) = 2 * s - 1 := by
    rw [Nat.cast_sub (by omega)]
    push_cast
    rfl
  rw [Nat.cast_mul] at hr
  have hlow := half_le_iff (by omega) hw hh (by omega) (hcop s hs).1 (hsmall' _ (by omega)) hf hr
  have hhigh := half_le_iff (by omega) hw hh (by omega) (hcop s hs).2 (hsmall' _ (by omega)) hf hr
  have hfloor : ⌊r + 1 / 2⌋ = (s : Int) ↔ ((2 * s - 1 : ℕ) : ℝ) / 2 ≤ r ∧
      ¬((2 * s + 1 : ℕ) : ℝ) / 2 ≤ r := by
    rw [Int.floor_eq_iff, hodd, not_le]
    push_cast
    constructor <;> rintro ⟨h₁, h₂⟩ <;> constructor <;> linarith
  simp only [bindingStride]
  rw [if_neg hrows_pos, if_neg (not_le_zero hfeat), lround_eq hquotient,
    castInt_eq hstride_pos hstride_lt, ← not_le, ← hlow, ← hhigh, ← hfloor]
  split_ifs with hzero
  · simp only [false_iff]
    omega
  · rw [Option.some.injEq]

/-! ### The engines of the export -/

/-- The trailing dimensions of the three outputs of a stride. -/
def kOutputDims : List Int := [kScoreDim, kBboxDim, kKpsDim]

/-- The output of a stride with that trailing dimension. -/
def StrideBindings.output (names : StrideBindings) (last : Int) : String :=
  if last = kScoreDim then names.score else if last = kBboxDim then names.bbox else names.kps

/-- Names and shapes of the outputs, with `count s` rows for stride `s`. -/
def expectedOutputs (count : Int → Int) (names : Int → StrideBindings) :
    List (String × List Int) :=
  kStrides.flatMap fun s => kOutputDims.map fun last => ((names s).output last, [count s, last])

/-- The input comes first; the outputs come in any order and under any names. -/
structure IsScrfdEngine {F : Type} (cfg : DetectionConfig F) (engine : CudaEngine)
    (count : Int → Int) (names : Int → StrideBindings) : Prop where
  anchorCount : ∀ s ∈ kStrides, anchorCount cfg.inputWidth.toNat cfg.inputHeight.toNat s
    kAnchorsPerLocation = .ok (count s)
  tensors : ∃ input outputs, engine.tensors = input :: outputs ∧ input.isInput = true ∧
    (∀ t ∈ outputs, t.isInput = false) ∧
    (outputs.map fun t => (t.name, t.dims)).Perm (expectedOutputs count names)

section Names

variable {F : Type} {cfg : DetectionConfig F} {det : SCRFDDetector F} {input : IOTensor}
  {rest : List IOTensor} {count : Int → Int} {names : Int → StrideBindings}

theorem IsScrfdEngine.output (h : IsScrfdEngine cfg det.engine.engine count names) {t : IOTensor}
    (ht : t ∈ det.engine.engine.tensors) (hout : t.isInput = false) :
    ∃ s ∈ kStrides, ∃ last ∈ kOutputDims, t.name = (names s).output last ∧
      t.dims = [count s, last] := by
  obtain ⟨input, outputs, htensors, hinput, _, hperm⟩ := h.tensors
  have hmem : t ∈ outputs := by
    rw [htensors, List.mem_cons] at ht
    refine ht.resolve_left fun heq => ?_
    rw [heq, hinput] at hout
    cases hout
  have hexpected := hperm.mem_iff.1 (List.mem_map_of_mem hmem)
  simp only [expectedOutputs, List.mem_flatMap, List.mem_map, Prod.mk.injEq] at hexpected
  obtain ⟨s, hs, last, hlast, hname, hdims⟩ := hexpected
  exact ⟨s, hs, last, hlast, hname.symm, hdims.symm⟩

theorem IsScrfdEngine.exists_output (h : IsScrfdEngine cfg det.engine.engine count names)
    {s last : Int} (hs : s ∈ kStrides) (hlast : last ∈ kOutputDims) : ∃ t ∈ det.engine.engine.tensors,
      t.isInput = false ∧ t.name = (names s).output last ∧ t.dims = [count s, last] := by
  obtain ⟨input, outputs, htensors, _, houtputs, hperm⟩ := h.tensors
  have hexpected : ((names s).output last, [count s, last]) ∈ expectedOutputs count names :=
    List.mem_flatMap.2 ⟨s, hs, List.mem_map_of_mem hlast⟩
  obtain ⟨t, ht, heq⟩ := List.mem_map.1 (hperm.mem_iff.2 hexpected)
  rw [Prod.mk.injEq] at heq
  exact ⟨t, htensors ▸ List.mem_cons_of_mem _ ht, houtputs t ht, heq⟩

/-- All three outputs of a stride resolve alike. -/
theorem strideOf_output {t : IOTensor} {s last : Int} (hout : t.isInput = false)
    (hdims : t.dims = [count s, last]) :
    strideOf cfg.inputWidth (bindingInfo t) = bindingStride cfg.inputWidth (count s) := by
  have hout' : (bindingInfo t).isInput ≠ true := by
    show t.isInput ≠ true
    rw [hout]
    exact Bool.false_ne_true
  have hshape : (bindingInfo t).shape = [count s, last] := hdims
  rw [strideOf, if_neg hout', hshape]

/-- The output that counts for a stride and a trailing dimension is one of that dimension. -/
theorem IsScrfdEngine.lastTensor_eq (h : IsScrfdEngine cfg det.engine.engine count names)
    {k last : Int} {t : IOTensor} (hlast : last ∈ kOutputDims)
    (ht : lastTensor cfg det.engine.engine k last = some t) :
    ∃ s ∈ kStrides, bindingStride cfg.inputWidth (count s) = some k ∧
      t.name = (names s).output last ∧ t.dims = [count s, last] := by
  obtain ⟨hmem, hout, hstride, hgetLast⟩ := lastTensor_some ht
  obtain ⟨s, hs, last', _, hname, hdims⟩ := h.output hmem hout
  rw [hdims] at hgetLast
  obtain rfl : last' = last := by simpa using hgetLast
  exact ⟨s, hs, (strideOf_output hout hdims).symm.trans hstride, hname, hdims⟩

/-- A stride that some output resolves to has all three. -/
theorem IsScrfdEngine.exists_lastTensor (h : IsScrfdEngine cfg det.engine.engine count names)
    {s k last : Int} (hs : s ∈ kStrides) (hk : bindingStride cfg.inputWidth (count s) = some k)
    (hlast : last ∈ kOutputDims) : ∃ t, lastTensor cfg det.engine.engine k last = some t := by
  obtain ⟨t, ht, hout, _, hdims⟩ := h.exists_output hs hlast
  refine Option.isSome_iff_exists.1 (List.find?_isSome.2 ⟨t, List.mem_reverse.2 ht, ?_⟩)
  rw [decide_eq_true_eq, strideOf_output hout hdims, hdims]
  exact ⟨hk, rfl⟩

/-- The keys are the strides, and the entry of a stride names its three outputs. -/
def namedBindings (names : Int → StrideBindings) : OrderedMap Int StrideBindings :=
  ⟨kStrides.map fun s => (s, names s), by simp [kStrides]⟩

theorem find?_namedBindings (k : Int) :
    (namedBindings names).find? k = if k ∈ kStrides then some (names k) else none := by
  show (kStrides.map fun s => (s, names s)).lookup k = _
  simp only [kStrides, List.map_cons, List.map_nil, OrderedMap.lookup_cons, List.lookup_nil,
    List.mem_cons, List.not_mem_nil, or_false]
  split_ifs <;> simp_all

/-- When every stride resolves to itself, the last output of a stride and a dimension is its own. -/
theorem IsScrfdEngine.tensorName_eq (h : IsScrfdEngine cfg det.engine.engine count names)
    (hself : ∀ s ∈ kStrides, bindingStride cfg.inputWidth (count s) = some s) {k last : Int}
    (hk : k ∈ kStrides) (hlast : last ∈ kOutputDims) :
    tensorName (lastTensor cfg det.engine.engine k last) = (names k).output last := by
  obtain ⟨t, ht⟩ := h.exists_lastTensor hk (hself k hk) hlast
  obtain ⟨s, hs, hstride, hname, _⟩ := h.lastTensor_eq hlast ht
  rw [hself s hs, Option.some.injEq] at hstride
  rw [ht, ← hstride, ← hname]
  rfl

theorem resolved_of_self (hdet : Constructed cfg det input rest)
    (h : IsScrfdEngine cfg det.engine.engine count names)
    (hself : ∀ s ∈ kStrides, bindingStride cfg.inputWidth (count s) = some s) :
    det.strideBindings = namedBindings names := by
  refine OrderedMap.ext_find? fun k => ?_
  rw [hdet.find?_strideBindings, find?_namedBindings]
  by_cases hk : k ∈ kStrides
  · obtain ⟨t, ht⟩ := h.exists_lastTensor hk (hself k hk) (List.mem_cons_self : kScoreDim ∈ _)
    obtain ⟨hmem, _, hstride, _⟩ := lastTensor_some ht
    rw [if_pos ⟨t, hmem, hstride⟩, if_pos hk, h.tensorName_eq hself hk (by decide),
      h.tensorName_eq hself hk (by decide), h.tensorName_eq hself hk (by decide)]
    rfl
  · rw [if_neg hk, if_neg]
    rintro ⟨t, ht, hstride⟩
    have hout := isOutput_of_strideOf hstride
    obtain ⟨s, hs, last, _, _, hdims⟩ := h.output ht hout
    rw [strideOf_output hout hdims, hself s hs, Option.some.injEq] at hstride
    exact hk (hstride ▸ hs)

/-- A tensor name occurs once, so that an entry with the right score output was resolved from it. -/
theorem self_of_resolved (hdet : Constructed cfg det input rest)
    (h : IsScrfdEngine cfg det.engine.engine count names)
    (hresolved : det.strideBindings = namedBindings names) {k : Int} (hk : k ∈ kStrides) :
    bindingStride cfg.inputWidth (count k) = some k := by
  have hentry := hdet.find?_strideBindings k
  rw [hresolved, find?_namedBindings, if_pos hk] at hentry
  split_ifs at hentry with hexists
  obtain ⟨t, ht, hstride⟩ := hexists
  have hout := isOutput_of_strideOf hstride
  obtain ⟨s, hs, last, _, _, hdims⟩ := h.output ht hout
  rw [strideOf_output hout hdims] at hstride
  -- the score output that is listed for `k` has the name of the one of `k` itself
  obtain ⟨t', ht'⟩ := h.exists_lastTensor hs hstride (List.mem_cons_self : kScoreDim ∈ _)
  obtain ⟨s', _, hstride', _, hdims'⟩ := h.lastTensor_eq List.mem_cons_self ht'
  obtain ⟨own, hown, _, hown_name, hown_dims⟩ :=
    h.exists_output hk (List.mem_cons_self : kScoreDim ∈ _)
  have hname : t'.name = own.name := by
    have hscore := congrArg StrideBindings.score (Option.some.inj hentry)
    rw [ht'] at hscore
    rw [hown_name]
    exact hscore.symm
  have heq := List.inj_on_of_nodup_map det.engine.engine.nodup (lastTensor_some ht').1 hown hname
  rw [heq, hown_dims] at hdims'
  rw [(List.cons.inj hdims').1]
  exact hstride'

end Names

/-! ### Which sizes are safe -/

/-- Stride `s` of an input whose sides it divides. -/
theorem self_iff {W H : UInt32} {s a b : ℕ} (hs : s ∈ [8, 16, 32]) (hW : W.toNat = s * a)
    (hH : H.toNat = s * b) (ha : 0 < a) (hb : 0 < b) (hsmall : 3 * (H.toNat * W.toNat) < 2 ^ 31) :
    bindingStride W (anchors W.toNat H.toNat s) = some (s : Int) ↔
      (2 * s - 1) ^ 2 * H.toNat ≤ 4 * s ^ 2 * W.toNat ∧
        4 * s ^ 2 * W.toNat < (2 * s + 1) ^ 2 * H.toNat := by
  have hs_pos : 0 < s := by
    simp only [List.mem_cons, List.not_mem_nil, or_false] at hs
    omega
  have hrows : anchors W.toNat H.toNat s = b * a * kAnchorsPerLocation := by
    have hne : (s : Int) ≠ 0 := by omega
    rw [anchors, hW, hH]
    push_cast
    rw [Int.mul_tdiv_cancel_left _ hne, Int.mul_tdiv_cancel_left _ hne]
  rw [hW, hH] at hsmall
  rw [hrows, bindingStride_eq_iff hs hW ha hb hsmall, hW, hH]
  have hscale : ∀ m n : ℕ, m * (s * b) ≤ n * (s * a) ↔ m * b ≤ n * a := fun m n => by
    rw [Nat.mul_left_comm, Nat.mul_left_comm n, Nat.mul_le_mul_left_iff hs_pos]
  rw [hscale, ← not_le, ← not_le, hscale]

/-- **Every output is bound to its own stride exactly when the input is nearly square.** -/
theorem strideBindings_iff {F : Type} [LE F] [DecidableLE F] [Zero F] [One F] [ToString F]
    (malloc : Malloc) (cfg : DetectionConfig F) (file : EngineFile) (det : SCRFDDetector F)
    (count : Int → Int) (names : Int → StrideBindings) (hvalid : cfg.validate = .ok ())
    (hnew : SCRFDDetector.new malloc cfg file = .ok det)
    (hengine : IsScrfdEngine cfg det.engine.engine count names) :
    det.strideBindings = namedBindings names ↔
      3969 * cfg.inputHeight.toNat ≤ 4096 * cfg.inputWidth.toNat ∧
        4096 * cfg.inputWidth.toNat < 4225 * cfg.inputHeight.toNat := by
  obtain ⟨input, rest, hdet⟩ := new_constructed hnew
  have hcfg := DetectionConfig.validate_ok.1 hvalid
  obtain ⟨a, ha⟩ : 32 ∣ cfg.inputWidth.toNat :=
    Nat.dvd_of_mod_eq_zero (congrArg UInt32.toNat hcfg.width_mod)
  obtain ⟨b, hb⟩ : 32 ∣ cfg.inputHeight.toNat :=
    Nat.dvd_of_mod_eq_zero (congrArg UInt32.toNat hcfg.height_mod)
  have ha_pos : 0 < a := Nat.pos_of_ne_zero fun h0 =>
    hcfg.width_pos (UInt32.toNat_inj.1 (by simp [ha, h0]))
  have hb_pos : 0 < b := Nat.pos_of_ne_zero fun h0 =>
    hcfg.height_pos (UInt32.toNat_inj.1 (by simp [hb, h0]))
  have hsmall : 3 * (cfg.inputHeight.toNat * cfg.inputWidth.toNat) < 2 ^ 31 := by
    simpa [elements] using hdet.small
  have hself : (∀ s ∈ kStrides, bindingStride cfg.inputWidth (count s) = some s) ↔
      ∀ s ∈ kStrides, bindingStride cfg.inputWidth
        (anchors cfg.inputWidth.toNat cfg.inputHeight.toNat s) = some s := by
    refine forall₂_congr fun s hs => ?_
    obtain ⟨_, hcount, _⟩ := anchorCount_eq (hengine.anchorCount s hs)
    rw [hcount, anchors]
  have h8 := self_iff (s := 8) (a := 4 * a) (b := 4 * b) (by decide) (by omega) (by omega) (by omega)
    (by omega) hsmall
  have h16 := self_iff (s := 16) (a := 2 * a) (b := 2 * b) (by decide) (by omega) (by omega) (by omega)
    (by omega) hsmall
  have h32 := self_iff (s := 32) (by decide) ha hb ha_pos hb_pos hsmall
  have hresolved : det.strideBindings = namedBindings names ↔
      ∀ s ∈ kStrides, bindingStride cfg.inputWidth (count s) = some s :=
    ⟨fun h s hs => self_of_resolved hdet hengine h hs, resolved_of_self hdet hengine⟩
  rw [hresolved, hself]
  simp only [kStrides, List.forall_mem_cons, List.not_mem_nil, false_imp_iff, implies_true,
    and_true]
  push_cast at h8 h16 h32
  rw [h8, h16, h32]
  omega

/-! ### Two input sizes -/

/-- The names of the stock export. -/
def scrfdNames (s : Int) : StrideBindings :=
  if s = 8 then ⟨"448", "451", "454"⟩ else if s = 16 then ⟨"471", "474", "477"⟩
  else ⟨"494", "497", "500"⟩

theorem isScrfdEngine_square :
    IsScrfdEngine (detectionConfig 640 640) squareEngine (anchors 640 640) scrfdNames :=
  ⟨by decide +kernel, _, _, rfl, rfl, by decide +kernel, by decide +kernel⟩

theorem isScrfdEngine_portrait :
    IsScrfdEngine (detectionConfig 480 640) portraitEngine (anchors 480 640) scrfdNames :=
  ⟨by decide +kernel, _, _, rfl, rfl, by decide +kernel, by decide +kernel⟩

theorem strideBindings_square : ∃ det,
    SCRFDDetector.new (fun _ _ => none) (detectionConfig 640 640) (engineFile squareEngine) =
      .ok det ∧ det.strideBindings = namedBindings scrfdNames := by
  obtain ⟨det, hnew, hengine⟩ : ∃ det, SCRFDDetector.new (fun _ _ => none) (detectionConfig 640 640)
      (engineFile squareEngine) = .ok det ∧ det.engine.engine = squareEngine := ⟨_, rfl, rfl⟩
  refine ⟨det, hnew, (strideBindings_iff _ _ _ det (anchors 640 640) scrfdNames (by decide +kernel)
    hnew ?_).2 (by decide)⟩
  rw [hengine]
  exact isScrfdEngine_square

/-- At 480x640 the outputs of stride 8 resolve to stride 7, those of 16 to 14, and those of 32
to 28. -/
theorem strideBindings_portrait : ∃ det, (detectionConfig 480 640).validate = .ok () ∧
    SCRFDDetector.new (fun _ _ => none) (detectionConfig 480 640) (engineFile portraitEngine) =
      .ok det ∧
    IsScrfdEngine (detectionConfig 480 640) det.engine.engine (anchors 480 640) scrfdNames ∧
    det.strideBindings ≠ namedBindings scrfdNames ∧
    det.strideBindings.entries.map Prod.fst = [7, 14, 28] := by
  obtain ⟨det, hnew, hengine, hkeys⟩ : ∃ det, SCRFDDetector.new (fun _ _ => none)
      (detectionConfig 480 640) (engineFile portraitEngine) = .ok det ∧
      det.engine.engine = portraitEngine ∧ det.strideBindings.entries.map Prod.fst = [7, 14, 28] :=
    ⟨_, rfl, rfl, by decide +kernel⟩
  refine ⟨det, by decide +kernel, hnew, hengine ▸ isScrfdEngine_portrait, fun heq => ?_, hkeys⟩
  rw [heq] at hkeys
  exact absurd hkeys (by decide)

end FacePipeline.Trt
