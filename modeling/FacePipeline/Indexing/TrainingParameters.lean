import FacePipeline.Indexing.FaissSearcher
import FacePipeline.Lib.Nearest

/-!
# What `build` trains

The index type and the number of cells come from the configuration and the size of the gallery. A configured
number of cells is used as it is, and the automatic one is computed in doubles and truncated to 32 bits: the root is
rounded to nearest, which for galleries below `2 ^ 48 + 2 ^ 23` stays on the right side of every integer, and below
`2 ^ 60 - 64` fits.
-/

namespace FacePipeline.Indexing

open FacePipeline.Config Binary64

/-! ### The root -/

/-- `4.0 * std::sqrt(static_cast<double>(n))`, truncated. -/
def nlistRoot (n : ℕ) : ℕ :=
  (4.0 * Float.sqrt (Float.ofNat n)).toUInt64.toNat

theorem hasValue_four : HasValue 4.0 4 :=
  ⟨2 ^ 52, -50, ⟨⟨by decide, rfl⟩, by decide⟩, by norm_num⟩

/-- The double of the size, its root and four times that. -/
theorem nlistRoot_eq {n : ℕ} (hpos : 0 < n) (hlt : n < 2 ^ 64) : ∃ (x y : Float) (a r : ℝ),
    HasValue x a ∧ IsNearest n a ∧ HasValue y r ∧ IsNearest (√a) r ∧ nlistRoot n = ⌊4 * r⌋₊ := by
  have hone : (1 : ℝ) ≤ n := by exact_mod_cast hpos
  have hlt' : (n : ℝ) < 2 ^ 64 := by exact_mod_cast hlt
  obtain ⟨a, hx, hnear⟩ := hasValue_ofNat hpos hlt
  obtain ⟨hlow, hhigh⟩ := hnear.bounds (by linarith)
  obtain ⟨r, hy, hnear'⟩ := sqrt_nearest hx (inRange_of_bounds (by linarith) (by linarith))
  have hroot : 1 / 2 ≤ √a := Real.le_sqrt_of_sq_le (by linarith)
  have hroot' : √a ≤ 2 ^ 33 := Real.sqrt_le_iff.2 ⟨by norm_num, by linarith⟩
  obtain ⟨hlow', hhigh'⟩ := hnear'.bounds (by linarith)
  obtain ⟨q, hq, hnear''⟩ := hasValue_mul hasValue_four hy (inRange_of_bounds (by norm_num) (by norm_num))
    (inRange_of_bounds (by linarith) (by linarith))
  obtain rfl := hnear''.exact hy.representable_four_mul
  exact ⟨_, _, a, r, hx, hnear, hy, hnear', toUInt64_eq hq (by linarith)⟩

theorem nlistRoot_lt {n : ℕ} (hpos : 0 < n) (hlt : n < 2 ^ 60 - 64) : nlistRoot n < 2 ^ 32 := by
  obtain ⟨x, y, a, r, hx, hnear, hy, hnear', hroot⟩ := nlistRoot_eq hpos (by omega)
  have hn : (n : ℝ) < (2 ^ 53 - 1 / 2) * 2 ^ (7 : ℤ) := by
    have hcast : (n : ℝ) < (2 ^ 60 - 64 : ℕ) := by exact_mod_cast hlt
    norm_num at hcast ⊢
    exact hcast
  have ha := hnear.le_pred hx hn
  have hsqrt : √a < (2 ^ 53 - 1 / 2) * 2 ^ (-23 : ℤ) := by
    rw [Real.sqrt_lt' (by norm_num)]
    refine ha.trans_lt ?_
    norm_num
  have hr := hnear'.le_pred hy hsqrt
  rw [hroot, Nat.floor_lt' (by norm_num)]
  refine (mul_le_mul_of_nonneg_left hr (by norm_num)).trans_lt ?_
  norm_num

/-- The root is not rounded up to an integer above `4 * sqrt(n)`. -/
theorem nlistRoot_sq_le {n : ℕ} (hpos : 0 < n) (hlt : n < 2 ^ 48 + 2 ^ 23) : nlistRoot n ^ 2 ≤ 16 * n := by
  obtain ⟨x, y, a, r, hx, hnear, hy, hnear', hroot⟩ := nlistRoot_eq hpos (by omega)
  have hexact : a = n := hnear.exact ⟨n, 0, by omega, by simp⟩
  rw [hexact] at hnear'
  have hnonneg : 0 ≤ √(n : ℝ) := Real.sqrt_nonneg _
  have hr : 0 ≤ r := by linarith [(hnear'.bounds hnonneg).1]
  have hfloor : (nlistRoot n : ℝ) ≤ 4 * r := hroot ▸ Nat.floor_le (by linarith)
  have hupper : r ≤ √(n : ℝ) * ((2 ^ 53 + 1) / 2 ^ 53) := by
    have herror := (abs_le.1 hnear'.error).2
    linarith
  have hsquare : (nlistRoot n : ℝ) ^ 2 ≤ 16 * n * ((2 ^ 53 + 1) / 2 ^ 53) ^ 2 := by
    calc (nlistRoot n : ℝ) ^ 2 ≤ (4 * (√(n : ℝ) * ((2 ^ 53 + 1) / 2 ^ 53))) ^ 2 := by
          refine pow_le_pow_left₀ (Nat.cast_nonneg _) ?_ 2
          linarith
      _ = 16 * (√(n : ℝ)) ^ 2 * ((2 ^ 53 + 1) / 2 ^ 53) ^ 2 := by ring
      _ = 16 * n * ((2 ^ 53 + 1) / 2 ^ 53) ^ 2 := by rw [Real.sq_sqrt (Nat.cast_nonneg n)]
  have hcleared : nlistRoot n ^ 2 * 2 ^ 106 ≤ 16 * n * (2 ^ 53 + 1) ^ 2 := by
    rw [div_pow, mul_div_assoc', le_div_iff₀ (by positivity), ← pow_mul] at hsquare
    exact_mod_cast hsquare
  -- the square of an integer above the root is too far above `16 * n`
  by_contra hgt
  rw [not_le] at hgt
  rcases lt_or_ge n (2 ^ 48) with hsmall | hlarge
  · omega
  · have hnext : 2 ^ 26 + 1 ≤ nlistRoot n := by
      by_contra hle
      have hbound : nlistRoot n ^ 2 ≤ (2 ^ 26) ^ 2 := Nat.pow_le_pow_left (by omega) 2
      omega
    have hbound := Nat.pow_le_pow_left hnext 2
    omega

/-! ### The automatic number of cells -/

/-- The bounds of the heuristic. -/
structure InHeuristic (n nlist : ℕ) : Prop where
  pos : 1 ≤ nlist
  points : nlist = 1 ∨ 39 * nlist ≤ n
  root : n < 2 ^ 48 + 2 ^ 23 → nlist ^ 2 ≤ 16 * n

theorem defaultNlist_toNat {n : ℕ} (hpos : 0 < n) (hlt : n < 2 ^ 60 - 64) :
    (defaultNlist n).toNat = max 1 (min (nlistRoot n) (n / 39)) := by
  have hroot := nlistRoot_lt hpos hlt
  have hdefault : defaultNlist n = UInt32.ofNat (max 1 (min (nlistRoot n) (n / 39))) := by
    rw [defaultNlist, if_neg hpos.ne']
    rfl
  rw [hdefault, UInt32.toNat_ofNat']
  apply Nat.mod_eq_of_lt
  omega

theorem defaultNlist_inHeuristic {n : ℕ} (hpos : 0 < n) (hlt : n < 2 ^ 60 - 64) :
    InHeuristic n (defaultNlist n).toNat := by
  rw [defaultNlist_toNat hpos hlt]
  refine ⟨le_max_left _ _, by omega, fun hsmall => ?_⟩
  have hsquare := nlistRoot_sq_le hpos hsmall
  rcases max_choice 1 (min (nlistRoot n) (n / 39)) with hmax | hmax
  · rw [hmax]
    omega
  · rw [hmax]
    exact (Nat.pow_le_pow_left (min_le_left _ _) 2).trans hsquare

theorem InHeuristic.le {n nlist : ℕ} (h : InHeuristic n nlist) (hpos : 0 < n) : nlist ≤ n := by
  rcases h.points with hone | hpoints
  · omega
  · omega

/-! ### Which galleries can be trained -/

section Training
variable {F : Type}

theorem chosenType_eq_ivfPQ {cfg : FaissConfig} {n : ℕ} :
    chosenType cfg n = .ivfPQ ↔ cfg.indexType = .ivfPQ ∧ cfg.ivfPqMinSize.toNat ≤ n := by
  unfold chosenType
  split_ifs with h
  · refine iff_of_false (by simp) fun hpq => ?_
    omega
  · rw [iff_self_and]
    intro hpq
    by_contra hlt
    exact h ⟨hpq, not_le.1 hlt⟩

theorem chosenNlist_configured {cfg : FaissConfig} {n : ℕ} (h : cfg.nlist ≠ 0) : chosenNlist cfg n = cfg.nlist := by
  unfold chosenNlist
  rw [if_pos (UInt32.pos_iff_ne_zero.2 h)]

theorem chosenNlist_automatic {cfg : FaissConfig} {n : ℕ} (h : cfg.nlist = 0) : chosenNlist cfg n = defaultNlist n := by
  unfold chosenNlist
  rw [h]
  rfl

/-- A configured number of cells must not exceed the gallery; the automatic one does not. -/
theorem chosenNlist_fits {cfg : FaissConfig} {n : ℕ} (hpos : 0 < n) (hauto : cfg.nlist = 0 → n < 2 ^ 60 - 64) :
    chosenNlist cfg n ≠ 0 ∧ (chosenNlist cfg n).toNat ≤ n ↔ cfg.nlist.toNat ≤ n := by
  by_cases h : cfg.nlist = 0
  · have hgood := defaultNlist_inHeuristic hpos (hauto h)
    have hne : defaultNlist n ≠ 0 := by
      intro hzero
      have hone := hgood.pos
      rw [hzero] at hone
      exact absurd hone (by decide)
    rw [chosenNlist_automatic h, h]
    exact iff_of_true ⟨hne, hgood.le hpos⟩ (Nat.zero_le n)
  · rw [chosenNlist_configured h]
    exact and_iff_right h

/-- **Which galleries can be trained.** Those with at least as many vectors as configured cells, and with 256 vectors
where the product quantizer is chosen; the automatic number of cells is within the bounds of its heuristic. -/
theorem trainable_iff (cfg : FaissConfig) (embeddingDim : UInt32) (embeddings : MatrixXf F)
    (hvalid : cfg.validate embeddingDim = .ok ()) (hrows : embeddings.rows = embeddingDim.toNat)
    (hpos : 0 < embeddings.cols) (hauto : cfg.nlist = 0 → embeddings.cols < 2 ^ 60 - 64) :
    (Trainable cfg embeddings ↔ cfg.nlist.toNat ≤ embeddings.cols ∧
      (cfg.indexType = .ivfPQ → cfg.ivfPqMinSize.toNat ≤ embeddings.cols → 256 ≤ embeddings.cols)) ∧
    (cfg.nlist = 0 → InHeuristic embeddings.cols (chosenNlist cfg embeddings.cols).toNat) := by
  have hpqM := (FaissConfig.validate_ok.1 hvalid).pqM
  have hdim : UInt32.ofNat embeddings.rows = embeddingDim := by
    rw [hrows, UInt32.ofNat_toNat]
  constructor
  · rw [← chosenNlist_fits hpos hauto]
    constructor
    · intro h
      exact ⟨⟨h.nlist_pos, h.nlist_le⟩, fun hpq hmin => h.training (chosenType_eq_ivfPQ.2 ⟨hpq, hmin⟩)⟩
    · rintro ⟨⟨hne, hle⟩, htraining⟩
      refine ⟨hne, hle, fun hchosen => ?_, fun hchosen => ?_⟩
      · rw [hdim]
        exact hpqM (chosenType_eq_ivfPQ.1 hchosen).1
      · obtain ⟨hpq, hmin⟩ := chosenType_eq_ivfPQ.1 hchosen
        exact htraining hpq hmin
  · intro h
    rw [chosenNlist_automatic h]
    exact defaultNlist_inHeuristic hpos (hauto h)

end Training

/-! ### Small and huge galleries -/

/-- A gallery of one vector. -/
def oneVector : MatrixXf ℤ :=
  ⟨2, 1, [1, 0], rfl⟩

/-- One vector is enough for a flat index with the automatic number of cells. -/
theorem trainable_oneVector : Trainable ({} : FaissConfig) oneVector ∧
    InHeuristic 1 (chosenNlist ({} : FaissConfig) 1).toNat := by
  have h := trainable_iff ({} : FaissConfig) 2 oneVector rfl rfl one_pos fun _ => by decide
  exact ⟨h.1.2 (by decide), h.2 rfl⟩

/-- Two configured cells or the product quantizer without a minimum cannot be trained with one vector; the root is
rounded up for `2 ^ 48 + 2 ^ 23` vectors, and its 32 bits are all zero for `2 ^ 60 - 64`. -/
theorem not_trainable_configured :
    (({ nlist := 2 } : FaissConfig).validate 2 = .ok () ∧ ¬Trainable { nlist := 2 } oneVector) ∧
    (({ indexType := .ivfPQ, ivfPqMinSize := 0, pqM := 1 } : FaissConfig).validate 2 = .ok () ∧
      ¬Trainable { indexType := .ivfPQ, ivfPqMinSize := 0, pqM := 1 } oneVector) ∧
    (defaultNlist (2 ^ 48 + 2 ^ 23)).toNat ^ 2 > 16 * (2 ^ 48 + 2 ^ 23) ∧
    defaultNlist (2 ^ 60 - 64) = 0 := by
  refine ⟨⟨rfl, fun h => ?_⟩, ⟨rfl, fun h => ?_⟩, ?_, ?_⟩
  · exact absurd h.nlist_le (by decide)
  · exact absurd (h.training (by decide)) (by decide)
  · decide +kernel
  · decide +kernel

end FacePipeline.Indexing
