import FacePipeline.Trt.Letterbox
import Mathlib.Data.Rat.Floor
import Mathlib.Tactic.FieldSimp
import Mathlib.Tactic.Positivity

/-!
# Where letterboxing puts the pixels

The scale is the smaller of the two ratios, so that one side fills the target and the other one fits
(`Fit`). The sides of the resized image are rounded: a side below one half rounds to nothing, and
`cv::resize` refuses it (`letterboxes_iff`). The scale that is returned is the one before rounding;
mapping back is exact for the scale, and off by half a letterboxed pixel at most for the image as it was
resized (`letterbox_mapsBack`).
-/

namespace FacePipeline.Trt

section Rounding

variable {F : Type} [Field F] [LinearOrder F] [IsStrictOrderedRing F] [FloorRing F]

omit [IsStrictOrderedRing F] in
theorem stdRound_of_nonneg {x : F} (hx : 0 ≤ x) : stdRound x = ⌊x + 1 / 2⌋ := by
  rw [stdRound, if_pos hx]
  norm_num

theorem abs_stdRound_sub_le {x : F} (hx : 0 ≤ x) : |(stdRound x : F) - x| ≤ 1 / 2 := by
  rw [stdRound_of_nonneg hx, abs_le]
  have hle := Int.floor_le (x + 1 / 2)
  have hlt := Int.lt_floor_add_one (x + 1 / 2)
  constructor <;> linarith

theorem stdRound_nonneg {x : F} (hx : 0 ≤ x) : 0 ≤ stdRound x := by
  rw [stdRound_of_nonneg hx]
  exact Int.floor_nonneg.2 (by linarith)

theorem stdRound_le {x : F} {n : Int} (hx : 0 ≤ x) (h : x ≤ n) : stdRound x ≤ n := by
  rw [stdRound_of_nonneg hx]
  apply Int.le_of_lt_add_one
  rw [Int.floor_lt]
  push_cast
  linarith

theorem stdRound_pos_iff {x : F} (hx : 0 ≤ x) : 0 < stdRound x ↔ 1 / 2 ≤ x := by
  rw [stdRound_of_nonneg hx, Int.floor_pos]
  constructor <;> intro h <;> linarith

theorem stdRound_intCast {n : Int} (h : 0 ≤ n) : stdRound (n : F) = n := by
  obtain ⟨k, rfl⟩ := Int.eq_ofNat_of_zero_le h
  exact_mod_cast stdRound_natCast (F := F) k

/-! ### The scale -/

/-- `r` is the largest scale at which `cols * rows` fits into the target. -/
structure Fit (cols rows : ℕ) (targetW targetH : Int) (r : F) : Prop where
  pos : 0 < r
  width_le : cols * r ≤ targetW
  height_le : rows * r ≤ targetH
  fills : cols * r = targetW ∨ rows * r = targetH

omit [FloorRing F] in
theorem fit_stdMin {cols rows : ℕ} {targetW targetH : Int} (hcols : 0 < cols) (hrows : 0 < rows)
    (hW : 0 < targetW) (hH : 0 < targetH) :
    Fit cols rows targetW targetH (stdMin ((targetW : F) / cols) ((targetH : F) / rows)) := by
  have hcols' : (0 : F) < cols := Nat.cast_pos.2 hcols
  have hrows' : (0 : F) < rows := Nat.cast_pos.2 hrows
  have hW' : (0 : F) < targetW := Int.cast_pos.2 hW
  have hH' : (0 : F) < targetH := Int.cast_pos.2 hH
  rw [stdMin_eq_min]
  refine ⟨lt_min (div_pos hW' hcols') (div_pos hH' hrows'), ?_, ?_, ?_⟩
  · rw [mul_comm, ← le_div_iff₀ hcols']
    exact min_le_left _ _
  · rw [mul_comm, ← le_div_iff₀ hrows']
    exact min_le_right _ _
  · rcases min_choice ((targetW : F) / cols) ((targetH : F) / rows) with h | h <;> rw [h]
    · exact .inl (mul_div_cancel₀ _ hcols'.ne')
    · exact .inr (mul_div_cancel₀ _ hrows'.ne')

omit [IsStrictOrderedRing F] [FloorRing F] in
theorem Fit.symm {cols rows : ℕ} {targetW targetH : Int} {r : F} (h : Fit cols rows targetW targetH r) :
    Fit rows cols targetH targetW r :=
  ⟨h.pos, h.height_le, h.width_le, h.fills.symm⟩

omit [FloorRing F] in
/-- Half a pixel of height is left exactly when the source is not too wide. -/
theorem Fit.half_le_height_iff {cols rows : ℕ} {targetW targetH : Int} {r : F}
    (h : Fit cols rows targetW targetH r) (hcols : 0 < cols) (hrows : 0 < rows) (hH : 0 < targetH) :
    1 / 2 ≤ rows * r ↔ (cols : Int) ≤ 2 * rows * targetW := by
  have hcols' : (0 : F) < cols := Nat.cast_pos.2 hcols
  have hrows' : (0 : F) < rows := Nat.cast_pos.2 hrows
  have hH' : (1 : F) ≤ targetH := by exact_mod_cast hH
  have hcast : (cols : Int) ≤ 2 * rows * targetW ↔ (cols : F) ≤ 2 * rows * targetW := by
    exact_mod_cast Iff.rfl
  rw [hcast]
  have hwidth := mul_le_mul_of_nonneg_left h.width_le hrows'.le
  rcases h.fills with hW | hfull
  · rw [← hW]
    constructor
    · intro hhalf
      nlinarith
    · intro hle
      by_contra hlt
      nlinarith
  · rw [hfull]
    refine iff_of_true (by linarith) ?_
    nlinarith

/-! ### The steps of `letterbox` -/

/-- The size of the resized image. -/
def resizedW (src : Image) (scale : F) : Int :=
  stdRound (src.cols * scale)

def resizedH (src : Image) (scale : F) : Int :=
  stdRound (src.rows * scale)

/-- The black margin before the image, of what `size` pixels leave of `target`. -/
def padding (target size : Int) : Int :=
  (target - size).tdiv 2

theorem padding_bounds {target size : Int} (h : size ≤ target) :
    0 ≤ padding target size ∧ padding target size + size ≤ target ∧
      |target - size - padding target size - padding target size| ≤ 1 := by
  unfold padding
  rw [Int.tdiv_eq_ediv_of_nonneg (sub_nonneg.2 h), abs_le]
  omega

omit [FloorRing F] in
theorem placed_ok {resized : Image} {targetW targetH : Int} {roi : Rect}
    (hx : 0 ≤ roi.x ∧ 0 ≤ roi.width ∧ roi.x + roi.width ≤ targetW)
    (hy : 0 ≤ roi.y ∧ 0 ≤ roi.height ∧ roi.y + roi.height ≤ targetH) :
    ∃ image, placed resized targetW targetH roi = .ok image ∧ image.rows = targetH ∧
      image.cols = targetW ∧ image.isBgr8 = resized.isBgr8 := by
  have hW : (targetW.toNat : Int) = targetW := Int.toNat_of_nonneg (by omega)
  have hH : (targetH.toNat : Int) = targetH := Int.toNat_of_nonneg (by omega)
  unfold placed
  rw [if_pos ⟨hx.1, hx.2.1, hx.2.2, hy⟩]
  cases resized with
  | bgr8 mat => exact ⟨_, rfl, hH, hW, rfl⟩
  | other rows cols => exact ⟨_, rfl, hH, hW, rfl⟩

/-- The sizes that `letterbox` computes stay within the target. -/
theorem Fit.resized_bounds {src : Image} {targetW targetH : Int} {r : F}
    (h : Fit src.cols src.rows targetW targetH r) :
    (0 ≤ resizedW src r ∧ resizedW src r ≤ targetW) ∧ (0 ≤ resizedH src r ∧ resizedH src r ≤ targetH) ∧
      (resizedW src r = targetW ∨ resizedH src r = targetH) := by
  have hcols : 0 ≤ (src.cols : F) * r := mul_nonneg (Nat.cast_nonneg _) h.pos.le
  have hrows : 0 ≤ (src.rows : F) * r := mul_nonneg (Nat.cast_nonneg _) h.pos.le
  refine ⟨⟨stdRound_nonneg hcols, stdRound_le hcols h.width_le⟩,
    ⟨stdRound_nonneg hrows, stdRound_le hrows h.height_le⟩, ?_⟩
  unfold resizedW resizedH
  rcases h.fills with hW | hH
  · rw [hW] at hcols ⊢
    exact .inl (stdRound_intCast (by exact_mod_cast hcols))
  · rw [hH] at hrows ⊢
    exact .inr (stdRound_intCast (by exact_mod_cast hrows))

theorem isEmpty_eq_false {src : Image} : src.isEmpty = false ↔ 0 < src.cols ∧ 0 < src.rows := by
  unfold Image.isEmpty
  rw [decide_eq_false_iff_not]
  omega

/-- `letterbox` on an image that is not empty, for a positive target. -/
theorem letterbox_run (cv : Resizer) {src : Image} {targetW targetH : Int} (hsrc : src.isEmpty = false)
    (hW : 0 < targetW ∧ targetW < 2 ^ 31) (hH : 0 < targetH ∧ targetH < 2 ^ 31) :
    ∃ r : F, Fit src.cols src.rows targetW targetH r ∧
      letterbox cv src targetW targetH = (do
        let resized ← (cv.resize src (resizedW src r) (resizedH src r)).mapError .throws
        let image ← (placed resized targetW targetH ⟨padding targetW (resizedW src r),
          padding targetH (resizedH src r), resizedW src r, resizedH src r⟩).mapError .throws
        return ⟨image, r, padding targetW (resizedW src r), padding targetH (resizedH src r)⟩) := by
  obtain ⟨hcols, hrows⟩ := isEmpty_eq_false.1 hsrc
  have hfit := fit_stdMin (F := F) hcols hrows hW.1 hH.1
  obtain ⟨hwidth, hheight, -⟩ := hfit.resized_bounds
  refine ⟨_, hfit, ?_⟩
  have hsource : ¬src.isEmpty = true := by rw [hsrc]; decide
  have htarget : ¬(targetW ≤ 0 ∨ targetH ≤ 0) := by omega
  have hint : ∀ n : Int, 0 ≤ n → n < 2 ^ 31 → int n = .ok n := fun n hn hlt => int_ok.2 ⟨by omega, rfl⟩
  unfold letterbox
  simp only [if_neg hsource, if_neg htarget]
  unfold resizedW resizedH at *
  simp only [bind, Except.bind, pure, Except.pure, hint _ hwidth.1 (by omega), hint _ hheight.1 (by omega),
    hint _ (sub_nonneg.2 hwidth.2) (by omega), hint _ (sub_nonneg.2 hheight.2) (by omega)]
  rfl

/-! ### Which images are letterboxed -/

/-- A canvas of the target's size, with the resized image in its middle. -/
structure ValidCanvas (cv : Resizer) (src : Image) (targetW targetH : Int) (lb : LetterboxResult F) :
    Prop where
  size : lb.image.cols = targetW ∧ lb.image.rows = targetH
  picture : ∃ resized, cv.resize src (resizedW src lb.scale) (resizedH src lb.scale) = .ok resized ∧
    placed resized targetW targetH
      ⟨lb.padX, lb.padY, resizedW src lb.scale, resizedH src lb.scale⟩ = .ok lb.image
  width : 1 ≤ resizedW src lb.scale ∧ resizedW src lb.scale ≤ targetW
  height : 1 ≤ resizedH src lb.scale ∧ resizedH src lb.scale ≤ targetH
  fills : resizedW src lb.scale = targetW ∨ resizedH src lb.scale = targetH
  insideX : 0 ≤ lb.padX ∧ lb.padX + resizedW src lb.scale ≤ targetW
  insideY : 0 ≤ lb.padY ∧ lb.padY + resizedH src lb.scale ≤ targetH
  /-- The margins on two opposite sides differ by a pixel at most. -/
  centredX : |targetW - resizedW src lb.scale - lb.padX - lb.padX| ≤ 1
  centredY : |targetH - resizedH src lb.scale - lb.padY - lb.padY| ≤ 1

/-- The errors that are documented. -/
def DocumentedError (src : Image) (targetW targetH : Int) (e : Stop) : Prop :=
  src.isEmpty = true ∧ e = .throws (.invalidArgument "letterbox: source image is empty") ∨
    (targetW ≤ 0 ∨ targetH ≤ 0) ∧ e = .throws (.invalidArgument "letterbox: target size must be positive")

/-- A valid canvas whenever there is something to letterbox, and no other error than the documented ones. -/
structure Letterboxes (F : Type) [Field F] [LinearOrder F] [FloorRing F] (cv : Resizer) (src : Image)
    (targetW targetH : Int) : Prop where
  canvas : src.isEmpty = false → 0 < targetW → 0 < targetH →
    ∃ lb : LetterboxResult F, letterbox cv src targetW targetH = .ok lb ∧
      ValidCanvas cv src targetW targetH lb
  errors : ∀ e, letterbox (F := F) cv src targetW targetH = .error e → DocumentedError src targetW targetH e

/-- An image is letterboxed exactly when no side rounds to nothing. -/
theorem letterbox_canvas_iff (cv : Resizer) {src : Image} {targetW targetH : Int}
    (hsrc : src.isEmpty = false) (hW : 0 < targetW ∧ targetW < 2 ^ 31)
    (hH : 0 < targetH ∧ targetH < 2 ^ 31) :
    (∃ lb : LetterboxResult F, letterbox cv src targetW targetH = .ok lb ∧
      ValidCanvas cv src targetW targetH lb) ↔
      (src.cols : Int) ≤ 2 * src.rows * targetW ∧ (src.rows : Int) ≤ 2 * src.cols * targetH := by
  obtain ⟨hcols, hrows⟩ := isEmpty_eq_false.1 hsrc
  obtain ⟨r, hfit, hrun⟩ := letterbox_run (F := F) cv hsrc hW hH
  obtain ⟨hwidth, hheight, hfills⟩ := hfit.resized_bounds
  obtain ⟨hpadX, hroiX, hcentredX⟩ := padding_bounds hwidth.2
  obtain ⟨hpadY, hroiY, hcentredY⟩ := padding_bounds hheight.2
  have hsides : 0 < resizedW src r ∧ 0 < resizedH src r ↔
      (src.cols : Int) ≤ 2 * src.rows * targetW ∧ (src.rows : Int) ≤ 2 * src.cols * targetH := by
    unfold resizedW resizedH
    rw [stdRound_pos_iff (mul_nonneg (Nat.cast_nonneg _) hfit.pos.le),
      stdRound_pos_iff (mul_nonneg (Nat.cast_nonneg _) hfit.pos.le),
      hfit.half_le_height_iff hcols hrows hH.1, hfit.symm.half_le_height_iff hrows hcols hW.1, and_comm]
  rw [← hsides, hrun]
  constructor
  · rintro ⟨lb, hlb, -⟩
    obtain ⟨resized, hresized, -⟩ := bind_ok.1 hlb
    exact ((cv.returns_iff _ _ _).1 ⟨resized, mapError_ok.1 hresized⟩).2
  · rintro ⟨hw, hh⟩
    obtain ⟨resized, hresized⟩ := (cv.returns_iff _ _ _).2 ⟨hsrc, hw, hh⟩
    have hroi : ∃ image, placed resized targetW targetH ⟨padding targetW (resizedW src r),
        padding targetH (resizedH src r), resizedW src r, resizedH src r⟩ = .ok image ∧
        image.rows = targetH ∧ image.cols = targetW ∧ image.isBgr8 = resized.isBgr8 :=
      placed_ok ⟨hpadX, hwidth.1, hroiX⟩ ⟨hpadY, hheight.1, hroiY⟩
    obtain ⟨image, himage, hrowsImage, hcolsImage, -⟩ := hroi
    refine ⟨⟨image, r, padding targetW (resizedW src r), padding targetH (resizedH src r)⟩, ?_, ?_⟩
    · exact bind_ok.2 ⟨resized, mapError_ok.2 hresized, bind_ok.2 ⟨image, mapError_ok.2 himage, rfl⟩⟩
    · exact ⟨⟨hcolsImage, hrowsImage⟩, ⟨resized, hresized, himage⟩, ⟨hw, hwidth.2⟩, ⟨hh, hheight.2⟩,
        hfills, ⟨hpadX, hroiX⟩, ⟨hpadY, hroiY⟩, hcentredX, hcentredY⟩

omit [IsStrictOrderedRing F] in
theorem letterbox_refused (cv : Resizer) {src : Image} {targetW targetH : Int}
    (h : src.isEmpty = true ∨ targetW ≤ 0 ∨ targetH ≤ 0) :
    ∃ e, letterbox (F := F) cv src targetW targetH = .error e ∧ DocumentedError src targetW targetH e := by
  unfold letterbox
  by_cases hsrc : src.isEmpty = true
  · rw [if_pos hsrc]
    exact ⟨_, rfl, .inl ⟨hsrc, rfl⟩⟩
  · have htarget := h.resolve_left hsrc
    simp only [if_neg hsrc, if_pos htarget]
    exact ⟨_, rfl, .inr ⟨htarget, rfl⟩⟩

/-- **Letterboxing succeeds** exactly when neither side of the source is longer than twice the other one
times the target's side. -/
theorem letterboxes_iff (cv : Resizer) (src : Image) (targetW targetH : Int) (hW : targetW < 2 ^ 31)
    (hH : targetH < 2 ^ 31) :
    Letterboxes F cv src targetW targetH ↔ src.isEmpty = true ∨ targetW ≤ 0 ∨ targetH ≤ 0 ∨
      (src.cols : Int) ≤ 2 * src.rows * targetW ∧ (src.rows : Int) ≤ 2 * src.cols * targetH := by
  by_cases hrefused : src.isEmpty = true ∨ targetW ≤ 0 ∨ targetH ≤ 0
  · obtain ⟨e, he, hdocumented⟩ := letterbox_refused (F := F) cv hrefused
    refine iff_of_true ⟨fun hsrc hW₀ hH₀ => ?_, fun e' he' => ?_⟩ (by tauto)
    · rcases hrefused with hempty | hle | hle
      · rw [hsrc] at hempty
        cases hempty
      · omega
      · omega
    · obtain rfl := Except.error.inj (he.symm.trans he')
      exact hdocumented
  · rw [not_or, not_or, Bool.not_eq_true, not_le, not_le] at hrefused
    obtain ⟨hsrc, hW₀, hH₀⟩ := hrefused
    have hcanvas := letterbox_canvas_iff (F := F) cv hsrc ⟨hW₀, hW⟩ ⟨hH₀, hH⟩
    constructor
    · intro h
      exact .inr (.inr (.inr (hcanvas.1 (h.canvas hsrc hW₀ hH₀))))
    · rintro (hempty | hle | hle | hsides)
      · rw [hsrc] at hempty
        cases hempty
      · omega
      · omega
      · obtain ⟨lb, hlb, hvalid⟩ := hcanvas.2 hsides
        refine ⟨fun _ _ _ => ⟨lb, hlb, hvalid⟩, fun e he => ?_⟩
        rw [hlb] at he
        cases he

/-! ### Mapping back -/

/-- Coordinates in the letterboxed image find their way back to the source, which `cv::resize` has scaled to
`newW * newH` pixels of it. -/
structure MapsBack (cv : Resizer) (src : Image) (targetW targetH newW newH : Int) (lb : LetterboxResult F) :
    Prop where
  picture : ∃ resized, cv.resize src newW newH = .ok resized ∧
    placed resized targetW targetH ⟨lb.padX, lb.padY, newW, newH⟩ = .ok lb.image
  inverse : ∀ x y : F, undoLetterbox (x * lb.scale + lb.padX) (y * lb.scale + lb.padY) lb.scale lb.padX
    lb.padY = ⟨x, y⟩
  /-- Where `cv::resize` puts a point, against the scale before rounding. -/
  accurate : ∀ x y : F, 0 ≤ x → x ≤ src.cols → 0 ≤ y → y ≤ src.rows →
    ∃ p : Point2f F, undoLetterbox (x * newW / src.cols + lb.padX) (y * newH / src.rows + lb.padY) lb.scale
        lb.padX lb.padY = p ∧
      |p.x - x| ≤ 1 / (2 * lb.scale) ∧ |p.y - y| ≤ 1 / (2 * lb.scale)
  /-- The one box whose corners lie at the regressed distances from the anchor. -/
  box : ∀ (anchor : Point2f F) (distances : Vector F 4) (stride : F) (b : Rect2f F),
    distance2bbox anchor distances stride lb.scale lb.padX lb.padY = b ↔
      b.x * lb.scale + lb.padX = anchor.x - distances.get 0 * stride ∧
      b.y * lb.scale + lb.padY = anchor.y - distances.get 1 * stride ∧
      (b.x + b.width) * lb.scale + lb.padX = anchor.x + distances.get 2 * stride ∧
      (b.y + b.height) * lb.scale + lb.padY = anchor.y + distances.get 3 * stride
  landmarks : ∀ (anchor : Point2f F) (offsets : Vector F 10) (stride : F) (ps : Landmarks F),
    distance2kps anchor offsets stride lb.scale lb.padX lb.padY = ps ↔ ∀ k : Fin 5,
      (ps.get k).x * lb.scale + lb.padX = anchor.x + offsets.get (Fin.ofNat 10 (k * 2)) * stride ∧
      (ps.get k).y * lb.scale + lb.padY = anchor.y + offsets.get (Fin.ofNat 10 (k * 2 + 1)) * stride

omit [IsStrictOrderedRing F] [FloorRing F] [LinearOrder F] in
/-- Mapping back is solving for the source point. -/
theorem undoLetterbox_eq_iff {scale : F} (hscale : scale ≠ 0) (x y : F) (padX padY : Int)
    (p : Point2f F) : undoLetterbox x y scale padX padY = p ↔
      p.x * scale + padX = x ∧ p.y * scale + padY = y := by
  rw [undoLetterbox, Point2f.ext_iff, div_eq_iff hscale, div_eq_iff hscale, sub_eq_iff_eq_add,
    sub_eq_iff_eq_add, eq_comm, @eq_comm F y]

/-- What rounding the side of the resized image moves a point by. -/
theorem resized_error {side : ℕ} {scale x : F} (hscale : 0 < scale) (hx : 0 ≤ x) (hle : x ≤ side)
    (pad : Int) : |(x * stdRound (side * scale) / side + pad - pad) / scale - x| ≤ 1 / (2 * scale) := by
  rcases Nat.eq_zero_or_pos side with rfl | hside
  · obtain rfl : x = 0 := le_antisymm (by exact_mod_cast hle) hx
    simp [hscale.le]
  have hside' : (0 : F) < side := Nat.cast_pos.2 hside
  have hround := abs_stdRound_sub_le (mul_nonneg hside'.le hscale.le)
  have hpart : |x / side| ≤ 1 := by
    rw [abs_of_nonneg (div_nonneg hx hside'.le)]
    exact (div_le_one hside').2 hle
  calc |(x * stdRound (side * scale) / side + pad - pad) / scale - x|
      = |x / side| * |(stdRound (side * scale) : F) - side * scale| / scale := by
        rw [← abs_mul, ← abs_of_pos hscale, ← abs_div, abs_of_pos hscale]
        congr 1
        field_simp
        ring
    _ ≤ 1 * (1 / 2) / scale := by gcongr
    _ = 1 / (2 * scale) := by rw [one_mul, div_div]

/-- For the size that rounding gives. -/
theorem mapsBack_of_picture {cv : Resizer} {src : Image} {targetW targetH : Int} {lb : LetterboxResult F}
    (hscale : 0 < lb.scale)
    (hpicture : ∃ resized, cv.resize src (resizedW src lb.scale) (resizedH src lb.scale) = .ok resized ∧
      placed resized targetW targetH
        ⟨lb.padX, lb.padY, resizedW src lb.scale, resizedH src lb.scale⟩ = .ok lb.image) :
    MapsBack cv src targetW targetH (resizedW src lb.scale) (resizedH src lb.scale) lb := by
  have hne := hscale.ne'
  have hside : ∀ x pad distance origin extent : F, (origin - pad) / lb.scale = x →
      ((extent - pad) / lb.scale - (origin - pad) / lb.scale = distance ↔
        (x + distance) * lb.scale + pad = extent) := by
    rintro _ pad distance origin extent rfl
    rw [sub_eq_iff_eq_add, div_eq_iff hne, sub_eq_iff_eq_add, add_comm distance, eq_comm]
  refine ⟨hpicture, fun x y => ?_, fun x y hx hxle hy hyle => ?_, fun anchor distances stride b => ?_,
    fun anchor offsets stride ps => ?_⟩
  · exact (undoLetterbox_eq_iff hne _ _ _ _ _).2 ⟨rfl, rfl⟩
  · exact ⟨_, rfl, resized_error hscale hx hxle _, resized_error hscale hy hyle _⟩
  · obtain ⟨x, y, width, height⟩ := b
    have hcorner := undoLetterbox_eq_iff hne (anchor.x - distances[0] * stride)
      (anchor.y - distances[1] * stride) lb.padX lb.padY ⟨x, y⟩
    rw [undoLetterbox, Point2f.mk.injEq] at hcorner
    unfold distance2bbox undoLetterbox
    rw [Rect2f.mk.injEq, ← and_assoc, ← and_assoc (c := _ = _ ∧ _)]
    refine Iff.trans (and_congr_right fun hxy => ?_) (and_congr_left' hcorner)
    exact and_congr (hside _ _ _ _ _ hxy.1) (hside _ _ _ _ _ hxy.2)
  · have hget : ∀ (i : ℕ) (hi : i < 10), offsets.get (Fin.ofNat 10 i) = offsets[i] := by
      intro i hi
      have hmod : Fin.ofNat 10 i = ⟨i, hi⟩ := Fin.ext (Nat.mod_eq_of_lt hi)
      rw [hmod]
      rfl
    unfold distance2kps
    rw [Vector.ext_iff]
    constructor
    · intro h k
      have hk := h k.val k.isLt
      rw [Vector.getElem_ofFn] at hk
      rw [hget (k * 2) (by omega), hget (k * 2 + 1) (by omega)]
      exact (undoLetterbox_eq_iff hne _ _ _ _ _).1 hk
    · intro h k hk
      have hpoint := h ⟨k, hk⟩
      rw [hget (k * 2) (by omega), hget (k * 2 + 1) (by omega)] at hpoint
      rw [Vector.getElem_ofFn]
      exact (undoLetterbox_eq_iff hne _ _ _ _ _).2 hpoint

/-- **A letterbox that succeeds maps back**, exactly for the scale it returns and within half a pixel for
the image it has resized and written into the canvas. -/
theorem letterbox_mapsBack (cv : Resizer) (src : Image) (targetW targetH : Int)
    (lb : LetterboxResult F) (hW : targetW < 2 ^ 31) (hH : targetH < 2 ^ 31)
    (h : letterbox cv src targetW targetH = .ok lb) :
    0 < lb.scale ∧ MapsBack cv src targetW targetH (resizedW src lb.scale) (resizedH src lb.scale) lb := by
  by_cases hrefused : src.isEmpty = true ∨ targetW ≤ 0 ∨ targetH ≤ 0
  · obtain ⟨e, he, -⟩ := letterbox_refused (F := F) cv hrefused
    rw [he] at h
    cases h
  · rw [not_or, not_or, Bool.not_eq_true, not_le, not_le] at hrefused
    obtain ⟨hsrc, hW₀, hH₀⟩ := hrefused
    obtain ⟨r, hfit, hrun⟩ := letterbox_run (F := F) cv hsrc ⟨hW₀, hW⟩ ⟨hH₀, hH⟩
    rw [hrun] at h
    obtain ⟨resized, hresized, h⟩ := bind_ok.1 h
    obtain ⟨image, himage, h⟩ := bind_ok.1 h
    obtain rfl := pure_ok.1 h
    refine ⟨hfit.pos, mapsBack_of_picture hfit.pos ⟨resized, ?_, ?_⟩⟩
    · exact mapError_ok.1 hresized
    · exact mapError_ok.1 himage

end Rounding

/-! ### A frame, and a line -/

/-- A black image. -/
def blackImage (rows cols : ℕ) : Image :=
  .bgr8 ⟨rows, cols, fun _ _ => ⟨0, 0, 0⟩⟩

theorem letterboxes_fullHd : Letterboxes ℚ blackResizer (blackImage 1080 1920) 640 640 :=
  (letterboxes_iff blackResizer (blackImage 1080 1920) 640 640 (by decide) (by decide)).2
    (.inr (.inr (.inr (by decide))))

/-- A line of 2000 pixels would be resized to no height at all. -/
theorem not_letterboxes_line : ¬Letterboxes ℚ blackResizer (blackImage 1 2000) 640 640 := by
  intro h
  obtain ⟨lb, hlb, -⟩ := h.canvas rfl (by decide) (by decide)
  have hrefused : (letterbox (F := ℚ) blackResizer (blackImage 1 2000) 640 640).isOk = false := by
    decide +kernel
  rw [hlb] at hrefused
  cases hrefused

theorem letterbox_mapsBack_fullHd : ∃ lb : LetterboxResult ℚ,
    letterbox blackResizer (blackImage 1080 1920) 640 640 = .ok lb ∧ 0 < lb.scale ∧
      MapsBack blackResizer (blackImage 1080 1920) 640 640 (resizedW (blackImage 1080 1920) lb.scale)
        (resizedH (blackImage 1080 1920) lb.scale) lb := by
  have hcanvas : ∃ lb : LetterboxResult ℚ, letterbox blackResizer (blackImage 1080 1920) 640 640 = .ok lb ∧
      ValidCanvas blackResizer (blackImage 1080 1920) 640 640 lb :=
    (letterbox_canvas_iff blackResizer rfl (by decide) (by decide)).2 (by decide)
  obtain ⟨lb, hlb, -⟩ := hcanvas
  exact ⟨lb, hlb, letterbox_mapsBack blackResizer _ 640 640 lb (by decide) (by decide) hlb⟩

end FacePipeline.Trt
