import FacePipeline.Trt.Nms
import FacePipeline.Trt.Preprocess
import Mathlib.Algebra.Order.Floor.Ring
import Mathlib.Tactic.NormNum

/-!
# Letterboxing

`letterbox` scales an image to fit the network's input and centres it on a black canvas, in exact
arithmetic; `hwc_bgr_to_chw_rgb_normalized` writes the canvas into the input tensor. `cv::resize` is a
parameter.
-/

namespace FacePipeline.Trt

/-- A `cv::Mat` of any type that `cv::resize` takes: an 8-bit BGR image, or one of another type, of which
only the size matters here. -/
inductive Image where
  | bgr8 (mat : Mat)
  | other (rows cols : ℕ)

namespace Image

def rows : Image → ℕ
  | bgr8 mat => mat.rows
  | other rows _ => rows

def cols : Image → ℕ
  | bgr8 mat => mat.cols
  | other _ cols => cols

/-- `cv::Mat::empty`. -/
def isEmpty (image : Image) : Bool :=
  image.rows = 0 ∨ image.cols = 0

/-- `type() == CV_8UC3`. -/
def isBgr8 : Image → Bool
  | bgr8 _ => true
  | other _ _ => false

end Image

/-- `cv::resize` with bilinear interpolation, to a width and a height. -/
structure Resizer where
  resize : Image → Int → Int → Except Exn Image
  of_resize : ∀ image w h out, resize image w h = .ok out →
    out.rows = h ∧ out.cols = w ∧ out.isBgr8 = image.isBgr8
  /-- It refuses an empty source, an empty destination, and nothing else. -/
  returns_iff : ∀ image w h, (∃ out, resize image w h = .ok out) ↔
    image.isEmpty = false ∧ 0 < w ∧ 0 < h

/-- A resize that keeps nothing of an image but its type. -/
def blackResizer : Resizer where
  resize image w h :=
    if image.isEmpty ∨ w ≤ 0 ∨ h ≤ 0 then .error (.other "!ssize.empty()")
    else
      match image with
      | .bgr8 _ => .ok (.bgr8 ⟨h.toNat, w.toNat, fun _ _ => ⟨0, 0, 0⟩⟩)
      | .other _ _ => .ok (.other h.toNat w.toNat)
  of_resize := by
    intro image w h out hout
    split_ifs at hout with hempty
    have hpos : 0 < w ∧ 0 < h := by omega
    cases image with
    | bgr8 mat =>
      obtain rfl := Except.ok.inj hout
      exact ⟨Int.toNat_of_nonneg hpos.2.le, Int.toNat_of_nonneg hpos.1.le, rfl⟩
    | other rows cols =>
      obtain rfl := Except.ok.inj hout
      exact ⟨Int.toNat_of_nonneg hpos.2.le, Int.toNat_of_nonneg hpos.1.le, rfl⟩
  returns_iff := by
    intro image w h
    by_cases hempty : image.isEmpty = true ∨ w ≤ 0 ∨ h ≤ 0
    · rw [if_pos hempty]
      refine iff_of_false (by simp) fun hne => ?_
      rcases hempty with himage | hsize
      · rw [hne.1] at himage
        cases himage
      · omega
    · rw [if_neg hempty]
      rw [not_or, Bool.not_eq_true] at hempty
      refine iff_of_true ?_ ⟨hempty.1, by omega, by omega⟩
      cases image with
      | bgr8 mat => exact ⟨_, rfl⟩
      | other rows cols => exact ⟨_, rfl⟩

/-- `cv::Rect`. -/
structure Rect where
  x : Int
  y : Int
  width : Int
  height : Int
  deriving DecidableEq, Repr

/-- `resized.copyTo(out(roi))`, for a black `out` of the given size. -/
def placed (resized : Image) (targetW targetH : Int) (roi : Rect) : Except Exn Image :=
  if 0 ≤ roi.x ∧ 0 ≤ roi.width ∧ roi.x + roi.width ≤ targetW ∧
      0 ≤ roi.y ∧ 0 ≤ roi.height ∧ roi.y + roi.height ≤ targetH then
    match resized with
    | .bgr8 mat => .ok (.bgr8
        { rows := targetH.toNat, cols := targetW.toNat
          pixel := fun y x =>
            if roi.y ≤ y ∧ y < roi.y + roi.height ∧ roi.x ≤ x ∧ x < roi.x + roi.width then
              mat.pixel (y - roi.y).toNat (x - roi.x).toNat
            else ⟨0, 0, 0⟩ })
    | .other _ _ => .ok (.other targetH.toNat targetW.toNat)
  else .error (.other ("0 <= roi.x && 0 <= roi.width && roi.x + roi.width <= m.cols && " ++
    "0 <= roi.y && 0 <= roi.height && roi.y + roi.height <= m.rows"))

/-- A letterboxed image, and what maps its coordinates back. -/
structure LetterboxResult (F : Type) where
  image : Image
  scale : F
  padX : Int
  padY : Int

section Letterbox

variable {F : Type} [Field F] [LinearOrder F] [FloorRing F]

/-- `std::round`: halves go away from zero. -/
def stdRound (x : F) : Int :=
  if 0 ≤ x then ⌊x + 0.5⌋ else -⌊-x + 0.5⌋

def letterbox (cv : Resizer) (src : Image) (targetW targetH : Int) :
    Except Stop (LetterboxResult F) := do
  if src.isEmpty then
    throw (.throws (.invalidArgument "letterbox: source image is empty"))
  if targetW ≤ 0 ∨ targetH ≤ 0 then
    throw (.throws (.invalidArgument "letterbox: target size must be positive"))
  let r : F := stdMin ((targetW : F) / src.cols) ((targetH : F) / src.rows)
  let newW ← int (stdRound (src.cols * r))
  let newH ← int (stdRound (src.rows * r))
  let marginX ← int (targetW - newW)
  let marginY ← int (targetH - newH)
  let padX := marginX.tdiv 2
  let padY := marginY.tdiv 2
  let resized ← (cv.resize src newW newH).mapError .throws
  let image ← (placed resized targetW targetH ⟨padX, padY, newW, newH⟩).mapError .throws
  return { image, scale := r, padX, padY }

/-! ### An image of the target's size -/

variable [IsStrictOrderedRing F]

theorem stdRound_natCast (n : ℕ) : stdRound (n : F) = n := by
  have hhalf : ⌊(0.5 : F)⌋ = 0 := Int.floor_eq_zero_iff.2 ⟨by norm_num, by norm_num⟩
  rw [stdRound, if_pos (Nat.cast_nonneg n), Int.floor_natCast_add, hhalf, add_zero]

/-- It is neither scaled nor padded. -/
theorem letterbox_of_size (cv : Resizer) (mat : Mat) (hw : 0 < mat.cols ∧ mat.cols < 2 ^ 31)
    (hh : 0 < mat.rows ∧ mat.rows < 2 ^ 31) :
    ∃ lb : LetterboxResult F, letterbox cv (.bgr8 mat) mat.cols mat.rows = .ok lb ∧
      ∃ canvas : Mat, lb.image = .bgr8 canvas ∧ canvas.rows = mat.rows ∧ canvas.cols = mat.cols := by
  have hempty : ¬(Image.bgr8 mat).isEmpty = true := by
    show ¬decide (mat.rows = 0 ∨ mat.cols = 0) = true
    rw [decide_eq_true_iff]
    omega
  have htarget : ¬((mat.cols : Int) ≤ 0 ∨ (mat.rows : Int) ≤ 0) := by omega
  have hscale : stdMin (((mat.cols : Int) : F) / (Image.bgr8 mat).cols)
      (((mat.rows : Int) : F) / (Image.bgr8 mat).rows) = 1 := by
    have hw_ne : (mat.cols : F) ≠ 0 := Nat.cast_ne_zero.2 hw.1.ne'
    have hh_ne : (mat.rows : F) ≠ 0 := Nat.cast_ne_zero.2 hh.1.ne'
    show stdMin (((mat.cols : Int) : F) / mat.cols) (((mat.rows : Int) : F) / mat.rows) = 1
    rw [Int.cast_natCast, Int.cast_natCast, div_self hw_ne, div_self hh_ne, stdMin, ite_self]
  have hround : ∀ n : ℕ, n < 2 ^ 31 → int (stdRound ((n : F) * 1)) = .ok (n : Int) := fun n hn => by
    rw [mul_one, stdRound_natCast, int_natCast hn]
  have hmargin : ∀ n : ℕ, int ((n : Int) - n) = .ok 0 := fun n => by
    rw [sub_self]
    exact int_natCast (by norm_num)
  obtain ⟨resized, hresized⟩ := (cv.returns_iff (.bgr8 mat) mat.cols mat.rows).2
    ⟨Bool.eq_false_iff.2 hempty, by omega, by omega⟩
  obtain ⟨_, _, htype⟩ := cv.of_resize _ _ _ _ hresized
  cases resized with
  | other _ _ => cases htype
  | bgr8 out =>
    have hplaced : ∃ canvas : Mat, placed (.bgr8 out) mat.cols mat.rows
        ⟨(0 : Int).tdiv 2, (0 : Int).tdiv 2, mat.cols, mat.rows⟩ = .ok (.bgr8 canvas) ∧
        canvas.rows = mat.rows ∧ canvas.cols = mat.cols := by
      rw [placed, if_pos (by simp)]
      exact ⟨_, rfl, Int.toNat_natCast _, Int.toNat_natCast _⟩
    obtain ⟨canvas, hcanvas, hsize⟩ := hplaced
    refine ⟨⟨.bgr8 canvas, 1, (0 : Int).tdiv 2, (0 : Int).tdiv 2⟩, ?_, canvas, rfl, hsize⟩
    rw [letterbox]
    simp only [if_neg hempty, if_neg htarget, hscale]
    refine bind_ok.2 ⟨_, hround _ hw.2, bind_ok.2 ⟨_, hround _ hh.2, ?_⟩⟩
    refine bind_ok.2 ⟨_, hmargin _, bind_ok.2 ⟨_, hmargin _, ?_⟩⟩
    refine bind_ok.2 ⟨.bgr8 out, mapError_ok.2 hresized, ?_⟩
    exact bind_ok.2 ⟨.bgr8 canvas, mapError_ok.2 hcanvas, rfl⟩

end Letterbox

section Normalize

variable {F : Type} [NatCast F] [Sub F] [Div F] [OfScientific F]

/-- SCRFD's input normalization. -/
def kPixelMean (F : Type) [OfScientific F] : F := 127.5

def kPixelScale (F : Type) [OfScientific F] : F := 128.0

def hwcBgrToChwRgbNormalized (src : Image) (dst : List F) : Except Stop (List F) :=
  match src with
  | .bgr8 mat => writeChw writeAt (kPixelMean F) (kPixelScale F) mat mat.rows mat.cols 0 dst
  | .other _ _ => .error (.throws (.invalidArgument
      "hwc_bgr_to_chw_rgb_normalized: expected an 8-bit BGR image"))

theorem length_hwcBgrToChwRgbNormalized {src : Image} {dst dst' : List F}
    (h : hwcBgrToChwRgbNormalized src dst = .ok dst') : dst'.length = dst.length := by
  cases src with
  | bgr8 mat => exact length_writeChw h
  | other _ _ => cases h

theorem hwcBgrToChwRgbNormalized_ok {mat : Mat} {dst : List F}
    (hsmall : 3 * (mat.rows * mat.cols) < 2 ^ 31) (hfit : 3 * (mat.rows * mat.cols) ≤ dst.length) :
    ∃ dst', hwcBgrToChwRgbNormalized (.bgr8 mat) dst = .ok dst' :=
  ⟨_, writeChw_ok rfl rfl hsmall (by rwa [Nat.zero_add])⟩

end Normalize

end FacePipeline.Trt
