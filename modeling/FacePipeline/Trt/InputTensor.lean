import FacePipeline.Config.SystemConfig
import FacePipeline.Trt.Letterbox
import Mathlib.Data.List.Perm.Subperm
import Mathlib.Data.Rat.Floor
import Mathlib.Tactic.Positivity

/-!
# The input tensor of a configured size

`validate` puts no upper bound on the input size, and the size of the input tensor is computed three times:
in `uint32` for `input_scratch_`, in `int` for the slots of the planes and for the rows of the outputs. All
of them are right exactly when the tensor has fewer than `2 ^ 31` floats and the landmarks of the last row have
an offset that fits into an `int` (`fillsTensor_iff`); then the loops write every slot once, as a log of their
writes shows. For strides from three on the landmarks are no condition of their own (`lastOffset_lt`).
-/

namespace FacePipeline.Trt

open FacePipeline.Config Scratch Traverse

/-- `px[i]`. -/
def Vec3b.channel (px : Vec3b) : ℕ → UInt8
  | 0 => px.b
  | 1 => px.g
  | _ => px.r

theorem channel_ext {px px' : Vec3b} (h : ∀ c < 3, px.channel (2 - c) = px'.channel (2 - c)) : px = px' := by
  obtain ⟨b, g, r⟩ := px
  obtain ⟨b', g', r'⟩ := px'
  obtain rfl : r = r' := h 0 (by decide)
  obtain rfl : g = g' := h 1 (by decide)
  obtain rfl : b = b' := h 2 (by decide)
  rfl

section Log

variable {F : Type}

/-- `writeAt`, with a log of the slots. -/
def writeNoted (state : List F × List ℕ) (offset : ℕ) (i : Int) (value : F) :
    Except Stop (List F × List ℕ) := do
  let buffer ← writeAt state.1 offset i value
  return (buffer, state.2 ++ [offset + i.toNat])

/-- The log does not change what is written. -/
theorem foldlM_writeNoted {offset : ℕ} {ws : List (ℕ × F)} {buffer buffer' : List F} {slots : List ℕ}
    (h : ws.foldlM (fun buffer w => writeAt buffer offset w.1 w.2) buffer = .ok buffer') :
    ws.foldlM (fun state w => writeNoted state offset w.1 w.2) (buffer, slots) =
      .ok (buffer', slots ++ ws.map fun w => offset + w.1) := by
  induction ws generalizing buffer slots with
  | nil =>
    obtain rfl := Except.ok.inj h
    rw [List.map_nil, List.append_nil]
    rfl
  | cons w ws ih =>
    rw [List.foldlM_cons] at h
    obtain ⟨buffer₁, hfirst, hrest⟩ := bind_ok.1 h
    have hnoted : writeNoted (buffer, slots) offset w.1 w.2 = .ok (buffer₁, slots ++ [offset + w.1]) := by
      rw [writeNoted, hfirst, ok_bind, Int.toNat_natCast]
      rfl
    rw [List.foldlM_cons, hnoted, ok_bind, ih hrest, List.map_cons, List.append_assoc, List.singleton_append]

variable [NatCast F] [Sub F] [Div F]

theorem length_chwWrites (mean scale : F) (image : Mat) (height width : ℕ) :
    (chwWrites mean scale image height width).length = 3 * (height * width) := by
  have hpixel : ∀ at_, (pixelWrites mean scale image height width 0 at_).length = 3 := fun _ => rfl
  have hupTo : ∀ n : ℕ, (upTo n).length = n := by simp [upTo]
  simp only [chwWrites, pixels, List.length_flatMap, hpixel, List.map_const', List.length_map, hupTo,
    List.sum_replicate_nat]
  rw [Nat.mul_comm]

/-- Every slot of the planes is written, and none of them twice. -/
theorem chwWrites_perm (mean scale : F) (image : Mat) (height width : ℕ) :
    ((chwWrites mean scale image height width).map (·.1)).Perm (List.range (3 * (height * width))) := by
  have hsubset : List.range (3 * (height * width)) ⊆ (chwWrites mean scale image height width).map (·.1) := by
    intro k hk
    obtain ⟨w, hw, rfl⟩ := exists_chwWrites mean scale image (List.mem_range.1 hk)
    exact List.mem_map_of_mem hw
  have hlength : ((chwWrites mean scale image height width).map (·.1)).length ≤
      (List.range (3 * (height * width))).length := by
    rw [List.length_map, length_chwWrites, List.length_range]
  exact ((List.subperm_of_subset List.nodup_range hsubset).perm_of_length_le hlength).symm

/-- The slots are computed in `int`: those of the last pixel must be in its range. -/
theorem le_of_writeChw_ok {mean scale : F} {image : Mat} {height width offset : ℕ} {buffer buffer' : List F}
    (hheight : 0 < height) (hwidth : 0 < width)
    (h : writeChw writeAt mean scale image height width offset buffer = .ok buffer') :
    3 * (height * width) ≤ 2 ^ 31 := by
  obtain ⟨channelStride, hstride, hloop⟩ := bind_ok.1 h
  obtain ⟨_, rfl⟩ := int_ok.1 hstride
  have hlast : ((height : Int) - 1, (width : Int) - 1) ∈ pixels height width :=
    mem_pixels.2 ⟨by omega, by omega⟩
  obtain ⟨_, _, hpixel⟩ := exists_step_of_foldlM_ok hloop hlast
  obtain ⟨_, _, hpixel⟩ := bind_ok.1 hpixel
  obtain ⟨_, hidx, hpixel⟩ := bind_ok.1 hpixel
  obtain ⟨_, _, hpixel⟩ := bind_ok.1 hpixel
  obtain ⟨_, _, hpixel⟩ := bind_ok.1 hpixel
  obtain ⟨_, _, hpixel⟩ := bind_ok.1 hpixel
  obtain ⟨_, _, hpixel⟩ := bind_ok.1 hpixel
  obtain ⟨_, hblue, _⟩ := bind_ok.1 hpixel
  obtain ⟨_, rfl⟩ := int_ok.1 hidx
  obtain ⟨⟨_, hlt⟩, rfl⟩ := int_ok.1 hblue
  have hslot : 2 * ((height : Int) * width) + (((height : Int) - 1) * width + ((width : Int) - 1)) + 1 =
      3 * (height * width : ℕ) := by
    push_cast
    ring
  omega

end Log

/-! ### One image -/

section Planes

variable {F : Type} [NatCast F] [Sub F] [Div F]

theorem chwRow_channel {mean scale : F} {mat : Mat} {height width c y x : ℕ} (hc : c < 3) (hy : y < height)
    (hx : x < width) : (chwRow mean scale mat height width)[c * (height * width) + (y * width + x)]? =
      some (normalized mean scale ((mat.pixel y x).channel (2 - c))) := by
  have hidx := grid_index_lt hy hx
  have hle : c * (height * width) ≤ 2 * (height * width) := Nat.mul_le_mul_right _ (Nat.le_of_lt_succ hc)
  rw [chwRow_getElem? (by omega), chwSlot_eq hy hx]
  rcases (by omega : c = 0 ∨ c = 1 ∨ c = 2) with rfl | rfl | rfl <;> rfl

variable [OfScientific F]

/-- The loops over an image write every slot of the buffer once, with the channels in reverse. -/
def FilledOnce (mat : Mat) (height width : ℕ) (dst : List F) : Prop :=
  ∃ tensor slots, hwcBgrToChwRgbNormalized (.bgr8 mat) dst = .ok tensor ∧
    writeChw writeNoted (kPixelMean F) (kPixelScale F) mat mat.rows mat.cols 0 (dst, []) =
      .ok (tensor, slots) ∧
    slots.Perm (List.range (3 * (height * width))) ∧ tensor.length = 3 * (height * width) ∧
    ∀ c < 3, ∀ y < height, ∀ x < width, tensor[c * (height * width) + (y * width + x)]? =
      some (normalized (kPixelMean F) (kPixelScale F) ((mat.pixel y x).channel (2 - c)))

theorem hwc_eq_chwRow {mat : Mat} {height width : ℕ} {dst : List F} (hrows : mat.rows = height)
    (hcols : mat.cols = width) (hsmall : 3 * (height * width) < 2 ^ 31)
    (hlength : dst.length = 3 * (height * width)) : hwcBgrToChwRgbNormalized (.bgr8 mat) dst =
      .ok (chwRow (kPixelMean F) (kPixelScale F) mat height width) := by
  subst hrows hcols
  rw [hwcBgrToChwRgbNormalized, writeChw_ok rfl rfl hsmall (by rw [hlength, Nat.zero_add]), overlay_zero,
    length_chwRow, List.drop_eq_nil_of_le hlength.le, List.append_nil]

theorem filledOnce_of_lt {mat : Mat} {height width : ℕ} {dst : List F} (hrows : mat.rows = height)
    (hcols : mat.cols = width) (hsmall : 3 * (height * width) < 2 ^ 31)
    (hlength : dst.length = 3 * (height * width)) : FilledOnce mat height width dst := by
  have hfilled := hwc_eq_chwRow hrows hcols hsmall hlength
  refine ⟨_, (chwWrites (kPixelMean F) (kPixelScale F) mat height width).map (·.1), hfilled, ?_,
    chwWrites_perm _ _ _ _ _, length_chwRow _ _ _ _ _, fun c hc y hy x hx => chwRow_channel hc hy hx⟩
  subst hrows hcols
  rw [hwcBgrToChwRgbNormalized, writeChw_eq rfl rfl hsmall] at hfilled
  rw [writeChw_eq rfl rfl hsmall, foldlM_writeNoted hfilled]
  simp

end Planes

/-! ### The rows of the outputs -/

section Rows

theorem tdiv_mul_le {n : ℕ} {k stride : Int} (hk : 0 < k) (hs : k ≤ stride) :
    (n : Int).tdiv stride * k ≤ n := by
  have hnonneg : (0 : Int) ≤ n := Int.natCast_nonneg n
  rw [Int.tdiv_eq_ediv_of_nonneg hnonneg]
  have hquotient : 0 ≤ (n : Int) / stride := Int.ediv_nonneg hnonneg (by omega)
  calc (n : Int) / stride * k ≤ (n : Int) / stride * stride := mul_le_mul_of_nonneg_left hs hquotient
    _ ≤ n := Int.ediv_mul_le _ (by omega)

/-- Two anchors for every square of the stride. -/
theorem anchors_mul_le (width height : ℕ) {k stride : Int} (hk : 0 < k) (hs : k ≤ stride) :
    0 ≤ anchors width height stride ∧ anchors width height stride * (k * k) ≤ 2 * (height * width : ℕ) := by
  have hW : 0 ≤ (width : Int).tdiv stride := Int.tdiv_nonneg (by omega) (by omega)
  have hH : 0 ≤ (height : Int).tdiv stride := Int.tdiv_nonneg (by omega) (by omega)
  have hcells : (height : Int).tdiv stride * k * ((width : Int).tdiv stride * k) ≤ height * width :=
    mul_le_mul (tdiv_mul_le hk hs) (tdiv_mul_le hk hs) (mul_nonneg hW hk.le) (by omega)
  rw [anchors, kAnchorsPerLocation]
  push_cast
  constructor
  · positivity
  · linarith

theorem anchorCount_ok {width height : ℕ} {stride : Int} (hs : 0 < stride)
    (hsmall : 3 * (height * width) < 2 ^ 31) :
    anchorCount width height stride kAnchorsPerLocation = .ok (anchors width height stride) := by
  obtain ⟨hnonneg, hle⟩ := anchors_mul_le width height one_pos (by omega : 1 ≤ stride)
  have hcells : anchors width height stride = (height : Int).tdiv stride * (width : Int).tdiv stride * 2 := rfl
  rw [anchorCount, if_neg (by omega), int_ok.2 ⟨by omega, rfl⟩, ok_bind]
  exact int_ok.2 ⟨by rw [← anchors]; omega, rfl⟩

/-- The indices of a stride's rows, of their boxes and of their landmarks are computed in `int`. -/
def IndicesFit (width height stride : Int) : Prop :=
  ∀ y x a, (y, x, a) ∈ locations (height.tdiv stride) (width.tdiv stride) kAnchorsPerLocation →
    ∃ idx, int ((y * width.tdiv stride + x) * kAnchorsPerLocation + a) = .ok idx ∧
      int (idx * 4) = .ok (idx * 4) ∧ int (idx * 10) = .ok (idx * 10)

/-- The landmarks of the last row start last. -/
theorem indicesFit_iff {width height : ℕ} {stride : Int} (hs : 0 < stride) :
    IndicesFit width height stride ↔ 10 * (anchors width height stride - 1) < 2 ^ 31 := by
  constructor
  · intro h
    rcases anchors_zero_or_last hs (Int.natCast_nonneg width) (Int.natCast_nonneg height) with
      hzero | ⟨y, x, a, hl, -, hlast⟩
    · rw [hzero]
      decide
    · obtain ⟨idx, hidx, -, hten⟩ := h y x a hl
      obtain ⟨-, rfl⟩ := int_ok.1 hidx
      obtain ⟨⟨-, hlt⟩, -⟩ := int_ok.1 hten
      omega
  · intro hten y x a hl
    obtain ⟨hidx, hlt⟩ := index_lt_anchors hl
    exact ⟨_, int_ok.2 ⟨by omega, rfl⟩, int_ok.2 ⟨by omega, rfl⟩, int_ok.2 ⟨by omega, rfl⟩⟩

/-- From a stride of three on, a row's landmarks take no more room than its pixels. -/
theorem lastOffset_lt {width height : ℕ} {stride : Int} (hs : 3 ≤ stride)
    (hsmall : 3 * (height * width) < 2 ^ 31) : 10 * (anchors width height stride - 1) < 2 ^ 31 := by
  obtain ⟨_, hnine⟩ := anchors_mul_le width height three_pos hs
  omega

end Rows

/-! ### Every configured size -/

section Tensor

variable {F : Type}

/-- The length of `input_scratch_`, computed in 32 bits. -/
def scratchFloats (cfg : DetectionConfig F) : ℕ :=
  (3 * cfg.inputHeight * cfg.inputWidth).toNat

theorem scratchFloats_eq (cfg : DetectionConfig F) :
    scratchFloats cfg = 3 * (cfg.inputHeight.toNat * cfg.inputWidth.toNat) % 2 ^ 32 := by
  rw [scratchFloats, UInt32.toNat_mul, UInt32.toNat_mul, Nat.mod_mul_mod, Nat.mul_assoc]
  rfl

variable [Field F] [LinearOrder F] [FloorRing F]

/-- What is expected of the sizes and of the tensor that are computed for a configuration and a stride. -/
structure FillsTensor (cv : Resizer) (cfg : DetectionConfig F) (stride : Int) : Prop where
  scratch : scratchFloats cfg = 3 * (cfg.inputHeight.toNat * cfg.inputWidth.toNat)
  anchorCount : anchorCount (castInt cfg.inputWidth.toNat) (castInt cfg.inputHeight.toNat) stride
    kAnchorsPerLocation = .ok (anchors cfg.inputWidth.toNat cfg.inputHeight.toNat stride)
  indices : IndicesFit (castInt cfg.inputWidth.toNat) (castInt cfg.inputHeight.toNat) stride
  tensor : ∀ (src : Image) (lb : LetterboxResult F) (mat : Mat),
    letterbox cv src (castInt cfg.inputWidth.toNat) (castInt cfg.inputHeight.toNat) = .ok lb →
    lb.image = .bgr8 mat → ∀ dst : List F, dst.length = scratchFloats cfg →
    FilledOnce mat cfg.inputHeight.toNat cfg.inputWidth.toNat dst
  /-- Two images of one tensor are equal. -/
  recovered : ∀ mat mat' : Mat,
    mat.rows = cfg.inputHeight.toNat ∧ mat.cols = cfg.inputWidth.toNat →
    mat'.rows = cfg.inputHeight.toNat ∧ mat'.cols = cfg.inputWidth.toNat → ∀ dst dst' tensor : List F,
    dst.length = scratchFloats cfg → dst'.length = scratchFloats cfg →
    hwcBgrToChwRgbNormalized (.bgr8 mat) dst = .ok tensor →
    hwcBgrToChwRgbNormalized (.bgr8 mat') dst' = .ok tensor →
    ∀ y < mat.rows, ∀ x < mat.cols, mat.pixel y x = mat'.pixel y x

/-- The letterboxed image has the size that was asked for. -/
theorem letterbox_size {cv : Resizer} {src : Image} {targetW targetH : Int} {lb : LetterboxResult F}
    (h : letterbox cv src targetW targetH = .ok lb) :
    (lb.image.rows : Int) = targetH ∧ (lb.image.cols : Int) = targetW := by
  unfold letterbox at h
  split_ifs at h
  · simp at h
  · simp at h
  · simp at h
  · dsimp only at h
    obtain ⟨_, _, h⟩ := bind_ok.1 h
    obtain ⟨_, _, h⟩ := bind_ok.1 h
    obtain ⟨_, _, h⟩ := bind_ok.1 h
    obtain ⟨_, _, h⟩ := bind_ok.1 h
    obtain ⟨resized, _, h⟩ := bind_ok.1 h
    obtain ⟨image, himage, h⟩ := bind_ok.1 h
    obtain rfl := Except.ok.inj h
    have hplaced := mapError_ok.1 himage
    unfold placed at hplaced
    split_ifs at hplaced with hroi
    cases resized with
    | bgr8 mat =>
      obtain rfl := Except.ok.inj hplaced
      exact ⟨Int.toNat_of_nonneg (by omega), Int.toNat_of_nonneg (by omega)⟩
    | other rows cols =>
      obtain rfl := Except.ok.inj hplaced
      exact ⟨Int.toNat_of_nonneg (by omega), Int.toNat_of_nonneg (by omega)⟩

theorem normalized_injective : Function.Injective (normalized (kPixelMean F) (kPixelScale F)) := by
  intro a b h
  have hscale : kPixelScale F ≠ 0 := by
    rw [kPixelScale]
    norm_num
  have hcast : (a.toNat : F) = b.toNat := sub_left_injective ((div_left_inj' hscale).1 h)
  exact UInt8.toNat_inj.1 (Nat.cast_injective hcast)

theorem pixel_eq_of_chwRow {mat mat' : Mat} {height width y x : ℕ} (hy : y < height) (hx : x < width)
    (h : chwRow (kPixelMean F) (kPixelScale F) mat height width =
      chwRow (kPixelMean F) (kPixelScale F) mat' height width) : mat.pixel y x = mat'.pixel y x := by
  refine channel_ext fun c hc => ?_
  have hslot := congrArg (fun row : List F => row[c * (height * width) + (y * width + x)]?) h
  simp only [chwRow_channel hc hy hx] at hslot
  exact normalized_injective (Option.some.inj hslot)

variable [IsStrictOrderedRing F] [ToString F]

/-- **The tensor is filled exactly**, for every configured size below `2 ^ 31` floats and for no other, and the
rows of a stride are indexed exactly as long as the landmarks of the last one start below `2 ^ 31`. -/
theorem fillsTensor_iff (cv : Resizer) (cfg : DetectionConfig F) (stride : Int) (hs : 0 < stride)
    (hvalid : cfg.validate = .ok ()) :
    FillsTensor cv cfg stride ↔ 3 * (cfg.inputHeight.toNat * cfg.inputWidth.toNat) < 2 ^ 31 ∧
      10 * (anchors cfg.inputWidth.toNat cfg.inputHeight.toNat stride - 1) < 2 ^ 31 := by
  have hpos : ∀ n : UInt32, n ≠ 0 → 0 < n.toNat := fun n hn =>
    Nat.pos_of_ne_zero fun h0 => hn (UInt32.toNat_inj.1 h0)
  have hH := hpos _ (DetectionConfig.validate_ok.1 hvalid).height_pos
  have hW := hpos _ (DetectionConfig.validate_ok.1 hvalid).width_pos
  have hH_le := Nat.le_mul_of_pos_right cfg.inputHeight.toNat hW
  have hW_le := Nat.le_mul_of_pos_left cfg.inputWidth.toNat hH
  have hscratch := scratchFloats_eq cfg
  constructor
  · intro h
    have hfloats := h.scratch
    have hH_lt : cfg.inputHeight.toNat < 2 ^ 31 := by omega
    have hW_lt : cfg.inputWidth.toNat < 2 ^ 31 := by omega
    have hH_cast := castInt_eq (n := cfg.inputHeight.toNat) (by omega) (by omega)
    have hW_cast := castInt_eq (n := cfg.inputWidth.toNat) (by omega) (by omega)
    have hindices := h.indices
    rw [hH_cast, hW_cast, indicesFit_iff hs] at hindices
    refine ⟨?_, hindices⟩
    obtain ⟨lb, hlb, canvas, himage, hrows, hcols⟩ := letterbox_of_size (F := F) cv
      ⟨cfg.inputHeight.toNat, cfg.inputWidth.toNat, fun _ _ => ⟨0, 0, 0⟩⟩
      ⟨hW, hW_lt⟩ ⟨hH, hH_lt⟩
    obtain ⟨_, _, hrun, _⟩ := h.tensor _ lb canvas (by rw [hH_cast, hW_cast]; exact hlb) himage
      (List.replicate (scratchFloats cfg) 0) List.length_replicate
    have hle := le_of_writeChw_ok (hrows ▸ hH) (hcols ▸ hW) hrun
    rw [hrows, hcols] at hle
    simp only at hle
    omega
  · rintro ⟨hsmall, hlast⟩
    have hH_cast := castInt_eq (n := cfg.inputHeight.toNat) (by omega) (by omega)
    have hW_cast := castInt_eq (n := cfg.inputWidth.toNat) (by omega) (by omega)
    rw [Nat.mod_eq_of_lt (by omega)] at hscratch
    constructor
    · exact hscratch
    · rw [hH_cast, hW_cast]
      exact anchorCount_ok hs hsmall
    · rw [hH_cast, hW_cast]
      exact (indicesFit_iff hs).2 hlast
    · intro src lb mat hlb himage dst hdst
      obtain ⟨hrows, hcols⟩ := letterbox_size hlb
      rw [himage, hH_cast] at hrows
      rw [himage, hW_cast] at hcols
      exact filledOnce_of_lt (Int.ofNat_inj.1 hrows) (Int.ofNat_inj.1 hcols) hsmall (hdst.trans hscratch)
    · intro mat mat' hmat hmat' dst dst' tensor hdst hdst' hrun hrun' y hy x hx
      rw [hwc_eq_chwRow hmat.1 hmat.2 hsmall (hdst.trans hscratch)] at hrun
      rw [hwc_eq_chwRow hmat'.1 hmat'.2 hsmall (hdst'.trans hscratch)] at hrun'
      exact pixel_eq_of_chwRow (hmat.1 ▸ hy) (hmat.2 ▸ hx) (Except.ok.inj (hrun.trans hrun'.symm))

/-- A square input. -/
def squareInput (side : UInt32) : DetectionConfig ℚ :=
  { enginePath := "scrfd.engine", inputWidth := side, inputHeight := side,
    confidenceThreshold := 1 / 2, nmsIouThreshold := 4 / 10 }

theorem fillsTensor_640 : FillsTensor blackResizer (squareInput 640) 8 :=
  (fillsTensor_iff blackResizer (squareInput 640) 8 (by decide) (by decide +kernel)).2
    ⟨by decide, lastOffset_lt (by decide) (by decide)⟩

/-- The product wraps around to zero. -/
theorem not_fillsTensor_65536 : (squareInput 65536).validate = .ok () ∧
    scratchFloats (squareInput 65536) = 0 ∧ ¬FillsTensor blackResizer (squareInput 65536) 8 := by
  refine ⟨by decide +kernel, by decide, fun h => ?_⟩
  exact absurd h.scratch (by decide)

/-- The input tensor of an engine with a row for every anchor of every pixel is filled, but not indexed. -/
theorem not_fillsTensor_10400 : 3 * ((squareInput 10400).inputHeight.toNat *
    (squareInput 10400).inputWidth.toNat) < 2 ^ 31 ∧ ¬FillsTensor blackResizer (squareInput 10400) 1 := by
  refine ⟨by decide, fun h => ?_⟩
  have hside : castInt (squareInput 10400).inputWidth.toNat = (10400 : ℕ) := by decide
  have hindices := h.indices
  rw [show (squareInput 10400).inputHeight = (squareInput 10400).inputWidth from rfl, hside,
    indicesFit_iff one_pos] at hindices
  exact absurd hindices (by decide)

end Tensor

end FacePipeline.Trt
