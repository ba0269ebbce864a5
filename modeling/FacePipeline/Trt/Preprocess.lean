import FacePipeline.Lib.Scratch
import FacePipeline.Trt.ScrfdPostprocess

/-!
# From pixels to an input tensor

Both networks read an image as three planes of normalized floats, red first. The loops write three
floats for every pixel, each to a position computed in `int`, and together they fill one row of
`3 * H * W` floats (`writeChw_ok`).
-/

namespace FacePipeline.Trt

open Scratch Traverse

/-- `cv::Vec3b`, in BGR order. -/
structure Vec3b where
  b : UInt8
  g : UInt8
  r : UInt8
  deriving DecidableEq, Repr

/-- A `cv::Mat` of type `CV_8UC3`. -/
structure Mat where
  rows : ℕ
  cols : ℕ
  pixel : ℕ → ℕ → Vec3b

/-- `image.ptr<cv::Vec3b>(y)[x]`. -/
def Mat.at (image : Mat) (y x : Int) : Except Stop Vec3b :=
  if 0 ≤ y ∧ y < image.rows ∧ 0 ≤ x ∧ x < image.cols then .ok (image.pixel y.toNat x.toNat)
  else .error (.undefined "read past the end of an image")

section Loops

variable {F : Type} [NatCast F] [Sub F] [Div F]

/-- `dst[i] = value`, for a `dst` that points `offset` floats into the buffer. -/
def writeAt (buffer : List F) (offset : ℕ) (i : Int) (value : F) : Except Stop (List F) :=
  if 0 ≤ i ∧ offset + i.toNat < buffer.length then .ok (buffer.set (offset + i.toNat) value)
  else .error (.undefined "write past the end of an array")

/-- `(static_cast<float>(channel) - mean) / scale`. -/
def normalized (mean scale : F) (channel : UInt8) : F :=
  ((channel.toNat : F) - mean) / scale

/-- The body of the loops. What a write does is an argument: `writeAt`, or one that is logged too. -/
def writePixel {S : Type} (write : S → ℕ → Int → F → Except Stop S) (mean scale : F) (image : Mat)
    (width channelStride : Int) (offset : ℕ) (state : S) (at_ : Int × Int) : Except Stop S := do
  let (y, x) := at_
  let px ← image.at y x
  let idx ← int (y * width + x)
  let i ← int (0 * channelStride + idx)
  let state ← write state offset i (normalized mean scale px.r)
  let i ← int (1 * channelStride + idx)
  let state ← write state offset i (normalized mean scale px.g)
  let i ← int (2 * channelStride + idx)
  write state offset i (normalized mean scale px.b)

/-- The two loops: row and column. -/
def pixels (height width : Int) : List (Int × Int) :=
  (upTo height).flatMap fun y => (upTo width).map fun x => (y, x)

/-- BGR to RGB, and interleaved to planar. -/
def writeChw {S : Type} (write : S → ℕ → Int → F → Except Stop S) (mean scale : F) (image : Mat)
    (height width : Int) (offset : ℕ) (state : S) : Except Stop S := do
  let channelStride ← int (height * width)
  (pixels height width).foldlM (writePixel write mean scale image width channelStride offset) state

/-- Slot `k` of the planar row. -/
def chwSlot (mean scale : F) (image : Mat) (height width k : ℕ) : F :=
  let px := image.pixel (k % (height * width) / width) (k % width)
  normalized mean scale
    (if k / (height * width) = 0 then px.r else if k / (height * width) = 1 then px.g else px.b)

/-- The planar row of an image. -/
def chwRow (mean scale : F) (image : Mat) (height width : ℕ) : List F :=
  (List.range (3 * (height * width))).map (chwSlot mean scale image height width)

/-! ### The writes of one pixel -/

theorem mem_pixels {height width y x : Int} :
    (y, x) ∈ pixels height width ↔ (0 ≤ y ∧ y < height) ∧ 0 ≤ x ∧ x < width := by
  simp only [pixels, List.mem_flatMap, List.mem_map, mem_upTo, Prod.mk.injEq]
  constructor
  · rintro ⟨y', hy, x', hx, rfl, rfl⟩
    exact ⟨hy, hx⟩
  · rintro ⟨hy, hx⟩
    exact ⟨y, hy, x, hx, rfl, rfl⟩

/-- Where a pixel goes, and what goes there. -/
def pixelWrites (mean scale : F) (image : Mat) (height width offset : ℕ) (at_ : Int × Int) :
    List (ℕ × F) :=
  let (y, x) := at_
  let idx := y.toNat * width + x.toNat
  let px := image.pixel y.toNat x.toNat
  [(offset + idx, normalized mean scale px.r),
    (offset + (height * width + idx), normalized mean scale px.g),
    (offset + (2 * (height * width) + idx), normalized mean scale px.b)]

omit [NatCast F] [Sub F] [Div F] in
theorem writeAt_ok {buffer : List F} {offset k : ℕ} {value : F} (h : offset + k < buffer.length) :
    writeAt buffer offset k value = .ok (buffer.set (offset + k) value) := by
  rw [writeAt, Int.toNat_natCast, if_pos ⟨Int.natCast_nonneg k, h⟩]

/-- A position in a grid determines its row and its column. -/
theorem grid_index_lt {height width y x : ℕ} (hy : y < height) (hx : x < width) :
    y * width + x < height * width := by
  calc y * width + x < y * width + width := by omega
    _ = (y + 1) * width := (Nat.succ_mul y width).symm
    _ ≤ height * width := Nat.mul_le_mul_right width hy

theorem int_natCast {n : ℕ} (h : n < 2 ^ 31) : int n = .ok (n : Int) :=
  int_ok.2 ⟨by omega, rfl⟩

/-- A pixel is three single writes. -/
theorem writePixel_eq {S : Type} {write : S → ℕ → Int → F → Except Stop S} {mean scale : F}
    {image : Mat} {height width offset : ℕ} {state : S} (hrows : image.rows = height)
    (hcols : image.cols = width) (hsmall : 3 * (height * width) < 2 ^ 31) {at_ : Int × Int}
    (hat : at_ ∈ pixels height width) :
    writePixel write mean scale image width (height * width : ℕ) offset state at_ =
      (pixelWrites mean scale image height width 0 at_).foldlM
        (fun state w => write state offset w.1 w.2) state := by
  obtain ⟨y, x⟩ := at_
  obtain ⟨⟨hy, hy'⟩, hx, hx'⟩ := mem_pixels.1 hat
  obtain ⟨y, rfl⟩ := Int.eq_ofNat_of_zero_le hy
  obtain ⟨x, rfl⟩ := Int.eq_ofNat_of_zero_le hx
  have hidx := grid_index_lt (Int.ofNat_lt.1 hy') (Int.ofNat_lt.1 hx')
  have hpixel : image.at y x = .ok (image.pixel y x) := by
    rw [Mat.at, if_pos (by omega)]
    rfl
  have hplane : ∀ c : ℕ, c < 3 → ∀ c' : Int, c' = c →
      int (c' * (height * width : ℕ) + (y * width + x : ℕ)) =
        .ok ((c * (height * width) + (y * width + x) : ℕ) : Int) := by
    rintro c hc _ rfl
    have hle : c * (height * width) ≤ 2 * (height * width) :=
      Nat.mul_le_mul_right _ (Nat.le_of_lt_succ hc)
    exact_mod_cast int_natCast (n := c * (height * width) + (y * width + x)) (by omega)
  have hcast : (y * width + x : Int) = (y * width + x : ℕ) := by
    push_cast
    rfl
  have hcolumn : int (y * width + x) = .ok ((y * width + x : ℕ) : Int) := by
    rw [hcast, int_natCast (by omega)]
  have hred := hplane 0 (by decide) 0 rfl
  have hgreen := hplane 1 (by decide) 1 rfl
  have hblue := hplane 2 (by decide) 2 rfl
  rw [Nat.zero_mul] at hred
  rw [Nat.one_mul] at hgreen
  rw [writePixel, hpixel, ok_bind, hcolumn, ok_bind, hred, ok_bind]
  simp only [hgreen, hblue, ok_bind, pixelWrites, List.foldlM_cons, List.foldlM_nil, Int.toNat_natCast,
    bind_pure, Nat.zero_add]

/-- The single writes of the loops, in their order. -/
def chwWrites (mean scale : F) (image : Mat) (height width : ℕ) : List (ℕ × F) :=
  (pixels height width).flatMap (pixelWrites mean scale image height width 0)

/-- **The loops are single writes**, one after the other. -/
theorem writeChw_eq {S : Type} {write : S → ℕ → Int → F → Except Stop S} {mean scale : F}
    {image : Mat} {height width offset : ℕ} {state : S} (hrows : image.rows = height)
    (hcols : image.cols = width) (hsmall : 3 * (height * width) < 2 ^ 31) :
    writeChw write mean scale image height width offset state =
      (chwWrites mean scale image height width).foldlM
        (fun state w => write state offset w.1 w.2) state := by
  have hstride : int ((height : Int) * width) = .ok ((height * width : ℕ) : Int) := by
    rw [← int_natCast (by omega), Nat.cast_mul]
  rw [writeChw, hstride, ok_bind, chwWrites, foldlM_flatMap]
  exact foldlM_congr fun at_ hat state => writePixel_eq hrows hcols hsmall hat

omit [NatCast F] [Sub F] [Div F] in
theorem foldlM_writeAt_ok {offset : ℕ} {ws : List (ℕ × F)} {buffer : List F}
    (h : ∀ w ∈ ws, offset + w.1 < buffer.length) :
    ws.foldlM (fun buffer w => writeAt buffer offset w.1 w.2) buffer =
      .ok (setAll buffer (ws.map fun w => (offset + w.1, w.2))) := by
  induction ws generalizing buffer with
  | nil => rfl
  | cons w ws ih =>
    rw [List.forall_mem_cons] at h
    rw [List.foldlM_cons, writeAt_ok h.1, ok_bind]
    exact ih fun w' hw' => by
      rw [List.length_set]
      exact h.2 w' hw'

/-! ### The row that the loops fill -/

/-- Slot `c * H * W + y * W + x` holds channel `c` of the pixel in row `y` and column `x`. -/
theorem slot_coordinates {height width c y x : ℕ} (hy : y < height) (hx : x < width) :
    (c * (height * width) + (y * width + x)) / (height * width) = c ∧
      (c * (height * width) + (y * width + x)) % (height * width) / width = y ∧
      (c * (height * width) + (y * width + x)) % width = x := by
  have hidx := grid_index_lt hy hx
  have hmod : (c * (height * width) + (y * width + x)) % (height * width) = y * width + x := by
    rw [Nat.mul_add_mod_of_lt hidx]
  refine ⟨?_, ?_, ?_⟩
  · rw [Nat.add_comm, Nat.add_mul_div_right _ _ (by omega), Nat.div_eq_of_lt hidx, Nat.zero_add]
  · rw [hmod, Nat.add_comm, Nat.add_mul_div_right _ _ (by omega), Nat.div_eq_of_lt hx, Nat.zero_add]
  · rw [show c * (height * width) + (y * width + x) = (c * height + y) * width + x by ring,
      Nat.mul_add_mod_of_lt hx]

@[simp] theorem length_chwRow (mean scale : F) (image : Mat) (height width : ℕ) :
    (chwRow mean scale image height width).length = 3 * (height * width) := by
  simp [chwRow]

theorem chwRow_getElem? {mean scale : F} {image : Mat} {height width k : ℕ}
    (hk : k < 3 * (height * width)) :
    (chwRow mean scale image height width)[k]? = some (chwSlot mean scale image height width k) := by
  rw [chwRow, List.getElem?_map, List.getElem?_range hk, Option.map_some]

theorem chwSlot_eq {mean scale : F} {image : Mat} {height width c y x : ℕ} (hy : y < height)
    (hx : x < width) : chwSlot mean scale image height width (c * (height * width) + (y * width + x)) =
      normalized mean scale (if c = 0 then (image.pixel y x).r
        else if c = 1 then (image.pixel y x).g else (image.pixel y x).b) := by
  obtain ⟨hc, hrow, hcolumn⟩ := slot_coordinates (c := c) hy hx
  simp only [chwSlot, hc, hrow, hcolumn]

/-- What a pixel writes is what the row holds. -/
theorem pixelWrites_value {mean scale : F} {image : Mat} {height width offset : ℕ} {at_ : Int × Int}
    (hat : at_ ∈ pixels height width) {w : ℕ × F}
    (hw : w ∈ pixelWrites mean scale image height width offset at_) :
    offset ≤ w.1 ∧ (chwRow mean scale image height width)[w.1 - offset]? = some w.2 := by
  obtain ⟨y, x⟩ := at_
  obtain ⟨⟨hy, hy'⟩, hx, hx'⟩ := mem_pixels.1 hat
  obtain ⟨y, rfl⟩ := Int.eq_ofNat_of_zero_le hy
  obtain ⟨x, rfl⟩ := Int.eq_ofNat_of_zero_le hx
  have hy := Int.ofNat_lt.1 hy'
  have hx := Int.ofNat_lt.1 hx'
  have hidx := grid_index_lt hy hx
  have hslot : ∀ c < 3, (chwRow mean scale image height width)[
      offset + (c * (height * width) + (y * width + x)) - offset]? =
        some (normalized mean scale (if c = 0 then (image.pixel y x).r
          else if c = 1 then (image.pixel y x).g else (image.pixel y x).b)) := fun c hc => by
    have hle : c * (height * width) ≤ 2 * (height * width) :=
      Nat.mul_le_mul_right _ (Nat.le_of_lt_succ hc)
    rw [Nat.add_sub_cancel_left, chwRow_getElem? (by omega), chwSlot_eq hy hx]
  simp only [pixelWrites, List.mem_cons, List.not_mem_nil, or_false] at hw
  rcases hw with rfl | rfl | rfl
  · refine ⟨Nat.le_add_right _ _, ?_⟩
    have hred := hslot 0 (by decide)
    rw [Nat.zero_mul, Nat.zero_add] at hred
    exact hred
  · refine ⟨Nat.le_add_right _ _, ?_⟩
    have hgreen := hslot 1 (by decide)
    rw [Nat.one_mul] at hgreen
    exact hgreen
  · exact ⟨Nat.le_add_right _ _, hslot 2 (by decide)⟩

/-- Every slot is one of some pixel. -/
theorem exists_pixelWrites (mean scale : F) (image : Mat) {height width k : ℕ} (offset : ℕ)
    (hk : k < 3 * (height * width)) : ∃ at_ ∈ pixels height width,
      ∃ w ∈ pixelWrites mean scale image height width offset at_, w.1 = offset + k := by
  have hpos : 0 < height * width := by omega
  have hwidth : 0 < width := Nat.pos_of_mul_pos_left hpos
  have hy : k % (height * width) / width < height := by
    rw [Nat.div_lt_iff_lt_mul hwidth]
    exact Nat.mod_lt _ hpos
  have hx : k % (height * width) % width < width := Nat.mod_lt _ hwidth
  have hk_eq : k = k / (height * width) * (height * width) +
      (k % (height * width) / width * width + k % (height * width) % width) := by
    rw [Nat.div_add_mod', Nat.div_add_mod']
  have hplane : k / (height * width) < 3 := by
    rwa [Nat.div_lt_iff_lt_mul hpos]
  refine ⟨((k % (height * width) / width : ℕ), (k % (height * width) % width : ℕ)),
    mem_pixels.2 ⟨⟨Int.natCast_nonneg _, Int.ofNat_lt.2 hy⟩, Int.natCast_nonneg _,
      Int.ofNat_lt.2 hx⟩, ?_⟩
  generalize k % (height * width) / width = y at *
  generalize k % (height * width) % width = x at *
  generalize k / (height * width) = c at *
  rcases (by omega : c = 0 ∨ c = 1 ∨ c = 2) with rfl | rfl | rfl
  · refine ⟨_, List.mem_cons_self, ?_⟩
    rw [hk_eq, Nat.zero_mul, Nat.zero_add]
    rfl
  · refine ⟨_, List.mem_cons_of_mem _ List.mem_cons_self, ?_⟩
    rw [hk_eq, Nat.one_mul]
    rfl
  · refine ⟨_, List.mem_cons_of_mem _ (List.mem_cons_of_mem _ List.mem_cons_self), ?_⟩
    rw [hk_eq]
    rfl

theorem chwWrites_value {mean scale : F} {image : Mat} {height width : ℕ} {w : ℕ × F}
    (hw : w ∈ chwWrites mean scale image height width) :
    (chwRow mean scale image height width)[w.1]? = some w.2 := by
  obtain ⟨at_, hat, hw⟩ := List.mem_flatMap.1 hw
  exact (pixelWrites_value hat hw).2

theorem chwWrites_lt {mean scale : F} {image : Mat} {height width : ℕ} {w : ℕ × F}
    (hw : w ∈ chwWrites mean scale image height width) : w.1 < 3 * (height * width) := by
  have hlt := (List.getElem?_eq_some_iff.1 (chwWrites_value hw)).1
  rwa [length_chwRow] at hlt

theorem exists_chwWrites (mean scale : F) (image : Mat) {height width k : ℕ}
    (hk : k < 3 * (height * width)) : ∃ w ∈ chwWrites mean scale image height width, w.1 = k := by
  obtain ⟨at_, hat, w, hw, hwk⟩ := exists_pixelWrites mean scale image 0 hk
  exact ⟨w, List.mem_flatMap.2 ⟨at_, hat, hw⟩, by rw [hwk, Nat.zero_add]⟩

omit [NatCast F] [Sub F] [Div F] in
theorem length_writeAt {buffer buffer' : List F} {offset : ℕ} {i : Int} {value : F}
    (h : writeAt buffer offset i value = .ok buffer') : buffer'.length = buffer.length := by
  rw [writeAt] at h
  split_ifs at h
  obtain rfl := Except.ok.inj h
  exact List.length_set

/-- A buffer keeps its length, whatever is written into it. -/
theorem length_writeChw {mean scale : F} {image : Mat} {height width : Int} {offset : ℕ}
    {buffer buffer' : List F}
    (h : writeChw writeAt mean scale image height width offset buffer = .ok buffer') :
    buffer'.length = buffer.length := by
  obtain ⟨channelStride, _, hloop⟩ := bind_ok.1 h
  clear h
  generalize pixels height width = ats at hloop
  induction ats generalizing buffer with
  | nil => rw [Except.ok.inj hloop]
  | cons at_ ats ih =>
    rw [List.foldlM_cons] at hloop
    obtain ⟨buffer₁, hfirst, hrest⟩ := bind_ok.1 hloop
    obtain ⟨_, _, hfirst⟩ := bind_ok.1 hfirst
    obtain ⟨_, _, hfirst⟩ := bind_ok.1 hfirst
    obtain ⟨_, _, hfirst⟩ := bind_ok.1 hfirst
    obtain ⟨_, hr, hfirst⟩ := bind_ok.1 hfirst
    obtain ⟨_, _, hfirst⟩ := bind_ok.1 hfirst
    obtain ⟨_, hg, hfirst⟩ := bind_ok.1 hfirst
    obtain ⟨_, _, hb⟩ := bind_ok.1 hfirst
    rw [ih hrest, length_writeAt hb, length_writeAt hg, length_writeAt hr]

/-- **The loops fill one row.** -/
theorem writeChw_ok {mean scale : F} {image : Mat} {height width offset : ℕ} {buffer : List F}
    (hrows : image.rows = height) (hcols : image.cols = width)
    (hsmall : 3 * (height * width) < 2 ^ 31)
    (hfit : offset + 3 * (height * width) ≤ buffer.length) :
    writeChw writeAt mean scale image height width offset buffer =
      .ok (overlay offset (chwRow mean scale image height width) buffer) := by
  have hinside : ∀ w ∈ chwWrites mean scale image height width, offset + w.1 < buffer.length := by
    intro w hw
    have := chwWrites_lt hw
    omega
  rw [writeChw_eq hrows hcols hsmall, foldlM_writeAt_ok hinside]
  refine congrArg _ (setAll_eq_overlay (by rwa [length_chwRow]) ?_ ?_)
  · intro w hw
    obtain ⟨w', hw', rfl⟩ := List.mem_map.1 hw
    exact ⟨Nat.le_add_right _ _, by rw [Nat.add_sub_cancel_left, chwWrites_value hw']⟩
  · intro k hk
    rw [length_chwRow] at hk
    obtain ⟨w, hw, rfl⟩ := exists_chwWrites mean scale image hk
    exact ⟨_, List.mem_map_of_mem hw, rfl⟩

end Loops

end FacePipeline.Trt
