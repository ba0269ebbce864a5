import FacePipeline.Basic
import FacePipeline.Lib.Traverse
import Mathlib.Data.List.ReduceOption
import Mathlib.Tactic.Linarith
import Mathlib.Tactic.Ring

/-!
# Decoding the detector's output

`anchor_count` and `decode_stride`, over arrays whose lengths are known: a read past the end of an
array and an `int` that overflows are undefined. A row for every anchor is enough
(`decodeStride_ok_of_le`), and is needed when every score reaches the threshold
(`le_of_decodeStride_ok`).
-/

namespace FacePipeline.Trt

open Traverse

/-- Feature-map strides emitted by the standard SCRFD export. -/
def kStrides : List Int := [8, 16, 32]

/-- Anchors placed at every feature-map location, for every stride. -/
def kAnchorsPerLocation : Int := 2

structure FaceDetection (F : Type) where
  bbox : Rect2f F
  landmarks : Landmarks F
  score : F
  deriving DecidableEq

/-- A result of `int` arithmetic. -/
def int (n : Int) : Except Stop Int :=
  if -2 ^ 31 ≤ n ∧ n < 2 ^ 31 then .ok n else .error (.undefined "signed integer overflow")

/-- `static_cast<int>`. -/
def castInt (n : Int) : Int :=
  n.bmod (2 ^ 32)

def anchorCount (inputW inputH stride anchorsPerLocation : Int) : Except Stop Int :=
  if stride ≤ 0 then
    .error (.throws (.invalidArgument "anchor_count: stride must be positive"))
  else do
    let cells ← int (inputH.tdiv stride * inputW.tdiv stride)
    int (cells * anchorsPerLocation)

/-- The number of anchors of a stride, as `anchor_count` computes it when nothing overflows. -/
def anchors (inputW inputH stride : Int) : Int :=
  inputH.tdiv stride * inputW.tdiv stride * kAnchorsPerLocation

theorem int_ok {n m : Int} : int n = .ok m ↔ (-2 ^ 31 ≤ n ∧ n < 2 ^ 31) ∧ n = m := by
  rw [int]
  split_ifs with h
  · simpa using fun _ => h
  · exact iff_of_false (by simp) fun hm => h hm.1

theorem castInt_eq {n : Int} (hpos : 0 ≤ n) (hlt : n < 2 ^ 31) : castInt n = n :=
  Int.bmod_eq_of_le (by omega) (by omega)

/-- The number of rows, as `anchor_count` returns it. -/
theorem anchorCount_eq {inputW inputH stride anchorsPerLocation n : Int}
    (h : anchorCount inputW inputH stride anchorsPerLocation = .ok n) : 0 < stride ∧
      n = inputH.tdiv stride * inputW.tdiv stride * anchorsPerLocation ∧ n < 2 ^ 31 := by
  unfold anchorCount at h
  split_ifs at h with hs
  obtain ⟨cells, hcells, hn⟩ := bind_ok.1 h
  obtain ⟨_, rfl⟩ := int_ok.1 hcells
  obtain ⟨⟨_, hlt⟩, rfl⟩ := int_ok.1 hn
  exact ⟨not_le.1 hs, rfl, hlt⟩

section Decoding

variable {F : Type}

/-- `xs[i]`, …, `xs[i + n - 1]`. -/
def readAt (xs : List F) (i : Int) (n : ℕ) : Except Stop (Vector F n) :=
  if h : 0 ≤ i ∧ i.toNat + n ≤ xs.length then
    .ok (Vector.ofFn fun k : Fin n => xs.get ⟨i.toNat + k, by omega⟩)
  else .error (.undefined "read past the end of an array")

/-- `for (int i = 0; i < n; ++i)`. -/
def upTo (n : Int) : List Int :=
  (List.range n.toNat).map Int.ofNat

/-- The three loops of `decode_stride`: row, column and anchor. -/
def locations (featH featW anchorsPerLocation : Int) : List (Int × Int × Int) :=
  (upTo featH).flatMap fun y => (upTo featW).flatMap fun x =>
    (upTo anchorsPerLocation).map fun a => (y, x, a)

variable [Add F] [Sub F] [Mul F] [Div F] [IntCast F] [LT F] [DecidableLT F]

/-- Map a point from letterboxed coordinates back to the original frame. -/
def undoLetterbox (x y scale : F) (padX padY : Int) : Point2f F :=
  ⟨(x - padX) / scale, (y - padY) / scale⟩

def distance2bbox (anchor : Point2f F) (distances : Vector F 4) (stride scale : F)
    (padX padY : Int) : Rect2f F :=
  let l := distances[0] * stride
  let t := distances[1] * stride
  let r := distances[2] * stride
  let b := distances[3] * stride
  let tl := undoLetterbox (anchor.x - l) (anchor.y - t) scale padX padY
  let br := undoLetterbox (anchor.x + r) (anchor.y + b) scale padX padY
  ⟨tl.x, tl.y, br.x - tl.x, br.y - tl.y⟩

def distance2kps (anchor : Point2f F) (offsets : Vector F 10) (stride scale : F)
    (padX padY : Int) : Landmarks F :=
  Vector.ofFn fun k : Fin 5 =>
    undoLetterbox (anchor.x + offsets[k.val * 2] * stride)
      (anchor.y + offsets[k.val * 2 + 1] * stride) scale padX padY

/-- The body of the loops; `none` for a score below the threshold. -/
def decodeAt (stride featW anchorsPerLocation : Int) (scores bboxes kps : List F)
    (scoreThresh scale : F) (padX padY : Int) (at_ : Int × Int × Int) :
    Except Stop (Option (FaceDetection F)) := do
  let (y, x, a) := at_
  let idx ← int ((y * featW + x) * anchorsPerLocation + a)
  let score ← readAt scores idx 1
  if score[0] < scoreThresh then
    return none
  let anchorX ← int (x * stride)
  let anchorY ← int (y * stride)
  let anchor : Point2f F := ⟨anchorX, anchorY⟩
  let bboxAt ← int (idx * 4)
  let distances ← readAt bboxes bboxAt 4
  let kpsAt ← int (idx * 10)
  let offsets ← readAt kps kpsAt 10
  return some
    { bbox := distance2bbox anchor distances stride scale padX padY
      landmarks := distance2kps anchor offsets stride scale padX padY
      score := score[0] }

def decodeStride (stride inputW inputH anchorsPerLocation : Int) (scores bboxes kps : List F)
    (scoreThresh scale : F) (padX padY : Int) (out : List (FaceDetection F)) :
    Except Stop (List (FaceDetection F)) :=
  if stride = 0 then .error (.undefined "division by zero")
  else do
    let featH := inputH.tdiv stride
    let featW := inputW.tdiv stride
    let decoded ← traverseIdx (fun _ => decodeAt stride featW anchorsPerLocation scores bboxes kps
      scoreThresh scale padX padY) 0 (locations featH featW anchorsPerLocation)
    return out ++ decoded.reduceOption

end Decoding

/-! ### The indices of the loops -/

theorem mem_upTo {n i : Int} : i ∈ upTo n ↔ 0 ≤ i ∧ i < n := by
  rw [upTo, List.mem_map]
  constructor
  · rintro ⟨k, hk, rfl⟩
    have := List.mem_range.1 hk
    show 0 ≤ (k : Int) ∧ (k : Int) < n
    omega
  · intro h
    exact ⟨i.toNat, List.mem_range.2 (by omega), Int.toNat_of_nonneg h.1⟩

theorem mem_locations {featH featW anchorsPerLocation y x a : Int} :
    (y, x, a) ∈ locations featH featW anchorsPerLocation ↔
      (0 ≤ y ∧ y < featH) ∧ (0 ≤ x ∧ x < featW) ∧ 0 ≤ a ∧ a < anchorsPerLocation := by
  simp only [locations, List.mem_flatMap, List.mem_map, mem_upTo, Prod.mk.injEq]
  constructor
  · rintro ⟨y', hy, x', hx, a', ha, rfl, rfl, rfl⟩
    exact ⟨hy, hx, ha⟩
  · rintro ⟨hy, hx, ha⟩
    exact ⟨y, hy, x, hx, a, ha, rfl, rfl, rfl⟩

/-- The flat index of a location stays below the number of anchors. -/
theorem index_lt {featH featW n y x a : Int} (hy : 0 ≤ y ∧ y < featH) (hx : 0 ≤ x ∧ x < featW)
    (ha : 0 ≤ a ∧ a < n) :
    0 ≤ (y * featW + x) * n + a ∧ (y * featW + x) * n + a < featH * featW * n := by
  have hcell : 0 ≤ y * featW + x := by nlinarith
  have hcell' : y * featW + x + 1 ≤ featH * featW := by nlinarith
  constructor <;> nlinarith

/-- The flat index of a location of a stride, among its anchors. -/
theorem index_lt_anchors {inputW inputH stride y x a : Int}
    (hl : (y, x, a) ∈ locations (inputH.tdiv stride) (inputW.tdiv stride) kAnchorsPerLocation) :
    0 ≤ (y * inputW.tdiv stride + x) * kAnchorsPerLocation + a ∧
      (y * inputW.tdiv stride + x) * kAnchorsPerLocation + a < anchors inputW inputH stride := by
  obtain ⟨hy, hx, ha⟩ := mem_locations.1 hl
  exact index_lt hy hx ha

/-- A pixel of the grid lies inside the input. -/
theorem pixel_lt {input stride x : Int} (hs : 0 < stride) (hinput : 0 ≤ input)
    (hx : 0 ≤ x ∧ x < input.tdiv stride) : 0 ≤ x * stride ∧ x * stride < input := by
  rw [Int.tdiv_eq_ediv_of_nonneg hinput] at hx
  have hle := Int.ediv_mul_le input hs.ne'
  constructor <;> nlinarith

/-! ### Which lengths are enough -/

section Lengths

variable {F : Type}

theorem exists_readAt_ok {xs : List F} {i : Int} {n : ℕ} (hi : 0 ≤ i) :
    (∃ v, readAt xs i n = .ok v) ↔ i + n ≤ xs.length := by
  rw [readAt]
  split_ifs with h
  · exact iff_of_true ⟨_, rfl⟩ (by omega)
  · exact iff_of_false (by simp) fun hlen => h ⟨hi, by omega⟩

theorem mem_of_readAt_ok {xs : List F} {i : Int} {n : ℕ} {v : Vector F n}
    (h : readAt xs i n = .ok v) {x : F} (hx : x ∈ v) : x ∈ xs := by
  rw [readAt] at h
  split_ifs at h
  obtain rfl := Except.ok.inj h
  obtain ⟨k, hk, rfl⟩ := Vector.getElem_of_mem hx
  simp

variable [Add F] [Sub F] [Mul F] [Div F] [IntCast F] [LT F] [DecidableLT F]

/-- Enough of each array for one location. -/
theorem decodeAt_ok {stride featW n y x a : Int} {scores bboxes kps : List F}
    {scoreThresh scale : F} {padX padY : Int} (hidx : 0 ≤ (y * featW + x) * n + a)
    (hy : 0 ≤ y * stride ∧ y * stride < 2 ^ 31) (hx : 0 ≤ x * stride ∧ x * stride < 2 ^ 31)
    (hscores : (y * featW + x) * n + a + 1 ≤ scores.length)
    (hbboxes : ((y * featW + x) * n + a) * 4 + 4 ≤ bboxes.length)
    (hkps : ((y * featW + x) * n + a) * 10 + 10 ≤ kps.length) (hint : kps.length < 2 ^ 31) :
    ∃ d, decodeAt stride featW n scores bboxes kps scoreThresh scale padX padY (y, x, a) = .ok d := by
  obtain ⟨score, hscore⟩ : ∃ v, readAt scores ((y * featW + x) * n + a) 1 = .ok v :=
    (exists_readAt_ok hidx).2 (by omega)
  have hbboxAt := int_ok.2 ⟨(by omega : -2 ^ 31 ≤ ((y * featW + x) * n + a) * 4 ∧ _ < _), rfl⟩
  have hkpsAt := int_ok.2 ⟨(by omega : -2 ^ 31 ≤ ((y * featW + x) * n + a) * 10 ∧ _ < _), rfl⟩
  have hidxAt := int_ok.2 ⟨(by omega : -2 ^ 31 ≤ (y * featW + x) * n + a ∧ _ < _), rfl⟩
  have hxAt := int_ok.2 ⟨(by omega : -2 ^ 31 ≤ x * stride ∧ _ < _), rfl⟩
  have hyAt := int_ok.2 ⟨(by omega : -2 ^ 31 ≤ y * stride ∧ _ < _), rfl⟩
  obtain ⟨distances, hdistances⟩ : ∃ v, readAt bboxes (((y * featW + x) * n + a) * 4) 4 = .ok v :=
    (exists_readAt_ok (by omega)).2 (by omega)
  obtain ⟨offsets, hoffsets⟩ : ∃ v, readAt kps (((y * featW + x) * n + a) * 10) 10 = .ok v :=
    (exists_readAt_ok (by omega)).2 (by omega)
  unfold decodeAt
  simp only [hidxAt, hscore, hxAt, hyAt, hbboxAt, hdistances, hkpsAt, hoffsets, bind, Except.bind]
  split_ifs
  · exact ⟨none, rfl⟩
  · exact ⟨_, rfl⟩

/-- Every location needs its score. -/
theorem score_le_of_decodeAt_ok {stride featW n y x a : Int} {scores bboxes kps : List F}
    {scoreThresh scale : F} {padX padY : Int} {d : Option (FaceDetection F)}
    (hidx : 0 ≤ (y * featW + x) * n + a)
    (h : decodeAt stride featW n scores bboxes kps scoreThresh scale padX padY (y, x, a) = .ok d) :
    (y * featW + x) * n + a + 1 ≤ scores.length := by
  obtain ⟨_, hidxAt, h⟩ := bind_ok.1 h
  obtain ⟨_, rfl⟩ := int_ok.1 hidxAt
  obtain ⟨score, hscore, _⟩ := bind_ok.1 h
  exact (exists_readAt_ok hidx).1 ⟨_, hscore⟩

/-- A location whose score reaches the threshold needs its box and its landmarks too. -/
theorem le_of_decodeAt_ok {stride featW n y x a : Int} {scores bboxes kps : List F}
    {scoreThresh scale : F} {padX padY : Int} {d : Option (FaceDetection F)}
    (hidx : 0 ≤ (y * featW + x) * n + a) (hscores : ∀ s ∈ scores, ¬s < scoreThresh)
    (h : decodeAt stride featW n scores bboxes kps scoreThresh scale padX padY (y, x, a) = .ok d) :
    (y * featW + x) * n + a + 1 ≤ scores.length ∧
      ((y * featW + x) * n + a) * 4 + 4 ≤ bboxes.length ∧
      ((y * featW + x) * n + a) * 10 + 10 ≤ kps.length := by
  unfold decodeAt at h
  obtain ⟨_, hidxAt, h⟩ := bind_ok.1 h
  obtain ⟨_, rfl⟩ := int_ok.1 hidxAt
  obtain ⟨score, hscore, h⟩ := bind_ok.1 h
  have hmem : score[0] ∈ scores := mem_of_readAt_ok hscore (Vector.getElem_mem _)
  rw [if_neg (hscores _ hmem)] at h
  obtain ⟨_, _, h⟩ := bind_ok.1 h
  obtain ⟨_, _, h⟩ := bind_ok.1 h
  obtain ⟨_, hbboxAt, h⟩ := bind_ok.1 h
  obtain ⟨_, rfl⟩ := int_ok.1 hbboxAt
  obtain ⟨distances, hdistances, h⟩ := bind_ok.1 h
  obtain ⟨_, hkpsAt, h⟩ := bind_ok.1 h
  obtain ⟨_, rfl⟩ := int_ok.1 hkpsAt
  obtain ⟨offsets, hoffsets, _⟩ := bind_ok.1 h
  refine ⟨(exists_readAt_ok hidx).1 ⟨_, hscore⟩, (exists_readAt_ok (by omega)).1 ⟨_, hdistances⟩,
    (exists_readAt_ok (by omega)).1 ⟨_, hoffsets⟩⟩

theorem decodeStride_ok {stride inputW inputH n : Int} {scores bboxes kps : List F}
    {scoreThresh scale : F} {padX padY : Int} {out : List (FaceDetection F)} (hs : stride ≠ 0) :
    (∃ out', decodeStride stride inputW inputH n scores bboxes kps scoreThresh scale padX padY
      out = .ok out') ↔ ∀ l ∈ locations (inputH.tdiv stride) (inputW.tdiv stride) n, ∃ d,
        decodeAt stride (inputW.tdiv stride) n scores bboxes kps scoreThresh scale padX padY l =
          .ok d := by
  rw [← exists_traverseIdx_const_ok_iff (i := 0), decodeStride, if_neg hs]
  simp only [bind_ok, pure_ok]
  constructor
  · rintro ⟨out', ds, hds, _⟩
    exact ⟨ds, hds⟩
  · rintro ⟨ds, hds⟩
    exact ⟨_, ds, hds, rfl⟩

/-- **Lengths that are enough.** Decoding a stride stays inside its arrays, whatever they hold, when
each has a row for every anchor. -/
theorem decodeStride_ok_of_le {stride inputW inputH : Int} {scores bboxes kps : List F}
    {scoreThresh scale : F} {padX padY : Int} {out : List (FaceDetection F)} (hs : 0 < stride)
    (hW : 0 ≤ inputW ∧ inputW < 2 ^ 31) (hH : 0 ≤ inputH ∧ inputH < 2 ^ 31)
    (hint : kps.length < 2 ^ 31) (hscores : anchors inputW inputH stride ≤ scores.length)
    (hbboxes : anchors inputW inputH stride * 4 ≤ bboxes.length)
    (hkps : anchors inputW inputH stride * 10 ≤ kps.length) :
    ∃ out', decodeStride stride inputW inputH kAnchorsPerLocation scores bboxes kps scoreThresh
      scale padX padY out = .ok out' := by
  rw [decodeStride_ok hs.ne']
  rintro ⟨y, x, a⟩ hl
  obtain ⟨hy, hx, -⟩ := mem_locations.1 hl
  obtain ⟨hidx, hlt⟩ := index_lt_anchors hl
  obtain ⟨hy₀, hy₁⟩ := pixel_lt hs hH.1 hy
  obtain ⟨hx₀, hx₁⟩ := pixel_lt hs hW.1 hx
  exact decodeAt_ok hidx ⟨hy₀, by omega⟩ ⟨hx₀, by omega⟩ (by omega) (by omega) (by omega)
    (by omega)

/-- The location of the last anchor, if there is one. -/
theorem anchors_zero_or_last {inputW inputH stride : Int} (hs : 0 < stride) (hW : 0 ≤ inputW)
    (hH : 0 ≤ inputH) : anchors inputW inputH stride = 0 ∨ ∃ y x a : Int,
      (y, x, a) ∈ locations (inputH.tdiv stride) (inputW.tdiv stride) kAnchorsPerLocation ∧
        0 ≤ (y * inputW.tdiv stride + x) * kAnchorsPerLocation + a ∧
        (y * inputW.tdiv stride + x) * kAnchorsPerLocation + a + 1 = anchors inputW inputH stride := by
  have hfeatH : 0 ≤ inputH.tdiv stride := Int.tdiv_nonneg hH hs.le
  have hfeatW : 0 ≤ inputW.tdiv stride := Int.tdiv_nonneg hW hs.le
  by_cases hlast : 0 < inputH.tdiv stride ∧ 0 < inputW.tdiv stride
  · have hidx : ((inputH.tdiv stride - 1) * inputW.tdiv stride + (inputW.tdiv stride - 1)) *
        kAnchorsPerLocation + 1 + 1 = anchors inputW inputH stride := by
      rw [anchors, kAnchorsPerLocation]
      ring
    have hpos : 0 < anchors inputW inputH stride :=
      Int.mul_pos (Int.mul_pos hlast.1 hlast.2) (by decide)
    have heven : anchors inputW inputH stride % 2 = 0 := Int.mul_emod_left _ _
    refine .inr ⟨inputH.tdiv stride - 1, inputW.tdiv stride - 1, 1, mem_locations.2 ?_, by omega, hidx⟩
    exact ⟨by omega, by omega, by decide⟩
  · refine .inl ?_
    rw [anchors]
    rcases not_and_or.1 hlast with hH0 | hW0
    · rw [show inputH.tdiv stride = 0 by omega]
      simp
    · rw [show inputW.tdiv stride = 0 by omega]
      simp

/-- **Lengths that are needed.** When every score reaches the threshold, all rows are read. -/
theorem le_of_decodeStride_ok {stride inputW inputH : Int} {scores bboxes kps : List F}
    {scoreThresh scale : F} {padX padY : Int} {out out' : List (FaceDetection F)} (hs : 0 < stride)
    (hW : 0 ≤ inputW) (hH : 0 ≤ inputH) (hscores : ∀ s ∈ scores, ¬s < scoreThresh)
    (h : decodeStride stride inputW inputH kAnchorsPerLocation scores bboxes kps scoreThresh
      scale padX padY out = .ok out') :
    anchors inputW inputH stride ≤ scores.length ∧
      anchors inputW inputH stride * 4 ≤ bboxes.length ∧
      anchors inputW inputH stride * 10 ≤ kps.length := by
  rcases anchors_zero_or_last hs hW hH with hzero | ⟨y, x, a, hl, hidx, hlast⟩
  · omega
  · obtain ⟨d, hd⟩ := (decodeStride_ok hs.ne').1 ⟨_, h⟩ _ hl
    have hle := le_of_decodeAt_ok hidx hscores hd
    omega

/-! ### Which scores are enough -/

/-- Whatever the scores are, each of them is read. -/
theorem scores_le_of_decodeStride_ok {stride inputW inputH : Int} {scores bboxes kps : List F}
    {scoreThresh scale : F} {padX padY : Int} {out out' : List (FaceDetection F)} (hs : 0 < stride)
    (hW : 0 ≤ inputW) (hH : 0 ≤ inputH)
    (h : decodeStride stride inputW inputH kAnchorsPerLocation scores bboxes kps scoreThresh
      scale padX padY out = .ok out') : anchors inputW inputH stride ≤ scores.length := by
  rcases anchors_zero_or_last hs hW hH with hzero | ⟨y, x, a, hl, hidx, hlast⟩
  · omega
  · obtain ⟨d, hd⟩ := (decodeStride_ok hs.ne').1 ⟨_, h⟩ _ hl
    have hle := score_le_of_decodeAt_ok hidx hd
    omega

/-- Below the threshold, nothing else is. -/
theorem decodeStride_ok_of_low {stride inputW inputH : Int} {scores bboxes kps : List F}
    {scoreThresh scale : F} {padX padY : Int} {out : List (FaceDetection F)} (hs : 0 < stride)
    (hlow : ∀ s ∈ scores, s < scoreThresh) (hint : scores.length < 2 ^ 31)
    (hscores : anchors inputW inputH stride ≤ scores.length) :
    ∃ out', decodeStride stride inputW inputH kAnchorsPerLocation scores bboxes kps scoreThresh
      scale padX padY out = .ok out' := by
  rw [decodeStride_ok hs.ne']
  rintro ⟨y, x, a⟩ hl
  obtain ⟨hidx, hlt⟩ := index_lt_anchors hl
  obtain ⟨score, hscore⟩ : ∃ v, readAt scores
      ((y * inputW.tdiv stride + x) * kAnchorsPerLocation + a) 1 = .ok v :=
    (exists_readAt_ok hidx).2 (by omega)
  have hidxAt := int_ok.2 ⟨(by omega : -2 ^ 31 ≤
    (y * inputW.tdiv stride + x) * kAnchorsPerLocation + a ∧ _ < _), rfl⟩
  have hscore_low : score[0] < scoreThresh := hlow _ (mem_of_readAt_ok hscore (Vector.getElem_mem _))
  refine ⟨none, bind_ok.2 ⟨_, hidxAt, bind_ok.2 ⟨_, hscore, ?_⟩⟩⟩
  rw [if_pos hscore_low]
  rfl

end Lengths

end FacePipeline.Trt
