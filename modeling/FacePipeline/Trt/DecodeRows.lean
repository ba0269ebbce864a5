import FacePipeline.Lib.Binary32
import FacePipeline.Trt.ThresholdFilter

/-!
# The rows that decoding emits

The three loops of `decode_stride` go through the rows of the output tensors one after the other, and a
row gives its column, its line and its anchor back (`flatIndex_div`). So the detections appended are
those of the rows that are not below the threshold, in the order of the rows (`AllRows.emits`), as long as
the offset of a row's landmarks fits into an `int`. These are the rows that reach the threshold unless a NaN is
compared, which is neither below nor above anything (`decodesRows_iff`).
-/

namespace FacePipeline.Trt

open Traverse

section Rows

variable {α β : Type*}

/-- An optional answer for every element, given exactly where a test holds. -/
theorem forall₂_reduceOption {R : α → β → Prop} {p : α → Bool} {xs : List α} {os : List (Option β)}
    (h : List.Forall₂ (fun x o => o.elim (p x = false) fun b => p x = true ∧ R x b) xs os) :
    List.Forall₂ R (xs.filter p) os.reduceOption := by
  induction h with
  | nil => exact List.Forall₂.nil
  | @cons x o xs os hxo _ ih =>
    cases o with
    | none =>
      rw [List.filter_cons_of_neg (by rw [show p x = false from hxo]; decide)]
      exact ih
    | some b =>
      rw [List.filter_cons_of_pos hxo.1]
      exact List.Forall₂.cons hxo.2 ih

end Rows

/-! ### Rows and locations -/

/-- The cell and the anchor of a row. -/
theorem flatIndex_div {featW n y x a : Int} (hx : 0 ≤ x ∧ x < featW) (ha : 0 ≤ a ∧ a < n) :
    flatIndex featW n (y, x, a) / n / featW = y ∧ flatIndex featW n (y, x, a) / n % featW = x := by
  have hcell : flatIndex featW n (y, x, a) / n = y * featW + x := by
    unfold flatIndex
    rw [Int.add_comm, Int.add_mul_ediv_right _ _ (by omega), Int.ediv_eq_zero_of_lt ha.1 ha.2, Int.zero_add]
  rw [hcell]
  constructor
  · rw [Int.add_comm, Int.add_mul_ediv_right _ _ (by omega), Int.ediv_eq_zero_of_lt hx.1 hx.2, Int.zero_add]
  · rw [Int.add_comm, Int.add_mul_emod_self_right, Int.emod_eq_of_lt hx.1 hx.2]

theorem input_nonneg {input stride : Int} (hs : 0 < stride) (h : 0 < input.tdiv stride) : 0 ≤ input := by
  by_contra hneg
  have hflip : 0 ≤ (-input).tdiv stride := Int.tdiv_nonneg (by omega) hs.le
  rw [Int.neg_tdiv] at hflip
  omega

/-- Every row is visited exactly once, in order, unless there are rows for an input of negative size. -/
theorem visits_iff (featH featW a : Int) : (locations featH featW a).map (flatIndex featW a) =
      (List.range (featH * featW * a).toNat).map Int.ofNat ↔
    featH * featW * a ≤ 0 ∨ 0 ≤ featH ∧ 0 ≤ featW := by
  have hempty : ¬(0 < featH ∧ 0 < featW ∧ 0 < a) → locations featH featW a = [] := by
    intro hsign
    rw [List.eq_nil_iff_forall_not_mem]
    rintro ⟨y, x, b⟩ hl
    obtain ⟨hy, hx, hb⟩ := mem_locations.1 hl
    exact hsign ⟨by omega, by omega, by omega⟩
  by_cases hn : featH * featW * a ≤ 0
  · refine iff_of_true ?_ (.inl hn)
    rw [hempty, Int.toNat_of_nonpos hn]
    · rfl
    · rintro ⟨hH, hW, ha⟩
      have := Int.mul_pos (Int.mul_pos hH hW) ha
      omega
  · rw [or_iff_right hn]
    rw [not_le] at hn
    constructor
    · intro hvisits
      by_contra hsign
      rw [hempty (fun h => hsign ⟨h.1.le, h.2.1.le⟩), List.map_nil, eq_comm, List.map_eq_nil_iff,
        List.range_eq_nil] at hvisits
      omega
    · rintro ⟨hH, hW⟩
      have ha : 0 ≤ a := by
        by_contra hlt
        have := Int.mul_nonpos_of_nonneg_of_nonpos (Int.mul_nonneg hH hW) (not_le.1 hlt).le
        omega
      obtain ⟨h, rfl⟩ := Int.eq_ofNat_of_zero_le hH
      obtain ⟨w, rfl⟩ := Int.eq_ofNat_of_zero_le hW
      obtain ⟨m, rfl⟩ := Int.eq_ofNat_of_zero_le ha
      rw [locations_flatIndex]
      norm_cast

section Decoding

variable {F : Type}

theorem readAt_eq {xs : List F} {i n : ℕ} {v : Vector F n} (h : readAt xs i n = .ok v) (k : Fin n) :
    xs[i + k]? = some (v.get k) := by
  unfold readAt at h
  split_ifs at h with hi
  obtain rfl := Except.ok.inj h
  have hlt : i + k < xs.length := by omega
  rw [List.getElem?_eq_getElem hlt]
  simp

variable [IntCast F] [Add F] [Sub F] [Mul F] [Div F]

/-- The anchor point of a row. -/
def rowAnchor (stride featW anchorsPerLocation : Int) (idx : ℕ) : Point2f F :=
  ⟨(((idx : Int) / anchorsPerLocation % featW * stride : Int) : F),
    (((idx : Int) / anchorsPerLocation / featW * stride : Int) : F)⟩

/-- `d` is decoded from the row `idx` of the three arrays. -/
structure RowDetection (stride featW anchorsPerLocation : Int) (scores bboxes kps : List F) (scale : F)
    (padX padY : Int) (idx : ℕ) (d : FaceDetection F) : Prop where
  score : scores[idx]? = some d.score
  bbox : ∃ distances : Vector F 4, (∀ k : Fin 4, bboxes[4 * idx + k]? = some distances[k]) ∧
    d.bbox = distance2bbox (rowAnchor stride featW anchorsPerLocation idx) distances stride scale padX padY
  landmarks : ∃ offsets : Vector F 10, (∀ k : Fin 10, kps[10 * idx + k]? = some offsets[k]) ∧
    d.landmarks = distance2kps (rowAnchor stride featW anchorsPerLocation idx) offsets stride scale padX padY

variable [LT F] [DecidableLT F]

/-- The row is in the output: the loops skip those below the threshold. -/
def emitted (scores : List F) (scoreThresh : F) (idx : ℕ) : Bool :=
  scores[idx]?.any fun s => !decide (s < scoreThresh)

/-- What is known of a location and of the arrays: the location is one of the feature map, and each array
has `rows` rows. -/
structure InRows (stride inputW inputH anchorsPerLocation : Int) (scores bboxes kps : List F) (rows : ℕ)
    (idx : ℕ) (l : Int × Int × Int) : Prop where
  mem : l ∈ locations (inputH.tdiv stride) (inputW.tdiv stride) anchorsPerLocation
  flat : flatIndex (inputW.tdiv stride) anchorsPerLocation l = idx
  lt : idx < rows
  small : rows < 2 ^ 31
  scores : scores.length = rows
  bboxes : bboxes.length = 4 * rows
  kps : kps.length = 10 * rows

variable {stride inputW inputH anchorsPerLocation : Int} {scores bboxes kps : List F}
  {rows idx : ℕ} {l : Int × Int × Int} (scoreThresh scale : F) (padX padY : Int)

/-- One round of the loops. -/
theorem decodeAt_row (hs : 0 < stride) (hW : inputW < 2 ^ 31) (hH : inputH < 2 ^ 31)
    (h : InRows stride inputW inputH anchorsPerLocation scores bboxes kps rows idx l) :
    (emitted scores scoreThresh idx = false ∧
      decodeAt stride (inputW.tdiv stride) anchorsPerLocation scores bboxes kps scoreThresh scale padX padY l =
        .ok none) ∨
    (emitted scores scoreThresh idx = true ∧ 10 * idx < 2 ^ 31 ∧ ∃ d,
      decodeAt stride (inputW.tdiv stride) anchorsPerLocation scores bboxes kps scoreThresh scale padX padY l =
        .ok (some d) ∧
      RowDetection stride (inputW.tdiv stride) anchorsPerLocation scores bboxes kps scale padX padY idx d) ∨
    (emitted scores scoreThresh idx = true ∧ 2 ^ 31 ≤ 10 * idx ∧ ∀ o,
      decodeAt stride (inputW.tdiv stride) anchorsPerLocation scores bboxes kps scoreThresh scale padX padY l ≠
        .ok o) := by
  obtain ⟨y, x, a⟩ := l
  obtain ⟨hy, hx, ha⟩ := mem_locations.1 h.mem
  obtain ⟨hy₀, hy₁⟩ := pixel_lt hs (input_nonneg hs (by omega)) hy
  obtain ⟨hx₀, hx₁⟩ := pixel_lt hs (input_nonneg hs (by omega)) hx
  obtain ⟨hrow, hcolumn⟩ := flatIndex_div hx ha (y := y)
  have hlt := h.lt
  have hsmall := h.small
  have hflat : (y * inputW.tdiv stride + x) * anchorsPerLocation + a = idx := h.flat
  have hanchor : (⟨((x * stride : Int) : F), ((y * stride : Int) : F)⟩ : Point2f F) =
      rowAnchor stride (inputW.tdiv stride) anchorsPerLocation idx := by
    unfold rowAnchor
    rw [← h.flat, hrow, hcolumn]
  have hidxAt : int ((y * inputW.tdiv stride + x) * anchorsPerLocation + a) = .ok (idx : Int) :=
    int_ok.2 ⟨by omega, hflat⟩
  have hxAt := int_ok.2 ⟨(by omega : -2 ^ 31 ≤ x * stride ∧ _ < _), rfl⟩
  have hyAt := int_ok.2 ⟨(by omega : -2 ^ 31 ≤ y * stride ∧ _ < _), rfl⟩
  obtain ⟨score, hscore⟩ : ∃ v, readAt scores (idx : Int) 1 = .ok v :=
    (exists_readAt_ok (by omega)).2 (by rw [h.scores]; omega)
  have hread : scores[idx]? = some score[0] := readAt_eq hscore 0
  have hemitted : emitted scores scoreThresh idx = !decide (score[0] < scoreThresh) := by
    rw [emitted, hread, Option.any_some]
  rw [hemitted, Bool.not_eq_false', Bool.not_eq_true', decide_eq_true_iff, decide_eq_false_iff_not]
  by_cases hlow : score[0] < scoreThresh
  · refine .inl ⟨hlow, bind_ok.2 ⟨_, hidxAt, bind_ok.2 ⟨_, hscore, ?_⟩⟩⟩
    rw [if_pos hlow]
    rfl
  · by_cases hfits : 10 * idx < 2 ^ 31
    · obtain ⟨distances, hdistances⟩ : ∃ v, readAt bboxes ((4 * idx : ℕ) : Int) 4 = .ok v :=
        (exists_readAt_ok (by omega)).2 (by rw [h.bboxes]; omega)
      obtain ⟨offsets, hoffsets⟩ : ∃ v, readAt kps ((10 * idx : ℕ) : Int) 10 = .ok v :=
        (exists_readAt_ok (by omega)).2 (by rw [h.kps]; omega)
      have hbboxAt : int ((idx : Int) * 4) = .ok ((4 * idx : ℕ) : Int) := int_ok.2 ⟨by omega, by omega⟩
      have hkpsAt : int ((idx : Int) * 10) = .ok ((10 * idx : ℕ) : Int) := int_ok.2 ⟨by omega, by omega⟩
      refine .inr (.inl ⟨hlow, hfits, ?_⟩)
      refine ⟨⟨distance2bbox (rowAnchor stride (inputW.tdiv stride) anchorsPerLocation idx) distances stride
          scale padX padY, distance2kps (rowAnchor stride (inputW.tdiv stride) anchorsPerLocation idx) offsets
          stride scale padX padY, score[0]⟩, ?_, ?_⟩
      · rw [← hanchor]
        refine bind_ok.2 ⟨_, hidxAt, bind_ok.2 ⟨_, hscore, ?_⟩⟩
        rw [if_neg hlow]
        refine bind_ok.2 ⟨_, hxAt, bind_ok.2 ⟨_, hyAt, ?_⟩⟩
        refine bind_ok.2 ⟨_, hbboxAt, bind_ok.2 ⟨_, hdistances, ?_⟩⟩
        exact bind_ok.2 ⟨_, hkpsAt, bind_ok.2 ⟨_, hoffsets, rfl⟩⟩
      · exact ⟨hread, ⟨distances, readAt_eq hdistances, rfl⟩, ⟨offsets, readAt_eq hoffsets, rfl⟩⟩
    · refine .inr (.inr ⟨hlow, not_lt.1 hfits, fun o ho => ?_⟩)
      obtain ⟨_, hidx, ho⟩ := bind_ok.1 ho
      obtain rfl := Except.ok.inj (hidxAt.symm.trans hidx)
      obtain ⟨_, hscore', ho⟩ := bind_ok.1 ho
      obtain rfl := Except.ok.inj (hscore.symm.trans hscore')
      rw [if_neg hlow] at ho
      obtain ⟨_, _, ho⟩ := bind_ok.1 ho
      obtain ⟨_, _, ho⟩ := bind_ok.1 ho
      obtain ⟨_, _, ho⟩ := bind_ok.1 ho
      obtain ⟨_, _, ho⟩ := bind_ok.1 ho
      obtain ⟨_, hkpsAt, _⟩ := bind_ok.1 ho
      obtain ⟨hrange, _⟩ := int_ok.1 hkpsAt
      omega

/-- The landmarks of every row in the output have an offset that fits into an `int`. -/
def OffsetsFit (scores : List F) (scoreThresh : F) : Prop :=
  ∀ (idx : ℕ) (s : F), scores[idx]? = some s → ¬s < scoreThresh → 10 * idx < 2 ^ 31

omit [IntCast F] [Add F] [Sub F] [Mul F] [Div F] in
theorem offsetsFit_iff {scores : List F} {scoreThresh : F} : OffsetsFit scores scoreThresh ↔
    ∀ idx, emitted scores scoreThresh idx = true → 10 * idx < 2 ^ 31 := by
  unfold OffsetsFit emitted
  refine forall_congr' fun idx => ?_
  cases scores[idx]? <;> simp

/-- The loops visit the rows in order, and each array has them. -/
structure AllRows (stride inputW inputH anchorsPerLocation : Int) (scores bboxes kps : List F) (rows : ℕ) :
    Prop where
  stride_pos : 0 < stride
  width : inputW < 2 ^ 31
  height : inputH < 2 ^ 31
  small : rows < 2 ^ 31
  scores : scores.length = rows
  bboxes : bboxes.length = 4 * rows
  kps : kps.length = 10 * rows
  visits : (locations (inputH.tdiv stride) (inputW.tdiv stride) anchorsPerLocation).map
    (flatIndex (inputW.tdiv stride) anchorsPerLocation) = (List.range rows).map Int.ofNat

section AllRows

omit [IntCast F] [Add F] [Sub F] [Mul F] [Div F] [LT F] [DecidableLT F] in
theorem AllRows.length (h : AllRows stride inputW inputH anchorsPerLocation scores bboxes kps rows) :
    (locations (inputH.tdiv stride) (inputW.tdiv stride) anchorsPerLocation).length = rows := by
  simpa using congrArg List.length h.visits

omit [IntCast F] [Add F] [Sub F] [Mul F] [Div F] [LT F] [DecidableLT F] in
theorem AllRows.inRows (h : AllRows stride inputW inputH anchorsPerLocation scores bboxes kps rows)
    (hl : (locations (inputH.tdiv stride) (inputW.tdiv stride) anchorsPerLocation)[idx]? = some l) :
    InRows stride inputW inputH anchorsPerLocation scores bboxes kps rows idx l := by
  obtain ⟨hlt, _⟩ := List.getElem?_eq_some_iff.1 hl
  have hidx : idx < rows := h.length ▸ hlt
  exact ⟨List.mem_of_getElem? hl, flatIndex_getElem? hl, hidx, h.small, h.scores, h.bboxes, h.kps⟩

variable {scoreThresh} (out : List (FaceDetection F))

/-- A run that gets through has computed the offset of every row in the output. -/
theorem AllRows.offsetsFit (h : AllRows stride inputW inputH anchorsPerLocation scores bboxes kps rows)
    (hok : ∃ out', decodeStride stride inputW inputH anchorsPerLocation scores bboxes kps scoreThresh scale padX
      padY out = .ok out') : OffsetsFit scores scoreThresh := by
  rw [offsetsFit_iff]
  intro idx hidx
  have hlt : idx < (locations (inputH.tdiv stride) (inputW.tdiv stride) anchorsPerLocation).length := by
    rw [h.length, ← h.scores]
    by_contra hge
    rw [emitted, List.getElem?_eq_none (not_lt.1 hge)] at hidx
    cases hidx
  obtain ⟨o, ho⟩ := (decodeStride_ok h.stride_pos.ne').1 hok _ (List.getElem_mem hlt)
  have hrow := h.inRows (List.getElem?_eq_getElem hlt)
  rcases decodeAt_row scoreThresh scale padX padY h.stride_pos h.width h.height hrow with
    ⟨hlow, -⟩ | ⟨-, hfits, -⟩ | ⟨-, -, hfails⟩
  · rw [hidx] at hlow
    cases hlow
  · exact hfits
  · exact absurd ho (hfails o)

/-- And then it emits the rows that are not below the threshold. -/
theorem AllRows.emits (h : AllRows stride inputW inputH anchorsPerLocation scores bboxes kps rows)
    (hfits : OffsetsFit scores scoreThresh) :
    ∃ ds, decodeStride stride inputW inputH anchorsPerLocation scores bboxes kps scoreThresh scale padX padY out =
        .ok (out ++ ds) ∧
      List.Forall₂ (RowDetection stride (inputW.tdiv stride) anchorsPerLocation scores bboxes kps scale padX padY)
        ((List.range rows).filter (emitted scores scoreThresh)) ds := by
  rw [offsetsFit_iff] at hfits
  have hround : ∀ (idx : ℕ) (l : Int × Int × Int),
      (locations (inputH.tdiv stride) (inputW.tdiv stride) anchorsPerLocation)[idx]? = some l → ∃ o,
        decodeAt stride (inputW.tdiv stride) anchorsPerLocation scores bboxes kps scoreThresh scale padX padY l =
          .ok o ∧ o.elim (emitted scores scoreThresh idx = false) fun d =>
            emitted scores scoreThresh idx = true ∧ RowDetection stride (inputW.tdiv stride) anchorsPerLocation
              scores bboxes kps scale padX padY idx d := by
    intro idx l hl
    rcases decodeAt_row scoreThresh scale padX padY h.stride_pos h.width h.height (h.inRows hl) with
      ⟨hlow, hnone⟩ | ⟨hhigh, -, d, hsome, hd⟩ | ⟨hhigh, hlarge, -⟩
    · exact ⟨none, hnone, hlow⟩
    · exact ⟨some d, hsome, hhigh, hd⟩
    · exact absurd (hfits idx hhigh) (not_lt.2 hlarge)
  obtain ⟨os, hos⟩ : ∃ os, traverseIdx (fun _ => decodeAt stride (inputW.tdiv stride) anchorsPerLocation scores
      bboxes kps scoreThresh scale padX padY) 0
        (locations (inputH.tdiv stride) (inputW.tdiv stride) anchorsPerLocation) = .ok os := by
    refine exists_traverseIdx_ok fun idx l hl => ?_
    obtain ⟨o, ho, -⟩ := hround idx l hl
    exact ⟨o, ho⟩
  obtain ⟨hlen, heach⟩ := traverseIdx_ok_iff.1 hos
  refine ⟨os.reduceOption, ?_, forall₂_reduceOption ?_⟩
  · unfold decodeStride
    rw [if_neg h.stride_pos.ne']
    exact bind_ok.2 ⟨os, hos, rfl⟩
  · rw [List.forall₂_iff_get]
    refine ⟨by rw [List.length_range, hlen, h.length], fun idx _ hidx => ?_⟩
    have hl := List.getElem?_eq_getElem (hlen ▸ hidx)
    obtain ⟨o, ho, hdecoded⟩ := heach idx _ hl
    obtain ⟨o', hdecoded', hspec⟩ := hround idx _ hl
    obtain rfl := Except.ok.inj (hdecoded.symm.trans hdecoded')
    obtain ⟨_, rfl⟩ := List.getElem?_eq_some_iff.1 ho
    simpa using hspec

end AllRows

variable [LE F] [DecidableLE F]

/-- The row reaches the threshold. -/
def reaches (scores : List F) (scoreThresh : F) (idx : ℕ) : Bool :=
  scores[idx]?.any (scoreThresh ≤ ·)

/-- Neither the threshold nor a score is a NaN. -/
def Comparable (scores : List F) (scoreThresh : F) : Prop :=
  ∀ s ∈ scores, scoreThresh ≤ s ∨ s < scoreThresh

omit [IntCast F] [Add F] [Sub F] [Mul F] [Div F] in
/-- What reaches the threshold is not below it. -/
theorem emitted_of_reaches [Std.LawfulOrderLT F] (h : reaches scores scoreThresh idx = true) :
    emitted scores scoreThresh idx = true := by
  unfold reaches at h
  unfold emitted
  cases hs : scores[idx]? with
  | none =>
    rw [hs] at h
    cases h
  | some s =>
    rw [hs, Option.any_some, decide_eq_true_iff] at h
    rw [Option.any_some, Bool.not_eq_true', decide_eq_false_iff_not]
    exact fun hlt => ((Std.LawfulOrderLT.lt_iff s scoreThresh).1 hlt).2 h

omit [IntCast F] [Add F] [Sub F] [Mul F] [Div F] in
theorem reaches_filter_eq [Std.LawfulOrderLT F] {scoreThresh : F}
    (h : ((List.range rows).filter (reaches scores scoreThresh)).length =
      ((List.range rows).filter (emitted scores scoreThresh)).length) :
    (List.range rows).filter (reaches scores scoreThresh) =
      (List.range rows).filter (emitted scores scoreThresh) :=
  (List.monotone_filter_right _ fun _ => emitted_of_reaches scoreThresh).eq_of_length h

omit [IntCast F] [Add F] [Sub F] [Mul F] [Div F] in
/-- The two are the same rows where every score can be compared with the threshold. -/
theorem reaches_filter_iff [Std.LawfulOrderLT F] {scoreThresh : F} :
    ((List.range scores.length).filter (reaches scores scoreThresh)).length =
        ((List.range scores.length).filter (emitted scores scoreThresh)).length ↔
      Comparable scores scoreThresh := by
  constructor
  · intro hlength s hs
    obtain ⟨idx, hidx, rfl⟩ := List.getElem_of_mem hs
    by_contra hneither
    rw [not_or] at hneither
    have hemitted : idx ∈ (List.range scores.length).filter (emitted scores scoreThresh) :=
      List.mem_filter.2 ⟨List.mem_range.2 hidx, by simp [emitted, hidx, hneither.2]⟩
    rw [← reaches_filter_eq hlength] at hemitted
    have hreaches := (List.mem_filter.1 hemitted).2
    rw [reaches, List.getElem?_eq_getElem hidx, Option.any_some, decide_eq_true_iff] at hreaches
    exact hneither.1 hreaches
  · intro hcomparable
    refine congrArg List.length (List.filter_congr fun idx hidx => Bool.eq_iff_iff.2
      ⟨emitted_of_reaches scoreThresh, fun hemitted => ?_⟩)
    have hlt := List.mem_range.1 hidx
    rw [emitted, List.getElem?_eq_getElem hlt, Option.any_some, Bool.not_eq_true',
      decide_eq_false_iff_not] at hemitted
    rw [reaches, List.getElem?_eq_getElem hlt, Option.any_some, decide_eq_true_iff]
    exact (hcomparable _ (List.getElem_mem hlt)).resolve_right hemitted

/-- Decoding a stride emits the rows that reach the threshold, after what there was. -/
structure DecodesRows (stride inputW inputH anchorsPerLocation : Int) (scores bboxes kps : List F)
    (scoreThresh scale : F) (padX padY : Int) (out : List (FaceDetection F)) (rows : ℕ) : Prop where
  /-- Each row once, in order. -/
  visits : (locations (inputH.tdiv stride) (inputW.tdiv stride) anchorsPerLocation).map
    (flatIndex (inputW.tdiv stride) anchorsPerLocation) = (List.range rows).map Int.ofNat
  emits : ∃ ds, decodeStride stride inputW inputH anchorsPerLocation scores bboxes kps scoreThresh scale padX
      padY out = .ok (out ++ ds) ∧
    List.Forall₂ (RowDetection stride (inputW.tdiv stride) anchorsPerLocation scores bboxes kps scale padX padY)
      ((List.range rows).filter (reaches scores scoreThresh)) ds

theorem DecodesRows.allRows {scoreThresh scale : F} {padX padY : Int}
    {out : List (FaceDetection F)}
    (h : DecodesRows stride inputW inputH anchorsPerLocation scores bboxes kps scoreThresh scale padX padY out rows)
    (hs : 0 < stride) (hW : inputW < 2 ^ 31) (hH : inputH < 2 ^ 31) (hrows : rows < 2 ^ 31)
    (hscores : scores.length = rows) (hbboxes : bboxes.length = 4 * rows) (hkps : kps.length = 10 * rows) :
    AllRows stride inputW inputH anchorsPerLocation scores bboxes kps rows :=
  ⟨hs, hW, hH, hrows, hscores, hbboxes, hkps, h.visits⟩

variable [Std.LawfulOrderLT F]

theorem AllRows.emits_iff (h : AllRows stride inputW inputH anchorsPerLocation scores bboxes kps rows)
    (out : List (FaceDetection F)) :
    (∃ ds, decodeStride stride inputW inputH anchorsPerLocation scores bboxes kps scoreThresh scale padX padY
        out = .ok (out ++ ds) ∧
      List.Forall₂ (RowDetection stride (inputW.tdiv stride) anchorsPerLocation scores bboxes kps scale padX
        padY) ((List.range rows).filter (reaches scores scoreThresh)) ds) ↔
      Comparable scores scoreThresh ∧ OffsetsFit scores scoreThresh := by
  rw [← reaches_filter_iff, h.scores]
  constructor
  · rintro ⟨ds, hds, hreached⟩
    have hfits := h.offsetsFit scale padX padY out ⟨_, hds⟩
    obtain ⟨ds', hds', hemitted⟩ := h.emits scale padX padY out hfits
    obtain rfl := List.append_cancel_left (Except.ok.inj (hds.symm.trans hds'))
    exact ⟨hreached.length_eq.trans hemitted.length_eq.symm, hfits⟩
  · rintro ⟨hlength, hfits⟩
    obtain ⟨ds, hds, hemitted⟩ := h.emits scale padX padY out hfits
    rw [← reaches_filter_eq hlength] at hemitted
    exact ⟨ds, hds, hemitted⟩

/-- **Decoding emits the rows that reach the threshold**, exactly when there are none for an input of negative
size, no score and no threshold is a NaN, and the landmarks of the rows in the output have offsets that fit into
an `int`. -/
theorem decodesRows_iff (stride inputW inputH anchorsPerLocation n : Int) (scores bboxes kps : List F)
    (out : List (FaceDetection F)) (hW : inputW < 2 ^ 31) (hH : inputH < 2 ^ 31)
    (hcount : anchorCount inputW inputH stride anchorsPerLocation = .ok n)
    (hscores : scores.length = n.toNat) (hbboxes : bboxes.length = 4 * n.toNat)
    (hkps : kps.length = 10 * n.toNat) :
    DecodesRows stride inputW inputH anchorsPerLocation scores bboxes kps scoreThresh scale padX padY out
        n.toNat ↔
      (n ≤ 0 ∨ 0 ≤ inputW ∧ 0 ≤ inputH) ∧ Comparable scores scoreThresh ∧ OffsetsFit scores scoreThresh := by
  obtain ⟨hs, hn, hlt⟩ := anchorCount_eq hcount
  have hsizes : n ≤ 0 ∨ 0 ≤ inputH.tdiv stride ∧ 0 ≤ inputW.tdiv stride ↔
      n ≤ 0 ∨ 0 ≤ inputW ∧ 0 ≤ inputH := by
    constructor
    · rintro (hle | ⟨hfeatH, hfeatW⟩)
      · exact .inl hle
      · by_cases hzero : inputH.tdiv stride = 0 ∨ inputW.tdiv stride = 0
        · refine .inl ?_
          rcases hzero with hzero | hzero <;> rw [hn, hzero] <;> simp
        · exact .inr ⟨input_nonneg hs (by omega), input_nonneg hs (by omega)⟩
    · rintro (hle | ⟨hinputW, hinputH⟩)
      · exact .inl hle
      · exact .inr ⟨Int.tdiv_nonneg hinputH hs.le, Int.tdiv_nonneg hinputW hs.le⟩
  have hvisits := visits_iff (inputH.tdiv stride) (inputW.tdiv stride) anchorsPerLocation
  rw [← hn, hsizes] at hvisits
  rw [← hvisits]
  constructor
  · intro h
    have hall := h.allRows hs hW hH (by omega) hscores hbboxes hkps
    exact ⟨h.visits, (hall.emits_iff scoreThresh scale padX padY out).1 h.emits⟩
  · rintro ⟨hv, hcondition⟩
    have hall : AllRows stride inputW inputH anchorsPerLocation scores bboxes kps n.toNat :=
      ⟨hs, hW, hH, by omega, hscores, hbboxes, hkps, hv⟩
    exact ⟨hv, (hall.emits_iff scoreThresh scale padX padY out).2 hcondition⟩

end Decoding

/-! ### A small map, a long one, and a NaN -/

theorem offsetsFit_of_length {F : Type} [LT F] {scores : List F} {scoreThresh : F}
    (h : 10 * scores.length ≤ 2 ^ 31) : OffsetsFit scores scoreThresh := by
  intro idx s hs _
  obtain ⟨hlt, _⟩ := List.getElem?_eq_some_iff.1 hs
  omega

theorem comparable_of_linearOrder {F : Type} [LinearOrder F] (scores : List F) (scoreThresh : F) :
    Comparable scores scoreThresh :=
  fun s _ => le_or_gt scoreThresh s

theorem decodesRows_small : DecodesRows 8 16 8 2 ([9, 3, 7, 8] : List ℚ)
    (List.replicate 16 1) (List.replicate 40 1) 5 2 3 5 [] 4 :=
  (decodesRows_iff 5 2 3 5 8 16 8 2 4 [9, 3, 7, 8] (List.replicate 16 1) (List.replicate 40 1) []
    (by decide) (by decide) rfl rfl rfl rfl).2
    ⟨.inr (by decide), comparable_of_linearOrder _ _, offsetsFit_of_length (by decide)⟩

/-- An input of 131072 by 65536 has rows whose landmarks start beyond the range of `int`. -/
theorem not_decodesRows_large : anchorCount 131072 65536 8 kAnchorsPerLocation = .ok 268435456 ∧
    ¬DecodesRows 8 131072 65536 kAnchorsPerLocation (List.replicate 268435456 (9 : ℚ))
      (List.replicate (4 * 268435456) 1) (List.replicate (10 * 268435456) 1) 5 2 3 5 [] 268435456 := by
  refine ⟨by decide, fun h => ?_⟩
  have hall := h.allRows (by decide) (by decide) (by decide) (by decide) List.length_replicate
    List.length_replicate List.length_replicate
  have hfits := ((hall.emits_iff 5 2 3 5 []).1 h.emits).2
  have hlast : (List.replicate 268435456 (9 : ℚ))[268435455]? = some 9 := by
    rw [List.getElem?_replicate, if_pos (by decide)]
  have := hfits 268435455 9 hlast (by norm_num)
  omega

/-- The row of a NaN is in the output, which no threshold is reached by. -/
theorem not_decodesRows_nan : ¬DecodesRows 8 8 8 2 ([0 / 0, 0.75] : List Float32) (List.replicate 8 1)
    (List.replicate 20 1) 0.5 2 3 5 [] 2 := by
  intro h
  have hall := h.allRows (by decide) (by decide) (by decide) (by decide) rfl rfl rfl
  have hcomparable := ((hall.emits_iff 0.5 2 3 5 []).1 h.emits).1
  exact absurd (hcomparable (0 / 0) (List.mem_cons_self)) (by decide +kernel)

end FacePipeline.Trt
