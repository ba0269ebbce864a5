import FacePipeline.Trt.Nms
import FacePipeline.Trt.ScrfdDetector

/-!
# Raising the confidence threshold

At a higher threshold the decoder emits the detections of the lower one that reach it, in the same order
(`decodeStrides_raise`). Suppression sorts them; since the scores are distinct, those that reach the higher
threshold are the first ones of the longer list, and a greedy selection starts with the selection from any
first part. The boxes that only the lower threshold lets through come last and suppress nothing that the
higher one keeps.
-/

namespace FacePipeline.Trt

open FacePipeline.Config Greedy Traverse

section Scores

variable {F : Type}

/-- The flat index of a location. -/
def flatIndex (featW anchorsPerLocation : Int) (at_ : Int × Int × Int) : Int :=
  (at_.1 * featW + at_.2.1) * anchorsPerLocation + at_.2.2

theorem range_flatMap (m n : ℕ) :
    ((List.range m).flatMap fun y => (List.range n).map fun x => y * n + x) = List.range (m * n) := by
  induction m with
  | zero => simp
  | succ m ih =>
    rw [List.range_succ, List.flatMap_append, ih, Nat.succ_mul, List.range_add]
    simp

/-- The loops visit the flat indices in increasing order. -/
theorem locations_flatIndex (h w n : ℕ) :
    (locations h w n).map (flatIndex w n) = (List.range (h * w * n)).map Int.ofNat := by
  rw [← range_flatMap, ← range_flatMap]
  simp only [locations, upTo, Int.toNat_natCast, List.flatMap_map, List.map_flatMap, List.map_map,
    List.flatMap_assoc]
  rfl

theorem flatIndex_getElem? {featH featW n : Int} {j : ℕ} {l : Int × Int × Int}
    (hl : (locations featH featW n)[j]? = some l) : flatIndex featW n l = j := by
  obtain ⟨y, x, a⟩ := l
  obtain ⟨hy, hx, ha⟩ := mem_locations.1 (List.mem_of_getElem? hl)
  obtain ⟨h, rfl⟩ := Int.eq_ofNat_of_zero_le (show 0 ≤ featH by omega)
  obtain ⟨w, rfl⟩ := Int.eq_ofNat_of_zero_le (show 0 ≤ featW by omega)
  obtain ⟨n, rfl⟩ := Int.eq_ofNat_of_zero_le (show 0 ≤ n by omega)
  have hindex := congrArg (·[j]?) (locations_flatIndex h w n)
  simp only [List.getElem?_map, hl, Option.map_some] at hindex
  obtain ⟨k, hk, heq⟩ := Option.map_eq_some_iff.1 hindex.symm
  obtain ⟨_, rfl⟩ := List.getElem?_eq_some_iff.1 hk
  rw [List.getElem_range] at heq
  exact heq.symm

/-- Elements picked at their own positions. -/
theorem reduceOption_map_sublist {D : Type} {f : D → F} {ds : List (Option D)} {xs : List F}
    (h : ∀ (j : ℕ) (d : D), ds[j]? = some (some d) → xs[j]? = some (f d)) :
    (ds.reduceOption.map f).Sublist xs := by
  induction ds generalizing xs with
  | nil => exact List.nil_sublist _
  | cons o ds ih =>
    have htail : (ds.reduceOption.map f).Sublist xs.tail := by
      refine ih fun j d hj => ?_
      rw [List.getElem?_tail]
      exact h (j + 1) d hj
    cases o with
    | none => exact htail.trans (List.tail_sublist xs)
    | some d =>
      have hd : xs[0]? = some (f d) := h 0 d rfl
      cases xs with
      | nil => cases hd
      | cons x xs =>
        obtain rfl : x = f d := Option.some.inj hd
        exact htail.cons_cons _

variable [Add F] [Sub F] [Mul F] [Div F] [IntCast F] [LT F] [DecidableLT F]

/-- A detection carries the score of its own row. -/
theorem score_of_decodeAt {stride featW n : Int} {scores bboxes kps : List F} {scoreThresh scale : F}
    {padX padY : Int} {l : Int × Int × Int} {d : FaceDetection F}
    (h : decodeAt stride featW n scores bboxes kps scoreThresh scale padX padY l = .ok (some d)) :
    scores[(flatIndex featW n l).toNat]? = some d.score := by
  obtain ⟨y, x, a⟩ := l
  unfold decodeAt at h
  obtain ⟨_, hidx, h⟩ := bind_ok.1 h
  obtain ⟨_, rfl⟩ := int_ok.1 hidx
  obtain ⟨score, hscore, h⟩ := bind_ok.1 h
  have hread : scores[(flatIndex featW n (y, x, a)).toNat]? = some score[0] := by
    rw [readAt] at hscore
    split_ifs at hscore with hbound
    obtain rfl := Except.ok.inj hscore
    simp [flatIndex]
  rw [hread]
  split_ifs at h
  · cases pure_ok.1 h
  · obtain ⟨_, _, h⟩ := bind_ok.1 h
    obtain ⟨_, _, h⟩ := bind_ok.1 h
    obtain ⟨_, _, h⟩ := bind_ok.1 h
    obtain ⟨_, _, h⟩ := bind_ok.1 h
    obtain ⟨_, _, h⟩ := bind_ok.1 h
    obtain ⟨_, _, h⟩ := bind_ok.1 h
    rw [Option.some.inj (pure_ok.1 h)]

end Scores

section Raise

variable {F : Type} [Add F] [Sub F] [Mul F] [Div F] [IntCast F] [LinearOrder F] {t₁ t₂ : F}

/-- What is left of the detections at a threshold. -/
def atLeast (t : F) (d : FaceDetection F) : Bool :=
  t ≤ d.score

theorem decodeAt_raise (ht : t₁ ≤ t₂) {stride featW n : Int} {scores bboxes kps : List F} {scale : F}
    {padX padY : Int} {l : Int × Int × Int} {d : Option (FaceDetection F)}
    (h : decodeAt stride featW n scores bboxes kps t₁ scale padX padY l = .ok d) :
    decodeAt stride featW n scores bboxes kps t₂ scale padX padY l = .ok (d.filter (atLeast t₂)) := by
  obtain ⟨y, x, a⟩ := l
  unfold decodeAt at h ⊢
  obtain ⟨idx, hidx, h⟩ := bind_ok.1 h
  obtain ⟨score, hscore, h⟩ := bind_ok.1 h
  refine bind_ok.2 ⟨idx, hidx, bind_ok.2 ⟨score, hscore, ?_⟩⟩
  by_cases hlow : score[0] < t₁
  · rw [if_pos hlow] at h
    obtain rfl := pure_ok.1 h
    rw [if_pos (hlow.trans_le ht)]
    rfl
  · rw [if_neg hlow] at h
    obtain ⟨anchorX, hx, h⟩ := bind_ok.1 h
    obtain ⟨anchorY, hy, h⟩ := bind_ok.1 h
    obtain ⟨bboxAt, hbboxAt, h⟩ := bind_ok.1 h
    obtain ⟨distances, hdistances, h⟩ := bind_ok.1 h
    obtain ⟨kpsAt, hkpsAt, h⟩ := bind_ok.1 h
    obtain ⟨offsets, hoffsets, h⟩ := bind_ok.1 h
    obtain rfl := pure_ok.1 h
    by_cases hbetween : score[0] < t₂
    · have hfilter : atLeast t₂ (⟨distance2bbox ⟨anchorX, anchorY⟩ distances stride scale padX padY,
          distance2kps ⟨anchorX, anchorY⟩ offsets stride scale padX padY, score[0]⟩ :
            FaceDetection F) = false := by
        simpa [atLeast] using hbetween
      rw [if_pos hbetween, Option.filter_some, hfilter]
      rfl
    · have hfilter : atLeast t₂ (⟨distance2bbox ⟨anchorX, anchorY⟩ distances stride scale padX padY,
          distance2kps ⟨anchorX, anchorY⟩ offsets stride scale padX padY, score[0]⟩ :
            FaceDetection F) = true := by
        simpa [atLeast] using hbetween
      rw [if_neg hbetween, Option.filter_some, if_pos hfilter]
      refine bind_ok.2 ⟨_, hx, bind_ok.2 ⟨_, hy, bind_ok.2 ⟨_, hbboxAt, bind_ok.2 ⟨_, hdistances, ?_⟩⟩⟩⟩
      exact bind_ok.2 ⟨_, hkpsAt, bind_ok.2 ⟨_, hoffsets, rfl⟩⟩

omit [Add F] [Sub F] [Mul F] [Div F] [IntCast F] [LinearOrder F] in
theorem reduceOption_filter {D : Type} (p : D → Bool) (ds : List (Option D)) :
    (ds.map (Option.filter p)).reduceOption = ds.reduceOption.filter p := by
  induction ds with
  | nil => rfl
  | cons o ds ih =>
    cases o with
    | none => exact ih
    | some d =>
      rw [List.map_cons, Option.filter_some, List.reduceOption_cons_of_some]
      by_cases hd : p d = true
      · rw [if_pos hd, List.reduceOption_cons_of_some, List.filter_cons_of_pos hd, ih]
      · rw [if_neg hd, List.reduceOption_cons_of_none, List.filter_cons_of_neg hd, ih]

/-- One stride: what it appends at the lower threshold, at the higher one, and with which scores. -/
theorem decodeStride_raise (ht : t₁ ≤ t₂) {stride inputW inputH n : Int} {scores bboxes kps : List F}
    {scale : F} {padX padY : Int} {out out₁ : List (FaceDetection F)}
    (h : decodeStride stride inputW inputH n scores bboxes kps t₁ scale padX padY out = .ok out₁) :
    ∃ ds, out₁ = out ++ ds ∧ (ds.map (·.score)).Sublist scores ∧
      ∀ out', decodeStride stride inputW inputH n scores bboxes kps t₂ scale padX padY out' =
        .ok (out' ++ ds.filter (atLeast t₂)) := by
  rw [decodeStride] at h
  split_ifs at h with hs
  obtain ⟨ds, hds, hout⟩ := bind_ok.1 h
  refine ⟨ds.reduceOption, pure_ok.1 hout, reduceOption_map_sublist fun j d hj => ?_, fun out' => ?_⟩
  · obtain ⟨hlength, hall⟩ := traverseIdx_ok_iff.1 hds
    obtain ⟨hlt, _⟩ := List.getElem?_eq_some_iff.1 hj
    rw [hlength] at hlt
    have hl := List.getElem?_eq_getElem hlt
    obtain ⟨d', hd', hdecode⟩ := hall j _ hl
    obtain rfl : d' = some d := Option.some.inj (hd'.symm.trans hj)
    have hscore := score_of_decodeAt hdecode
    rwa [flatIndex_getElem? hl, Int.toNat_natCast] at hscore
  · rw [decodeStride, if_neg hs]
    refine bind_ok.2 ⟨_, traverseIdx_const_map (fun l d hd => decodeAt_raise ht hd) hds, ?_⟩
    rw [reduceOption_filter]
    rfl

/-! ### All strides -/

namespace SCRFDDetector

/-- The same detector at another `confidence_threshold`. -/
def withThreshold (det : SCRFDDetector F) (t : F) : SCRFDDetector F :=
  { det with cfg := { det.cfg with confidenceThreshold := t } }

/-- The score tensor of an entry that is decoded. -/
def entryScores (det : SCRFDDetector F) (copied : String → ℕ → F) (entry : Int × StrideBindings) :
    List F :=
  if entry.2.score = "" ∨ entry.2.bbox = "" ∨ entry.2.kps = "" then []
  else
    match det.binding entry.2.score with
    | .error _ => []
    | .ok sb => (List.range sb.volume).map (copied entry.2.score)

/-- The score tensors of all strides, one after the other. -/
def rawScores (det : SCRFDDetector F) (copied : String → ℕ → F) : List F :=
  det.strideBindings.entries.flatMap (det.entryScores copied)

/-- What `detect_batch` answers for one image. -/
def detections [Zero F] (det : SCRFDDetector F) (s : ScoreSort F) (copied : String → ℕ → F) (scale : F)
    (padX padY : Int) : Except Stop (List (FaceDetection F)) := do
  let raw ← det.decodeStrides copied scale padX padY
  return nms s raw det.cfg.nmsIouThreshold

variable {det : SCRFDDetector F} {copied : String → ℕ → F} {scale : F} {padX padY : Int}

theorem decodeEntry_raise (ht : t₁ ≤ t₂) {entry : Int × StrideBindings} {raw raw₁ : List (FaceDetection F)}
    (h : (det.withThreshold t₁).decodeEntry copied scale padX padY raw entry = .ok raw₁) :
    ∃ ds, raw₁ = raw ++ ds ∧ (ds.map (·.score)).Sublist (det.entryScores copied entry) ∧
      ∀ raw', (det.withThreshold t₂).decodeEntry copied scale padX padY raw' entry =
        .ok (raw' ++ ds.filter (atLeast t₂)) := by
  obtain ⟨stride, names⟩ := entry
  simp only [decodeEntry, entryScores] at h ⊢
  split_ifs at h ⊢ with hnames
  · obtain rfl := Except.ok.inj h
    exact ⟨[], (List.append_nil _).symm, List.nil_sublist _, fun raw' => by rw [List.filter_nil, List.append_nil]⟩
  · obtain ⟨sb, hsb, h⟩ := bind_ok.1 h
    obtain ⟨bb, hbb, h⟩ := bind_ok.1 h
    obtain ⟨kb, hkb, h⟩ := bind_ok.1 h
    obtain ⟨ds, hraw, hscores, hraise⟩ := decodeStride_raise ht h
    have hsb' : det.binding names.score = .ok sb := hsb
    refine ⟨ds, hraw, ?_, fun raw' => ?_⟩
    · rw [hsb']
      exact hscores
    · exact bind_ok.2 ⟨sb, hsb, bind_ok.2 ⟨bb, hbb, bind_ok.2 ⟨kb, hkb, hraise raw'⟩⟩⟩

/-- The decoder at the higher threshold emits what the lower one emits and the higher one lets through. -/
theorem decodeStrides_raise (ht : t₁ ≤ t₂) {raw : List (FaceDetection F)}
    (h : (det.withThreshold t₁).decodeStrides copied scale padX padY = .ok raw) :
    (raw.map (·.score)).Sublist (det.rawScores copied) ∧
      (det.withThreshold t₂).decodeStrides copied scale padX padY = .ok (raw.filter (atLeast t₂)) := by
  have hfold : ∀ (entries : List (Int × StrideBindings)) (raw₀ raw : List (FaceDetection F)),
      entries.foldlM ((det.withThreshold t₁).decodeEntry copied scale padX padY) raw₀ = .ok raw →
      ∃ ds, raw = raw₀ ++ ds ∧ (ds.map (·.score)).Sublist (entries.flatMap (det.entryScores copied)) ∧
        ∀ raw', entries.foldlM ((det.withThreshold t₂).decodeEntry copied scale padX padY) raw' =
          .ok (raw' ++ ds.filter (atLeast t₂)) := by
    intro entries
    induction entries with
    | nil =>
      intro raw₀ raw hraw
      obtain rfl := Except.ok.inj hraw
      exact ⟨[], (List.append_nil _).symm, List.nil_sublist _, fun raw' => by
        rw [List.filter_nil, List.append_nil]
        rfl⟩
    | cons entry entries ih =>
      intro raw₀ raw hraw
      rw [List.foldlM_cons] at hraw
      obtain ⟨raw₁, hentry, hrest⟩ := bind_ok.1 hraw
      obtain ⟨ds, rfl, hscores, hraise⟩ := decodeEntry_raise ht hentry
      obtain ⟨ds', rfl, hscores', hraise'⟩ := ih _ raw hrest
      refine ⟨ds ++ ds', List.append_assoc _ _ _, ?_, fun raw' => ?_⟩
      · rw [List.map_append, List.flatMap_cons]
        exact hscores.append hscores'
      · rw [List.foldlM_cons, hraise, List.filter_append, ← List.append_assoc]
        exact hraise' _
  obtain ⟨ds, hds, hscores, hraise⟩ := hfold det.strideBindings.entries [] raw h
  obtain rfl : raw = ds := hds
  exact ⟨hscores, hraise []⟩

end SCRFDDetector

end Raise

section Detections

variable {F : Type} [LinearOrder F] [Add F] [Sub F] [Mul F] [Div F] [Zero F]

/-- Suppression of the detections from a threshold on. -/
theorem nms_filter (s : ScoreSort F) {raw : List (FaceDetection F)} (hdistinct : (raw.map (·.score)).Nodup)
    (t iouThresh : F) :
    nms s (raw.filter (atLeast t)) iouThresh = (nms s raw iouThresh).filter (atLeast t) := by
  obtain ⟨post, hsplit, hlow⟩ := s.sort_split raw t
  have hfilter : ((s.sort raw).filter fun d => t ≤ d.score) = (s.sort raw).filter (atLeast t) := rfl
  rw [hfilter] at hsplit
  have hpost : ∀ d ∈ post, atLeast t d = false := fun d hd => by simpa [atLeast] using hlow d hd
  rw [nms, nms, suppressLoop_eq_keep, suppressLoop_eq_keep, s.sort_filter hdistinct]
  generalize s.sort raw = sorted at hsplit
  have hpre : ∀ d ∈ sorted.filter (atLeast t), atLeast t d = true := fun d hd => (List.mem_filter.1 hd).2
  rw [← filter_keep_append hpre hpost, ← hsplit]

variable [IntCast F]

/-- **Raising the threshold only filters the detections.** Distinct scores, and thresholds one of which is above
the other, are ordered: no NaN is among them. -/
theorem detections_raise (det : SCRFDDetector F) (s : ScoreSort F) (copied : String → ℕ → F) (scale : F)
    (padX padY : Int) (t₁ t₂ : F) (ds : List (FaceDetection F)) (ht : t₁ ≤ t₂)
    (hdistinct : (det.rawScores copied).Nodup)
    (h : (det.withThreshold t₁).detections s copied scale padX padY = .ok ds) :
    (det.withThreshold t₂).detections s copied scale padX padY =
      .ok (ds.filter fun d => t₂ ≤ d.score) := by
  obtain ⟨raw, hraw, hds⟩ := bind_ok.1 h
  obtain ⟨hscores, hraise⟩ := SCRFDDetector.decodeStrides_raise ht hraw
  obtain rfl := pure_ok.1 hds
  have hnms := nms_filter s (hdistinct.sublist hscores) t₂ det.cfg.nmsIouThreshold
  exact bind_ok.2 ⟨_, hraise, pure_ok.2 hnms.symm⟩

end Detections

/-- The stock export at 32x32. -/
def smallEngine : CudaEngine :=
  scrfdEngine 32 32 (by decide) (by decide +kernel)

/-- Score tensors with distinct scores, and boxes and landmarks of one size. -/
def ramp (name : String) (i : ℕ) : ℚ :=
  if name = "448" then i / 100 else if name = "471" then (i + 40) / 100
  else if name = "494" then (i + 50) / 100 else 1

theorem detections_raise_ramp : ∃ det ds,
    SCRFDDetector.new (fun _ _ => none) (detectionConfig 32 32) (engineFile smallEngine) = .ok det ∧
    (det.withThreshold (1 / 4)).detections (DescendingSort.insertion _) ramp 2 3 5 = .ok ds ∧
    (det.withThreshold (1 / 2)).detections (DescendingSort.insertion _) ramp 2 3 5 =
      .ok (ds.filter fun d => 1 / 2 ≤ d.score) := by
  obtain ⟨det, hnew, hdistinct, hlow⟩ : ∃ det,
      SCRFDDetector.new (fun _ _ => none) (detectionConfig 32 32) (engineFile smallEngine) = .ok det ∧
      (det.rawScores ramp).Nodup ∧
      ((det.withThreshold (1 / 4)).detections (DescendingSort.insertion _) ramp 2 3 5).isOk = true :=
    ⟨_, rfl, by decide +kernel, by decide +kernel⟩
  obtain ⟨ds, hds⟩ : ∃ ds, (det.withThreshold (1 / 4)).detections (DescendingSort.insertion _) ramp 2 3 5 =
      .ok ds := by
    cases h : (det.withThreshold (1 / 4)).detections (DescendingSort.insertion _) ramp 2 3 5 with
    | ok ds => exact ⟨ds, rfl⟩
    | error stop =>
      rw [h] at hlow
      cases hlow
  exact ⟨det, ds, hnew, hds, detections_raise det _ ramp 2 3 5 (1 / 4) (1 / 2) ds (by norm_num) hdistinct hds⟩

end FacePipeline.Trt
