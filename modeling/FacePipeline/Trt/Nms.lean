import FacePipeline.Lib.Descending
import FacePipeline.Lib.Greedy
import FacePipeline.Trt.ScrfdPostprocess

/-!
# Non-maximum suppression

`nms` sorts and then runs two loops over an array of flags. A flag that the outer loop has not reached yet
says whether one of the boxes kept so far overlaps that box (`Visited`): only kept boxes set flags, and the
inner loop of a kept box sets the flag of every box behind it that it overlaps. So the outer loop keeps
exactly what greedy selection keeps (`suppressLoop_eq_keep`).
-/

namespace FacePipeline.Trt

open Greedy

section Iou

variable {F : Type} [LT F] [DecidableLT F]

/-- `std::max`. -/
def stdMax (a b : F) : F :=
  if a < b then b else a

/-- `std::min`. -/
def stdMin (a b : F) : F :=
  if b < a then b else a

/-- `cv::Rect2f::area`. -/
def area [Mul F] (a : Rect2f F) : F :=
  a.width * a.height

/-- Intersection over union of two axis-aligned boxes; zero when the union is degenerate. -/
def iou [Add F] [Sub F] [Mul F] [Div F] [Zero F] (a b : Rect2f F) : F :=
  let xx1 := stdMax a.x b.x
  let yy1 := stdMax a.y b.y
  let xx2 := stdMin (a.x + a.width) (b.x + b.width)
  let yy2 := stdMin (a.y + a.height) (b.y + b.height)
  let w := stdMax 0 (xx2 - xx1)
  let h := stdMax 0 (yy2 - yy1)
  let inter := w * h
  let unionArea := area a + area b - inter
  if 0 < unionArea then inter / unionArea else 0

end Iou

theorem stdMax_eq_max {F : Type} [LinearOrder F] (a b : F) : stdMax a b = max a b :=
  (max_def_lt a b).symm

theorem stdMin_eq_min {F : Type} [LinearOrder F] (a b : F) : stdMin a b = min a b := by
  rw [min_comm]
  exact (min_def_lt b a).symm

section Nms

variable {F : Type} [LT F] [DecidableLT F] [Add F] [Sub F] [Mul F] [Div F] [Zero F]

/-- The body of the inner loop. -/
def suppressAt (dets : List (FaceDetection F)) (iouThresh : F) (i : Fin dets.length)
    (suppressed : Vector Bool dets.length) (j : Fin dets.length) : Vector Bool dets.length :=
  if suppressed[j] then suppressed
  else if iouThresh < iou (dets.get i).bbox (dets.get j).bbox then suppressed.set j true
  else suppressed

/-- `for (std::size_t j = i + 1; j < dets.size(); ++j)`. -/
def suppress (dets : List (FaceDetection F)) (iouThresh : F) (i : Fin dets.length)
    (suppressed : Vector Bool dets.length) : Vector Bool dets.length :=
  ((List.finRange dets.length).drop (i + 1)).foldl (suppressAt dets iouThresh i) suppressed

/-- The body of the outer loop. -/
def visit (dets : List (FaceDetection F)) (iouThresh : F)
    (state : List (FaceDetection F) × Vector Bool dets.length) (i : Fin dets.length) :
    List (FaceDetection F) × Vector Bool dets.length :=
  let (kept, suppressed) := state
  if suppressed[i] then (kept, suppressed)
  else (kept ++ [dets.get i], suppress dets iouThresh i suppressed)

/-- The two loops. -/
def suppressLoop (dets : List (FaceDetection F)) (iouThresh : F) : List (FaceDetection F) :=
  ((List.finRange dets.length).foldl (visit dets iouThresh) ([], Vector.replicate _ false)).1

end Nms

/-- `std::sort` by descending score; which order it leaves equal scores in is not specified. -/
abbrev ScoreSort (F : Type) [LT F] := DescendingSort (FaceDetection.score : FaceDetection F → F)

section Spec

variable {F : Type} [LT F] [DecidableLT F] [Add F] [Sub F] [Mul F] [Div F] [Zero F]

def nms (s : ScoreSort F) (dets : List (FaceDetection F)) (iouThresh : F) : List (FaceDetection F) :=
  suppressLoop (s.sort dets) iouThresh

/-- `a` overlaps `b` by more than the threshold. -/
def Overlaps (iouThresh : F) (a b : FaceDetection F) : Prop :=
  iouThresh < iou a.bbox b.bbox

instance (iouThresh : F) : DecidableRel (Overlaps (F := F) iouThresh) := fun _ _ =>
  inferInstanceAs (Decidable (_ < _))

/-! ### The inner loop -/

variable {dets : List (FaceDetection F)} {iouThresh : F}

theorem suppressAt_iff (i j k : Fin dets.length) (suppressed : Vector Bool dets.length) :
    (suppressAt dets iouThresh i suppressed j)[k] = true ↔
      suppressed[k] = true ∨ k = j ∧ Overlaps iouThresh (dets.get i) (dets.get k) := by
  have hset : (suppressed.set j true)[k] = true ↔ suppressed[k] = true ∨ k = j := by
    rw [Fin.getElem_fin, Vector.getElem_set, Fin.getElem_fin]
    split_ifs with hjk
    · exact iff_of_true rfl (.inr (Fin.ext hjk).symm)
    · exact ⟨.inl, fun h => h.resolve_right fun heq => hjk (heq ▸ rfl)⟩
  rw [suppressAt]
  split_ifs with hj hover
  · exact ⟨.inl, fun h => h.elim id fun hk => hk.1 ▸ hj⟩
  · rw [hset]
    refine or_congr_right ⟨fun h => ⟨h, ?_⟩, And.left⟩
    rw [h]
    exact hover
  · refine ⟨.inl, fun h => h.resolve_right ?_⟩
    rintro ⟨rfl, hk⟩
    exact hover hk

theorem foldl_suppressAt_iff (i k : Fin dets.length) (js : List (Fin dets.length))
    (suppressed : Vector Bool dets.length) :
    (js.foldl (suppressAt dets iouThresh i) suppressed)[k] = true ↔
      suppressed[k] = true ∨ k ∈ js ∧ Overlaps iouThresh (dets.get i) (dets.get k) := by
  induction js generalizing suppressed with
  | nil => simp
  | cons j js ih =>
    rw [List.foldl_cons, ih, suppressAt_iff, List.mem_cons, or_assoc, or_and_right]

omit [LT F] [DecidableLT F] [Add F] [Sub F] [Mul F] [Div F] [Zero F] in
theorem mem_drop_finRange {n m : ℕ} (k : Fin n) : k ∈ (List.finRange n).drop m ↔ m ≤ k := by
  rw [List.mem_drop_iff_getElem]
  simp only [List.getElem_finRange, List.length_finRange, Fin.ext_iff, Fin.val_cast]
  constructor
  · rintro ⟨j, hj, hk⟩
    omega
  · intro h
    exact ⟨k - m, by omega, by show m + (k - m) = k; omega⟩

/-- The inner loop flags the boxes behind `i` that it overlaps. -/
theorem suppress_iff (i k : Fin dets.length) (suppressed : Vector Bool dets.length) :
    (suppress dets iouThresh i suppressed)[k] = true ↔
      suppressed[k] = true ∨ i < k ∧ Overlaps iouThresh (dets.get i) (dets.get k) := by
  rw [suppress, foldl_suppressAt_iff, mem_drop_finRange]
  rfl

/-! ### The outer loop -/

/-- The state once the first `m` boxes are visited. -/
structure Visited (dets : List (FaceDetection F)) (iouThresh : F) (m : ℕ)
    (state : List (FaceDetection F) × Vector Bool dets.length) : Prop where
  kept : state.1 = keep (Overlaps iouThresh) (dets.take m)
  flags : ∀ j : Fin dets.length, m ≤ j →
    (state.2[j] = true ↔ ∃ k ∈ state.1, Overlaps iouThresh k (dets.get j))

theorem visit_visited {i : Fin dets.length} {state : List (FaceDetection F) × Vector Bool dets.length}
    (h : Visited dets iouThresh i state) : Visited dets iouThresh (i + 1) (visit dets iouThresh state i) := by
  obtain ⟨kept, suppressed⟩ := state
  have htake : dets.take (i + 1) = dets.take i ++ [dets.get i] := by
    rw [List.take_succ_eq_append_getElem i.isLt]
    rfl
  have hkept : kept = keep (Overlaps iouThresh) (dets.take i) := h.kept
  have hflag : suppressed[i] = true ↔ ∃ k ∈ kept, Overlaps iouThresh k (dets.get i) := h.flags i le_rfl
  rw [visit]
  by_cases hi : suppressed[i] = true
  · rw [if_pos hi]
    refine ⟨?_, fun j hj => h.flags j (Nat.le_of_succ_le hj)⟩
    rw [htake, keep_concat, ← hkept, if_pos (hflag.1 hi)]
  · rw [if_neg hi]
    refine ⟨?_, fun j hj => ?_⟩
    · rw [htake, keep_concat, ← hkept, if_neg fun hover => hi (hflag.2 hover)]
    · -- a flag is set by a box kept before, or by this one
      have hold : suppressed[j] = true ↔ ∃ k ∈ kept, Overlaps iouThresh k (dets.get j) :=
        h.flags j (Nat.le_of_succ_le hj)
      have hij : i < j := hj
      show (suppress dets iouThresh i suppressed)[j] = true ↔
        ∃ k ∈ kept ++ [dets.get i], Overlaps iouThresh k (dets.get j)
      rw [suppress_iff, hold]
      simp only [List.mem_append, List.mem_singleton, or_and_right, exists_or, exists_eq_left, hij,
        true_and]

theorem foldl_visited (m : ℕ) (hm : m ≤ dets.length) : Visited dets iouThresh m
    (((List.finRange dets.length).take m).foldl (visit dets iouThresh) ([], Vector.replicate _ false)) := by
  induction m with
  | zero =>
    refine ⟨by simp [keep, keepFrom], fun j _ => ?_⟩
    simp
  | succ m ih =>
    have hlt : m < (List.finRange dets.length).length := by rwa [List.length_finRange]
    have hget : (List.finRange dets.length)[m] = ⟨m, hm⟩ := by
      rw [List.getElem_finRange]
      rfl
    rw [List.take_succ_eq_append_getElem hlt, List.foldl_append, hget]
    exact visit_visited (i := ⟨m, hm⟩) (ih (Nat.le_of_succ_le hm))

/-- **The loops are greedy selection.** -/
theorem suppressLoop_eq_keep (dets : List (FaceDetection F)) (iouThresh : F) :
    suppressLoop dets iouThresh = keep (Overlaps iouThresh) dets := by
  have hvisited : Visited dets iouThresh dets.length _ := foldl_visited dets.length le_rfl
  rw [List.take_of_length_le (by rw [List.length_finRange])] at hvisited
  rw [suppressLoop, hvisited.kept, List.take_length]

theorem nms_eq_keep (s : ScoreSort F) (dets : List (FaceDetection F)) (iouThresh : F) :
    nms s dets iouThresh = keep (Overlaps iouThresh) (s.sort dets) :=
  suppressLoop_eq_keep _ _

end Spec

/-! ### What suppression owes -/

section Greedy

variable {F : Type} [LinearOrder F]

theorem stdMax_comm (a b : F) : stdMax a b = stdMax b a := by
  rw [stdMax_eq_max, stdMax_eq_max, max_comm]

theorem stdMin_comm (a b : F) : stdMin a b = stdMin b a := by
  rw [stdMin_eq_min, stdMin_eq_min, min_comm]

variable [AddCommMagma F] [Sub F] [Mul F] [Div F] [Zero F]

theorem iou_comm (a b : Rect2f F) : iou a b = iou b a := by
  rw [iou, iou, stdMax_comm a.x, stdMax_comm a.y, stdMin_comm (a.x + a.width),
    stdMin_comm (a.y + a.height), add_comm (area a)]

/-- No kept box overlaps another. -/
theorem nms_noOverlap (s : ScoreSort F) (dets : List (FaceDetection F)) (iouThresh : F) :
    (nms s dets iouThresh).Pairwise fun a b =>
      iou a.bbox b.bbox ≤ iouThresh ∧ iou b.bbox a.bbox ≤ iouThresh := by
  rw [nms_eq_keep]
  refine keep_pairwise.imp fun hab => ?_
  have hle := not_lt.1 hab
  exact ⟨hle, (iou_comm _ _).trans_le hle⟩

/-- Greedy suppression of `dets`, sorted as `sorted`. -/
structure GreedySuppression (iouThresh : F) (dets sorted out : List (FaceDetection F)) : Prop where
  /-- A sub-multiset of the input. -/
  subperm : out.Subperm dets
  descending : out.Pairwise fun a b => b.score ≤ a.score
  noOverlap : out.Pairwise fun a b => iou a.bbox b.bbox ≤ iouThresh ∧ iou b.bbox a.bbox ≤ iouThresh
  /-- Each detection is kept in its place, or one kept before it overlaps it. -/
  covering : ∀ before d after, sorted = before ++ d :: after →
    (∃ out₁ out₂, out = out₁ ++ d :: out₂ ∧ out₁.Sublist before ∧ out₂.Sublist after) ∨
      ∃ k ∈ out, k ∈ before ∧ iouThresh < iou k.bbox d.bbox
  /-- A suppressed box suppresses nothing. -/
  reference : out = keep (Overlaps iouThresh) sorted

/-- **NMS is greedy suppression**, whatever order the sort leaves equal scores in. The scores are ordered: for a
list with a NaN among its scores, which `decode_stride` lets through, `std::sort` promises nothing. -/
theorem nms_greedy (s : ScoreSort F) (dets : List (FaceDetection F)) (iouThresh : F) :
    GreedySuppression iouThresh dets (s.sort dets) (nms s dets iouThresh) := by
  have hover := nms_noOverlap s dets iouThresh
  rw [nms_eq_keep] at hover ⊢
  refine ⟨?_, ?_, hover, fun before d after hsorted => ?_, rfl⟩
  · exact keep_sublist.subperm.trans (s.perm dets).subperm
  · exact (s.descending dets).sublist keep_sublist
  · rw [hsorted]
    rcases keep_covering (r := Overlaps iouThresh) before d after with ⟨zs, hkeep, hzs⟩ | hover
    · exact .inl ⟨_, zs, hkeep, keep_sublist, hzs⟩
    · exact .inr hover

/-- A chain of three boxes: the middle one is suppressed, and so does not suppress the last. -/
example : suppressLoop
    ([⟨⟨0, 0, 10, 10⟩, Vector.replicate 5 ⟨0, 0⟩, 9⟩, ⟨⟨4, 0, 10, 10⟩, Vector.replicate 5 ⟨0, 0⟩, 8⟩,
      ⟨⟨8, 0, 10, 10⟩, Vector.replicate 5 ⟨0, 0⟩, 7⟩] : List (FaceDetection ℚ)) (3 / 10) =
    [⟨⟨0, 0, 10, 10⟩, Vector.replicate 5 ⟨0, 0⟩, 9⟩, ⟨⟨8, 0, 10, 10⟩, Vector.replicate 5 ⟨0, 0⟩, 7⟩] := by
  decide +kernel

end Greedy

/-! ### The order of the candidates -/

section Order

variable {F : Type} [LinearOrder F] [Add F] [Sub F] [Mul F] [Div F] [Zero F]

/-- **With distinct scores, `nms` is a function of the set of candidates, and idempotent**, whichever sorts
the runs use. Distinct scores are ordered ones, without a NaN. -/
theorem nms_canonical (s₁ s₂ : ScoreSort F) (dets dets' : List (FaceDetection F)) (iouThresh : F)
    (hperm : dets.Perm dets') (hdistinct : (dets.map (·.score)).Nodup) :
    nms s₁ dets iouThresh = nms s₂ dets' iouThresh ∧
      nms s₂ (nms s₁ dets iouThresh) iouThresh = nms s₁ dets iouThresh := by
  rw [nms_eq_keep, nms_eq_keep, nms_eq_keep]
  constructor
  · rw [DescendingSort.sort_eq_of_perm s₁ s₂ hperm hdistinct]
  · have hsorted := (s₁.descending dets).sublist (keep_sublist (r := Overlaps iouThresh))
    have hscores : ((s₁.sort dets).map (·.score)).Nodup := (((s₁.perm dets).map _).nodup_iff).2 hdistinct
    rw [s₂.sort_of_sorted hsorted (hscores.sublist (keep_sublist.map _))]
    exact keep_of_pairwise keep_pairwise

/-- A box of a given score. -/
def scored (x score : ℚ) : FaceDetection ℚ :=
  ⟨⟨x, 0, 10, 10⟩, Vector.replicate 5 ⟨0, 0⟩, score⟩

/-- Three overlapping boxes, in two orders. -/
theorem nms_canonical_threeBoxes :
    nms (.insertion _) [scored 0 9, scored 4 8, scored 8 7] (3 / 10) =
        nms (.insertion _) [scored 8 7, scored 0 9, scored 4 8] (3 / 10) ∧
      nms (.insertion _) (nms (.insertion _) [scored 0 9, scored 4 8, scored 8 7] (3 / 10)) (3 / 10) =
        nms (.insertion _) [scored 0 9, scored 4 8, scored 8 7] (3 / 10) :=
  nms_canonical _ _ _ _ _ (by decide) (by decide)

end Order

end FacePipeline.Trt
