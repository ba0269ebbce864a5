import FacePipeline.Trt.ThresholdFilter
import Mathlib.Data.Set.List

/-!
# What the letterbox does not change

Mapping back moves every box by one translation and divides it by one positive scale, and the overlap of two
boxes is the same before and after (`iou_box`, `overlaps_mapBack`), also where the boxes have no positive extent.
So decoding is decoding in letterboxed coordinates, mapped back (`decodeStrides_eq`), and two letterboxes that sort
the same way keep the same anchors.
-/

namespace FacePipeline.Trt

open FacePipeline.Config Greedy Traverse

/-- What a letterboxed detection is mapped back with. -/
structure Geometry (F : Type) where
  scale : F
  padX : Int
  padY : Int

section Overlap

variable {F : Type} [Field F] [LinearOrder F] [IsStrictOrderedRing F]

/-- Letterboxed coordinates as they are. -/
def Geometry.identity : Geometry F := ⟨1, 0, 0⟩

/-- A point of the letterboxed image in the source. -/
def Geometry.point (g : Geometry F) (p : Point2f F) : Point2f F :=
  undoLetterbox p.x p.y g.scale g.padX g.padY

/-- A box of the letterboxed image in the source. -/
def Geometry.box (g : Geometry F) (b : Rect2f F) : Rect2f F :=
  ⟨(b.x - g.padX) / g.scale, (b.y - g.padY) / g.scale, b.width / g.scale, b.height / g.scale⟩

def Geometry.mapBack (g : Geometry F) (d : FaceDetection F) : FaceDetection F :=
  ⟨g.box d.bbox, d.landmarks.map g.point, d.score⟩

omit [Field F] [IsStrictOrderedRing F] in
theorem stdMax_map {f : F → F} (hf : StrictMono f) (a b : F) : stdMax (f a) (f b) = f (stdMax a b) := by
  unfold stdMax
  rw [apply_ite f]
  exact if_congr hf.lt_iff_lt rfl rfl

omit [Field F] [IsStrictOrderedRing F] in
theorem stdMin_map {f : F → F} (hf : StrictMono f) (a b : F) : stdMin (f a) (f b) = f (stdMin a b) := by
  unfold stdMin
  rw [apply_ite f]
  exact if_congr hf.lt_iff_lt rfl rfl

/-- The length of an overlap along one axis. -/
theorem extent_div {scale : F} (h : 0 < scale) (x₁ x₂ e₁ e₂ pad : F) :
    stdMax 0 (stdMin ((x₁ - pad) / scale + e₁ / scale) ((x₂ - pad) / scale + e₂ / scale) -
      stdMax ((x₁ - pad) / scale) ((x₂ - pad) / scale)) =
        stdMax 0 (stdMin (x₁ + e₁) (x₂ + e₂) - stdMax x₁ x₂) / scale := by
  have hdiv : StrictMono fun x : F => x / scale := fun a b hab => div_lt_div_of_pos_right hab h
  have hundo : StrictMono fun x : F => (x - pad) / scale := fun a b hab => hdiv (sub_lt_sub_right hab pad)
  have hend : ∀ x e : F, (x - pad) / scale + e / scale = (x + e - pad) / scale := by
    intro x e
    ring
  have hlow : stdMax ((x₁ - pad) / scale) ((x₂ - pad) / scale) = (stdMax x₁ x₂ - pad) / scale :=
    stdMax_map hundo x₁ x₂
  have hhigh : stdMin ((x₁ + e₁ - pad) / scale) ((x₂ + e₂ - pad) / scale) =
      (stdMin (x₁ + e₁) (x₂ + e₂) - pad) / scale := stdMin_map hundo _ _
  have hclamp : ∀ x : F, stdMax 0 (x / scale) = stdMax 0 x / scale := by
    intro x
    rw [← stdMax_map hdiv 0 x, zero_div]
  rw [hend, hend, hlow, hhigh, ← sub_div, sub_sub_sub_cancel_right, hclamp]

/-- **Overlap is the same after mapping back**, for boxes of any extent. -/
theorem iou_box {g : Geometry F} (h : 0 < g.scale) (a b : Rect2f F) :
    iou (g.box a) (g.box b) = iou a b := by
  have hs : 0 < g.scale * g.scale := mul_pos h h
  unfold iou Geometry.box area
  simp only [extent_div h]
  generalize stdMax 0 (stdMin (a.x + a.width) (b.x + b.width) - stdMax a.x b.x) = w
  generalize stdMax 0 (stdMin (a.y + a.height) (b.y + b.height) - stdMax a.y b.y) = k
  have hinter : w / g.scale * (k / g.scale) = w * k / (g.scale * g.scale) := div_mul_div_comm _ _ _ _
  have hunion : a.width / g.scale * (a.height / g.scale) + b.width / g.scale * (b.height / g.scale) -
      w * k / (g.scale * g.scale) = (a.width * a.height + b.width * b.height - w * k) / (g.scale * g.scale) := by
    ring
  rw [hinter, hunion, div_div_div_cancel_right₀ hs.ne']
  exact if_congr (div_pos_iff_of_pos_right hs) rfl rfl

/-! ### Decoding, in letterboxed coordinates -/

omit [LinearOrder F] [IsStrictOrderedRing F] in
theorem distance2bbox_eq (g : Geometry F) (anchor : Point2f F) (distances : Vector F 4) (stride : F) :
    distance2bbox anchor distances stride g.scale g.padX g.padY =
      g.box (distance2bbox anchor distances stride 1 0 0) := by
  unfold distance2bbox undoLetterbox Geometry.box
  simp only [Int.cast_zero, sub_zero, div_one, Rect2f.mk.injEq, true_and]
  constructor <;> ring

omit [LinearOrder F] [IsStrictOrderedRing F] in
theorem distance2kps_eq (g : Geometry F) (anchor : Point2f F) (offsets : Vector F 10) (stride : F) :
    distance2kps anchor offsets stride g.scale g.padX g.padY =
      (distance2kps anchor offsets stride 1 0 0).map g.point := by
  apply Vector.ext
  intro k hk
  unfold distance2kps Geometry.point undoLetterbox
  simp

variable {stride featW n inputW inputH : Int} {scores bboxes kps : List F} {scoreThresh : F}

omit [IsStrictOrderedRing F] in
theorem decodeAt_eq (g : Geometry F) (l : Int × Int × Int) :
    decodeAt stride featW n scores bboxes kps scoreThresh g.scale g.padX g.padY l =
      Option.map g.mapBack <$> decodeAt stride featW n scores bboxes kps scoreThresh 1 0 0 l := by
  obtain ⟨y, x, a⟩ := l
  unfold decodeAt
  rw [map_bind]
  refine bind_congr fun idx => ?_
  rw [map_bind]
  refine bind_congr fun score => ?_
  split_ifs with hlow
  · rfl
  · simp only [map_bind]
    refine bind_congr fun anchorX => bind_congr fun anchorY => bind_congr fun bboxAt => ?_
    refine bind_congr fun distances => bind_congr fun kpsAt => bind_congr fun offsets => ?_
    rw [distance2bbox_eq, distance2kps_eq]
    rfl

omit [IsStrictOrderedRing F] in
theorem decodeStride_eq (g : Geometry F) (out : List (FaceDetection F)) :
    decodeStride stride inputW inputH n scores bboxes kps scoreThresh g.scale g.padX g.padY
        (out.map g.mapBack) =
      List.map g.mapBack <$>
        decodeStride stride inputW inputH n scores bboxes kps scoreThresh 1 0 0 out := by
  unfold decodeStride
  split_ifs with hs
  · rfl
  · simp only
    rw [funext (decodeAt_eq g), traverseIdx_map, map_bind, bind_map_left]
    refine bind_congr fun ds => ?_
    rw [List.reduceOption_map, ← List.map_append]
    rfl

namespace SCRFDDetector

variable (det : SCRFDDetector F) (copied : String → ℕ → F)

omit [IsStrictOrderedRing F] in
theorem decodeEntry_eq (g : Geometry F) (raw : List (FaceDetection F)) (entry : Int × StrideBindings) :
    det.decodeEntry copied g.scale g.padX g.padY (raw.map g.mapBack) entry =
      List.map g.mapBack <$> det.decodeEntry copied 1 0 0 raw entry := by
  obtain ⟨stride, names⟩ := entry
  unfold decodeEntry
  simp only
  split_ifs with hnames
  · rfl
  · simp only [map_bind]
    exact bind_congr fun sb => bind_congr fun bb => bind_congr fun kb => decodeStride_eq g raw

omit [IsStrictOrderedRing F] in
/-- **Decoding is decoding in letterboxed coordinates**, and mapping back. -/
theorem decodeStrides_eq (g : Geometry F) :
    det.decodeStrides copied g.scale g.padX g.padY =
      List.map g.mapBack <$> det.decodeStrides copied 1 0 0 := by
  have hfold : ∀ (entries : List (Int × StrideBindings)) (raw : List (FaceDetection F)),
      entries.foldlM (det.decodeEntry copied g.scale g.padX g.padY) (raw.map g.mapBack) =
        List.map g.mapBack <$> entries.foldlM (det.decodeEntry copied 1 0 0) raw := by
    intro entries
    induction entries with
    | nil => intro raw; rfl
    | cons entry entries ih =>
      intro raw
      rw [List.foldlM_cons, List.foldlM_cons, decodeEntry_eq, bind_map_left, map_bind]
      exact bind_congr ih
  exact hfold det.strideBindings.entries []

end SCRFDDetector

/-! ### The anchors behind the detections -/

/-- An anchor: its stride, and its row, column and number on the feature map of that stride. -/
structure Anchor where
  stride : Int
  location : Int × Int × Int

/-- The detection that the decoder emits at an anchor. -/
def SCRFDDetector.DecodedAt (det : SCRFDDetector F) (copied : String → ℕ → F) (g : Geometry F) (a : Anchor)
    (d : FaceDetection F) : Prop :=
  ∃ names sb bb kb, (a.stride, names) ∈ det.strideBindings.entries ∧ det.binding names.score = .ok sb ∧
    det.binding names.bbox = .ok bb ∧ det.binding names.kps = .ok kb ∧
    a.location ∈ locations ((castInt det.cfg.inputHeight.toNat).tdiv a.stride)
      ((castInt det.cfg.inputWidth.toNat).tdiv a.stride) kAnchorsPerLocation ∧
    decodeAt a.stride ((castInt det.cfg.inputWidth.toNat).tdiv a.stride) kAnchorsPerLocation
      ((List.range sb.volume).map (copied names.score)) ((List.range bb.volume).map (copied names.bbox))
      ((List.range kb.volume).map (copied names.kps)) det.cfg.confidenceThreshold g.scale g.padX g.padY
      a.location = .ok (some d)

/-- A list of detections, each with its anchor. -/
def SCRFDDetector.Labelled (det : SCRFDDetector F) (copied : String → ℕ → F) (g : Geometry F)
    (labelled : List (Anchor × FaceDetection F)) : Prop :=
  (labelled.map Prod.fst).Nodup ∧ ∀ p ∈ labelled, det.DecodedAt copied g p.1 p.2

omit [Field F] [LinearOrder F] [IsStrictOrderedRing F] in
theorem locations_nodup (featH featW n : Int) : (locations featH featW n).Nodup := by
  rw [List.nodup_iff_injective_getElem]
  intro i j hij
  have hi := flatIndex_getElem? (List.getElem?_eq_getElem i.isLt)
  have hj := flatIndex_getElem? (List.getElem?_eq_getElem j.isLt)
  simp only at hij
  rw [hij, hj] at hi
  exact Fin.ext (Int.ofNat_inj.1 hi).symm

section Labels

variable {det : SCRFDDetector F} {copied : String → ℕ → F}

omit [IsStrictOrderedRing F] in
theorem decodeEntry_labelled {entry : Int × StrideBindings} (hentry : entry ∈ det.strideBindings.entries)
    {raw raw' : List (FaceDetection F)} (h : det.decodeEntry copied 1 0 0 raw entry = .ok raw') :
    ∃ labelled, raw' = raw ++ labelled.map Prod.snd ∧ det.Labelled copied .identity labelled ∧
      ∀ p ∈ labelled, p.1.stride = entry.1 := by
  obtain ⟨stride, names⟩ := entry
  simp only [SCRFDDetector.decodeEntry] at h
  split_ifs at h with hnames
  · obtain rfl := Except.ok.inj h
    exact ⟨[], (List.append_nil _).symm, ⟨List.nodup_nil, by simp⟩, by simp⟩
  · obtain ⟨sb, hsb, h⟩ := bind_ok.1 h
    obtain ⟨bb, hbb, h⟩ := bind_ok.1 h
    obtain ⟨kb, hkb, h⟩ := bind_ok.1 h
    unfold decodeStride at h
    split_ifs at h with hs
    obtain ⟨os, hos, h⟩ := bind_ok.1 h
    obtain rfl := pure_ok.1 h
    obtain ⟨ps, hps, hsublist, hdecoded⟩ := traverseIdx_reduceOption hos
    refine ⟨ps.map fun p => (⟨stride, p.1⟩, p.2), ?_, ⟨?_, ?_⟩, List.forall_mem_map.2 fun _ _ => rfl⟩
    · rw [hps, List.map_map]
      rfl
    · have hlabels : (ps.map fun p => ((⟨stride, p.1⟩, p.2) : Anchor × FaceDetection F)).map Prod.fst =
          (ps.map Prod.fst).map (Anchor.mk stride) := by
        rw [List.map_map, List.map_map]
        rfl
      rw [hlabels]
      refine ((locations_nodup _ _ _).sublist hsublist).map fun l l' hl => ?_
      exact (Anchor.mk.inj hl).2
    · rw [List.forall_mem_map]
      intro p hp
      have hmem := hsublist.subset (List.mem_map_of_mem (f := Prod.fst) hp)
      refine ⟨names, sb, bb, kb, hentry, hsb, hbb, hkb, hmem, ?_⟩
      have hp' := hdecoded p hp
      simpa [Geometry.identity] using hp'

omit [IsStrictOrderedRing F] in
/-- The raw detections come from distinct anchors. -/
theorem decodeStrides_labelled {raw : List (FaceDetection F)}
    (h : det.decodeStrides copied 1 0 0 = .ok raw) :
    ∃ labelled, raw = labelled.map Prod.snd ∧ det.Labelled copied .identity labelled := by
  have hfold : ∀ (entries : List (Int × StrideBindings)) (raw₀ raw : List (FaceDetection F)),
      entries ⊆ det.strideBindings.entries → entries.Pairwise (fun a b => a.1 < b.1) →
      entries.foldlM (det.decodeEntry copied 1 0 0) raw₀ = .ok raw →
      ∃ labelled, raw = raw₀ ++ labelled.map Prod.snd ∧ det.Labelled copied .identity labelled ∧
        ∀ p ∈ labelled, ∃ entry ∈ entries, p.1.stride = entry.1 := by
    intro entries
    induction entries with
    | nil =>
      intro raw₀ raw _ _ hraw
      obtain rfl := Except.ok.inj hraw
      exact ⟨[], (List.append_nil _).symm, ⟨List.nodup_nil, by simp⟩, by simp⟩
    | cons entry entries ih =>
      intro raw₀ raw hsubset hincreasing hraw
      rw [List.foldlM_cons] at hraw
      obtain ⟨raw₁, hentry, hrest⟩ := bind_ok.1 hraw
      rw [List.pairwise_cons] at hincreasing
      obtain ⟨first, rfl, hfirst, hstride⟩ := decodeEntry_labelled (hsubset List.mem_cons_self) hentry
      obtain ⟨rest, rfl, hlabelled, hstrides⟩ :=
        ih _ raw (fun e he => hsubset (List.mem_cons_of_mem _ he)) hincreasing.2 hrest
      refine ⟨first ++ rest, by rw [List.map_append, List.append_assoc], ⟨?_, ?_⟩, ?_⟩
      · rw [List.map_append, List.nodup_append]
        refine ⟨hfirst.1, hlabelled.1, ?_⟩
        rw [List.forall_mem_map]
        intro p hp
        rw [List.forall_mem_map]
        intro q hq heq
        -- the strides of the map's entries increase
        obtain ⟨entry', hentry', hq'⟩ := hstrides q hq
        have hlt := hincreasing.1 entry' hentry'
        rw [← hstride p hp, ← hq', heq] at hlt
        exact lt_irrefl _ hlt
      · rw [List.forall_mem_append]
        exact ⟨hfirst.2, hlabelled.2⟩
      · rw [List.forall_mem_append]
        refine ⟨fun p hp => ⟨entry, List.mem_cons_self, hstride p hp⟩, fun p hp => ?_⟩
        obtain ⟨entry', hentry', hp'⟩ := hstrides p hp
        exact ⟨entry', List.mem_cons_of_mem _ hentry', hp'⟩
  obtain ⟨labelled, hraw, hlabelled, -⟩ :=
    hfold det.strideBindings.entries [] raw (List.Subset.refl _) det.strideBindings.increasing h
  exact ⟨labelled, hraw, hlabelled⟩

omit [IsStrictOrderedRing F] in
theorem decodedAt_mapBack {a : Anchor} {d : FaceDetection F} (h : det.DecodedAt copied .identity a d)
    (g : Geometry F) : det.DecodedAt copied g a (g.mapBack d) := by
  obtain ⟨names, sb, bb, kb, hentry, hsb, hbb, hkb, hmem, hdecoded⟩ := h
  refine ⟨names, sb, bb, kb, hentry, hsb, hbb, hkb, hmem, ?_⟩
  rw [decodeAt_eq]
  have hdecoded' : decodeAt _ _ _ _ _ _ _ (1 : F) 0 0 _ = _ := hdecoded
  rw [hdecoded']
  rfl

end Labels

/-! ### Suppression -/

/-- Both sorts put the positions of the two lists in one order. -/
def SameOrder (s₁ s₂ : ScoreSort F) (ds₁ ds₂ : List (FaceDetection F)) : Prop :=
  ∃ order : List ℕ, order.Perm (List.range ds₁.length) ∧
    (s₁.sort ds₁).map some = order.map (ds₁[·]?) ∧ (s₂.sort ds₂).map some = order.map (ds₂[·]?)

omit [Field F] [LinearOrder F] [IsStrictOrderedRing F] in
theorem range_map_getElem? {T : Type} (ts : List T) :
    (List.range ts.length).map (ts[·]?) = ts.map some := by
  apply List.ext_getElem (by simp)
  intro i hi _
  simp

omit [Field F] [IsStrictOrderedRing F] in
/-- Two images of one list are sorted like images of one list. -/
theorem SameOrder.exists_perm {T : Type} {s₁ s₂ : ScoreSort F} {ts : List T} {f₁ f₂ : T → FaceDetection F}
    (h : SameOrder s₁ s₂ (ts.map f₁) (ts.map f₂)) :
    ∃ us : List T, us.Perm ts ∧ s₁.sort (ts.map f₁) = us.map f₁ ∧ s₂.sort (ts.map f₂) = us.map f₂ := by
  obtain ⟨order, hperm, h₁, h₂⟩ := h
  rw [List.length_map] at hperm
  have hpositions : (order.map (ts[·]?)).Perm (ts.map some) := range_map_getElem? ts ▸ hperm.map _
  obtain ⟨us, hus⟩ : ∃ us : List T, us.map some = order.map (ts[·]?) := by
    rw [← Set.mem_range, Set.range_list_map]
    intro o ho
    obtain ⟨t, -, rfl⟩ := List.mem_map.1 (hpositions.mem_iff.1 ho)
    exact Set.mem_range_self t
  have hsorted : ∀ f : T → FaceDetection F, order.map ((ts.map f)[·]?) = (us.map f).map some := by
    intro f
    have hmap := congrArg (List.map (Option.map f)) hus
    simpa [Function.comp_def] using hmap.symm
  rw [← hus] at hpositions
  refine ⟨us, (List.map_perm_map_iff (Option.some_injective _)).1 hpositions, ?_, ?_⟩
  · exact List.map_injective_iff.2 (Option.some_injective _) (h₁.trans (hsorted f₁))
  · exact List.map_injective_iff.2 (Option.some_injective _) (h₂.trans (hsorted f₂))

omit [Field F] [IsStrictOrderedRing F] in
/-- A sort that looks at the scores only. -/
theorem sameOrder_insertion {T : Type} (ts : List T) (f₁ f₂ : T → FaceDetection F)
    (h : ∀ t, (f₁ t).score = (f₂ t).score) :
    SameOrder (DescendingSort.insertion _) (DescendingSort.insertion _) (ts.map f₁) (ts.map f₂) := by
  set order := (DescendingSort.insertion fun i : Fin ts.length => (f₁ (ts.get i)).score).sort
    (List.finRange ts.length) with horder
  have hsorted : ∀ f : T → FaceDetection F, (∀ t, (f₁ t).score = (f t).score) →
      (DescendingSort.insertion FaceDetection.score).sort (ts.map f) = order.map fun i => f (ts.get i) := by
    intro f hf
    have hmap : (List.finRange ts.length).map (fun i => f (ts.get i)) = ts.map f :=
      List.map_map.symm.trans (congrArg (List.map f) (List.map_get_finRange ts))
    rw [← hmap, DescendingSort.insertion_map, horder, funext fun i => hf (ts.get i)]
  have hread : ∀ f : T → FaceDetection F, (order.map fun i => f (ts.get i)).map some =
      (order.map Fin.val).map ((ts.map f)[·]?) := by
    intro f
    simp
  refine ⟨order.map Fin.val, ?_, ?_, ?_⟩
  · have hperm : order.Perm (List.finRange ts.length) := DescendingSort.perm _ _
    rw [List.length_map, ← List.map_coe_finRange_eq_range]
    exact hperm.map Fin.val
  · rw [hsorted f₁ fun _ => rfl, hread]
  · rw [hsorted f₂ h, hread]

/-- What becomes of the same tensors under two letterboxes. -/
inductive SameAnchors (det : SCRFDDetector F) (copied : String → ℕ → F) (g₁ g₂ : Geometry F) :
    Except Stop (List (FaceDetection F)) → Except Stop (List (FaceDetection F)) → Prop where
  | fails (e : Stop) : SameAnchors det copied g₁ g₂ (.error e) (.error e)
  | keeps (anchors : List Anchor) (ds₁ ds₂ : List (FaceDetection F)) (distinct : anchors.Nodup)
      (first : List.Forall₂ (det.DecodedAt copied g₁) anchors ds₁)
      (second : List.Forall₂ (det.DecodedAt copied g₂) anchors ds₂) :
      SameAnchors det copied g₁ g₂ (.ok ds₁) (.ok ds₂)

/-- The overlap of two decoded boxes. -/
theorem iou_decoded {g : Geometry F} (h : 0 < g.scale) (p q : Point2f F) (distances distances' : Vector F 4)
    (stride stride' : F) : iou (distance2bbox p distances stride g.scale g.padX g.padY)
      (distance2bbox q distances' stride' g.scale g.padX g.padY) =
        iou (distance2bbox p distances stride 1 0 0) (distance2bbox q distances' stride' 1 0 0) := by
  rw [distance2bbox_eq g p, distance2bbox_eq g q, iou_box h]

theorem overlaps_mapBack {g : Geometry F} (h : 0 < g.scale) (iouThresh : F) (a b : FaceDetection F) :
    Overlaps iouThresh (g.mapBack a) (g.mapBack b) ↔ Overlaps iouThresh a b := by
  unfold Overlaps Geometry.mapBack
  rw [iou_box h]

/-- **The letterbox does not choose the faces**: decoded boxes overlap as much under one as under the other,
and the anchors that survive are the same, in the same order. -/
theorem detections_sameAnchors (det : SCRFDDetector F) (copied : String → ℕ → F) (s₁ s₂ : ScoreSort F)
    (g₁ g₂ : Geometry F) (h₁ : 0 < g₁.scale) (h₂ : 0 < g₂.scale)
    (horder : ∀ raw₁ raw₂, det.decodeStrides copied g₁.scale g₁.padX g₁.padY = .ok raw₁ →
      det.decodeStrides copied g₂.scale g₂.padX g₂.padY = .ok raw₂ → SameOrder s₁ s₂ raw₁ raw₂) :
    (∀ (p q : Point2f F) (distances distances' : Vector F 4) (stride stride' : F),
      iou (distance2bbox p distances stride g₁.scale g₁.padX g₁.padY)
        (distance2bbox q distances' stride' g₁.scale g₁.padX g₁.padY) =
      iou (distance2bbox p distances stride g₂.scale g₂.padX g₂.padY)
        (distance2bbox q distances' stride' g₂.scale g₂.padX g₂.padY)) ∧
    SameAnchors det copied g₁ g₂ (det.detections s₁ copied g₁.scale g₁.padX g₁.padY)
      (det.detections s₂ copied g₂.scale g₂.padX g₂.padY) := by
  refine ⟨fun p q distances distances' stride stride' => ?_, ?_⟩
  · rw [iou_decoded h₁, iou_decoded h₂]
  unfold SCRFDDetector.detections
  rw [det.decodeStrides_eq copied g₁, det.decodeStrides_eq copied g₂] at *
  cases hraw : det.decodeStrides copied 1 0 0 with
  | error e => exact .fails e
  | ok raw =>
    rw [hraw] at horder
    obtain ⟨labelled, rfl, hnodup, hdecoded⟩ := decodeStrides_labelled hraw
    have hraws : ∀ g : Geometry F, (labelled.map Prod.snd).map g.mapBack =
        labelled.map fun p => g.mapBack p.2 := fun g => List.map_map
    have hsame := horder _ _ rfl rfl
    rw [hraws, hraws] at hsame
    obtain ⟨sorted, hperm, hsort₁, hsort₂⟩ := hsame.exists_perm
    -- both selections are the selection by the overlaps in letterboxed coordinates
    set kept := keep (fun p q => Overlaps det.cfg.nmsIouThreshold p.2 q.2) sorted with hkept
    have hselect : ∀ g : Geometry F, 0 < g.scale →
        suppressLoop (sorted.map fun p => g.mapBack p.2) det.cfg.nmsIouThreshold =
          kept.map fun p => g.mapBack p.2 := by
      intro g hg
      rw [suppressLoop_eq_keep]
      exact keep_map (fun p q => overlaps_mapBack hg _ p.2 q.2) sorted
    have hanchors : ∀ g : Geometry F, List.Forall₂ (det.DecodedAt copied g) (kept.map Prod.fst)
        (kept.map fun p => g.mapBack p.2) := by
      intro g
      rw [List.forall₂_map_left_iff, List.forall₂_map_right_iff, List.forall₂_same]
      exact fun p hp => decodedAt_mapBack (hdecoded p (hperm.subset (keep_sublist.subset hp))) g
    have hdistinct : (kept.map Prod.fst).Nodup :=
      ((hperm.map Prod.fst).nodup_iff.2 hnodup).sublist (keep_sublist.map Prod.fst)
    have hdetections : ∀ (s : ScoreSort F) (g : Geometry F), 0 < g.scale →
        s.sort (labelled.map fun p => g.mapBack p.2) = sorted.map (fun p => g.mapBack p.2) →
        (do
          let raw ← List.map g.mapBack <$> (Except.ok (labelled.map Prod.snd) : Except Stop _)
          return nms s raw det.cfg.nmsIouThreshold : Except Stop (List (FaceDetection F))) =
            .ok (kept.map fun p => g.mapBack p.2) := by
      intro s g hg hsort
      show Except.ok (nms s _ _) = _
      rw [nms, hraws, hsort, hselect g hg]
    rw [hdetections s₁ g₁ h₁ hsort₁, hdetections s₂ g₂ h₂ hsort₂]
    exact .keeps _ _ _ hdistinct (hanchors g₁) (hanchors g₂)

end Overlap

theorem detections_sameAnchors_ramp : ∃ det : SCRFDDetector ℚ,
    SCRFDDetector.new (fun _ _ => none) (detectionConfig 32 32) (engineFile smallEngine) = .ok det ∧
    SameAnchors det ramp ⟨2, 3, 5⟩ ⟨1 / 2, 0, 7⟩ (det.detections (DescendingSort.insertion _) ramp 2 3 5)
      (det.detections (DescendingSort.insertion _) ramp (1 / 2) 0 7) := by
  obtain ⟨det, hnew⟩ : ∃ det : SCRFDDetector ℚ, SCRFDDetector.new (fun _ _ => none) (detectionConfig 32 32)
      (engineFile smallEngine) = .ok det := ⟨_, rfl⟩
  have hsame := detections_sameAnchors det ramp (DescendingSort.insertion _) (DescendingSort.insertion _)
    ⟨2, 3, 5⟩ ⟨1 / 2, 0, 7⟩ (by norm_num) (by norm_num) fun raw₁ raw₂ h₁ h₂ => by
      rw [det.decodeStrides_eq ramp] at h₁ h₂
      cases hraw : det.decodeStrides ramp 1 0 0 with
      | error e =>
        rw [hraw] at h₁
        cases h₁
      | ok raw =>
        rw [hraw] at h₁ h₂
        obtain rfl := Except.ok.inj h₁
        obtain rfl := Except.ok.inj h₂
        exact sameOrder_insertion raw _ _ fun _ => rfl
  exact ⟨det, hnew, hsame.2⟩

end FacePipeline.Trt
