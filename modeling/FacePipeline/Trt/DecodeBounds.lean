import FacePipeline.Trt.ScrfdDetector

/-!
# Decoding inside the copied tensors

`detect_batch` copies whole tensors and decodes as many rows as the configured size has anchors at the
resolved stride. The stride comes from the number of rows, through a root and a rounding, so that tensors
with fewer rows than anchors resolve to a stride as well; then decoding reads past them (`decodes_iff`).
-/

namespace FacePipeline.Trt

open FacePipeline.Config

variable {F : Type}

/-- The rows of a tensor: all its dimensions but the last. -/
def rows (t : IOTensor) : ℕ :=
  elements t.dims.dropLast

/-- Whenever a stride has a score, a box and a landmark tensor, the ones that count have a row for
every anchor. -/
def RowsSuffice (cfg : DetectionConfig F) (engine : CudaEngine) : Prop :=
  ∀ stride score bbox kps, lastTensor cfg engine stride kScoreDim = some score →
    lastTensor cfg engine stride kBboxDim = some bbox →
    lastTensor cfg engine stride kKpsDim = some kps →
    score.name ≠ "" ∧ bbox.name ≠ "" ∧ kps.name ≠ "" →
    ∀ t ∈ [score, bbox, kps], anchors cfg.inputWidth.toNat cfg.inputHeight.toNat stride ≤ rows t

/-! ### The decoded tensors -/

section Bindings

variable {cfg : DetectionConfig F} {det : SCRFDDetector F} {input : IOTensor} {rest : List IOTensor}

theorem Constructed.binding_eq (h : Constructed cfg det input rest) {t : IOTensor}
    (ht : t ∈ det.engine.engine.tensors) (hout : t.isInput = false) :
    det.binding t.name = .ok (bindingInfo t) := by
  obtain ⟨info, _, hname, hbindings⟩ := h.bindings
  have hinj := List.inj_on_of_nodup_map det.engine.engine.nodup
  have hne : ¬info.name = t.name := fun heq => by
    have hinput := hinj (h.tensors ▸ List.mem_cons_self) ht (hname ▸ heq)
    rw [← hinput, h.isInput] at hout
    cases hout
  have hrest := h.mem_rest ht hout
  have hnodup := det.engine.engine.nodup
  rw [h.tensors, List.map_cons, List.nodup_cons] at hnodup
  have hfind : (rest.map bindingInfo).find? (fun b => b.name = t.name) = some (bindingInfo t) := by
    rw [List.find?_map]
    exact congrArg (Option.map bindingInfo) (find?_name hnodup.2 hrest)
  rw [SCRFDDetector.binding, TrtEngine.binding, hbindings,
    List.find?_cons_of_neg (by simpa using hne), hfind]
  rfl

theorem elements_append (shape : List Int) (d : Int) :
    elements (shape ++ [d]) = elements shape * d.toNat := by
  simp [elements]

/-- A row has as many elements as the trailing dimension says. -/
theorem volumeOf_eq_rows {engine : CudaEngine} {t : IOTensor} {last : ℕ}
    (ht : t ∈ engine.tensors) (hdims : ∀ d ∈ t.dims, 0 < d)
    (hlast : t.dims.getLast? = some (last : Int)) :
    volumeOf t.dims = rows t * last ∧ volumeOf t.dims < 2 ^ 31 := by
  have hsmall := engine.elements_dims t ht fun d hd => (hdims d hd).le
  rw [volumeOf_of_pos hdims (by omega)]
  refine ⟨?_, hsmall⟩
  rw [← List.dropLast_append_getLast? _ hlast, elements_append, rows]
  simp

end Bindings

/-! ### The entries that are decoded -/

section Entries

variable {cfg : DetectionConfig F} {det : SCRFDDetector F} {input : IOTensor} {rest : List IOTensor}

/-- The entry of a stride with all three tensors. -/
theorem Constructed.find?_eq (h : Constructed cfg det input rest) {stride : Int}
    {score bbox kps : IOTensor} (hscore : lastTensor cfg det.engine.engine stride kScoreDim = some score)
    (hbbox : lastTensor cfg det.engine.engine stride kBboxDim = some bbox)
    (hkps : lastTensor cfg det.engine.engine stride kKpsDim = some kps) :
    (stride, { score := score.name, bbox := bbox.name, kps := kps.name }) ∈
      det.strideBindings.entries := by
  obtain ⟨hmem, _, hstride, _⟩ := lastTensor_some hscore
  rw [OrderedMap.mem_entries, h.find?_strideBindings, if_pos ⟨score, hmem, hstride⟩, hscore, hbbox,
    hkps]
  rfl

/-- An entry with three names comes from three tensors. -/
theorem Constructed.complete_entry (h : Constructed cfg det input rest) {stride : Int}
    {names : StrideBindings} (hentry : (stride, names) ∈ det.strideBindings.entries)
    (hnames : ¬(names.score = "" ∨ names.bbox = "" ∨ names.kps = "")) :
    ∃ score bbox kps, lastTensor cfg det.engine.engine stride kScoreDim = some score ∧
      lastTensor cfg det.engine.engine stride kBboxDim = some bbox ∧
      lastTensor cfg det.engine.engine stride kKpsDim = some kps ∧
      names = { score := score.name, bbox := bbox.name, kps := kps.name } := by
  rw [OrderedMap.mem_entries, h.find?_strideBindings] at hentry
  split_ifs at hentry
  obtain rfl := Option.some.inj hentry
  simp only [not_or] at hnames
  obtain ⟨score, hscore⟩ := tensorName_ne_empty hnames.1
  obtain ⟨bbox, hbbox⟩ := tensorName_ne_empty hnames.2.1
  obtain ⟨kps, hkps⟩ := tensorName_ne_empty hnames.2.2
  refine ⟨score, bbox, kps, hscore, hbbox, hkps, ?_⟩
  rw [hscore, hbbox, hkps]
  rfl

end Entries

/-! ### Decoding an entry -/

section Decoding

variable [Add F] [Sub F] [Mul F] [Div F] [IntCast F] [Preorder F] [DecidableLT F]
  {cfg : DetectionConfig F} {det : SCRFDDetector F} {input : IOTensor} {rest : List IOTensor}

/-- An entry with three names is one call of `decode_stride`, on vectors of the tensors' volumes. -/
theorem Constructed.decodeEntry_eq (h : Constructed cfg det input rest)
    (hW : cfg.inputWidth ≠ 0) (hH : cfg.inputHeight ≠ 0) {stride : Int}
    {score bbox kps : IOTensor} (hscore : lastTensor cfg det.engine.engine stride kScoreDim = some score)
    (hbbox : lastTensor cfg det.engine.engine stride kBboxDim = some bbox)
    (hkps : lastTensor cfg det.engine.engine stride kKpsDim = some kps)
    (hnames : ¬(score.name = "" ∨ bbox.name = "" ∨ kps.name = "")) (copied : String → ℕ → F)
    (scale : F) (padX padY : Int) (raw : List (FaceDetection F)) :
    det.decodeEntry copied scale padX padY raw
        (stride, { score := score.name, bbox := bbox.name, kps := kps.name }) =
      decodeStride stride cfg.inputWidth.toNat cfg.inputHeight.toNat kAnchorsPerLocation
        ((List.range (volumeOf score.dims)).map (copied score.name))
        ((List.range (volumeOf bbox.dims)).map (copied bbox.name))
        ((List.range (volumeOf kps.dims)).map (copied kps.name))
        cfg.confidenceThreshold scale padX padY raw := by
  obtain ⟨hmem₁, hout₁, _⟩ := lastTensor_some hscore
  obtain ⟨hmem₂, hout₂, _⟩ := lastTensor_some hbbox
  obtain ⟨hmem₃, hout₃, _⟩ := lastTensor_some hkps
  obtain ⟨hW_lt, hH_lt⟩ := h.size_lt hW hH
  simp only [SCRFDDetector.decodeEntry, if_neg hnames, h.binding_eq hmem₁ hout₁,
    h.binding_eq hmem₂ hout₂, h.binding_eq hmem₃ hout₃, h.cfg_eq, bind, Except.bind]
  rw [castInt_eq (by omega) (by omega), castInt_eq (by omega) (by omega)]
  rfl

/-- Which entries decode whatever is copied. -/
theorem Constructed.entry_ok_iff (h : Constructed cfg det input rest) (hW : cfg.inputWidth ≠ 0)
    (hH : cfg.inputHeight ≠ 0)
    (hdims : ∀ t ∈ det.engine.engine.tensors, t.isInput = false → ∀ d ∈ t.dims, 0 < d)
    {stride : Int} {score bbox kps : IOTensor}
    (hscore : lastTensor cfg det.engine.engine stride kScoreDim = some score)
    (hbbox : lastTensor cfg det.engine.engine stride kBboxDim = some bbox)
    (hkps : lastTensor cfg det.engine.engine stride kKpsDim = some kps)
    (hnames : ¬(score.name = "" ∨ bbox.name = "" ∨ kps.name = "")) :
    (∀ copied scale padX padY raw, ∃ raw', det.decodeEntry copied scale padX padY raw
        (stride, { score := score.name, bbox := bbox.name, kps := kps.name }) = .ok raw') ↔
      ∀ t ∈ [score, bbox, kps], anchors cfg.inputWidth.toNat cfg.inputHeight.toNat stride ≤ rows t := by
  obtain ⟨hmem₁, hout₁, hstride, hlast₁⟩ := lastTensor_some hscore
  obtain ⟨hmem₂, hout₂, _, hlast₂⟩ := lastTensor_some hbbox
  obtain ⟨hmem₃, hout₃, _, hlast₃⟩ := lastTensor_some hkps
  obtain ⟨hrows₁, _⟩ : volumeOf score.dims = rows score * 1 ∧ _ :=
    volumeOf_eq_rows hmem₁ (hdims _ hmem₁ hout₁) hlast₁
  obtain ⟨hrows₂, _⟩ : volumeOf bbox.dims = rows bbox * 4 ∧ _ :=
    volumeOf_eq_rows hmem₂ (hdims _ hmem₂ hout₂) hlast₂
  obtain ⟨hrows₃, hsmall₃⟩ : volumeOf kps.dims = rows kps * 10 ∧ _ :=
    volumeOf_eq_rows hmem₃ (hdims _ hmem₃ hout₃) hlast₃
  obtain ⟨hW_lt, hH_lt⟩ := h.size_lt hW hH
  simp only [h.decodeEntry_eq hW hH hscore hbbox hkps hnames, List.forall_mem_cons]
  constructor
  · intro hdecode
    obtain ⟨raw', hraw'⟩ := hdecode (fun _ _ => cfg.confidenceThreshold) cfg.confidenceThreshold 0 0 []
    have hle := le_of_decodeStride_ok (strideOf_pos hstride) (by omega) (by omega) (fun s hs => by
      obtain ⟨_, _, rfl⟩ := List.mem_map.1 hs
      exact lt_irrefl _) hraw'
    simp only [List.length_map, List.length_range] at hle
    refine ⟨by omega, by omega, by omega, by simp⟩
  · rintro ⟨hle₁, hle₂, hle₃, _⟩ copied scale padX padY raw
    refine decodeStride_ok_of_le (strideOf_pos hstride) (by omega) (by omega) ?_ ?_ ?_ ?_ <;>
      rw [List.length_map, List.length_range] <;> omega

/-- Whether an entry decodes does not depend on what was decoded before. -/
theorem decodeEntry_ok {copied : String → ℕ → F} {scale : F} {padX padY : Int}
    {raw raw' : List (FaceDetection F)} {entry : Int × StrideBindings}
    (h : ∃ out, det.decodeEntry copied scale padX padY raw entry = .ok out) :
    ∃ out, det.decodeEntry copied scale padX padY raw' entry = .ok out := by
  obtain ⟨stride, names⟩ := entry
  simp only [SCRFDDetector.decodeEntry] at h ⊢
  split_ifs at h ⊢
  · exact ⟨raw', rfl⟩
  · simp only [bind_ok] at h ⊢
    obtain ⟨out, sb, hsb, bb, hbb, kb, hkb, hdecode⟩ := h
    have hs : stride ≠ 0 := fun h0 => by
      rw [decodeStride, if_pos h0] at hdecode
      cases hdecode
    have hall := (decodeStride_ok hs).1 ⟨_, hdecode⟩
    obtain ⟨out', hout'⟩ : ∃ out', decodeStride _ _ _ _ _ _ _ _ _ _ _ raw' = .ok out' :=
      (decodeStride_ok hs).2 hall
    exact ⟨out', sb, hsb, bb, hbb, kb, hkb, hout'⟩

theorem decodeStrides_ok {copied : String → ℕ → F} {scale : F} {padX padY : Int} :
    (∃ raw, det.decodeStrides copied scale padX padY = .ok raw) ↔
      ∀ entry ∈ det.strideBindings.entries,
        ∃ raw, det.decodeEntry copied scale padX padY [] entry = .ok raw :=
  Traverse.exists_foldlM_ok_iff
    (P := fun entry => ∃ raw, det.decodeEntry copied scale padX padY [] entry = .ok raw)
    fun _ _ => ⟨decodeEntry_ok, decodeEntry_ok⟩

/-- **Decoding stays inside the copied tensors exactly when they have rows enough.** -/
theorem decodes_iff [DecidableLE F] [Zero F] [One F] [ToString F] (malloc : Malloc)
    (cfg : DetectionConfig F) (file : EngineFile) (det : SCRFDDetector F)
    (hvalid : cfg.validate = .ok ()) (hnew : SCRFDDetector.new malloc cfg file = .ok det)
    (hdims : ∀ t ∈ det.engine.engine.tensors, t.isInput = false → ∀ d ∈ t.dims, 0 < d) :
    (∀ copied scale padX padY, ∃ raw, det.decodeStrides copied scale padX padY = .ok raw) ↔
      RowsSuffice cfg det.engine.engine := by
  obtain ⟨input, rest, h⟩ := new_constructed hnew
  have hcfg := DetectionConfig.validate_ok.1 hvalid
  simp only [decodeStrides_ok]
  constructor
  · intro hdecode stride score bbox kps hscore hbbox hkps hnames
    have hnames' : ¬(score.name = "" ∨ bbox.name = "" ∨ kps.name = "") := by
      rintro (h₁ | h₂ | h₃)
      exacts [hnames.1 h₁, hnames.2.1 h₂, hnames.2.2 h₃]
    rw [← h.entry_ok_iff hcfg.width_pos hcfg.height_pos hdims hscore hbbox hkps hnames']
    intro copied scale padX padY raw
    exact decodeEntry_ok (hdecode copied scale padX padY _ (h.find?_eq hscore hbbox hkps))
  · intro hrows copied scale padX padY entry hentry
    obtain ⟨stride, names⟩ := entry
    by_cases hnames : names.score = "" ∨ names.bbox = "" ∨ names.kps = ""
    · exact ⟨[], by simp only [SCRFDDetector.decodeEntry, if_pos hnames]⟩
    · obtain ⟨score, bbox, kps, hscore, hbbox, hkps, rfl⟩ := h.complete_entry hentry hnames
      have hle := hrows stride score bbox kps hscore hbbox hkps (by simpa [not_or] using hnames)
      exact (h.entry_ok_iff hcfg.width_pos hcfg.height_pos hdims hscore hbbox hkps hnames).2 hle
        copied scale padX padY []

end Decoding

/-! ### Two input sizes -/

theorem decodes_iff_square : ∃ det,
    SCRFDDetector.new (fun _ _ => none) (detectionConfig 640 640) (engineFile squareEngine) =
      .ok det ∧
    ∀ copied scale padX padY, ∃ raw, det.decodeStrides copied scale padX padY = .ok raw := by
  obtain ⟨det, hnew, hengine⟩ : ∃ det, SCRFDDetector.new (fun _ _ => none) (detectionConfig 640 640)
      (engineFile squareEngine) = .ok det ∧ det.engine.engine = squareEngine := ⟨_, rfl, rfl⟩
  refine ⟨det, hnew, (decodes_iff _ _ _ det (by decide +kernel) hnew ?_).2 ?_⟩
  · rw [hengine]
    decide +kernel
  · rw [hengine]
    have hrows : ∀ t ∈ squareEngine.tensors, ∀ stride ∈ strideOf 640 (bindingInfo t),
        anchors (640 : ℕ) (640 : ℕ) stride ≤ rows t := by decide +kernel
    intro stride score bbox kps hscore hbbox hkps _ t ht
    rcases List.mem_cons.1 ht with rfl | ht
    · exact hrows _ (lastTensor_some hscore).1 _ (lastTensor_some hscore).2.2.1
    · rcases List.mem_cons.1 ht with rfl | ht
      · exact hrows _ (lastTensor_some hbbox).1 _ (lastTensor_some hbbox).2.2.1
      · obtain rfl := List.mem_singleton.1 ht
        exact hrows _ (lastTensor_some hkps).1 _ (lastTensor_some hkps).2.2.1

/-- At 480x640 the outputs of stride 8 resolve to stride 7, which has more anchors than they have
rows. -/
theorem not_decodes_portrait : ∃ det, (detectionConfig 480 640).validate = .ok () ∧
    SCRFDDetector.new (fun _ _ => none) (detectionConfig 480 640) (engineFile portraitEngine) =
      .ok det ∧
    (∀ t ∈ det.engine.engine.tensors, t.isInput = false → ∀ d ∈ t.dims, 0 < d) ∧
    ¬∀ copied scale padX padY, ∃ raw, det.decodeStrides copied scale padX padY = .ok raw := by
  obtain ⟨det, hnew, hengine⟩ : ∃ det, SCRFDDetector.new (fun _ _ => none) (detectionConfig 480 640)
      (engineFile portraitEngine) = .ok det ∧ det.engine.engine = portraitEngine := ⟨_, rfl, rfl⟩
  obtain ⟨input, rest, h⟩ := new_constructed hnew
  have hdims : ∀ t ∈ det.engine.engine.tensors, t.isInput = false → ∀ d ∈ t.dims, 0 < d := by
    rw [hengine]
    decide +kernel
  have hscore : lastTensor (detectionConfig 480 640) det.engine.engine 7 kScoreDim =
      some ⟨"448", [9600, 1], .float, false⟩ := by
    rw [hengine]
    decide +kernel
  have hbbox : lastTensor (detectionConfig 480 640) det.engine.engine 7 kBboxDim =
      some ⟨"451", [9600, 4], .float, false⟩ := by
    rw [hengine]
    decide +kernel
  have hkps : lastTensor (detectionConfig 480 640) det.engine.engine 7 kKpsDim =
      some ⟨"454", [9600, 10], .float, false⟩ := by
    rw [hengine]
    decide +kernel
  refine ⟨det, by decide +kernel, hnew, hdims, fun hdecode => ?_⟩
  have hentry := (h.entry_ok_iff (by decide) (by decide) hdims hscore hbbox hkps (by decide)).1
    fun copied scale padX padY _ => decodeEntry_ok
      (decodeStrides_ok.1 (hdecode copied scale padX padY) _ (h.find?_eq hscore hbbox hkps))
  exact absurd (hentry _ List.mem_cons_self) (by decide +kernel)

end FacePipeline.Trt
