import FacePipeline.Trt.DecodeBounds
import FacePipeline.Trt.DetectBatch
import FacePipeline.Trt.Device

/-!
# The copies of the detector

`detect_batch` counts bytes in floats, the wrapper in elements of the engine's own types. A copy of a whole
tensor therefore fits when the elements are as large as a float, and only then. An output is copied when
inference finds an address for every tensor and the strides before have score rows enough to be decoded, so
that the condition for all copies (`DetectorFits`) speaks of those outputs only.
-/

namespace FacePipeline.Trt

open FacePipeline.Config Hoare

section Setup

variable {F : Type}

/-- The shape that each tensor has once the detector is constructed. -/
def pinnedShape (cfg : DetectionConfig F) (input t : IOTensor) : List Int :=
  if input.name = t.name then [1, 3, cfg.inputHeight.toNat, cfg.inputWidth.toNat] else t.dims

theorem elements_pinned (h w : ℕ) : elements [1, 3, h, w] = 3 * (h * w) := by
  simp [elements]

/-- A detector that was constructed, with its device memory. -/
structure Mounted (cfg : DetectionConfig F) (det : SCRFDDetector F) (input : IOTensor)
    (rest : List IOTensor) : Prop extends Constructed cfg det input rest where
  inputName : det.inputName = input.name
  inputScratch : det.inputScratch = 3 * (cfg.inputHeight.toNat * cfg.inputWidth.toNat)
  laid : Laid det.engine (pinnedShape cfg input)

theorem new_mounted {malloc : Malloc} {cfg : DetectionConfig F} {file : EngineFile}
    {det : SCRFDDetector F} (h : SCRFDDetector.new malloc cfg file = .ok det)
    (hsize : ∀ t ∈ det.engine.engine.tensors, 0 < elementSizeFor t.dtype) :
    ∃ input rest, Mounted cfg det input rest := by
  obtain ⟨input, rest, hdet⟩ := new_constructed h
  suffices hmembers : det.inputName = input.name ∧
      det.inputScratch = 3 * (cfg.inputHeight.toNat * cfg.inputWidth.toNat) ∧
      Laid det.engine (pinnedShape cfg input) from
    ⟨input, rest, hdet, hmembers.1, hmembers.2.1, hmembers.2.2⟩
  unfold SCRFDDetector.new at h
  split at h
  · cases h
  · rename_i e hnew
    split at h
    · cases h
    · rename_i first more hfirst
      split at h
      · cases h
      · rename_i u e' hset
        obtain rfl := Except.ok.inj h
        have hengine : e'.engine = e.engine := by
          obtain ⟨_, _, _, rfl⟩ := setInputShape_ok hset
          rfl
        have hname : first.name = input.name := by
          have hbindings := new_bindings hnew
          rw [hfirst, ← hengine, hdet.tensors, List.map_cons] at hbindings
          rw [(List.cons.inj hbindings).1]
          rfl
        have hsize' : ∀ t ∈ e.engine.tensors, 0 < elementSizeFor t.dtype := by
          rw [← hengine]
          exact hsize
        have hsmall : elements [1, 3, cfg.inputHeight.toNat, cfg.inputWidth.toNat] < 2 ^ 31 := hdet.small
        rw [elements_pinned] at hsmall
        refine ⟨hname, ?_, ?_⟩
        · show (3 * cfg.inputHeight * cfg.inputWidth).toNat = _
          rw [UInt32.toNat_mul, UInt32.toNat_mul, Nat.mod_mul_mod, Nat.mul_assoc]
          exact Nat.mod_eq_of_lt (by show 3 * _ < _; omega)
        · rw [hname] at hset
          exact (setInputShape_laid (new_laid hnew hsize') hsize' hset).2

variable {cfg : DetectionConfig F} {det : SCRFDDetector F} {input : IOTensor} {rest : List IOTensor}

theorem Mounted.pinnedShape_output (h : Mounted cfg det input rest) {t : IOTensor}
    (ht : t ∈ det.engine.engine.tensors) (hout : t.isInput = false) : pinnedShape cfg input t = t.dims :=
  h.laid.output t ht hout

/-- Of an output, the wrapper has a buffer of its volume, counted in its own elements. -/
theorem Mounted.output_fits (h : Mounted cfg det input rest) {t : IOTensor}
    (ht : t ∈ det.engine.engine.tensors) (hout : t.isInput = false)
    (hfloat : elementSizeFor t.dtype = kFloatSize) {buffer : DeviceBuffer}
    (hbuffer : det.engine.deviceBuffers t.name = some buffer) :
    volumeOf t.dims * kFloatSize ≤ buffer.bytes := by
  by_cases hpos : ∀ d ∈ t.dims, 0 < d
  · have hbacked := h.laid.backed t ht
    rw [h.pinnedShape_output ht hout, Backed, if_pos hpos] at hbacked
    obtain ⟨p, hp, _⟩ := hbacked
    have hsmall := det.engine.engine.elements_dims t ht fun d hd => (hpos d hd).le
    rw [hbuffer] at hp
    rw [Option.some.inj hp, hfloat, volumeOf_of_pos hpos (by omega)]
  · rw [volumeOf_of_not_pos (by simpa using hpos), Nat.zero_mul]
    exact Nat.zero_le _

/-- A tensor of positive shape has its buffer. -/
theorem Mounted.output_buffer (h : Mounted cfg det input rest) {t : IOTensor}
    (ht : t ∈ det.engine.engine.tensors) (hout : t.isInput = false) (hpos : ∀ d ∈ t.dims, 0 < d) :
    ∃ p, det.engine.deviceBuffers t.name =
      some ⟨some p, volumeOf t.dims * elementSizeFor t.dtype⟩ := by
  have hbacked := h.laid.backed t ht
  have hsmall := det.engine.engine.elements_dims t ht fun d hd => (hpos d hd).le
  rw [h.pinnedShape_output ht hout, Backed, if_pos hpos] at hbacked
  obtain ⟨p, hp, _⟩ := hbacked
  exact ⟨p, by rw [hp, volumeOf_of_pos hpos (by omega)]⟩

omit det rest in
theorem pinned_pos (hW : cfg.inputWidth ≠ 0) (hH : cfg.inputHeight ≠ 0) :
    ∀ d ∈ pinnedShape cfg input input, 0 < d := by
  have hpos : ∀ n : UInt32, n ≠ 0 → 0 < n.toNat := fun n hn =>
    Nat.pos_of_ne_zero fun h0 => hn (UInt32.toNat_inj.1 h0)
  have hW := hpos _ hW
  have hH := hpos _ hH
  intro d hd
  simp only [pinnedShape, if_true, List.mem_cons, List.not_mem_nil, or_false] at hd
  omega

theorem Mounted.input_buffer (h : Mounted cfg det input rest) (hW : cfg.inputWidth ≠ 0)
    (hH : cfg.inputHeight ≠ 0) : ∃ p, det.engine.deviceBuffers det.inputName =
      some ⟨some p, det.inputScratch * elementSizeFor input.dtype⟩ := by
  have hbacked := h.laid.backed input (h.tensors ▸ List.mem_cons_self)
  rw [Backed, if_pos (pinned_pos hW hH), pinnedShape, if_pos rfl, elements_pinned, ← h.inputScratch] at hbacked
  obtain ⟨p, hp, _⟩ := hbacked
  exact ⟨p, h.inputName ▸ hp⟩

/-- Inference finds an address for every tensor when the outputs and the other inputs are static. -/
theorem Mounted.addresses_iff (h : Mounted cfg det input rest) (hW : cfg.inputWidth ≠ 0)
    (hH : cfg.inputHeight ≠ 0) :
    (∀ t ∈ det.engine.engine.tensors, (det.engine.context.address t.name).isSome) ↔
      ∀ t ∈ rest, ∀ d ∈ t.dims, 0 < d := by
  have hnodup := det.engine.engine.nodup
  rw [h.tensors, List.map_cons, List.nodup_cons] at hnodup
  have hrest : ∀ t ∈ rest, pinnedShape cfg input t = t.dims := fun t ht => by
    have hne : input.name ≠ t.name := fun heq => hnodup.1 (heq ▸ List.mem_map_of_mem ht)
    rw [pinnedShape, if_neg hne]
  have hshape : (∀ t ∈ det.engine.engine.tensors, (det.engine.context.address t.name).isSome) ↔
      ∀ t ∈ det.engine.engine.tensors, ∀ d ∈ pinnedShape cfg input t, 0 < d :=
    forall₂_congr fun t ht => address_isSome_iff h.laid ht
  rw [hshape, h.tensors, List.forall_mem_cons, and_iff_right (pinned_pos hW hH)]
  exact forall₂_congr fun t ht => by rw [hrest t ht]

end Setup

/-! ### The condition -/

section Condition

variable {F : Type}

/-- The outputs that count for a stride that has all three. -/
structure CompleteStride (cfg : DetectionConfig F) (engine : CudaEngine) (stride : Int)
    (score bbox kps : IOTensor) : Prop where
  lastScore : lastTensor cfg engine stride kScoreDim = some score
  lastBbox : lastTensor cfg engine stride kBboxDim = some bbox
  lastKps : lastTensor cfg engine stride kKpsDim = some kps
  named : ¬(score.name = "" ∨ bbox.name = "" ∨ kps.name = "")

/-- The outputs of a stride hold elements of the size of a float. -/
def StrideFits (cfg : DetectionConfig F) (engine : CudaEngine) (stride : Int) : Prop :=
  ∀ score bbox kps, CompleteStride cfg engine stride score bbox kps →
    ∀ t ∈ [score, bbox, kps], elementSizeFor t.dtype = kFloatSize

/-- The scores of a stride can all be read. -/
def ScoresSuffice (cfg : DetectionConfig F) (engine : CudaEngine) (stride : Int) : Prop :=
  ∀ score bbox kps, CompleteStride cfg engine stride score bbox kps →
    anchors cfg.inputWidth.toNat cfg.inputHeight.toNat stride ≤ rows score

/-- The input holds elements of the size of a float; and when inference finds all its addresses, so do the
outputs that are copied before a stride has too few scores. -/
def DetectorFits (cfg : DetectionConfig F) (engine : CudaEngine) : Prop :=
  ∀ input rest, engine.tensors = input :: rest → elementSizeFor input.dtype = kFloatSize ∧
    ((∀ t ∈ rest, ∀ d ∈ t.dims, 0 < d) → ∀ stride,
      (∀ stride' < stride, ScoresSuffice cfg engine stride') → StrideFits cfg engine stride)

variable {cfg : DetectionConfig F} {det : SCRFDDetector F} {input : IOTensor} {rest : List IOTensor}

/-- The condition on the outputs, as the loop over `stride_bindings_` meets it. -/
theorem Mounted.inTurn_iff (h : Mounted cfg det input rest) :
    InTurn (fun entry => StrideFits cfg det.engine.engine entry.1)
        (fun entry => ScoresSuffice cfg det.engine.engine entry.1) det.strideBindings.entries ↔
      ∀ stride, (∀ stride' < stride, ScoresSuffice cfg det.engine.engine stride') →
        StrideFits cfg det.engine.engine stride := by
  have hasymm : ∀ x y : Int × StrideBindings, x.1 < y.1 → ¬y.1 < x.1 := fun _ _ => lt_asymm
  rw [Hoare.inTurn_iff hasymm det.strideBindings.increasing]
  have hentry : ∀ {stride : Int} {score bbox kps : IOTensor},
      CompleteStride cfg det.engine.engine stride score bbox kps →
        ∃ entry ∈ det.strideBindings.entries, entry.1 = stride := fun hc =>
    ⟨_, h.find?_eq hc.lastScore hc.lastBbox hc.lastKps, rfl⟩
  constructor
  · intro hall stride hbefore score bbox kps hc
    obtain ⟨entry, hmem, rfl⟩ := hentry hc
    exact hall entry hmem (fun other _ hlt => hbefore other.1 hlt) score bbox kps hc
  · intro hall entry _ hbefore
    refine hall entry.1 fun stride' hlt score bbox kps hc => ?_
    obtain ⟨other, hmem, rfl⟩ := hentry hc
    exact hbefore other hmem hlt score bbox kps hc

/-- An entry of the map is incomplete, or comes from three outputs. -/
theorem Mounted.entry_cases (h : Mounted cfg det input rest) {entry : Int × StrideBindings}
    (hentry : entry ∈ det.strideBindings.entries) :
    (entry.2.score = "" ∨ entry.2.bbox = "" ∨ entry.2.kps = "") ∨
      ∃ score bbox kps, CompleteStride cfg det.engine.engine entry.1 score bbox kps ∧
        entry.2 = { score := score.name, bbox := bbox.name, kps := kps.name } := by
  by_cases hnames : entry.2.score = "" ∨ entry.2.bbox = "" ∨ entry.2.kps = ""
  · exact .inl hnames
  · obtain ⟨score, bbox, kps, hscore, hbbox, hkps, heq⟩ := h.complete_entry hentry hnames
    refine .inr ⟨score, bbox, kps, ⟨hscore, hbbox, hkps, ?_⟩, heq⟩
    rwa [heq] at hnames

/-- An incomplete entry decodes nothing. -/
theorem Mounted.vacuous (h : Mounted cfg det input rest) {entry : Int × StrideBindings}
    (hentry : entry ∈ det.strideBindings.entries)
    (hnames : entry.2.score = "" ∨ entry.2.bbox = "" ∨ entry.2.kps = "") {score bbox kps : IOTensor} :
    ¬CompleteStride cfg det.engine.engine entry.1 score bbox kps := by
  intro hc
  have hfind := OrderedMap.mem_entries.1 (h.find?_eq hc.lastScore hc.lastBbox hc.lastKps)
  have hfind' := OrderedMap.mem_entries.1 hentry
  rw [hfind] at hfind'
  rw [← Option.some.inj hfind'] at hnames
  exact hc.named hnames

end Condition

/-! ### Every copy fits -/

section Safe

variable {F : Type} {cfg : DetectionConfig F} {det : SCRFDDetector F} {input : IOTensor}
  {rest : List IOTensor} {cuda : Cuda F}

/-- The detector between two steps of a call: the wrapper is the one it was constructed with, and every copy
so far fits. -/
def Waiting (det : SCRFDDetector F) (s : DetectorState (Device F) F) : Prop :=
  Steady det.engine s.engine ∧ s.inputScratch.length = det.inputScratch

theorem attempt_waiting {α : Type} (x : Except Stop α) :
    Triple (Waiting det) (SCRFDDetector.attempt x : DetectorM (Device F) F α)
      (fun a s => Waiting det s ∧ x = .ok a) (Waiting det) := by
  cases x with
  | ok a => exact Triple.pure fun _ hs => ⟨hs, rfl⟩
  | error stop => exact Triple.throw fun _ hs => hs

theorem onEngine_waiting {α : Type} {x : EStateM Stop (Device F) α} {q : α → Prop}
    (hx : Triple (Steady det.engine) x (fun a d => Steady det.engine d ∧ q a) (Steady det.engine)) :
    Triple (Waiting det) (SCRFDDetector.onEngine x : DetectorM (Device F) F α)
      (fun a s => Waiting det s ∧ q a) (Waiting det) :=
  Triple.focus hx (fun _ hs => hs.1) (fun _ _ _ hs hd => ⟨⟨hd.1, hs.2⟩, hd.2⟩) fun _ _ hs hd => ⟨hd, hs.2⟩

theorem onEngine_keeps {α : Type} {x : EStateM Stop (Device F) α}
    (hx : Triple (Steady det.engine) x (fun _ => Steady det.engine) (Steady det.engine)) :
    Triple (Waiting det) (SCRFDDetector.onEngine x : DetectorM (Device F) F α)
      (fun _ => Waiting det) (Waiting det) :=
  Triple.focus hx (fun _ hs => hs.1) (fun _ _ _ hs hd => ⟨hd, hs.2⟩) fun _ _ hs hd => ⟨hd, hs.2⟩

/-- `binding` finds an output as the constructor recorded it. -/
theorem Mounted.lookup_run (h : Mounted cfg det input rest) {t : IOTensor}
    (ht : t ∈ det.engine.engine.tensors) (hout : t.isInput = false) {s : DetectorState (Device F) F}
    (hs : s.engine.engine = det.engine) :
    (SCRFDDetector.lookup (deviceOps cuda) t.name).run s = .ok (bindingInfo t) s := by
  have hbinding := mapError_ok.1 (h.binding_eq ht hout)
  rw [TrtEngine.binding] at hbinding
  have hops : (deviceOps cuda).bindings s.engine = det.engine.bindings := congrArg TrtEngine.bindings hs
  rw [SCRFDDetector.lookup, bind_run_of_ok (EStateM.run_get s), hops]
  cases hfind : det.engine.bindings.find? fun b => b.name = t.name with
  | none =>
    rw [hfind] at hbinding
    cases hbinding
  | some b =>
    rw [hfind] at hbinding
    obtain rfl := Except.ok.inj hbinding
    rfl

theorem Mounted.lookup_waiting (h : Mounted cfg det input rest) {t : IOTensor}
    (ht : t ∈ det.engine.engine.tensors) (hout : t.isInput = false) :
    Triple (Waiting det) (SCRFDDetector.lookup (deviceOps cuda) t.name)
      (fun b s => Waiting det s ∧ b = bindingInfo t) (Waiting det) := by
  refine ⟨fun s hs => ?_⟩
  rw [h.lookup_run ht hout hs.1.1]
  exact ⟨hs, rfl⟩

theorem newFloats_ok [Zero F] {n : ℕ} {xs : List F} (h : SCRFDDetector.newFloats n = .ok xs) :
    xs = List.replicate n 0 ∧ n < 2 ^ 61 := by
  rw [SCRFDDetector.newFloats] at h
  split_ifs at h with hn
  exact ⟨(Except.ok.inj h).symm, hn⟩

/-- The bytes of a host vector. -/
theorem sizeT_bytes {n : ℕ} (h : n < 2 ^ 61) : sizeT (n * kFloatSize) = n * kFloatSize := by
  rw [sizeT, kFloatSize, Nat.mod_eq_of_lt (by omega)]

/-- A whole output, of elements of the size of a float. -/
theorem Mounted.copyWhole_waiting (h : Mounted cfg det input rest) {t : IOTensor}
    (ht : t ∈ det.engine.engine.tensors) (hout : t.isInput = false)
    (hfloat : elementSizeFor t.dtype = kFloatSize) {host : List F}
    (hhost : host.length = volumeOf t.dims) (hsmall : host.length < 2 ^ 61) :
    Triple (Waiting det) (SCRFDDetector.copyWhole (deviceOps cuda) t.name host)
      (fun out s => Waiting det s ∧ out.length = volumeOf t.dims) (Waiting det) := by
  rw [SCRFDDetector.copyWhole, sizeT_bytes hsmall, ← hhost]
  refine onEngine_waiting (copyOutput_steady (fun buffer hbuffer => ?_) le_rfl)
  rw [hhost]
  exact h.output_fits ht hout hfloat hbuffer

theorem volumeOf_le_rows {engine : CudaEngine} {t : IOTensor} (ht : t ∈ engine.tensors)
    (hlast : t.dims.getLast? = some kScoreDim) : volumeOf t.dims ≤ rows t := by
  by_cases hpos : ∀ d ∈ t.dims, 0 < d
  · obtain ⟨hrows, _⟩ : volumeOf t.dims = rows t * 1 ∧ _ := volumeOf_eq_rows ht hpos hlast
    omega
  · rw [volumeOf_of_not_pos (by simpa using hpos)]
    exact Nat.zero_le _

variable [Field F] [LinearOrder F] [FloorRing F]

omit [FloorRing F] in
/-- A stride whose outputs fit; when it is decoded, its scores were enough. -/
theorem Mounted.detectStride_waiting (h : Mounted cfg det input rest) (hW : cfg.inputWidth ≠ 0)
    (hH : cfg.inputHeight ≠ 0) {entry : Int × StrideBindings}
    (hentry : entry ∈ det.strideBindings.entries)
    (hfits : StrideFits cfg det.engine.engine entry.1) (lb : LetterboxResult F)
    (raw : List (FaceDetection F)) :
    Triple (Waiting det) (SCRFDDetector.detectStride (deviceOps cuda) det lb raw entry)
      (fun _ s => Waiting det s ∧ ScoresSuffice cfg det.engine.engine entry.1) (Waiting det) := by
  obtain ⟨hW_lt, hH_lt⟩ := h.size_lt hW hH
  rcases h.entry_cases hentry with hnames | ⟨score, bbox, kps, hc, hnames⟩
  · rw [SCRFDDetector.detectStride]
    simp only [if_pos hnames]
    exact Triple.pure fun _ hs => ⟨hs, fun _ _ _ hc => absurd hc (h.vacuous hentry hnames)⟩
  · obtain ⟨stride, names⟩ := entry
    obtain rfl : names = _ := hnames
    obtain ⟨hmem₁, hout₁, hstride, hlast₁⟩ := lastTensor_some hc.lastScore
    obtain ⟨hmem₂, hout₂, _⟩ := lastTensor_some hc.lastBbox
    obtain ⟨hmem₃, hout₃, _⟩ := lastTensor_some hc.lastKps
    have hsizes := hfits score bbox kps hc
    simp only [List.forall_mem_cons] at hsizes
    obtain ⟨hfloat₁, hfloat₂, hfloat₃, _⟩ := hsizes
    rw [SCRFDDetector.detectStride]
    simp only [if_neg hc.named]
    refine (h.lookup_waiting hmem₁ hout₁).bind_fact ?_
    rintro _ rfl
    refine (attempt_waiting _).bind_fact fun scores hscores => ?_
    obtain ⟨rfl, hsmall₁⟩ := newFloats_ok hscores
    refine (h.lookup_waiting hmem₂ hout₂).bind_fact ?_
    rintro _ rfl
    refine (attempt_waiting _).bind_fact fun bboxes hbboxes => ?_
    obtain ⟨rfl, hsmall₂⟩ := newFloats_ok hbboxes
    refine (h.lookup_waiting hmem₃ hout₃).bind_fact ?_
    rintro _ rfl
    refine (attempt_waiting _).bind_fact fun kpses hkpses => ?_
    obtain ⟨rfl, hsmall₃⟩ := newFloats_ok hkpses
    refine (h.copyWhole_waiting hmem₁ hout₁ hfloat₁ List.length_replicate
      (by rwa [List.length_replicate])).bind_fact fun scores hlength => ?_
    refine (h.copyWhole_waiting hmem₂ hout₂ hfloat₂ List.length_replicate
      (by rwa [List.length_replicate])).bind_fact fun bboxes _ => ?_
    refine (h.copyWhole_waiting hmem₃ hout₃ hfloat₃ List.length_replicate
      (by rwa [List.length_replicate])).bind_fact fun kpses _ => ?_
    refine (onEngine_keeps streamCall_steady).bind fun _ => ?_
    refine (attempt_waiting _).weaken (fun _ hs => hs) (fun raw' s hs => ⟨hs.1, ?_⟩) fun _ hs => hs
    -- what is decoded was read
    intro score' bbox' kps' hc'
    obtain rfl : score' = score := Option.some.inj (hc'.lastScore.symm.trans hc.lastScore)
    have hdecode := hs.2
    rw [h.cfg_eq, castInt_eq (by omega) (by omega), castInt_eq (by omega) (by omega)] at hdecode
    have hle : anchors cfg.inputWidth.toNat cfg.inputHeight.toNat stride ≤ scores.length :=
      scores_le_of_decodeStride_ok (strideOf_pos hstride) (by omega) (by omega) hdecode
    have hrows := volumeOf_le_rows hmem₁ hlast₁
    show anchors cfg.inputWidth.toNat cfg.inputHeight.toNat stride ≤ rows score'
    omega

theorem Mounted.detectImage_waiting (h : Mounted cfg det input rest) (hW : cfg.inputWidth ≠ 0)
    (hH : cfg.inputHeight ≠ 0) (hfits : DetectorFits cfg det.engine.engine) (cv : Resizer)
    (sort : ScoreSort F) (src : Image) :
    Triple (Waiting det) (SCRFDDetector.detectImage (deviceOps cuda) cv sort det src)
      (fun _ => Waiting det) (Waiting det) := by
  obtain ⟨hfloat, houtputs⟩ := hfits input rest h.tensors
  have hsmall : det.inputScratch < 2 ^ 31 := by
    rw [h.inputScratch, ← elements_pinned]
    exact h.small
  refine (attempt_waiting _).bind_fact fun lb _ => Triple.get_bind fun s hs => ?_
  refine (attempt_waiting _).bind_fact fun scratch hscratch => ?_
  have hlength : scratch.length = det.inputScratch :=
    (length_hwcBgrToChwRgbNormalized hscratch).trans hs.2
  refine Triple.bind (Q := fun _ => Waiting det) (Triple.modify fun _ hs => ⟨hs.1, hlength⟩) fun _ => ?_
  refine (onEngine_keeps (copyInput_steady ?_ ?_)).bind fun _ => ?_
  · intro buffer hbuffer
    obtain ⟨p, hp⟩ := h.input_buffer hW hH
    rw [hbuffer] at hp
    rw [Option.some.inj hp, hfloat, hlength, sizeT_bytes (by omega)]
  · rw [sizeT_bytes (by omega)]
  · refine (onEngine_waiting infer_steady).bind_fact fun _ haddress => ?_
    have hturn := h.inTurn_iff.2 (houtputs ((h.addresses_iff hW hH).1 haddress))
    refine (Triple.foldlM_inTurn (fun entry hentry hok raw =>
      h.detectStride_waiting hW hH hentry hok lb raw) hturn []).bind fun raw => ?_
    exact Triple.pure fun _ hs => hs

/-- A call keeps every copy inside its ends, whatever it comes to. -/
theorem Mounted.detectBatch_waiting (h : Mounted cfg det input rest) (hW : cfg.inputWidth ≠ 0)
    (hH : cfg.inputHeight ≠ 0) (hfits : DetectorFits cfg det.engine.engine) (cv : Resizer)
    (sort : ScoreSort F) (images : List Image) :
    Triple (Waiting det) (SCRFDDetector.detectBatch (deviceOps cuda) cv sort det images)
      (fun _ => Waiting det) (Waiting det) := by
  refine (onEngine_keeps streamCall_steady).bind fun _ => ?_
  exact Triple.mapM fun src _ => h.detectImage_waiting hW hH hfits cv sort src

end Safe

/-! ### A run that meets every copy -/

section Reached

variable {F : Type} {cfg : DetectionConfig F} {det : SCRFDDetector F} {input : IOTensor}
  {rest : List IOTensor} {low : F}

/-- A device where no call fails, and inference leaves one value everywhere. -/
def constantCuda (low : F) : Cuda F where
  malloc _ _ := none
  fault _ := none
  enqueue _ _ := some fun _ _ => low

/-- The detector after inference on that device. -/
def Inferred (det : SCRFDDetector F) (low : F) (s : DetectorState (Device F) F) : Prop :=
  s.engine.engine = det.engine ∧ s.engine.memory = fun _ _ => low

theorem onEngine_run {α : Type} {x : EStateM Stop (Device F) α} {a : α}
    {s : DetectorState (Device F) F} {d : Device F} (h : x.run s.engine = .ok a d) :
    (SCRFDDetector.onEngine x : DetectorM (Device F) F α).run s = .ok a { s with engine := d } :=
  focus_ok h

theorem onEngine_run_error {α : Type} {x : EStateM Stop (Device F) α} {stop : Stop}
    {s : DetectorState (Device F) F} {d : Device F} (h : x.run s.engine = .error stop d) :
    (SCRFDDetector.onEngine x : DetectorM (Device F) F α).run s = .error stop { s with engine := d } :=
  focus_error h

theorem readWords_const (p n : ℕ) : readWords (fun _ _ => low) p n = List.replicate n low := by
  rw [readWords, List.map_const', List.length_range]

/-- Copying a whole output: past an end, or of elements of the size of a float. -/
theorem Mounted.copyWhole_cases (h : Mounted cfg det input rest) {t : IOTensor}
    (ht : t ∈ det.engine.engine.tensors) (hout : t.isInput = false) (hpos : ∀ d ∈ t.dims, 0 < d)
    (host : List F) (hhost : host.length = volumeOf t.dims) {s : DetectorState (Device F) F}
    (hs : Inferred det low s) :
    (∃ stop s', (SCRFDDetector.copyWhole (deviceOps (constantCuda low)) t.name host).run s =
        .error stop s' ∧ Misfit s'.engine) ∨
      elementSizeFor t.dtype = kFloatSize ∧ ∃ s', Inferred det low s' ∧
        (SCRFDDetector.copyWhole (deviceOps (constantCuda low)) t.name host).run s =
          .ok (List.replicate (volumeOf t.dims) low) s' := by
  obtain ⟨p, hbuffer⟩ := h.output_buffer ht hout hpos
  have hsmall := det.engine.engine.elements_dims t ht fun d hd => (hpos d hd).le
  have hvolume : volumeOf t.dims = elements t.dims := volumeOf_of_pos hpos (by omega)
  have hvolume_pos : 0 < volumeOf t.dims := hvolume ▸ elements_pos hpos
  rw [← hs.1] at hbuffer
  rw [SCRFDDetector.copyWhole, sizeT_bytes (by omega)]
  by_cases hfloat : elementSizeFor t.dtype = kFloatSize
  · refine .inr ⟨hfloat, ?_⟩
    have hrun : (copyOutput (constantCuda low) t.name host (host.length * kFloatSize)).run s.engine =
        .ok _ _ :=
      copyOutput_ok hbuffer (Nat.le_of_eq (by rw [hfloat, hhost])) le_rfl rfl
    have hwords : readWords s.engine.memory p host.length ++ host.drop host.length =
        List.replicate (volumeOf t.dims) low := by
      rw [hs.2, readWords_const, List.drop_length, List.append_nil, hhost]
    rw [hwords] at hrun
    refine ⟨_, ?_, onEngine_run hrun⟩
    exact ⟨hs.1, hs.2⟩
  · have hlt : elementSizeFor t.dtype < kFloatSize :=
      lt_of_le_of_ne (elementSizeFor_le t.dtype) hfloat
    have hmisfit : ¬Copy.Fits ⟨host.length * kFloatSize, volumeOf t.dims * elementSizeFor t.dtype,
        host.length * kFloatSize⟩ := fun hfits => by
      have hle : host.length * kFloatSize ≤ volumeOf t.dims * elementSizeFor t.dtype := hfits.1
      rw [hhost] at hle
      exact absurd (Nat.le_of_mul_le_mul_left hle hvolume_pos) (Nat.not_le.2 hlt)
    have hrun : (memcpyAsync (constantCuda low) t.name host (host.length * kFloatSize)).run s.engine =
        .error _ _ := memcpyAsync_misfit hbuffer hmisfit
    refine .inl ⟨_, _, onEngine_run_error (bind_run_error hrun), _,
      List.mem_append_right _ (List.mem_singleton_self _), hmisfit⟩

theorem attempt_run {α : Type} {x : Except Stop α} {a : α} (h : x = .ok a)
    (s : DetectorState (Device F) F) : (SCRFDDetector.attempt x).run s = .ok a s := by
  rw [h]
  rfl

theorem newFloats_of_lt [Zero F] {n : ℕ} (h : n < 2 ^ 31) :
    SCRFDDetector.newFloats n = .ok (List.replicate n (0 : F)) := by
  rw [SCRFDDetector.newFloats, if_pos (by omega)]

variable [Field F] [LinearOrder F]

/-- A stride: one of its copies does not fit, or they all do and the loop goes on if the scores suffice. -/
theorem Mounted.detectStride_cases (h : Mounted cfg det input rest) (hW : cfg.inputWidth ≠ 0)
    (hH : cfg.inputHeight ≠ 0) (hpos : ∀ t ∈ rest, ∀ d ∈ t.dims, 0 < d)
    (hlow : low < cfg.confidenceThreshold) {entry : Int × StrideBindings}
    (hentry : entry ∈ det.strideBindings.entries) (lb : LetterboxResult F) (raw : List (FaceDetection F))
    {s : DetectorState (Device F) F} (hs : Inferred det low s) :
    (∃ stop s', (SCRFDDetector.detectStride (deviceOps (constantCuda low)) det lb raw entry).run s =
        .error stop s' ∧ Misfit s'.engine) ∨
      StrideFits cfg det.engine.engine entry.1 ∧ (ScoresSuffice cfg det.engine.engine entry.1 →
        ∃ raw' s', Inferred det low s' ∧
          (SCRFDDetector.detectStride (deviceOps (constantCuda low)) det lb raw entry).run s =
            .ok raw' s') := by
  obtain ⟨hW_lt, hH_lt⟩ := h.size_lt hW hH
  rcases h.entry_cases hentry with hnames | ⟨score, bbox, kps, hc, hnames⟩
  · refine .inr ⟨fun _ _ _ hc => absurd hc (h.vacuous hentry hnames), fun _ => ⟨raw, s, hs, ?_⟩⟩
    rw [SCRFDDetector.detectStride]
    simp only [if_pos hnames]
    rfl
  · obtain ⟨stride, names⟩ := entry
    obtain rfl : names = _ := hnames
    obtain ⟨hmem₁, hout₁, hstride, hlast₁⟩ := lastTensor_some hc.lastScore
    obtain ⟨hmem₂, hout₂, _⟩ := lastTensor_some hc.lastBbox
    obtain ⟨hmem₃, hout₃, _⟩ := lastTensor_some hc.lastKps
    have hpos₁ := hpos score (h.mem_rest hmem₁ hout₁)
    have hpos₂ := hpos bbox (h.mem_rest hmem₂ hout₂)
    have hpos₃ := hpos kps (h.mem_rest hmem₃ hout₃)
    have hsmall : ∀ t ∈ det.engine.engine.tensors, (∀ d ∈ t.dims, 0 < d) →
        (bindingInfo t).volume < 2 ^ 31 := fun t ht hpos => by
      have hlt := det.engine.engine.elements_dims t ht fun d hd => (hpos d hd).le
      show volumeOf t.dims < 2 ^ 31
      rwa [volumeOf_of_pos hpos (by omega)]
    -- up to the first copy nothing can fail
    rw [SCRFDDetector.detectStride]
    simp only [if_neg hc.named]
    rw [bind_run_of_ok (h.lookup_run hmem₁ hout₁ hs.1),
      bind_run_of_ok (attempt_run (newFloats_of_lt (hsmall _ hmem₁ hpos₁)) s),
      bind_run_of_ok (h.lookup_run hmem₂ hout₂ hs.1),
      bind_run_of_ok (attempt_run (newFloats_of_lt (hsmall _ hmem₂ hpos₂)) s),
      bind_run_of_ok (h.lookup_run hmem₃ hout₃ hs.1),
      bind_run_of_ok (attempt_run (newFloats_of_lt (hsmall _ hmem₃ hpos₃)) s)]
    rcases h.copyWhole_cases hmem₁ hout₁ hpos₁ (List.replicate (bindingInfo score).volume 0)
      List.length_replicate hs with ⟨stop, s', hrun, hmisfit⟩ | ⟨hfloat₁, s₁, hs₁, hrun₁⟩
    · exact .inl ⟨stop, s', bind_run_error hrun, hmisfit⟩
    rw [bind_run_of_ok hrun₁]
    rcases h.copyWhole_cases hmem₂ hout₂ hpos₂ (List.replicate (bindingInfo bbox).volume 0)
      List.length_replicate hs₁ with ⟨stop, s', hrun, hmisfit⟩ | ⟨hfloat₂, s₂, hs₂, hrun₂⟩
    · exact .inl ⟨stop, s', bind_run_error hrun, hmisfit⟩
    rw [bind_run_of_ok hrun₂]
    rcases h.copyWhole_cases hmem₃ hout₃ hpos₃ (List.replicate (bindingInfo kps).volume 0)
      List.length_replicate hs₂ with ⟨stop, s', hrun, hmisfit⟩ | ⟨hfloat₃, s₃, hs₃, hrun₃⟩
    · exact .inl ⟨stop, s', bind_run_error hrun, hmisfit⟩
    rw [bind_run_of_ok hrun₃]
    refine .inr ⟨fun score' bbox' kps' hc' => ?_, fun hscores => ?_⟩
    · obtain rfl : score' = score := Option.some.inj (hc'.lastScore.symm.trans hc.lastScore)
      obtain rfl : bbox' = bbox := Option.some.inj (hc'.lastBbox.symm.trans hc.lastBbox)
      obtain rfl : kps' = kps := Option.some.inj (hc'.lastKps.symm.trans hc.lastKps)
      simp [hfloat₁, hfloat₂, hfloat₃]
    · have hle : anchors cfg.inputWidth.toNat cfg.inputHeight.toNat stride ≤ rows score :=
        hscores score bbox kps hc
      obtain ⟨hrows, _⟩ : volumeOf score.dims = rows score * 1 ∧ _ :=
        volumeOf_eq_rows hmem₁ hpos₁ hlast₁
      have hsync : (streamCall (constantCuda low)).run s₃.engine = .ok () _ := streamCall_ok rfl
      obtain ⟨raw', hraw'⟩ : ∃ raw', decodeStride stride cfg.inputWidth.toNat cfg.inputHeight.toNat
          kAnchorsPerLocation (List.replicate (volumeOf score.dims) low)
          (List.replicate (volumeOf bbox.dims) low) (List.replicate (volumeOf kps.dims) low)
          cfg.confidenceThreshold lb.scale lb.padX lb.padY raw = .ok raw' := by
        refine decodeStride_ok_of_low (strideOf_pos hstride) (fun x hx => ?_) ?_ ?_
        · rwa [List.eq_of_mem_replicate hx]
        · rw [List.length_replicate]
          exact hsmall _ hmem₁ hpos₁
        · rw [List.length_replicate]
          omega
      rw [← castInt_eq (n := cfg.inputWidth.toNat) (by omega) (by omega),
        ← castInt_eq (n := cfg.inputHeight.toNat) (by omega) (by omega), ← h.cfg_eq] at hraw'
      refine ⟨raw', _, ?_, (bind_run_of_ok (onEngine_run hsync)).trans (attempt_run hraw' _)⟩
      exact ⟨hs₃.1, hs₃.2⟩

theorem Mounted.entries_cases (h : Mounted cfg det input rest) (hW : cfg.inputWidth ≠ 0)
    (hH : cfg.inputHeight ≠ 0) (hpos : ∀ t ∈ rest, ∀ d ∈ t.dims, 0 < d)
    (hlow : low < cfg.confidenceThreshold) (lb : LetterboxResult F)
    (entries : List (Int × StrideBindings)) (hentries : ∀ e ∈ entries, e ∈ det.strideBindings.entries)
    (raw : List (FaceDetection F)) {s : DetectorState (Device F) F} (hs : Inferred det low s) :
    (∃ stop s', (entries.foldlM (SCRFDDetector.detectStride (deviceOps (constantCuda low)) det lb)
        raw).run s = .error stop s' ∧ Misfit s'.engine) ∨
      InTurn (fun entry => StrideFits cfg det.engine.engine entry.1)
        (fun entry => ScoresSuffice cfg det.engine.engine entry.1) entries := by
  induction entries generalizing raw s with
  | nil => exact .inr trivial
  | cons entry entries ih =>
    rw [List.forall_mem_cons] at hentries
    rw [List.foldlM_cons]
    rcases h.detectStride_cases hW hH hpos hlow hentries.1 lb raw hs with
      ⟨stop, s', hrun, hmisfit⟩ | ⟨hfits, hgo⟩
    · exact .inl ⟨stop, s', bind_run_error hrun, hmisfit⟩
    · by_cases hscores : ScoresSuffice cfg det.engine.engine entry.1
      · obtain ⟨raw', s', hs', hrun⟩ := hgo hscores
        rw [bind_run_of_ok hrun]
        exact (ih hentries.2 raw' hs').imp_right fun hrest => ⟨hfits, fun _ => hrest⟩
      · exact .inr ⟨hfits, fun h => absurd h hscores⟩

variable [IsStrictOrderedRing F] [FloorRing F]

/-- A black image of the network's input size. -/
def blankInput (cfg : DetectionConfig F) : Image :=
  .bgr8 ⟨cfg.inputHeight.toNat, cfg.inputWidth.toNat, fun _ _ => ⟨0, 0, 0⟩⟩

/-- What is left of a call on that image once the scratch buffer is filled. -/
theorem Mounted.detectImage_blank (h : Mounted cfg det input rest) (hW : cfg.inputWidth ≠ 0)
    (hH : cfg.inputHeight ≠ 0) (ops : EngineOps (Device F) F) (cv : Resizer) (sort : ScoreSort F)
    {s : DetectorState (Device F) F} (hs : s.inputScratch.length = det.inputScratch) :
    ∃ (lb : LetterboxResult F) (scratch : List F), scratch.length = det.inputScratch ∧
      (SCRFDDetector.detectImage ops cv sort det (blankInput cfg)).run s = (do
        SCRFDDetector.onEngine (ops.copyInput det.inputName scratch (det.inputScratch * kFloatSize))
        SCRFDDetector.onEngine ops.infer
        let raw ← det.strideBindings.entries.foldlM (SCRFDDetector.detectStride ops det lb) []
        return nms sort raw det.cfg.nmsIouThreshold : DetectorM (Device F) F _).run
          { s with inputScratch := scratch } := by
  obtain ⟨hW_lt, hH_lt⟩ := h.size_lt hW hH
  have hpos : ∀ n : UInt32, n ≠ 0 → 0 < n.toNat := fun n hn =>
    Nat.pos_of_ne_zero fun h0 => hn (UInt32.toNat_inj.1 h0)
  have hsmall : 3 * (cfg.inputHeight.toNat * cfg.inputWidth.toNat) < 2 ^ 31 := by
    rw [← elements_pinned]
    exact h.small
  have hscratch := h.inputScratch
  obtain ⟨lb, hlb, canvas, himage, hrows, hcols⟩ := letterbox_of_size (F := F) cv
    ⟨cfg.inputHeight.toNat, cfg.inputWidth.toNat, fun _ _ => ⟨0, 0, 0⟩⟩
    ⟨hpos _ hW, hW_lt⟩ ⟨hpos _ hH, hH_lt⟩
  obtain ⟨scratch, hfill⟩ : ∃ scratch,
      hwcBgrToChwRgbNormalized lb.image s.inputScratch = .ok scratch := by
    rw [himage]
    refine hwcBgrToChwRgbNormalized_ok ?_ ?_
    · rw [hrows, hcols]
      exact hsmall
    · rw [hrows, hcols, hs, hscratch]
  have hlength : scratch.length = det.inputScratch :=
    (length_hwcBgrToChwRgbNormalized hfill).trans hs
  refine ⟨lb, scratch, hlength, ?_⟩
  have hletterbox : letterbox cv (blankInput cfg) (castInt det.cfg.inputWidth.toNat)
      (castInt det.cfg.inputHeight.toNat) = .ok lb := by
    rw [h.cfg_eq, castInt_eq (by omega) (by omega), castInt_eq (by omega) (by omega)]
    exact hlb
  rw [SCRFDDetector.detectImage, bind_run_of_ok (attempt_run hletterbox s),
    bind_run_of_ok (EStateM.run_get s), bind_run_of_ok (attempt_run hfill s),
    bind_run_of_ok (EStateM.run_modify _ s), sizeT_bytes (by omega), hlength]

/-- The copy into the input, past the end of its buffer. -/
theorem Mounted.detectImage_misfit (h : Mounted cfg det input rest) (hW : cfg.inputWidth ≠ 0)
    (hH : cfg.inputHeight ≠ 0) (cuda : Cuda F) (cv : Resizer) (sort : ScoreSort F)
    {s : DetectorState (Device F) F} (hs : Waiting det s)
    (hsize : elementSizeFor input.dtype ≠ kFloatSize) :
    ∃ stop s', (SCRFDDetector.detectImage (deviceOps cuda) cv sort det (blankInput cfg)).run s =
        .error stop s' ∧
      s'.engine.copies = s.engine.copies ++ [⟨det.inputScratch * kFloatSize,
        det.inputScratch * elementSizeFor input.dtype, det.inputScratch * kFloatSize⟩] ∧ Misfit s'.engine := by
  obtain ⟨lb, scratch, hlength, hrun⟩ := h.detectImage_blank hW hH (deviceOps cuda) cv sort hs.2
  obtain ⟨p, hbuffer⟩ := h.input_buffer hW hH
  have hpos : 0 < det.inputScratch := by
    have hdims : 0 < elements (pinnedShape cfg input input) := elements_pos (pinned_pos hW hH)
    rwa [pinnedShape, if_pos rfl, elements_pinned, ← h.inputScratch] at hdims
  have hmisfit : ¬Copy.Fits ⟨det.inputScratch * kFloatSize,
      det.inputScratch * elementSizeFor input.dtype, scratch.length * kFloatSize⟩ := fun hfits =>
    hsize (le_antisymm (elementSizeFor_le input.dtype) (Nat.le_of_mul_le_mul_left hfits.1 hpos))
  rw [← hs.1.1] at hbuffer
  have hcopy : (memcpyAsync cuda det.inputName scratch (det.inputScratch * kFloatSize)).run s.engine =
      .error _ _ := memcpyAsync_misfit hbuffer hmisfit
  refine ⟨_, _, hrun.trans (bind_run_error (onEngine_run_error (bind_run_error hcopy))), ?_, ?_⟩
  · rw [hlength]
  · exact ⟨_, List.mem_append_right _ (List.mem_singleton_self _), hmisfit⟩

/-- A black image either meets a copy that does not fit, or shows that all do. -/
theorem Mounted.detectImage_cases (h : Mounted cfg det input rest) (hW : cfg.inputWidth ≠ 0)
    (hH : cfg.inputHeight ≠ 0) (hlow : low < cfg.confidenceThreshold) (cv : Resizer)
    (sort : ScoreSort F) {s : DetectorState (Device F) F} (hs : Waiting det s) :
    (∃ stop s', (SCRFDDetector.detectImage (deviceOps (constantCuda low)) cv sort det
        (blankInput cfg)).run s = .error stop s' ∧ Misfit s'.engine) ∨ DetectorFits cfg det.engine.engine := by
  by_cases hfloat : elementSizeFor input.dtype = kFloatSize
  · obtain ⟨lb, scratch, hlength, hrun⟩ :=
      h.detectImage_blank hW hH (deviceOps (constantCuda low)) cv sort hs.2
    have hfits : ((∀ t ∈ rest, ∀ d ∈ t.dims, 0 < d) → ∀ stride,
        (∀ stride' < stride, ScoresSuffice cfg det.engine.engine stride') →
          StrideFits cfg det.engine.engine stride) → DetectorFits cfg det.engine.engine := by
      intro houtputs input' rest' htensors
      rw [h.tensors] at htensors
      obtain ⟨rfl, rfl⟩ := List.cons.inj htensors
      exact ⟨hfloat, houtputs⟩
    by_cases hpos : ∀ t ∈ rest, ∀ d ∈ t.dims, 0 < d
    · -- the image is copied in, and inference runs
      obtain ⟨p, hbuffer⟩ := h.input_buffer hW hH
      rw [hfloat, ← hs.1.1] at hbuffer
      obtain ⟨d, hd, hcopy⟩ : ∃ d, d.engine = s.engine.engine ∧
          (copyInput (constantCuda low) det.inputName scratch
            (det.inputScratch * kFloatSize)).run s.engine = .ok () d :=
        ⟨_, rfl, copyInput_ok hbuffer le_rfl hlength.ge rfl⟩
      have haddress := (h.addresses_iff hW hH).2 hpos
      rw [← hs.1.1, ← hd] at haddress
      have hinfer : d.engine.infer true = .ok () := by
        rw [TrtEngine.infer, if_pos ⟨haddress, rfl⟩]
      have hinferred : (infer (constantCuda low)).run d = .ok () { d with memory := fun _ _ => low } :=
        infer_ok hinfer rfl
      have hloop := hrun.trans ((bind_run_of_ok (onEngine_run (s := ⟨s.engine, scratch⟩) hcopy)).trans
        (bind_run_of_ok (onEngine_run (s := ⟨d, scratch⟩) hinferred)))
      have hstart : Inferred det low ⟨{ d with memory := fun _ _ => low }, scratch⟩ :=
        ⟨hd.trans hs.1.1, rfl⟩
      rcases h.entries_cases hW hH hpos hlow lb det.strideBindings.entries (fun _ he => he) [] hstart
        with ⟨stop, s', hentries, hmisfit⟩ | hturn
      · exact .inl ⟨stop, s', hloop.trans (bind_run_error hentries), hmisfit⟩
      · exact .inr (hfits fun _ => h.inTurn_iff.1 hturn)
    · exact .inr (hfits fun h => absurd h hpos)
  · obtain ⟨stop, s', hrun, _, hmisfit⟩ :=
      h.detectImage_misfit hW hH (constantCuda low) cv sort hs hfloat
    exact .inl ⟨stop, s', hrun, hmisfit⟩

/-! ### Sequences of calls -/

/-- The detector that its constructor leaves. -/
def SCRFDDetector.start (det : SCRFDDetector F) (memory : Memory F) : DetectorState (Device F) F :=
  { engine := loaded det.engine memory, inputScratch := List.replicate det.inputScratch 0 }

/-- Whatever CUDA does, the copies of any calls of `detect_batch` stay inside both of their ends. -/
def DetectorCopiesFit (cv : Resizer) (sort : ScoreSort F) (det : SCRFDDetector F) : Prop :=
  ∀ (cuda : Cuda F) (memory : Memory F) (calls : List (List Image)),
    ∀ c ∈ (runCalls (SCRFDDetector.detectBatch (deviceOps cuda) cv sort det) caught calls
      (det.start memory)).engine.copies, c.Fits

omit [LinearOrder F] [IsStrictOrderedRing F] [FloorRing F] in
theorem start_waiting (det : SCRFDDetector F) (memory : Memory F) : Waiting det (det.start memory) :=
  ⟨⟨rfl, fun _ hc => absurd hc List.not_mem_nil⟩, List.length_replicate⟩

omit [IsStrictOrderedRing F] in
/-- A call that ends with its first image leaves the device as it is then. -/
theorem detectBatch_fails {K : Device F → Prop} (cuda : Cuda F) (cv : Resizer) (sort : ScoreSort F)
    (memory : Memory F) (hfault : cuda.fault 0 = none) {src : Image}
    (h : ∀ s, Waiting det s → ∃ stop s',
      (SCRFDDetector.detectImage (deviceOps cuda) cv sort det src).run s = .error stop s' ∧ K s'.engine) :
    K (runCalls (SCRFDDetector.detectBatch (deviceOps cuda) cv sort det) caught [[src]]
      (det.start memory)).engine := by
  have hstart := start_waiting det memory
  obtain ⟨d, hd, hcreate⟩ : ∃ d, Steady det.engine d ∧
      (streamCall cuda).run (det.start memory).engine = .ok () d := by
    refine ⟨_, ?_, streamCall_ok hfault⟩
    exact hstart.1
  obtain ⟨stop, s', hrun, hfails⟩ := h { det.start memory with engine := d } ⟨hd, hstart.2⟩
  have hbatch : (SCRFDDetector.detectBatch (deviceOps cuda) cv sort det [src]).run (det.start memory) =
      .error stop s' := by
    rw [SCRFDDetector.detectBatch, List.mapM_cons]
    exact (bind_run_of_ok (onEngine_run hcreate)).trans (bind_run_error hrun)
  rw [runCalls, hbatch]
  show K (if caught stop then s' else s').engine
  rwa [ite_self]

/-- The copies of `detect_batch` all fit exactly when the engine's elements are as large as floats. -/
theorem Mounted.detectorCopiesFit_iff (h : Mounted cfg det input rest) (hW : cfg.inputWidth ≠ 0)
    (hH : cfg.inputHeight ≠ 0) (cv : Resizer) (sort : ScoreSort F) :
    DetectorCopiesFit cv sort det ↔ DetectorFits cfg det.engine.engine := by
  constructor
  · intro hfit
    by_contra hnot
    have hlow : cfg.confidenceThreshold - 1 < cfg.confidenceThreshold := sub_one_lt _
    obtain ⟨c, hc, hmisfit⟩ : Misfit (runCalls _ caught [[blankInput cfg]] (det.start fun _ _ => 0)).engine :=
      detectBatch_fails (constantCuda (cfg.confidenceThreshold - 1)) cv sort _ rfl fun s hs =>
        (h.detectImage_cases hW hH hlow cv sort hs).resolve_right hnot
    exact hmisfit (hfit _ _ _ c hc)
  · intro hfits cuda memory calls
    exact (runCalls_invariant (fun images => h.detectBatch_waiting hW hH hfits cv sort images) calls
      (start_waiting det memory)).1.2

end Reached

end FacePipeline.Trt
