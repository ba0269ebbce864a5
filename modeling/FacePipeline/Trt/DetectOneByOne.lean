import FacePipeline.Lib.Computes
import FacePipeline.Trt.DetectorCopies
import FacePipeline.Trt.InputTensor
import FacePipeline.Trt.ThresholdFilter

/-!
# A batch and its images

`detection` is what the detector makes of one image when the network is a function of the input tensor: letterbox,
tensor, decoding of all strides and suppression, without a device, a scratch buffer or a stream. A detector on an
engine computes it for each image of a batch (`Mounted.detectImage_computes`): the copies carry whole tensors, the
scratch buffer is overwritten to its end, and the wrapper is never changed. So neither the other images of a call
nor the calls before it show, also where one of them was cut off by an error of CUDA.
-/

namespace FacePipeline.Trt

open FacePipeline.Config Hoare

namespace SCRFDDetector

section Model

variable {σ F : Type} [Field F] [LinearOrder F] [FloorRing F]

def detect (ops : EngineOps σ F) (cv : Resizer) (sort : ScoreSort F) (det : SCRFDDetector F) (image : Image) :
    DetectorM σ F (List (FaceDetection F)) := do
  let results ← detectBatch ops cv sort det [image]
  return results.headD []

/-- What is detected on one image; `net input name` is the output tensor of that name. -/
def detection (cv : Resizer) (sort : ScoreSort F) (det : SCRFDDetector F) (net : List F → String → ℕ → F)
    (src : Image) : Except Stop (List (FaceDetection F)) := do
  let lb ← letterbox cv src (castInt det.cfg.inputWidth.toNat) (castInt det.cfg.inputHeight.toNat)
  let input ← hwcBgrToChwRgbNormalized lb.image (List.replicate det.inputScratch 0)
  det.detections sort (net input) lb.scale lb.padX lb.padY

end Model

end SCRFDDetector

/-! ### The assumption on the network, and what may refuse -/

section Network

variable {F : Type}

/-- Tensors of floats, and inference that leaves in every output a function of what is in the first tensor. -/
structure Infers (cuda : Cuda F) (e : TrtEngine) (net : List F → String → ℕ → F) : Prop where
  float : ∀ t ∈ e.engine.tensors, elementSizeFor t.dtype = kFloatSize
  enqueue : ∀ (memory memory' : Memory F) (input : IOTensor) (rest : List IOTensor) (p : ℕ),
    e.engine.tensors = input :: rest → e.context.address input.name = some p →
    cuda.enqueue e memory = some memory' → ∀ t ∈ rest, t.isInput = false → ∀ q,
    e.context.address t.name = some q → readWords memory' q (volumeOf t.dims) =
      (List.range (volumeOf t.dims)).map (net (readWords memory p (elements (e.contextShape input))) t.name)

/-- The errors that are not the detector's: a call on a stream fails, or inference is not enqueued. -/
def Refused (cuda : Cuda F) (e : TrtEngine) (stop : Stop) : Prop :=
  (∃ i err, cuda.fault i = some err ∧ stop = .throws (.runtimeError ("CUDA error at " ++ err))) ∨
    ∃ memory err, e.infer (cuda.enqueue e memory).isSome = .error err ∧ stop = .throws err

/-- The outcome is the one that is specified, or a call was refused. -/
def Meets {α : Type} (refused : Stop → Prop) (actual spec : Except Stop α) : Prop :=
  actual = spec ∨ ∃ stop, refused stop ∧ actual = .error stop

theorem meets_of_computes {σ α : Type} {P Q E : σ → Prop} {refused : Stop → Prop} {x : EStateM Stop σ α}
    {r : Except Stop α} (h : Computes P x r Q E refused) {s : σ} (hs : P s) :
    Meets refused (outcome (x.run s)) r := by
  cases hrun : x.run s with
  | ok a s' => exact .inl (h.ok hs hrun).1.symm
  | error stop s' =>
    rcases (h.error hs hrun).1 with hspec | hrefused
    · exact .inl hspec.symm
    · exact .inr ⟨stop, hrefused, rfl⟩

end Network

/-! ### Calls on the device -/

section Calls

variable {F : Type} {cuda : Cuda F} {e : TrtEngine} {K : Memory F → Prop}

/-- The wrapper is `e`, and its memory is in `K`. -/
def Holds (e : TrtEngine) (K : Memory F → Prop) (d : Device F) : Prop :=
  d.engine = e ∧ K d.memory

/-- `x` computes `r` and leaves the memory in `K'`; whatever it comes to, it leaves the wrapper as it is. -/
abbrev OnDevice {α : Type} (cuda : Cuda F) (e : TrtEngine) (K : Memory F → Prop) (x : DeviceM F α)
    (r : Except Stop α) (K' : Memory F → Prop) : Prop :=
  Computes (Holds e K) x r (Holds e K') (·.engine = e) (Refused cuda e)

theorem streamCall_computes : OnDevice cuda e K (streamCall cuda) (.ok ()) K := by
  refine .get_bind fun d hd => .step (Q := Holds e K) (.set hd) ?_
  cases hfault : cuda.fault d.calls with
  | none => exact .pure fun _ hs => hs
  | some err =>
    refine ⟨fun d' hd' => ⟨.inr (.inl ⟨d.calls, err, hfault, rfl⟩), hd'.1⟩⟩

theorem memcpyAsync_computes {name : String} {host : List F} {bytes : ℕ} {buffer : DeviceBuffer}
    (hbuffer : e.deviceBuffers name = some buffer) (hdevice : bytes ≤ buffer.bytes)
    (hhost : bytes ≤ host.length * kFloatSize) :
    OnDevice cuda e K (memcpyAsync cuda name host bytes) (.ok buffer.data) K := by
  refine .get_bind fun d hd => ?_
  have hfits : Copy.Fits ⟨bytes, buffer.bytes, host.length * kFloatSize⟩ := ⟨hdevice, hhost⟩
  rw [← hd.1] at hbuffer
  simp only [hbuffer, if_pos hfits]
  refine .step (Q := Holds e K) (.set hd) (.step streamCall_computes ?_)
  exact .pure fun _ hs => hs

/-- The first words of the input buffer are those of the host vector. -/
theorem copyInput_computes {name : String} {host : List F} {n p bytes : ℕ}
    (hbuffer : e.deviceBuffers name = some ⟨some p, bytes⟩) (hdevice : n * kFloatSize ≤ bytes)
    (hhost : host.length = n) : OnDevice cuda e K (copyInput cuda name host (n * kFloatSize)) (.ok ())
      fun memory => readWords memory p n = host := by
  refine .step (memcpyAsync_computes hbuffer hdevice (Nat.mul_le_mul_right _ hhost.ge)) ?_
  refine .modify fun d hd => ⟨hd.1, ?_⟩
  rw [Nat.mul_div_cancel _ (by decide : 0 < kFloatSize), List.take_of_length_le hhost.le]
  have hwords := readWords_writeWords d.memory p host
  rwa [hhost] at hwords

theorem copyOutput_computes {name : String} {host words : List F} {n q bytes : ℕ}
    (hbuffer : e.deviceBuffers name = some ⟨some q, bytes⟩) (hdevice : n * kFloatSize ≤ bytes)
    (hhost : host.length = n) (hwords : ∀ memory, K memory → readWords memory q n = words) :
    OnDevice cuda e K (copyOutput cuda name host (n * kFloatSize)) (.ok words) K := by
  refine .step (memcpyAsync_computes hbuffer hdevice (Nat.mul_le_mul_right _ hhost.ge)) ?_
  refine .get_bind fun d hd => ?_
  rw [Nat.mul_div_cancel _ (by decide : 0 < kFloatSize), hwords _ hd.2, List.drop_eq_nil_of_le hhost.le,
    List.append_nil]
  exact .pure fun _ hs => hs

/-- Inference that is enqueued has found an address for every tensor. -/
theorem infer_computes : OnDevice cuda e K (infer cuda) (.ok ()) fun memory' =>
    (∀ t ∈ e.engine.tensors, (e.context.address t.name).isSome) ∧
      ∃ memory, K memory ∧ cuda.enqueue e memory = some memory' := by
  refine .get_bind fun d hd => ?_
  obtain ⟨rfl, hK⟩ := hd
  cases hinfer : d.engine.infer (cuda.enqueue d.engine d.memory).isSome with
  | error err =>
    simp only [hinfer]
    exact ⟨fun d' hd' => ⟨.inr (.inr ⟨d.memory, err, hinfer, rfl⟩), hd'.1⟩⟩
  | ok _ =>
    simp only [hinfer]
    rw [TrtEngine.infer] at hinfer
    split_ifs at hinfer with haddress
    obtain ⟨memory', hmemory'⟩ := Option.isSome_iff_exists.1 haddress.2
    refine .set ⟨rfl, haddress.1, d.memory, hK, ?_⟩
    rw [hmemory', Option.getD_some]

end Calls

/-! ### One image -/

section Detector

variable {F : Type} {cfg : DetectionConfig F} {det : SCRFDDetector F} {input : IOTensor} {rest : List IOTensor}
  {cuda : Cuda F} {K : Memory F → Prop}

/-- The detector between two calls. -/
def Between (det : SCRFDDetector F) (s : DetectorState (Device F) F) : Prop :=
  s.engine.engine = det.engine ∧ s.inputScratch.length = det.inputScratch

/-- Within a call, when the memory is in `K`. -/
def Within (det : SCRFDDetector F) (K : Memory F → Prop) (s : DetectorState (Device F) F) : Prop :=
  Holds det.engine K s.engine ∧ s.inputScratch.length = det.inputScratch

abbrev OnDetector {α : Type} (cuda : Cuda F) (det : SCRFDDetector F) (K : Memory F → Prop)
    (x : DetectorM (Device F) F α) (r : Except Stop α) (K' : Memory F → Prop) : Prop :=
  Computes (Within det K) x r (Within det K') (Between det) (Refused cuda det.engine)

theorem onEngine_computes {α : Type} {x : DeviceM F α} {r : Except Stop α} {K' : Memory F → Prop}
    (h : OnDevice cuda det.engine K x r K') : OnDetector cuda det K (SCRFDDetector.onEngine x) r K' := by
  have hfocus : OnDetector cuda det K (SCRFDDetector.onEngine x) (r.mapError id) K' :=
    h.focus (fun _ hs => hs.1) (fun _ _ hs hd => ⟨hd, hs.2⟩) (fun _ _ hs hd => ⟨hd, hs.2⟩) fun _ he => he
  cases r with
  | ok a => exact hfocus
  | error stop => exact hfocus

theorem attempt_computes {α : Type} (x : Except Stop α) : OnDetector cuda det K (SCRFDDetector.attempt x) x K := by
  cases x with
  | ok a => exact .pure fun _ hs => hs
  | error stop => exact .throw fun _ hs => ⟨hs.1.1, hs.2⟩

/-- Every output that has an address holds what the network computes for it. -/
def Answered (e : TrtEngine) (outputs : List IOTensor) (net : String → ℕ → F) (memory : Memory F) : Prop :=
  ∀ t ∈ outputs, t.isInput = false → ∀ q, e.context.address t.name = some q →
    readWords memory q (volumeOf t.dims) = (List.range (volumeOf t.dims)).map (net t.name)

theorem Mounted.lookup_computes (h : Mounted cfg det input rest) {t : IOTensor}
    (ht : t ∈ det.engine.engine.tensors) (hout : t.isInput = false) :
    OnDetector cuda det K (SCRFDDetector.lookup (deviceOps cuda) t.name) (.ok (bindingInfo t)) K := by
  refine ⟨fun s hs => ?_⟩
  rw [h.lookup_run ht hout hs.1.1]
  exact ⟨rfl, hs⟩

/-- A whole output is copied out. -/
theorem Mounted.copyWhole_computes (h : Mounted cfg det input rest) {net : String → ℕ → F} {t : IOTensor}
    (ht : t ∈ det.engine.engine.tensors) (hout : t.isInput = false) (hfloat : elementSizeFor t.dtype = kFloatSize)
    (hpos : ∀ d ∈ t.dims, 0 < d) {host : List F} (hhost : host.length = volumeOf t.dims) :
    OnDetector cuda det (Answered det.engine rest net) (SCRFDDetector.copyWhole (deviceOps cuda) t.name host)
      (.ok ((List.range (volumeOf t.dims)).map (net t.name))) (Answered det.engine rest net) := by
  have hsmall := det.engine.engine.elements_dims t ht fun d hd => (hpos d hd).le
  have hvolume : volumeOf t.dims = elements t.dims := volumeOf_of_pos hpos (by omega)
  have hbacked := h.laid.backed t ht
  rw [h.pinnedShape_output ht hout, Backed, if_pos hpos, hfloat, ← hvolume] at hbacked
  obtain ⟨q, hbuffer, haddress⟩ := hbacked
  rw [SCRFDDetector.copyWhole, sizeT_bytes (by omega), hhost]
  exact onEngine_computes (copyOutput_computes hbuffer le_rfl hhost fun memory hmemory =>
    hmemory t (h.mem_rest ht hout) hout q haddress)

/-- There is room for an output of positive shape. -/
theorem newFloats_computes [Zero F] {t : IOTensor} (ht : t ∈ det.engine.engine.tensors) (hpos : ∀ d ∈ t.dims, 0 < d) :
    OnDetector cuda det K
      (SCRFDDetector.attempt (SCRFDDetector.newFloats (bindingInfo t).volume : Except Stop (List F)))
      (.ok (List.replicate (volumeOf t.dims) 0)) K := by
  have hsmall := det.engine.engine.elements_dims t ht fun d hd => (hpos d hd).le
  have hvolume : volumeOf t.dims = elements t.dims := volumeOf_of_pos hpos (by omega)
  have hlt : volumeOf t.dims < 2 ^ 31 := by omega
  have hfresh : SCRFDDetector.newFloats (bindingInfo t).volume = .ok (List.replicate (volumeOf t.dims) (0 : F)) :=
    newFloats_of_lt hlt
  rw [hfresh]
  exact attempt_computes _

variable [Field F] [LinearOrder F]

/-- An entry of `stride_bindings_`, decoded from what the network computes. -/
theorem Mounted.detectStride_computes (h : Mounted cfg det input rest)
    (hfloat : ∀ t ∈ det.engine.engine.tensors, elementSizeFor t.dtype = kFloatSize)
    (hpos : ∀ t ∈ rest, ∀ d ∈ t.dims, 0 < d) {entry : Int × StrideBindings}
    (hentry : entry ∈ det.strideBindings.entries) {net : String → ℕ → F} (lb : LetterboxResult F)
    (raw : List (FaceDetection F)) :
    OnDetector cuda det (Answered det.engine rest net)
      (SCRFDDetector.detectStride (deviceOps cuda) det lb raw entry)
      (det.decodeEntry net lb.scale lb.padX lb.padY raw entry) (Answered det.engine rest net) := by
  rcases h.entry_cases hentry with hnames | ⟨score, bbox, kps, hc, hnames⟩
  · rw [SCRFDDetector.detectStride, SCRFDDetector.decodeEntry]
    simp only [if_pos hnames]
    exact .pure fun _ hs => hs
  · obtain ⟨stride, names⟩ := entry
    obtain rfl : names = _ := hnames
    obtain ⟨hmem₁, hout₁, _⟩ := lastTensor_some hc.lastScore
    obtain ⟨hmem₂, hout₂, _⟩ := lastTensor_some hc.lastBbox
    obtain ⟨hmem₃, hout₃, _⟩ := lastTensor_some hc.lastKps
    have hpos₁ := hpos score (h.mem_rest hmem₁ hout₁)
    have hpos₂ := hpos bbox (h.mem_rest hmem₂ hout₂)
    have hpos₃ := hpos kps (h.mem_rest hmem₃ hout₃)
    rw [SCRFDDetector.detectStride, SCRFDDetector.decodeEntry]
    simp only [if_neg hc.named, h.binding_eq hmem₁ hout₁, h.binding_eq hmem₂ hout₂, h.binding_eq hmem₃ hout₃]
    refine .bind (h.lookup_computes hmem₁ hout₁) ?_
    rintro _ ⟨⟩
    refine .step (newFloats_computes hmem₁ hpos₁) (.bind (h.lookup_computes hmem₂ hout₂) ?_)
    rintro _ ⟨⟩
    refine .step (newFloats_computes hmem₂ hpos₂) (.bind (h.lookup_computes hmem₃ hout₃) ?_)
    rintro _ ⟨⟩
    refine .step (newFloats_computes hmem₃ hpos₃) ?_
    refine .step (h.copyWhole_computes hmem₁ hout₁ (hfloat _ hmem₁) hpos₁ List.length_replicate) ?_
    refine .step (h.copyWhole_computes hmem₂ hout₂ (hfloat _ hmem₂) hpos₂ List.length_replicate) ?_
    refine .step (h.copyWhole_computes hmem₃ hout₃ (hfloat _ hmem₃) hpos₃ List.length_replicate) ?_
    exact .step (onEngine_computes streamCall_computes) (attempt_computes _)

variable [FloorRing F]

/-- The tensor of a letterboxed image does not show what the scratch buffer held. -/
theorem hwc_letterboxed {cv : Resizer} {src : Image} {height width : ℕ} {lb : LetterboxResult F}
    (hlb : letterbox cv src width height = .ok lb) (hsmall : 3 * (height * width) < 2 ^ 31) {dst dst' : List F}
    (hdst : dst.length = 3 * (height * width)) (hdst' : dst'.length = 3 * (height * width)) :
    hwcBgrToChwRgbNormalized lb.image dst = hwcBgrToChwRgbNormalized lb.image dst' := by
  obtain ⟨hrows, hcols⟩ := letterbox_size hlb
  cases himage : lb.image with
  | other rows cols => rfl
  | bgr8 mat =>
    rw [himage] at hrows hcols
    have hrows : mat.rows = height := Int.ofNat_inj.1 hrows
    have hcols : mat.cols = width := Int.ofNat_inj.1 hcols
    rw [hwc_eq_chwRow hrows hcols hsmall hdst, hwc_eq_chwRow hrows hcols hsmall hdst']

/-- **A call on the engine computes the detection of the image**, whatever the call before has left. -/
theorem Mounted.detectImage_computes (h : Mounted cfg det input rest) (hW : cfg.inputWidth ≠ 0)
    (hH : cfg.inputHeight ≠ 0) {net : List F → String → ℕ → F} (hnet : Infers cuda det.engine net)
    (cv : Resizer) (sort : ScoreSort F) (src : Image) :
    OnDetector cuda det (fun _ => True) (SCRFDDetector.detectImage (deviceOps cuda) cv sort det src)
      (det.detection cv sort net src) fun _ => True := by
  obtain ⟨hW_lt, hH_lt⟩ := h.size_lt hW hH
  have hsmall : 3 * (cfg.inputHeight.toNat * cfg.inputWidth.toNat) < 2 ^ 31 := by
    rw [← elements_pinned]
    exact h.small
  have hscratch := h.inputScratch
  -- the buffer of the input
  have hin : input ∈ det.engine.engine.tensors := h.tensors ▸ List.mem_cons_self
  have helements : elements (pinnedShape cfg input input) = det.inputScratch := by
    rw [pinnedShape, if_pos rfl, elements_pinned, hscratch]
  have hbacked := h.laid.backed input hin
  rw [Backed, if_pos (pinned_pos hW hH), helements, hnet.float input hin] at hbacked
  obtain ⟨p, hbuffer, haddressIn⟩ := hbacked
  have hcontext : elements (det.engine.contextShape input) = det.inputScratch := by
    rw [TrtEngine.contextShape, if_pos h.isInput, h.laid.inputShape input hin, helements]
  rw [← h.inputName] at hbuffer
  rw [SCRFDDetector.detectImage, SCRFDDetector.detection]
  refine .bind (attempt_computes _) fun lb hlb => .get_bind fun s hs => ?_
  rw [h.cfg_eq, castInt_eq (by omega) (by omega), castInt_eq (by omega) (by omega)] at hlb
  have hsame : hwcBgrToChwRgbNormalized lb.image s.inputScratch =
      hwcBgrToChwRgbNormalized lb.image (List.replicate det.inputScratch 0) :=
    hwc_letterboxed hlb hsmall (hs.2.trans hscratch) (List.length_replicate.trans hscratch)
  rw [hsame]
  refine .bind (attempt_computes _) fun tensor htensor => ?_
  have hlength : tensor.length = det.inputScratch :=
    (length_hwcBgrToChwRgbNormalized htensor).trans List.length_replicate
  refine .step (Q := Within det fun _ => True) (.modify fun _ hs => ⟨hs.1, hlength⟩) ?_
  rw [sizeT_bytes (by omega), hlength]
  refine .step (onEngine_computes (copyInput_computes hbuffer le_rfl hlength)) ?_
  refine .step (onEngine_computes infer_computes) (.of_fact (fun _ hs => hs.1.2.1) fun haddress => ?_)
  have hpos := (h.addresses_iff hW hH).1 haddress
  -- inference answers for this tensor
  have hanswered : ∀ s, Within det (fun memory' =>
      (∀ t ∈ det.engine.engine.tensors, (det.engine.context.address t.name).isSome) ∧ ∃ memory,
        readWords memory p det.inputScratch = tensor ∧ cuda.enqueue det.engine memory = some memory') s →
      Within det (Answered det.engine rest (net tensor)) s := by
    rintro s ⟨⟨hengine, -, memory, hwords, henqueue⟩, hlength⟩
    refine ⟨⟨hengine, fun t ht hout q haddress => ?_⟩, hlength⟩
    have hwords' := hnet.enqueue _ _ _ _ p h.tensors haddressIn henqueue t ht hout q haddress
    rwa [hcontext, hwords] at hwords'
  have hstrides : OnDetector cuda det (Answered det.engine rest (net tensor))
      (det.strideBindings.entries.foldlM (SCRFDDetector.detectStride (deviceOps cuda) det lb) [])
      (det.decodeStrides (net tensor) lb.scale lb.padX lb.padY) (Answered det.engine rest (net tensor)) :=
    .foldlM (fun entry hentry raw => h.detectStride_computes hnet.float hpos hentry lb raw) []
  refine .bind (hstrides.weaken hanswered fun _ hs => hs) fun raw _ => ?_
  exact .pure fun _ hs => ⟨⟨hs.1.1, trivial⟩, hs.2⟩

theorem Mounted.detectBatch_computes (h : Mounted cfg det input rest) (hW : cfg.inputWidth ≠ 0)
    (hH : cfg.inputHeight ≠ 0) {net : List F → String → ℕ → F} (hnet : Infers cuda det.engine net)
    (cv : Resizer) (sort : ScoreSort F) (images : List Image) :
    OnDetector cuda det (fun _ => True) (SCRFDDetector.detectBatch (deviceOps cuda) cv sort det images)
      (images.mapM (det.detection cv sort net)) fun _ => True := by
  refine .step (onEngine_computes streamCall_computes) (.mapM fun src _ => ?_)
  exact h.detectImage_computes hW hH hnet cv sort src

/-- The detector after any calls, each of which may have been cut off by an error. -/
structure DetectsOneByOne (cuda : Cuda F) (cv : Resizer) (sort : ScoreSort F) (det : SCRFDDetector F)
    (net : List F → String → ℕ → F) (s : DetectorState (Device F) F) : Prop where
  batch : ∀ images, Meets (Refused cuda det.engine)
    (outcome ((SCRFDDetector.detectBatch (deviceOps cuda) cv sort det images).run s))
    (images.mapM (det.detection cv sort net))
  single : ∀ image, Meets (Refused cuda det.engine)
    (outcome ((SCRFDDetector.detect (deviceOps cuda) cv sort det image).run s)) (det.detection cv sort net image)

theorem Mounted.detect_computes (h : Mounted cfg det input rest) (hW : cfg.inputWidth ≠ 0)
    (hH : cfg.inputHeight ≠ 0) {net : List F → String → ℕ → F} (hnet : Infers cuda det.engine net)
    (cv : Resizer) (sort : ScoreSort F) (image : Image) :
    OnDetector cuda det (fun _ => True) (SCRFDDetector.detect (deviceOps cuda) cv sort det image)
      (det.detection cv sort net image) fun _ => True := by
  have hbatch := h.detectBatch_computes hW hH hnet cv sort [image]
  have hspec : det.detection cv sort net image =
      (do return (← [image].mapM (det.detection cv sort net)).headD []) := by
    rw [List.mapM_cons]
    cases det.detection cv sort net image <;> rfl
  rw [hspec]
  exact hbatch.bind fun results _ => .pure fun _ hs => hs

theorem Mounted.detectsOneByOne (h : Mounted cfg det input rest) (hW : cfg.inputWidth ≠ 0)
    (hH : cfg.inputHeight ≠ 0) {net : List F → String → ℕ → F} (hnet : Infers cuda det.engine net)
    (cv : Resizer) (sort : ScoreSort F) {s : DetectorState (Device F) F} (hs : Between det s) :
    DetectsOneByOne cuda cv sort det net s := by
  have hwithin : Within det (fun _ => True) s := ⟨⟨hs.1, trivial⟩, hs.2⟩
  constructor
  · exact fun images => meets_of_computes (h.detectBatch_computes hW hH hnet cv sort images) hwithin
  · exact fun image => meets_of_computes (h.detect_computes hW hH hnet cv sort image) hwithin

variable [ToString F]

end Detector

/-- A network that copies the input tensor into each output; the third call on a stream fails. -/
def echoCuda : Cuda ℚ where
  malloc _ _ := none
  fault i := if i = 2 then some "scrfd_detector.cpp:97" else none
  enqueue e memory := do
    let input ← e.engine.tensors.head?
    let p ← e.context.address input.name
    return fun _ i => memory p i

theorem echoCuda_infers {e : TrtEngine} (hfloat : ∀ t ∈ e.engine.tensors, elementSizeFor t.dtype = kFloatSize)
    (hsize : ∀ input rest, e.engine.tensors = input :: rest → ∀ t ∈ rest,
      volumeOf t.dims ≤ elements (e.contextShape input)) :
    Infers echoCuda e fun tensor _ i => tensor.getD i 0 := by
  refine ⟨hfloat, fun memory memory' input rest p htensors haddress henqueue t ht _ q _ => ?_⟩
  have hmemory : some (fun _ i => memory p i) = some memory' := by
    rw [← henqueue]
    simp [echoCuda, htensors, haddress]
  obtain rfl := Option.some.inj hmemory
  refine List.map_congr_left fun i hi => ?_
  have hlt : i < elements (e.contextShape input) := (List.mem_range.1 hi).trans_le (hsize input rest htensors t ht)
  simp [readWords, hlt]

section Caller

variable {σ F : Type} [Field F] [LinearOrder F]

theorem confident_of_decodeStride {stride inputW inputH n : Int} {scores bboxes kps : List F} {thresh scale : F}
    {padX padY : Int} {out out' : List (FaceDetection F)} (hout : ∀ d ∈ out, thresh ≤ d.score)
    (h : decodeStride stride inputW inputH n scores bboxes kps thresh scale padX padY out = .ok out') :
    ∀ d ∈ out', thresh ≤ d.score := by
  obtain ⟨ds, rfl, _, hraise⟩ := decodeStride_raise le_rfl h
  have hfilter : ds = ds.filter (atLeast thresh) :=
    List.append_cancel_left (Except.ok.inj (h.symm.trans (hraise out)))
  intro d hd
  rcases List.mem_append.1 hd with hd | hd
  · exact hout d hd
  · rw [hfilter] at hd
    exact of_decide_eq_true (List.mem_filter.1 hd).2

/-- The detections of one image. -/
structure WellFormed (cfg : DetectionConfig F) (dets : List (FaceDetection F)) : Prop where
  confident : ∀ d ∈ dets, cfg.confidenceThreshold ≤ d.score
  descending : dets.Pairwise fun a b => b.score ≤ a.score
  noOverlap : dets.Pairwise fun a b =>
    iou a.bbox b.bbox ≤ cfg.nmsIouThreshold ∧ iou b.bbox a.bbox ≤ cfg.nmsIouThreshold

theorem wellFormed_nms (sort : ScoreSort F) {cfg : DetectionConfig F} {raw : List (FaceDetection F)}
    (h : ∀ d ∈ raw, cfg.confidenceThreshold ≤ d.score) : WellFormed cfg (nms sort raw cfg.nmsIouThreshold) := by
  have hgreedy := nms_greedy sort raw cfg.nmsIouThreshold
  exact ⟨fun d hd => h d (hgreedy.subperm.subset hd), hgreedy.descending, hgreedy.noOverlap⟩

variable [FloorRing F] {ops : EngineOps σ F} {det : SCRFDDetector F}

omit [FloorRing F] in
/-- An entry appends detections of the threshold at least, whatever is copied out. -/
theorem detectStride_confident (lb : LetterboxResult F) {raw : List (FaceDetection F)} (entry : Int × StrideBindings)
    (hraw : ∀ d ∈ raw, det.cfg.confidenceThreshold ≤ d.score) :
    Triple (fun _ => True) (SCRFDDetector.detectStride ops det lb raw entry)
      (fun raw' _ => True ∧ ∀ d ∈ raw', det.cfg.confidenceThreshold ≤ d.score) fun _ => True := by
  rw [SCRFDDetector.detectStride]
  split_ifs with hnames
  · exact .pure fun _ _ => ⟨trivial, hraw⟩
  · refine .after fun sb => .after fun _ => .after fun bb => .after fun _ => .after fun kb => .after fun _ => ?_
    refine .after fun scores => .after fun bboxes => .after fun kps => .after fun _ => ?_
    cases hdecode : decodeStride entry.1 (castInt det.cfg.inputWidth.toNat) (castInt det.cfg.inputHeight.toNat)
        kAnchorsPerLocation scores bboxes kps det.cfg.confidenceThreshold lb.scale lb.padX lb.padY raw with
    | ok raw' => exact .pure fun _ _ => ⟨trivial, confident_of_decodeStride hraw hdecode⟩
    | error stop => exact .throw fun _ _ => trivial

theorem detectImage_wellFormed (cv : Resizer) (sort : ScoreSort F) (src : Image) :
    Triple (fun _ => True) (SCRFDDetector.detectImage ops cv sort det src)
      (fun dets _ => True ∧ WellFormed det.cfg dets) fun _ => True := by
  refine .after fun lb => .after fun _ => .after fun _ => .after fun _ => .after fun _ => .after fun _ => ?_
  have hstrides : Triple (fun _ => True)
      (det.strideBindings.entries.foldlM (SCRFDDetector.detectStride ops det lb) [])
      (fun raw _ => True ∧ ∀ d ∈ raw, det.cfg.confidenceThreshold ≤ d.score) fun _ => True :=
    .foldlM_value (fun entry _ raw hraw => detectStride_confident lb entry hraw) fun d hd =>
      absurd hd List.not_mem_nil
  exact hstrides.bind_fact fun raw hraw => .pure fun _ _ => ⟨trivial, wellFormed_nms sort hraw⟩

/-- **Whatever engine there is and whatever fails, a batch that returns has one list for each image**, of confident
detections by falling score, no two of which overlap. -/
theorem detectBatch_wellFormed (ops : EngineOps σ F) (cv : Resizer) (sort : ScoreSort F) (det : SCRFDDetector F)
    (images : List Image) (s s' : DetectorState σ F) (out : List (List (FaceDetection F)))
    (hrun : (SCRFDDetector.detectBatch ops cv sort det images).run s = .ok out s') :
    out.length = images.length ∧ ∀ dets ∈ out, WellFormed det.cfg dets := by
  have hbatch : Triple (fun _ => True) (SCRFDDetector.detectBatch ops cv sort det images)
      (fun out _ => True ∧ out.length = images.length ∧ ∀ dets ∈ out, WellFormed det.cfg dets) fun _ => True :=
    .after fun _ => .mapM_forall fun src _ => detectImage_wellFormed cv sort src
  exact (hbatch.returns trivial hrun).2

end Caller

/-- An engine that answers with two boxes at one place. -/
def twoBoxesOps (bindings : List BindingInfo) : EngineOps Unit ℚ where
  bindings _ := bindings
  setInputShape _ _ := return ()
  createStream := return ()
  copyInput _ _ _ := return ()
  infer := return ()
  copyOutput name host _ := return (List.range host.length).map fun i => if name = "448" then 9 / (10 + i) else 1
  synchronize := return ()

/-- The stock export at 8x8. -/
def tinyEngine : CudaEngine :=
  scrfdEngine 8 8 (by decide) (by decide +kernel)

/-- The answer for a black image. -/
def tinyRun (det : SCRFDDetector ℚ) : EStateM.Result Stop (DetectorState Unit ℚ) (List (List (FaceDetection ℚ))) :=
  (SCRFDDetector.detectBatch (twoBoxesOps det.engine.bindings) blackResizer (.insertion _) det
    [blankInput (detectionConfig 8 8)]).run ⟨(), List.replicate 192 0⟩

theorem tinyRun_scores :
    ((SCRFDDetector.new (fun _ _ => none) (detectionConfig 8 8) (engineFile tinyEngine)).toOption.bind fun det =>
      (outcome (tinyRun det)).toOption.map fun out => out.map (·.map (·.score))) = some [[9 / 10]] := by
  decide +kernel

/-- One of the two boxes is left. -/
theorem detectBatch_wellFormed_twoBoxes : ∃ det out s',
    SCRFDDetector.new (fun _ _ => none) (detectionConfig 8 8) (engineFile tinyEngine) = .ok det ∧
    tinyRun det = .ok out s' ∧ out.map (·.map (·.score)) = [[9 / 10]] ∧ ∀ dets ∈ out, WellFormed det.cfg dets := by
  obtain ⟨det, hdet, hscores⟩ := Option.bind_eq_some_iff.1 tinyRun_scores
  obtain ⟨out, hout, hscores⟩ := Option.map_eq_some_iff.1 hscores
  have hnew : SCRFDDetector.new (fun _ _ => none) (detectionConfig 8 8) (engineFile tinyEngine) = .ok det := by
    cases hcase : SCRFDDetector.new (fun _ _ => none) (detectionConfig 8 8) (engineFile tinyEngine) with
    | error stop =>
      rw [hcase] at hdet
      cases hdet
    | ok det' =>
      rw [hcase] at hdet
      rw [Option.some.inj hdet]
  cases hrun : tinyRun det with
  | error stop s' =>
    rw [hrun] at hout
    cases hout
  | ok out' s' =>
    rw [hrun] at hout
    obtain rfl : out' = out := Option.some.inj hout
    exact ⟨det, out', s', hnew, hrun, hscores, (detectBatch_wellFormed _ _ _ det _ _ s' out' hrun).2⟩

end FacePipeline.Trt
