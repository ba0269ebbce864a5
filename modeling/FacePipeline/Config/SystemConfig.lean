import FacePipeline.Basic

/-!
# The system configuration and its validation

`validate` is the source's check, in its order and with its texts; `Valid` lists what it ensures.
Everything else in the development reads a configuration through `Valid`.
-/

namespace FacePipeline.Config

structure PipelineConfig where
  maxStreams : UInt32 := 8
  batchSize : UInt32 := 8
  batchedPushTimeoutUs : UInt32 := 40000
  muxerWidth : UInt32 := 1280
  muxerHeight : UInt32 := 720
  deriving DecidableEq, Repr

structure DetectionConfig (F : Type) where
  enginePath : String
  inputWidth : UInt32 := 640
  inputHeight : UInt32 := 640
  confidenceThreshold : F
  nmsIouThreshold : F
  deriving DecidableEq, Repr

structure EncodingConfig where
  enginePath : String
  inputSize : UInt32 := 112
  embeddingDim : UInt32 := 512
  batchSize : UInt32 := 32
  deriving DecidableEq, Repr

inductive FaissIndexType where
  | ivfFlat
  | ivfPQ
  deriving DecidableEq, Repr

inductive FaissMetric where
  | innerProduct
  | l2
  deriving DecidableEq, Repr

structure FaissConfig where
  indexType : FaissIndexType := .ivfFlat
  ivfPqMinSize : UInt32 := 100000
  nlist : UInt32 := 0
  nprobe : UInt32 := 32
  pqM : UInt32 := 64
  metric : FaissMetric := .innerProduct
  gpuId : Int := 0
  deriving DecidableEq, Repr

structure RecognitionConfig (F : Type) where
  threshold : F
  marginMin : F
  topK : UInt32 := 5
  deriving DecidableEq, Repr

structure SystemConfig (F : Type) where
  pipeline : PipelineConfig
  detection : DetectionConfig F
  encoding : EncodingConfig
  faiss : FaissConfig
  recognition : RecognitionConfig F
  deriving DecidableEq, Repr

/-- Detector input sizes survive the stride-32 downsampling without a ragged feature map. -/
def kInputSizeMultiple : UInt32 := 32

/-- `if (p) throw std::runtime_error(what);` -/
def rejectIf (p : Prop) [Decidable p] (what : String) : Except Exn Unit :=
  if p then .error (.runtimeError what) else .ok ()

def requirePositive (value : UInt32) (key : String) : Except Exn Unit :=
  rejectIf (value = 0) ("config: " ++ key ++ " must be greater than zero")

def parseIndexType (s : String) : Except Exn FaissIndexType :=
  if s = "ivf_flat" then .ok .ivfFlat
  else if s = "ivf_pq" then .ok .ivfPQ
  else .error (.runtimeError ("unknown faiss.index_type: " ++ s))

def parseMetric (s : String) : Except Exn FaissMetric :=
  if s = "ip" ∨ s = "inner_product" then .ok .innerProduct
  else if s = "l2" then .ok .l2
  else .error (.runtimeError ("unknown faiss.metric: " ++ s))

variable {F : Type} [LE F] [DecidableLE F] [Zero F] [One F] [Neg F] [Sub F] [ToString F]

/-- Cosine similarities lie in `[kMinSimilarity, kMaxSimilarity]`. -/
def kMinSimilarity (F : Type) [One F] [Neg F] : F := -1

def kMaxSimilarity (F : Type) [One F] : F := 1

def requireInRange (value lo hi : F) (key : String) : Except Exn Unit :=
  rejectIf (¬(lo ≤ value ∧ value ≤ hi)) ("config: " ++ key ++ " must be in [" ++ toString lo ++
    ", " ++ toString hi ++ "], got " ++ toString value)

/-! ### `SystemConfig::validate`, one section of the file after the other -/

def PipelineConfig.validate (c : PipelineConfig) : Except Exn Unit := do
  requirePositive c.maxStreams "pipeline.max_streams"
  requirePositive c.batchSize "pipeline.batch_size"
  requirePositive c.muxerWidth "pipeline.muxer_width"
  requirePositive c.muxerHeight "pipeline.muxer_height"

def DetectionConfig.validate (c : DetectionConfig F) : Except Exn Unit := do
  rejectIf (c.enginePath = "") "config: detection.engine_path must not be empty"
  requirePositive c.inputWidth "detection.input_width"
  requirePositive c.inputHeight "detection.input_height"
  rejectIf (c.inputWidth % kInputSizeMultiple ≠ 0 ∨ c.inputHeight % kInputSizeMultiple ≠ 0)
    ("config: detection input size must be a multiple of " ++ toString kInputSizeMultiple)
  requireInRange c.confidenceThreshold 0 1 "detection.confidence_threshold"
  requireInRange c.nmsIouThreshold 0 1 "detection.nms_iou_threshold"

def EncodingConfig.validate (c : EncodingConfig) : Except Exn Unit := do
  rejectIf (c.enginePath = "") "config: encoding.engine_path must not be empty"
  requirePositive c.inputSize "encoding.input_size"
  requirePositive c.embeddingDim "encoding.embedding_dim"
  requirePositive c.batchSize "encoding.batch_size"

/-- The product quantizer's parameter is checked only when the quantizer is configured. -/
def FaissConfig.validate (c : FaissConfig) (embeddingDim : UInt32) : Except Exn Unit := do
  requirePositive c.nprobe "faiss.nprobe"
  rejectIf (c.indexType = .ivfPQ ∧ c.pqM = 0) "config: faiss.pq_m must be greater than zero"
  rejectIf (c.indexType = .ivfPQ ∧ embeddingDim % c.pqM ≠ 0)
    "config: faiss.pq_m must divide encoding.embedding_dim evenly"

def RecognitionConfig.validate (c : RecognitionConfig F) : Except Exn Unit := do
  requireInRange c.threshold (kMinSimilarity F) (kMaxSimilarity F) "recognition.threshold"
  requireInRange c.marginMin 0 (kMaxSimilarity F - kMinSimilarity F) "recognition.margin_min"
  requirePositive c.topK "recognition.top_k"

def SystemConfig.validate (c : SystemConfig F) : Except Exn Unit := do
  c.pipeline.validate
  c.detection.validate
  c.encoding.validate
  c.faiss.validate c.encoding.embeddingDim
  c.recognition.validate

/-! ### What a validated configuration satisfies -/

structure PipelineConfig.Valid (c : PipelineConfig) : Prop where
  maxStreams : c.maxStreams ≠ 0
  batchSize : c.batchSize ≠ 0
  muxerWidth : c.muxerWidth ≠ 0
  muxerHeight : c.muxerHeight ≠ 0

structure DetectionConfig.Valid (c : DetectionConfig F) : Prop where
  enginePath : c.enginePath ≠ ""
  width_pos : c.inputWidth ≠ 0
  height_pos : c.inputHeight ≠ 0
  width_mod : c.inputWidth % kInputSizeMultiple = 0
  height_mod : c.inputHeight % kInputSizeMultiple = 0
  confidenceThreshold : 0 ≤ c.confidenceThreshold ∧ c.confidenceThreshold ≤ 1
  nmsIouThreshold : 0 ≤ c.nmsIouThreshold ∧ c.nmsIouThreshold ≤ 1

structure EncodingConfig.Valid (c : EncodingConfig) : Prop where
  enginePath : c.enginePath ≠ ""
  inputSize : c.inputSize ≠ 0
  embeddingDim : c.embeddingDim ≠ 0
  batchSize : c.batchSize ≠ 0

structure FaissConfig.Valid (c : FaissConfig) (embeddingDim : UInt32) : Prop where
  nprobe : c.nprobe ≠ 0
  pqM : c.indexType = .ivfPQ → c.pqM ≠ 0 ∧ embeddingDim % c.pqM = 0

structure RecognitionConfig.Valid (c : RecognitionConfig F) : Prop where
  threshold : kMinSimilarity F ≤ c.threshold ∧ c.threshold ≤ kMaxSimilarity F
  marginMin : 0 ≤ c.marginMin ∧ c.marginMin ≤ kMaxSimilarity F - kMinSimilarity F
  topK : c.topK ≠ 0

structure SystemConfig.Valid (c : SystemConfig F) : Prop where
  pipeline : c.pipeline.Valid
  detection : c.detection.Valid
  encoding : c.encoding.Valid
  faiss : c.faiss.Valid c.encoding.embeddingDim
  recognition : c.recognition.Valid

/-! ### The checks accept exactly the valid configurations -/

omit [LE F] [DecidableLE F] [Zero F] [One F] [Neg F] [Sub F] [ToString F]

@[simp] theorem rejectIf_ok {p : Prop} [Decidable p] {what : String} {u : Unit} :
    rejectIf p what = .ok u ↔ ¬p := by
  unfold rejectIf
  split <;> simp_all

@[simp] theorem requirePositive_ok {value : UInt32} {key : String} {u : Unit} :
    requirePositive value key = .ok u ↔ value ≠ 0 :=
  rejectIf_ok

@[simp] theorem requireInRange_ok [LE F] [DecidableLE F] [ToString F] {value lo hi : F}
    {key : String} {u : Unit} :
    requireInRange value lo hi key = .ok u ↔ lo ≤ value ∧ value ≤ hi := by
  simp [requireInRange]

theorem PipelineConfig.validate_ok {c : PipelineConfig} {u : Unit} :
    c.validate = .ok u ↔ c.Valid := by
  simp only [PipelineConfig.validate, bind_ok, requirePositive_ok, exists_const]
  constructor
  · rintro ⟨h1, h2, h3, h4⟩
    exact ⟨h1, h2, h3, h4⟩
  · rintro ⟨h1, h2, h3, h4⟩
    exact ⟨h1, h2, h3, h4⟩

theorem EncodingConfig.validate_ok {c : EncodingConfig} {u : Unit} :
    c.validate = .ok u ↔ c.Valid := by
  simp only [EncodingConfig.validate, bind_ok, requirePositive_ok, rejectIf_ok, exists_const]
  constructor
  · rintro ⟨h1, h2, h3, h4⟩
    exact ⟨h1, h2, h3, h4⟩
  · rintro ⟨h1, h2, h3, h4⟩
    exact ⟨h1, h2, h3, h4⟩

theorem FaissConfig.validate_ok {c : FaissConfig} {embeddingDim : UInt32} {u : Unit} :
    c.validate embeddingDim = .ok u ↔ c.Valid embeddingDim := by
  simp only [FaissConfig.validate, bind_ok, requirePositive_ok, rejectIf_ok, exists_const,
    not_and, not_not]
  constructor
  · rintro ⟨h1, h2, h3⟩
    exact ⟨h1, fun hpq => ⟨h2 hpq, h3 hpq⟩⟩
  · rintro ⟨h1, h2⟩
    exact ⟨h1, fun hpq => (h2 hpq).1, fun hpq => (h2 hpq).2⟩

variable [LE F] [DecidableLE F] [Zero F] [One F] [ToString F]

theorem DetectionConfig.validate_ok {c : DetectionConfig F} {u : Unit} :
    c.validate = .ok u ↔ c.Valid := by
  simp only [DetectionConfig.validate, bind_ok, requirePositive_ok, requireInRange_ok,
    rejectIf_ok, exists_const, not_or, not_not]
  constructor
  · rintro ⟨h1, h2, h3, ⟨h4, h5⟩, h6, h7⟩
    exact ⟨h1, h2, h3, h4, h5, h6, h7⟩
  · rintro ⟨h1, h2, h3, h4, h5, h6, h7⟩
    exact ⟨h1, h2, h3, ⟨h4, h5⟩, h6, h7⟩

variable [Neg F] [Sub F]

theorem RecognitionConfig.validate_ok {c : RecognitionConfig F} {u : Unit} :
    c.validate = .ok u ↔ c.Valid := by
  simp only [RecognitionConfig.validate, bind_ok, requirePositive_ok, requireInRange_ok,
    exists_const]
  constructor
  · rintro ⟨h1, h2, h3⟩
    exact ⟨h1, h2, h3⟩
  · rintro ⟨h1, h2, h3⟩
    exact ⟨h1, h2, h3⟩

/-- **Validation is exactly `Valid`.** -/
theorem SystemConfig.validate_ok {c : SystemConfig F} {u : Unit} :
    c.validate = .ok u ↔ c.Valid := by
  simp only [SystemConfig.validate, bind_ok, PipelineConfig.validate_ok,
    DetectionConfig.validate_ok, EncodingConfig.validate_ok, FaissConfig.validate_ok,
    RecognitionConfig.validate_ok, exists_const]
  constructor
  · rintro ⟨h1, h2, h3, h4, h5⟩
    exact ⟨h1, h2, h3, h4, h5⟩
  · rintro ⟨h1, h2, h3, h4, h5⟩
    exact ⟨h1, h2, h3, h4, h5⟩

end FacePipeline.Config
