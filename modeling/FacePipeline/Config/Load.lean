import FacePipeline.Config.SystemConfig
import FacePipeline.Lib.Yaml
import Mathlib

/-!
# Loading a configuration file

The readers go through the sections in the source's order. The YAML library is a parameter: what a value converts
to and how its refusals read. Every exception it throws derives from `std::runtime_error`.
-/

namespace FacePipeline.Config

open Yaml (Node)

structure LoggingConfig where
  level : String := "info"
  json : Bool := true
  deriving DecidableEq, Repr

/-- All that a file holds: what `validate` looks at, and the logging. -/
structure ConfigFile (F : Type) extends SystemConfig F where
  logging : LoggingConfig
  deriving DecidableEq, Repr

/-- `node.as<T>()` at each type, and the text of the exception for a subscript of a scalar. -/
structure Conversions (F : Type) where
  badSubscript : String → String
  asUInt32 : Node → Except String UInt32
  asInt : Node → Except String Int
  asFloat : Node → Except String F
  asBool : Node → Except String Bool
  asString : Node → Except String String

/-- The file system and `YAML::LoadFile`. -/
structure Files where
  isRegularFile : String → Bool
  loadFile : String → Except String Node

variable {F α : Type}

def Conversions.get (y : Conversions F) (node : Node) (key : String) : Except Exn (Option Node) :=
  node.get (fun key => .runtimeError (y.badSubscript key)) key

def Conversions.optional (y : Conversions F) (as : Node → Except String α) (node : Node) (key : String)
    (fallback : α) : Except Exn α :=
  Yaml.optional (fun key => .runtimeError (y.badSubscript key)) (fun node => (as node).mapError .runtimeError)
    node key fallback

def Conversions.require (y : Conversions F) (as : Node → Except String α) (node : Node) (key : String) :
    Except Exn α :=
  Yaml.require (fun key => .runtimeError (y.badSubscript key))
    (fun key => .runtimeError ("missing required config key: " ++ key))
    (fun node => (as node).mapError .runtimeError) node key

/-! ### The sections -/

def PipelineConfig.read (y : Conversions F) (p : Node) : Except Exn PipelineConfig := do
  let maxStreams ← y.optional y.asUInt32 p "max_streams" 8
  let batchSize ← y.optional y.asUInt32 p "batch_size" 8
  let batchedPushTimeoutUs ← y.optional y.asUInt32 p "batched_push_timeout_us" 40000
  let muxerWidth ← y.optional y.asUInt32 p "muxer_width" 1280
  let muxerHeight ← y.optional y.asUInt32 p "muxer_height" 720
  return { maxStreams, batchSize, batchedPushTimeoutUs, muxerWidth, muxerHeight }

def DetectionConfig.read [OfScientific F] (y : Conversions F) (d : Node) : Except Exn (DetectionConfig F) := do
  let enginePath ← y.require y.asString d "engine_path"
  let inputWidth ← y.optional y.asUInt32 d "input_width" 640
  let inputHeight ← y.optional y.asUInt32 d "input_height" 640
  let confidenceThreshold ← y.optional y.asFloat d "confidence_threshold" 0.5
  let nmsIouThreshold ← y.optional y.asFloat d "nms_iou_threshold" 0.4
  return { enginePath, inputWidth, inputHeight, confidenceThreshold, nmsIouThreshold }

def EncodingConfig.read (y : Conversions F) (e : Node) : Except Exn EncodingConfig := do
  let enginePath ← y.require y.asString e "engine_path"
  let inputSize ← y.optional y.asUInt32 e "input_size" 112
  let embeddingDim ← y.optional y.asUInt32 e "embedding_dim" 512
  let batchSize ← y.optional y.asUInt32 e "batch_size" 32
  return { enginePath, inputSize, embeddingDim, batchSize }

/-- The two names are looked up as they are read, before the keys after them. -/
def FaissConfig.read (y : Conversions F) (f : Node) : Except Exn FaissConfig := do
  let indexType ← parseIndexType (← y.optional y.asString f "index_type" "ivf_flat")
  let ivfPqMinSize ← y.optional y.asUInt32 f "ivf_pq_min_size" 100000
  let nlist ← y.optional y.asUInt32 f "nlist" 0
  let nprobe ← y.optional y.asUInt32 f "nprobe" 32
  let pqM ← y.optional y.asUInt32 f "pq_m" 64
  let metric ← parseMetric (← y.optional y.asString f "metric" "ip")
  let gpuId ← y.optional y.asInt f "gpu_id" 0
  return { indexType, ivfPqMinSize, nlist, nprobe, pqM, metric, gpuId }

def RecognitionConfig.read [OfScientific F] (y : Conversions F) (r : Node) : Except Exn (RecognitionConfig F) := do
  let threshold ← y.optional y.asFloat r "threshold" 0.45
  let marginMin ← y.optional y.asFloat r "margin_min" 0.04
  let topK ← y.optional y.asUInt32 r "top_k" 5
  return { threshold, marginMin, topK }

def LoggingConfig.read (y : Conversions F) (l : Node) : Except Exn LoggingConfig := do
  let level ← y.optional y.asString l "level" "info"
  let json ← y.optional y.asBool l "json" true
  return { level, json }

/-- `if (const auto s = root[key]; s)`: a section that is there is read, and one that is not is left to `absent`. -/
def Conversions.readSection (y : Conversions F) (root : Node) (key : String) (read : Node → Except Exn α)
    (absent : Except Exn α) : Except Exn α := do
  match ← y.get root key with
  | none => absent
  | some node => read node

/-- `SystemConfig::load` once the file is parsed, up to the validation. -/
def ConfigFile.read [OfScientific F] (y : Conversions F) (root : Node) : Except Exn (ConfigFile F) := do
  let pipeline ← y.readSection root "pipeline" (PipelineConfig.read y) (.ok {})
  let detection ← y.readSection root "detection" (DetectionConfig.read y)
    (.error (.runtimeError "missing 'detection' section in config"))
  let encoding ← y.readSection root "encoding" (EncodingConfig.read y)
    (.error (.runtimeError "missing 'encoding' section in config"))
  let faiss ← y.readSection root "faiss" (FaissConfig.read y) (.ok {})
  let recognition ← y.readSection root "recognition" (RecognitionConfig.read y)
    (.ok { threshold := 0.45, marginMin := 0.04 })
  let logging ← y.readSection root "logging" (LoggingConfig.read y) (.ok {})
  return { pipeline, detection, encoding, faiss, recognition, logging }

def ConfigFile.load [OfScientific F] [LE F] [DecidableLE F] [Zero F] [One F] [Neg F] [Sub F] [ToString F]
    (y : Conversions F) (files : Files) (yamlPath : String) : Except Exn (ConfigFile F) := do
  rejectIf (¬files.isRegularFile yamlPath) ("config file not found: " ++ yamlPath)
  let root ← (files.loadFile yamlPath).mapError .runtimeError
  let out ← ConfigFile.read y root
  out.validate
  return out

/-! ### Writing a configuration out -/

def uint32Node (v : UInt32) : Node := .scalar (toString v)

def intNode (i : Int) : Node := .scalar (toString i)

def boolNode (b : Bool) : Node := .scalar (toString b)

def FaissIndexType.text : FaissIndexType → String
  | .ivfFlat => "ivf_flat"
  | .ivfPQ => "ivf_pq"

def FaissMetric.text : FaissMetric → String
  | .innerProduct => "ip"
  | .l2 => "l2"

def PipelineConfig.entries (c : PipelineConfig) : List (String × Node) :=
  [("max_streams", uint32Node c.maxStreams), ("batch_size", uint32Node c.batchSize),
    ("batched_push_timeout_us", uint32Node c.batchedPushTimeoutUs), ("muxer_width", uint32Node c.muxerWidth),
    ("muxer_height", uint32Node c.muxerHeight)]

/-- What a detection section may leave out; the engine's path is not among it. -/
def DetectionConfig.optionalEntries (floatText : F → String) (c : DetectionConfig F) : List (String × Node) :=
  [("input_width", uint32Node c.inputWidth), ("input_height", uint32Node c.inputHeight),
    ("confidence_threshold", .scalar (floatText c.confidenceThreshold)),
    ("nms_iou_threshold", .scalar (floatText c.nmsIouThreshold))]

def EncodingConfig.optionalEntries (c : EncodingConfig) : List (String × Node) :=
  [("input_size", uint32Node c.inputSize), ("embedding_dim", uint32Node c.embeddingDim),
    ("batch_size", uint32Node c.batchSize)]

def FaissConfig.entries (c : FaissConfig) : List (String × Node) :=
  [("index_type", .scalar c.indexType.text), ("ivf_pq_min_size", uint32Node c.ivfPqMinSize),
    ("nlist", uint32Node c.nlist), ("nprobe", uint32Node c.nprobe), ("pq_m", uint32Node c.pqM),
    ("metric", .scalar c.metric.text), ("gpu_id", intNode c.gpuId)]

def RecognitionConfig.entries (floatText : F → String) (c : RecognitionConfig F) : List (String × Node) :=
  [("threshold", .scalar (floatText c.threshold)), ("margin_min", .scalar (floatText c.marginMin)),
    ("top_k", uint32Node c.topK)]

def LoggingConfig.entries (c : LoggingConfig) : List (String × Node) :=
  [("level", .scalar c.level), ("json", boolNode c.json)]

/-- A document with every key. -/
def ConfigFile.document (floatText : F → String) (c : ConfigFile F) : Node :=
  .map [("pipeline", .map c.pipeline.entries),
    ("detection", .map (("engine_path", .scalar c.detection.enginePath) :: c.detection.optionalEntries floatText)),
    ("encoding", .map (("engine_path", .scalar c.encoding.enginePath) :: c.encoding.optionalEntries)),
    ("faiss", .map c.faiss.entries), ("recognition", .map (c.recognition.entries floatText)),
    ("logging", .map c.logging.entries)]

/-- The library reads back what is written out: every integer, flag and text, and these floats. -/
structure Conversions.Inverts (y : Conversions F) (floatText : F → String) (floats : List F) : Prop where
  uint32 : ∀ v, y.asUInt32 (uint32Node v) = .ok v
  int : ∀ i, -2 ^ 31 ≤ i → i < 2 ^ 31 → y.asInt (intNode i) = .ok i
  float : ∀ x ∈ floats, y.asFloat (.scalar (floatText x)) = .ok x
  bool : ∀ b, y.asBool (boolNode b) = .ok b
  string : ∀ s, y.asString (.scalar s) = .ok s

def ConfigFile.floats (c : ConfigFile F) : List F :=
  [c.detection.confidenceThreshold, c.detection.nmsIouThreshold, c.recognition.threshold, c.recognition.marginMin]

@[simp] theorem parseIndexType_text (t : FaissIndexType) : parseIndexType t.text = .ok t := by
  cases t <;> rfl

@[simp] theorem parseMetric_text (m : FaissMetric) : parseMetric m.text = .ok m := by
  cases m <;> rfl

section Reading

variable {y : Conversions F} {as : Node → Except String α} {entries : List (String × Node)} {key : String}
  {node : Node} {fallback a : α}

theorem optional_of_lookup (hlookup : entries.lookup key = some node) (has : as node = .ok a) :
    y.optional as (.map entries) key fallback = .ok a := by
  rw [Conversions.optional, Yaml.optional_map_some hlookup, has]
  rfl

theorem require_of_lookup (hlookup : entries.lookup key = some node) (has : as node = .ok a) :
    y.require as (.map entries) key = .ok a := by
  rw [Conversions.require, Yaml.require_map_some hlookup, has]
  rfl

theorem readSection_of_lookup {read : Node → Except Exn α} {absent : Except Exn α}
    (hlookup : entries.lookup key = some node) :
    y.readSection (.map entries) key read absent = read node := by
  simp only [Conversions.readSection, Conversions.get, Yaml.get_map, hlookup]
  rfl

end Reading

/-! ### What is written out is read back -/

section RoundTrip

variable {y : Conversions F} {floatText : F → String} {floats : List F}

theorem PipelineConfig.read_entries (h : y.Inverts floatText floats) (c : PipelineConfig) :
    PipelineConfig.read y (.map c.entries) = .ok c := by
  unfold PipelineConfig.read
  rw [optional_of_lookup rfl (h.uint32 c.maxStreams), ok_bind]
  rw [optional_of_lookup rfl (h.uint32 c.batchSize), ok_bind]
  rw [optional_of_lookup rfl (h.uint32 c.batchedPushTimeoutUs), ok_bind]
  rw [optional_of_lookup rfl (h.uint32 c.muxerWidth), ok_bind]
  rw [optional_of_lookup rfl (h.uint32 c.muxerHeight), ok_bind]
  rfl

theorem DetectionConfig.read_entries [OfScientific F] (h : y.Inverts floatText floats) (c : DetectionConfig F)
    (hfloats : c.confidenceThreshold ∈ floats ∧ c.nmsIouThreshold ∈ floats) :
    DetectionConfig.read y (.map (("engine_path", .scalar c.enginePath) :: c.optionalEntries floatText)) =
      .ok c := by
  unfold DetectionConfig.read
  rw [require_of_lookup rfl (h.string c.enginePath), ok_bind]
  rw [optional_of_lookup rfl (h.uint32 c.inputWidth), ok_bind]
  rw [optional_of_lookup rfl (h.uint32 c.inputHeight), ok_bind]
  rw [optional_of_lookup rfl (h.float c.confidenceThreshold hfloats.1), ok_bind]
  rw [optional_of_lookup rfl (h.float c.nmsIouThreshold hfloats.2), ok_bind]
  rfl

theorem EncodingConfig.read_entries (h : y.Inverts floatText floats) (c : EncodingConfig) :
    EncodingConfig.read y (.map (("engine_path", .scalar c.enginePath) :: c.optionalEntries)) = .ok c := by
  unfold EncodingConfig.read
  rw [require_of_lookup rfl (h.string c.enginePath), ok_bind]
  rw [optional_of_lookup rfl (h.uint32 c.inputSize), ok_bind]
  rw [optional_of_lookup rfl (h.uint32 c.embeddingDim), ok_bind]
  rw [optional_of_lookup rfl (h.uint32 c.batchSize), ok_bind]
  rfl

theorem FaissConfig.read_entries (h : y.Inverts floatText floats) (c : FaissConfig)
    (hgpu : -2 ^ 31 ≤ c.gpuId ∧ c.gpuId < 2 ^ 31) :
    FaissConfig.read y (.map c.entries) = .ok c := by
  unfold FaissConfig.read
  rw [optional_of_lookup rfl (h.string c.indexType.text), ok_bind, parseIndexType_text, ok_bind]
  rw [optional_of_lookup rfl (h.uint32 c.ivfPqMinSize), ok_bind]
  rw [optional_of_lookup rfl (h.uint32 c.nlist), ok_bind]
  rw [optional_of_lookup rfl (h.uint32 c.nprobe), ok_bind]
  rw [optional_of_lookup rfl (h.uint32 c.pqM), ok_bind]
  rw [optional_of_lookup rfl (h.string c.metric.text), ok_bind, parseMetric_text, ok_bind]
  rw [optional_of_lookup rfl (h.int c.gpuId hgpu.1 hgpu.2), ok_bind]
  rfl

theorem RecognitionConfig.read_entries [OfScientific F] (h : y.Inverts floatText floats) (c : RecognitionConfig F)
    (hfloats : c.threshold ∈ floats ∧ c.marginMin ∈ floats) :
    RecognitionConfig.read y (.map (c.entries floatText)) = .ok c := by
  unfold RecognitionConfig.read
  rw [optional_of_lookup rfl (h.float c.threshold hfloats.1), ok_bind]
  rw [optional_of_lookup rfl (h.float c.marginMin hfloats.2), ok_bind]
  rw [optional_of_lookup rfl (h.uint32 c.topK), ok_bind]
  rfl

theorem LoggingConfig.read_entries (h : y.Inverts floatText floats) (c : LoggingConfig) :
    LoggingConfig.read y (.map c.entries) = .ok c := by
  unfold LoggingConfig.read
  rw [optional_of_lookup rfl (h.string c.level), ok_bind]
  rw [optional_of_lookup rfl (h.bool c.json), ok_bind]
  rfl

theorem ConfigFile.read_document [OfScientific F] {c : ConfigFile F} (h : y.Inverts floatText c.floats)
    (hgpu : -2 ^ 31 ≤ c.faiss.gpuId ∧ c.faiss.gpuId < 2 ^ 31) :
    ConfigFile.read y (c.document floatText) = .ok c := by
  have hdetection : c.detection.confidenceThreshold ∈ c.floats ∧ c.detection.nmsIouThreshold ∈ c.floats := by
    simp [ConfigFile.floats]
  have hrecognition : c.recognition.threshold ∈ c.floats ∧ c.recognition.marginMin ∈ c.floats := by
    simp [ConfigFile.floats]
  unfold ConfigFile.read ConfigFile.document
  rw [readSection_of_lookup rfl, PipelineConfig.read_entries h, ok_bind]
  rw [readSection_of_lookup rfl, DetectionConfig.read_entries h c.detection hdetection, ok_bind]
  rw [readSection_of_lookup rfl, EncodingConfig.read_entries h, ok_bind]
  rw [readSection_of_lookup rfl, FaissConfig.read_entries h c.faiss hgpu, ok_bind]
  rw [readSection_of_lookup rfl, RecognitionConfig.read_entries h c.recognition hrecognition, ok_bind]
  rw [readSection_of_lookup rfl, LoggingConfig.read_entries h, ok_bind]
  rfl

end RoundTrip

/-! ### What is left out is read as the default -/

/-- The defaults of a section, as they are written out. -/
def sectionDefaults [OfScientific F] (floatText : F → String) : String → List (String × Node)
  | "pipeline" => PipelineConfig.entries {}
  | "detection" =>
    DetectionConfig.optionalEntries floatText { enginePath := "", confidenceThreshold := 0.5, nmsIouThreshold := 0.4 }
  | "encoding" => EncodingConfig.optionalEntries { enginePath := "" }
  | "faiss" => FaissConfig.entries {}
  | "recognition" => RecognitionConfig.entries floatText { threshold := 0.45, marginMin := 0.04 }
  | "logging" => LoggingConfig.entries {}
  | _ => []

/-- The sections a file may leave out. -/
def optionalSections : List String := ["pipeline", "faiss", "recognition", "logging"]

/-- Every default written out: the missing keys of the sections that are there, and the missing sections. -/
def writeDefaults [OfScientific F] (floatText : F → String) : Node → Node
  | .map sections =>
    .map (sections.map (fun entry => (entry.1, entry.2.fill (sectionDefaults floatText entry.1))) ++
      optionalSections.map fun key => (key, .map (sectionDefaults floatText key)))
  | root => root

def defaultFloats (F : Type) [OfScientific F] : List F := [0.5, 0.4, 0.45, 0.04]

section Defaults

variable {y : Conversions F} {as : Node → Except String α} {defaults : List (String × Node)} {key : String}
  {value node : Node} {fallback : α}

theorem optional_fill (hlookup : defaults.lookup key = some value) (has : as value = .ok fallback) :
    y.optional as (node.fill defaults) key fallback = y.optional as node key fallback := by
  refine Yaml.optional_fill hlookup ?_
  rw [has]
  rfl

theorem require_fill (hlookup : defaults.lookup key = none) :
    y.require as (node.fill defaults) key = y.require as node key :=
  Yaml.require_fill hlookup

variable [OfScientific F] {floatText : F → String}

theorem PipelineConfig.read_fill (h : y.Inverts floatText (defaultFloats F)) (node : Node) :
    PipelineConfig.read y (node.fill (sectionDefaults floatText "pipeline")) = PipelineConfig.read y node := by
  unfold PipelineConfig.read
  rw [optional_fill rfl (h.uint32 8), optional_fill rfl (h.uint32 8), optional_fill rfl (h.uint32 40000)]
  rw [optional_fill rfl (h.uint32 1280), optional_fill rfl (h.uint32 720)]

theorem DetectionConfig.read_fill (h : y.Inverts floatText (defaultFloats F)) (node : Node) :
    DetectionConfig.read y (node.fill (sectionDefaults floatText "detection")) = DetectionConfig.read y node := by
  have hconfidence := h.float 0.5 (by simp [defaultFloats])
  have hnms := h.float 0.4 (by simp [defaultFloats])
  unfold DetectionConfig.read
  rw [require_fill rfl, optional_fill rfl (h.uint32 640), optional_fill rfl (h.uint32 640)]
  rw [optional_fill rfl hconfidence, optional_fill rfl hnms]

theorem EncodingConfig.read_fill (h : y.Inverts floatText (defaultFloats F)) (node : Node) :
    EncodingConfig.read y (node.fill (sectionDefaults floatText "encoding")) = EncodingConfig.read y node := by
  unfold EncodingConfig.read
  rw [require_fill rfl, optional_fill rfl (h.uint32 112), optional_fill rfl (h.uint32 512)]
  rw [optional_fill rfl (h.uint32 32)]

theorem FaissConfig.read_fill (h : y.Inverts floatText (defaultFloats F)) (node : Node) :
    FaissConfig.read y (node.fill (sectionDefaults floatText "faiss")) = FaissConfig.read y node := by
  have hgpu := h.int 0 (by decide) (by decide)
  unfold FaissConfig.read
  rw [optional_fill rfl (h.string "ivf_flat"), optional_fill rfl (h.uint32 100000), optional_fill rfl (h.uint32 0)]
  rw [optional_fill rfl (h.uint32 32), optional_fill rfl (h.uint32 64), optional_fill rfl (h.string "ip")]
  rw [optional_fill rfl hgpu]

theorem RecognitionConfig.read_fill (h : y.Inverts floatText (defaultFloats F)) (node : Node) :
    RecognitionConfig.read y (node.fill (sectionDefaults floatText "recognition")) = RecognitionConfig.read y node := by
  have hthreshold := h.float 0.45 (by simp [defaultFloats])
  have hmargin := h.float 0.04 (by simp [defaultFloats])
  unfold RecognitionConfig.read
  rw [optional_fill rfl hthreshold, optional_fill rfl hmargin, optional_fill rfl (h.uint32 5)]

theorem LoggingConfig.read_fill (h : y.Inverts floatText (defaultFloats F)) (node : Node) :
    LoggingConfig.read y (node.fill (sectionDefaults floatText "logging")) = LoggingConfig.read y node := by
  unfold LoggingConfig.read
  rw [optional_fill rfl (h.string "info"), optional_fill rfl (h.bool true)]

/-- A section that only restates the defaults reads as the section that is not there. -/
theorem RecognitionConfig.read_defaults (h : y.Inverts floatText (defaultFloats F)) :
    RecognitionConfig.read y (.map (sectionDefaults floatText "recognition")) =
      .ok { threshold := 0.45, marginMin := 0.04 } := by
  refine RecognitionConfig.read_entries h _ ⟨?_, ?_⟩ <;> simp [defaultFloats]

theorem readSection_writeDefaults {read : Node → Except Exn α} {absent : Except Exn α} (root : Node)
    (hread : ∀ node, read (node.fill (sectionDefaults floatText key)) = read node)
    (habsent : key ∈ optionalSections → read (.map (sectionDefaults floatText key)) = absent) :
    y.readSection (writeDefaults floatText root) key read absent = y.readSection root key read absent := by
  cases root with
  | null => rfl
  | scalar text => rfl
  | sequence items => rfl
  | map sections =>
    simp only [Conversions.readSection, Conversions.get, writeDefaults, Yaml.get_map, List.lookup_append]
    rw [Yaml.lookup_map_key fun key node => node.fill (sectionDefaults floatText key)]
    cases sections.lookup key with
    | some node => exact hread node
    | none =>
      by_cases hkey : key ∈ optionalSections
      · have hdefaults := List.lookup_graph (fun key => Node.map (sectionDefaults floatText key)) hkey
        rw [Option.map_none, Option.none_or, hdefaults]
        exact habsent hkey
      · have hnone : (optionalSections.map fun key => (key, Node.map (sectionDefaults floatText key))).lookup key =
            none := by
          rw [List.lookup_eq_none_iff]
          intro entry hentry
          obtain ⟨key', hkey', rfl⟩ := List.mem_map.1 hentry
          exact bne_iff_ne.2 fun heq => hkey (heq ▸ hkey')
        rw [Option.map_none, Option.none_or, hnone]

theorem ConfigFile.read_writeDefaults (h : y.Inverts floatText (defaultFloats F)) (root : Node) :
    ConfigFile.read y (writeDefaults floatText root) = ConfigFile.read y root := by
  have hgpu : -2 ^ 31 ≤ (0 : Int) ∧ (0 : Int) < 2 ^ 31 := by decide
  unfold ConfigFile.read
  rw [readSection_writeDefaults root (PipelineConfig.read_fill h) fun _ => PipelineConfig.read_entries h {}]
  rw [readSection_writeDefaults root (DetectionConfig.read_fill h) fun hkey => absurd hkey (by decide)]
  rw [readSection_writeDefaults root (EncodingConfig.read_fill h) fun hkey => absurd hkey (by decide)]
  rw [readSection_writeDefaults root (FaissConfig.read_fill h) fun _ => FaissConfig.read_entries h {} hgpu]
  rw [readSection_writeDefaults root (RecognitionConfig.read_fill h) fun _ => RecognitionConfig.read_defaults h]
  rw [readSection_writeDefaults root (LoggingConfig.read_fill h) fun _ => LoggingConfig.read_entries h {}]

end Defaults

/-! ### What a load throws -/

/-- All that `x` throws is a `std::runtime_error`. -/
def RuntimeErrorsOnly (x : Except Exn α) : Prop := ∀ e, x = .error e → ∃ what, e = .runtimeError what

namespace RuntimeErrorsOnly

variable {β : Type} {x : Except Exn α}

theorem ok (a : α) : RuntimeErrorsOnly (.ok a) := by
  intro e he
  cases he

theorem runtimeError (what : String) : RuntimeErrorsOnly (.error (.runtimeError what) : Except Exn α) := by
  rintro e ⟨⟩
  exact ⟨what, rfl⟩

theorem bind {f : α → Except Exn β} (hx : RuntimeErrorsOnly x) (hf : ∀ a, RuntimeErrorsOnly (f a)) :
    RuntimeErrorsOnly (x >>= f) := by
  cases x with
  | ok a => exact hf a
  | error e =>
    rintro e' ⟨⟩
    exact hx e rfl

theorem mapError (x : Except String α) : RuntimeErrorsOnly (x.mapError .runtimeError) := by
  cases x with
  | ok a => exact .ok a
  | error what => exact .runtimeError what

theorem rejectIf (p : Prop) [Decidable p] (what : String) : RuntimeErrorsOnly (rejectIf p what) := by
  unfold Config.rejectIf
  split
  · exact .runtimeError what
  · exact .ok ()

theorem parseIndexType (s : String) : RuntimeErrorsOnly (parseIndexType s) := by
  unfold Config.parseIndexType
  split_ifs
  · exact .ok _
  · exact .ok _
  · exact .runtimeError _

theorem parseMetric (s : String) : RuntimeErrorsOnly (parseMetric s) := by
  unfold Config.parseMetric
  split_ifs
  · exact .ok _
  · exact .ok _
  · exact .runtimeError _

variable {y : Conversions F} {as : Node → Except String α} {key : String} {fallback : α}

theorem get (y : Conversions F) (node : Node) (key : String) : RuntimeErrorsOnly (y.get node key) := by
  cases node with
  | null => exact .ok _
  | scalar text => exact .runtimeError _
  | sequence items => exact .ok _
  | map entries => exact .ok _

theorem optional (node : Node) : RuntimeErrorsOnly (y.optional as node key fallback) := by
  refine (get y node key).bind fun found => ?_
  cases found with
  | none => exact .ok _
  | some value => exact .mapError _

theorem require (node : Node) : RuntimeErrorsOnly (y.require as node key) := by
  refine (get y node key).bind fun found => ?_
  cases found with
  | none => exact .runtimeError _
  | some value => exact .mapError _

theorem readSection {root : Node} {read : Node → Except Exn α} {absent : Except Exn α}
    (hread : ∀ node, RuntimeErrorsOnly (read node)) (habsent : RuntimeErrorsOnly absent) :
    RuntimeErrorsOnly (y.readSection root key read absent) := by
  refine (get y root key).bind fun found => ?_
  cases found with
  | none => exact habsent
  | some node => exact hread node

theorem pipeline (p : Node) : RuntimeErrorsOnly (PipelineConfig.read y p) := by
  refine (optional p).bind fun maxStreams => (optional p).bind fun batchSize => ?_
  refine (optional p).bind fun timeout => (optional p).bind fun width => (optional p).bind fun height => ?_
  exact .ok _

theorem encoding (e : Node) : RuntimeErrorsOnly (EncodingConfig.read y e) := by
  refine (require e).bind fun path => (optional e).bind fun size => ?_
  exact (optional e).bind fun dim => (optional e).bind fun batch => .ok _

theorem faiss (f : Node) : RuntimeErrorsOnly (FaissConfig.read y f) := by
  refine (optional f).bind fun name => (parseIndexType name).bind fun indexType => ?_
  refine (optional f).bind fun minSize => (optional f).bind fun nlist => (optional f).bind fun nprobe => ?_
  refine (optional f).bind fun pqM => (optional f).bind fun name => (parseMetric name).bind fun metric => ?_
  exact (optional f).bind fun gpuId => .ok _

theorem logging (l : Node) : RuntimeErrorsOnly (LoggingConfig.read y l) :=
  (optional l).bind fun _ => (optional l).bind fun _ => .ok _

section

variable [OfScientific F]

theorem detection (d : Node) : RuntimeErrorsOnly (DetectionConfig.read y d) := by
  refine (require d).bind fun path => (optional d).bind fun width => (optional d).bind fun height => ?_
  exact (optional d).bind fun confidence => (optional d).bind fun nms => .ok _

theorem recognition (r : Node) : RuntimeErrorsOnly (RecognitionConfig.read y r) := by
  refine (optional r).bind fun threshold => (optional r).bind fun margin => ?_
  exact (optional r).bind fun topK => .ok _

theorem read (root : Node) : RuntimeErrorsOnly (ConfigFile.read y root) := by
  refine (readSection pipeline (.ok _)).bind fun pipeline => ?_
  refine (readSection detection (.runtimeError _)).bind fun detection => ?_
  refine (readSection encoding (.runtimeError _)).bind fun encoding => ?_
  refine (readSection faiss (.ok _)).bind fun faiss => ?_
  refine (readSection recognition (.ok _)).bind fun recognition => ?_
  exact (readSection logging (.ok _)).bind fun logging => .ok _

end

variable [LE F] [DecidableLE F] [Zero F] [One F] [Neg F] [Sub F] [ToString F]

theorem validate (c : SystemConfig F) : RuntimeErrorsOnly c.validate := by
  refine bind ?_ fun _ => bind ?_ fun _ => bind ?_ fun _ => bind ?_ fun _ => ?_
  · refine (rejectIf _ _).bind fun _ => (rejectIf _ _).bind fun _ => ?_
    exact (rejectIf _ _).bind fun _ => rejectIf _ _
  · refine (rejectIf _ _).bind fun _ => (rejectIf _ _).bind fun _ => (rejectIf _ _).bind fun _ => ?_
    exact (rejectIf _ _).bind fun _ => (rejectIf _ _).bind fun _ => rejectIf _ _
  · refine (rejectIf _ _).bind fun _ => (rejectIf _ _).bind fun _ => ?_
    exact (rejectIf _ _).bind fun _ => rejectIf _ _
  · exact (rejectIf _ _).bind fun _ => (rejectIf _ _).bind fun _ => rejectIf _ _
  · exact (rejectIf _ _).bind fun _ => (rejectIf _ _).bind fun _ => rejectIf _ _

end RuntimeErrorsOnly

section Load

variable [OfScientific F] [LE F] [DecidableLE F] [Zero F] [One F] [Neg F] [Sub F] [ToString F]
  {y : Conversions F} {files : Files} {path : String} {c : ConfigFile F} {floatText : F → String}

theorem ConfigFile.load_ok : ConfigFile.load y files path = .ok c ↔
    files.isRegularFile path = true ∧ ∃ root, files.loadFile path = .ok root ∧ ConfigFile.read y root = .ok c ∧
      c.Valid := by
  simp only [ConfigFile.load, bind_ok, rejectIf_ok, not_not, mapError_ok, exists_const, SystemConfig.validate_ok,
    pure_ok]
  constructor
  · rintro ⟨hfile, root, hroot, out, hout, hvalid, rfl⟩
    exact ⟨hfile, root, hroot, hout, hvalid⟩
  · rintro ⟨hfile, root, hroot, hread, hvalid⟩
    exact ⟨hfile, root, hroot, c, hread, hvalid, rfl⟩

theorem RuntimeErrorsOnly.load : RuntimeErrorsOnly (ConfigFile.load y files path) := by
  refine (rejectIf _ _).bind fun _ => (mapError _).bind fun root => (read root).bind fun out => ?_
  exact (validate out.toSystemConfig).bind fun _ => .ok out

/-- **Whatever the file holds, a load returns a valid configuration or throws a `std::runtime_error`.** -/
theorem ConfigFile.load_contract (y : Conversions F) (files : Files) (path : String) :
    match ConfigFile.load y files path with
    | .ok c => c.Valid
    | .error e => ∃ what, e = .runtimeError what := by
  cases hload : ConfigFile.load y files path with
  | ok c =>
    obtain ⟨-, root, -, -, hvalid⟩ := ConfigFile.load_ok.1 hload
    exact hvalid
  | error e => exact RuntimeErrorsOnly.load e hload

/-- Decimal integers, `true` and `false`, and the decimals that the examples use. -/
def decimalConversions : Conversions ℚ where
  badSubscript key := "operator[] call on a scalar (key: \"" ++ key ++ "\")"
  asUInt32
    | .scalar text => match text.toNat? with
      | some n => if n < UInt32.size then .ok (UInt32.ofNat n) else .error "bad conversion"
      | none => .error "bad conversion"
    | _ => .error "bad conversion"
  asInt
    | .scalar text => match text.toInt? with
      | some i => if -2147483648 ≤ i ∧ i < 2147483648 then .ok i else .error "bad conversion"
      | none => .error "bad conversion"
    | _ => .error "bad conversion"
  asFloat
    | .scalar "0.5" => .ok 0.5
    | .scalar "0.4" => .ok 0.4
    | .scalar "0.45" => .ok 0.45
    | .scalar "0.04" => .ok 0.04
    | _ => .error "bad conversion"
  asBool
    | .scalar "true" => .ok true
    | .scalar "false" => .ok false
    | _ => .error "bad conversion"
  asString
    | .scalar text => .ok text
    | _ => .error "bad conversion"

def decimalText (x : ℚ) : String :=
  if x = 0.5 then "0.5" else if x = 0.4 then "0.4" else if x = 0.45 then "0.45" else "0.04"

theorem decimalConversions_inverts : decimalConversions.Inverts decimalText (defaultFloats ℚ) := by
  constructor
  · intro v
    have hread : (toString v).toNat? = some v.toNat := Nat.toNat?_repr v.toNat
    unfold decimalConversions uint32Node
    dsimp only
    rw [hread]
    dsimp only
    rw [if_pos v.toNat_lt_size, UInt32.ofNat_toNat]
  · intro i hlo hhi
    have hread : (toString i).toInt? = some i := Int.toInt?_repr i
    unfold decimalConversions intNode
    dsimp only
    rw [hread]
    dsimp only
    rw [if_pos ⟨hlo, hhi⟩]
  · intro x hx
    fin_cases hx <;> decide +kernel
  · intro b
    cases b <;> rfl
  · intro s
    rfl

/-- **A configuration that is written out loads again as it was, exactly when it is valid.** -/
theorem ConfigFile.load_document (h : y.Inverts floatText c.floats)
    (hgpu : -2 ^ 31 ≤ c.faiss.gpuId ∧ c.faiss.gpuId < 2 ^ 31) (hfile : files.isRegularFile path = true)
    (hdocument : files.loadFile path = .ok (c.document floatText)) :
    (ConfigFile.load y files path = .ok c ↔ c.Valid) ∧
      ∀ c', ConfigFile.load y files path = .ok c' → c' = c := by
  have hread := ConfigFile.read_document h hgpu
  constructor
  · rw [ConfigFile.load_ok]
    constructor
    · rintro ⟨-, root, -, -, hvalid⟩
      exact hvalid
    · intro hvalid
      exact ⟨hfile, c.document floatText, hdocument, hread, hvalid⟩
  · intro c' hload
    obtain ⟨-, root, hroot, hc', -⟩ := ConfigFile.load_ok.1 hload
    obtain rfl : c.document floatText = root := Except.ok.inj (hdocument.symm.trans hroot)
    exact Except.ok.inj (hc'.symm.trans hread)

def referenceFile : ConfigFile ℚ where
  pipeline := {}
  detection := {
    enginePath := "models/scrfd_10g_fp16.engine", confidenceThreshold := 0.5, nmsIouThreshold := 0.4 }
  encoding := { enginePath := "models/arcface_r50_fp16.engine" }
  faiss := {}
  recognition := { threshold := 0.45, marginMin := 0.04 }
  logging := {}

theorem referenceFile_valid : referenceFile.Valid where
  pipeline := ⟨by decide, by decide, by decide, by decide⟩
  detection := ⟨by decide, by decide, by decide, by decide, by decide, by decide +kernel, by decide +kernel⟩
  encoding := ⟨by decide, by decide, by decide, by decide⟩
  faiss := ⟨by decide, by decide⟩
  recognition := ⟨by decide +kernel, by decide +kernel, by decide⟩

def singleFile (path : String) (root : Node) : Files where
  isRegularFile p := p == path
  loadFile p := if p = path then .ok root else .error "bad file"

theorem singleFile_loadFile (path : String) (root : Node) : (singleFile path root).loadFile path = .ok root :=
  if_pos rfl

theorem ConfigFile.load_document_reference :
    ConfigFile.load decimalConversions
      (singleFile "configs/system_config.yaml" (referenceFile.document decimalText))
      "configs/system_config.yaml" = .ok referenceFile :=
  (ConfigFile.load_document decimalConversions_inverts ⟨by decide, by decide⟩ (by decide)
    (singleFile_loadFile _ _)).1.2 referenceFile_valid

/-- **Writing the defaults into a file changes nothing of what it loads, error or not.** The position in the file
that yaml-cpp adds to the text of its errors is no part of them here. -/
theorem ConfigFile.load_writeDefaults {files' : Files} {root : Node} (h : y.Inverts floatText (defaultFloats F))
    (hfile : files'.isRegularFile path = files.isRegularFile path) (hroot : files.loadFile path = .ok root)
    (hroot' : files'.loadFile path = .ok (writeDefaults floatText root)) :
    ConfigFile.load y files' path = ConfigFile.load y files path := by
  unfold ConfigFile.load
  rw [hfile, hroot, hroot']
  simp only [Except.mapError, ok_bind, ConfigFile.read_writeDefaults h]

/-- The smallest file that loads: two engine paths. -/
def minimalRoot : Node :=
  .map [("detection", .map [("engine_path", .scalar "models/scrfd.engine")]),
    ("encoding", .map [("engine_path", .scalar "models/arcface.engine")])]

theorem ConfigFile.load_writeDefaults_minimal :
    ConfigFile.load decimalConversions (singleFile "minimal.yaml" (writeDefaults decimalText minimalRoot))
      "minimal.yaml" =
    ConfigFile.load decimalConversions (singleFile "minimal.yaml" minimalRoot) "minimal.yaml" :=
  ConfigFile.load_writeDefaults decimalConversions_inverts rfl (singleFile_loadFile _ _) (singleFile_loadFile _ _)

end Load

end FacePipeline.Config
