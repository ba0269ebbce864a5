import FacePipeline.Lib.Hoare
import FacePipeline.Trt.ArcFaceEncoder
import FacePipeline.Trt.Letterbox
import FacePipeline.Trt.ScrfdDetector

/-!
# Detection on an engine

`detect_batch` letterboxes each image into `input_scratch_`, copies it in, infers, and copies the three outputs of
every complete stride out before it decodes them. The engine is a parameter, as it is for the encoder.
-/

namespace FacePipeline.Trt

open Hoare

/-- The members of the detector that a call changes. -/
structure DetectorState (σ F : Type) where
  engine : σ
  inputScratch : List F

/-- A member function of the detector. -/
abbrev DetectorM (σ F : Type) := EStateM Stop (DetectorState σ F)

namespace SCRFDDetector

section Model

variable {σ F : Type}

/-- A step that ends the call when it fails. -/
def attempt {α : Type} (x : Except Stop α) : DetectorM σ F α :=
  match x with
  | .ok a => return a
  | .error stop => throw stop

/-- A call on the engine. -/
def onEngine {α : Type} (x : EStateM Stop σ α) : DetectorM σ F α :=
  focus (·.engine) (fun engine state => { state with engine }) id x

/-- `std::vector<float>(n)`. -/
def newFloats [Zero F] (n : ℕ) : Except Stop (List F) :=
  if n < 2 ^ 61 then .ok (List.replicate n 0)
  else .error (.throws (.other "cannot create std::vector larger than max_size()"))

/-- `engine_->binding(name)`. -/
def lookup (ops : EngineOps σ F) (name : String) : DetectorM σ F BindingInfo := do
  let state ← get
  match (ops.bindings state.engine).find? fun b => b.name = name with
  | some b => return b
  | none => throw (.throws (.outOfRange ("no such binding: " ++ name)))

/-- `engine_->copy_output` of a whole vector. -/
def copyWhole (ops : EngineOps σ F) (name : String) (host : List F) : DetectorM σ F (List F) :=
  onEngine (ops.copyOutput name host (sizeT (host.length * kFloatSize)))

variable [Field F] [LinearOrder F] [FloorRing F]

/-- One entry of `stride_bindings_`, for one image. -/
def detectStride (ops : EngineOps σ F) (det : SCRFDDetector F) (lb : LetterboxResult F)
    (raw : List (FaceDetection F)) (entry : Int × StrideBindings) :
    DetectorM σ F (List (FaceDetection F)) := do
  let (stride, names) := entry
  if names.score = "" ∨ names.bbox = "" ∨ names.kps = "" then
    return raw
  let sb ← lookup ops names.score
  let scores ← attempt (newFloats sb.volume)
  let bb ← lookup ops names.bbox
  let bboxes ← attempt (newFloats bb.volume)
  let kb ← lookup ops names.kps
  let kps ← attempt (newFloats kb.volume)
  let scores ← copyWhole ops names.score scores
  let bboxes ← copyWhole ops names.bbox bboxes
  let kps ← copyWhole ops names.kps kps
  onEngine ops.synchronize
  attempt (decodeStride stride (castInt det.cfg.inputWidth.toNat) (castInt det.cfg.inputHeight.toNat)
    kAnchorsPerLocation scores bboxes kps det.cfg.confidenceThreshold lb.scale lb.padX lb.padY raw)

/-- The body of the loop over the images. -/
def detectImage (ops : EngineOps σ F) (cv : Resizer) (sort : ScoreSort F) (det : SCRFDDetector F)
    (src : Image) : DetectorM σ F (List (FaceDetection F)) := do
  let lb ← attempt (letterbox cv src (castInt det.cfg.inputWidth.toNat)
    (castInt det.cfg.inputHeight.toNat))
  let state ← get
  let inputScratch ← attempt (hwcBgrToChwRgbNormalized lb.image state.inputScratch)
  modify fun state => { state with inputScratch }
  onEngine (ops.copyInput det.inputName inputScratch (sizeT (inputScratch.length * kFloatSize)))
  onEngine ops.infer
  let raw ← det.strideBindings.entries.foldlM (detectStride ops det lb) []
  return nms sort raw det.cfg.nmsIouThreshold

def detectBatch (ops : EngineOps σ F) (cv : Resizer) (sort : ScoreSort F) (det : SCRFDDetector F)
    (images : List Image) : DetectorM σ F (List (List (FaceDetection F))) := do
  onEngine ops.createStream
  images.mapM (detectImage ops cv sort det)

end Model

end SCRFDDetector

end FacePipeline.Trt
