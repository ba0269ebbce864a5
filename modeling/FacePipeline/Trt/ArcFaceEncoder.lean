import FacePipeline.Config.SystemConfig
import FacePipeline.Trt.Preprocess
import FacePipeline.Trt.TrtEngine

/-!
# The encoder

`encode_batch` cuts the crops into chunks of at most `batch_size`, and `encode_chunk_` sends each chunk
through the engine: one row of `input_scratch_` for every crop, one copy in, one inference, one copy out
into `output_scratch_`, one row of it for every embedding. The two scratch buffers are members, so a
chunk starts with what earlier chunks have left in them.

The engine is a parameter (`EngineOps`): what its member functions do to a state of the engine and its
device memory. So are `cv::resize` and Eigen's `norm`.
-/

namespace FacePipeline.Trt

open FacePipeline.Config Scratch

/-- The member functions of `TrtEngine`, and the calls on a CUDA stream, as functions of a state `σ`. A
copy gets the whole host vector it is called with, and the number of bytes. -/
structure EngineOps (σ F : Type) where
  bindings : σ → List BindingInfo
  setInputShape : String → List Int → EStateM Stop σ Unit
  createStream : EStateM Stop σ Unit
  copyInput : String → List F → ℕ → EStateM Stop σ Unit
  infer : EStateM Stop σ Unit
  copyOutput : String → List F → ℕ → EStateM Stop σ (List F)
  synchronize : EStateM Stop σ Unit

/-- `sizeof(float)`. -/
def kFloatSize : ℕ := 4

/-- A result of `std::int64_t` arithmetic. -/
def int64 (n : Int) : Except Stop Int :=
  if -2 ^ 63 ≤ n ∧ n < 2 ^ 63 then .ok n else .error (.undefined "signed integer overflow")

/-- `std::vector<float>::resize` of an empty vector. -/
def resizeFloats {F : Type} [Zero F] (n : ℕ) : Except Stop (List F) :=
  if n < 2 ^ 61 then .ok (List.replicate n 0)
  else .error (.throws (.other "vector::_M_default_append"))

/-- The parameters outside the repository: `cv::resize` to a square, and `Eigen`'s norm. -/
structure FaceMath (F : Type) where
  resize : Mat → Int → Except Exn Mat
  norm : Embedding F → F
  resize_size : ∀ image side out, resize image side = .ok out → out.rows = side ∧ out.cols = side

structure ArcFaceEncoder (σ F : Type) where
  cfg : EncodingConfig
  engine : σ
  inputScratch : List F
  outputScratch : List F

/-- A member function of the encoder. -/
abbrev EncoderM (σ F : Type) := EStateM Stop (ArcFaceEncoder σ F)

section Model

variable {σ F : Type} [NatCast F] [Zero F] [Sub F] [Div F] [OfScientific F] [LT F] [DecidableLT F]

/-- The face, at the size of the network's input. -/
def resized (math : FaceMath F) (bgr : Mat) (inputSize : Int) : Except Exn Mat :=
  if bgr.cols ≠ inputSize ∨ bgr.rows ≠ inputSize then math.resize bgr inputSize else .ok bgr

def preprocessFace (math : FaceMath F) (bgr : Mat) (inputSize : Int) (offset : ℕ) (dst : List F) :
    Except Stop (List F) := do
  let image ← (resized math bgr inputSize).mapError .throws
  writeChw writeAt 127.5 127.5 image inputSize inputSize offset dst

def l2Normalize (math : FaceMath F) (v : Embedding F) : Embedding F :=
  let norm := math.norm v
  if 1e-12 < norm then v.map (· / norm) else v

/-- The constructor, once the engine is loaded. -/
def ArcFaceEncoder.new (cfg : EncodingConfig) (engine : σ) : Except Stop (ArcFaceEncoder σ F) := do
  let inputScratch ← resizeFloats (sizeT (sizeT (sizeT (cfg.batchSize.toNat * 3) *
    cfg.inputSize.toNat) * cfg.inputSize.toNat))
  let outputScratch ← resizeFloats (sizeT (cfg.batchSize.toNat * cfg.embeddingDim.toNat))
  return { cfg, engine, inputScratch, outputScratch }

/-- A step that ends the call when it fails. -/
def attempt {α : Type} (x : Except Stop α) : EncoderM σ F α :=
  match x with
  | .ok a => return a
  | .error stop => throw stop

/-- A call on the engine. -/
def onEngine {α : Type} (x : EStateM Stop σ α) : EncoderM σ F α := fun enc =>
  match x.run enc.engine with
  | .ok a engine => .ok a { enc with engine }
  | .error stop engine => .error stop { enc with engine }

/-- The first loop of `encode_chunk_`: a row of `input_scratch_` for every crop. -/
def fillInput (math : FaceMath F) (side : Int) (perFace : ℕ) : ℕ → List Mat → EncoderM σ F Unit
  | _, [] => return ()
  | i, crop :: crops => do
      let enc ← get
      let inputScratch ← attempt (preprocessFace math crop side (i * perFace) enc.inputScratch)
      modify fun enc => { enc with inputScratch }
      fillInput math side perFace (i + 1) crops

/-- `memcpy` of row `i`, of `emb` floats. -/
def readRow (emb i : ℕ) (scratch : List F) : Except Stop (List F) :=
  if (i + 1) * emb ≤ scratch.length then .ok (slice emb i scratch)
  else .error (.undefined "read past the end of an array")

/-- The last loop of `encode_chunk_`. -/
def readOutput (math : FaceMath F) (emb : ℕ) (scratch : List F) (n : ℕ) :
    Except Stop (List (Embedding F)) :=
  (List.range n).mapM fun i => return l2Normalize math (← readRow emb i scratch)

/-- The name of the first output, empty when there is none. -/
def firstOutput (bindings : List BindingInfo) : String :=
  match bindings.find? fun b => !b.isInput with
  | some b => b.name
  | none => ""

/-- From the first crop's row to the last copy: what happens once the input shape is set. -/
def runChunk (ops : EngineOps σ F) (math : FaceMath F) (inputName outputName : String) (side : Int)
    (emb : ℕ) (chunk : List Mat) : EncoderM σ F (List (Embedding F)) := do
  let perFace ← attempt (int64 (3 * side) >>= fun n => int64 (n * side))
  fillInput math (castInt side) perFace.toNat 0 chunk
  onEngine ops.createStream
  let enc ← get
  onEngine (ops.copyInput inputName enc.inputScratch
    (sizeT (sizeT (chunk.length * perFace.toNat) * kFloatSize)))
  onEngine ops.infer
  let outputScratch ← onEngine (ops.copyOutput outputName enc.outputScratch
    (sizeT (sizeT (chunk.length * emb) * kFloatSize)))
  modify fun enc => { enc with outputScratch }
  onEngine ops.synchronize
  attempt (readOutput math emb outputScratch chunk.length)

/-- `encode_chunk_`, with the embeddings it appends to `out`. -/
def encodeChunk (ops : EngineOps σ F) (math : FaceMath F) (chunk : List Mat)
    (out : List (Embedding F)) : EncoderM σ F (List (Embedding F)) := do
  if chunk.isEmpty then
    return out
  let enc ← get
  let side : Int := enc.cfg.inputSize.toNat
  match ops.bindings enc.engine with
  | [] => throw (.undefined "front() of an empty vector")
  | input :: others =>
      let outputName := firstOutput (input :: others)
      if outputName = "" then
        throw (.throws (.runtimeError "ArcFace engine has no output binding"))
      onEngine (ops.setInputShape input.name [chunk.length, 3, side, side])
      let embeddings ← runChunk ops math input.name outputName side enc.cfg.embeddingDim.toNat chunk
      return out ++ embeddings

/-- The loop of `encode_batch`, from position `i` on. With a batch size of zero it would not end. -/
def encodeFrom (ops : EngineOps σ F) (math : FaceMath F) (faces : List Mat) (bsz i : ℕ)
    (results : List (Embedding F)) : EncoderM σ F (List (Embedding F)) :=
  if i < faces.length then
    if _ : 0 < bsz then do
      let stop := min (i + bsz) faces.length
      let results ← encodeChunk ops math ((faces.drop i).take (stop - i)) results
      encodeFrom ops math faces bsz (i + bsz) results
    else throw (.undefined "endless loop")
  else return results
termination_by faces.length - i

def encodeBatch (ops : EngineOps σ F) (math : FaceMath F) (faces : List Mat) :
    EncoderM σ F (List (Embedding F)) := do
  let enc ← get
  encodeFrom ops math faces enc.cfg.batchSize.toNat 0 []

def encode (ops : EngineOps σ F) (math : FaceMath F) (face : Mat) : EncoderM σ F (Embedding F) := do
  match ← encodeBatch ops math [face] with
  | [] => throw (.throws (.runtimeError "ArcFaceEncoder::encode produced no output"))
  | e :: _ => return e

end Model

end FacePipeline.Trt
