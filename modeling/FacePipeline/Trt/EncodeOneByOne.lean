import FacePipeline.Trt.EncoderCopies
import Mathlib.Data.Rat.Sqrt

/-!
# Which engines encode one by one

TensorRT may compute each output row from the input row of the same position (`BatchEngine`), and the wrapper
still has to let it: only the first binding ever gets memory for a shape that is set, so that inference finds
an address for every tensor exactly when all the others are static. With such an engine the encoder answers
each crop as if it were alone, at any batch size; with any other it encodes nothing (`encodesOneByOne_iff`).
-/

namespace FacePipeline.Trt

open FacePipeline.Config Hoare Scratch

section Wrapper

variable {F : Type}

/-- An engine that runs every batch up to `batch_size` row by row, on a device where no call fails. -/
structure BatchEngine (cuda : Cuda F) (cfg : EncodingConfig) (row : List F → List F)
    (engine : CudaEngine) (input output : IOTensor) : Prop where
  head : engine.tensors.head? = some input
  find : (engine.tensors.find? fun t => !t.isInput) = some output
  outputName : output.name ≠ ""
  float : input.dtype = .float ∧ output.dtype = .float
  supported : ∀ t ∈ engine.tensors, 0 < elementSizeFor t.dtype
  accepts : ∀ b : ℕ, 1 ≤ b → b ≤ cfg.batchSize.toNat →
    engine.accepts input.name [b, 3, cfg.inputSize.toNat, cfg.inputSize.toNat] = true
  /-- The output has a row for each crop. -/
  rows : ∀ b : ℕ, 1 ≤ b → b ≤ cfg.batchSize.toNat → ∀ shapes : String → Option (List Int),
    shapes input.name = some [(b : Int), 3, cfg.inputSize.toNat, cfg.inputSize.toNat] →
    b * cfg.embeddingDim.toNat ≤ elements (engine.inferred shapes output.name)
  row_length : ∀ x, x.length = perFace cfg → (row x).length = cfg.embeddingDim.toNat
  malloc : ∀ i n, cuda.malloc i n = none
  fault : ∀ i, cuda.fault i = none
  enqueue : ∀ (e : TrtEngine) (memory : Memory F) (b p q : ℕ), 1 ≤ b → b ≤ cfg.batchSize.toNat →
    e.engine = engine → (∀ t ∈ engine.tensors, (e.context.address t.name).isSome) →
    e.context.inputShape input.name = some [(b : Int), 3, cfg.inputSize.toNat, cfg.inputSize.toNat] →
    e.context.address input.name = some p → e.context.address output.name = some q →
    ∃ memory', cuda.enqueue e memory = some memory' ∧
      readWords memory' q (b * cfg.embeddingDim.toNat) =
        ((List.range b).map fun i =>
          row (slice (perFace cfg) i (readWords memory p (b * perFace cfg)))).flatten

variable {cuda : Cuda F} {cfg : EncodingConfig} {row : List F → List F} {engine : CudaEngine}
  {input output : IOTensor}

theorem BatchEngine.tensors (h : BatchEngine cuda cfg row engine input output) :
    ∃ rest, engine.tensors = input :: rest := by
  have hhead := h.head
  cases htensors : engine.tensors with
  | nil =>
    rw [htensors] at hhead
    cases hhead
  | cons t rest =>
    rw [htensors] at hhead
    exact ⟨rest, by rw [Option.some.inj hhead]⟩

theorem BatchEngine.output_mem (h : BatchEngine cuda cfg row engine input output) {rest : List IOTensor}
    (htensors : engine.tensors = input :: rest) (hbsz : 0 < cfg.batchSize.toNat) : output ∈ rest :=
  output_mem_rest htensors (h.accepts 1 le_rfl hbsz) h.find

/-- A static output has the shape of load time, for every batch. -/
theorem BatchEngine.elements_output (h : BatchEngine cuda cfg row engine input output)
    (hpos : ∀ d ∈ output.dims, 0 < d) {b : ℕ} (hb : 1 ≤ b) (hle : b ≤ cfg.batchSize.toNat) :
    b * cfg.embeddingDim.toNat ≤ elements output.dims := by
  have hmem := List.mem_of_find?_eq_some h.find
  have hout : output.isInput = false := by simpa using List.find?_some h.find
  have hrefines := engine.refines_inferred (fun _ => some [(b : Int), 3, cfg.inputSize.toNat,
    cfg.inputSize.toNat]) output hmem hout
  rw [← hrefines.eq_of_nonneg fun d hd => (hpos d hd).le]
  exact h.rows b hb hle _ rfl

/-- The copies of the encoder fit. -/
theorem BatchEngine.encoderFits (h : BatchEngine cuda cfg row engine input output) :
    EncoderFits cfg engine := by
  intro input' rest output' htensors hfind _ b hb hle _
  obtain ⟨rest', htensors'⟩ := h.tensors
  obtain ⟨rfl, rfl⟩ := List.cons.inj (htensors'.symm.trans htensors)
  obtain rfl := Option.some.inj (h.find.symm.trans hfind)
  refine ⟨by rw [h.float.1]; rfl, fun hstatic => ?_⟩
  rw [h.float.2]
  refine Nat.mul_le_mul_right _ (h.elements_output ?_ hb hle)
  exact hstatic output (h.output_mem htensors' (hb.trans hle))

/-! ### Static outputs -/

theorem setInputShape_inputShape {malloc : Malloc} {name : String} {shape : List Int} {e e' : TrtEngine} {u : Unit}
    (h : (TrtEngine.setInputShape malloc name shape).run e = .ok u e') :
    e'.context.inputShape name = some shape := by
  obtain ⟨_, info, _, rfl⟩ := setInputShape_ok h
  exact Function.update_self name (some shape) e.context.inputShape

variable {start : ArcFaceEncoder (Device F) F}

/-- One chunk, once the input shape is set. -/
theorem BatchEngine.session_run (h : BatchEngine cuda cfg row start.engine.engine.engine input output)
    [Zero F] (hstart : Assembled cfg start) (hstatic : StaticOutputs start.engine.engine.engine)
    (hside : cfg.inputSize ≠ 0) {b : ℕ} (hb : 1 ≤ b) (hle : b ≤ cfg.batchSize.toNat) {d : Device F}
    (hkept : Kept start.engine.engine d.engine)
    (hbacked : Backed d.engine input [(b : Int), 3, cfg.inputSize.toNat, cfg.inputSize.toNat])
    (hshape : d.engine.context.inputShape input.name =
      some [(b : Int), 3, cfg.inputSize.toNat, cfg.inputSize.toNat])
    {host scratch : List F} (hhost : b * perFace cfg ≤ host.length)
    (hscratch : b * cfg.embeddingDim.toNat ≤ scratch.length) :
    ∃ d', d'.engine = d.engine ∧ ((deviceOps cuda).session input.name output.name host
        (b * perFace cfg * kFloatSize) scratch (b * cfg.embeddingDim.toNat * kFloatSize)).run d =
      .ok (((List.range b).map fun i => row (slice (perFace cfg) i host)).flatten ++
        scratch.drop (b * cfg.embeddingDim.toNat)) d' := by
  obtain ⟨rest, htensors⟩ := h.tensors
  have houtput := h.output_mem htensors (hb.trans hle)
  have hdims : ∀ t ∈ rest, ∀ d ∈ t.dims, 0 < d := by
    rw [StaticOutputs, htensors] at hstatic
    exact hstatic
  rw [Backed, if_pos (batch_pos hb hside), elements_batch, h.float.1] at hbacked
  obtain ⟨p, hbufferIn, haddressIn⟩ := hbacked
  obtain ⟨q, hbufferOut, haddressOut⟩ := hstart.buffer_rest htensors hkept houtput (hdims output houtput)
  rw [h.float.2] at hbufferOut
  have haddress := (hstart.addresses_iff htensors hkept).2 ⟨by rw [haddressIn, Option.isSome_some], hdims⟩
  have hinfer : d.engine.infer true = .ok () := by
    rw [TrtEngine.infer, if_pos ⟨haddress, rfl⟩]
  have htake : (host.take (b * perFace cfg)).length = b * perFace cfg := List.length_take_of_le hhost
  rw [hkept.engine] at haddress
  obtain ⟨memory, henqueue, hrows⟩ := h.enqueue d.engine
    (writeWords d.memory p (host.take (b * perFace cfg))) b p q hb hle hkept.engine haddress hshape haddressIn
    haddressOut
  -- inference sees the rows of the host vector
  have hread : readWords (writeWords d.memory p (host.take (b * perFace cfg))) p (b * perFace cfg) =
      host.take (b * perFace cfg) := by
    have hwords := readWords_writeWords d.memory p (host.take (b * perFace cfg))
    rwa [htake] at hwords
  have hslices : ((List.range b).map fun i =>
      row (slice (perFace cfg) i (host.take (b * perFace cfg)))) =
        (List.range b).map fun i => row (slice (perFace cfg) i host) :=
    List.map_congr_left fun i hi => by rw [slice_take (List.mem_range.1 hi)]
  rw [hread, hslices] at hrows
  have hfits : b * cfg.embeddingDim.toNat * kFloatSize ≤ elements output.dims * kFloatSize :=
    Nat.mul_le_mul_right _ (h.elements_output (hdims output houtput) hb hle)
  rw [← hrows]
  refine ⟨_, ?_, EngineOps.session_run (streamCall_ok (h.fault _))
    (copyInput_ok hbufferIn le_rfl hhost (h.fault _)) (infer_ok hinfer henqueue)
    (copyOutput_ok hbufferOut hfits hscratch (h.fault _)) (streamCall_ok (h.fault _))⟩
  rfl

/-- **The wrapper runs batches row by row**, when TensorRT does and the outputs are static. -/
theorem BatchEngine.rowWise [Zero F] (h : BatchEngine cuda cfg row start.engine.engine.engine input output)
    (hstart : Assembled cfg start) (hstatic : StaticOutputs start.engine.engine.engine)
    (hside : cfg.inputSize ≠ 0) :
    RowWise (deviceOps cuda) cfg row fun d => Kept start.engine.engine d.engine := by
  obtain ⟨rest, htensors⟩ := h.tensors
  have hsize : 0 < elementSizeFor input.dtype := by
    rw [h.float.1]
    decide
  refine ⟨h.row_length, fun b hb hle => ⟨?_, ?_⟩, fun d hkept => ?_⟩
  · have hsmall := (CudaEngine.of_accepts _ _ _ (h.accepts b hb hle)).2
    rwa [elements_batch] at hsmall
  · have houtput := h.output_mem htensors (hb.trans hle)
    have hpos : ∀ d ∈ output.dims, 0 < d := by
      rw [StaticOutputs, htensors] at hstatic
      exact hstatic output houtput
    have hsmall := CudaEngine.elements_dims _ output (List.mem_of_find?_eq_some h.find) fun d hd => (hpos d hd).le
    exact lt_of_le_of_lt (h.elements_output hpos hb hle) hsmall
  · obtain ⟨shape, hbindings⟩ := hkept.bindings
    rw [htensors, List.map_cons] at hbindings
    have hfirst := firstOutput_recorded shape start.engine.engine.engine.tensors
    rw [h.find, htensors, List.map_cons] at hfirst
    replace hfirst : firstOutput (recorded shape input :: rest.map (recorded shape)) = output.name := hfirst
    refine ⟨recorded shape input, rest.map (recorded shape), hbindings, ?_, fun b hb hle => ?_⟩
    · rw [hfirst]
      exact h.outputName
    · have hbinding : d.engine.binding input.name = .ok (recorded shape input) := by
        rw [TrtEngine.binding, hbindings, List.find?_cons_of_pos (by simp [recorded, bindingInfo])]
      have haccepts := h.accepts b hb hle
      rw [← hkept.engine] at haccepts
      obtain ⟨e₁, hset⟩ := setInputShape_run (by simp [maxDims]) haccepts hbinding h.malloc
      have hkept₁ : Kept start.engine.engine e₁ := (setInputShape_kept htensors _).returns hkept hset
      have hbacked := (setInputShape_backed htensors hsize hkept hset).2
      refine ⟨{ d with engine := e₁ }, hkept₁, onWrapper_ok hset, fun host scratch hhost hscratch => ?_⟩
      rw [hfirst]
      obtain ⟨d', hd', hrun⟩ := h.session_run hstart hstatic hside hb hle (d := { d with engine := e₁ })
        hkept₁ hbacked (setInputShape_inputShape hset) hhost hscratch
      exact ⟨d', by rwa [hd'], hrun⟩

end Wrapper

section Encoder

variable {F : Type} [NatCast F] [Zero F] [Sub F] [Div F] [OfScientific F] [LT F] [DecidableLT F] {cuda : Cuda F}
  {cfg : EncodingConfig} {row : List F → List F} {input output : IOTensor} {math : FaceMath F} {file : EngineFile}
  {e : TrtEngine} {memory : Memory F} {start enc : ArcFaceEncoder (Device F) F}

omit [Zero F] in
theorem serving_encodeBatch (math : FaceMath F) (hstart : Assembled cfg start) (hside : cfg.inputSize ≠ 0)
    (hfits : EncoderFits cfg start.engine.engine.engine) (faces : List Mat)
    (h : Serving start (Kept start.engine.engine) enc) :
    Serving start (Kept start.engine.engine)
      (stateAfter ((encodeBatch (deviceOps cuda) math faces).run enc)) := by
  have htriple : Triple _ (encodeBatch (deviceOps cuda) math faces) _ _ :=
    encodeBatch_serving math hstart hside hfits faces
  have hrun := htriple.run enc h
  cases hresult : (encodeBatch (deviceOps cuda) math faces).run enc with
  | ok es enc' =>
    rw [hresult] at hrun
    exact hrun.1
  | error stop enc' =>
    rw [hresult] at hrun
    exact hrun

/-- An encoder in use keeps what it was constructed with. -/
theorem Reached.serving (henc : Reached (deviceOps cuda) math cfg (loaded e memory) enc)
    (hnew : TrtEngine.new cuda.malloc cfg.enginePath file = .ok e)
    (hengine : BatchEngine cuda cfg row e.engine input output) (hside : cfg.inputSize ≠ 0) :
    ∃ start, Assembled cfg start ∧ start.engine.engine = e ∧ Serving start (Kept e) enc := by
  induction henc with
  | new hstart =>
    obtain ⟨hassembled, rfl⟩ := new_assembled hnew hengine.supported hstart
    exact ⟨_, hassembled, rfl, start_serving hassembled⟩
  | encodeBatch faces _ ih =>
    obtain ⟨start, hassembled, rfl, hserving⟩ := ih
    exact ⟨start, hassembled, rfl, serving_encodeBatch math hassembled hside hengine.encoderFits faces hserving⟩
  | encode face _ ih =>
    obtain ⟨start, hassembled, rfl, hserving⟩ := ih
    rw [stateAfter_encode]
    exact ⟨start, hassembled, rfl, serving_encodeBatch math hassembled hside hengine.encoderFits [face] hserving⟩

omit [Zero F] in
/-- With an output that has no memory no crop is encoded. -/
theorem not_encoded (hstart : Assembled cfg start) (hside : cfg.inputSize ≠ 0)
    (hfits : EncoderFits cfg start.engine.engine.engine) (hdynamic : ¬StaticOutputs start.engine.engine.engine)
    (h : Serving start (Kept start.engine.engine) enc) {faces : List Mat} (hne : faces ≠ []) (es : List (Embedding F)) :
    outcome ((encodeBatch (deviceOps cuda) math faces).run enc) ≠ .ok es := by
  have htriple : Triple _ (encodeBatch (deviceOps cuda) math faces) _ _ :=
    encodeBatch_serving math hstart hside hfits faces
  intro hes
  cases hresult : (encodeBatch (deviceOps cuda) math faces).run enc with
  | ok es' enc' => exact hdynamic ((htriple.returns h hresult).2 hne)
  | error stop enc' =>
    rw [hresult] at hes
    cases hes

omit [Zero F] in
theorem not_encodesOneByOne (hstart : Assembled cfg start) (hside : cfg.inputSize ≠ 0)
    (hfits : EncoderFits cfg start.engine.engine.engine) (hdynamic : ¬StaticOutputs start.engine.engine.engine)
    (h : Serving start (Kept start.engine.engine) enc) : ¬EncodesOneByOne (deviceOps cuda) math enc := by
  intro hencodes
  have hfaces : ∀ face ∈ blankFaces cfg 1, ∃ image, resized math face enc.cfg.inputSize.toNat = .ok image := by
    intro face hface
    rw [h.cfg_eq, hstart.cfg_eq, List.eq_of_mem_replicate hface, resized, if_neg (by simp)]
    exact ⟨_, rfl⟩
  obtain ⟨es, hes, _⟩ := hencodes.returns (blankFaces cfg 1) hfaces
  exact not_encoded hstart hside hfits hdynamic h (by simp [blankFaces]) es hes

theorem batchSize_pos {cfg : EncodingConfig} (hvalid : cfg.Valid) : 0 < cfg.batchSize.toNat :=
  Nat.pos_of_ne_zero fun h0 => hvalid.batchSize (UInt32.toNat_inj.1 h0)

/-- With static outputs the wrapper is an engine that runs batches row by row, between any two calls. -/
theorem Reached.ready_of_static (henc : Reached (deviceOps cuda) math cfg (loaded e memory) enc)
    (hvalid : cfg.Valid) (hnew : TrtEngine.new cuda.malloc cfg.enginePath file = .ok e)
    (hengine : BatchEngine cuda cfg row e.engine input output) (hstatic : StaticOutputs e.engine) :
    ∃ Idle, RowWise (deviceOps cuda) cfg row Idle ∧ EncoderReady cfg Idle enc := by
  obtain ⟨start, hstart, rfl, _⟩ := henc.serving hnew hengine hvalid.inputSize
  have hlaw := hengine.rowWise hstart hstatic hvalid.inputSize
  have hkept : Kept start.engine.engine (loaded start.engine.engine memory).engine := (start_serving hstart).wrapper
  exact ⟨_, hlaw, henc.ready hlaw (batchSize_pos hvalid) hkept⟩

/-- **The encoder encodes one by one exactly when every tensor of its engine after the first is static.** Two
such encoders with one configuration but for the batch size give the same answers. -/
theorem encodesOneByOne_iff (math : FaceMath F) (cuda : Cuda F) (cfg : EncodingConfig) (row : List F → List F)
    (file : EngineFile) (e : TrtEngine) (input output : IOTensor) (memory : Memory F)
    (enc : ArcFaceEncoder (Device F) F) (hvalid : cfg.validate = .ok ())
    (hnew : TrtEngine.new cuda.malloc cfg.enginePath file = .ok e)
    (hengine : BatchEngine cuda cfg row e.engine input output)
    (henc : Reached (deviceOps cuda) math cfg (loaded e memory) enc) :
    (EncodesOneByOne (deviceOps cuda) math enc ↔ StaticOutputs e.engine) ∧
      (StaticOutputs e.engine → ∀ batchSize cuda₂ file₂ e₂ input₂ output₂ memory₂ enc₂,
        { cfg with batchSize }.validate = .ok () → TrtEngine.new cuda₂.malloc cfg.enginePath file₂ = .ok e₂ →
        BatchEngine cuda₂ { cfg with batchSize } row e₂.engine input₂ output₂ → StaticOutputs e₂.engine →
        Reached (deviceOps cuda₂) math { cfg with batchSize } (loaded e₂ memory₂) enc₂ →
        ∀ faces, outcome ((encodeBatch (deviceOps cuda) math faces).run enc) =
          outcome ((encodeBatch (deviceOps cuda₂) math faces).run enc₂)) := by
  have hvalid' := EncodingConfig.validate_ok.1 hvalid
  have hstatic : StaticOutputs e.engine → ∃ Idle, RowWise (deviceOps cuda) cfg row Idle ∧ EncoderReady cfg Idle enc :=
    henc.ready_of_static hvalid' hnew hengine
  have hbsz := batchSize_pos hvalid'
  refine ⟨⟨fun hencodes => ?_, fun houtputs => ?_⟩, ?_⟩
  · obtain ⟨start, hstart, rfl, hserving⟩ := henc.serving hnew hengine hvalid'.inputSize
    by_contra hdynamic
    exact not_encodesOneByOne hstart hvalid'.inputSize hengine.encoderFits hdynamic hserving hencodes
  · obtain ⟨Idle, hlaw, hready⟩ := hstatic houtputs
    exact encodesOneByOne_of_ready math hlaw hbsz hready
  · intro houtputs batchSize cuda₂ file₂ e₂ input₂ output₂ memory₂ enc₂ hvalid₂ hnew₂ hengine₂ houtputs₂ henc₂ faces
    have hvalid₂' := EncodingConfig.validate_ok.1 hvalid₂
    obtain ⟨Idle, hlaw, hready⟩ := hstatic houtputs
    obtain ⟨Idle₂, hlaw₂, hready₂⟩ := henc₂.ready_of_static hvalid₂' hnew₂ hengine₂ houtputs₂
    rw [outcome_encodeBatch math hlaw hbsz faces hready,
      outcome_encodeBatch math hlaw₂ (batchSize_pos hvalid₂') faces hready₂]

end Encoder

/-! ### Two engines -/

/-- A device where no call fails, and inference runs row by row. -/
def batchCuda (input output : String) (per : ℕ) (row : List ℚ → List ℚ) : Cuda ℚ where
  malloc _ _ := none
  fault _ := none
  enqueue e memory := do
    let p ← e.context.address input
    let q ← e.context.address output
    let b := (((e.context.inputShape input).getD []).headD 0).toNat
    return writeWords memory q ((List.range b).map fun i =>
      row (slice per i (readWords memory p (b * per)))).flatten

theorem batchCuda_enqueue {input output : String} {per width : ℕ} {row : List ℚ → List ℚ}
    (hwidth : ∀ x, (row x).length = width) {e : TrtEngine} (memory : Memory ℚ) {b p q : ℕ} {dims : List Int}
    (hshape : e.context.inputShape input = some ((b : Int) :: dims)) (hp : e.context.address input = some p)
    (hq : e.context.address output = some q) :
    ∃ memory', (batchCuda input output per row).enqueue e memory = some memory' ∧
      readWords memory' q (b * width) =
        ((List.range b).map fun i => row (slice per i (readWords memory p (b * per)))).flatten := by
  have hrows : ∀ r ∈ (List.range b).map fun i => row (slice per i (readWords memory p (b * per))),
      r.length = width := by
    intro r hr
    obtain ⟨i, _, rfl⟩ := List.mem_map.1 hr
    exact hwidth _
  have hread := readWords_writeWords memory q
    ((List.range b).map fun i => row (slice per i (readWords memory p (b * per)))).flatten
  rw [length_flatten_rows hrows, List.length_map, List.length_range] at hread
  refine ⟨_, ?_, hread⟩
  simp only [batchCuda, hshape, hp, hq]
  rfl

/-- Batches of up to four one-pixel crops, two floats out for each. -/
def rowsEngine : CudaEngine where
  tensors := [⟨"input.1", [-1, 3, 1, 1], .float, true⟩, ⟨"683", [4, 2], .float, false⟩]
  nodup := by decide
  elements_dims := by decide
  accepts name shape := name = "input.1" && (List.range 4).any fun n => shape = [(n : Int) + 1, 3, 1, 1]
  of_accepts := by
    intro name shape h
    simp only [Bool.and_eq_true, decide_eq_true_eq, List.any_eq_true, List.mem_range] at h
    obtain ⟨rfl, n, hn, rfl⟩ := h
    refine ⟨⟨_, List.mem_cons_self, rfl, rfl, refines_succ n (by decide)⟩, ?_⟩
    rw [elements_succ]
    calc (n + 1) * elements [3, 1, 1] ≤ 4 * elements [3, 1, 1] := Nat.mul_le_mul_right _ hn
      _ < 2 ^ 31 := by decide
  inferred _ _ := [4, 2]
  refines_inferred := by
    intro shapes t ht hout
    simp at ht
    rcases ht with rfl | rfl
    · cases hout
    · simp [Refines]

/-- The differences of the planes. -/
def planeDifferences (x : List ℚ) : List ℚ :=
  [x.getD 0 0 - x.getD 1 0, x.getD 1 0 - x.getD 2 0]

theorem length_planeDifferences (x : List ℚ) : (planeDifferences x).length = 2 := rfl

def rowsConfig (batchSize : UInt32) : EncodingConfig :=
  { enginePath := "arcface.engine", inputSize := 1, embeddingDim := 2, batchSize }

/-- A resize that samples, and a norm that is exact where it is rational. -/
def ratMath : FaceMath ℚ where
  resize image side :=
    if image.rows = 0 ∨ image.cols = 0 ∨ side ≤ 0 then .error (.other "!ssize.empty()")
    else .ok ⟨side.toNat, side.toNat, fun y x =>
      image.pixel (y * image.rows / side.toNat) (x * image.cols / side.toNat)⟩
  norm v := Rat.sqrt (v.map fun x => x * x).sum
  resize_size := by
    intro image side out h
    split_ifs at h
    obtain rfl := Except.ok.inj h
    refine ⟨?_, ?_⟩ <;> show ((side.toNat : ℕ) : Int) = side <;> omega

theorem rowsEngine_batch {batchSize : UInt32} (hle : batchSize.toNat ≤ 4) :
    BatchEngine (batchCuda "input.1" "683" 3 planeDifferences) (rowsConfig batchSize) planeDifferences rowsEngine
      ⟨"input.1", [-1, 3, 1, 1], .float, true⟩ ⟨"683", [4, 2], .float, false⟩ where
  head := rfl
  find := rfl
  outputName := by decide
  float := ⟨rfl, rfl⟩
  supported := by decide
  accepts b hb hle' := by
    have hb4 : b ≤ 4 := le_trans hle' hle
    have hcast : (((b - 1 : ℕ) : Int) + 1) = b := by omega
    simp only [rowsEngine, Bool.and_eq_true, decide_eq_true_eq, List.any_eq_true, List.mem_range]
    refine ⟨trivial, b - 1, by omega, ?_⟩
    rw [hcast]
    rfl
  rows b _ hle' _ _ := by
    have hb4 : b ≤ 4 := le_trans hle' hle
    show b * 2 ≤ 8
    omega
  row_length x _ := length_planeDifferences x
  malloc _ _ := rfl
  fault _ := rfl
  enqueue e memory b p q _ _ _ _ hshape hp hq := by
    have hper : perFace (rowsConfig batchSize) = 3 := rfl
    have hwidth : (rowsConfig batchSize).embeddingDim.toNat = 2 := rfl
    rw [hper, hwidth]
    exact batchCuda_enqueue length_planeDifferences memory hshape hp hq

/-- Batches of two and of three on the same engine. -/
theorem encodesOneByOne_iff_rows : ∃ e enc,
    TrtEngine.new (fun _ _ => none) "arcface.engine" (engineFile rowsEngine) = .ok e ∧
    Reached (deviceOps (batchCuda "input.1" "683" 3 planeDifferences)) ratMath (rowsConfig 2)
      (loaded e fun _ _ => 0) enc ∧
    EncodesOneByOne (deviceOps (batchCuda "input.1" "683" 3 planeDifferences)) ratMath enc ∧
    ∀ enc₃, Reached (deviceOps (batchCuda "input.1" "683" 3 planeDifferences)) ratMath (rowsConfig 3)
      (loaded e fun _ _ => 0) enc₃ → ∀ faces,
        outcome ((encodeBatch (deviceOps (batchCuda "input.1" "683" 3 planeDifferences)) ratMath faces).run enc) =
          outcome ((encodeBatch (deviceOps (batchCuda "input.1" "683" 3 planeDifferences)) ratMath faces).run enc₃) := by
  obtain ⟨e, hnew, hengine⟩ : ∃ e, TrtEngine.new (fun _ _ => none) "arcface.engine"
      (engineFile rowsEngine) = .ok e ∧ e.engine = rowsEngine := ⟨_, rfl, rfl⟩
  obtain ⟨enc, henc⟩ : ∃ enc : ArcFaceEncoder (Device ℚ) ℚ,
      ArcFaceEncoder.new (rowsConfig 2) (loaded e fun _ _ => 0) = .ok enc := ⟨_, rfl⟩
  have hbatch : ∀ batchSize : UInt32, batchSize.toNat ≤ 4 →
      BatchEngine (batchCuda "input.1" "683" 3 planeDifferences) (rowsConfig batchSize) planeDifferences e.engine
        ⟨"input.1", [-1, 3, 1, 1], .float, true⟩ ⟨"683", [4, 2], .float, false⟩ := by
    intro batchSize hle
    rw [hengine]
    exact rowsEngine_batch hle
  have hstatic : StaticOutputs e.engine := by
    rw [hengine]
    decide
  obtain ⟨hone, hsame⟩ := encodesOneByOne_iff ratMath (batchCuda "input.1" "683" 3 planeDifferences) (rowsConfig 2)
    planeDifferences (engineFile rowsEngine) e _ _ (fun _ _ => 0) enc (by decide) hnew (hbatch 2 (by decide))
    (.new henc)
  exact ⟨e, enc, hnew, .new henc, hone.2 hstatic, fun enc₃ henc₃ => hsame hstatic 3 _ _ e _ _ _ enc₃ (by decide)
    hnew (hbatch 3 (by decide)) hstatic henc₃⟩

def arcFaceConfig : EncodingConfig :=
  { enginePath := "arcface.engine" }

/-- The first 512 values of a face. -/
def firstValues (x : List ℚ) : List ℚ :=
  (List.range 512).map fun j => x.getD j 0

theorem length_firstValues (x : List ℚ) : (firstValues x).length = 512 := by
  rw [firstValues, List.length_map, List.length_range]

theorem arcFaceEngine_batch :
    BatchEngine (batchCuda "input.1" "683" 37632 firstValues) arcFaceConfig firstValues arcFaceEngine
      ⟨"input.1", [-1, 3, 112, 112], .float, true⟩ ⟨"683", [-1, 512], .float, false⟩ where
  head := rfl
  find := rfl
  outputName := by decide
  float := ⟨rfl, rfl⟩
  supported := by decide
  accepts b hb hle := by
    have hb32 : b ≤ 32 := hle
    have hcast : (((b - 1 : ℕ) : Int) + 1) = b := by omega
    simp only [arcFaceEngine, Bool.and_eq_true, decide_eq_true_eq, List.any_eq_true, List.mem_range]
    refine ⟨trivial, b - 1, by omega, ?_⟩
    rw [hcast]
    rfl
  rows b _ _ shapes hshapes := by
    have hshapes : shapes "input.1" = some [(b : Int), 3, 112, 112] := hshapes
    show b * 512 ≤ elements [(((shapes "input.1").getD []).headD 0).natAbs, 512]
    rw [hshapes]
    simp [elements]
  row_length x _ := length_firstValues x
  malloc _ _ := rfl
  fault _ := rfl
  enqueue e memory b p q _ _ _ _ hshape hp hq := by
    have hper : perFace arcFaceConfig = 37632 := by decide
    have hwidth : arcFaceConfig.embeddingDim.toNat = 512 := by decide
    rw [hper, hwidth]
    exact batchCuda_enqueue length_firstValues memory hshape hp hq

/-- A batch in and a batch out: the embeddings never get memory, and no crop is encoded. -/
theorem not_encodesOneByOne_arcFace : ∃ e enc, arcFaceConfig.validate = .ok () ∧
    TrtEngine.new (fun _ _ => none) arcFaceConfig.enginePath (engineFile arcFaceEngine) = .ok e ∧
    BatchEngine (batchCuda "input.1" "683" 37632 firstValues) arcFaceConfig firstValues e.engine
      ⟨"input.1", [-1, 3, 112, 112], .float, true⟩ ⟨"683", [-1, 512], .float, false⟩ ∧
    ArcFaceEncoder.new arcFaceConfig (loaded e fun _ _ => 0) = .ok enc ∧
    (∀ faces ≠ [], ∀ es, outcome ((encodeBatch (deviceOps (batchCuda "input.1" "683" 37632 firstValues)) ratMath
      faces).run enc) ≠ .ok es) ∧
    ¬EncodesOneByOne (deviceOps (batchCuda "input.1" "683" 37632 firstValues)) ratMath enc := by
  obtain ⟨e, hnew, hengine⟩ : ∃ e, TrtEngine.new (fun _ _ => none) arcFaceConfig.enginePath
      (engineFile arcFaceEngine) = .ok e ∧ e.engine = arcFaceEngine := ⟨_, rfl, rfl⟩
  obtain ⟨enc, henc⟩ : ∃ enc : ArcFaceEncoder (Device ℚ) ℚ,
      ArcFaceEncoder.new arcFaceConfig (loaded e fun _ _ => 0) = .ok enc :=
    ⟨_, bind_ok.2 ⟨_, if_pos (by decide), bind_ok.2 ⟨_, if_pos (by decide), rfl⟩⟩⟩
  have hbatch : BatchEngine (batchCuda "input.1" "683" 37632 firstValues) arcFaceConfig firstValues e.engine
      ⟨"input.1", [-1, 3, 112, 112], .float, true⟩ ⟨"683", [-1, 512], .float, false⟩ := by
    rw [hengine]
    exact arcFaceEngine_batch
  obtain ⟨hstart, rfl⟩ := new_assembled hnew hbatch.supported henc
  have hdynamic : ¬StaticOutputs enc.engine.engine.engine := by
    rw [hengine]
    decide
  exact ⟨_, enc, by decide, hnew, hbatch, henc, fun faces hne es => not_encoded hstart (by decide) hbatch.encoderFits
    hdynamic (start_serving hstart) hne es, not_encodesOneByOne hstart (by decide) hbatch.encoderFits hdynamic
    (start_serving hstart)⟩

end FacePipeline.Trt
