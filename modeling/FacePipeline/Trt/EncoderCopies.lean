import FacePipeline.Trt.DetectorCopies
import FacePipeline.Trt.OneByOne

/-!
# The copies of the encoder

Only `set_input_shape` changes the wrapper, and only for the first binding. Whatever a call of it comes to,
even when memory runs out between freeing the old buffer and allocating the new one, the other bindings
keep the buffers and the addresses of load time (`Kept`). A chunk that the engine accepts then has an input
buffer of its own size in the engine's elements, and an output buffer that does not depend on the chunk; and
a chunk that returns has found an address for every tensor, so that all after the first are static.
-/

namespace FacePipeline.Trt

open FacePipeline.Config Hoare

section Reshaping

/-- The wrapper `e` after calls of `set_input_shape` for its first binding. -/
structure Kept (e e' : TrtEngine) : Prop where
  engine : e'.engine = e.engine
  bindings : ∃ shape, e'.bindings = e.engine.tensors.map (recorded shape)
  rest : ∀ t ∈ e.engine.tensors.tail, e'.deviceBuffers t.name = e.deviceBuffers t.name ∧
    e'.context.address t.name = e.context.address t.name

variable {e : TrtEngine} {input : IOTensor} {rest : List IOTensor} {malloc : Malloc}

theorem name_ne_of_tail (htensors : e.engine.tensors = input :: rest) {t : IOTensor}
    (ht : t ∈ e.engine.tensors.tail) : t.name ≠ input.name := by
  have hnodup := e.engine.nodup
  rw [htensors, List.map_cons, List.nodup_cons] at hnodup
  rw [htensors] at ht
  intro heq
  exact hnodup.1 (heq ▸ List.mem_map_of_mem ht)

theorem resetBuffer_kept (htensors : e.engine.tensors = input :: rest) (bytes : ℕ) :
    Triple (Kept e) (resetBuffer malloc input.name bytes) (fun _ => Kept e) (Kept e) := by
  refine ⟨fun e₀ h => ?_⟩
  have hother : ∀ (buffer : DeviceBuffer), ∀ t ∈ e.engine.tensors.tail,
      Function.update e₀.deviceBuffers input.name (some buffer) t.name = e.deviceBuffers t.name ∧
        e₀.context.address t.name = e.context.address t.name := fun buffer t ht => by
    rw [Function.update_of_ne (name_ne_of_tail htensors ht)]
    exact h.rest t ht
  rw [resetBuffer_run]
  cases (if 0 < bytes then malloc e₀.allocs bytes else none) with
  | some err => exact ⟨h.engine, h.bindings, hother _⟩
  | none => exact ⟨h.engine, h.bindings, hother _⟩

theorem registerAddress_kept (htensors : e.engine.tensors = input :: rest) :
    Triple (Kept e) (registerAddress input.name) (fun _ => Kept e) (Kept e) := by
  refine Triple.modify fun e₀ h => ⟨h.engine, h.bindings, fun t ht => ⟨(h.rest t ht).1, ?_⟩⟩
  show Function.update e₀.context.address input.name _ t.name = _
  rw [Function.update_of_ne (name_ne_of_tail htensors ht)]
  exact (h.rest t ht).2

/-- A call for the first binding leaves the others alone, even when it fails. -/
theorem setInputShape_kept (htensors : e.engine.tensors = input :: rest) (s : List Int) :
    Triple (Kept e) (TrtEngine.setInputShape malloc input.name s) (fun _ => Kept e) (Kept e) := by
  rw [TrtEngine.setInputShape]
  split_ifs
  · exact Triple.throw_bind fun _ h => h
  · refine Triple.get_bind fun e₀ h₀ => ?_
    split_ifs
    · exact Triple.throw_bind fun _ h => h
    · refine Triple.bind (Q := fun _ => Kept e) (Triple.modify fun _ h => ⟨h.engine, h.bindings, h.rest⟩)
        fun _ => ?_
      cases e₀.binding input.name with
      | error err => exact Triple.throw fun _ h => h
      | ok info =>
        refine Triple.bind (Q := fun _ => Kept e) (Triple.modify fun e₁ h => ?_) fun _ =>
          (resetBuffer_kept htensors _).bind fun _ => registerAddress_kept htensors
        obtain ⟨shape, hbindings⟩ := h.bindings
        refine ⟨h.engine, ⟨fun t => if input.name = t.name then s else shape t, ?_⟩, h.rest⟩
        show TrtEngine.recordShape input.name s e₁.bindings = _
        rw [hbindings, recordShape_map e.engine.nodup]

/-- A call that returns was accepted, and has allocated the bytes of the shape. -/
theorem setInputShape_backed (htensors : e.engine.tensors = input :: rest)
    (hsize : 0 < elementSizeFor input.dtype) {s : List Int} {e₀ e₁ : TrtEngine} {u : Unit}
    (h : Kept e e₀) (hrun : (TrtEngine.setInputShape malloc input.name s).run e₀ = .ok u e₁) :
    e.engine.accepts input.name s = true ∧ Backed e₁ input s := by
  obtain ⟨haccepts, info, hinfo, rfl⟩ := setInputShape_ok hrun
  obtain ⟨shape, hbindings⟩ := h.bindings
  rw [h.engine] at haccepts
  rw [← h.engine] at hbindings
  have hmem : input ∈ e₀.engine.tensors := by
    rw [h.engine, htensors]
    exact List.mem_cons_self
  rw [binding_elementSize hbindings hmem hinfo]
  exact ⟨haccepts, allocated_backed (fun _ => (e.engine.of_accepts _ _ haccepts).2) hsize⟩

/-- Where a batch is accepted, the first tensor is an input, so that an output comes after it. -/
theorem output_mem_rest {engine : CudaEngine} (htensors : engine.tensors = input :: rest)
    {s : List Int} (haccepts : engine.accepts input.name s = true) {output : IOTensor}
    (hfind : (engine.tensors.find? fun t => !t.isInput) = some output) : output ∈ rest := by
  obtain ⟨⟨t, ht, hname, hinput, _⟩, _⟩ := engine.of_accepts _ _ haccepts
  have hmem : input ∈ engine.tensors := by
    rw [htensors]
    exact List.mem_cons_self
  obtain rfl := List.inj_on_of_nodup_map engine.nodup ht hmem hname
  have houtput := List.mem_of_find?_eq_some hfind
  rw [htensors] at houtput
  refine (List.mem_cons.1 houtput).resolve_left fun heq => ?_
  have hout := List.find?_some hfind
  simp only [heq, hinput] at hout
  cases hout

theorem firstOutput_recorded (shape : IOTensor → List Int) (ts : List IOTensor) :
    firstOutput (ts.map (recorded shape)) =
      ((ts.find? fun t => !t.isInput).map (·.name)).getD "" := by
  have hinput : ((fun b : BindingInfo => !b.isInput) ∘ recorded shape) = fun t => !t.isInput := rfl
  rw [firstOutput, List.find?_map, hinput]
  cases ts.find? fun t => !t.isInput with
  | none => rfl
  | some t => rfl

/-- The encoder goes on with an output of the engine that has a name. -/
theorem firstOutput_cases (shape : IOTensor → List Int) (ts : List IOTensor) :
    firstOutput (ts.map (recorded shape)) = "" ∨
      ∃ output, (ts.find? fun t => !t.isInput) = some output ∧ output.name ≠ "" ∧
        firstOutput (ts.map (recorded shape)) = output.name := by
  rw [firstOutput_recorded]
  cases ts.find? fun t => !t.isInput with
  | none => exact .inl rfl
  | some output =>
    by_cases hname : output.name = ""
    · exact .inl hname
    · exact .inr ⟨output, rfl, hname, rfl⟩

end Reshaping

/-! ### The condition -/

theorem elements_batch (cfg : EncodingConfig) (b : ℕ) :
    elements [(b : Int), 3, cfg.inputSize.toNat, cfg.inputSize.toNat] = b * perFace cfg := by
  simp [elements, perFace]

theorem batch_pos {cfg : EncodingConfig} {b : ℕ} (hb : 1 ≤ b) (hside : cfg.inputSize ≠ 0) :
    ∀ d ∈ [(b : Int), 3, cfg.inputSize.toNat, cfg.inputSize.toNat], 0 < d := by
  have hpos : 0 < cfg.inputSize.toNat :=
    Nat.pos_of_ne_zero fun h0 => hside (UInt32.toNat_inj.1 h0)
  intro d hd
  simp only [List.mem_cons, List.not_mem_nil, or_false] at hd
  omega

/-- Every tensor after the first has memory from load time on. -/
def StaticOutputs (engine : CudaEngine) : Prop :=
  ∀ t ∈ engine.tensors.tail, ∀ d ∈ t.dims, 0 < d

instance (engine : CudaEngine) : Decidable (StaticOutputs engine) :=
  inferInstanceAs (Decidable (∀ t ∈ engine.tensors.tail, ∀ d ∈ t.dims, 0 < d))

/-- For every batch that the engine accepts: the input holds elements of the size of a float, and when
inference finds an address for every tensor, the first output has the bytes of a row for each crop. -/
def EncoderFits (cfg : EncodingConfig) (engine : CudaEngine) : Prop :=
  ∀ input rest output, engine.tensors = input :: rest →
    (engine.tensors.find? fun t => !t.isInput) = some output → output.name ≠ "" →
    ∀ b : ℕ, 1 ≤ b → b ≤ cfg.batchSize.toNat →
      engine.accepts input.name [b, 3, cfg.inputSize.toNat, cfg.inputSize.toNat] = true →
        elementSizeFor input.dtype = kFloatSize ∧
          ((∀ t ∈ rest, ∀ d ∈ t.dims, 0 < d) → b * cfg.embeddingDim.toNat * kFloatSize ≤
            elements output.dims * elementSizeFor output.dtype)

section Assembled

variable {F : Type} [Zero F]

/-- An encoder that was constructed, with its device memory. -/
structure Assembled (cfg : EncodingConfig) (enc : ArcFaceEncoder (Device F) F) : Prop where
  cfg_eq : enc.cfg = cfg
  laid : Laid enc.engine.engine (·.dims)
  size : ∀ t ∈ enc.engine.engine.engine.tensors, 0 < elementSizeFor t.dtype
  copies : enc.engine.copies = []
  inputScratch : perFace cfg < 2 ^ 31 → enc.inputScratch.length = cfg.batchSize.toNat * perFace cfg
  outputScratch : enc.outputScratch.length = cfg.batchSize.toNat * cfg.embeddingDim.toNat
  small : enc.inputScratch.length < 2 ^ 61 ∧ enc.outputScratch.length < 2 ^ 61

omit [Zero F] in
theorem resizeFloats_lt [Zero F] {n : ℕ} {xs : List F} (h : resizeFloats n = .ok xs) : n < 2 ^ 61 := by
  rw [resizeFloats] at h
  split_ifs at h with hn
  exact hn

theorem new_assembled {malloc : Malloc} {cfg : EncodingConfig} {file : EngineFile} {e : TrtEngine}
    {memory : Memory F} {enc : ArcFaceEncoder (Device F) F}
    (hnew : TrtEngine.new malloc cfg.enginePath file = .ok e)
    (hsize : ∀ t ∈ e.engine.tensors, 0 < elementSizeFor t.dtype)
    (henc : ArcFaceEncoder.new cfg (loaded e memory) = .ok enc) :
    Assembled cfg enc ∧ enc.engine.engine = e := by
  obtain ⟨inputScratch, hin, henc⟩ := bind_ok.1 henc
  obtain ⟨outputScratch, hout, henc⟩ := bind_ok.1 henc
  obtain rfl := pure_ok.1 henc
  refine ⟨⟨rfl, new_laid hnew hsize, hsize, rfl, fun hface => ?_, ?_, ?_, ?_⟩, rfl⟩
  · exact (resizeFloats_ok hin).trans (inputScratch_size hface)
  · exact (resizeFloats_ok hout).trans (outputScratch_size cfg)
  · show inputScratch.length < _
    rw [resizeFloats_ok hin]
    exact resizeFloats_lt hin
  · show outputScratch.length < _
    rw [resizeFloats_ok hout]
    exact resizeFloats_lt hout

end Assembled

/-! ### Every copy fits -/

section Safe

variable {F : Type} {cfg : EncodingConfig} {start : ArcFaceEncoder (Device F) F}
  {R : TrtEngine → Prop} {e₁ : TrtEngine} {cuda : Cuda F}

/-- The encoder between two steps of a call: the wrapper is in `R`, the scratch buffers have the lengths
they were constructed with, and every copy so far fits. -/
structure Serving (start : ArcFaceEncoder (Device F) F) (R : TrtEngine → Prop)
    (enc : ArcFaceEncoder (Device F) F) : Prop where
  cfg_eq : enc.cfg = start.cfg
  wrapper : R enc.engine.engine
  copies : ∀ c ∈ enc.engine.copies, c.Fits
  inputScratch : enc.inputScratch.length = start.inputScratch.length
  outputScratch : enc.outputScratch.length = start.outputScratch.length

theorem attempt_serving {α : Type} (x : Except Stop α) :
    Triple (Serving start R) (attempt x : EncoderM (Device F) F α)
      (fun a enc => Serving start R enc ∧ x = .ok a) (Serving start R) := by
  cases x with
  | ok a => exact Triple.pure fun _ h => ⟨h, rfl⟩
  | error stop => exact Triple.throw fun _ h => h

/-- A call on the engine that leaves the wrapper as it is. -/
theorem onEngine_serving {α : Type} {x : EStateM Stop (Device F) α} {q : α → Prop}
    (hx : Triple (Steady e₁) x (fun a d => Steady e₁ d ∧ q a) (Steady e₁)) :
    Triple (Serving start (· = e₁)) (onEngine x : EncoderM (Device F) F α)
      (fun a enc => Serving start (· = e₁) enc ∧ q a) (Serving start (· = e₁)) := by
  have hset : ∀ enc d, Serving start (· = e₁) enc → Steady e₁ d →
      Serving start (· = e₁) { enc with engine := d } := fun enc d h hd =>
    ⟨h.cfg_eq, hd.1, hd.2, h.inputScratch, h.outputScratch⟩
  rw [onEngine_eq]
  exact Triple.focus hx (fun enc h => ⟨h.wrapper, h.copies⟩)
    (fun enc a d h hd => ⟨hset enc d h hd.1, hd.2⟩) hset

theorem onEngine_serves {α : Type} {x : EStateM Stop (Device F) α}
    (hx : Triple (Steady e₁) x (fun _ => Steady e₁) (Steady e₁)) :
    Triple (Serving start (· = e₁)) (onEngine x : EncoderM (Device F) F α)
      (fun _ => Serving start (· = e₁)) (Serving start (· = e₁)) :=
  (onEngine_serving (q := fun _ => True) (hx.weaken (fun _ h => h) (fun _ _ h => ⟨h, trivial⟩)
    fun _ h => h)).weaken (fun _ h => h) (fun _ _ h => h.1) fun _ h => h

/-- The bytes of `n` floats, as `encode_chunk_` computes them. -/
theorem sizeT_rows {n : ℕ} (h : n < 2 ^ 61) : sizeT (sizeT n * kFloatSize) = n * kFloatSize := by
  have hn : sizeT n = n := Nat.mod_eq_of_lt (by omega)
  rw [hn, sizeT_bytes h]

/-- Inference finds an address for every tensor when those after the first are static. -/
theorem Assembled.addresses_iff (h : Assembled cfg start) {input : IOTensor} {rest : List IOTensor}
    (htensors : start.engine.engine.engine.tensors = input :: rest) (hkept : Kept start.engine.engine e₁) :
    (∀ t ∈ e₁.engine.tensors, (e₁.context.address t.name).isSome) ↔
      (e₁.context.address input.name).isSome ∧ ∀ t ∈ rest, ∀ d ∈ t.dims, 0 < d := by
  rw [hkept.engine, htensors, List.forall_mem_cons]
  refine and_congr_right fun _ => forall₂_congr fun t ht => ?_
  rw [(hkept.rest t (by rwa [htensors])).2]
  exact address_isSome_iff h.laid (by rw [htensors]; exact List.mem_cons_of_mem _ ht)

/-- A static tensor after the first has the buffer of load time. -/
theorem Assembled.buffer_rest (h : Assembled cfg start) {input t : IOTensor} {rest : List IOTensor}
    (htensors : start.engine.engine.engine.tensors = input :: rest) (hkept : Kept start.engine.engine e₁)
    (ht : t ∈ rest) (hpos : ∀ d ∈ t.dims, 0 < d) :
    ∃ p, e₁.deviceBuffers t.name = some ⟨some p, elements t.dims * elementSizeFor t.dtype⟩ ∧
      e₁.context.address t.name = some p := by
  obtain ⟨hbuffer, haddress⟩ := hkept.rest t (by rwa [htensors])
  have hbacked := (h.laid.backed t (by rw [htensors]; exact List.mem_cons_of_mem _ ht)).congr hbuffer haddress
  rwa [Backed, if_pos hpos] at hbacked

variable [NatCast F] [Zero F] [Sub F] [Div F] [OfScientific F] [LT F] [DecidableLT F]

omit [Zero F] [LT F] [DecidableLT F] in
theorem length_preprocessFace {math : FaceMath F} {bgr : Mat} {side : Int} {offset : ℕ} {dst dst' : List F}
    (h : preprocessFace math bgr side offset dst = .ok dst') : dst'.length = dst.length := by
  obtain ⟨image, _, h⟩ := bind_ok.1 h
  exact length_writeChw h

omit [Zero F] [LT F] [DecidableLT F] in
theorem fillInput_serving (math : FaceMath F) (side : Int) (per i : ℕ) (crops : List Mat) :
    Triple (Serving start R) (fillInput math side per i crops) (fun _ => Serving start R)
      (Serving start R) := by
  induction crops generalizing i with
  | nil => exact Triple.pure fun _ h => h
  | cons crop crops ih =>
    refine Triple.get_bind fun enc henc => (attempt_serving _).bind_fact fun scratch hscratch => ?_
    have hlength := (length_preprocessFace hscratch).trans henc.inputScratch
    exact Triple.bind (Q := fun _ => Serving start R)
      (Triple.modify fun _ h => ⟨h.cfg_eq, h.wrapper, h.copies, hlength, h.outputScratch⟩) fun _ => ih _

omit [Zero F] in
/-- A chunk whose rows fit into the scratch buffers and the buffers of the wrapper. -/
theorem runChunk_serving (math : FaceMath F) {inputName outputName : String} {chunk : List Mat}
    (hface : perFace cfg < 2 ^ 31)
    (hsmall : start.inputScratch.length < 2 ^ 61 ∧ start.outputScratch.length < 2 ^ 61)
    (hrows : chunk.length * perFace cfg ≤ start.inputScratch.length ∧
      chunk.length * cfg.embeddingDim.toNat ≤ start.outputScratch.length)
    (hin : ∀ buffer, e₁.deviceBuffers inputName = some buffer →
      chunk.length * perFace cfg * kFloatSize ≤ buffer.bytes)
    (hout : (∀ t ∈ e₁.engine.tensors, (e₁.context.address t.name).isSome) →
      ∀ buffer, e₁.deviceBuffers outputName = some buffer →
        chunk.length * cfg.embeddingDim.toNat * kFloatSize ≤ buffer.bytes) :
    Triple (Serving start (· = e₁))
      (runChunk (deviceOps cuda) math inputName outputName cfg.inputSize.toNat cfg.embeddingDim.toNat chunk)
      (fun _ enc => Serving start (· = e₁) enc ∧
        ∀ t ∈ e₁.engine.tensors, (e₁.context.address t.name).isSome) (Serving start (· = e₁)) := by
  rw [runChunk, perFace_ok hface]
  refine (attempt_serving _).bind_fact fun per hper => ?_
  obtain rfl := Except.ok.inj hper
  rw [Int.toNat_natCast, sizeT_rows (hrows.1.trans_lt hsmall.1), sizeT_rows (hrows.2.trans_lt hsmall.2)]
  refine (fillInput_serving math _ _ _ chunk).bind fun _ => ?_
  refine (onEngine_serves streamCall_steady).bind fun _ => Triple.get_bind fun enc henc => ?_
  refine (onEngine_serves (copyInput_steady hin ?_)).bind fun _ => ?_
  · rw [henc.inputScratch]
    exact Nat.mul_le_mul_right _ hrows.1
  · refine (onEngine_serving infer_steady).bind_fact fun _ haddress => ?_
    refine (onEngine_serving (copyOutput_steady (hout haddress) ?_)).bind_fact fun out hlength => ?_
    · rw [henc.outputScratch]
      exact Nat.mul_le_mul_right _ hrows.2
    · refine Triple.bind (Q := fun _ => Serving start (· = e₁)) (Triple.modify fun _ h =>
        ⟨h.cfg_eq, h.wrapper, h.copies, h.inputScratch, hlength.trans henc.outputScratch⟩) fun _ => ?_
      refine (onEngine_serves streamCall_steady).bind fun _ => ?_
      exact (attempt_serving _).weaken (fun _ h => h) (fun _ _ h => ⟨h.1, haddress⟩) fun _ h => h

omit [NatCast F] [Zero F] [Sub F] [Div F] [OfScientific F] [LT F] [DecidableLT F] in
theorem setInputShape_serving {input : IOTensor} {rest : List IOTensor}
    (htensors : start.engine.engine.engine.tensors = input :: rest)
    (hsize : 0 < elementSizeFor input.dtype) (s : List Int) :
    Triple (Serving start (Kept start.engine.engine))
      (onEngine ((deviceOps cuda).setInputShape input.name s) : EncoderM (Device F) F Unit)
      (fun _ enc => Serving start (Kept start.engine.engine) enc ∧
        start.engine.engine.engine.accepts input.name s = true ∧ Backed enc.engine.engine input s)
      (Serving start (Kept start.engine.engine)) := by
  have hwrapper : Triple (Kept start.engine.engine) (TrtEngine.setInputShape cuda.malloc input.name s)
      (fun _ e₁ => Kept start.engine.engine e₁ ∧
        start.engine.engine.engine.accepts input.name s = true ∧ Backed e₁ input s)
      (Kept start.engine.engine) :=
    (setInputShape_kept htensors s).and_returns fun _ _ _ h hrun =>
      setInputShape_backed htensors hsize h hrun
  have hdevice : Triple (fun d => Kept start.engine.engine d.engine ∧ ∀ c ∈ d.copies, c.Fits)
      (onWrapper (TrtEngine.setInputShape cuda.malloc input.name s) : DeviceM F Unit)
      (fun _ d => (Kept start.engine.engine d.engine ∧ ∀ c ∈ d.copies, c.Fits) ∧
        start.engine.engine.engine.accepts input.name s = true ∧ Backed d.engine input s)
      (fun d => Kept start.engine.engine d.engine ∧ ∀ c ∈ d.copies, c.Fits) := by
    rw [onWrapper_eq]
    exact Triple.focus hwrapper (fun d hd => hd.1) (fun d u e₁ hd h => ⟨⟨h.1, hd.2⟩, h.2⟩)
      fun d e₁ hd h => ⟨h, hd.2⟩
  rw [onEngine_eq]
  exact Triple.focus hdevice (fun enc h => ⟨h.wrapper, h.copies⟩)
    (fun enc u d h hd => ⟨⟨h.cfg_eq, hd.1.1, hd.1.2, h.inputScratch, h.outputScratch⟩, hd.2⟩)
    fun enc d h hd => ⟨h.cfg_eq, hd.1, hd.2, h.inputScratch, h.outputScratch⟩

omit [Zero F] in
/-- A chunk whose input shape is set. -/
theorem runChunk_keeps (math : FaceMath F) (h : Assembled cfg start) (hside : cfg.inputSize ≠ 0)
    (hfits : EncoderFits cfg start.engine.engine.engine) {input output : IOTensor} {rest : List IOTensor}
    (htensors : start.engine.engine.engine.tensors = input :: rest)
    (hfind : (start.engine.engine.engine.tensors.find? fun t => !t.isInput) = some output)
    (hname : output.name ≠ "") {chunk : List Mat} (hpos : 1 ≤ chunk.length)
    (hle : chunk.length ≤ cfg.batchSize.toNat)
    (haccepts : start.engine.engine.engine.accepts input.name
      [(chunk.length : Int), 3, cfg.inputSize.toNat, cfg.inputSize.toNat] = true)
    (hkept : Kept start.engine.engine e₁)
    (hbacked : Backed e₁ input [(chunk.length : Int), 3, cfg.inputSize.toNat, cfg.inputSize.toNat]) :
    Triple (Serving start (· = e₁))
      (runChunk (deviceOps cuda) math input.name output.name cfg.inputSize.toNat cfg.embeddingDim.toNat chunk)
      (fun _ enc => Serving start (Kept start.engine.engine) enc ∧
        StaticOutputs start.engine.engine.engine) (Serving start (Kept start.engine.engine)) := by
  obtain ⟨hfloat, houtputs⟩ := hfits input rest output htensors hfind hname _ hpos hle haccepts
  have hsmall := (start.engine.engine.engine.of_accepts _ _ haccepts).2
  rw [elements_batch] at hsmall
  have hface : perFace cfg < 2 ^ 31 := (Nat.le_mul_of_pos_left _ hpos).trans_lt hsmall
  rw [Backed, if_pos (batch_pos hpos hside), elements_batch, hfloat] at hbacked
  obtain ⟨p, hbuffer, _⟩ := hbacked
  have hrest := output_mem_rest htensors haccepts hfind
  have hrows : chunk.length * perFace cfg ≤ start.inputScratch.length ∧
      chunk.length * cfg.embeddingDim.toNat ≤ start.outputScratch.length := by
    rw [h.inputScratch hface, h.outputScratch]
    exact ⟨Nat.mul_le_mul_right _ hle, Nat.mul_le_mul_right _ hle⟩
  have hkeep : ∀ enc, Serving start (· = e₁) enc → Serving start (Kept start.engine.engine) enc :=
    fun enc h' => ⟨h'.cfg_eq, h'.wrapper ▸ hkept, h'.copies, h'.inputScratch, h'.outputScratch⟩
  have hstatic : (∀ t ∈ e₁.engine.tensors, (e₁.context.address t.name).isSome) →
      StaticOutputs start.engine.engine.engine := fun haddress => by
    rw [StaticOutputs, htensors]
    exact ((h.addresses_iff htensors hkept).1 haddress).2
  refine (runChunk_serving math hface h.small hrows ?_ ?_).weaken (fun _ h => h)
    (fun _ enc h => ⟨hkeep enc h.1, hstatic h.2⟩) hkeep
  · intro buffer hb
    rw [hbuffer] at hb
    rw [← Option.some.inj hb]
  · intro haddress buffer hb
    have hdims := ((h.addresses_iff htensors hkept).1 haddress).2
    obtain ⟨q, hq, _⟩ := h.buffer_rest htensors hkept hrest (hdims output hrest)
    rw [hq] at hb
    rw [← Option.some.inj hb]
    exact houtputs hdims

omit [Zero F] in
/-- A chunk, whatever it comes to. -/
theorem encodeChunk_serving (math : FaceMath F) (h : Assembled cfg start)
    (hside : cfg.inputSize ≠ 0) (hfits : EncoderFits cfg start.engine.engine.engine) {chunk : List Mat}
    (hle : chunk.length ≤ cfg.batchSize.toNat) (out : List (Embedding F)) :
    Triple (Serving start (Kept start.engine.engine)) (encodeChunk (deviceOps cuda) math chunk out)
      (fun _ enc => Serving start (Kept start.engine.engine) enc ∧
        (chunk ≠ [] → StaticOutputs start.engine.engine.engine))
      (Serving start (Kept start.engine.engine)) := by
  rw [encodeChunk]
  split_ifs with hempty
  · exact Triple.pure fun _ h => ⟨h, fun hne => absurd (List.isEmpty_iff.1 hempty) hne⟩
  · have hpos : 1 ≤ chunk.length := List.length_pos_iff.2 (by rwa [List.isEmpty_iff] at hempty)
    refine Triple.get_bind fun enc henc => ?_
    obtain ⟨shape, hbindings⟩ := henc.wrapper.bindings
    replace hbindings : (deviceOps cuda).bindings enc.engine = _ := hbindings
    have houtputs := firstOutput_cases shape start.engine.engine.engine.tensors
    cases htensors : start.engine.engine.engine.tensors with
    | nil =>
      rw [htensors] at hbindings
      simp only [hbindings, List.map_nil]
      exact Triple.throw fun _ h => h
    | cons input rest =>
      rw [htensors, List.map_cons] at hbindings houtputs
      simp only [hbindings]
      rcases houtputs with hnone | ⟨output, hfind, hname, houtput⟩
      · rw [if_pos hnone]
        exact Triple.throw_bind fun _ h => h
      · rw [houtput, if_neg hname, henc.cfg_eq, h.cfg_eq]
        have hsize : 0 < elementSizeFor input.dtype :=
          h.size input (by rw [htensors]; exact List.mem_cons_self)
        refine (setInputShape_serving htensors hsize
          [(chunk.length : Int), 3, cfg.inputSize.toNat, cfg.inputSize.toNat]).bind fun _ => ?_
        refine Triple.of_states fun enc₁ hset => ?_
        obtain ⟨henc₁, haccepts, hbacked⟩ := hset
        refine Triple.bind ((runChunk_keeps math h hside hfits htensors (htensors ▸ hfind) hname hpos hle
          haccepts henc₁.wrapper hbacked).weaken ?_ (fun _ _ h => h) fun _ h => h) fun _ =>
            Triple.pure fun _ h => ⟨h.1, fun _ => h.2⟩
        rintro _ rfl
        exact ⟨henc₁.cfg_eq, rfl, henc₁.copies, henc₁.inputScratch, henc₁.outputScratch⟩

omit [Zero F] in
/-- The loop over the chunks. -/
theorem encodeFrom_serving (math : FaceMath F) (h : Assembled cfg start) (hside : cfg.inputSize ≠ 0)
    (hfits : EncoderFits cfg start.engine.engine.engine) (faces : List Mat) (i : ℕ)
    (results : List (Embedding F)) :
    Triple (Serving start (Kept start.engine.engine))
      (encodeFrom (deviceOps cuda) math faces cfg.batchSize.toNat i results)
      (fun _ enc => Serving start (Kept start.engine.engine) enc ∧
        (i < faces.length → StaticOutputs start.engine.engine.engine))
      (Serving start (Kept start.engine.engine)) := by
  induction hn : faces.length - i using Nat.strong_induction_on generalizing i results with
  | _ n ih =>
    rw [encodeFrom]
    split_ifs with hi hbsz
    · have hle : ((faces.drop i).take (min (i + cfg.batchSize.toNat) faces.length - i)).length ≤
          cfg.batchSize.toNat := by
        rw [List.length_take]
        omega
      have hne : (faces.drop i).take (min (i + cfg.batchSize.toNat) faces.length - i) ≠ [] := by
        rw [ne_eq, ← List.length_eq_zero_iff, List.length_take, List.length_drop]
        omega
      refine (encodeChunk_serving math h hside hfits hle results).bind_fact fun results hstatic => ?_
      exact (ih _ (by omega) _ results rfl).weaken (fun _ h => h) (fun _ _ h => ⟨h.1, fun _ => hstatic hne⟩)
        fun _ h => h
    · exact Triple.throw fun _ h => h
    · exact Triple.pure fun _ h => ⟨h, fun hlt => absurd hlt hi⟩

omit [Zero F] in
/-- A call keeps every copy inside its ends, whatever it comes to, and returns embeddings only when the outputs are
static. -/
theorem encodeBatch_serving (math : FaceMath F) (h : Assembled cfg start) (hside : cfg.inputSize ≠ 0)
    (hfits : EncoderFits cfg start.engine.engine.engine) (faces : List Mat) :
    Triple (Serving start (Kept start.engine.engine)) (encodeBatch (deviceOps cuda) math faces)
      (fun _ enc => Serving start (Kept start.engine.engine) enc ∧
        (faces ≠ [] → StaticOutputs start.engine.engine.engine))
      (Serving start (Kept start.engine.engine)) := by
  refine Triple.get_bind fun enc henc => ?_
  rw [henc.cfg_eq, h.cfg_eq]
  exact (encodeFrom_serving math h hside hfits faces 0 []).weaken (fun _ h => h)
    (fun _ _ h => ⟨h.1, fun hne => h.2 (List.length_pos_iff.2 hne)⟩) fun _ h => h

end Safe

/-! ### A run that meets every copy -/

section Reached

variable {F : Type} [NatCast F] [Zero F] [Sub F] [Div F] [OfScientific F] [LT F] [DecidableLT F]
  {cfg : EncodingConfig} {start : ArcFaceEncoder (Device F) F} {input output : IOTensor}
  {rest : List IOTensor} {b : ℕ}

/-- Black crops of the network's input size. -/
def blankFaces (cfg : EncodingConfig) (b : ℕ) : List Mat :=
  List.replicate b ⟨cfg.inputSize.toNat, cfg.inputSize.toNat, fun _ _ => ⟨0, 0, 0⟩⟩

omit [NatCast F] [Zero F] [Sub F] [Div F] [OfScientific F] [LT F] [DecidableLT F] in
/-- They are not resized. -/
theorem resized_blankFaces (math : FaceMath F) (cfg : EncodingConfig) (b : ℕ) :
    ((blankFaces cfg b).mapM fun crop => resized math crop cfg.inputSize.toNat) = .ok (blankFaces cfg b) := by
  have hsize : ∀ crop ∈ blankFaces cfg b, resized math crop cfg.inputSize.toNat = .ok (id crop) := by
    intro crop hcrop
    rw [List.eq_of_mem_replicate hcrop, resized, if_neg (by simp)]
    rfl
  rw [Traverse.mapM_of_forall_ok hsize, List.map_id]

omit [NatCast F] [Zero F] [Sub F] [Div F] [OfScientific F] [LT F] [DecidableLT F] in
theorem onEngine_error {α : Type} {x : EStateM Stop (Device F) α} {stop : Stop}
    {enc : ArcFaceEncoder (Device F) F} {d : Device F} (h : x.run enc.engine = .error stop d) :
    (onEngine x : EncoderM (Device F) F α).run enc = .error stop { enc with engine := d } := by
  rw [onEngine_eq]
  exact focus_error h

/-- The chunk of black crops meets a copy that does not fit, or shows that both do. -/
theorem runChunk_cases (math : FaceMath F) (h : Assembled cfg start) (hside : cfg.inputSize ≠ 0)
    (htensors : start.engine.engine.engine.tensors = input :: rest)
    (hrest : output ∈ rest) (hpos : 1 ≤ b) (hle : b ≤ cfg.batchSize.toNat) {enc : ArcFaceEncoder (Device F) F}
    (henc : Serving start (Kept start.engine.engine) enc)
    (hsmall : b * perFace cfg < 2 ^ 31)
    (hbacked : Backed enc.engine.engine input [(b : Int), 3, cfg.inputSize.toNat, cfg.inputSize.toNat]) :
    (∃ stop enc', (runChunk (deviceOps (constantCuda 0)) math input.name output.name cfg.inputSize.toNat
        cfg.embeddingDim.toNat (blankFaces cfg b)).run enc = .error stop enc' ∧ Misfit enc'.engine) ∨
      elementSizeFor input.dtype = kFloatSize ∧ ((∀ t ∈ rest, ∀ d ∈ t.dims, 0 < d) →
        b * cfg.embeddingDim.toNat * kFloatSize ≤ elements output.dims * elementSizeFor output.dtype) := by
  have hface : perFace cfg < 2 ^ 31 := (Nat.le_mul_of_pos_left _ hpos).trans_lt hsmall
  have hfaces : (blankFaces cfg b).length = b := List.length_replicate
  have hrows : b * perFace cfg ≤ enc.inputScratch.length := by
    rw [henc.inputScratch, h.inputScratch hface]
    exact Nat.mul_le_mul_right _ hle
  have hrowsOut : b * cfg.embeddingDim.toNat ≤ enc.outputScratch.length := by
    rw [henc.outputScratch, h.outputScratch]
    exact Nat.mul_le_mul_right _ hle
  have hlarge : b * cfg.embeddingDim.toNat < 2 ^ 61 := by
    rw [henc.outputScratch] at hrowsOut
    exact hrowsOut.trans_lt h.small.2
  have hper : perFace cfg = 3 * (cfg.inputSize.toNat * cfg.inputSize.toNat) := rfl
  obtain ⟨scratch, hscratch, hfill⟩ := fillInput_run math hper hface 0 (blankFaces cfg b) enc
    (by rwa [Nat.zero_add, hfaces])
  rw [resized_blankFaces] at hfill
  obtain ⟨-, hfill⟩ := hfill
  have hstream : (streamCall (constantCuda (0 : F))).run (enc.withInput scratch).engine = .ok () _ :=
    streamCall_ok rfl
  obtain ⟨enc₁, hengine₁, hinput₁, houtput₁, hcreate⟩ : ∃ enc₁ : ArcFaceEncoder (Device F) F,
      enc₁.engine.engine = enc.engine.engine ∧ enc₁.inputScratch = scratch ∧
        enc₁.outputScratch = enc.outputScratch ∧
        (onEngine (deviceOps (constantCuda 0)).createStream : EncoderM (Device F) F Unit).run
          (enc.withInput scratch) = .ok () enc₁ := by
    refine ⟨_, ?_, ?_, ?_, onEngine_ok hstream⟩ <;> rfl
  rw [runChunk, perFace_ok hface, bind_run_of_ok (attempt_ok _ _), Int.toNat_natCast, castInt_side hface,
    bind_run_of_ok hfill, bind_run_of_ok hcreate, bind_run_of_ok (EStateM.run_get _), hfaces, hinput₁,
    houtput₁, sizeT_rows (hsmall.trans (by norm_num)), sizeT_rows hlarge]
  rw [Backed, if_pos (batch_pos hpos hside), elements_batch, ← hengine₁] at hbacked
  obtain ⟨p, hbuffer, haddress⟩ := hbacked
  by_cases hfloat : elementSizeFor input.dtype = kFloatSize
  · by_cases hfits : (∀ t ∈ rest, ∀ d ∈ t.dims, 0 < d) →
        b * cfg.embeddingDim.toNat * kFloatSize ≤ elements output.dims * elementSizeFor output.dtype
    · exact .inr ⟨hfloat, hfits⟩
    · -- inference runs, and the output is too short
      rw [Classical.not_imp] at hfits
      obtain ⟨hdims, hshort⟩ := hfits
      rw [hfloat] at hbuffer
      obtain ⟨enc₂, hengine₂, hcopy⟩ : ∃ enc₂ : ArcFaceEncoder (Device F) F,
          enc₂.engine.engine = enc.engine.engine ∧ (onEngine ((deviceOps (constantCuda 0)).copyInput
            input.name scratch (b * perFace cfg * kFloatSize)) : EncoderM (Device F) F Unit).run enc₁ =
              .ok () enc₂ := by
        have hrun : (copyInput (constantCuda (0 : F)) input.name scratch
            (b * perFace cfg * kFloatSize)).run enc₁.engine = .ok () _ :=
          copyInput_ok hbuffer le_rfl (hrows.trans_eq hscratch.symm) rfl
        refine ⟨_, ?_, onEngine_ok hrun⟩
        exact hengine₁
      have hkept : Kept start.engine.engine enc₂.engine.engine := by
        rw [hengine₂]
        exact henc.wrapper
      have hinfer : enc₂.engine.engine.infer true = .ok () := by
        have hsome : (enc₂.engine.engine.context.address input.name).isSome := by
          rw [hengine₂, ← hengine₁, haddress, Option.isSome_some]
        rw [TrtEngine.infer, if_pos ⟨(h.addresses_iff htensors hkept).2 ⟨hsome, hdims⟩, rfl⟩]
      have hinferred : (infer (constantCuda (0 : F))).run enc₂.engine = .ok () _ := infer_ok hinfer rfl
      obtain ⟨q, hq, _⟩ := h.buffer_rest htensors hkept hrest (hdims output hrest)
      have hmisfit : ¬Copy.Fits ⟨b * cfg.embeddingDim.toNat * kFloatSize,
          elements output.dims * elementSizeFor output.dtype, enc.outputScratch.length * kFloatSize⟩ :=
        fun hfits => hshort hfits.1
      have hrun : (memcpyAsync (constantCuda (0 : F)) output.name enc.outputScratch
          (b * cfg.embeddingDim.toNat * kFloatSize)).run
            { enc₂.engine with memory := fun _ _ => 0 } = .error _ _ := memcpyAsync_misfit hq hmisfit
      rw [bind_run_of_ok hcopy]
      refine .inl ⟨_, _, (bind_run_of_ok (onEngine_ok hinferred)).trans
        (bind_run_error (onEngine_error (bind_run_error hrun))), _,
        List.mem_append_right _ (List.mem_singleton_self _), hmisfit⟩
  · have hmisfit : ¬Copy.Fits ⟨b * perFace cfg * kFloatSize, b * perFace cfg * elementSizeFor input.dtype,
        scratch.length * kFloatSize⟩ := fun hfits => by
      have hpositive : 0 < b * perFace cfg := elements_batch cfg b ▸ elements_pos (batch_pos hpos hside)
      exact hfloat (le_antisymm (elementSizeFor_le input.dtype) (Nat.le_of_mul_le_mul_left hfits.1 hpositive))
    have hrun : (memcpyAsync (constantCuda 0) input.name scratch (b * perFace cfg * kFloatSize)).run
        enc₁.engine = .error _ _ := memcpyAsync_misfit hbuffer hmisfit
    refine .inl ⟨_, _, bind_run_error (onEngine_error (bind_run_error hrun)), _,
      List.mem_append_right _ (List.mem_singleton_self _), hmisfit⟩

omit [Zero F] [NatCast F] [Sub F] [Div F] [OfScientific F] [LT F] [DecidableLT F] in
theorem start_serving (h : Assembled cfg start) : Serving start (Kept start.engine.engine) start :=
  ⟨rfl, ⟨rfl, ⟨_, h.laid.bindings⟩, fun _ _ => ⟨rfl, rfl⟩⟩, by simp [h.copies], rfl, rfl⟩

/-- The one chunk of a first call. -/
theorem encodeChunk_cases (math : FaceMath F) (h : Assembled cfg start) (hside : cfg.inputSize ≠ 0)
    (htensors : start.engine.engine.engine.tensors = input :: rest)
    (hfind : (start.engine.engine.engine.tensors.find? fun t => !t.isInput) = some output)
    (hname : output.name ≠ "") (hpos : 1 ≤ b) (hle : b ≤ cfg.batchSize.toNat)
    (haccepts : start.engine.engine.engine.accepts input.name
      [(b : Int), 3, cfg.inputSize.toNat, cfg.inputSize.toNat] = true) :
    (∃ stop enc', (encodeChunk (deviceOps (constantCuda 0)) math (blankFaces cfg b) []).run start =
        .error stop enc' ∧ Misfit enc'.engine) ∨
      elementSizeFor input.dtype = kFloatSize ∧ ((∀ t ∈ rest, ∀ d ∈ t.dims, 0 < d) →
        b * cfg.embeddingDim.toNat * kFloatSize ≤ elements output.dims * elementSizeFor output.dtype) := by
  have hsize : 0 < elementSizeFor input.dtype := h.size input (by rw [htensors]; exact List.mem_cons_self)
  have hfaces : (blankFaces cfg b).length = b := List.length_replicate
  have hempty : ¬(blankFaces cfg b).isEmpty = true := by
    rw [List.isEmpty_iff_length_eq_zero, hfaces]
    omega
  have hbindings : (deviceOps (constantCuda 0)).bindings start.engine =
      recorded (·.dims) input :: rest.map (recorded (·.dims)) := by
    show start.engine.engine.bindings = _
    rw [h.laid.bindings, htensors, List.map_cons]
  have hfirst := firstOutput_recorded (·.dims) start.engine.engine.engine.tensors
  rw [hfind, htensors, List.map_cons] at hfirst
  replace hfirst : firstOutput (recorded (·.dims) input :: rest.map (recorded (·.dims))) = output.name :=
    hfirst
  have hbinding : start.engine.engine.binding input.name = .ok (recorded (·.dims) input) := by
    have hlist : start.engine.engine.bindings = _ := hbindings
    rw [TrtEngine.binding, hlist, List.find?_cons_of_pos (by simp [recorded, bindingInfo])]
  obtain ⟨e₁, hset⟩ : ∃ e₁, (TrtEngine.setInputShape (constantCuda (0 : F)).malloc input.name
      [(b : Int), 3, cfg.inputSize.toNat, cfg.inputSize.toNat]).run start.engine.engine = .ok () e₁ :=
    setInputShape_run (by simp [maxDims]) haccepts hbinding fun _ _ => rfl
  have hserving := start_serving h
  have hkept : Kept start.engine.engine e₁ := (setInputShape_kept htensors _).returns hserving.wrapper hset
  obtain ⟨_, hbacked⟩ := setInputShape_backed htensors hsize hserving.wrapper hset
  have hrest := output_mem_rest htensors haccepts hfind
  have hsmall := (start.engine.engine.engine.of_accepts _ _ haccepts).2
  rw [elements_batch] at hsmall
  obtain ⟨enc, henc, hengine, hwrapper⟩ : ∃ enc : ArcFaceEncoder (Device F) F,
      Serving start (Kept start.engine.engine) enc ∧ enc.engine.engine = e₁ ∧
        (onEngine ((deviceOps (constantCuda 0)).setInputShape input.name
          [(b : Int), 3, cfg.inputSize.toNat, cfg.inputSize.toNat]) : EncoderM (Device F) F Unit).run start =
            .ok () enc := by
    refine ⟨_, ?_, ?_, onEngine_ok (onWrapper_ok hset)⟩
    · exact ⟨rfl, hkept, hserving.copies, rfl, rfl⟩
    · rfl
  rw [encodeChunk, if_neg hempty, bind_run_of_ok (EStateM.run_get _)]
  simp only [hbindings, hfirst, if_neg hname, hfaces, h.cfg_eq, recorded_name]
  rw [bind_run_of_ok hwrapper]
  rcases runChunk_cases math h hside htensors hrest hpos hle henc hsmall (by rwa [hengine])
    with ⟨stop, enc', hrun, hmisfit⟩ | hfits
  · exact .inl ⟨stop, enc', bind_run_error hrun, hmisfit⟩
  · exact .inr hfits

/-- A call with as many crops as one chunk holds. -/
theorem encodeBatch_misfit (math : FaceMath F) (h : Assembled cfg start) (hpos : 1 ≤ b)
    (hle : b ≤ cfg.batchSize.toNat) {stop : Stop} {enc' : ArcFaceEncoder (Device F) F}
    (hrun : (encodeChunk (deviceOps (constantCuda 0)) math (blankFaces cfg b) []).run start =
      .error stop enc') (hmisfit : Misfit enc'.engine) :
    Misfit (runCalls (encodeBatch (deviceOps (constantCuda 0)) math) caught [blankFaces cfg b] start).engine := by
  have hfaces : (blankFaces cfg b).length = b := List.length_replicate
  have hbatch : (encodeBatch (deviceOps (constantCuda 0)) math (blankFaces cfg b)).run start =
      .error stop enc' := by
    have hi : 0 < (blankFaces cfg b).length := by omega
    have hbsz : 0 < cfg.batchSize.toNat := by omega
    have hchunk : ((blankFaces cfg b).drop 0).take
        (min (0 + cfg.batchSize.toNat) (blankFaces cfg b).length - 0) = blankFaces cfg b := by
      rw [List.drop_zero, List.take_of_length_le (by omega)]
    rw [encodeBatch, bind_run_of_ok (EStateM.run_get _), h.cfg_eq, encodeFrom, if_pos hi, dif_pos hbsz]
    simp only [hchunk]
    exact bind_run_error hrun
  rw [runCalls, hbatch]
  show Misfit (if caught stop then enc' else enc').engine
  rwa [ite_self]

/-! ### Sequences of calls -/

/-- Whatever CUDA does, the copies of any calls of `encode_batch` stay inside both of their ends. -/
def EncoderCopiesFit (math : FaceMath F) (enc : ArcFaceEncoder (Device F) F) : Prop :=
  ∀ (cuda : Cuda F) (calls : List (List Mat)),
    ∀ c ∈ (runCalls (encodeBatch (deviceOps cuda) math) caught calls enc).engine.copies, c.Fits

/-- The copies of `encode_batch` all fit exactly when the input holds floats and the first output is long
enough for every batch. -/
theorem Assembled.encoderCopiesFit_iff (h : Assembled cfg start) (hside : cfg.inputSize ≠ 0) (math : FaceMath F) :
    EncoderCopiesFit math start ↔ EncoderFits cfg start.engine.engine.engine := by
  constructor
  · intro hfit input rest output htensors hfind hname b hpos hle haccepts
    refine (encodeChunk_cases math h hside htensors hfind hname hpos hle haccepts).resolve_left ?_
    rintro ⟨stop, enc', hrun, hmisfit⟩
    obtain ⟨c, hc, hlong⟩ := encodeBatch_misfit math h hpos hle hrun hmisfit
    exact hlong (hfit _ _ c hc)
  · intro hfits cuda calls
    exact (runCalls_invariant (fun faces => (encodeBatch_serving math h hside hfits faces).weaken (fun _ h => h)
      (fun _ _ h => h.1) fun _ h => h) calls (start_serving h)).copies

end Reached

end FacePipeline.Trt
