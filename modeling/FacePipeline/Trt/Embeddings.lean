import FacePipeline.Lib.Hoare
import FacePipeline.Trt.BatchedEncoding

/-!
# What the encoder returns

Whatever the engine writes into `output_scratch_`, an embedding is one row of `embedding_dim` floats,
normalized (`produced_row`). A row with a norm at or below the cutoff stays as it is.
-/

namespace FacePipeline.Trt

open FacePipeline.Config Hoare Scratch Traverse

section Produced

variable {F : Type} [NatCast F] [Sub F] [Div F] [OfScientific F] [LT F] [DecidableLT F]

/-- A call of `encode_batch` has returned the embedding, on some engine. -/
def Produced (math : FaceMath F) (embeddingDim : UInt32) (v : Embedding F) : Prop :=
  ∃ (σ : Type) (ops : EngineOps σ F) (enc enc' : ArcFaceEncoder σ F) (faces : List Mat)
    (embeddings : List (Embedding F)), enc.cfg.embeddingDim = embeddingDim ∧
    (encodeBatch ops math faces).run enc = .ok embeddings enc' ∧ v ∈ embeddings

/-- A normalized row of `emb` floats. -/
def NormalizedRow (math : FaceMath F) (emb : ℕ) (v : Embedding F) : Prop :=
  ∃ row : List F, row.length = emb ∧ v = l2Normalize math row

omit [NatCast F] [Sub F] in
theorem normalizedRow_length {math : FaceMath F} {emb : ℕ} {v : Embedding F} (h : NormalizedRow math emb v) :
    v.length = emb := by
  obtain ⟨row, hrow, rfl⟩ := h
  rw [l2Normalize]
  split_ifs
  · rw [List.length_map, hrow]
  · exact hrow

variable {σ : Type} {cfg : EncodingConfig}

omit [NatCast F] [Sub F] [Div F] [OfScientific F] [LT F] [DecidableLT F] in
theorem attempt_keeps {α : Type} (x : Except Stop α) :
    Triple (fun enc : ArcFaceEncoder σ F => enc.cfg = cfg) (attempt x)
      (fun a enc => enc.cfg = cfg ∧ x = .ok a) fun enc => enc.cfg = cfg := by
  cases x with
  | ok a => exact Triple.pure fun _ henc => ⟨henc, rfl⟩
  | error stop => exact Triple.throw fun _ henc => henc

omit [NatCast F] [Sub F] [Div F] [OfScientific F] [LT F] [DecidableLT F] in
/-- The engine does not reach the encoder's configuration. -/
theorem onEngine_cfg {α : Type} (x : EStateM Stop σ α) :
    Triple (fun enc : ArcFaceEncoder σ F => enc.cfg = cfg) (onEngine x) (fun _ enc => enc.cfg = cfg)
      fun enc => enc.cfg = cfg := by
  have htrue : Triple (fun _ : σ => True) x (fun _ _ => True) fun _ => True :=
    ⟨fun e _ => by cases x.run e <;> trivial⟩
  rw [onEngine_eq]
  exact Triple.focus htrue (fun _ _ => trivial) (fun _ _ _ henc _ => henc) fun _ _ henc _ => henc

omit [LT F] [DecidableLT F] in
theorem fillInput_cfg (math : FaceMath F) (side : Int) (perFace i : ℕ) (crops : List Mat) :
    Triple (fun enc : ArcFaceEncoder σ F => enc.cfg = cfg) (fillInput math side perFace i crops)
      (fun _ enc => enc.cfg = cfg) fun enc => enc.cfg = cfg := by
  induction crops generalizing i with
  | nil => exact Triple.pure fun _ henc => henc
  | cons crop crops ih =>
    refine Triple.get_bind fun enc _ => (attempt_keeps _).bind_fact fun scratch _ => ?_
    exact Triple.bind (Q := fun _ enc => enc.cfg = cfg) (Triple.modify fun _ henc => henc) fun _ => ih (i + 1)

omit [NatCast F] [Sub F] in
theorem normalizedRow_of_readOutput {math : FaceMath F} {emb n : ℕ} {scratch : List F}
    {embeddings : List (Embedding F)} (h : readOutput math emb scratch n = .ok embeddings) :
    ∀ v ∈ embeddings, NormalizedRow math emb v := by
  intro v hv
  obtain ⟨i, _, hi⟩ := mem_of_mapM_ok h hv
  obtain ⟨row, hrow, hv⟩ := bind_ok.1 hi
  rw [readRow] at hrow
  split_ifs at hrow with hle
  obtain rfl := Except.ok.inj hrow
  obtain rfl := Except.ok.inj hv
  refine ⟨_, ?_, rfl⟩
  rw [Nat.succ_mul] at hle
  rw [slice, List.length_take, List.length_drop]
  omega

/-- What a part of `encode_batch` leaves behind, and what it returns. -/
def Encodes (math : FaceMath F) (cfg : EncodingConfig) (x : EncoderM σ F (List (Embedding F))) : Prop :=
  Triple (fun enc : ArcFaceEncoder σ F => enc.cfg = cfg) x
    (fun embeddings enc => enc.cfg = cfg ∧ ∀ v ∈ embeddings, NormalizedRow math cfg.embeddingDim.toNat v)
    fun enc => enc.cfg = cfg

theorem runChunk_encodes (ops : EngineOps σ F) (math : FaceMath F) (inputName outputName : String)
    (side : Int) (chunk : List Mat) :
    Encodes math cfg (runChunk ops math inputName outputName side cfg.embeddingDim.toNat chunk) := by
  refine (attempt_keeps _).bind_fact fun perFace _ => ?_
  refine (fillInput_cfg math _ _ _ chunk).bind fun _ => (onEngine_cfg _).bind fun _ => ?_
  refine Triple.get_bind fun enc _ => (onEngine_cfg _).bind fun _ => (onEngine_cfg _).bind fun _ => ?_
  refine (onEngine_cfg _).bind fun scratch => ?_
  refine Triple.bind (Q := fun _ enc => enc.cfg = cfg) (Triple.modify fun _ henc => henc) fun _ => ?_
  refine (onEngine_cfg _).bind fun _ => ?_
  exact (attempt_keeps _).weaken (fun _ henc => henc)
    (fun _ _ h => ⟨h.1, normalizedRow_of_readOutput h.2⟩) fun _ henc => henc

theorem encodeChunk_encodes (ops : EngineOps σ F) (math : FaceMath F) (chunk : List Mat)
    {out : List (Embedding F)} (hout : ∀ v ∈ out, NormalizedRow math cfg.embeddingDim.toNat v) :
    Encodes math cfg (encodeChunk ops math chunk out) := by
  unfold encodeChunk
  split_ifs with hempty
  · exact Triple.pure fun _ henc => ⟨henc, hout⟩
  · refine Triple.get_bind fun enc henc => ?_
    subst henc
    cases ops.bindings enc.engine with
    | nil => exact Triple.throw fun _ henc => henc
    | cons input others =>
      dsimp only
      split_ifs with hname
      · exact Triple.throw_bind fun _ henc => henc
      · refine (onEngine_cfg _).bind fun _ => (runChunk_encodes ops math _ _ _ chunk).bind fun embeddings => ?_
        refine Triple.pure fun _ h => ⟨h.1, fun v hv => ?_⟩
        rcases List.mem_append.1 hv with hv | hv
        · exact hout v hv
        · exact h.2 v hv

theorem encodeFrom_encodes (ops : EngineOps σ F) (math : FaceMath F) (faces : List Mat) (bsz i : ℕ)
    {results : List (Embedding F)}
    (hresults : ∀ v ∈ results, NormalizedRow math cfg.embeddingDim.toNat v) :
    Encodes math cfg (encodeFrom ops math faces bsz i results) := by
  fun_induction encodeFrom ops math faces bsz i results with
  | case1 i results hi hbsz stop ih =>
    refine (encodeChunk_encodes ops math _ hresults).bind fun embeddings => ?_
    refine Triple.of_states fun enc henc => ?_
    exact (ih embeddings henc.2).weaken (fun _ h => h ▸ henc.1) (fun _ _ h => h) fun _ h => h
  | case2 => exact Triple.throw fun _ henc => henc
  | case3 => exact Triple.pure fun _ henc => ⟨henc, hresults⟩

/-- **Whatever the engine writes, an embedding is a normalized row.** -/
theorem produced_row {math : FaceMath F} {embeddingDim : UInt32} {v : Embedding F}
    (h : Produced math embeddingDim v) : NormalizedRow math embeddingDim.toNat v := by
  obtain ⟨σ, ops, enc, enc', faces, embeddings, rfl, hrun, hv⟩ := h
  have hencodes : Encodes math enc.cfg (encodeBatch ops math faces) :=
    Triple.get_bind fun s _ => encodeFrom_encodes ops math faces _ 0 (by simp)
  exact (hencodes.returns rfl hrun).2 v hv

/-! ### Every row can be written -/

/-- An engine that answers a batch of one with a given row. -/
def steadyOps (row : List F) : EngineOps Unit F where
  bindings _ := [⟨"input.1", [-1, 3, 1, 1], 4, 3, true⟩, ⟨"683", [1, row.length], 4, row.length, false⟩]
  setInputShape _ _ := return ()
  createStream := return ()
  copyInput _ _ _ := return ()
  infer := return ()
  copyOutput _ host _ := return row ++ host.drop row.length
  synchronize := return ()

omit [NatCast F] [Sub F] [Div F] [OfScientific F] [LT F] [DecidableLT F] in
theorem steadyOps_rowWise {row : List F} (hrow : row.length = cfg.embeddingDim.toNat)
    (hbatch : cfg.batchSize = 1) (hside : cfg.inputSize = 1) (hsmall : row.length < 2 ^ 31) :
    RowWise (steadyOps row) cfg (fun _ => row) fun _ => True := by
  have hone : ∀ b, 1 ≤ b → b ≤ cfg.batchSize.toNat → b = 1 := by
    rw [hbatch]
    exact fun b hb hle => le_antisymm hle hb
  have hface : perFace cfg = 3 := by rw [perFace, hside]; rfl
  refine ⟨fun _ _ => hrow, fun b hb hle => ?_, fun _ _ => ⟨_, _, rfl, show "683" ≠ "" by decide, fun b hb hle => ?_⟩⟩
  · obtain rfl := hone b hb hle
    rw [hface, ← hrow]
    omega
  · obtain rfl := hone b hb hle
    refine ⟨(), trivial, rfl, fun host scratch _ _ => ⟨(), trivial, ?_⟩⟩
    simp only [Nat.one_mul, ← hrow, List.range_one, List.map_singleton, List.flatten_singleton]
    rfl

/-- Every row of `embedding_dim` floats is the output of some engine. -/
theorem produced_of_row (math : FaceMath F) {embeddingDim : UInt32} {row : List F}
    (hrow : row.length = embeddingDim.toNat) (hsmall : row.length < 2 ^ 31) :
    Produced math embeddingDim (l2Normalize math row) := by
  let cfg : EncodingConfig := { enginePath := "arcface.engine", inputSize := 1, embeddingDim, batchSize := 1 }
  let pixel : Mat := ⟨1, 1, fun _ _ => ⟨0, 0, 0⟩⟩
  have hlaw : RowWise (steadyOps row) cfg (fun _ => row) fun _ => True :=
    steadyOps_rowWise hrow rfl rfl hsmall
  have hready : EncoderReady cfg (fun _ => True) ⟨cfg, (), faceRow pixel 1, row⟩ :=
    ⟨rfl, trivial, length_faceRow pixel 1, hrow.trans (Nat.one_mul _).symm⟩
  obtain ⟨enc', _, hrun⟩ := encodeBatch_run math hlaw (show 0 < (1 : UInt32).toNat by decide) [pixel] hready
  exact ⟨Unit, steadyOps row, _, enc', [pixel], _, rfl, hrun, List.mem_singleton_self _⟩

end Produced

end FacePipeline.Trt
