import FacePipeline.Trt.BatchedEncoding

/-!
# A batch and its faces

An encoder that was constructed from a validated configuration and has served any calls since is
`EncoderReady` when its engine is `RowWise`, so its answers are those of `embed` for each crop: neither the
batch size nor what earlier calls have left in the scratch buffers shows (`encodesOneByOne_of_ready`).
-/

namespace FacePipeline.Trt

open FacePipeline.Config Scratch

section Encoder

variable {σ F : Type} [NatCast F] [Zero F] [Sub F] [Div F] [OfScientific F] [LT F] [DecidableLT F]

/-- An encoder that was constructed and has been called since, whatever the calls came to. -/
inductive Reached (ops : EngineOps σ F) (math : FaceMath F) (cfg : EncodingConfig) (engine : σ) :
    ArcFaceEncoder σ F → Prop
  | new {enc : ArcFaceEncoder σ F} : ArcFaceEncoder.new cfg engine = .ok enc →
      Reached ops math cfg engine enc
  | encodeBatch {enc : ArcFaceEncoder σ F} (faces : List Mat) : Reached ops math cfg engine enc →
      Reached ops math cfg engine (stateAfter ((encodeBatch ops math faces).run enc))
  | encode {enc : ArcFaceEncoder σ F} (face : Mat) : Reached ops math cfg engine enc →
      Reached ops math cfg engine (stateAfter ((encode ops math face).run enc))

/-- What batched encoding owes its caller. -/
structure EncodesOneByOne (ops : EngineOps σ F) (math : FaceMath F) (enc : ArcFaceEncoder σ F) :
    Prop where
  /-- A batch of crops that `cv::resize` accepts is encoded, each crop once. -/
  returns : ∀ faces, (∀ face ∈ faces, ∃ image, resized math face enc.cfg.inputSize.toNat = .ok image) →
    ∃ es, outcome ((encodeBatch ops math faces).run enc) = .ok es ∧ es.length = faces.length
  /-- The batch is the list of the single answers, up to the first face that is refused. -/
  batch : ∀ faces, outcome ((encodeBatch ops math faces).run enc) =
    faces.mapM fun face => outcome ((encode ops math face).run enc)
  length : ∀ faces es, outcome ((encodeBatch ops math faces).run enc) = .ok es →
    es.length = faces.length
  /-- No access leaves its buffer. -/
  inBounds : ∀ faces what, outcome ((encodeBatch ops math faces).run enc) ≠ .error (.undefined what)
  inputScratch : enc.inputScratch.length =
    enc.cfg.batchSize.toNat * 3 * enc.cfg.inputSize.toNat * enc.cfg.inputSize.toNat
  outputScratch : enc.outputScratch.length = enc.cfg.batchSize.toNat * enc.cfg.embeddingDim.toNat

variable {ops : EngineOps σ F} {cfg : EncodingConfig} {row : List F → List F} {Idle : σ → Prop}

omit [NatCast F] [Sub F] [Div F] [OfScientific F] [LT F] [DecidableLT F] in
theorem resizeFloats_ok {n : ℕ} {xs : List F} (h : resizeFloats n = .ok xs) : xs.length = n := by
  rw [resizeFloats] at h
  split_ifs at h
  obtain rfl := Except.ok.inj h
  exact List.length_replicate

/-- The four factors that the constructor multiplies stay below `2^64` when a face has fewer than `2^31`
floats. -/
theorem inputScratch_size {cfg : EncodingConfig} (hface : perFace cfg < 2 ^ 31) :
    sizeT (sizeT (sizeT (cfg.batchSize.toNat * 3) * cfg.inputSize.toNat) * cfg.inputSize.toNat) =
      cfg.batchSize.toNat * perFace cfg := by
  have hbatch : cfg.batchSize.toNat < 2 ^ 32 := cfg.batchSize.toNat_lt
  have hproduct : cfg.batchSize.toNat * 3 * cfg.inputSize.toNat * cfg.inputSize.toNat =
      cfg.batchSize.toNat * perFace cfg := by
    rw [perFace, Nat.mul_assoc, Nat.mul_assoc]
  have hlt : cfg.batchSize.toNat * perFace cfg < 2 ^ 32 * 2 ^ 31 :=
    Nat.mul_lt_mul'' hbatch hface
  have hside : cfg.batchSize.toNat * 3 * cfg.inputSize.toNat < 2 ^ 64 := by
    rcases Nat.eq_zero_or_pos cfg.inputSize.toNat with h0 | hpos
    · rw [h0, Nat.mul_zero]
      decide
    · have := Nat.le_mul_of_pos_right (cfg.batchSize.toNat * 3 * cfg.inputSize.toNat) hpos
      omega
  simp only [sizeT]
  rw [Nat.mod_eq_of_lt (a := cfg.batchSize.toNat * 3) (by omega), Nat.mod_eq_of_lt hside, hproduct,
    Nat.mod_eq_of_lt (by omega)]

theorem outputScratch_size (cfg : EncodingConfig) :
    sizeT (cfg.batchSize.toNat * cfg.embeddingDim.toNat) =
      cfg.batchSize.toNat * cfg.embeddingDim.toNat := by
  have hlt : cfg.batchSize.toNat * cfg.embeddingDim.toNat < 2 ^ 32 * 2 ^ 32 :=
    Nat.mul_lt_mul'' cfg.batchSize.toNat_lt cfg.embeddingDim.toNat_lt
  exact Nat.mod_eq_of_lt (by omega)

omit [NatCast F] [Sub F] [Div F] [OfScientific F] [LT F] [DecidableLT F] in
theorem new_ready (hlaw : RowWise ops cfg row Idle) (hbsz : 0 < cfg.batchSize.toNat) {engine : σ}
    (hidle : Idle engine) {enc : ArcFaceEncoder σ F} (h : ArcFaceEncoder.new cfg engine = .ok enc) :
    EncoderReady cfg Idle enc := by
  obtain ⟨inputScratch, hin, h⟩ := bind_ok.1 h
  obtain ⟨outputScratch, hout, h⟩ := bind_ok.1 h
  obtain rfl := pure_ok.1 h
  have hface : perFace cfg < 2 ^ 31 :=
    (Nat.le_mul_of_pos_left _ hbsz).trans_lt (hlaw.small _ hbsz le_rfl).1
  exact ⟨rfl, hidle, (resizeFloats_ok hin).trans (inputScratch_size hface),
    (resizeFloats_ok hout).trans (outputScratch_size cfg)⟩

omit [Zero F] in
/-- `encode` leaves what `encode_batch` of the one face leaves. -/
theorem stateAfter_encode (ops : EngineOps σ F) (math : FaceMath F) (face : Mat)
    (enc : ArcFaceEncoder σ F) :
    stateAfter ((encode ops math face).run enc) =
      stateAfter ((encodeBatch ops math [face]).run enc) := by
  cases hrun : (encodeBatch ops math [face]).run enc with
  | error stop enc' =>
    rw [encode, bind_run_error hrun]
    rfl
  | ok es enc' =>
    rw [encode, bind_run_of_ok hrun]
    cases es <;> rfl

omit [Zero F] in
theorem stateAfter_ready (math : FaceMath F) (hlaw : RowWise ops cfg row Idle)
    (hbsz : 0 < cfg.batchSize.toNat) (faces : List Mat) {enc : ArcFaceEncoder σ F}
    (hready : EncoderReady cfg Idle enc) :
    EncoderReady cfg Idle (stateAfter ((encodeBatch ops math faces).run enc)) := by
  obtain ⟨enc', hready', hrun⟩ := encodeBatch_run math hlaw hbsz faces hready
  rw [hrun]
  cases faces.mapM (embed math cfg.inputSize.toNat row) <;> exact hready'

/-- Every encoder in use is ready. -/
theorem Reached.ready {math : FaceMath F} (hlaw : RowWise ops cfg row Idle)
    (hbsz : 0 < cfg.batchSize.toNat) {engine : σ} (hidle : Idle engine) {enc : ArcFaceEncoder σ F}
    (h : Reached ops math cfg engine enc) : EncoderReady cfg Idle enc := by
  induction h with
  | new hnew => exact new_ready hlaw hbsz hidle hnew
  | encodeBatch faces _ ih => exact stateAfter_ready math hlaw hbsz faces ih
  | encode face _ ih =>
    rw [stateAfter_encode]
    exact stateAfter_ready math hlaw hbsz [face] ih

omit [Zero F] in
theorem encodesOneByOne_of_ready (math : FaceMath F) (hlaw : RowWise ops cfg row Idle)
    (hbsz : 0 < cfg.batchSize.toNat) {enc : ArcFaceEncoder σ F} (hready : EncoderReady cfg Idle enc) :
    EncodesOneByOne ops math enc := by
  have hbatch := fun faces => outcome_encodeBatch math hlaw hbsz faces hready
  refine ⟨fun faces hfaces => ?_, fun faces => ?_, fun faces es hes => ?_, fun faces what hes => ?_, ?_, ?_⟩
  · obtain ⟨es, hes⟩ : ∃ es, faces.mapM (embed math cfg.inputSize.toNat row) = .ok es := by
      refine Traverse.exists_mapM_ok fun face hface => ?_
      obtain ⟨image, himage⟩ := hfaces face hface
      rw [hready.cfg_eq] at himage
      exact ⟨_, by rw [embed, himage]; rfl⟩
    rw [hbatch, hes]
    exact ⟨es, rfl, Traverse.mapM_length hes⟩
  · simp only [hbatch, outcome_encode math hlaw hbsz _ hready]
    exact (Traverse.mapM_mapError _ _ _).symm
  · rw [hbatch] at hes
    cases hembed : faces.mapM (embed math cfg.inputSize.toNat row) with
    | error err =>
      rw [hembed] at hes
      cases hes
    | ok es' =>
      rw [hembed] at hes
      obtain rfl := Except.ok.inj hes
      exact Traverse.mapM_length hembed
  · rw [hbatch] at hes
    cases hembed : faces.mapM (embed math cfg.inputSize.toNat row) with
    | error err =>
      rw [hembed] at hes
      cases hes
    | ok es =>
      rw [hembed] at hes
      cases hes
  · rw [hready.inputScratch, hready.cfg_eq, perFace, Nat.mul_assoc, Nat.mul_assoc]
  · rw [hready.outputScratch, hready.cfg_eq]

end Encoder

end FacePipeline.Trt
