import FacePipeline.Lib.Hoare
import FacePipeline.Trt.ArcFaceEncoder

/-!
# Encoding in chunks is encoding one by one

The rows that a chunk copies in are overlays of the scratch buffer, and what is copied out is read back
row by row; the rows behind the last crop are never looked at. A chunk therefore appends what `embed`
gives for each of its crops (`encodeChunk_run`), whatever earlier chunks have left behind, and the loop
appends what `embed` gives for the whole list (`encodeFrom_run`).

What the engine has to do is `RowWise`: once the shape of a batch is set, output row `i` is a function of
input row `i`, the same for every batch size.
-/

namespace FacePipeline.Trt

open FacePipeline.Config Scratch Traverse

section Engine

variable {σ F : Type}

/-- The floats of one crop. -/
def perFace (cfg : EncodingConfig) : ℕ :=
  3 * (cfg.inputSize.toNat * cfg.inputSize.toNat)

/-- The engine's part of a chunk, once the input shape is set. -/
def EngineOps.session (ops : EngineOps σ F) (inputName outputName : String) (host : List F)
    (bytesIn : ℕ) (scratch : List F) (bytesOut : ℕ) : EStateM Stop σ (List F) := do
  ops.createStream
  ops.copyInput inputName host bytesIn
  ops.infer
  let out ← ops.copyOutput outputName scratch bytesOut
  ops.synchronize
  return out

theorem EngineOps.session_run {ops : EngineOps σ F} {inputName outputName : String}
    {host scratch out : List F} {bytesIn bytesOut : ℕ} {e e₁ e₂ e₃ e₄ e₅ : σ}
    (hcreate : ops.createStream.run e = .ok () e₁)
    (hcopyIn : (ops.copyInput inputName host bytesIn).run e₁ = .ok () e₂)
    (hinfer : ops.infer.run e₂ = .ok () e₃)
    (hcopyOut : (ops.copyOutput outputName scratch bytesOut).run e₃ = .ok out e₄)
    (hsync : ops.synchronize.run e₄ = .ok () e₅) :
    (ops.session inputName outputName host bytesIn scratch bytesOut).run e = .ok out e₅ := by
  rw [session, bind_run_of_ok hcreate, bind_run_of_ok hcopyIn, bind_run_of_ok hinfer,
    bind_run_of_ok hcopyOut, bind_run_of_ok hsync]
  rfl

/-- The engine accepts every batch up to `batch_size`, and computes each output row from the input row
of the same position. `Idle` is an invariant of the engine between two calls. -/
structure RowWise (ops : EngineOps σ F) (cfg : EncodingConfig) (row : List F → List F)
    (Idle : σ → Prop) : Prop where
  row_length : ∀ x, x.length = perFace cfg → (row x).length = cfg.embeddingDim.toNat
  /-- TensorRT limits a tensor to fewer than `2^31` elements. -/
  small : ∀ b, 1 ≤ b → b ≤ cfg.batchSize.toNat →
    b * perFace cfg < 2 ^ 31 ∧ b * cfg.embeddingDim.toNat < 2 ^ 31
  chunk : ∀ e, Idle e → ∃ input others, ops.bindings e = input :: others ∧
    firstOutput (input :: others) ≠ "" ∧ ∀ b : ℕ, 1 ≤ b → b ≤ cfg.batchSize.toNat → ∃ e₁, Idle e₁ ∧
      (ops.setInputShape input.name [b, 3, cfg.inputSize.toNat, cfg.inputSize.toNat]).run e =
        .ok () e₁ ∧
      ∀ host scratch, b * perFace cfg ≤ host.length → b * cfg.embeddingDim.toNat ≤ scratch.length →
        ∃ e₂, Idle e₂ ∧ (ops.session input.name (firstOutput (input :: others)) host
            (b * perFace cfg * kFloatSize) scratch (b * cfg.embeddingDim.toNat * kFloatSize)).run e₁ =
          .ok (((List.range b).map fun i => row (slice (perFace cfg) i host)).flatten ++
            scratch.drop (b * cfg.embeddingDim.toNat)) e₂

end Engine

section Encoder

variable {σ F : Type} [NatCast F] [Sub F] [Div F] [OfScientific F] [LT F] [DecidableLT F]

/-- The row that a face becomes. -/
def faceRow (image : Mat) (side : ℕ) : List F :=
  chwRow 127.5 127.5 image side side

/-- The embedding of one crop, by an engine that computes `row`. -/
def embed (math : FaceMath F) (side : ℕ) (row : List F → List F) (face : Mat) :
    Except Exn (Embedding F) :=
  (resized math face side).map fun image => l2Normalize math (row (faceRow image side))

/-! ### The rows that are copied in -/

omit [NatCast F] [Sub F] [Div F] [OfScientific F] [LT F] [DecidableLT F] in
theorem resized_size {math : FaceMath F} {face image : Mat} {side : ℕ}
    (h : resized math face side = .ok image) : image.rows = side ∧ image.cols = side := by
  rw [resized] at h
  split_ifs at h with hsize
  · have := math.resize_size _ _ _ h
    omega
  · obtain rfl := Except.ok.inj h
    omega

omit [LT F] [DecidableLT F] in
theorem preprocessFace_ok {math : FaceMath F} {face image : Mat} {side offset : ℕ} {dst : List F}
    (himage : resized math face side = .ok image) (hsmall : 3 * (side * side) < 2 ^ 31)
    (hfit : offset + 3 * (side * side) ≤ dst.length) :
    preprocessFace math face side offset dst = .ok (overlay offset (faceRow image side) dst) := by
  obtain ⟨hrows, hcols⟩ := resized_size himage
  rw [preprocessFace, himage]
  exact bind_ok.2 ⟨image, rfl, writeChw_ok hrows hcols hsmall hfit⟩

omit [LT F] [DecidableLT F] in
theorem preprocessFace_error {math : FaceMath F} {face : Mat} {side offset : ℕ} {dst : List F}
    {err : Exn} (h : resized math face side = .error err) :
    preprocessFace math face side offset dst = .error (.throws err) := by
  rw [preprocessFace, h]
  rfl

omit [NatCast F] [Sub F] [Div F] [OfScientific F] [LT F] [DecidableLT F] in
@[simp] theorem attempt_ok {α : Type} (a : α) (enc : ArcFaceEncoder σ F) :
    (attempt (.ok a) : EncoderM σ F α).run enc = .ok a enc := rfl

omit [NatCast F] [Sub F] [Div F] [OfScientific F] [LT F] [DecidableLT F] in
@[simp] theorem attempt_error {α : Type} (stop : Stop) (enc : ArcFaceEncoder σ F) :
    (attempt (.error stop) : EncoderM σ F α).run enc = .error stop enc := rfl

def ArcFaceEncoder.withInput (enc : ArcFaceEncoder σ F) (inputScratch : List F) :
    ArcFaceEncoder σ F :=
  { enc with inputScratch }

/-- The rows of the resized crops, one after the other. -/
def inputRows (images : List Mat) (side : ℕ) : List F :=
  (images.map fun image => faceRow image side).flatten

omit [LT F] [DecidableLT F] in
theorem length_faceRow (image : Mat) (side : ℕ) :
    (faceRow image side : List F).length = 3 * (side * side) :=
  length_chwRow _ _ _ _ _

omit [LT F] [DecidableLT F] in
theorem slices_inputRows (row : List F → List F) (images : List Mat) {side : ℕ} (rest : List F) :
    ((List.range images.length).map fun i =>
        row (slice (3 * (side * side)) i (inputRows images side ++ rest))) =
      images.map fun image => row (faceRow image side) := by
  have hlen : ∀ r ∈ images.map fun image => (faceRow image side : List F),
      r.length = 3 * (side * side) := by
    intro r hr
    obtain ⟨image, _, rfl⟩ := List.mem_map.1 hr
    exact length_faceRow image side
  have hslices := map_slices rest row hlen
  rw [List.length_map, List.map_map] at hslices
  exact hslices

omit [LT F] [DecidableLT F] in
/-- The loop that fills the input, up to the first crop that cannot be resized. -/
theorem fillInput_run (math : FaceMath F) {side per : ℕ} (hper : per = 3 * (side * side))
    (hsmall : per < 2 ^ 31) (i : ℕ) (crops : List Mat) (enc : ArcFaceEncoder σ F)
    (hfit : (i + crops.length) * per ≤ enc.inputScratch.length) :
    ∃ scratch, scratch.length = enc.inputScratch.length ∧
      match crops.mapM fun crop => resized math crop side with
      | .ok images => scratch = overlay (i * per) (inputRows images side) enc.inputScratch ∧
          (fillInput math side per i crops).run enc = .ok () (enc.withInput scratch)
      | .error err => (fillInput math side per i crops).run enc =
          .error (.throws err) (enc.withInput scratch) := by
  induction crops generalizing i enc with
  | nil => exact ⟨_, rfl, (overlay_nil _ _).symm, rfl⟩
  | cons crop crops ih =>
    have hfit' : (i + 1 + crops.length) * per ≤ enc.inputScratch.length := by
      rwa [Nat.add_assoc, Nat.add_comm 1]
    have hrow : i * per + per ≤ enc.inputScratch.length := by
      refine le_trans ?_ hfit'
      rw [← Nat.succ_mul]
      exact Nat.mul_le_mul_right _ (Nat.le_add_right _ _)
    rw [List.mapM_cons]
    cases hcrop : resized math crop side with
    | error err =>
      refine ⟨_, rfl, ?_⟩
      show EStateM.run (get >>= _) enc = _
      rw [bind_run_of_ok (EStateM.run_get _), preprocessFace_error hcrop]
      rfl
    | ok image =>
      -- the row of this crop, then the rows of the others
      have hlen : (faceRow image side : List F).length = per := (length_faceRow image side).trans hper.symm
      have hnext : (overlay (i * per) (faceRow image side) enc.inputScratch).length =
          enc.inputScratch.length := length_overlay (by rwa [hlen])
      have hwritten : preprocessFace math crop side (i * per) enc.inputScratch =
          .ok (overlay (i * per) (faceRow image side) enc.inputScratch) :=
        preprocessFace_ok hcrop (by rwa [← hper]) (by rwa [← hper])
      obtain ⟨scratch, hscratch, hrest⟩ := ih (i + 1)
        (enc.withInput (overlay (i * per) (faceRow image side) enc.inputScratch))
        (hfit'.trans_eq hnext.symm)
      have hrun : (fillInput math side per i (crop :: crops)).run enc =
          (fillInput math side per (i + 1) crops).run
            (enc.withInput (overlay (i * per) (faceRow image side) enc.inputScratch)) := by
        show EStateM.run (get >>= _) enc = _
        rw [bind_run_of_ok (EStateM.run_get _), hwritten]
        rfl
      refine ⟨scratch, hscratch.trans hnext, ?_⟩
      rw [hrun]
      cases hcrops : crops.mapM fun crop => resized math crop side with
      | error err =>
        rw [hcrops] at hrest
        exact hrest
      | ok images =>
        rw [hcrops] at hrest
        refine ⟨?_, hrest.2⟩
        rw [hrest.1, Nat.succ_mul, ← hlen]
        exact overlay_overlay (by rwa [hlen])

/-! ### The rows that are copied out -/

omit [NatCast F] [Sub F] in
/-- Every row is read and normalized, whatever stands behind them. -/
theorem readOutput_ok {math : FaceMath F} {emb : ℕ} {rows : List (List F)} {rest : List F}
    (hlen : ∀ row ∈ rows, row.length = emb) :
    readOutput math emb (rows.flatten ++ rest) rows.length = .ok (rows.map (l2Normalize math)) := by
  have hflatten := length_flatten_rows hlen
  have hrow : ∀ i ∈ List.range rows.length,
      (do return l2Normalize math (← readRow emb i (rows.flatten ++ rest)) : Except Stop _) =
        .ok (l2Normalize math (slice emb i (rows.flatten ++ rest))) := by
    intro i hi
    have hi := List.mem_range.1 hi
    have hle : (i + 1) * emb ≤ (rows.flatten ++ rest).length := by
      rw [List.length_append, hflatten]
      exact (Nat.mul_le_mul_right _ hi).trans (Nat.le_add_right _ _)
    rw [readRow, if_pos hle]
    rfl
  rw [readOutput, mapM_of_forall_ok hrow, map_slices _ _ hlen]

/-! ### One chunk -/

variable {ops : EngineOps σ F} {cfg : EncodingConfig} {row : List F → List F} {Idle : σ → Prop}

/-- The encoder between two calls: the scratch buffers have the lengths they were constructed with. -/
structure EncoderReady (cfg : EncodingConfig) (Idle : σ → Prop) (enc : ArcFaceEncoder σ F) : Prop where
  cfg_eq : enc.cfg = cfg
  idle : Idle enc.engine
  inputScratch : enc.inputScratch.length = cfg.batchSize.toNat * perFace cfg
  outputScratch : enc.outputScratch.length = cfg.batchSize.toNat * cfg.embeddingDim.toNat

omit [NatCast F] [Sub F] [Div F] [OfScientific F] [LT F] [DecidableLT F] in
theorem perFace_ok {cfg : EncodingConfig} (hsmall : perFace cfg < 2 ^ 31) :
    (int64 (3 * (cfg.inputSize.toNat : Int)) >>= fun n => int64 (n * cfg.inputSize.toNat)) =
      .ok (perFace cfg : Int) := by
  have hside : cfg.inputSize.toNat < 2 ^ 32 := cfg.inputSize.toNat_lt
  have hproduct : 3 * (cfg.inputSize.toNat : Int) * cfg.inputSize.toNat = perFace cfg := by
    rw [perFace, Int.mul_assoc]
    push_cast
    rfl
  refine bind_ok.2 ⟨3 * (cfg.inputSize.toNat : Int), ?_, ?_⟩
  · rw [int64, if_pos (by omega)]
  · rw [hproduct, int64, if_pos (by omega)]

omit [NatCast F] [Sub F] [Div F] [OfScientific F] [LT F] [DecidableLT F] in
theorem castInt_side {cfg : EncodingConfig} (hsmall : perFace cfg < 2 ^ 31) :
    castInt (cfg.inputSize.toNat : Int) = cfg.inputSize.toNat := by
  have hsquare := Nat.le_mul_self cfg.inputSize.toNat
  rw [perFace] at hsmall
  exact castInt_eq (by omega) (by omega)

omit [NatCast F] [Sub F] [Div F] [OfScientific F] [LT F] [DecidableLT F] in
theorem onEngine_eq {α : Type} (x : EStateM Stop σ α) : (onEngine x : EncoderM σ F α) =
    Hoare.focus (·.engine) (fun engine enc => { enc with engine }) id x := by
  funext enc
  rw [onEngine, Hoare.focus]
  cases x.run enc.engine with
  | ok a engine => rfl
  | error stop engine => rfl

omit [NatCast F] [Sub F] [Div F] [OfScientific F] [LT F] [DecidableLT F] in
theorem onEngine_ok {α : Type} {x : EStateM Stop σ α} {a : α} {enc : ArcFaceEncoder σ F} {e : σ}
    (h : x.run enc.engine = .ok a e) :
    (onEngine x : EncoderM σ F α).run enc = .ok a { enc with engine := e } := by
  rw [onEngine_eq]
  exact Hoare.focus_ok h

/-- The output rows of a chunk, and how they are normalized. -/
theorem embed_images (math : FaceMath F) (side : ℕ) (row : List F → List F) (chunk : List Mat) :
    chunk.mapM (embed math side row) =
      (chunk.mapM fun crop => resized math crop side).map fun images =>
        (images.map fun image => row (faceRow image side)).map (l2Normalize math) := by
  show chunk.mapM (fun crop => (resized math crop side).map _) = _
  rw [mapM_map]
  simp only [List.map_map]
  rfl

/-- A chunk whose input shape is set. -/
theorem runChunk_run (math : FaceMath F) (hlaw : RowWise ops cfg row Idle)
    {enc : ArcFaceEncoder σ F} (hready : EncoderReady cfg Idle enc) {inputName outputName : String}
    {chunk : List Mat} (hpos : 1 ≤ chunk.length) (hle : chunk.length ≤ cfg.batchSize.toNat)
    (hsession : ∀ host scratch, chunk.length * perFace cfg ≤ host.length →
      chunk.length * cfg.embeddingDim.toNat ≤ scratch.length →
      ∃ e₂, Idle e₂ ∧ (ops.session inputName outputName host
          (chunk.length * perFace cfg * kFloatSize) scratch
          (chunk.length * cfg.embeddingDim.toNat * kFloatSize)).run enc.engine =
        .ok (((List.range chunk.length).map fun i => row (slice (perFace cfg) i host)).flatten ++
          scratch.drop (chunk.length * cfg.embeddingDim.toNat)) e₂) :
    ∃ enc', EncoderReady cfg Idle enc' ∧
      (runChunk ops math inputName outputName cfg.inputSize.toNat cfg.embeddingDim.toNat chunk).run
        enc = match chunk.mapM (embed math cfg.inputSize.toNat row) with
          | .ok es => .ok es enc'
          | .error err => .error (.throws err) enc' := by
  obtain ⟨hsmallIn, hsmallOut⟩ := hlaw.small _ hpos hle
  have hface : perFace cfg < 2 ^ 31 := lt_of_le_of_lt (Nat.le_mul_of_pos_left _ hpos) hsmallIn
  have hside := castInt_side hface
  have hfit : (0 + chunk.length) * perFace cfg ≤ enc.inputScratch.length := by
    rw [Nat.zero_add, hready.inputScratch]
    exact Nat.mul_le_mul_right _ hle
  have hper : perFace cfg = 3 * (cfg.inputSize.toNat * cfg.inputSize.toNat) := rfl
  obtain ⟨scratch, hscratch, hfill⟩ := fillInput_run math hper hface 0 chunk enc hfit
  have hready' : EncoderReady cfg Idle (enc.withInput scratch) :=
    ⟨hready.cfg_eq, hready.idle, hscratch.trans hready.inputScratch, hready.outputScratch⟩
  rw [embed_images, runChunk, perFace_ok hface, bind_run_of_ok (attempt_ok _ _), Int.toNat_natCast,
    hside]
  cases himages : chunk.mapM fun crop => resized math crop cfg.inputSize.toNat with
  | error err =>
    rw [himages] at hfill
    exact ⟨_, hready', bind_run_error hfill⟩
  | ok images =>
    rw [himages] at hfill
    obtain ⟨hscratch_eq, hfill⟩ := hfill
    rw [bind_run_of_ok hfill]
    have hhost : chunk.length * perFace cfg ≤ scratch.length := by
      rw [hscratch]
      simpa using hfit
    have hout : chunk.length * cfg.embeddingDim.toNat ≤ enc.outputScratch.length := by
      rw [hready.outputScratch]
      exact Nat.mul_le_mul_right _ hle
    obtain ⟨e₂, he₂, hrun⟩ := hsession scratch enc.outputScratch hhost hout
    obtain ⟨_, s₁, hcreate, hrun⟩ := bind_run_ok.1 hrun
    obtain ⟨_, s₂, hcopyIn, hrun⟩ := bind_run_ok.1 hrun
    obtain ⟨_, s₃, hinfer, hrun⟩ := bind_run_ok.1 hrun
    obtain ⟨out, s₄, hcopyOut, hrun⟩ := bind_run_ok.1 hrun
    obtain ⟨_, s₅, hsync, hrun⟩ := bind_run_ok.1 hrun
    obtain ⟨hout_eq, rfl⟩ := EStateM.Result.ok.inj hrun
    -- the rows of the scratch buffer are those of the images
    have hlength : images.length = chunk.length := mapM_length himages
    have hrows : ((List.range chunk.length).map fun i => row (slice (perFace cfg) i scratch)) =
        images.map fun image => row (faceRow image cfg.inputSize.toNat) := by
      rw [hscratch_eq, Nat.zero_mul, overlay_zero, ← hlength]
      exact slices_inputRows row images _
    have hrow_length : ∀ r ∈ images.map fun image => row (faceRow image cfg.inputSize.toNat),
        r.length = cfg.embeddingDim.toNat := by
      intro r hr
      obtain ⟨image, _, rfl⟩ := List.mem_map.1 hr
      exact hlaw.row_length _ (length_faceRow image _)
    rw [hrows] at hout_eq
    have hread : readOutput math cfg.embeddingDim.toNat out chunk.length =
        .ok ((images.map fun image => row (faceRow image cfg.inputSize.toNat)).map
          (l2Normalize math)) := by
      rw [hout_eq, ← hlength, ← List.length_map (fun image => row (faceRow image cfg.inputSize.toNat))]
      exact readOutput_ok hrow_length
    have hbytes : ∀ n, chunk.length * n < 2 ^ 31 →
        sizeT (sizeT (chunk.length * n) * kFloatSize) = chunk.length * n * kFloatSize := fun n hn => by
      rw [sizeT, sizeT, kFloatSize, Nat.mod_eq_of_lt (a := chunk.length * n) (by omega),
        Nat.mod_eq_of_lt (by omega)]
    refine ⟨{ enc with engine := s₅, inputScratch := scratch, outputScratch := out }, ?_, ?_⟩
    · refine ⟨hready.cfg_eq, he₂, hready'.inputScratch, ?_⟩
      show out.length = _
      rw [hout_eq, List.length_append, List.length_drop, length_flatten_rows hrow_length,
        hready.outputScratch, List.length_map, hlength]
      have := Nat.mul_le_mul_right cfg.embeddingDim.toNat hle
      omega
    · rw [hbytes _ hsmallIn, hbytes _ hsmallOut]
      refine bind_run_ok.2 ⟨_, _, onEngine_ok hcreate, bind_run_ok.2 ⟨_, _, EStateM.run_get _, ?_⟩⟩
      refine bind_run_ok.2 ⟨_, _, onEngine_ok hcopyIn, bind_run_ok.2 ⟨_, _, onEngine_ok hinfer, ?_⟩⟩
      refine bind_run_ok.2 ⟨_, _, onEngine_ok hcopyOut, bind_run_ok.2 ⟨_, _, EStateM.run_modify _ _, ?_⟩⟩
      refine bind_run_ok.2 ⟨_, _, onEngine_ok hsync, ?_⟩
      rw [hread]
      rfl

/-- **A chunk appends the embeddings of its crops.** -/
theorem encodeChunk_run (math : FaceMath F) (hlaw : RowWise ops cfg row Idle)
    {enc : ArcFaceEncoder σ F} (hready : EncoderReady cfg Idle enc) {chunk : List Mat}
    (hle : chunk.length ≤ cfg.batchSize.toNat) (out : List (Embedding F)) :
    ∃ enc', EncoderReady cfg Idle enc' ∧ (encodeChunk ops math chunk out).run enc =
      match chunk.mapM (embed math cfg.inputSize.toNat row) with
      | .ok es => .ok (out ++ es) enc'
      | .error err => .error (.throws err) enc' := by
  by_cases hchunk : chunk = []
  · subst hchunk
    refine ⟨enc, hready, ?_⟩
    show EStateM.Result.ok out enc = .ok (out ++ []) enc
    rw [List.append_nil]
  · obtain ⟨input, others, hbindings, hname, hbatch⟩ := hlaw.chunk _ hready.idle
    have hpos : 1 ≤ chunk.length := List.length_pos_iff.2 hchunk
    obtain ⟨e₁, he₁, hshape, hsession⟩ := hbatch _ hpos hle
    have hready₁ : EncoderReady cfg Idle { enc with engine := e₁ } :=
      ⟨hready.cfg_eq, he₁, hready.inputScratch, hready.outputScratch⟩
    obtain ⟨enc', hready', hrun⟩ := runChunk_run math hlaw hready₁ hpos hle hsession
    refine ⟨enc', hready', ?_⟩
    rw [encodeChunk, if_neg (by simpa using hchunk), bind_run_of_ok (EStateM.run_get _)]
    simp only [hbindings, if_neg hname, hready.cfg_eq]
    rw [bind_run_of_ok (onEngine_ok hshape)]
    cases hembed : chunk.mapM (embed math cfg.inputSize.toNat row) with
    | error err =>
      rw [hembed] at hrun
      exact bind_run_error hrun
    | ok es =>
      rw [hembed] at hrun
      rw [bind_run_of_ok hrun]
      rfl

/-! ### The loop -/

/-- What is left of the crops after a chunk. -/
theorem drop_eq_chunk {faces : List Mat} (bsz : ℕ) {i : ℕ} (hi : i < faces.length) :
    faces.drop i = (faces.drop i).take (min (i + bsz) faces.length - i) ++ faces.drop (i + bsz) := by
  have htake : (faces.drop i).take (min (i + bsz) faces.length - i) = (faces.drop i).take bsz := by
    rcases Nat.le_total (i + bsz) faces.length with h | h
    · rw [Nat.min_eq_left h, Nat.add_sub_cancel_left]
    · rw [Nat.min_eq_right h, List.take_of_length_le (by rw [List.length_drop]),
        List.take_of_length_le (by rw [List.length_drop]; omega)]
  rw [htake, ← List.drop_drop, List.take_append_drop]

theorem encodeFrom_run (math : FaceMath F) (hlaw : RowWise ops cfg row Idle)
    (hbsz : 0 < cfg.batchSize.toNat) (faces : List Mat) (i : ℕ) (results : List (Embedding F))
    {enc : ArcFaceEncoder σ F} (hready : EncoderReady cfg Idle enc) :
    ∃ enc', EncoderReady cfg Idle enc' ∧
      (encodeFrom ops math faces cfg.batchSize.toNat i results).run enc =
        match (faces.drop i).mapM (embed math cfg.inputSize.toNat row) with
        | .ok es => .ok (results ++ es) enc'
        | .error err => .error (.throws err) enc' := by
  induction hn : faces.length - i using Nat.strong_induction_on generalizing i results enc with
  | _ n ih =>
    rw [encodeFrom]
    split_ifs with hi
    · have hdrop := drop_eq_chunk cfg.batchSize.toNat hi
      generalize hchunk_eq : (faces.drop i).take (min (i + cfg.batchSize.toNat) faces.length - i) =
        chunk at hdrop
      have hle : chunk.length ≤ cfg.batchSize.toNat := by
        rw [← hchunk_eq, List.length_take]
        omega
      obtain ⟨enc₁, hready₁, hchunk⟩ := encodeChunk_run math hlaw hready hle results
      simp only [hchunk_eq]
      rw [hdrop, List.mapM_append]
      cases hes : chunk.mapM (embed math cfg.inputSize.toNat row) with
      | error err =>
        rw [hes] at hchunk
        exact ⟨enc₁, hready₁, bind_run_error hchunk⟩
      | ok es =>
        rw [hes] at hchunk
        obtain ⟨enc₂, hready₂, hrest⟩ := ih _ (by omega) (i + cfg.batchSize.toNat) (results ++ es)
          hready₁ rfl
        refine ⟨enc₂, hready₂, ?_⟩
        rw [bind_run_of_ok hchunk, hrest]
        cases hrest_es : (faces.drop (i + cfg.batchSize.toNat)).mapM
          (embed math cfg.inputSize.toNat row) with
        | error err => rfl
        | ok es' =>
          show EStateM.Result.ok (results ++ es ++ es') enc₂ = .ok (results ++ (es ++ es')) enc₂
          rw [List.append_assoc]
    · refine ⟨enc, hready, ?_⟩
      rw [List.drop_eq_nil_of_le (not_lt.1 hi)]
      show EStateM.Result.ok results enc = .ok (results ++ []) enc
      rw [List.append_nil]

/-- **The batch is the list of the single embeddings.** -/
theorem encodeBatch_run (math : FaceMath F) (hlaw : RowWise ops cfg row Idle)
    (hbsz : 0 < cfg.batchSize.toNat) (faces : List Mat) {enc : ArcFaceEncoder σ F}
    (hready : EncoderReady cfg Idle enc) :
    ∃ enc', EncoderReady cfg Idle enc' ∧ (encodeBatch ops math faces).run enc =
      match faces.mapM (embed math cfg.inputSize.toNat row) with
      | .ok es => .ok es enc'
      | .error err => .error (.throws err) enc' := by
  obtain ⟨enc', hready', hrun⟩ := encodeFrom_run math hlaw hbsz faces 0 [] hready
  refine ⟨enc', hready', ?_⟩
  rw [encodeBatch, bind_run_of_ok (EStateM.run_get _), hready.cfg_eq]
  exact hrun

theorem outcome_encodeBatch (math : FaceMath F) (hlaw : RowWise ops cfg row Idle)
    (hbsz : 0 < cfg.batchSize.toNat) (faces : List Mat) {enc : ArcFaceEncoder σ F}
    (hready : EncoderReady cfg Idle enc) :
    outcome ((encodeBatch ops math faces).run enc) =
      (faces.mapM (embed math cfg.inputSize.toNat row)).mapError .throws := by
  obtain ⟨enc', _, hrun⟩ := encodeBatch_run math hlaw hbsz faces hready
  rw [hrun]
  cases faces.mapM (embed math cfg.inputSize.toNat row) <;> rfl

theorem outcome_encode (math : FaceMath F) (hlaw : RowWise ops cfg row Idle)
    (hbsz : 0 < cfg.batchSize.toNat) (face : Mat) {enc : ArcFaceEncoder σ F}
    (hready : EncoderReady cfg Idle enc) :
    outcome ((encode ops math face).run enc) =
      (embed math cfg.inputSize.toNat row face).mapError .throws := by
  obtain ⟨enc', _, hrun⟩ := encodeBatch_run math hlaw hbsz [face] hready
  rw [List.mapM_cons] at hrun
  cases hface : embed math cfg.inputSize.toNat row face with
  | error err =>
    rw [hface] at hrun
    rw [encode, bind_run_error hrun]
    rfl
  | ok e =>
    rw [hface] at hrun
    rw [encode, bind_run_of_ok hrun]
    rfl

end Encoder

end FacePipeline.Trt
