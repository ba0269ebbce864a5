import FacePipeline.Trt.EncodeOneByOne
import FacePipeline.Trt.ThresholdFilter

/-!
# Copies and element types

`copy_input` and `copy_output` are told a number of bytes, and both call sites count in floats. The buffers
hold elements of the engine's types, so an engine of half the size gets copies of twice what its buffers
hold. `copiesFit_iff` says for which engines and configurations no copy leaves either of its ends.
-/

namespace FacePipeline.Trt

open FacePipeline.Config Hoare

/-- **All copies fit exactly when the tensors that are copied are large enough in floats.** -/
theorem copiesFit_iff {F : Type} [Field F] [LinearOrder F] [IsStrictOrderedRing F] [FloorRing F]
    [ToString F] (cfg : SystemConfig F) (malloc malloc' : Malloc) (file file' : EngineFile)
    (det : SCRFDDetector F) (e : TrtEngine) (memory : Memory F) (enc : ArcFaceEncoder (Device F) F)
    (cv : Resizer) (sort : ScoreSort F) (math : FaceMath F) (hvalid : cfg.validate = .ok ())
    (hdet : SCRFDDetector.new malloc cfg.detection file = .ok det)
    (he : TrtEngine.new malloc' cfg.encoding.enginePath file' = .ok e)
    (henc : ArcFaceEncoder.new cfg.encoding (loaded e memory) = .ok enc)
    (hsupported : ∀ t ∈ det.engine.engine.tensors ++ e.engine.tensors, 0 < elementSizeFor t.dtype) :
    (DetectorCopiesFit cv sort det ↔ DetectorFits cfg.detection det.engine.engine) ∧
      (EncoderCopiesFit math enc ↔ EncoderFits cfg.encoding e.engine) := by
  have hcfg := SystemConfig.validate_ok.1 hvalid
  rw [List.forall_mem_append] at hsupported
  obtain ⟨input, rest, hmounted⟩ := new_mounted hdet hsupported.1
  obtain ⟨hassembled, rfl⟩ := new_assembled he hsupported.2 henc
  exact ⟨hmounted.detectorCopiesFit_iff hcfg.detection.width_pos hcfg.detection.height_pos cv sort,
    hassembled.encoderCopiesFit_iff hcfg.encoding.inputSize math⟩

/-! ### Two element types -/

/-- Detection at 32x32 and batches of two one-pixel crops. -/
def smallConfig : SystemConfig ℚ :=
  { pipeline := {}, detection := detectionConfig 32 32, encoding := rowsConfig 2, faiss := {}
    recognition := { threshold := 1 / 2, marginMin := 0 } }

theorem copiesFit_float : ∃ det e enc, smallConfig.validate = .ok () ∧
    SCRFDDetector.new (fun _ _ => none) smallConfig.detection (engineFile smallEngine) = .ok det ∧
    TrtEngine.new (fun _ _ => none) smallConfig.encoding.enginePath (engineFile rowsEngine) = .ok e ∧
    ArcFaceEncoder.new smallConfig.encoding (loaded e fun _ _ => (0 : ℚ)) = .ok enc ∧
    DetectorCopiesFit blackResizer (DescendingSort.insertion _) det ∧ EncoderCopiesFit ratMath enc := by
  obtain ⟨det, hdet, hdet_engine⟩ : ∃ det, SCRFDDetector.new (fun _ _ => none) smallConfig.detection
      (engineFile smallEngine) = .ok det ∧ det.engine.engine = smallEngine := ⟨_, rfl, rfl⟩
  obtain ⟨e, he, he_engine⟩ : ∃ e, TrtEngine.new (fun _ _ => none) smallConfig.encoding.enginePath
      (engineFile rowsEngine) = .ok e ∧ e.engine = rowsEngine := ⟨_, rfl, rfl⟩
  obtain ⟨enc, henc⟩ : ∃ enc : ArcFaceEncoder (Device ℚ) ℚ,
      ArcFaceEncoder.new smallConfig.encoding (loaded e fun _ _ => (0 : ℚ)) = .ok enc := ⟨_, rfl⟩
  have hvalid : smallConfig.validate = .ok () := by decide +kernel
  have hfits := copiesFit_iff smallConfig _ _ _ _ det e _ enc blackResizer (DescendingSort.insertion _)
    ratMath hvalid hdet he henc (by rw [hdet_engine, he_engine]; decide +kernel)
  refine ⟨det, e, enc, hvalid, hdet, he, henc, hfits.1.2 ?_, hfits.2.2 ?_⟩
  · rw [hdet_engine]
    have hfloat : ∀ t ∈ smallEngine.tensors, elementSizeFor t.dtype = kFloatSize := by decide +kernel
    intro input rest htensors
    refine ⟨hfloat input (by rw [htensors]; exact List.mem_cons_self), fun _ stride _ => ?_⟩
    intro score bbox kps hc t ht
    rcases List.mem_cons.1 ht with rfl | ht
    · exact hfloat _ (lastTensor_some hc.lastScore).1
    · rcases List.mem_cons.1 ht with rfl | ht
      · exact hfloat _ (lastTensor_some hc.lastBbox).1
      · obtain rfl := List.mem_singleton.1 ht
        exact hfloat _ (lastTensor_some hc.lastKps).1
  · rw [he_engine]
    intro input rest output htensors hfind _ b _ hle _
    obtain ⟨rfl, rfl⟩ := List.cons.inj htensors
    obtain rfl := Option.some.inj hfind
    have hle : b ≤ 2 := hle
    refine ⟨rfl, fun _ => ?_⟩
    show b * 2 * 4 ≤ 32
    omega

/-- The same network, built with elements of one type. -/
def CudaEngine.builtFor (engine : CudaEngine) (dtype : DataType) : CudaEngine where
  tensors := engine.tensors.map fun t => { t with dtype }
  nodup := by
    rw [List.map_map]
    exact engine.nodup
  elements_dims := by
    intro t ht hdims
    obtain ⟨t', ht', rfl⟩ := List.mem_map.1 ht
    exact engine.elements_dims t' ht' hdims
  accepts := engine.accepts
  of_accepts := by
    intro name shape h
    obtain ⟨⟨t, ht, hname, hinput, hrefines⟩, hsmall⟩ := engine.of_accepts name shape h
    exact ⟨⟨_, List.mem_map_of_mem ht, hname, hinput, hrefines⟩, hsmall⟩
  inferred := engine.inferred
  refines_inferred := by
    intro shapes t ht hout
    obtain ⟨t', ht', rfl⟩ := List.mem_map.1 ht
    exact engine.refines_inferred shapes t' ht' hout

/-- An FP16 engine: the image is copied into a buffer of half its bytes. -/
theorem not_copiesFit_half : ∃ det, smallConfig.validate = .ok () ∧
    SCRFDDetector.new (fun _ _ => none) smallConfig.detection
      (engineFile (smallEngine.builtFor .half)) = .ok det ∧
    (∀ t ∈ det.engine.engine.tensors, 0 < elementSizeFor t.dtype) ∧
    ⟨12288, 6144, 12288⟩ ∈ (runCalls (SCRFDDetector.detectBatch (deviceOps (constantCuda (0 : ℚ))) blackResizer
      (DescendingSort.insertion _) det) caught [[blankInput smallConfig.detection]]
      (det.start fun _ _ => 0)).engine.copies ∧
    ¬DetectorCopiesFit blackResizer (DescendingSort.insertion _) det := by
  obtain ⟨det, hdet, hengine, hscratch⟩ : ∃ det, SCRFDDetector.new (fun _ _ => none) smallConfig.detection
      (engineFile (smallEngine.builtFor .half)) = .ok det ∧
      det.engine.engine = smallEngine.builtFor .half ∧ det.inputScratch = 3072 := ⟨_, rfl, rfl, rfl⟩
  have hsupported : ∀ t ∈ det.engine.engine.tensors, 0 < elementSizeFor t.dtype := by
    rw [hengine]
    decide +kernel
  have hcopy : ⟨12288, 6144, 12288⟩ ∈ (runCalls (SCRFDDetector.detectBatch (deviceOps (constantCuda (0 : ℚ)))
      blackResizer (DescendingSort.insertion _) det) caught [[blankInput smallConfig.detection]]
      (det.start fun _ _ => 0)).engine.copies := by
    obtain ⟨input, rest, h⟩ := new_mounted hdet hsupported
    have hhalf : input.dtype = .half := by
      have htensors := h.tensors
      rw [hengine] at htensors
      rw [← (List.cons.inj htensors).1]
    refine detectBatch_fails (K := fun d => ⟨12288, 6144, 12288⟩ ∈ d.copies)
      (constantCuda (0 : ℚ)) _ _ _ rfl fun s hs => ?_
    obtain ⟨stop, s', hrun, hcopies, _⟩ := h.detectImage_misfit (by decide) (by decide) (constantCuda (0 : ℚ))
      blackResizer (DescendingSort.insertion _) hs (by rw [hhalf]; decide)
    refine ⟨stop, s', hrun, ?_⟩
    rw [hcopies, hscratch, hhalf]
    exact List.mem_append_right _ (List.mem_singleton_self _)
  exact ⟨det, by decide +kernel, hdet, hsupported, hcopy, fun hfit =>
    absurd (hfit _ _ _ _ hcopy) (by decide)⟩

end FacePipeline.Trt
