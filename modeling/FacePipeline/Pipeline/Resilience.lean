import FacePipeline.Pipeline.ProcessSpec

/-!
# Streams of frames and failing stages

A stream hands the frames to one chain, one after the other, and each frame comes with its own
behaviour of the stages. `process` catches what the encoder throws and nothing else, so an exception
of the aligner or of the index leaves `process` before the frame is reported. The frames on which
this cannot happen are `FrameSafe`; `process_ok_iff` shows that they are exactly the frames that
return, and `processAll_tolerates_iff` carries this over to streams.
-/

namespace FacePipeline.Pipeline

open FacePipeline.Config Traverse

variable {F Image Crop : Type}

/-- A frame together with what the stages do while it is processed. -/
structure Frame (F Image Crop : Type) where
  stages : Stages F Image Crop
  frameMeta : FrameMeta
  image : Image
  detections : List (FaceResult F)

/-- Every stage outside the try block returns whenever `process` gets to it. -/
def FrameSafe (cfg : RecognitionConfig F) (frame : Frame F Image Crop) : Prop :=
  frame.detections = [] ∨
    (∀ (i : ℕ) (f : FaceResult F), frame.detections[i]? = some f →
      ∃ crop, frame.stages.align i frame.image f.landmarks = .ok crop) ∧
    ∀ crops embeddings, AlignedCrops frame.stages frame.image frame.detections crops →
      frame.stages.encodeBatch crops = .ok embeddings →
      embeddings.length = frame.detections.length → frame.stages.size ≠ 0 →
      ∀ (i : ℕ) (e : Embedding F), embeddings[i]? = some e →
        ∃ hits, frame.stages.search i e cfg.topK = .ok hits

/-- The lookup of the `i`-th face of the frame throws. -/
def LookupFailed (cfg : RecognitionConfig F) (frame : Frame F Image Crop) (i : ℕ) : Prop :=
  ∃ crops embeddings e err, AlignedCrops frame.stages frame.image frame.detections crops ∧
    frame.stages.encodeBatch crops = .ok embeddings ∧
    embeddings.length = frame.detections.length ∧ frame.stages.size ≠ 0 ∧
    embeddings[i]? = some e ∧ frame.stages.search i e cfg.topK = .error err

theorem FrameSafe.not_lookupFailed {cfg : RecognitionConfig F} {frame : Frame F Image Crop} {i : ℕ}
    (h : FrameSafe cfg frame) : ¬LookupFailed cfg frame i := by
  rintro ⟨crops, embeddings, e, err, hcrops, hencode, hlen, hsize, he, hthrow⟩
  rcases h with hnil | ⟨_, hsearch⟩
  · rw [hnil, List.length_nil, List.length_eq_zero_iff] at hlen
    simp [hlen] at he
  · obtain ⟨hits, hhits⟩ := hsearch crops embeddings hcrops hencode hlen hsize i e he
    rw [hhits] at hthrow
    cases hthrow

/-- Once alignment has succeeded, only the lookups of a successfully encoded frame matter. -/
theorem frameSafe_iff_searchAll {cfg : RecognitionConfig F} {frame : Frame F Image Crop}
    {crops : List Crop} (hfaces : frame.detections ≠ [])
    (hcrops : alignAll frame.stages frame.image frame.detections = .ok crops) :
    FrameSafe cfg frame ↔ ∀ embeddings, frame.stages.encodeBatch crops = .ok embeddings →
      embeddings.length = frame.detections.length → frame.stages.size ≠ 0 →
      ∃ hits, searchAll frame.stages cfg.topK 0 embeddings = .ok hits := by
  have haligned := alignAll_ok_iff.1 hcrops
  constructor
  · rintro (hnil | ⟨_, hsearch⟩) embeddings hencode hlen hsize
    · exact absurd hnil hfaces
    · exact exists_searchAll_ok fun i e he =>
        hsearch crops embeddings haligned hencode hlen hsize i e he
  · intro h
    refine .inr ⟨fun i f hi => (haligned.2 i f hi).imp fun _ hcrop => hcrop.2, ?_⟩
    intro crops' embeddings hcrops' hencode hlen hsize i e he
    obtain rfl := Except.ok.inj (hcrops.symm.trans (alignAll_ok_iff.2 hcrops'))
    obtain ⟨hits, hhits⟩ := h embeddings hencode hlen hsize
    obtain ⟨answer, _, hanswer⟩ := (traverseIdx_ok_iff.1 hhits).2 i e he
    exact ⟨answer, by simpa using hanswer⟩

variable [Sub F] [LE F] [DecidableLE F]

/-- Process the frames of a stream; an exception that leaves `process` ends it. -/
def ProbeChain.processAll (c : ProbeChain F) :
    List (Frame F Image Crop) → Run F Crop (List (FrameResult F))
  | [] => return []
  | frame :: frames => do
      let result ← c.process frame.stages frame.frameMeta frame.image frame.detections
      let results ← c.processAll frames
      return result :: results

/-- The stream survives: every frame returns, the callback sees exactly the results in frame order,
and a face whose lookup threw has no identity. -/
def Tolerates (c : ProbeChain F) (frames : List (Frame F Image Crop)) : Prop :=
  ∃ results t, (c.processAll frames).run {} = .ok results t ∧ t.delivered = results ∧
    results.map (·.frameMeta) = frames.map (·.frameMeta) ∧
    ∀ (j i : ℕ) (frame : Frame F Image Crop) (result : FrameResult F) (f : FaceResult F),
      frames[j]? = some frame → results[j]? = some result → result.faces[i]? = some f →
      LookupFailed c.recognitionCfg frame i → f.matchedId = none

variable {c : ProbeChain F}

/-! ### One frame -/

theorem process_ok_iff (frame : Frame F Image Crop) (t : Trace F Crop) :
    (∃ result t', (c.process frame.stages frame.frameMeta frame.image frame.detections).run t =
      .ok result t') ↔ FrameSafe c.recognitionCfg frame := by
  obtain ⟨s, frameMeta, image, faces⟩ := frame
  have hprocess := process_processed c s frameMeta image t faces
  generalize (c.process s frameMeta image faces).run t = outcome at hprocess ⊢
  cases hprocess with
  | noFaces => exact iff_of_true ⟨_, _, rfl⟩ (.inl rfl)
  | alignThrows hfaces hthrow =>
    refine iff_of_false (by simp) ?_
    rintro (hnil | ⟨halign, _⟩)
    · exact hfaces hnil
    · obtain ⟨crops, hcrops⟩ := exists_alignAll_ok halign
      rw [hcrops] at hthrow
      cases hthrow
  | encodeThrows hfaces hcrops hthrow =>
    refine iff_of_true ⟨_, _, rfl⟩ ((frameSafe_iff_searchAll hfaces hcrops).2 ?_)
    intro embeddings hembeddings
    rw [hthrow] at hembeddings
    cases hembeddings
  | countMismatch hfaces hcrops hembeddings hlen =>
    refine iff_of_true ⟨_, _, rfl⟩ ((frameSafe_iff_searchAll hfaces hcrops).2 ?_)
    intro embeddings' hembeddings' hlen'
    obtain rfl := Except.ok.inj (hembeddings.symm.trans hembeddings')
    exact absurd hlen' hlen
  | emptyIndex hfaces hcrops hembeddings hlen hsize =>
    exact iff_of_true ⟨_, _, rfl⟩ ((frameSafe_iff_searchAll hfaces hcrops).2
      fun _ _ _ hsize' => absurd hsize hsize')
  | searchThrows hfaces hcrops hembeddings hlen hsize hthrow =>
    refine iff_of_false (by simp) fun hsafe => ?_
    obtain ⟨hits, hhits⟩ := (frameSafe_iff_searchAll hfaces hcrops).1 hsafe _ hembeddings hlen hsize
    rw [hthrow] at hhits
    cases hhits
  | resolved hfaces hcrops hembeddings hlen hsize hhits =>
    refine iff_of_true ⟨_, _, rfl⟩ ((frameSafe_iff_searchAll hfaces hcrops).2 ?_)
    intro embeddings' hembeddings' _ _
    obtain rfl := Except.ok.inj (hembeddings.symm.trans hembeddings')
    exact ⟨_, hhits⟩

/-- A frame that returns has been reported once, with its own metadata. -/
theorem process_delivers {s : Stages F Image Crop} {frameMeta : FrameMeta} {image : Image}
    {faces : List (FaceResult F)} {t t' : Trace F Crop} {result : FrameResult F}
    (h : (c.setResultCallback.process s frameMeta image faces).run t = .ok result t') :
    t'.delivered = t.delivered ++ [result] ∧ result.frameMeta = frameMeta := by
  have hprocess := process_processed c.setResultCallback s frameMeta image t faces
  rw [h] at hprocess
  cases hprocess <;> exact ⟨rfl, rfl⟩

/-! ### A stream -/

theorem processAll_cons_ok {frame : Frame F Image Crop} {frames : List (Frame F Image Crop)}
    {results : List (FrameResult F)} {t t' : Trace F Crop} :
    (c.processAll (frame :: frames)).run t = .ok results t' ↔ ∃ result rest t₁,
      (c.process frame.stages frame.frameMeta frame.image frame.detections).run t = .ok result t₁ ∧
      (c.processAll frames).run t₁ = .ok rest t' ∧ results = result :: rest := by
  simp only [ProbeChain.processAll, EStateM.run_bind]
  cases (c.process frame.stages frame.frameMeta frame.image frame.detections).run t with
  | error e t₁ => simp
  | ok result t₁ =>
    cases hrest : (c.processAll frames).run t₁ with
    | error e t₂ => simp [hrest]
    | ok rest t₂ =>
      simp only [hrest, EStateM.run_pure, EStateM.Result.ok.injEq]
      constructor
      · rintro ⟨rfl, rfl⟩
        exact ⟨_, _, _, ⟨rfl, rfl⟩, hrest, rfl⟩
      · rintro ⟨_, _, _, ⟨rfl, rfl⟩, hrest', rfl⟩
        rw [hrest] at hrest'
        cases hrest'
        exact ⟨rfl, rfl⟩

theorem processAll_ok_iff (frames : List (Frame F Image Crop)) (t : Trace F Crop) :
    (∃ results t', (c.processAll frames).run t = .ok results t') ↔
      ∀ frame ∈ frames, FrameSafe c.recognitionCfg frame := by
  induction frames generalizing t with
  | nil => exact iff_of_true ⟨[], t, rfl⟩ (by simp)
  | cons frame frames ih =>
    simp only [processAll_cons_ok, List.forall_mem_cons]
    rw [← process_ok_iff frame t]
    constructor
    · rintro ⟨_, t', result, rest, t₁, hframe, hframes, rfl⟩
      exact ⟨⟨result, t₁, hframe⟩, (ih t₁).1 ⟨rest, t', hframes⟩⟩
    · rintro ⟨⟨result, t₁, hframe⟩, hsafe⟩
      obtain ⟨rest, t', hframes⟩ := (ih t₁).2 hsafe
      exact ⟨_, t', result, rest, t₁, hframe, hframes, rfl⟩

/-- What a stream that ends normally has delivered. -/
theorem processAll_delivers {frames : List (Frame F Image Crop)} {results : List (FrameResult F)}
    {t t' : Trace F Crop} (h : (c.setResultCallback.processAll frames).run t = .ok results t') :
    t'.delivered = t.delivered ++ results ∧
      results.map (·.frameMeta) = frames.map (·.frameMeta) := by
  induction frames generalizing t results with
  | nil =>
    cases h
    simp
  | cons frame frames ih =>
    obtain ⟨result, rest, t₁, hframe, hframes, rfl⟩ := processAll_cons_ok.1 h
    obtain ⟨hdelivered, hmeta⟩ := process_delivers hframe
    obtain ⟨hrest, hmetas⟩ := ih hframes
    simp [hrest, hdelivered, hmeta, hmetas]

/-- **A stream survives exactly when each of its frames is safe.** -/
theorem processAll_tolerates_iff (c : ProbeChain F) (frames : List (Frame F Image Crop)) :
    Tolerates c.setResultCallback frames ↔ ∀ frame ∈ frames, FrameSafe c.recognitionCfg frame := by
  constructor
  · rintro ⟨results, t, hrun, _⟩
    exact (processAll_ok_iff (c := c.setResultCallback) frames {}).1 ⟨results, t, hrun⟩
  · intro hsafe
    obtain ⟨results, t, hrun⟩ := (processAll_ok_iff (c := c.setResultCallback) frames {}).2 hsafe
    obtain ⟨hdelivered, hmetas⟩ := processAll_delivers hrun
    refine ⟨results, t, hrun, by simpa using hdelivered, hmetas, ?_⟩
    intro j i frame result f hframe _ _ hfailed
    exact absurd hfailed (hsafe frame (List.mem_of_getElem? hframe)).not_lookupFailed

/-! ### A search that throws on the second face -/

/-- The index of `positionStages` fails on its second call. -/
def failingSearch : Stages ℤ Unit ℤ :=
  { positionStages with
    search := fun i e k =>
      if i = 1 then .error (.runtimeError "gpu") else positionStages.search i e k }

/-- The frame is lost, and so is the healthy one behind it. -/
theorem processAll_failingSearch :
    ¬Tolerates (ProbeChain.setResultCallback ⟨⟨50, 10, 5⟩, false⟩)
      [⟨failingSearch, ⟨"cam", 1, 0⟩, (), [faceAt 3, faceAt 4]⟩,
        ⟨positionStages, ⟨"cam", 2, 0⟩, (), [faceAt 3]⟩] := by
  rintro ⟨results, t, hrun, _⟩
  cases hrun

end FacePipeline.Pipeline
