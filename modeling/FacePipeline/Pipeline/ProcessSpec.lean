import FacePipeline.Pipeline.ProbeChain
import Mathlib.Algebra.Ring.Int.Defs

/-!
# The specification of one frame

`FrameSpec` says what a frame on which no stage throws has to come out as, without following the
exits of `process`: the detector's part is untouched, the embeddings are those of one batched call
on the crops in face order, and a face has an identity exactly when its own hits pass the margin
rule. `process_spec` proves it from the list of exits.
-/

namespace FacePipeline.Pipeline

open FacePipeline.Config Traverse

variable {F Image Crop : Type}

/-- `crops` are the aligned crops of `faces`, in face order. -/
def AlignedCrops (s : Stages F Image Crop) (image : Image) (faces : List (FaceResult F))
    (crops : List Crop) : Prop :=
  crops.length = faces.length ∧ ∀ (i : ℕ) (f : FaceResult F), faces[i]? = some f →
    ∃ crop, crops[i]? = some crop ∧ s.align i image f.landmarks = .ok crop

theorem alignAll_ok_iff {s : Stages F Image Crop} {image : Image} {faces : List (FaceResult F)}
    {crops : List Crop} :
    alignAll s image faces = .ok crops ↔ AlignedCrops s image faces crops := by
  simp [alignAll, traverseIdx_ok_iff, AlignedCrops]

theorem exists_alignAll_ok {s : Stages F Image Crop} {image : Image} {faces : List (FaceResult F)}
    (h : ∀ (i : ℕ) (f : FaceResult F), faces[i]? = some f →
      ∃ crop, s.align i image f.landmarks = .ok crop) :
    ∃ crops, alignAll s image faces = .ok crops :=
  exists_traverseIdx_ok (by simpa using h)

theorem exists_searchAll_ok {s : Stages F Image Crop} {topK : UInt32}
    {queries : List (Embedding F)}
    (h : ∀ (j : ℕ) (q : Embedding F), queries[j]? = some q → ∃ hits, s.search j q topK = .ok hits) :
    ∃ hits, searchAll s topK 0 queries = .ok hits :=
  exists_traverseIdx_ok (by simpa using h)

section Spec
variable [Sub F] [LE F] [DecidableLE F]

/-- The frame `result`, and the calls `t` made for it, are what the detections `faces` call for. -/
structure FrameSpec (c : ProbeChain F) (s : Stages F Image Crop) (frameMeta : FrameMeta)
    (image : Image) (faces : List (FaceResult F)) (result : FrameResult F) (t : Trace F Crop) :
    Prop where
  frameMeta : result.frameMeta = frameMeta
  detection : result.faces.map (·.detection) = faces.map (·.detection)
  /-- One batched encoder call on the crops, and either no embedding at all or all of them. -/
  encoded : ∃ crops embeddings, AlignedCrops s image faces crops ∧
    s.encodeBatch crops = .ok embeddings ∧
    t.encodeCalls = (if faces = [] then [] else [crops]) ∧
    ((∀ f ∈ result.faces, f.embedding = none) ↔
      faces = [] ∨ embeddings.length ≠ faces.length) ∧
    ((∀ f ∈ result.faces, f.embedding = none) ∨
      result.faces.map (·.embedding) = embeddings.map some)
  /-- The identity of a face is decided by the hits of its own embedding. -/
  identity : ∀ (i : ℕ) (f : FaceResult F), result.faces[i]? = some f → ∀ id : Int,
    f.matchedId = some id ↔ ∃ e hits, f.embedding = some e ∧ s.size ≠ 0 ∧
      s.search i e c.recognitionCfg.topK = .ok hits ∧ hits.head?.map (·.id) = some id ∧
      matchDecisionRanked (hits.map (·.similarity)) c.recognitionCfg.threshold
        c.recognitionCfg.marginMin = true

variable {c : ProbeChain F} {s : Stages F Image Crop} {frameMeta : FrameMeta} {image : Image}
  {faces : List (FaceResult F)}

/-- A frame that leaves `process` before an embedding is attached. -/
theorem frameSpec_bare {crops : List Crop} {embeddings : List (Embedding F)} {t : Trace F Crop}
    (hfresh : ∀ f ∈ faces, f.embedding = none ∧ f.matchedId = none)
    (halign : AlignedCrops s image faces crops) (hencode : s.encodeBatch crops = .ok embeddings)
    (hcalls : t.encodeCalls = if faces = [] then [] else [crops])
    (hlen : faces = [] ∨ embeddings.length ≠ faces.length) :
    FrameSpec c s frameMeta image faces ⟨frameMeta, faces⟩ t := by
  have hnone : ∀ f ∈ faces, f.embedding = none := fun f hf => (hfresh f hf).1
  refine ⟨rfl, rfl, ⟨crops, embeddings, halign, hencode, hcalls, iff_of_true hnone hlen,
    .inl hnone⟩,
    fun i f hi id => ?_⟩
  have hf := hfresh f (List.mem_of_getElem? hi)
  simp [hf.1, hf.2]

/-- A frame whose faces carry the embeddings of the encoder call. -/
theorem frameSpec_encoded {crops : List Crop} {embeddings : List (Embedding F)} {t : Trace F Crop}
    {faces' : List (FaceResult F)} (hfaces : faces ≠ []) (halign : AlignedCrops s image faces crops)
    (hencode : s.encodeBatch crops = .ok embeddings) (hlen : embeddings.length = faces.length)
    (hcalls : t.encodeCalls = [crops])
    (hdetection : faces'.map (·.detection) = faces.map (·.detection))
    (hembedding : faces'.map (·.embedding) = embeddings.map some)
    (hidentity : ∀ (i : ℕ) (f : FaceResult F) (e : Embedding F), faces'[i]? = some f →
      embeddings[i]? = some e → ∀ id : Int, f.matchedId = some id ↔ ∃ hits, s.size ≠ 0 ∧
        s.search i e c.recognitionCfg.topK = .ok hits ∧ hits.head?.map (·.id) = some id ∧
        matchDecisionRanked (hits.map (·.similarity)) c.recognitionCfg.threshold
          c.recognitionCfg.marginMin = true) :
    FrameSpec c s frameMeta image faces ⟨frameMeta, faces'⟩ t := by
  have hsome : ∀ (i : ℕ) (f : FaceResult F), faces'[i]? = some f →
      ∃ e, embeddings[i]? = some e ∧ f.embedding = some e := by
    intro i f hi
    have := congrArg (·[i]?) hembedding
    simp only [List.getElem?_map, hi, Option.map_some] at this
    obtain ⟨e, he, hfe⟩ := Option.map_eq_some_iff.1 this.symm
    exact ⟨e, he, hfe.symm⟩
  refine ⟨rfl, hdetection, ⟨crops, embeddings, halign, hencode, by simp [hcalls, hfaces], ?_,
    .inr hembedding⟩, fun i f hi id => ?_⟩
  · -- the frame has a face, and that face has an embedding
    have hne : faces' ≠ [] := by
      rintro rfl
      exact hfaces (List.map_eq_nil_iff.1 hdetection.symm)
    obtain ⟨f, hf⟩ := List.exists_mem_of_ne_nil _ hne
    obtain ⟨i, hi⟩ := List.mem_iff_getElem?.1 hf
    obtain ⟨e, _, he⟩ := hsome i f hi
    refine iff_of_false (fun hnone => ?_) (by simp [hfaces, hlen])
    simp [hnone f hf] at he
  · obtain ⟨e, he, hfe⟩ := hsome i f hi
    rw [hidentity i f e hi he id, hfe]
    simp only [Option.some.injEq]
    constructor
    · rintro ⟨hits, h⟩
      exact ⟨e, hits, rfl, h⟩
    · rintro ⟨_, hits, rfl, h⟩
      exact ⟨hits, h⟩

omit [Sub F] [LE F] [DecidableLE F] in
@[simp] theorem record_encodeCalls (result : FrameResult F) (t : Trace F Crop) :
    (c.record result t).encodeCalls = t.encodeCalls := by
  unfold ProbeChain.record
  split <;> rfl

/-- **A frame on which no stage throws comes out as specified.** -/
theorem process_spec (c : ProbeChain F) (s : Stages F Image Crop) (frameMeta : FrameMeta)
    (image : Image) (faces : List (FaceResult F))
    (hfresh : ∀ f ∈ faces, f.embedding = none ∧ f.matchedId = none)
    (halign : ∀ (i : ℕ) (f : FaceResult F), faces[i]? = some f →
      ∃ crop, s.align i image f.landmarks = .ok crop)
    (hencode : ∀ crops, ∃ embeddings, s.encodeBatch crops = .ok embeddings)
    (hsearch : ∀ i e k, ∃ hits, s.search i e k = .ok hits) :
    ∃ result t, (c.process s frameMeta image faces).run {} = .ok result t ∧
      FrameSpec c s frameMeta image faces result t := by
  have hprocess := process_processed c s frameMeta image ({} : Trace F Crop) faces
  generalize (c.process s frameMeta image faces).run {} = outcome at hprocess ⊢
  have hmatched : ∀ (i : ℕ) (f : FaceResult F), faces[i]? = some f → f.matchedId = none :=
    fun i f hi => (hfresh f (List.mem_of_getElem? hi)).2
  cases hprocess with
  | noFaces =>
    obtain ⟨embeddings, hembeddings⟩ := hencode []
    exact ⟨_, _, rfl, frameSpec_bare hfresh (alignAll_ok_iff.1 rfl) hembeddings (by simp) (.inl rfl)⟩
  | alignThrows hfaces hthrow =>
    obtain ⟨crops, hcrops⟩ := exists_alignAll_ok halign
    rw [hcrops] at hthrow
    cases hthrow
  | encodeThrows hfaces hcrops hthrow =>
    obtain ⟨embeddings, hembeddings⟩ := hencode _
    rw [hembeddings] at hthrow
    cases hthrow
  | countMismatch hfaces hcrops hembeddings hlen =>
    exact ⟨_, _, rfl, frameSpec_bare hfresh (alignAll_ok_iff.1 hcrops) hembeddings
      (by simp [hfaces]) (.inr hlen)⟩
  | emptyIndex hfaces hcrops hembeddings hlen hsize =>
    refine ⟨_, _, rfl, frameSpec_encoded hfaces (alignAll_ok_iff.1 hcrops) hembeddings hlen
      (by simp) (map_zipWith_left hlen fun _ _ => rfl) (attachEmbeddings_embedding hlen) ?_⟩
    intro i f e hi he id
    obtain ⟨f₀, hf₀, rfl⟩ := (getElem?_zipWith_left he).1 hi
    simp [hsize, hmatched i f₀ hf₀]
  | searchThrows hfaces hcrops hembeddings hlen hsize hthrow =>
    obtain ⟨hits, hhits⟩ := exists_searchAll_ok fun j q _ => hsearch j q c.recognitionCfg.topK
    rw [hhits] at hthrow
    cases hthrow
  | @resolved _ crops embeddings hits hfaces hcrops hembeddings hlen hsize hhits =>
    obtain ⟨hlenHits, hanswers⟩ := traverseIdx_ok_iff.1 hhits
    have hlen' : hits.length = (attachEmbeddings faces embeddings).length := by
      rw [hlenHits, hlen, attachEmbeddings_length hlen]
    refine ⟨_, _, rfl, frameSpec_encoded hfaces (alignAll_ok_iff.1 hcrops) hembeddings hlen
      (by simp) ?_ ?_ ?_⟩
    · rw [map_zipWith_left hlen' fun f h => resolveFace_detection f h]
      exact map_zipWith_left hlen fun _ _ => rfl
    · rw [map_zipWith_left hlen' fun f h => resolveFace_embedding f h]
      exact attachEmbeddings_embedding hlen
    · intro i f e hi he id
      obtain ⟨answer, hanswer, hsearched⟩ := hanswers i e he
      obtain ⟨f', hf', rfl⟩ := (getElem?_zipWith_left hanswer).1 hi
      obtain ⟨f₀, hf₀, rfl⟩ := (getElem?_zipWith_left he).1 hf'
      rw [Nat.zero_add] at hsearched
      have hnone : ({ f₀ with embedding := some e } : FaceResult F).matchedId = none :=
        hmatched i f₀ hf₀
      rw [resolveFace_matchedId hnone, hsearched]
      simp [hsize]

end Spec

/-! ### Two faces and two enrolled people -/

/-- A detection whose landmarks all lie at `x`. -/
def faceAt (x : ℤ) : FaceResult ℤ := .ofDetection ⟨x, 0, 8, 8⟩ (Vector.replicate 5 ⟨x, 0⟩) 90

/-- Stages that recognise a face by where it is: the crop is the landmark position, the embedding its
coordinate, and the best hit is the person enrolled there. -/
def positionStages : Stages ℤ Unit ℤ where
  align _ _ landmarks := .ok landmarks[0].x
  encodeBatch crops := .ok (crops.map ([·]))
  size := 2
  search _ e _ := .ok [⟨e.headD 0, 80⟩, ⟨0, 20⟩]

theorem process_spec_twoFaces :
    ∃ result t, (ProbeChain.process ⟨⟨50, 10, 5⟩, true⟩ positionStages ⟨"cam", 1, 0⟩ ()
        [faceAt 3, faceAt 4]).run {} = .ok result t ∧
      FrameSpec ⟨⟨50, 10, 5⟩, true⟩ positionStages ⟨"cam", 1, 0⟩ () [faceAt 3, faceAt 4] result t :=
  process_spec _ _ _ _ _ (by simp [faceAt, FaceResult.ofDetection]) (fun _ _ _ => ⟨_, rfl⟩)
    (fun _ => ⟨_, rfl⟩) (fun _ _ _ => ⟨_, rfl⟩)

end FacePipeline.Pipeline
