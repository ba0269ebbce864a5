import FacePipeline.Pipeline.ProcessSpec

/-!
# What a face had before

`process` takes faces that may carry the results of an earlier frame. What the stages answer depends on the
landmarks alone (`answers_congr`), and the outcome is the answers written into the faces
(`process_outcome`). Each exit overwrites some fields of a face and leaves the others: a frame without
embeddings leaves all of them, a face without hits keeps its identity and its scores, a rejected face keeps
its identity. `onlyThisFrame_iff` says for which earlier results this cannot be seen.
-/

namespace FacePipeline.Pipeline

open FacePipeline.Config Traverse

/-- What the stages answer about one face. -/
inductive FaceAnswer (F : Type) where
  | unencoded
  | unsearched (embedding : Embedding F)
  | searched (embedding : Embedding F) (hits : List (SearchResult F))

/-- What the stages answer about a frame that returns. -/
inductive FrameAnswer (F : Type) where
  | unencoded
  | unsearched (embeddings : List (Embedding F))
  | searched (embeddings : List (Embedding F)) (hits : List (List (SearchResult F)))

variable {F Image Crop : Type}

/-- The answer about the `i`-th face. -/
def FrameAnswer.face (a : FrameAnswer F) (i : ℕ) : FaceAnswer F :=
  match a with
  | unencoded => .unencoded
  | unsearched embeddings => embeddings[i]?.elim .unencoded .unsearched
  | searched embeddings hits => (embeddings.zip hits)[i]?.elim .unencoded fun p => .searched p.1 p.2

theorem face_unsearched (embeddings : List (Embedding F)) (i : ℕ) :
    (FrameAnswer.unsearched embeddings).face i = embeddings[i]?.elim .unencoded .unsearched := rfl

theorem face_searched (embeddings : List (Embedding F)) (hits : List (List (SearchResult F))) (i : ℕ) :
    (FrameAnswer.searched embeddings hits).face i =
      (embeddings.zip hits)[i]?.elim .unencoded fun p => .searched p.1 p.2 := rfl

/-- The stages' answers up to the exit of the frame, or the exception that leaves `process`. -/
def answers (cfg : RecognitionConfig F) (s : Stages F Image Crop) (image : Image)
    (faces : List (FaceResult F)) : Except Exn (FrameAnswer F) := do
  if faces.isEmpty then
    return .unencoded
  let crops ← alignAll s image faces
  match s.encodeBatch crops with
  | .error _ => return .unencoded
  | .ok embeddings =>
      if embeddings.length ≠ faces.length then return .unencoded
      if s.size = 0 then return .unsearched embeddings
      let hits ← searchAll s cfg.topK 0 embeddings
      return .searched embeddings hits

/-- The exits of a frame that returns. -/
theorem answers_ok {cfg : RecognitionConfig F} {s : Stages F Image Crop} {image : Image}
    {faces : List (FaceResult F)} {a : FrameAnswer F} (ha : answers cfg s image faces = .ok a) :
    (a = .unencoded ∧ ∀ crops embeddings, AlignedCrops s image faces crops →
      s.encodeBatch crops = .ok embeddings → embeddings.length = faces.length → faces = []) ∨
    ∃ crops embeddings, AlignedCrops s image faces crops ∧ s.encodeBatch crops = .ok embeddings ∧
      embeddings.length = faces.length ∧ (s.size = 0 ∧ a = .unsearched embeddings ∨
        s.size ≠ 0 ∧ ∃ hits, searchAll s cfg.topK 0 embeddings = .ok hits ∧
          a = .searched embeddings hits) := by
  unfold answers at ha
  by_cases hempty : faces.isEmpty = true
  · rw [if_pos hempty] at ha
    exact .inl ⟨pure_ok.1 ha, fun _ _ _ _ _ => List.isEmpty_iff.1 hempty⟩
  rw [if_neg hempty] at ha
  obtain ⟨crops, hcrops, ha⟩ := bind_ok.1 ha
  have hunique : ∀ crops', AlignedCrops s image faces crops' → crops' = crops := fun crops' hcrops' =>
    Except.ok.inj ((alignAll_ok_iff.2 hcrops').symm.trans hcrops)
  cases hencode : s.encodeBatch crops with
  | error err =>
    rw [hencode] at ha
    refine .inl ⟨pure_ok.1 ha, fun crops' embeddings hcrops' hencode' _ => ?_⟩
    rw [hunique crops' hcrops', hencode] at hencode'
    cases hencode'
  | ok embeddings =>
    rw [hencode] at ha
    simp only at ha
    split_ifs at ha with hlen hsize
    · refine .inl ⟨pure_ok.1 ha, fun crops' embeddings' hcrops' hencode' hlen' => ?_⟩
      rw [hunique crops' hcrops', hencode] at hencode'
      obtain rfl := Except.ok.inj hencode'
      exact absurd hlen' hlen
    · exact .inr ⟨crops, embeddings, alignAll_ok_iff.1 hcrops, hencode, not_not.1 hlen,
        .inl ⟨hsize, pure_ok.1 ha⟩⟩
    · obtain ⟨hits, hhits, ha⟩ := bind_ok.1 ha
      exact .inr ⟨crops, embeddings, alignAll_ok_iff.1 hcrops, hencode, not_not.1 hlen,
        .inr ⟨hsize, hits, hhits, pure_ok.1 ha⟩⟩

/-- Two lists of faces with the same detector output. -/
def SameDetections (faces faces' : List (FaceResult F)) : Prop :=
  faces.map (·.detection) = faces'.map (·.detection)

theorem SameDetections.length_eq {faces faces' : List (FaceResult F)} (h : SameDetections faces faces') :
    faces.length = faces'.length := by
  simpa using congrArg List.length h

theorem SameDetections.detection {faces faces' : List (FaceResult F)} (h : SameDetections faces faces')
    {i : ℕ} {f f' : FaceResult F} (hf : faces[i]? = some f) (hf' : faces'[i]? = some f') :
    f.detection = f'.detection := by
  have hi := congrArg (·[i]?) h
  simpa [hf, hf'] using hi

theorem alignAll_congr {s : Stages F Image Crop} {image : Image} {faces faces' : List (FaceResult F)}
    (h : SameDetections faces faces') : alignAll s image faces = alignAll s image faces' := by
  have hfrom : ∀ (fs fs' : List (FaceResult F)) (i : ℕ), SameDetections fs fs' →
      traverseIdx (fun i f => s.align i image f.landmarks) i fs =
        traverseIdx (fun i f => s.align i image f.landmarks) i fs' := by
    intro fs
    induction fs with
    | nil =>
      intro fs' i hsame
      obtain rfl : fs' = [] := List.length_eq_zero_iff.1 hsame.length_eq.symm
      rfl
    | cons f fs ih =>
      intro fs' i hsame
      cases fs' with
      | nil => cases hsame.length_eq
      | cons f' fs' =>
        obtain ⟨hdetection, hrest⟩ := List.cons.inj hsame
        have hlandmarks : f.landmarks = f'.landmarks := congrArg (·.2.1) hdetection
        unfold traverseIdx
        rw [hlandmarks, ih fs' (i + 1) hrest]
  exact hfrom faces faces' 0 h

/-- **The stages see the detector's part of the faces only.** -/
theorem answers_congr {cfg : RecognitionConfig F} {s : Stages F Image Crop} {image : Image}
    {faces faces' : List (FaceResult F)} (h : SameDetections faces faces') :
    answers cfg s image faces = answers cfg s image faces' := by
  have hempty : faces.isEmpty = faces'.isEmpty := by
    rw [Bool.eq_iff_iff, List.isEmpty_iff_length_eq_zero, List.isEmpty_iff_length_eq_zero, h.length_eq]
  unfold answers
  rw [hempty, alignAll_congr h, h.length_eq]

section Write

variable [Sub F] [LE F] [DecidableLE F]

/-- A face with the answer written into it. -/
def FaceAnswer.write (cfg : RecognitionConfig F) (f : FaceResult F) : FaceAnswer F → FaceResult F
  | .unencoded => f
  | .unsearched e => { f with embedding := some e }
  | .searched e hits => resolveFace cfg { f with embedding := some e } hits

/-- The answers written into the faces. -/
def FrameAnswer.write (cfg : RecognitionConfig F) (a : FrameAnswer F) (faces : List (FaceResult F)) :
    List (FaceResult F) :=
  faces.mapIdx fun i f => (a.face i).write cfg f

theorem write_unencoded (cfg : RecognitionConfig F) (faces : List (FaceResult F)) :
    FrameAnswer.unencoded.write cfg faces = faces := by
  apply List.ext_getElem?
  intro i
  simp [FrameAnswer.write, FrameAnswer.face, FaceAnswer.write]

theorem write_unsearched (cfg : RecognitionConfig F) {faces : List (FaceResult F)}
    {embeddings : List (Embedding F)} (hlen : embeddings.length = faces.length) :
    (FrameAnswer.unsearched embeddings).write cfg faces = attachEmbeddings faces embeddings := by
  apply List.ext_getElem (by simp [FrameAnswer.write, attachEmbeddings, hlen])
  intro i hi _
  have hembedding : i < embeddings.length := by simpa [FrameAnswer.write, hlen] using hi
  simp [FrameAnswer.write, FrameAnswer.face, attachEmbeddings, hembedding, FaceAnswer.write]

theorem write_searched (cfg : RecognitionConfig F) {faces : List (FaceResult F)}
    {embeddings : List (Embedding F)} {hits : List (List (SearchResult F))}
    (hlen : embeddings.length = faces.length) (hhits : hits.length = faces.length) :
    (FrameAnswer.searched embeddings hits).write cfg faces =
      List.zipWith (resolveFace cfg) (attachEmbeddings faces embeddings) hits := by
  apply List.ext_getElem (by simp [FrameAnswer.write, attachEmbeddings, hlen, hhits])
  intro i hi _
  have hface : i < faces.length := by simpa [FrameAnswer.write] using hi
  have hzip : (embeddings.zip hits)[i]? = some (embeddings[i], hits[i]) := by
    rw [List.getElem?_eq_getElem (by simp [hlen, hhits, hface]), List.getElem_zip]
  simp [FrameAnswer.write, FrameAnswer.face, attachEmbeddings, hzip, FaceAnswer.write]

/-- **The outcome of a frame** is the answers written into the faces. -/
theorem process_outcome (c : ProbeChain F) (s : Stages F Image Crop) (frameMeta : FrameMeta)
    (image : Image) (t : Trace F Crop) (faces : List (FaceResult F)) :
    outcome ((c.process s frameMeta image faces).run t) =
      (answers c.recognitionCfg s image faces).map fun a =>
        ⟨frameMeta, a.write c.recognitionCfg faces⟩ := by
  have hprocess := process_processed c s frameMeta image t faces
  generalize (c.process s frameMeta image faces).run t = r at hprocess ⊢
  unfold answers
  cases hprocess with
  | noFaces => rfl
  | alignThrows hfaces hthrow =>
    rw [if_neg (by simpa using hfaces), hthrow]
    rfl
  | encodeThrows hfaces hcrops hthrow =>
    rw [if_neg (by simpa using hfaces), hcrops]
    simp [bind, Except.bind, pure, Except.pure, hthrow, Except.map, outcome, write_unencoded]
  | countMismatch hfaces hcrops hembeddings hlen =>
    rw [if_neg (by simpa using hfaces), hcrops]
    simp [bind, Except.bind, pure, Except.pure, hembeddings, hlen, Except.map, outcome, write_unencoded]
  | emptyIndex hfaces hcrops hembeddings hlen hsize =>
    rw [if_neg (by simpa using hfaces), hcrops]
    simp [bind, Except.bind, pure, Except.pure, hembeddings, hlen, hsize, Except.map, outcome,
      write_unsearched]
  | searchThrows hfaces hcrops hembeddings hlen hsize hthrow =>
    rw [if_neg (by simpa using hfaces), hcrops]
    simp [bind, Except.bind, hembeddings, hlen, hsize, hthrow, Except.map, outcome]
  | resolved hfaces hcrops hembeddings hlen hsize hhits =>
    have hlenHits := (traverseIdx_length hhits).trans hlen
    rw [if_neg (by simpa using hfaces), hcrops]
    simp [bind, Except.bind, pure, Except.pure, hembeddings, hlen, hsize, hhits, Except.map, outcome,
      write_searched _ hlen hlenHits]

/-! ### One face -/

/-- The answer resolves its face to `id`. -/
def FaceAnswer.Recognises (cfg : RecognitionConfig F) (id : Int) : FaceAnswer F → Prop
  | .searched _ hits => hits.head?.map (·.id) = some id ∧
      matchDecisionRanked (hits.map (·.similarity)) cfg.threshold cfg.marginMin = true
  | _ => False

/-- Neither face has an earlier identity. -/
def Unidentified (f f' : FaceResult F) : Prop :=
  f.matchedId = none ∧ f'.matchedId = none

def SameScores (f f' : FaceResult F) : Prop :=
  f.top1Similarity = f'.top1Similarity ∧ f.marginToTop2 = f'.marginToTop2

/-- The fields that the answer leaves as they were do not tell the two faces apart, and hold no
identity. -/
def FaceAnswer.Inert (cfg : RecognitionConfig F) (f f' : FaceResult F) : FaceAnswer F → Prop
  | .unencoded => Unidentified f f' ∧ SameScores f f' ∧ f.embedding = f'.embedding
  | .unsearched _ => Unidentified f f' ∧ SameScores f f'
  | .searched _ [] => Unidentified f f' ∧ SameScores f f'
  | .searched _ (top :: rest) =>
      matchDecisionRanked ((top :: rest).map (·.similarity)) cfg.threshold cfg.marginMin = true ∨
        Unidentified f f'

omit [Sub F] [LE F] [DecidableLE F] in
theorem faceResult_ext_iff {f f' : FaceResult F} (h : f.detection = f'.detection) :
    f = f' ↔ f.embedding = f'.embedding ∧ f.matchedId = f'.matchedId ∧ SameScores f f' := by
  obtain ⟨bbox, landmarks, score, embedding, matchedId, top1, margin⟩ := f
  obtain ⟨bbox', landmarks', score', embedding', matchedId', top1', margin'⟩ := f'
  obtain ⟨rfl, rfl, rfl⟩ : bbox = bbox' ∧ landmarks = landmarks' ∧ score = score' := by
    simpa [FaceResult.detection] using h
  simp [SameScores]

/-- A face with hits, written. -/
theorem write_hits (cfg : RecognitionConfig F) (f : FaceResult F) (e : Embedding F) (top : SearchResult F)
    (rest : List (SearchResult F)) :
    (FaceAnswer.searched e (top :: rest)).write cfg f =
      { f with
        embedding := some e
        matchedId := if matchDecisionRanked ((top :: rest).map (·.similarity)) cfg.threshold cfg.marginMin
          then some top.id else f.matchedId
        top1Similarity := top.similarity
        marginToTop2 := computeMargin top.similarity (rest.head?.map (·.similarity)) } := by
  have hdecision : matchDecisionRanked ((top :: rest).map (·.similarity)) cfg.threshold cfg.marginMin =
      matchDecision top.similarity (rest.head?.map (·.similarity)) cfg.threshold cfg.marginMin := by
    rw [List.map_cons, matchDecisionRanked, List.head?_map]
  rw [hdecision]
  simp only [FaceAnswer.write, resolveFace]
  split_ifs <;> rfl

/-- **One face.** What was in it before cannot be seen exactly when the fields that stay are inert. -/
theorem write_iff_inert {cfg : RecognitionConfig F} {f f' : FaceResult F}
    (h : f.detection = f'.detection) (a : FaceAnswer F) :
    (a.write cfg f = a.write cfg f' ∧
      ∀ id, (a.write cfg f).matchedId = some id → a.Recognises cfg id) ↔ a.Inert cfg f f' := by
  have hnone : (∀ id, ¬f.matchedId = some id) ↔ f.matchedId = none :=
    Option.eq_none_iff_forall_ne_some.symm
  have hboth : f.matchedId = f'.matchedId ∧ f.matchedId = none ↔ Unidentified f f' := by
    constructor
    · rintro ⟨hsame, hf⟩
      exact ⟨hf, hsame.symm.trans hf⟩
    · rintro ⟨hf, hf'⟩
      exact ⟨hf.trans hf'.symm, hf⟩
  have hkept : ∀ e : Embedding F, (({ f with embedding := some e } : FaceResult F) =
      { f' with embedding := some e } ∧ ∀ id, ¬f.matchedId = some id) ↔
        Unidentified f f' ∧ SameScores f f' := by
    intro e
    rw [faceResult_ext_iff (by exact h), hnone, ← hboth]
    simp only [SameScores, true_and]
    tauto
  cases a with
  | unencoded =>
    show (f = f' ∧ ∀ id, ¬f.matchedId = some id) ↔ _
    rw [faceResult_ext_iff h, hnone]
    unfold FaceAnswer.Inert
    rw [← hboth]
    tauto
  | unsearched e => exact hkept e
  | searched e hits =>
    cases hits with
    | nil =>
      have hrecognises : ∀ id, ¬(FaceAnswer.searched e []).Recognises cfg id := by
        intro id hid
        cases hid.1
      simp only [hrecognises]
      exact hkept e
    | cons top rest =>
      rw [write_hits, write_hits, faceResult_ext_iff (by exact h)]
      simp only [FaceAnswer.Inert, FaceAnswer.Recognises]
      generalize matchDecisionRanked ((top :: rest).map (·.similarity)) cfg.threshold cfg.marginMin = accepted
      cases accepted with
      | true => simp [SameScores]
      | false =>
        rw [← hboth, ← hnone]
        simp [SameScores]

/-! ### A frame -/

/-- The frame itself resolves its `i`-th face to `id`. -/
def Recognised (cfg : RecognitionConfig F) (s : Stages F Image Crop) (image : Image)
    (faces : List (FaceResult F)) (i : ℕ) (id : Int) : Prop :=
  ∃ crops embeddings e hits, AlignedCrops s image faces crops ∧ s.encodeBatch crops = .ok embeddings ∧
    embeddings.length = faces.length ∧ embeddings[i]? = some e ∧ s.size ≠ 0 ∧
    s.search i e cfg.topK = .ok hits ∧ hits.head?.map (·.id) = some id ∧
    matchDecisionRanked (hits.map (·.similarity)) cfg.threshold cfg.marginMin = true

theorem recognised_iff {cfg : RecognitionConfig F} {s : Stages F Image Crop} {image : Image}
    {faces : List (FaceResult F)} {a : FrameAnswer F} (ha : answers cfg s image faces = .ok a) (i : ℕ)
    (id : Int) : Recognised cfg s image faces i id ↔ (a.face i).Recognises cfg id := by
  have hanswer : ∀ embeddings hits, searchAll s cfg.topK 0 embeddings = .ok hits →
      ∀ e, embeddings[i]? = some e → ∃ h, (embeddings.zip hits)[i]? = some (e, h) ∧
        s.search i e cfg.topK = .ok h := by
    intro embeddings hits hhits e he
    obtain ⟨h, hh, hsearch⟩ := (traverseIdx_ok_iff.1 hhits).2 i e he
    rw [Nat.zero_add] at hsearch
    exact ⟨h, List.getElem?_zip_eq_some.2 ⟨he, hh⟩, hsearch⟩
  constructor
  · rintro ⟨crops, embeddings, e, hits, hcrops, hencode, hlen, he, hsize, hsearch, hid, hmatch⟩
    have hfaces : faces ≠ [] := by
      rintro rfl
      obtain rfl := List.length_eq_zero_iff.1 hlen
      cases he
    rcases answers_ok ha with ⟨_, hfailed⟩ | ⟨crops', embeddings', hcrops', hencode', -, hrest⟩
    · exact absurd (hfailed crops embeddings hcrops hencode hlen) hfaces
    · obtain rfl := Except.ok.inj ((alignAll_ok_iff.2 hcrops).symm.trans (alignAll_ok_iff.2 hcrops'))
      obtain rfl := Except.ok.inj (hencode.symm.trans hencode')
      rcases hrest with ⟨hzero, -⟩ | ⟨-, all, hall, rfl⟩
      · exact absurd hzero hsize
      · obtain ⟨h, hzip, hsearch'⟩ := hanswer embeddings all hall e he
        obtain rfl := Except.ok.inj (hsearch.symm.trans hsearch')
        rw [face_searched, hzip]
        exact ⟨hid, hmatch⟩
  · intro h
    rcases answers_ok ha with ⟨rfl, -⟩ | ⟨crops, embeddings, hcrops, hencode, hlen, hrest⟩
    · cases h
    · rcases hrest with ⟨-, rfl⟩ | ⟨hsize, all, hall, rfl⟩
      · rw [face_unsearched] at h
        cases he : embeddings[i]? <;> rw [he] at h <;> cases h
      · rw [face_searched] at h
        cases hzip : (embeddings.zip all)[i]? with
        | none =>
          rw [hzip] at h
          cases h
        | some p =>
          rw [hzip] at h
          obtain ⟨e, hits⟩ := p
          have he : embeddings[i]? = some e := (List.getElem?_zip_eq_some.1 hzip).1
          obtain ⟨hits', hzip', hsearch⟩ := hanswer embeddings all hall e he
          obtain rfl : hits = hits' := congrArg Prod.snd (Option.some.inj (hzip.symm.trans hzip'))
          exact ⟨crops, embeddings, e, hits, hcrops, hencode, hlen, he, hsize, hsearch, h.1, h.2⟩

/-- The results hold nothing of an earlier frame: those of `faces` and `faces'` are equal, and every identity
in them is one that this frame has resolved. -/
structure OnlyThisFrame (c : ProbeChain F) (s : Stages F Image Crop) (frameMeta : FrameMeta)
    (image : Image) (t : Trace F Crop) (faces faces' : List (FaceResult F)) : Prop where
  same : outcome ((c.process s frameMeta image faces).run t) =
    outcome ((c.process s frameMeta image faces').run t)
  identity : ∀ result, outcome ((c.process s frameMeta image faces).run t) = .ok result →
    ∀ (i : ℕ) (f : FaceResult F), result.faces[i]? = some f → ∀ id, f.matchedId = some id →
      Recognised c.recognitionCfg s image faces i id

/-- **What was there before cannot be seen** exactly when every field that a face's answer leaves alone is
inert. -/
theorem onlyThisFrame_iff (c : ProbeChain F) (s : Stages F Image Crop) (frameMeta : FrameMeta)
    (image : Image) (t : Trace F Crop) (faces faces' : List (FaceResult F))
    (h : SameDetections faces faces') :
    OnlyThisFrame c s frameMeta image t faces faces' ↔
      ∀ a, answers c.recognitionCfg s image faces = .ok a → ∀ (i : ℕ) (f f' : FaceResult F),
        faces[i]? = some f → faces'[i]? = some f' → (a.face i).Inert c.recognitionCfg f f' := by
  have houtcome := process_outcome c s frameMeta image t faces
  have houtcome' := process_outcome c s frameMeta image t faces'
  rw [← answers_congr h] at houtcome'
  cases ha : answers c.recognitionCfg s image faces with
  | error err =>
    rw [ha] at houtcome houtcome'
    refine iff_of_true ⟨houtcome.trans houtcome'.symm, fun result hresult => ?_⟩ (by simp)
    rw [houtcome] at hresult
    cases hresult
  | ok a =>
    rw [ha] at houtcome houtcome'
    have hwrite : ∀ (fs : List (FaceResult F)) (i : ℕ), (a.write c.recognitionCfg fs)[i]? =
        fs[i]?.map fun f => (a.face i).write c.recognitionCfg f := fun fs i => by
      unfold FrameAnswer.write
      rw [List.getElem?_mapIdx]
    constructor
    · intro hthis a' ha' i f f' hf hf'
      obtain rfl := Except.ok.inj ha'
      have hresult : a.write c.recognitionCfg faces = a.write c.recognitionCfg faces' := by
        have hsame := hthis.same
        rw [houtcome, houtcome'] at hsame
        exact congrArg FrameResult.faces (Except.ok.inj hsame)
      refine (write_iff_inert (h.detection hf hf') _).1 ⟨?_, fun id hid => ?_⟩
      · have hi := congrArg (·[i]?) hresult
        simpa [hwrite, hf, hf'] using hi
      · rw [← recognised_iff ha]
        exact hthis.identity _ houtcome i _ (by rw [hwrite, hf]; rfl) id hid
    · intro hinert
      have hfaces : ∀ (i : ℕ) (f f' : FaceResult F), faces[i]? = some f → faces'[i]? = some f' → _ :=
        fun i f f' hf hf' => (write_iff_inert (h.detection hf hf') _).2 (hinert a rfl i f f' hf hf')
      refine ⟨?_, fun result hresult i f hi id hid => ?_⟩
      · rw [houtcome, houtcome']
        have hsame : a.write c.recognitionCfg faces = a.write c.recognitionCfg faces' := by
          apply List.ext_getElem?
          intro i
          rw [hwrite, hwrite]
          by_cases hi : i < faces.length
          · have hi' : i < faces'.length := h.length_eq ▸ hi
            rw [List.getElem?_eq_getElem hi, List.getElem?_eq_getElem hi']
            exact congrArg some (hfaces i _ _ (List.getElem?_eq_getElem hi)
              (List.getElem?_eq_getElem hi')).1
          · rw [List.getElem?_eq_none (by omega), List.getElem?_eq_none (by rw [← h.length_eq]; omega)]
        show Except.ok (FrameResult.mk frameMeta (a.write c.recognitionCfg faces)) =
          Except.ok (FrameResult.mk frameMeta (a.write c.recognitionCfg faces'))
        rw [hsame]
      · rw [houtcome] at hresult
        obtain rfl := Except.ok.inj hresult
        rw [hwrite, Option.map_eq_some_iff] at hi
        obtain ⟨f₀, hf₀, rfl⟩ := hi
        obtain ⟨hlt, _⟩ := List.getElem?_eq_some_iff.1 hf₀
        have hf' := List.getElem?_eq_getElem (h.length_eq ▸ hlt : i < faces'.length)
        rw [recognised_iff ha]
        exact (hfaces i f₀ _ hf₀ hf').2 id hid

end Write

/-! ### A face that was recognised before -/

/-- A face as an earlier frame left it: resolved to person 7. -/
def recognisedBefore : FaceResult ℤ :=
  { faceAt 3 with embedding := some [9], matchedId := some 7, top1Similarity := 80, marginToTop2 := 60 }

/-- Now resolved to person 3, so that all of it is overwritten. -/
theorem onlyThisFrame_resolved :
    OnlyThisFrame ⟨⟨50, 10, 5⟩, true⟩ positionStages ⟨"cam", 1, 0⟩ () {} [recognisedBefore] [faceAt 3] := by
  have hiff := onlyThisFrame_iff ⟨⟨50, 10, 5⟩, true⟩ positionStages ⟨"cam", 1, 0⟩ () {}
    [recognisedBefore] [faceAt 3] rfl
  refine hiff.2 fun a ha i f f' hf hf' => ?_
  obtain rfl : FrameAnswer.searched [[3]] [[⟨3, 80⟩, ⟨0, 20⟩]] = a := Except.ok.inj ha
  obtain ⟨hi, -⟩ := List.getElem?_eq_some_iff.1 hf
  obtain rfl : i = 0 := Nat.lt_one_iff.1 hi
  exact .inl rfl

/-- The best hit is below the threshold now, and the face is reported as person 7 all the same. -/
theorem not_onlyThisFrame_rejected : SameDetections [recognisedBefore] [faceAt 3] ∧
    ¬OnlyThisFrame ⟨⟨90, 10, 5⟩, true⟩ positionStages ⟨"cam", 1, 0⟩ () {} [recognisedBefore]
      [faceAt 3] := by
  refine ⟨rfl, fun h => ?_⟩
  exact absurd (congrArg (fun r => r.toOption.map fun result => result.faces.map (·.matchedId)) h.same)
    (by decide)

end FacePipeline.Pipeline
