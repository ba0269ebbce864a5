import FacePipeline.Config.SystemConfig
import FacePipeline.Lib.Traverse
import FacePipeline.Pipeline.MatchDecision

/-!
# The probe chain

`process` takes one frame through alignment, one batched encoder call, one index lookup per face and
the margin rule. The three stages are the environment of the chain: `Stages` says what they answer
or throw during one call of `process`, with a call counter, so that a stage may behave differently
at every face. A run keeps a record of the calls it made and of the results it handed to the
callback (`Trace`); the record survives an exception, as the outside world does. A callback returns:
what it does with the result is outside the chain.
-/

namespace FacePipeline.Pipeline

open FacePipeline.Config Traverse

/-- Per-frame metadata. -/
structure FrameMeta where
  sourceId : String
  frameNumber : UInt64
  pts : Int
  deriving DecidableEq, Repr

/-- One face of a frame: the detector's output, and what recognition fills in. -/
structure FaceResult (F : Type) where
  bbox : Rect2f F
  landmarks : Landmarks F
  detectionScore : F
  embedding : Option (Embedding F)
  matchedId : Option Int
  top1Similarity : F
  marginToTop2 : F
  deriving DecidableEq

/-- The detector's part of a face. -/
def FaceResult.detection {F : Type} (f : FaceResult F) : Rect2f F × Landmarks F × F :=
  (f.bbox, f.landmarks, f.detectionScore)

/-- A face as the detector hands it over, every recognition field at its default. -/
def FaceResult.ofDetection {F : Type} [Zero F] (bbox : Rect2f F) (landmarks : Landmarks F)
    (detectionScore : F) : FaceResult F :=
  { bbox, landmarks, detectionScore, embedding := none, matchedId := none, top1Similarity := 0,
    marginToTop2 := 0 }

structure FrameResult (F : Type) where
  frameMeta : FrameMeta
  faces : List (FaceResult F)
  deriving DecidableEq

/-- One `(id, similarity)` hit of a query. -/
structure SearchResult (F : Type) where
  id : Int
  similarity : F
  deriving DecidableEq, Repr

/-- What the three stages do during one call of `process`. `align` and `search` get the number of
the call within the frame; `size` cannot throw. -/
structure Stages (F Image Crop : Type) where
  align : ℕ → Image → Landmarks F → Except Exn Crop
  encodeBatch : List Crop → Except Exn (List (Embedding F))
  size : ℕ
  search : ℕ → Embedding F → UInt32 → Except Exn (List (SearchResult F))

/-- What the outside world has seen: the backend calls made and the results delivered. -/
structure Trace (F Crop : Type) where
  encodeCalls : List (List Crop) := []
  searchCalls : List (Embedding F × UInt32) := []
  delivered : List (FrameResult F) := []

/-- The chain's configuration, and whether a result callback is registered. -/
structure ProbeChain (F : Type) where
  recognitionCfg : RecognitionConfig F
  callback : Bool := false

/-- `set_result_callback` with a non-empty callback. -/
def ProbeChain.setResultCallback {F : Type} (c : ProbeChain F) : ProbeChain F :=
  { c with callback := true }

/-- A computation of the chain: it may throw, and the trace survives. -/
abbrev Run (F Crop : Type) := EStateM Exn (Trace F Crop)

section Model
variable {F Image Crop : Type}

/-- Align all detected faces, in order. -/
def alignAll (s : Stages F Image Crop) (image : Image) (faces : List (FaceResult F)) :
    Except Exn (List Crop) :=
  traverseIdx (fun i f => s.align i image f.landmarks) 0 faces

/-- The single batched encoder call. -/
def encode (s : Stages F Image Crop) (crops : List Crop) : Run F Crop (List (Embedding F)) := do
  modify fun t => { t with encodeCalls := t.encodeCalls ++ [crops] }
  match s.encodeBatch crops with
  | .ok embeddings => return embeddings
  | .error e => throw e

/-- One index lookup. -/
def lookup (s : Stages F Image Crop) (i : ℕ) (query : Embedding F) (topK : UInt32) :
    Run F Crop (List (SearchResult F)) := do
  modify fun t => { t with searchCalls := t.searchCalls ++ [(query, topK)] }
  match s.search i query topK with
  | .ok hits => return hits
  | .error e => throw e

/-- `faces[i].embedding = embeddings[i]` for every face. -/
def attachEmbeddings (faces : List (FaceResult F)) (embeddings : List (Embedding F)) :
    List (FaceResult F) :=
  List.zipWith (fun f e => { f with embedding := some e }) faces embeddings

variable [Sub F] [LE F] [DecidableLE F]

/-- What the hits of one face decide: its top-1 fields and, if the margin rule accepts, its
identity. No hits leave the face as it is. -/
def resolveFace (cfg : RecognitionConfig F) (f : FaceResult F) :
    List (SearchResult F) → FaceResult F
  | [] => f
  | top :: rest =>
      let second := rest.head?.map (·.similarity)
      let f := { f with top1Similarity := top.similarity,
                        marginToTop2 := computeMargin top.similarity second }
      if matchDecision top.similarity second cfg.threshold cfg.marginMin then
        { f with matchedId := some top.id }
      else f

/-- The lookup loop over the faces, each of which carries its embedding. -/
def lookupAll (cfg : RecognitionConfig F) (s : Stages F Image Crop) :
    ℕ → List (FaceResult F) → Run F Crop (List (FaceResult F))
  | _, [] => return []
  | i, f :: fs => do
      let hits ← lookup s i (f.embedding.getD []) cfg.topK
      let resolved ← lookupAll cfg s (i + 1) fs
      return resolveFace cfg f hits :: resolved

/-- `if (callback_) callback_(result);` -/
def ProbeChain.deliver (c : ProbeChain F) (result : FrameResult F) : Run F Crop Unit :=
  if c.callback then modify fun t => { t with delivered := t.delivered ++ [result] }
  else return ()

/-- Process one frame's detection output. -/
def ProbeChain.process (c : ProbeChain F) (s : Stages F Image Crop) (frameMeta : FrameMeta)
    (image : Image) (detections : List (FaceResult F)) : Run F Crop (FrameResult F) := do
  let result : FrameResult F := ⟨frameMeta, detections⟩
  if result.faces.isEmpty then
    c.deliver result
    return result
  -- alignment stands outside the try block
  let crops ← match alignAll s image result.faces with
    | .ok crops => pure crops
    | .error e => throw e
  let encoded ← tryCatch (some <$> encode s crops) fun _ => pure none
  match encoded with
  | none =>
      c.deliver result
      return result
  | some embeddings =>
      if embeddings.length ≠ result.faces.length then
        c.deliver result
        return result
      let result := { result with faces := attachEmbeddings result.faces embeddings }
      if s.size = 0 then
        c.deliver result
        return result
      let faces ← lookupAll c.recognitionCfg s 0 result.faces
      let result := { result with faces }
      c.deliver result
      return result

end Model

/-! ### What the chain writes into a face -/

section Faces
variable {F : Type}

theorem attachEmbeddings_length {faces : List (FaceResult F)} {embeddings : List (Embedding F)}
    (h : embeddings.length = faces.length) :
    (attachEmbeddings faces embeddings).length = faces.length := by
  simp [attachEmbeddings, h]

/-- Filling in part of each element leaves every other part of the list as it was. -/
theorem map_zipWith_left {α β γ : Type} {h : α → β → α} {g : α → γ} {xs : List α} {ys : List β}
    (hlen : ys.length = xs.length) (hg : ∀ x y, g (h x y) = g x) :
    (List.zipWith h xs ys).map g = xs.map g := by
  refine List.ext_getElem (by simp [hlen]) fun i _ _ => ?_
  simp [hg]

theorem getElem?_zipWith_left {α β : Type} {h : α → β → α} {xs : List α} {ys : List β} {i : ℕ}
    {y : β} {z : α} (hy : ys[i]? = some y) :
    (List.zipWith h xs ys)[i]? = some z ↔ ∃ x, xs[i]? = some x ∧ h x y = z := by
  simp [List.getElem?_zipWith_eq_some, hy]

theorem attachEmbeddings_embedding {faces : List (FaceResult F)} {embeddings : List (Embedding F)}
    (h : embeddings.length = faces.length) :
    (attachEmbeddings faces embeddings).map (·.embedding) = embeddings.map some := by
  refine List.ext_getElem (by simp [attachEmbeddings, h]) fun i _ _ => ?_
  simp [attachEmbeddings]

variable [Sub F] [LE F] [DecidableLE F] {cfg : RecognitionConfig F}

@[simp] theorem resolveFace_nil (f : FaceResult F) : resolveFace cfg f [] = f := rfl

@[simp] theorem resolveFace_detection (f : FaceResult F) (hits : List (SearchResult F)) :
    (resolveFace cfg f hits).detection = f.detection := by
  cases hits with
  | nil => rfl
  | cons top rest =>
    simp only [resolveFace]
    split_ifs <;> rfl

@[simp] theorem resolveFace_embedding (f : FaceResult F) (hits : List (SearchResult F)) :
    (resolveFace cfg f hits).embedding = f.embedding := by
  cases hits with
  | nil => rfl
  | cons top rest =>
    simp only [resolveFace]
    split_ifs <;> rfl

/-- The decision on a face without an identity, in terms of the overload for ranked lists. -/
theorem resolveFace_matchedId {f : FaceResult F} (hf : f.matchedId = none)
    (hits : List (SearchResult F)) (id : Int) :
    (resolveFace cfg f hits).matchedId = some id ↔ hits.head?.map (·.id) = some id ∧
      matchDecisionRanked (hits.map (·.similarity)) cfg.threshold cfg.marginMin = true := by
  cases hits with
  | nil => simp [hf]
  | cons top rest =>
    simp only [resolveFace, List.head?_cons, Option.map_some, List.map_cons, matchDecisionRanked,
      List.head?_map]
    split_ifs with h <;> simp [h, hf]

end Faces

/-! ### What one call does -/

section Steps
variable {F Image Crop : Type}

/-- The answers of all lookups of a frame, in face order, the first of them the `i`-th. -/
def searchAll (s : Stages F Image Crop) (topK : UInt32) (i : ℕ) (queries : List (Embedding F)) :
    Except Exn (List (List (SearchResult F))) :=
  traverseIdx (fun j q => s.search j q topK) i queries

/-- The trace after a delivery. -/
def ProbeChain.record (c : ProbeChain F) (result : FrameResult F) (t : Trace F Crop) :
    Trace F Crop :=
  if c.callback then { t with delivered := t.delivered ++ [result] } else t

@[simp] theorem deliver_run (c : ProbeChain F) (result : FrameResult F) (t : Trace F Crop) :
    (c.deliver result).run t = .ok () (c.record result t) := by
  unfold ProbeChain.deliver ProbeChain.record
  split <;> rfl

/-- The encoder call inside its try block. -/
theorem tryEncode_run (s : Stages F Image Crop) (crops : List Crop) (t : Trace F Crop) :
    (tryCatch (some <$> encode s crops) fun _ => pure none : Run F Crop _).run t =
      .ok (s.encodeBatch crops).toOption { t with encodeCalls := t.encodeCalls ++ [crops] } := by
  unfold encode
  cases h : s.encodeBatch crops <;> rfl

theorem lookup_run (s : Stages F Image Crop) (i : ℕ) (query : Embedding F) (topK : UInt32)
    (t : Trace F Crop) :
    (lookup s i query topK).run t = match s.search i query topK with
      | .ok hits => .ok hits { t with searchCalls := t.searchCalls ++ [(query, topK)] }
      | .error e => .error e { t with searchCalls := t.searchCalls ++ [(query, topK)] } := by
  simp only [lookup, EStateM.run_bind, EStateM.run_modify]
  cases s.search i query topK <;> rfl

variable [Sub F] [LE F] [DecidableLE F]

theorem lookupAll_run_ok (cfg : RecognitionConfig F) (s : Stages F Image Crop) (i : ℕ)
    (faces : List (FaceResult F)) (embeddings : List (Embedding F))
    (hits : List (List (SearchResult F))) (t : Trace F Crop)
    (hlen : embeddings.length = faces.length)
    (hsearch : searchAll s cfg.topK i embeddings = .ok hits) :
    (lookupAll cfg s i (attachEmbeddings faces embeddings)).run t =
      .ok (List.zipWith (resolveFace cfg) (attachEmbeddings faces embeddings) hits)
        { t with searchCalls := t.searchCalls ++ embeddings.map (·, cfg.topK) } := by
  induction faces generalizing i embeddings hits t with
  | nil =>
    obtain rfl := List.length_eq_zero_iff.1 hlen
    simp [attachEmbeddings, lookupAll]
  | cons f fs ih =>
    cases embeddings with
    | nil => simp at hlen
    | cons e es =>
      obtain ⟨top, rest, htop, hrest, rfl⟩ := traverseIdx_cons_ok.1 hsearch
      simp only [attachEmbeddings, List.zipWith_cons_cons, lookupAll, EStateM.run_bind,
        Option.getD_some, lookup_run, htop]
      have := ih (i + 1) es rest { t with searchCalls := t.searchCalls ++ [(e, cfg.topK)] }
        (by simpa using hlen) hrest
      simp only [attachEmbeddings] at this
      rw [this]
      simp

theorem lookupAll_run_error (cfg : RecognitionConfig F) (s : Stages F Image Crop) (i : ℕ)
    (faces : List (FaceResult F)) (embeddings : List (Embedding F)) (err : Exn) (t : Trace F Crop)
    (hlen : embeddings.length = faces.length)
    (hsearch : searchAll s cfg.topK i embeddings = .error err) :
    ∃ calls, (lookupAll cfg s i (attachEmbeddings faces embeddings)).run t =
      .error err { t with searchCalls := calls } := by
  induction faces generalizing i embeddings t with
  | nil =>
    obtain rfl := List.length_eq_zero_iff.1 hlen
    simp [searchAll] at hsearch
  | cons f fs ih =>
    cases embeddings with
    | nil => simp at hlen
    | cons e es =>
      simp only [attachEmbeddings, List.zipWith_cons_cons, lookupAll, EStateM.run_bind,
        Option.getD_some, lookup_run]
      cases htop : s.search i e cfg.topK with
      | error err' =>
        simp only [searchAll, traverseIdx, htop] at hsearch
        cases hsearch
        exact ⟨_, rfl⟩
      | ok top =>
        cases hrest : searchAll s cfg.topK (i + 1) es with
        | ok rest => simp_all [searchAll, traverseIdx]
        | error err' =>
          simp only [searchAll] at hrest
          simp only [searchAll, traverseIdx, htop, hrest] at hsearch
          cases hsearch
          obtain ⟨calls, hcalls⟩ := ih (i + 1) es
            { t with searchCalls := t.searchCalls ++ [(e, cfg.topK)] } (by simpa using hlen) hrest
          simp only [attachEmbeddings] at hcalls
          exact ⟨calls, by simp only [hcalls]⟩

/-- What one call of `process` can do: its five exits and the two exceptions that leave it. -/
inductive Processed (c : ProbeChain F) (s : Stages F Image Crop) (frameMeta : FrameMeta)
    (image : Image) (t : Trace F Crop) : List (FaceResult F) →
    EStateM.Result Exn (Trace F Crop) (FrameResult F) → Prop where
  | noFaces : Processed c s frameMeta image t [] (.ok ⟨frameMeta, []⟩ (c.record ⟨frameMeta, []⟩ t))
  | alignThrows {faces e} (hfaces : faces ≠ []) (halign : alignAll s image faces = .error e) :
      Processed c s frameMeta image t faces (.error e t)
  | encodeThrows {faces crops e} (hfaces : faces ≠ []) (halign : alignAll s image faces = .ok crops)
      (hencode : s.encodeBatch crops = .error e) :
      Processed c s frameMeta image t faces (.ok ⟨frameMeta, faces⟩
        (c.record ⟨frameMeta, faces⟩ { t with encodeCalls := t.encodeCalls ++ [crops] }))
  | countMismatch {faces crops embeddings} (hfaces : faces ≠ [])
      (halign : alignAll s image faces = .ok crops)
      (hencode : s.encodeBatch crops = .ok embeddings) (hlen : embeddings.length ≠ faces.length) :
      Processed c s frameMeta image t faces (.ok ⟨frameMeta, faces⟩
        (c.record ⟨frameMeta, faces⟩ { t with encodeCalls := t.encodeCalls ++ [crops] }))
  | emptyIndex {faces crops embeddings} (hfaces : faces ≠ [])
      (halign : alignAll s image faces = .ok crops)
      (hencode : s.encodeBatch crops = .ok embeddings) (hlen : embeddings.length = faces.length)
      (hsize : s.size = 0) :
      Processed c s frameMeta image t faces (.ok ⟨frameMeta, attachEmbeddings faces embeddings⟩
        (c.record ⟨frameMeta, attachEmbeddings faces embeddings⟩
          { t with encodeCalls := t.encodeCalls ++ [crops] }))
  | searchThrows {faces crops embeddings e calls} (hfaces : faces ≠ [])
      (halign : alignAll s image faces = .ok crops)
      (hencode : s.encodeBatch crops = .ok embeddings) (hlen : embeddings.length = faces.length)
      (hsize : s.size ≠ 0) (hsearch : searchAll s c.recognitionCfg.topK 0 embeddings = .error e) :
      Processed c s frameMeta image t faces
        (.error e { t with encodeCalls := t.encodeCalls ++ [crops], searchCalls := calls })
  | resolved {faces crops embeddings hits} (hfaces : faces ≠ [])
      (halign : alignAll s image faces = .ok crops)
      (hencode : s.encodeBatch crops = .ok embeddings) (hlen : embeddings.length = faces.length)
      (hsize : s.size ≠ 0) (hsearch : searchAll s c.recognitionCfg.topK 0 embeddings = .ok hits) :
      Processed c s frameMeta image t faces
        (.ok ⟨frameMeta, List.zipWith (resolveFace c.recognitionCfg)
              (attachEmbeddings faces embeddings) hits⟩
          (c.record ⟨frameMeta, List.zipWith (resolveFace c.recognitionCfg)
              (attachEmbeddings faces embeddings) hits⟩
            { t with encodeCalls := t.encodeCalls ++ [crops],
                     searchCalls := t.searchCalls ++ embeddings.map (·, c.recognitionCfg.topK) }))

theorem process_processed (c : ProbeChain F) (s : Stages F Image Crop) (frameMeta : FrameMeta)
    (image : Image) (t : Trace F Crop) (faces : List (FaceResult F)) :
    Processed c s frameMeta image t faces ((c.process s frameMeta image faces).run t) := by
  unfold ProbeChain.process
  cases faces with
  | nil =>
    simp only [List.isEmpty_nil, if_true, EStateM.run_bind, deliver_run, EStateM.run_pure]
    exact .noFaces
  | cons f fs =>
    have hfaces : f :: fs ≠ [] := by simp
    generalize f :: fs = faces at hfaces
    simp only [List.isEmpty_iff, hfaces, if_false]
    cases halign : alignAll s image faces with
    | error e => exact .alignThrows hfaces halign
    | ok crops =>
      simp only [EStateM.run_bind, EStateM.run_pure, tryEncode_run]
      cases hencode : s.encodeBatch crops with
      | error e =>
        simp only [Except.toOption, EStateM.run_bind, deliver_run, EStateM.run_pure]
        exact .encodeThrows hfaces halign hencode
      | ok embeddings =>
        simp only [Except.toOption]
        split_ifs with hlen hsize
        · simp only [EStateM.run_bind, deliver_run, EStateM.run_pure]
          exact .countMismatch hfaces halign hencode hlen
        · simp only [EStateM.run_bind, deliver_run, EStateM.run_pure]
          exact .emptyIndex hfaces halign hencode (not_not.1 hlen) hsize
        · have hlen := not_not.1 hlen
          simp only [EStateM.run_bind]
          cases hsearch : searchAll s c.recognitionCfg.topK 0 embeddings with
          | error e =>
            obtain ⟨calls, hcalls⟩ := lookupAll_run_error c.recognitionCfg s 0 faces embeddings e
              { t with encodeCalls := t.encodeCalls ++ [crops] } hlen hsearch
            rw [hcalls]
            exact .searchThrows hfaces halign hencode hlen hsize hsearch
          | ok hits =>
            rw [lookupAll_run_ok c.recognitionCfg s 0 faces embeddings hits _ hlen hsearch]
            simp only [deliver_run, EStateM.run_pure]
            exact .resolved hfaces halign hencode hlen hsize hsearch

end Steps

end FacePipeline.Pipeline
