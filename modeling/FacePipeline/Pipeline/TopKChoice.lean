import FacePipeline.Pipeline.SecondPhoto
import Mathlib.Algebra.Order.Field.Rat

/-!
# The choice of top_k

Two runs of one frame that differ in `top_k` alone. The search returns a prefix of one ranking, and the
margin rule reads the first two hits; a prefix of length one hides the runner-up, and then the
similarity of the first hit stands in for its lead. The runs report the same identities exactly when
that changes no decision (`matchedIds_topK_iff`).
-/

namespace FacePipeline.Pipeline

open FacePipeline.Config Traverse

variable {F Image Crop : Type}

/-- The same chain with another `top_k`. -/
def ProbeChain.withTopK (c : ProbeChain F) (topK : UInt32) : ProbeChain F :=
  { c with recognitionCfg := { c.recognitionCfg with topK } }

/-- The identities of the frame that `process` returns; `none` when it throws. -/
def matchedIds (r : EStateM.Result Exn (Trace F Crop) (FrameResult F)) : Option (List (Option Int)) :=
  match r with
  | .ok result _ => some (result.faces.map (·.matchedId))
  | .error _ _ => none

/-- The embeddings of a frame that are looked up in the index. -/
def probed (s : Stages F Image Crop) (image : Image) (faces : List (FaceResult F)) :
    List (Embedding F) :=
  match alignAll s image faces with
  | .error _ => []
  | .ok crops =>
      match s.encodeBatch crops with
      | .error _ => []
      | .ok embeddings => if embeddings.length = faces.length ∧ s.size ≠ 0 then embeddings else []

/-- A search that returns the first `top_k` entries of a fixed ranking. -/
def SearchesPrefix (s : Stages F Image Crop) (ranking : Embedding F → List (SearchResult F)) : Prop :=
  ∀ i query topK, s.search i query topK = .ok ((ranking query).take topK.toNat)

section Decision
variable [Sub F] [LE F] [DecidableLE F]

/-- The identity that the margin rule reports for these hits. -/
def identity (cfg : RecognitionConfig F) : List (SearchResult F) → Option Int
  | [] => none
  | top :: rest => if Accepts cfg top rest.head? then some top.id else none

/-- Hiding the runner-up of the ranking changes no decision. -/
def LoneInert (cfg : RecognitionConfig F) (ranking : List (SearchResult F)) : Prop :=
  ∀ top second rest, ranking = top :: second :: rest → cfg.threshold ≤ top.similarity →
    (cfg.marginMin ≤ top.similarity ↔ cfg.marginMin ≤ top.similarity - second.similarity)

/-! ### The decision on a prefix -/

theorem resolveFace_identity {cfg : RecognitionConfig F} {f : FaceResult F}
    (hf : f.matchedId = none) (hits : List (SearchResult F)) :
    (resolveFace cfg f hits).matchedId = identity cfg hits := by
  cases hits with
  | nil => exact hf
  | cons top rest => exact resolveFace_cons_matchedId hf top rest

/-- Two hits decide as much as the whole ranking. -/
theorem identity_take {cfg : RecognitionConfig F} {ranking : List (SearchResult F)} {k : ℕ}
    (hk : 2 ≤ k) : identity cfg (ranking.take k) = identity cfg ranking := by
  obtain ⟨k, rfl⟩ := Nat.exists_eq_add_of_le hk
  rw [Nat.add_comm]
  cases ranking with
  | nil => rfl
  | cons top rest =>
    cases rest with
    | nil => rfl
    | cons second rest => rfl

theorem identity_take_one_iff {cfg : RecognitionConfig F} {ranking : List (SearchResult F)} :
    identity cfg (ranking.take 1) = identity cfg ranking ↔ LoneInert cfg ranking := by
  cases ranking with
  | nil =>
    refine iff_of_true rfl ?_
    intro top second rest h
    cases h
  | cons top rest =>
    cases rest with
    | nil =>
      refine iff_of_true rfl ?_
      intro top' second rest h
      cases h
    | cons second rest =>
      have hsame : identity cfg ((top :: second :: rest).take 1) =
          identity cfg (top :: second :: rest) ↔
            (Accepts cfg top none ↔ Accepts cfg top (some second)) := by
        simp only [List.take_succ_cons, List.take_zero, identity, List.head?_nil, List.head?_cons]
        by_cases hlone : Accepts cfg top none <;> by_cases hsecond : Accepts cfg top (some second) <;>
          simp [hlone, hsecond]
      rw [hsame, Accepts, Accepts, and_congr_right_iff]
      constructor
      · rintro h _ _ _ ⟨⟩
        exact h
      · intro h
        exact h top second rest rfl

/-- One face, two prefixes. -/
theorem identity_take_iff {cfg : RecognitionConfig F} {ranking : List (SearchResult F)} {k k' : ℕ}
    (hk : k ≠ 0) (hk' : k' ≠ 0) :
    identity cfg (ranking.take k) = identity cfg (ranking.take k') ↔
      (k = 1 ↔ k' = 1) ∨ LoneInert cfg ranking := by
  by_cases h : k = 1 <;> by_cases h' : k' = 1
  · subst h h'
    exact iff_of_true rfl (.inl Iff.rfl)
  · subst h
    rw [identity_take (by omega : 2 ≤ k'), identity_take_one_iff]
    simp [h']
  · subst h'
    rw [identity_take (by omega : 2 ≤ k), eq_comm, identity_take_one_iff]
    simp [h]
  · rw [identity_take (by omega : 2 ≤ k), identity_take (by omega : 2 ≤ k')]
    exact iff_of_true rfl (.inl (iff_of_false h h'))

end Decision

/-! ### The frame -/

section Frame
variable {s : Stages F Image Crop} {image : Image} {faces : List (FaceResult F)}

theorem searchAll_ranking {ranking : Embedding F → List (SearchResult F)}
    (hsearch : SearchesPrefix s ranking) (topK : UInt32) (i : ℕ) (queries : List (Embedding F)) :
    searchAll s topK i queries = .ok (queries.map fun q => (ranking q).take topK.toNat) := by
  refine traverseIdx_ok_iff.2 ⟨List.length_map _, fun j q hj => ?_⟩
  exact ⟨_, by rw [List.getElem?_map, hj, Option.map_some], hsearch _ q topK⟩

variable [Sub F] [LE F] [DecidableLE F]

/-- The identities of faces that were looked up. -/
theorem matchedId_resolved {cfg : RecognitionConfig F} {embeddings : List (Embedding F)}
    {hits : Embedding F → List (SearchResult F)} (hfresh : ∀ f ∈ faces, f.matchedId = none)
    (hlen : embeddings.length = faces.length) :
    (List.zipWith (resolveFace cfg) (attachEmbeddings faces embeddings)
      (embeddings.map hits)).map (·.matchedId) = embeddings.map fun e => identity cfg (hits e) := by
  refine List.ext_getElem (by simp [attachEmbeddings, hlen]) fun i hi _ => ?_
  have hi' : i < faces.length := by
    simp only [List.length_map, List.length_zipWith, attachEmbeddings] at hi
    omega
  simp only [List.getElem_map, List.getElem_zipWith, attachEmbeddings]
  refine resolveFace_identity ?_ _
  exact hfresh faces[i] (List.getElem_mem hi')

omit [Sub F] [LE F] [DecidableLE F] in
/-- The embeddings are those of the encoder when nothing stops the frame before the lookup. -/
theorem probed_eq {crops : List Crop} {embeddings : List (Embedding F)}
    (halign : alignAll s image faces = .ok crops) (hencode : s.encodeBatch crops = .ok embeddings) :
    probed s image faces =
      if embeddings.length = faces.length ∧ s.size ≠ 0 then embeddings else [] := by
  simp only [probed, halign, hencode]

omit [Sub F] [LE F] [DecidableLE F] in
theorem probed_nil : probed s image ([] : List (FaceResult F)) = [] := by
  cases hencode : s.encodeBatch [] with
  | error e => simp only [probed, alignAll, traverseIdx_nil, hencode]
  | ok embeddings =>
    rw [probed_eq rfl hencode]
    split_ifs with h
    · exact List.length_eq_zero_iff.1 h.1
    · rfl

/-- What the identities of a run depend on. -/
theorem matchedIds_process (c : ProbeChain F) (frameMeta : FrameMeta) (t : Trace F Crop)
    {ranking : Embedding F → List (SearchResult F)} (hsearch : SearchesPrefix s ranking)
    (hfresh : ∀ f ∈ faces, f.matchedId = none) :
    matchedIds ((c.process s frameMeta image faces).run t) =
      match alignAll s image faces with
      | .error _ => none
      | .ok _ =>
          some (if probed s image faces = [] then faces.map fun _ => none
            else (probed s image faces).map fun e =>
              identity c.recognitionCfg ((ranking e).take c.recognitionCfg.topK.toNat)) := by
  have hbare : faces.map (·.matchedId) = faces.map fun _ => none := List.map_congr_left hfresh
  have hrun := process_processed c s frameMeta image t faces
  generalize (c.process s frameMeta image faces).run t = r at hrun
  cases hrun with
  | noFaces =>
    rw [if_pos probed_nil]
    rfl
  | alignThrows _ halign => simp only [matchedIds, halign]
  | encodeThrows _ halign hencode =>
    have hprobed : probed s image faces = [] := by simp only [probed, halign, hencode]
    simp only [matchedIds, halign, if_pos hprobed, hbare]
  | countMismatch _ halign hencode hlen =>
    have hprobed : probed s image faces = [] := by
      rw [probed_eq halign hencode, if_neg fun h => hlen h.1]
    simp only [matchedIds, halign, if_pos hprobed, hbare]
  | emptyIndex _ halign hencode hlen hsize =>
    have hprobed : probed s image faces = [] := by
      rw [probed_eq halign hencode, if_neg fun h => h.2 hsize]
    simp only [matchedIds, halign, if_pos hprobed, ← hbare]
    refine congrArg some (List.ext_getElem (by simp [attachEmbeddings, hlen]) fun i _ _ => ?_)
    simp [attachEmbeddings]
  | searchThrows _ halign hencode hlen hsize herror =>
    rw [searchAll_ranking hsearch] at herror
    cases herror
  | @resolved _ crops embeddings hits hfaces halign hencode hlen hsize hhits =>
    rw [searchAll_ranking hsearch] at hhits
    obtain rfl := Except.ok.inj hhits
    have hprobed : probed s image faces = embeddings := by
      rw [probed_eq halign hencode, if_pos ⟨hlen, hsize⟩]
    have hne : embeddings ≠ [] := fun h => by
      rw [h] at hlen
      exact hfaces (List.length_eq_zero_iff.1 hlen.symm)
    simp only [matchedIds, halign, hprobed, if_neg hne, matchedId_resolved hfresh hlen]

/-- **The identities depend on `top_k` exactly through a hidden runner-up.** -/
theorem matchedIds_topK_iff [Zero F] [One F] [Neg F] [ToString F] (c : ProbeChain F)
    (topK : UInt32) (s : Stages F Image Crop) (ranking : Embedding F → List (SearchResult F))
    (frameMeta : FrameMeta) (image : Image) (faces : List (FaceResult F)) (t : Trace F Crop)
    (hvalid : c.recognitionCfg.validate = .ok ())
    (hvalid' : (c.withTopK topK).recognitionCfg.validate = .ok ())
    (hsearch : SearchesPrefix s ranking) (hfresh : ∀ f ∈ faces, f.matchedId = none) :
    matchedIds (((c.withTopK topK).process s frameMeta image faces).run t) =
        matchedIds ((c.process s frameMeta image faces).run t) ↔
      (topK = 1 ↔ c.recognitionCfg.topK = 1) ∨
        ∀ e ∈ probed s image faces, LoneInert c.recognitionCfg (ranking e) := by
  have hne : c.recognitionCfg.topK.toNat ≠ 0 := fun h =>
    (RecognitionConfig.validate_ok.1 hvalid).topK (UInt32.toNat_inj.1 h)
  have hne' : topK.toNat ≠ 0 := fun h =>
    (RecognitionConfig.validate_ok.1 hvalid').topK (UInt32.toNat_inj.1 h)
  have hone : ∀ k : UInt32, k.toNat = 1 ↔ k = 1 := fun k =>
    ⟨fun h => UInt32.toNat_inj.1 h, fun h => h ▸ rfl⟩
  have hiff : ∀ e, identity c.recognitionCfg ((ranking e).take topK.toNat) =
      identity c.recognitionCfg ((ranking e).take c.recognitionCfg.topK.toNat) ↔
        (topK = 1 ↔ c.recognitionCfg.topK = 1) ∨ LoneInert c.recognitionCfg (ranking e) := fun e => by
    rw [identity_take_iff hne' hne, hone, hone]
  rw [matchedIds_process _ _ _ hsearch hfresh, matchedIds_process _ _ _ hsearch hfresh]
  show _ = _ ↔ _ ∨ ∀ e ∈ probed s image faces, _
  cases halign : alignAll s image faces with
  | error e =>
    have hprobed : probed s image faces = [] := by simp only [probed, halign]
    simp [hprobed]
  | ok crops =>
    simp only [Option.some.injEq]
    split_ifs with hprobed
    · simp [hprobed]
    · rw [List.map_inj_left]
      refine (forall₂_congr fun e _ => hiff e).trans ⟨fun h => ?_, fun h e he => ?_⟩
      · by_cases hsame : topK = 1 ↔ c.recognitionCfg.topK = 1
        · exact .inl hsame
        · exact .inr fun e he => (h e he).resolve_left hsame
      · exact h.imp_right fun h => h e he

end Frame

/-! ### A distant and a close runner-up -/

/-- One face, with this ranking of the gallery. -/
def rankedStages (ranking : List (SearchResult ℚ)) : Stages ℚ Unit Unit where
  align _ _ _ := .ok ()
  encodeBatch crops := .ok (crops.map fun _ => [1])
  size := ranking.length
  search _ _ topK := .ok (ranking.take topK.toNat)

/-- The thresholds of the shipped configuration. -/
def defaultChain : ProbeChain ℚ :=
  { recognitionCfg := ⟨9 / 20, 1 / 25, 5⟩ }

def oneFace : List (FaceResult ℚ) :=
  [.ofDetection ⟨0, 0, 8, 8⟩ (Vector.replicate 5 ⟨0, 0⟩) (9 / 10)]

theorem matchedIds_topK_distant :
    matchedIds (((defaultChain.withTopK 1).process (rankedStages [⟨7, 9 / 10⟩, ⟨8, 1 / 2⟩])
        ⟨"cam", 0, 0⟩ () oneFace).run {}) =
      matchedIds ((defaultChain.process (rankedStages [⟨7, 9 / 10⟩, ⟨8, 1 / 2⟩])
        ⟨"cam", 0, 0⟩ () oneFace).run {}) := by
  refine (matchedIds_topK_iff defaultChain 1 _ (fun _ => [⟨7, 9 / 10⟩, ⟨8, 1 / 2⟩]) _ _ _ _
    (by decide +kernel) (by decide +kernel) (fun _ _ _ => rfl) (by decide +kernel)).2 (.inr ?_)
  rintro e - top second rest ⟨⟩ -
  decide +kernel

/-- With a single hit a runner-up just behind is not seen, and the face is given an identity. -/
theorem matchedIds_topK_close :
    (defaultChain.withTopK 1).recognitionCfg.validate = .ok () ∧
    defaultChain.recognitionCfg.validate = .ok () ∧
    SearchesPrefix (rankedStages [⟨7, 9 / 10⟩, ⟨8, 89 / 100⟩])
      (fun _ => [⟨7, 9 / 10⟩, ⟨8, 89 / 100⟩]) ∧
    matchedIds (((defaultChain.withTopK 1).process (rankedStages [⟨7, 9 / 10⟩, ⟨8, 89 / 100⟩])
        ⟨"cam", 0, 0⟩ () oneFace).run {}) = some [some 7] ∧
    matchedIds ((defaultChain.process (rankedStages [⟨7, 9 / 10⟩, ⟨8, 89 / 100⟩])
        ⟨"cam", 0, 0⟩ () oneFace).run {}) = some [none] :=
  ⟨by decide +kernel, by decide +kernel, fun _ _ _ => rfl, by decide +kernel, by decide +kernel⟩

end FacePipeline.Pipeline
