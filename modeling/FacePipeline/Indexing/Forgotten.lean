import FacePipeline.Indexing.Atomicity
import FacePipeline.Lib.Hoare

/-!
# A removed person stays forgotten

Removals shift positions, so that an id may stand for a vector it was not enrolled with. What a removal does keep
is the set of ids: an id that is gone from both copies of the index comes back by a `build`, `add` or `load` that
brings it, and by no other call, whether the calls return or throw. Until then no search answers it, no frame is
identified as it and no file that is saved has it.
-/

namespace FacePipeline.Indexing

open FacePipeline.Config FacePipeline.Pipeline Hoare Traverse

variable {F : Type}

/-- Both the stored index and the one that answers have ids in `P` only. -/
structure Only (P : Int → Prop) (s : FaissSearcher F) : Prop where
  stored : ∀ idx, s.indexCpu = some idx → ∀ id ∈ idx.idMap, P id
  searched : ∀ idx, s.searched = some idx → ∀ id ∈ idx.idMap, P id

/-- The ids a call brings in. -/
def Op.enrolled : Op F → List Int
  | .build _ ids => ids
  | .add embeddings ids => ids.take embeddings.cols
  | .remove _ => []
  | .load file => file.idMap

/-- A search of the stages is one of this searcher's, or throws. -/
def AnswersFrom [CommRing F] [LinearOrder F] {Image Crop : Type} (faiss : Faiss F) (s : FaissSearcher F)
    (stages : Stages F Image Crop) : Prop :=
  ∀ i q k hits, stages.search i q k = .ok hits → s.search faiss q k = .ok hits

/-- Nobody who asks the searcher hears of the id. -/
structure Forgotten [CommRing F] [LinearOrder F] (faiss : Faiss F) (id : Int) (s : FaissSearcher F) : Prop where
  saved : ∀ file, s.save = .ok file → id ∉ file.idMap
  searched : ∀ q k hits, s.search faiss q k = .ok hits → ∀ hit ∈ hits, hit.id ≠ id
  /-- Of a frame that comes without identities, returned or delivered. -/
  identified : ∀ {Image Crop : Type} (c : ProbeChain F) (stages : Stages F Image Crop) (frameMeta : FrameMeta)
    (image : Image) (faces : List (FaceResult F)) (result : FrameResult F) (t : Trace F Crop),
    AnswersFrom faiss s stages → (∀ f ∈ faces, f.matchedId = none) →
    (c.process stages frameMeta image faces).run {} = .ok result t →
    ∀ r ∈ result :: t.delivered, ∀ f ∈ r.faces, f.matchedId ≠ some id

/-! ### The ids of the two copies -/

section Steps

variable [CommRing F] [LinearOrder F] {faiss : Faiss F} {P : Int → Prop} {s s' : FaissSearcher F} {op : Op F}
  {fail : Failures} {idx : IndexIDMap F}

/-- The new index has the ids of the old one and those the call brings. -/
theorem newIndex_only (h : Only P s) (hop : ∀ id ∈ op.enrolled, P id)
    (hidx : op.newIndex faiss fail s = .ok idx) : ∀ id ∈ idx.idMap, P id := by
  cases op with
  | build embeddings ids =>
    obtain ⟨_, hprepare⟩ := newIndex_build_ok.1 hidx
    obtain ⟨_, _, _, _, rfl⟩ := prepare_ok.1 hprepare
    intro id hid
    exact hop id (List.mem_of_mem_take hid)
  | add embeddings ids =>
    obtain ⟨old, hcpu, _, hadd⟩ := newIndex_add_ok.1 hidx
    obtain ⟨_, _, rfl⟩ := addWithIds_ok.1 hadd
    intro id hid
    rcases List.mem_append.1 hid with hid | hid
    · exact h.stored old hcpu id hid
    · exact hop id hid
  | remove ids =>
    obtain ⟨old, hcpu, _, hremove⟩ := newIndex_remove_ok.1 hidx
    obtain ⟨_, _, rfl⟩ := removeIds_ok.1 hremove
    intro id hid
    exact h.stored old hcpu id (List.mem_of_mem_take (List.mem_of_mem_filter hid))
  | load file =>
    obtain ⟨_, rfl⟩ := newIndex_load_ok.1 hidx
    exact hop

omit [CommRing F] [LinearOrder F] in
theorem only_install (h : Only P s) (hidx : ∀ id ∈ idx.idMap, P id) : Only P (op.install s idx) where
  stored idx' hidx' := by
    obtain rfl : idx = idx' := Option.some.inj hidx'
    exact hidx
  searched idx' hidx' := by
    by_cases hgpu : s.onGpu = true
    · refine h.searched idx' ?_
      simpa [Op.install, FaissSearcher.searched, hgpu] using hidx'
    · obtain rfl : idx = idx' := by simpa [Op.install, FaissSearcher.searched, hgpu] using hidx'
      exact hidx

omit [CommRing F] [LinearOrder F] in
theorem only_finish (h : Only P s) (hidx : ∀ id ∈ idx.idMap, P id) : Only P (op.finish s idx) := by
  unfold Op.finish
  split_ifs
  · constructor <;> intro idx' hidx' <;> obtain rfl : idx = idx' := Option.some.inj hidx' <;> exact hidx
  · exact only_install h hidx

/-- A call that returns or throws leaves the ids that were there and those it brings. -/
theorem op_only (faiss : Faiss F) (fail : Failures) (hop : ∀ id ∈ op.enrolled, P id) :
    Triple (Only P) (op.run faiss fail) (fun _ => Only P) (Only P) := by
  refine ⟨fun s h => ?_⟩
  cases hrun : (op.run faiss fail).run s with
  | ok u s' =>
    obtain ⟨idx, hidx, _, rfl⟩ := op_run_ok.1 hrun
    exact only_finish h (newIndex_only h hop hidx)
  | error e s' =>
    rcases op_run_error.1 hrun with ⟨_, rfl⟩ | ⟨idx, _, hidx, _, _, rfl⟩
    · obtain ⟨d, hd⟩ := assignedEarly_eq s op
      rw [hd]
      exact ⟨h.stored, h.searched⟩
    · exact only_install h (newIndex_only h hop hidx)

omit [CommRing F] [LinearOrder F] in
theorem remove_searched {ids : List Int} : ((Op.remove ids).finish s idx).searched = some idx := by
  by_cases hgpu : s.onGpu = true
  · simp [Op.finish, Op.clones, FaissSearcher.searched, hgpu]
  · simp [Op.finish, Op.clones, Op.install, FaissSearcher.searched, hgpu]

/-- A removal that returns has replaced both copies. -/
theorem remove_only {ids : List Int} {u : Unit} (hrun : ((Op.remove ids).run faiss fail).run s = .ok u s') :
    Only (· ∉ ids) s' := by
  obtain ⟨idx, hidx, _, rfl⟩ := op_run_ok.1 hrun
  obtain ⟨old, _, _, hremove⟩ := newIndex_remove_ok.1 hidx
  obtain ⟨_, _, rfl⟩ := removeIds_ok.1 hremove
  constructor
  · intro idx' hidx' id hid
    obtain rfl := Option.some.inj (finish_indexCpu.symm.trans hidx')
    exact of_decide_eq_true (List.mem_filter.1 hid).2
  · intro idx' hidx' id hid
    obtain rfl := Option.some.inj (remove_searched.symm.trans hidx')
    exact of_decide_eq_true (List.mem_filter.1 hid).2

end Steps

/-! ### What is answered -/

section Answers

variable [CommRing F] [LinearOrder F] {faiss : Faiss F} {s : FaissSearcher F}

/-- A hit has an id of the index that answers. -/
theorem exists_searched_of_hit {q : Embedding F} {k : UInt32} {hits : List (SearchResult F)}
    (hsearch : s.search faiss q k = .ok hits) {hit : SearchResult F} (hhit : hit ∈ hits) :
    ∃ idx, s.searched = some idx ∧ hit.id ∈ idx.idMap := by
  obtain ⟨_, idx, found, hidx, _, hfound, rfl⟩ := search_ok.1 hsearch
  obtain ⟨hlen, htranslated⟩ := translateAll_ok.1 hfound
  obtain ⟨slot, hslot, hsome⟩ := List.mem_filterMap.1 hhit
  obtain ⟨j, hj, rfl⟩ := List.mem_iff_getElem.1 hslot
  obtain ⟨id, hid, hat⟩ := htranslated j _ (List.getElem?_eq_getElem (hlen ▸ hj))
  have hslot : found[j].1 = id := by
    rw [List.getElem?_eq_getElem hj] at hat
    exact congrArg Prod.fst (Option.some.inj hat)
  have hhit : hit.id = found[j].1 := by
    unfold FaissSearcher.toHit at hsome
    split_ifs at hsome
    rw [← Option.some.inj hsome]
  exact ⟨idx, hidx, hhit ▸ hslot ▸ List.mem_of_getElem? hid⟩

end Answers

section Frames

variable [Sub F] [LE F] [DecidableLE F] {Image Crop : Type} {stages : Stages F Image Crop}

/-- What `process` delivers is what it returns. -/
theorem delivered_of_process {c : ProbeChain F} {frameMeta : FrameMeta} {image : Image} {faces : List (FaceResult F)}
    {result : FrameResult F} {t : Trace F Crop}
    (hrun : (c.process stages frameMeta image faces).run {} = .ok result t) :
    ∀ r ∈ t.delivered, r = result := by
  have hrecord : ∀ t₀ : Trace F Crop, t₀.delivered = [] → ∀ r ∈ (c.record result t₀).delivered, r = result := by
    intro t₀ ht₀ r hr
    unfold ProbeChain.record at hr
    split_ifs at hr
    · simpa [ht₀] using hr
    · simp [ht₀] at hr
  have hprocess := process_processed c stages frameMeta image ({} : Trace F Crop) faces
  rw [hrun] at hprocess
  cases hprocess with
  | noFaces | encodeThrows | countMismatch | emptyIndex | resolved => exact hrecord _ rfl

/-- The identity of a face that came without one is that of a hit. -/
theorem exists_hit_of_process {c : ProbeChain F} {frameMeta : FrameMeta} {image : Image}
    {faces : List (FaceResult F)} {result : FrameResult F} {t : Trace F Crop}
    (hfaces : ∀ f ∈ faces, f.matchedId = none)
    (hrun : (c.process stages frameMeta image faces).run {} = .ok result t) {f : FaceResult F} {id : Int}
    (hf : f ∈ result.faces) (hid : f.matchedId = some id) :
    ∃ i q k hits, stages.search i q k = .ok hits ∧ ∃ hit ∈ hits, hit.id = id := by
  have hattached : ∀ embeddings, ∀ f ∈ attachEmbeddings faces embeddings, f.matchedId = none := by
    intro embeddings f hf
    obtain ⟨j, hj, rfl⟩ := List.mem_iff_getElem.1 hf
    simp only [attachEmbeddings, List.getElem_zipWith]
    exact hfaces _ (List.getElem_mem _)
  have hprocess := process_processed c stages frameMeta image ({} : Trace F Crop) faces
  rw [hrun] at hprocess
  cases hprocess with
  | noFaces => cases hf
  | encodeThrows => rw [hfaces f hf] at hid; cases hid
  | countMismatch => rw [hfaces f hf] at hid; cases hid
  | emptyIndex => rw [hattached _ f hf] at hid; cases hid
  | @resolved _ crops embeddings answers _ _ _ hlen _ hsearch =>
    obtain ⟨hlen', hanswers⟩ := traverseIdx_ok_iff.1 hsearch
    obtain ⟨j, hj, rfl⟩ := List.mem_iff_getElem.1 hf
    rw [List.length_zipWith] at hj
    have hquery : j < embeddings.length := by omega
    obtain ⟨hits, hhits, hanswer⟩ := hanswers j _ (List.getElem?_eq_getElem hquery)
    rw [List.getElem_zipWith, List.getElem?_eq_getElem (by omega) |>.symm.trans hhits |> Option.some.inj] at hid
    have hnone := hattached embeddings _ (List.getElem_mem (by omega : j < (attachEmbeddings faces embeddings).length))
    obtain ⟨hhead, _⟩ := (resolveFace_matchedId hnone hits id).1 hid
    obtain ⟨hit, hhit, rfl⟩ := Option.map_eq_some_iff.1 hhead
    exact ⟨_, _, _, hits, hanswer, hit, List.mem_of_head? hhit, rfl⟩

end Frames

section Main

variable [CommRing F] [LinearOrder F] {faiss : Faiss F}

theorem Only.forgotten {id : Int} {s : FaissSearcher F} (h : Only (· ≠ id) s) : Forgotten faiss id s := by
  have hsearched : ∀ q k hits, s.search faiss q k = .ok hits → ∀ hit ∈ hits, hit.id ≠ id := by
    intro q k hits hsearch hit hhit
    obtain ⟨idx, hidx, hmem⟩ := exists_searched_of_hit hsearch hhit
    exact h.searched idx hidx _ hmem
  refine ⟨fun file hsave hmem => ?_, hsearched, ?_⟩
  · cases hcpu : s.indexCpu with
    | none =>
      rw [FaissSearcher.save, hcpu] at hsave
      cases hsave
    | some idx =>
      rw [FaissSearcher.save, hcpu] at hsave
      cases hsave
      exact h.stored file hcpu id hmem rfl
  · intro Image Crop c stages frameMeta image faces result t hanswers hfaces hrun r hr f hf hid
    obtain rfl : r = result := by
      rcases List.mem_cons.1 hr with hr | hr
      · exact hr
      · exact delivered_of_process hrun r hr
    obtain ⟨i, q, k, hits, hsearch, hit, hhit, rfl⟩ := exists_hit_of_process hfaces hrun hf hid
    exact hsearched q k hits (hanswers i q k hits hsearch) hit hhit rfl

/-- **An id that was removed stays forgotten until a call brings it back.** -/
theorem removed_forgotten (faiss : Faiss F) (s s₁ : FaissSearcher F) (ids : List Int) (fail : Failures)
    (hremove : ((Op.remove ids).run faiss fail).run s = .ok () s₁) (id : Int) (hid : id ∈ ids)
    (calls : List (Op F × Failures)) (hcalls : ∀ c ∈ calls, id ∉ c.1.enrolled) (caught : Stop → Bool) :
    Forgotten faiss id (runCalls (fun c : Op F × Failures => c.1.run faiss c.2) caught calls s₁) := by
  have hgone := remove_only hremove
  have hstart : Only (· ≠ id) s₁ := by
    constructor
    · rintro idx hidx _ hmem rfl
      exact hgone.stored idx hidx _ hmem hid
    · rintro idx hidx _ hmem rfl
      exact hgone.searched idx hidx _ hmem hid
  refine (runCalls_invariant_of_mem (fun c hc => op_only faiss c.2 fun id' hid' heq => ?_) hstart).forgotten
  exact hcalls c hc (heq ▸ hid')

end Main

/-- The person enrolled first leaves, another one comes, and a third call throws. -/
theorem removed_forgotten_firstLeaves : ∃ s s₁ : FaissSearcher ℤ,
    ((Op.build threePeople [10, 20, 30]).run referenceFaiss {}).run { cfg := oneCellGpu } = .ok () s ∧
    ((Op.remove [10]).run referenceFaiss {}).run s = .ok () s₁ ∧
    Forgotten referenceFaiss 10
      (runCalls (fun c : Op ℤ × Failures => c.1.run referenceFaiss c.2) (fun _ => true)
        [(.add onePerson [40], {}), (.remove [20], { removeIds := some (.runtimeError "out of memory") })] s₁) := by
  have hrun : ∃ s s₁ : FaissSearcher ℤ,
      ((Op.build threePeople [10, 20, 30]).run referenceFaiss {}).run { cfg := oneCellGpu } = .ok () s ∧
      ((Op.remove [10]).run referenceFaiss {}).run s = .ok () s₁ := ⟨_, _, rfl, rfl⟩
  obtain ⟨s, s₁, hbuild, hremove⟩ := hrun
  refine ⟨s, s₁, hbuild, hremove, removed_forgotten referenceFaiss s s₁ [10] {} hremove 10 (by decide) _ ?_ _⟩
  simp [Op.enrolled, onePerson]

end FacePipeline.Indexing
