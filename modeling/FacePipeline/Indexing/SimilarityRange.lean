import FacePipeline.Indexing.SearchBatch
import FacePipeline.Trt.Embeddings
import Mathlib.Analysis.Real.Sqrt
import Mathlib.Tactic.Linarith
import Mathlib.Tactic.NormNum
import Mathlib.Tactic.Ring

/-!
# The range of the similarities

`validate` checks the threshold and the margin against the range of a cosine similarity. A normalized row
has a norm of at most one, in both branches of `l2_normalize`, so the inner product of two of them lies
between minus one and one. An index that was filled with such rows answers within that range, whatever
happened to it before, and the margin of its first two hits lies between zero and two
(`similarities_inRange`).
-/

namespace FacePipeline.Indexing

open FacePipeline.Config FacePipeline.Pipeline FacePipeline.Trt Traverse

variable {F : Type} [Field F] [LinearOrder F]

/-! ### Normalized rows -/

/-- What Eigen's `norm` computes. -/
structure EuclideanNorm (math : FaceMath F) : Prop where
  nonneg : ∀ v, 0 ≤ math.norm v
  mul_self : ∀ v, math.norm v * math.norm v = innerProduct v v

section Norm

variable [IsStrictOrderedRing F]

omit [LinearOrder F] [IsStrictOrderedRing F] in
theorem innerProduct_cons (a b : F) (x y : List F) :
    innerProduct (a :: x) (b :: y) = a * b + innerProduct x y := by
  rw [innerProduct, List.zipWith_cons_cons, List.sum_cons, innerProduct]

theorem innerProduct_self_nonneg (x : List F) : 0 ≤ innerProduct x x := by
  induction x with
  | nil => rfl
  | cons a x ih =>
    rw [innerProduct_cons]
    exact add_nonneg (mul_self_nonneg a) ih

/-- Twice an inner product is at most the sum of the squared norms. -/
theorem two_mul_abs_innerProduct_le (x y : List F) :
    2 * |innerProduct x y| ≤ innerProduct x x + innerProduct y y := by
  induction x generalizing y with
  | nil =>
    have hy := innerProduct_self_nonneg y
    simpa [innerProduct] using hy
  | cons a x ih =>
    cases y with
    | nil =>
      have hx := innerProduct_self_nonneg (a :: x)
      simpa [innerProduct] using hx
    | cons b y =>
      have hsquares : 2 * |a * b| ≤ a * a + b * b := by
        rw [← abs_mul_abs_self a, ← abs_mul_abs_self b, abs_mul]
        linarith [mul_self_nonneg (|a| - |b|)]
      rw [innerProduct_cons, innerProduct_cons, innerProduct_cons]
      linarith [abs_add_le (a * b) (innerProduct x y), ih y]

omit [LinearOrder F] [IsStrictOrderedRing F] in
theorem innerProduct_map_div (x y : List F) (c : F) :
    innerProduct (x.map (· / c)) (y.map (· / c)) = innerProduct x y / (c * c) := by
  induction x generalizing y with
  | nil => simp [innerProduct]
  | cons a x ih =>
    cases y with
    | nil => simp [innerProduct]
    | cons b y => rw [List.map_cons, List.map_cons, innerProduct_cons, innerProduct_cons, ih, add_div, div_mul_div_comm]

/-- Whether it is divided or left as it is, a normalized row is no longer than one. -/
theorem normalizedRow_norm_le {math : FaceMath F} (hnorm : EuclideanNorm math) {emb : ℕ} {v : Embedding F}
    (h : NormalizedRow math emb v) : innerProduct v v ≤ 1 := by
  obtain ⟨row, _, rfl⟩ := h
  rw [l2Normalize]
  split_ifs with hcutoff
  · have hpos : 0 < math.norm row := lt_trans (by norm_num) hcutoff
    rw [innerProduct_map_div, ← hnorm.mul_self row, div_self (mul_pos hpos hpos).ne']
  · have hle : math.norm row ≤ 1 := (not_lt.1 hcutoff).trans (by norm_num)
    rw [← hnorm.mul_self row]
    exact mul_le_one₀ hle (hnorm.nonneg row) hle

/-- The inner product of two normalized rows is a cosine similarity. -/
theorem innerProduct_normalizedRow {math : FaceMath F} (hnorm : EuclideanNorm math) {n m : ℕ}
    {v w : Embedding F} (hv : NormalizedRow math n v) (hw : NormalizedRow math m w) :
    kMinSimilarity F ≤ innerProduct v w ∧ innerProduct v w ≤ kMaxSimilarity F := by
  have habs := two_mul_abs_innerProduct_le v w
  have hv := normalizedRow_norm_le hnorm hv
  have hw := normalizedRow_norm_le hnorm hw
  have hle : |innerProduct v w| ≤ 1 := by linarith
  exact abs_le.1 hle

end Norm

/-! ### Galleries of embeddings -/

/-- An IVF-Flat index of normalized rows, for inner products. -/
structure EncodedIndex (math : FaceMath F) (embeddingDim : UInt32) (idx : IndexIDMap F) : Prop where
  kind : idx.index.kind = .ivfFlat
  metric : idx.index.metric = .innerProduct
  dimension : idx.index.d = embeddingDim
  entries : ∀ e ∈ idx.index.entries, NormalizedRow math embeddingDim.toNat e.vec

/-- The operation builds an IVF-Flat index, and stores what the encoder has produced. -/
def StoresEmbeddings (math : FaceMath F) (embeddingDim : UInt32) (cfg : FaissConfig) : Op F → Prop
  | .build embeddings _ => chosenType cfg embeddings.cols = .ivfFlat ∧
      ∀ v ∈ embeddings.columns, Produced math embeddingDim v
  | .add embeddings _ => ∀ v ∈ embeddings.columns, Produced math embeddingDim v
  | .remove _ => True
  | .load file => file.index.kind = .ivfFlat ∧ file.index.metric = .innerProduct ∧
      file.index.d = embeddingDim ∧ ∀ e ∈ file.index.entries, Produced math embeddingDim e.vec

/-- The searcher after such operations, each of which returned or threw. -/
inductive GalleryRun (faiss : Faiss F) (math : FaceMath F) (embeddingDim : UInt32) (cfg : FaissConfig) :
    FaissSearcher F → Prop where
  | new : GalleryRun faiss math embeddingDim cfg { cfg }
  | ok {s s' op fail} : GalleryRun faiss math embeddingDim cfg s →
      StoresEmbeddings math embeddingDim cfg op → (op.run faiss fail).run s = .ok () s' →
      GalleryRun faiss math embeddingDim cfg s'
  | throws {s s' op fail e} : GalleryRun faiss math embeddingDim cfg s →
      StoresEmbeddings math embeddingDim cfg op → (op.run faiss fail).run s = .error (.throws e) s' →
      GalleryRun faiss math embeddingDim cfg s'

/-- The chain works with an encoder and this searcher. -/
structure Serving {Image Crop : Type} (faiss : Faiss F) (math : FaceMath F) (embeddingDim : UInt32)
    (s : FaissSearcher F) (stages : Stages F Image Crop) : Prop where
  encoder : ∀ crops embeddings, stages.encodeBatch crops = .ok embeddings →
    ∀ v ∈ embeddings, Produced math embeddingDim v
  searcher : ∀ i q k hits, stages.search i q k = .ok hits → s.search faiss q k = .ok hits

/-- The similarities and the margins are in the ranges that `validate` knows. -/
structure InRange (faiss : Faiss F) (math : FaceMath F) (embeddingDim : UInt32) (s : FaissSearcher F) :
    Prop where
  similarity : ∀ q, Produced math embeddingDim q → ∀ k found, s.search faiss q k = .ok found →
    ∀ r ∈ found, kMinSimilarity F ≤ r.similarity ∧ r.similarity ≤ kMaxSimilarity F
  /-- Of every face that is looked up and has two hits. -/
  margin : ∀ {Image Crop : Type} (c : ProbeChain F) (stages : Stages F Image Crop),
    Serving faiss math embeddingDim s stages → ∀ frameMeta image faces t result t',
    (c.process stages frameMeta image faces).run t = .ok result t' →
    ∀ crops embeddings, alignAll stages image faces = .ok crops →
    stages.encodeBatch crops = .ok embeddings → embeddings.length = faces.length → stages.size ≠ 0 →
    ∀ (i : ℕ) f e found, result.faces[i]? = some f → embeddings[i]? = some e →
    stages.search i e c.recognitionCfg.topK = .ok found → 2 ≤ found.length →
    0 ≤ f.marginToTop2 ∧ f.marginToTop2 ≤ kMaxSimilarity F - kMinSimilarity F

variable {faiss : Faiss F} {math : FaceMath F} {embeddingDim : UInt32} {cfg : FaissConfig}

/-- What is added to an index of normalized rows. -/
theorem EncodedIndex.add {idx : IndexIVF F} {xs : List (List F)} (hkind : idx.kind = .ivfFlat)
    (hentries : ∀ e ∈ idx.entries, NormalizedRow math embeddingDim.toNat e.vec)
    (hxs : ∀ v ∈ xs, NormalizedRow math embeddingDim.toNat v) :
    ∀ e ∈ (idx.add faiss xs).entries, NormalizedRow math embeddingDim.toNat e.vec := by
  intro e he
  rcases List.mem_append.1 he with he | he
  · exact hentries e he
  · obtain ⟨i, hi, rfl⟩ := List.mem_mapIdx.1 he
    show NormalizedRow math embeddingDim.toNat (idx.keep faiss xs[i])
    rw [keep_flat hkind]
    exact hxs _ (List.getElem_mem hi)

/-- Columns of embeddings have the dimension of an embedding. -/
theorem rows_of_columns {embeddings : MatrixXf F} (hcols : 0 < embeddings.cols)
    (h : ∀ v ∈ embeddings.columns, Produced math embeddingDim v) : embeddings.rows = embeddingDim.toNat := by
  have hmem : embeddings.column 0 ∈ embeddings.columns :=
    List.mem_map_of_mem (List.mem_range.2 hcols)
  rw [← embeddings.column_length hcols]
  exact normalizedRow_length (produced_row (h _ hmem))

/-- The new index of an operation, when the present one holds embeddings. -/
theorem newIndex_encoded {s : FaissSearcher F} {op : Op F} {fail : Failures} {idx : IndexIDMap F}
    (hcfg : s.cfg = cfg) (hmetric : cfg.metric = .innerProduct)
    (h : ∀ idx, s.indexCpu = some idx → EncodedIndex math embeddingDim idx)
    (hop : StoresEmbeddings math embeddingDim cfg op) (hnew : op.newIndex faiss fail s = .ok idx) :
    EncodedIndex math embeddingDim idx := by
  cases op with
  | build embeddings ids =>
    obtain ⟨hkind, hcolumns⟩ := hop
    obtain ⟨_, hprepare⟩ := newIndex_build_ok.1 hnew
    rw [hcfg] at hprepare
    obtain ⟨_, _, htrainable, _, rfl⟩ := prepare_ok.1 hprepare
    have hcols : 0 < embeddings.cols :=
      (Nat.pos_of_ne_zero fun h0 => htrainable.nlist_pos (UInt32.toNat_inj.1 h0)).trans_le htrainable.nlist_le
    have hrows := rows_of_columns hcols hcolumns
    have hdim : UInt32.ofNat embeddings.rows = embeddingDim := by rw [hrows, UInt32.ofNat_toNat]
    have hread : embeddings.read (UInt32.ofNat embeddings.rows) = embeddings.columns :=
      MatrixXf.read_rows (by rw [hdim, hrows])
    refine ⟨hkind, by simp [IndexIVF.add, trainedIndex, toFaiss, hmetric], hdim, ?_⟩
    refine EncodedIndex.add hkind (by simp [trainedIndex]) fun v hv => produced_row (hcolumns v ?_)
    rwa [hread] at hv
  | add embeddings ids =>
    obtain ⟨old, hcpu, _, hadd⟩ := newIndex_add_ok.1 hnew
    have hold := h old hcpu
    obtain ⟨_, _, rfl⟩ := addWithIds_ok.1 hadd
    refine ⟨hold.kind, hold.metric, hold.dimension,
      EncodedIndex.add hold.kind hold.entries fun v hv => produced_row (hop v ?_)⟩
    have hcols : 0 < embeddings.cols := by
      obtain ⟨j, hj, _⟩ := List.mem_map.1 hv
      exact (Nat.zero_le j).trans_lt (List.mem_range.1 hj)
    rwa [hold.dimension, ← rows_of_columns hcols hop] at hv
  | remove ids =>
    obtain ⟨old, hcpu, _, hremove⟩ := newIndex_remove_ok.1 hnew
    have hold := h old hcpu
    obtain ⟨_, _, rfl⟩ := removeIds_ok.1 hremove
    exact ⟨hold.kind, hold.metric, hold.dimension, fun e he => hold.entries e (List.mem_of_mem_filter he)⟩
  | load file =>
    obtain ⟨hkind, hmetric, hdim, hentries⟩ := hop
    obtain ⟨_, rfl⟩ := newIndex_load_ok.1 hnew
    exact ⟨hkind, hmetric, hdim, fun e he => produced_row (hentries e he)⟩

/-- Both indexes of the searcher hold embeddings. -/
structure HoldsEmbeddings (math : FaceMath F) (embeddingDim : UInt32) (cfg : FaissConfig)
    (s : FaissSearcher F) : Prop where
  cfg_eq : s.cfg = cfg
  cpu : ∀ idx, s.indexCpu = some idx → EncodedIndex math embeddingDim idx
  gpu : ∀ idx, s.indexGpu = some idx → EncodedIndex math embeddingDim idx

theorem galleryRun_holds (hmetric : cfg.metric = .innerProduct) {s : FaissSearcher F}
    (hrun : GalleryRun faiss math embeddingDim cfg s) : HoldsEmbeddings math embeddingDim cfg s := by
  induction hrun with
  | new => exact ⟨rfl, by simp, by simp⟩
  | @ok s s' op fail _ hop hstep ih =>
    obtain ⟨idx, hnew, _, rfl⟩ := op_run_ok.1 hstep
    have hidx := newIndex_encoded ih.cfg_eq hmetric ih.cpu hop hnew
    refine ⟨by rw [finish_cfg, ih.cfg_eq], fun idx' h' => ?_, fun idx' h' => ?_⟩
    · rw [finish_indexCpu] at h'
      exact Option.some.inj h' ▸ hidx
    · unfold Op.finish at h'
      split_ifs at h'
      · exact Option.some.inj h' ▸ hidx
      · exact ih.gpu idx' h'
  | @throws s s' op fail e _ hop hstep ih =>
    obtain ⟨hcfg, hgpu, _⟩ := op_error_gpu hstep
    refine ⟨hcfg.trans ih.cfg_eq, ?_, by rw [hgpu]; exact ih.gpu⟩
    rcases op_run_error.1 hstep with ⟨_, rfl⟩ | ⟨idx, _, hnew, _, _, rfl⟩
    · obtain ⟨d, hd⟩ := assignedEarly_eq s op
      rw [hd]
      exact ih.cpu
    · intro idx' h'
      exact Option.some.inj h' ▸ newIndex_encoded ih.cfg_eq hmetric ih.cpu hop hnew

theorem HoldsEmbeddings.searched {s : FaissSearcher F} (h : HoldsEmbeddings math embeddingDim cfg s)
    {idx : IndexIDMap F} (hidx : s.searched = some idx) : EncodedIndex math embeddingDim idx := by
  unfold FaissSearcher.searched at hidx
  split_ifs at hidx
  · exact h.gpu idx hidx
  · exact h.cpu idx hidx

/-! ### Scores of embeddings -/

/-- The similarities of a search are scores that FAISS has selected, in its order. -/
theorem similarities_sublist {s : FaissSearcher F} {q : Embedding F} {k : UInt32}
    {found : List (SearchResult F)} (hsearch : s.search faiss q k = .ok found) :
    ∃ idx, s.searched = some idx ∧ idx.index.d.toNat ≤ q.length ∧ (found.map (·.similarity)).Sublist
      ((idx.index.search faiss (q.take idx.index.d.toNat) k.toNat).map (·.2)) := by
  obtain ⟨_, idx, slots, hidx, hd, hslots, rfl⟩ := search_ok.1 hsearch
  refine ⟨idx, hidx, hd, ?_⟩
  obtain ⟨hlen, hall⟩ := translateAll_ok.1 hslots
  have hscores : slots.map (·.2) =
      (idx.index.search faiss (q.take idx.index.d.toNat) k.toNat).map (·.2) := by
    refine List.ext_getElem? fun j => ?_
    rw [List.getElem?_map, List.getElem?_map]
    cases hj : (idx.index.search faiss (q.take idx.index.d.toNat) k.toNat)[j]? with
    | none => rw [List.getElem?_eq_none (hlen ▸ List.getElem?_eq_none_iff.1 hj)]; rfl
    | some b =>
      obtain ⟨id, _, hslot⟩ := hall j b hj
      rw [hslot]
      rfl
  rw [← hscores]
  show ((hits slots).map _).Sublist _
  rw [hits_eq, List.map_map]
  exact List.filter_sublist.map _

section Range

variable [IsStrictOrderedRing F]

/-- FAISS selects inner products of the query with stored vectors. -/
theorem score_bounds (hnorm : EuclideanNorm math) {idx : IndexIDMap F} (h : EncodedIndex math embeddingDim idx)
    {q : Embedding F} (hq : NormalizedRow math embeddingDim.toNat q) {k : ℕ} {b : ℕ × F}
    (hb : b ∈ idx.index.search faiss q k) : kMinSimilarity F ≤ b.2 ∧ b.2 ≤ kMaxSimilarity F := by
  have hscanned := (faiss.isTopK_select _ _ _).mem hb
  obtain ⟨e, he, rfl⟩ := List.mem_map.1 hscanned
  show kMinSimilarity F ≤ idx.index.metric.value q e.vec ∧ _
  rw [h.metric]
  exact innerProduct_normalizedRow hnorm hq (h.entries e (List.mem_of_mem_filter he))

theorem search_range (hnorm : EuclideanNorm math) {s : FaissSearcher F}
    (h : HoldsEmbeddings math embeddingDim cfg s) {q : Embedding F} (hq : Produced math embeddingDim q)
    {k : UInt32} {found : List (SearchResult F)} (hsearch : s.search faiss q k = .ok found) :
    (∀ r ∈ found, kMinSimilarity F ≤ r.similarity ∧ r.similarity ≤ kMaxSimilarity F) ∧
      found.Pairwise fun a b => b.similarity ≤ a.similarity := by
  obtain ⟨idx, hidx, hd, hsublist⟩ := similarities_sublist hsearch
  have hencoded := h.searched hidx
  have hrow := produced_row hq
  rw [List.take_of_length_le (by rw [hencoded.dimension, normalizedRow_length hrow])] at hsublist
  constructor
  · intro r hr
    obtain ⟨b, hb, hscore⟩ := List.mem_map.1 (hsublist.subset (List.mem_map_of_mem hr))
    rw [← hscore]
    exact score_bounds hnorm hencoded hrow hb
  · have hsorted : (idx.index.search faiss q k.toNat).Pairwise fun a b => b.2 ≤ a.2 := by
      have hranked := (faiss.isTopK_select idx.index.metric k.toNat (idx.index.scanned faiss q)).sorted
      rw [hencoded.metric] at hranked
      rw [IndexIVF.search, hencoded.metric]
      exact hranked
    have hscores : ((idx.index.search faiss q k.toNat).map (·.2)).Pairwise fun x y => y ≤ x :=
      List.pairwise_map.2 hsorted
    exact List.pairwise_map.1 (hscores.sublist hsublist)

omit [IsStrictOrderedRing F] in
/-- The margin of a face with two hits. -/
theorem resolveFace_margin (c : RecognitionConfig F) (f : FaceResult F) (a b : SearchResult F)
    (rest : List (SearchResult F)) :
    (resolveFace c f (a :: b :: rest)).marginToTop2 = a.similarity - b.similarity := by
  rw [resolveFace, apply_ite FaceResult.marginToTop2]
  exact ite_self _

omit [IsStrictOrderedRing F] in
/-- A face that is looked up is resolved by its own hits. -/
theorem face_resolved {Image Crop : Type} {c : ProbeChain F} {stages : Stages F Image Crop}
    {frameMeta : FrameMeta} {image : Image} {faces : List (FaceResult F)} {t t' : Trace F Crop}
    {result : FrameResult F} {crops : List Crop} {embeddings : List (Embedding F)}
    (hrun : (c.process stages frameMeta image faces).run t = .ok result t')
    (hcrops : alignAll stages image faces = .ok crops)
    (hencode : stages.encodeBatch crops = .ok embeddings) (hlen : embeddings.length = faces.length)
    (hsize : stages.size ≠ 0) {i : ℕ} {f : FaceResult F} {e : Embedding F} {found : List (SearchResult F)}
    (hf : result.faces[i]? = some f) (he : embeddings[i]? = some e)
    (hsearch : stages.search i e c.recognitionCfg.topK = .ok found) :
    ∃ f₀, f = resolveFace c.recognitionCfg f₀ found := by
  have hprocess := process_processed c stages frameMeta image t faces
  rw [hrun] at hprocess
  cases hprocess with
  | noFaces => cases hf
  | encodeThrows _ hcrops' hthrow =>
    obtain rfl := Except.ok.inj (hcrops.symm.trans hcrops')
    rw [hencode] at hthrow
    cases hthrow
  | countMismatch _ hcrops' hencode' hne =>
    obtain rfl := Except.ok.inj (hcrops.symm.trans hcrops')
    obtain rfl := Except.ok.inj (hencode.symm.trans hencode')
    exact absurd hlen hne
  | emptyIndex _ _ _ _ hempty => exact absurd hempty hsize
  | resolved _ hcrops' hencode' _ _ hfound =>
    obtain rfl := Except.ok.inj (hcrops.symm.trans hcrops')
    obtain rfl := Except.ok.inj (hencode.symm.trans hencode')
    obtain ⟨answer, hanswer, hsearched⟩ := (traverseIdx_ok_iff.1 hfound).2 i e he
    rw [Nat.zero_add] at hsearched
    obtain rfl := Except.ok.inj (hsearch.symm.trans hsearched)
    obtain ⟨f₀, _, hresolved⟩ := (getElem?_zipWith_left hanswer).1 hf
    exact ⟨f₀, hresolved.symm⟩

/-- **Similarities and margins stay in the ranges that the thresholds are validated against.** -/
theorem similarities_inRange (math : FaceMath F) (hnorm : EuclideanNorm math) (faiss : Faiss F)
    (embeddingDim : UInt32) (cfg : FaissConfig) (hmetric : cfg.metric = .innerProduct) (s : FaissSearcher F)
    (hrun : GalleryRun faiss math embeddingDim cfg s) : InRange faiss math embeddingDim s := by
  have hholds := galleryRun_holds hmetric hrun
  constructor
  · intro q hq k found hsearch
    exact (search_range hnorm hholds hq hsearch).1
  · intro Image Crop c stages hserving frameMeta image faces t result t' hprocess crops embeddings hcrops
      hencode hlen hsize i f e found hf he hsearch htwo
    obtain ⟨f₀, rfl⟩ := face_resolved hprocess hcrops hencode hlen hsize hf he hsearch
    have hproduced := hserving.encoder crops embeddings hencode e (List.mem_of_getElem? he)
    obtain ⟨hrange, hsorted⟩ :=
      search_range hnorm hholds hproduced (hserving.searcher i e _ found hsearch)
    match found with
    | a :: b :: rest =>
      rw [resolveFace_margin]
      have ha := hrange a List.mem_cons_self
      have hb := hrange b (List.mem_cons_of_mem _ List.mem_cons_self)
      have hle := (List.pairwise_cons.1 hsorted).1 b List.mem_cons_self
      exact ⟨sub_nonneg.2 hle, sub_le_sub ha.2 hb.1⟩
    | [] | [_] => simp at htwo

end Range

/-! ### One person, in the real numbers -/

/-- The Euclidean norm. -/
noncomputable def rootMath : FaceMath ℝ where
  resize _ _ := .error (.other "!ssize.empty()")
  norm v := √(innerProduct v v)
  resize_size := by
    intro image side out h
    cases h

theorem rootMath_norm : EuclideanNorm rootMath :=
  ⟨fun _ => Real.sqrt_nonneg _, fun v => Real.mul_self_sqrt (innerProduct_self_nonneg v)⟩

theorem l2Normalize_threeFour : l2Normalize rootMath [3, 4] = [3 / 5, 4 / 5] := by
  have hnorm : rootMath.norm [3, 4] = 5 := by
    show √(innerProduct [3, 4] [3, 4]) = 5
    rw [Real.sqrt_eq_iff_mul_self_eq_of_pos (by norm_num)]
    norm_num [innerProduct]
  rw [l2Normalize, hnorm, if_pos (by norm_num)]
  rfl

/-- The person is found under the own embedding. -/
theorem similarities_inRange_onePerson : ∃ s : FaissSearcher ℝ,
    ((Op.build (.ofColumn (l2Normalize rootMath [3, 4])) [7]).run referenceFaiss {}).run { cfg := oneCell } =
      .ok () s ∧
    s.search referenceFaiss (l2Normalize rootMath [3, 4]) 1 =
      .ok [⟨7, innerProduct [3 / 5, 4 / 5] [3 / 5, 4 / 5]⟩] ∧
    InRange referenceFaiss rootMath 2 s := by
  have hproduced : Produced rootMath 2 (l2Normalize rootMath [3, 4]) := produced_of_row rootMath rfl (by decide)
  rw [l2Normalize_threeFour] at *
  have hbuild : ((Op.build (.ofColumn [(3 / 5 : ℝ), 4 / 5]) [7]).run referenceFaiss {}).run { cfg := oneCell } =
      .ok () _ := rfl
  have hgallery : StoresEmbeddings rootMath 2 oneCell (.build (.ofColumn [3 / 5, 4 / 5]) [7]) := by
    refine ⟨rfl, fun v hv => ?_⟩
    obtain rfl : v = [3 / 5, 4 / 5] := List.mem_singleton.1 hv
    exact hproduced
  exact ⟨_, hbuild, rfl, similarities_inRange rootMath rootMath_norm referenceFaiss 2 oneCell rfl _
    (.ok .new hgallery hbuild)⟩

end FacePipeline.Indexing
