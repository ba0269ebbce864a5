import FacePipeline.Indexing.Recall
import Mathlib.Data.Nat.Cast.Order.Ring

/-!
# What the similarity of a hit means

`search_batch` copies FAISS's score into `SearchResult::similarity`. For inner products a better
candidate has a larger score; for the L2 metric the score is a squared distance and a better candidate
has a smaller one, so the best hit has the smallest similarity and the margin of the first two is
negative. `rankedBySimilarity_iff` says that the inner product is the only metric for which the hits
are ranked by similarity.
-/

namespace FacePipeline.Indexing

open FacePipeline.Config FacePipeline.Pipeline TopK

variable {F : Type} [CommRing F] [LinearOrder F]

/-- The hits of `q` are ranked by a similarity. -/
structure RankedBySimilarity (m : MetricType) (g : Gallery F) (q : List F)
    (hits : List (SearchResult F)) : Prop where
  descending : hits.Pairwise fun a b => b.similarity ≤ a.similarity
  /-- A stored vector that is closer to the query is not less similar. -/
  closer : ∃ found : List (SearchResult F × List F), found.map (·.1) = hits ∧
    (found.map fun f => (f.1.id, f.2)).Subperm g ∧ ∀ a ∈ found, ∀ b ∈ found,
      m.Closer (m.value q a.2) (m.value q b.2) → b.1.similarity ≤ a.1.similarity
  margin : ∀ a b rest, hits = a :: b :: rest →
    0 ≤ computeMargin a.similarity (some b.similarity)

/-! ### The order of the hits -/

variable {faiss : Faiss F}

/-- Hits come in FAISS's order. -/
theorem hits_closer {idx : IndexIDMap F} {g : Gallery F} (h : Aligned idx g)
    {s : FaissSearcher F} (hcpu : s.indexCpu.isSome) (hsearched : s.searched = some idx)
    {q : Embedding F} {k : UInt32} {hits : List (SearchResult F)}
    (hsearch : s.search faiss q k = .ok hits) :
    hits.Pairwise fun a b => idx.index.metric.Closer a.similarity b.similarity := by
  obtain ⟨_, rfl⟩ := (h.search_ok_iff hcpu hsearched).1 hsearch
  rw [Aligned.filterMap_hitAt fun b hb => h.search_position hb]
  refine List.Pairwise.filter _ (List.pairwise_map.2 ?_)
  exact (faiss.isTopK_select _ _ _).sorted

/-- The stored pair behind a scored position, unless its id is negative. -/
def foundAt (g : Gallery F) (b : ℕ × F) : Option (SearchResult F × List F) :=
  g[b.1]?.bind fun p => (FaissSearcher.toHit p.1 b.2).map (·, p.2)

omit [CommRing F] [LinearOrder F] in
theorem foundAt_eq_some {g : Gallery F} {b : ℕ × F} {a : SearchResult F × List F} :
    foundAt g b = some a ↔ ∃ p, g[b.1]? = some p ∧ ¬p.1 < 0 ∧ a = (⟨p.1, b.2⟩, p.2) := by
  unfold foundAt FaissSearcher.toHit
  cases g[b.1]? with
  | none => simp
  | some p =>
    by_cases hid : p.1 < 0
    · simp [hid]
    · simp [hid, eq_comm (a := a)]
      omega

omit [LinearOrder F] in
/-- Reading the gallery back at its own positions. -/
theorem filterMap_scores {α : Type} (m : MetricType) (q : List F) (g : Gallery F)
    (f : Int × List F → Option α) :
    ((Aligned.scores m q g).filterMap fun b => g[b.1]?.bind f) = g.filterMap f := by
  rw [Aligned.scores, List.filterMap_map]
  conv_rhs => rw [← List.zipIdx_map_fst 0 g, List.filterMap_map]
  refine List.filterMap_congr fun p hp => ?_
  simp [List.mem_zipIdx_iff_getElem?.1 hp]

/-- The stored vectors behind the hits. -/
theorem exists_found {idx : IndexIDMap F} {g : Gallery F} (h : Aligned idx g)
    {s : FaissSearcher F} (hcpu : s.indexCpu.isSome) (hsearched : s.searched = some idx)
    {q : Embedding F} {k : UInt32} {hits : List (SearchResult F)}
    (hsearch : s.search faiss q k = .ok hits) :
    ∃ found : List (SearchResult F × List F), found.map (·.1) = hits ∧
      (found.map fun f => (f.1.id, f.2)).Subperm g ∧
      ∀ a ∈ found, a.1.similarity = idx.index.metric.value q a.2 := by
  obtain ⟨_, rfl⟩ := (h.search_ok_iff hcpu hsearched).1 hsearch
  have hbest : (idx.index.search faiss (q.take idx.index.d.toNat) k.toNat).Subperm
      (Aligned.scores idx.index.metric q g) :=
    (faiss.isTopK_select _ _ _).subperm.trans (h.scanned_sublist q).subperm
  refine ⟨(idx.index.search faiss (q.take idx.index.d.toNat) k.toNat).filterMap (foundAt g),
    ?_, ?_, ?_⟩
  · rw [List.map_filterMap]
    refine List.filterMap_congr fun b _ => ?_
    unfold foundAt Aligned.hitAt
    cases g[b.1]? with
    | none => rfl
    | some p => simp [Function.comp_def]
  · have hpairs : ∀ bs : List (ℕ × F), (bs.filterMap (foundAt g)).map (fun f => (f.1.id, f.2)) =
        bs.filterMap fun b => g[b.1]?.bind (Option.guard fun p => ¬p.1 < 0) := by
      intro bs
      rw [List.map_filterMap]
      refine List.filterMap_congr fun b _ => ?_
      unfold foundAt FaissSearcher.toHit
      cases g[b.1]? with
      | none => rfl
      | some p => by_cases hid : p.1 < 0 <;> simp [hid, Option.guard]
    obtain ⟨l, hperm, hsub⟩ := hbest
    rw [hpairs]
    refine ⟨_, hperm.filterMap _, (hsub.filterMap _).trans ?_⟩
    rw [filterMap_scores, List.filterMap_eq_filter]
    exact List.filter_sublist
  · intro a ha
    obtain ⟨b, hb, hfound⟩ := List.mem_filterMap.1 ha
    obtain ⟨p, hp, _, rfl⟩ := foundAt_eq_some.1 hfound
    obtain ⟨⟨p', i⟩, hp', rfl⟩ := List.mem_map.1 (hbest.subset hb)
    obtain rfl : p' = p := by simpa [List.mem_zipIdx_iff_getElem?.1 hp'] using hp
    rfl

/-! ### The inner product -/

theorem ranked_innerProduct {idx : IndexIDMap F} {g : Gallery F} [IsOrderedAddMonoid F]
    (h : Aligned idx g) (hmetric : idx.index.metric = .innerProduct)
    {s : FaissSearcher F} (hcpu : s.indexCpu.isSome) (hsearched : s.searched = some idx)
    {q : Embedding F} {k : UInt32} {hits : List (SearchResult F)}
    (hsearch : s.search faiss q k = .ok hits) : RankedBySimilarity .innerProduct g q hits := by
  have hsorted := hits_closer h hcpu hsearched hsearch
  rw [hmetric] at hsorted
  refine ⟨hsorted, ?_, fun a b rest heq => ?_⟩
  · obtain ⟨found, hmap, hsub, hvalue⟩ := exists_found h hcpu hsearched hsearch
    refine ⟨found, hmap, hsub, fun a ha b hb hcloser => ?_⟩
    rw [hvalue a ha, hvalue b hb, hmetric]
    exact hcloser
  · rw [heq, List.pairwise_cons] at hsorted
    exact sub_nonneg.2 (hsorted.1 b List.mem_cons_self)

/-! ### The squared distance

For every configuration there is a gallery that shows the ascending order: as many zero vectors as the
index needs for its training, and one vector away from them. The clustering puts all of them into one
cell. -/

/-- Cells that all look alike. -/
def alikeFaiss : Faiss F :=
  { referenceFaiss with
    cluster := fun _ nlist _ => List.replicate nlist []
    length_cluster := by simp }

/-- `n` zero vectors and a vector of ones. -/
def farLast (F : Type) [Zero F] [One F] (d n : ℕ) : MatrixXf F where
  rows := d
  cols := n + 1
  data := List.replicate (n * d) 0 ++ List.replicate d 1
  size_eq := by simp [Nat.mul_comm, Nat.mul_add]

omit [LinearOrder F] in
theorem value_nil (m : MetricType) (q : List F) : m.value q [] = 0 := by
  cases m <;> simp [MetricType.value, innerProduct, squaredDistance]

/-- With cells that look alike, every search probes the cell of every vector. -/
theorem assign_mem_probed {idx : IndexIVF F} (hempty : ∀ c ∈ idx.centroids, c = [])
    (hne : idx.centroids ≠ []) (hnprobe : idx.nprobe = 1) (v q : List F) :
    idx.assign faiss v ∈ idx.probed faiss q := by
  have hcells : ∀ q, idx.cells q = idx.centroids.zipIdx.map fun c => (c.2, (0 : F)) := by
    intro q
    refine List.map_congr_left fun c hc => ?_
    have hc := List.mem_of_getElem? (List.mem_zipIdx_iff_getElem?.1 hc)
    rw [hempty c.1 hc, value_nil]
  have hnearest : ∀ q, idx.nearestCells faiss 1 q = idx.nearestCells faiss 1 v := by
    intro q
    have : idx.cells q = idx.cells v := (hcells q).trans (hcells v).symm
    simp only [IndexIVF.cells] at this
    simp only [IndexIVF.nearestCells, this]
  rw [IndexIVF.probed, hnprobe, hnearest, IndexIVF.assign]
  cases hv : idx.nearestCells faiss 1 v with
  | nil =>
    have := (isTopK_nearestCells faiss idx 1 v).length
    rw [hv, cells_length, List.length_nil] at this
    have := List.length_pos_iff.2 hne
    omega
  | cons c rest => simp

/-- A dimension the product quantizer divides. -/
def shownDim (cfg : FaissConfig) : UInt32 :=
  if cfg.pqM = 0 then 1 else cfg.pqM

/-- One vector less than is enough for the training. -/
def shownCount (cfg : FaissConfig) : ℕ :=
  max 256 cfg.nlist.toNat - 1

theorem shownDim_pos (cfg : FaissConfig) : 0 < (shownDim cfg).toNat := by
  unfold shownDim
  split_ifs with h
  · decide
  · exact Nat.pos_of_ne_zero fun h0 => h (UInt32.toNat.inj h0)

theorem shownCount_lt (cfg : FaissConfig) : shownCount cfg + 1 < 2 ^ 32 := by
  have := cfg.nlist.toNat_lt
  unfold shownCount
  omega

omit [LinearOrder F] in
theorem trainable_farLast {cfg : FaissConfig} {embeddingDim : UInt32}
    (hvalid : cfg.Valid embeddingDim) :
    Trainable cfg (farLast F (shownDim cfg).toNat (shownCount cfg)) := by
  have hcols : (farLast F (shownDim cfg).toNat (shownCount cfg)).cols = shownCount cfg + 1 := rfl
  have hrows : UInt32.ofNat (farLast F (shownDim cfg).toNat (shownCount cfg)).rows =
      shownDim cfg := UInt32.ofNat_toNat
  have hdefault : defaultNlist 256 = 6 := by decide +kernel
  have hpq : chosenType cfg (shownCount cfg + 1) = .ivfPQ → cfg.indexType = .ivfPQ := by
    unfold chosenType
    split_ifs <;> simp
  have hnlist : chosenNlist cfg (shownCount cfg + 1) ≠ 0 ∧
      (chosenNlist cfg (shownCount cfg + 1)).toNat ≤ shownCount cfg + 1 := by
    unfold chosenNlist
    split_ifs with hpos
    · exact ⟨fun h0 => by simp [h0] at hpos, by unfold shownCount; omega⟩
    · have hzero : cfg.nlist = 0 := UInt32.le_zero_iff.1 (UInt32.not_lt.1 hpos)
      have hcount : shownCount cfg = 255 := by simp [shownCount, hzero]
      rw [hcount, hdefault]
      decide
  refine ⟨by rw [hcols]; exact hnlist.1, by rw [hcols]; exact hnlist.2, fun hkind => ?_,
    fun _ => ?_⟩
  · obtain ⟨hne, _⟩ := hvalid.pqM (hpq hkind)
    refine ⟨hne, ?_⟩
    rw [hrows, shownDim, if_neg hne, UInt32.mod_self]
  · rw [hcols]
    unfold shownCount
    omega

omit [LinearOrder F] in
/-- The first and the last vector of `farLast`. -/
theorem rowAt_farLast (d n : ℕ) (hn : 0 < n) :
    rowAt (farLast F d n).data d 0 = List.replicate d 0 ∧
      rowAt (farLast F d n).data d n = List.replicate d 1 := by
  have hle : d ≤ n * d := Nat.le_mul_of_pos_left d hn
  constructor
  · simp [rowAt, farLast, List.take_append, hle]
  · simp [rowAt, farLast]

omit [LinearOrder F] in
theorem squaredDistance_replicate (d : ℕ) (x y : F) :
    squaredDistance (List.replicate d x) (List.replicate d y) = d * ((x - y) * (x - y)) := by
  simp [squaredDistance]

theorem keep_alike (idx : IndexIVF F) (v : List F) : idx.keep alikeFaiss v = v := by
  unfold IndexIVF.keep
  cases idx.kind <;> rfl

omit [CommRing F] in
/-- Hits in ascending and in descending order are all alike. -/
theorem similarity_eq_of_both {hits : List (SearchResult F)}
    (hasc : hits.Pairwise fun a b => a.similarity ≤ b.similarity)
    (hdesc : hits.Pairwise fun a b => b.similarity ≤ a.similarity) {a b : SearchResult F}
    (ha : a ∈ hits) (hb : b ∈ hits) : a.similarity = b.similarity := by
  have hboth : hits.Pairwise fun a b => a.similarity = b.similarity :=
    (hasc.and hdesc).imp fun h => le_antisymm h.1 h.2
  exact List.Pairwise.forall_of_forall_of_flip
    (R := fun a b : SearchResult F => a.similarity = b.similarity) (fun _ _ => rfl) hboth
    (hboth.imp Eq.symm) ha hb

/-- In an index built on alike cells every search probes the cell of every entry. -/
theorem alike_probed {cfg : FaissConfig} {fail : Failures} {embeddings : MatrixXf F}
    {ids : List Int} {idx : IndexIDMap F}
    (h : FaissSearcher.prepare alikeFaiss cfg fail embeddings ids = .ok idx) (q : List F) :
    ∀ e ∈ idx.index.entries, e.cell ∈ idx.index.probed alikeFaiss q := by
  intro e he
  obtain ⟨_, _, htrainable, _, rfl⟩ := prepare_ok.1 h
  simp only [IndexIVF.add, List.mem_append, List.mem_mapIdx] at he
  rcases he with he | ⟨i, hi, rfl⟩
  · cases he
  · refine assign_mem_probed (fun c hc => List.eq_of_mem_replicate hc) (fun hnil => ?_) rfl _ _
    exact htrainable.nlist_pos (UInt32.toNat.inj ((List.replicate_eq_nil_iff _).1 hnil))

/-- The pairs of the gallery on `farLast`, all under one id. -/
theorem mem_keptGallery_farLast (cfg : FaissConfig) (d : UInt32) (n : ℕ) {i : ℕ} (hi : i ≤ n) :
    (0, rowAt (farLast F d.toNat n).data d.toNat i) ∈
      keptGallery alikeFaiss cfg (farLast F d.toNat n) (List.replicate (n + 1) 0) := by
  refine List.mem_iff_getElem.2 ⟨i, by simp [keptGallery, farLast]; omega, ?_⟩
  simp [keptGallery, MatrixXf.read, keep_alike, farLast]

/-- Every accepted configuration with the L2 metric has a gallery and a query whose hits ascend. -/
theorem exists_not_ranked [IsStrictOrderedRing F] {cfg : FaissConfig} {embeddingDim : UInt32}
    (hvalid : cfg.Valid embeddingDim) (hmetric : cfg.metric = .l2) :
    ∃ embeddings ids s, Serves (F := F) alikeFaiss cfg embeddings ids s ∧
      ∃ q k hits, s.search alikeFaiss q k = .ok hits ∧
        ¬RankedBySimilarity .l2 (keptGallery alikeFaiss cfg embeddings ids) q hits := by
  have htrainable := trainable_farLast (F := F) hvalid
  have hlt := shownCount_lt cfg
  have hpos : 0 < shownCount cfg := by
    unfold shownCount
    omega
  generalize shownCount cfg = n at htrainable hlt hpos
  have hdpos := shownDim_pos cfg
  generalize shownDim cfg = d at htrainable hdpos
  have hrun : ((Op.build (farLast F d.toNat n) (List.replicate (n + 1) 0)).run alikeFaiss {}).run
      { cfg } = .ok () _ :=
    op_run_ok.2 ⟨_, newIndex_build_ok.2 ⟨by simp [farLast],
      prepare_ok.2 ⟨rfl, rfl, htrainable, by simp [farLast], rfl⟩⟩, by simp [Op.cloneError], rfl⟩
  have hserves := Serves.built .new hrun
  refine ⟨_, _, _, hserves, ?_⟩
  obtain ⟨idx, fail, hprepare, hcpu, hsearched, _⟩ := hserves.index
  have hnonneg : ∀ p ∈ keptGallery alikeFaiss cfg (farLast F d.toNat n) (List.replicate (n + 1) 0),
      0 ≤ p.1 := fun p hp => (List.eq_of_mem_replicate (List.of_mem_zip hp).1).ge
  obtain ⟨hmetricIdx, hdim⟩ : idx.index.metric = .l2 ∧ idx.index.d = d := by
    obtain ⟨_, _, _, _, rfl⟩ := prepare_ok.1 hprepare
    simp [IndexIVF.add, trainedIndex, toFaiss, hmetric, farLast]
  obtain ⟨hits, hsearch, hbest⟩ := bruteForce_search (k := UInt32.ofNat (n + 1))
    (Aligned.prepare hprepare) (by simp) hsearched
    (show (List.replicate d.toNat (0 : F)).length = _ by simp [hdim]) (alike_probed hprepare _)
  refine ⟨_, _, hits, hsearch, fun hranked => ?_⟩
  rw [bruteForce_iff_isTopK hnonneg, hmetricIdx] at hbest
  rw [UInt32.toNat_ofNat', Nat.mod_eq_of_lt hlt] at hbest
  have hperm := hbest.perm_of_length_le (by simp [Aligned.asHits, keptGallery, farLast])
  -- the query is the zero vector: the first pair is at distance zero, the last one is not
  have hmemHits : ∀ i ≤ n, ⟨0, squaredDistance (List.replicate d.toNat 0)
      (rowAt (farLast F d.toNat n).data d.toNat i)⟩ ∈ hits := fun i hi =>
    hperm.mem_iff.2 (List.mem_map.2 ⟨_, mem_keptGallery_farLast cfg d n hi, rfl⟩)
  have hequal := similarity_eq_of_both hbest.sorted hranked.descending (hmemHits 0 (Nat.zero_le n))
    (hmemHits n le_rfl)
  rw [(rowAt_farLast _ n hpos).1, (rowAt_farLast _ n hpos).2] at hequal
  have hzero : (d.toNat : F) = 0 := by simpa [squaredDistance_replicate] using hequal.symm
  exact hdpos.ne' (Nat.cast_eq_zero.1 hzero)

/-- **The hits are ranked by a similarity for the inner product only.** -/
theorem rankedBySimilarity_iff [IsStrictOrderedRing F] (cfg : FaissConfig) (embeddingDim : UInt32)
    (hvalid : cfg.validate embeddingDim = .ok ()) :
    (∀ (faiss : Faiss F) embeddings ids s, Serves faiss cfg embeddings ids s →
      ∀ q k hits, s.search faiss q k = .ok hits → RankedBySimilarity (toFaiss cfg.metric)
        (keptGallery faiss cfg embeddings ids) q hits) ↔ cfg.metric = .innerProduct := by
  constructor
  · intro hranked
    cases hmetric : cfg.metric with
    | innerProduct => rfl
    | l2 =>
      obtain ⟨embeddings, ids, s, hserves, q, k, hits, hsearch, hnot⟩ :=
        exists_not_ranked (F := F) (FaissConfig.validate_ok.1 hvalid) hmetric
      have := hranked alikeFaiss embeddings ids s hserves q k hits hsearch
      rw [hmetric] at this
      exact absurd this hnot
  · intro hmetric faiss embeddings ids s hserves q k hits hsearch
    obtain ⟨idx, fail, hprepare, hcpu, hsearched, _⟩ := hserves.index
    have hfresh := freshCells_prepare hprepare
    rw [hmetric]
    exact ranked_innerProduct (Aligned.prepare hprepare) (by rw [hfresh.metric, hmetric]; rfl)
      (by simp [hcpu]) hsearched hsearch

/-! ### Both metrics on three people -/

theorem rankedBySimilarity_default : ∃ s : FaissSearcher ℤ, ∃ hits,
    ((Op.build threePeople [10, 20, 30]).run referenceFaiss {}).run { cfg := oneCell } = .ok () s ∧
    s.search referenceFaiss [0, 3] 2 = .ok hits ∧ hits = [⟨20, 9⟩, ⟨30, 3⟩] ∧
    RankedBySimilarity .innerProduct (keptGallery referenceFaiss oneCell threePeople [10, 20, 30])
      [0, 3] hits := by
  have hbuilt := Serves.built .new
    (show ((Op.build threePeople [10, 20, 30]).run referenceFaiss {}).run { cfg := oneCell } =
      .ok () _ from rfl)
  refine ⟨_, _, rfl, rfl, rfl, ?_⟩
  exact (rankedBySimilarity_iff oneCell 512 rfl).2 rfl referenceFaiss threePeople [10, 20, 30] _ hbuilt
    [0, 3] 2 _ rfl

/-- One cell and the L2 metric. -/
def oneCellL2 : FaissConfig := { oneCell with metric := .l2 }

/-- The probe is the second person's photo: that hit comes first with similarity zero, and the margin
to the next one is negative. -/
theorem not_rankedBySimilarity_l2 : ∃ s : FaissSearcher ℤ, ∃ hits,
    ((Op.build threePeople [10, 20, 30]).run referenceFaiss {}).run { cfg := oneCellL2 } =
      .ok () s ∧ s.search referenceFaiss [0, 3] 2 = .ok hits ∧ hits = [⟨20, 0⟩, ⟨30, 5⟩] ∧
    ¬RankedBySimilarity .l2 (keptGallery referenceFaiss oneCellL2 threePeople [10, 20, 30])
      [0, 3] hits := by
  refine ⟨_, _, rfl, rfl, rfl, fun h => ?_⟩
  exact absurd (h.margin _ _ _ rfl) (by decide)

end FacePipeline.Indexing
