import FacePipeline.Indexing.Identities

/-!
# How much of the index a search looks at

`nprobe` is configured, checked and never handed to FAISS, whose indexes start with `nprobe = 1`. A
search therefore scans the nearest cell only, which is what the configuration asks for when it asks
for one cell or when there is only one (`nprobeDecides_iff`).
-/

namespace FacePipeline.Indexing

open FacePipeline.Config FacePipeline.Pipeline TopK

variable {F : Type} [CommRing F] [LinearOrder F] (faiss : Faiss F)

/-- A searcher that answers from the index of a `build`: right after it, or after loading what such a
searcher has saved. -/
inductive Serves (cfg : FaissConfig) (embeddings : MatrixXf F) (ids : List Int) :
    FaissSearcher F → Prop where
  | built {s s' fail} : Reachable faiss cfg s →
      ((Op.build embeddings ids).run faiss fail).run s = .ok () s' → Serves cfg embeddings ids s'
  | reloaded {s t t' file fail} : Serves cfg embeddings ids s → s.save = .ok file →
      Reachable faiss cfg t → ((Op.load file).run faiss fail).run t = .ok () t' →
      Serves cfg embeddings ids t'

/-- The cells of an index with their scores for a query. -/
def IndexIVF.cells (idx : IndexIVF F) (q : List F) : List (ℕ × F) :=
  idx.centroids.zipIdx.map fun c => (c.2, idx.metric.value q c.1)

/-- The hits a scan of all pairs returns: the best `k`, without those whose id is negative, which no
search reports. -/
def BruteForce (m : MetricType) (g : Gallery F) (q : List F) (k : ℕ)
    (hits : List (SearchResult F)) : Prop :=
  ∃ best, IsTopK (fun a b => m.Closer a.similarity b.similarity) k (Aligned.asHits m q g) best ∧
    hits = best.filter fun r => ¬r.id < 0

/-- The configured number of cells decides the search. -/
structure NprobeDecides (cfg : FaissConfig) (embeddings : MatrixXf F) (ids : List Int)
    (s : FaissSearcher F) : Prop where
  scans : ∀ idx, s.searched = some idx → ∀ q, IsTopK idx.index.metric.Ranked cfg.nprobe.toNat
    (idx.index.cells q) (idx.index.nearestCells faiss idx.index.nprobe q)
  exact : chosenType cfg embeddings.cols = .ivfFlat →
    chosenNlist cfg embeddings.cols ≤ cfg.nprobe → ∀ q k, 0 < k → q.length = s.dimension.toNat →
    ∃ hits, s.search faiss q k = .ok hits ∧
      BruteForce (toFaiss cfg.metric) (keptGallery faiss cfg embeddings ids) q k.toNat hits

/-- Without negative ids nothing is left out. -/
theorem bruteForce_iff_isTopK {m : MetricType} {g : Gallery F} {q : List F} {k : ℕ}
    {hits : List (SearchResult F)} (h : ∀ p ∈ g, 0 ≤ p.1) : BruteForce m g q k hits ↔
      IsTopK (fun a b => m.Closer a.similarity b.similarity) k (Aligned.asHits m q g) hits := by
  have hall : ∀ {best}, IsTopK (fun a b => m.Closer a.similarity b.similarity) k
      (Aligned.asHits m q g) best → (best.filter fun r => ¬r.id < 0) = best := by
    intro best hbest
    rw [List.filter_eq_self]
    intro r hr
    obtain ⟨p, hp, rfl⟩ := List.mem_map.1 (hbest.mem hr)
    simpa using h p hp
  constructor
  · rintro ⟨best, hbest, rfl⟩
    rwa [hall hbest]
  · exact fun hbest => ⟨hits, hbest, (hall hbest).symm⟩

variable {faiss}

theorem Serves.index {cfg : FaissConfig} {embeddings : MatrixXf F} {ids : List Int}
    {s : FaissSearcher F} (h : Serves faiss cfg embeddings ids s) : ∃ idx fail,
    FaissSearcher.prepare faiss cfg fail embeddings ids = .ok idx ∧ s.indexCpu = some idx ∧
      s.searched = some idx ∧ s.dimension = idx.index.d := by
  induction h with
  | @built s s' fail hreach hstep =>
    obtain ⟨idx, hnew, _, rfl⟩ := op_run_ok.1 hstep
    obtain ⟨_, hprepare⟩ := newIndex_build_ok.1 hnew
    rw [hreach.cfg_eq] at hprepare
    refine ⟨idx, fail, hprepare, finish_indexCpu, finish_searched hreach.gpuConfigured, ?_⟩
    obtain ⟨_, _, _, _, rfl⟩ := prepare_ok.1 hprepare
    rw [finish_dimension]
    rfl
  | reloaded _ hsave hreach hstep ih =>
    obtain ⟨idx, fail, hprepare, hcpu, _, _⟩ := ih
    obtain ⟨idx', hnew, _, rfl⟩ := op_run_ok.1 hstep
    obtain ⟨_, rfl⟩ := newIndex_load_ok.1 hnew
    rw [FaissSearcher.save, hcpu] at hsave
    obtain rfl := Except.ok.inj hsave
    exact ⟨idx, fail, hprepare, finish_indexCpu, finish_searched hreach.gpuConfigured, by
      simp [Op.newDimension]⟩

/-! ### The cells of a built index -/

omit [LinearOrder F] in
@[simp] theorem cells_length (idx : IndexIVF F) (q : List F) :
    (idx.cells q).length = idx.centroids.length := by
  simp [IndexIVF.cells]

theorem isTopK_nearestCells (faiss : Faiss F) (idx : IndexIVF F) (n : ℕ) (q : List F) :
    IsTopK idx.metric.Ranked n (idx.cells q) (idx.nearestCells faiss n q) :=
  faiss.isTopK_select _ _ _

/-- A vector is stored in one of the cells. -/
theorem assign_lt {idx : IndexIVF F} (h : idx.centroids ≠ []) (v : List F) :
    idx.assign faiss v < idx.centroids.length := by
  have hnearest := isTopK_nearestCells faiss idx 1 v
  have hpos := List.length_pos_iff.2 h
  unfold IndexIVF.assign
  cases hcells : idx.nearestCells faiss 1 v with
  | nil =>
    have := hnearest.length
    rw [hcells, cells_length, List.length_nil] at this
    omega
  | cons c rest =>
    have hmem := hnearest.mem (hcells ▸ List.mem_cons_self : c ∈ idx.nearestCells faiss 1 v)
    obtain ⟨⟨x, i⟩, hx, rfl⟩ := List.mem_map.1 hmem
    simpa using (List.mem_zipIdx hx).2.1

/-- An index that probes as many cells as it has probes all of them. -/
theorem mem_probed_of_le {idx : IndexIVF F} (h : idx.centroids.length ≤ idx.nprobe) {c : ℕ}
    (hc : c < idx.centroids.length) (q : List F) : c ∈ idx.probed faiss q := by
  have hperm := (isTopK_nearestCells faiss idx idx.nprobe q).perm_of_length_le
    (by simpa using h)
  refine (hperm.map (·.1)).mem_iff.2 ?_
  rw [IndexIVF.cells, List.map_map, List.mem_map]
  exact ⟨(idx.centroids[c], c), List.mem_zipIdx_iff_getElem?.2 (by simp [hc]), rfl⟩

theorem scanned_all {idx : IndexIVF F} {q : List F}
    (h : ∀ e ∈ idx.entries, e.cell ∈ idx.probed faiss q) :
    idx.scanned faiss q = idx.entries.map fun e => (e.label, idx.metric.value q e.vec) := by
  rw [IndexIVF.scanned, List.filter_eq_self.2]
  intro e he
  simpa using h e he

/-- What `build` leaves in the inverted file: FAISS's own `nprobe`, and entries in existing cells. -/
structure FreshCells (cfg : FaissConfig) (n : ℕ) (idx : IndexIVF F) : Prop where
  metric : idx.metric = toFaiss cfg.metric
  nprobe : idx.nprobe = 1
  centroids : idx.centroids.length = (chosenNlist cfg n).toNat
  nlist_pos : 0 < (chosenNlist cfg n).toNat
  entries : ∀ e ∈ idx.entries, e.cell < idx.centroids.length

theorem freshCells_prepare {cfg : FaissConfig} {fail : Failures} {embeddings : MatrixXf F}
    {ids : List Int} {idx : IndexIDMap F}
    (h : FaissSearcher.prepare faiss cfg fail embeddings ids = .ok idx) :
    FreshCells cfg embeddings.cols idx.index := by
  obtain ⟨_, _, htrainable, _, rfl⟩ := prepare_ok.1 h
  have hlen : (trainedIndex faiss cfg embeddings).centroids.length =
      (chosenNlist cfg embeddings.cols).toNat := faiss.length_cluster _ _ _
  have hpos : 0 < (chosenNlist cfg embeddings.cols).toNat :=
    Nat.pos_of_ne_zero fun h0 => htrainable.nlist_pos (UInt32.toNat.inj h0)
  refine ⟨rfl, rfl, hlen, hpos, fun e he => ?_⟩
  have hne : (trainedIndex faiss cfg embeddings).centroids ≠ [] := by
    rw [← List.length_pos_iff, hlen]
    exact hpos
  simp only [IndexIVF.add, List.mem_append, List.mem_mapIdx] at he
  rcases he with he | ⟨i, hi, rfl⟩
  · cases he
  · exact assign_lt hne _

/-- A search that probes the cell of every entry answers as a scan of all pairs does. -/
theorem bruteForce_search {idx : IndexIDMap F} {g : Gallery F} (h : Aligned idx g)
    {s : FaissSearcher F} (hcpu : s.indexCpu.isSome) (hsearched : s.searched = some idx)
    {q : Embedding F} {k : UInt32} (hq : q.length = idx.index.d.toNat)
    (hprobed : ∀ e ∈ idx.index.entries,
      e.cell ∈ idx.index.probed faiss (q.take idx.index.d.toNat)) :
    ∃ hits, s.search faiss q k = .ok hits ∧ BruteForce idx.index.metric g q k.toNat hits := by
  refine ⟨_, (h.search_ok_iff hcpu hsearched).2 ⟨hq.ge, rfl⟩, _, ?_,
    Aligned.filterMap_hitAt fun b hb => h.search_position hb⟩
  have hbest : IsTopK idx.index.metric.Ranked k.toNat (Aligned.scores idx.index.metric q g)
      (idx.index.search faiss (q.take idx.index.d.toNat) k.toNat) := by
    rw [← h.entries_scores q, ← scanned_all hprobed]
    exact faiss.isTopK_select _ _ _
  rw [← Aligned.map_resultAt_scores]
  exact hbest.map _ fun _ _ _ _ hab => hab

/-- Two cells, and the default of 32 probes. -/
def twoCells : FaissConfig := { nlist := 2, gpuId := -1 }

end FacePipeline.Indexing
