import FacePipeline.Indexing.Atomicity
import FacePipeline.Lib.Scratch

/-!
# A batch of searches

`search_batch` asks FAISS once for all columns and cuts the flat arrays of labels and distances into
rows. Every row is what a search of its column alone would be (`searchBatch_oneByOne`), as long as the
columns have the dimension of the index that answers: a `build` that throws halfway leaves the
dimension of a matrix that was never stored.
-/

namespace FacePipeline.Indexing

open FacePipeline.Config FacePipeline.Pipeline Traverse Scratch

variable {F : Type}

/-- The index that answers searches has the dimension the searcher tells. -/
def AnswersAtDimension (s : FaissSearcher F) : Prop :=
  ∀ idx, s.searched = some idx → idx.index.d = s.dimension

/-- The hits among the result slots of one query. -/
def hits (slots : List (Int × F)) : List (SearchResult F) :=
  slots.filterMap fun b => FaissSearcher.toHit b.1 b.2

/-- The hits are the slots with a label that is not negative, in the order of the slots. -/
theorem hits_eq (slots : List (Int × F)) :
    hits slots = (slots.filter fun b => 0 ≤ b.1).map fun b => ⟨b.1, b.2⟩ := by
  induction slots with
  | nil => rfl
  | cons b slots ih =>
    rw [hits, List.filterMap_cons, List.filter_cons]
    by_cases hlabel : b.1 < 0
    · have hnone : FaissSearcher.toHit b.1 b.2 = none := if_pos hlabel
      rw [hnone, if_neg (by simpa using hlabel)]
      exact ih
    · have hsome : FaissSearcher.toHit b.1 b.2 = some ⟨b.1, b.2⟩ := if_neg hlabel
      rw [hsome, if_pos (by simpa using hlabel), List.map_cons, ← ih]
      rfl

variable [CommRing F] [LinearOrder F] (faiss : Faiss F)

/-- A batch is its columns searched one by one. -/
structure BatchAgrees (s : FaissSearcher F) (queries : MatrixXf F) (topK : UInt32) : Prop where
  /-- Also when one of the searches does not return. -/
  oneByOne : s.searchBatch faiss queries topK =
    traverseIdx (fun _ q => s.search faiss (queries.column q) topK) 0 (List.range queries.cols)
  entries : ∀ out, s.searchBatch faiss queries topK = .ok out → out.length = queries.cols ∧
    ∀ q < queries.cols, ∃ found, out[q]? = some found ∧
      s.search faiss (queries.column q) topK = .ok found
  /-- Whatever FAISS answers, nothing outside the two arrays is read. -/
  rows : ∀ idx labels distances, s.searched = some idx →
    idx.search faiss queries.cols queries.data topK.toNat = .ok (labels, distances) →
    labels.length = queries.cols * topK.toNat ∧ distances.length = queries.cols * topK.toNat ∧
    s.searchBatch faiss queries topK = .ok ((List.range queries.cols).map fun q =>
      ((slice topK.toNat q (labels.zip distances)).filter fun b => 0 ≤ b.1).map fun b => ⟨b.1, b.2⟩)

/-! ### The index that answers -/

/-- Once there is an index, one answers. -/
theorem Reachable.searched_isSome {faiss : Faiss F} {cfg : FaissConfig} {s : FaissSearcher F}
    (h : Reachable faiss cfg s) : s.indexCpu.isSome → s.searched.isSome := by
  have hgpu : s.onGpu = true → s.indexGpu.isSome := by
    induction h with
    | new => simp
    | @ok s s' op fail _ hstep ih =>
      obtain ⟨idx, _, _, rfl⟩ := op_run_ok.1 hstep
      unfold Op.finish
      split_ifs
      · simp
      · exact ih
    | throws _ hstep ih =>
      obtain ⟨_, hindex, hon⟩ := op_error_gpu hstep
      rwa [hindex, hon]
  intro hcpu
  unfold FaissSearcher.searched
  split_ifs with hon
  · exact hgpu hon
  · exact hcpu

theorem SafeRun.answersAtDimension {faiss : Faiss F} {cfg : FaissConfig} {s : FaissSearcher F}
    (h : SafeRun faiss cfg s) : AnswersAtDimension s := by
  obtain ⟨_, hsynced⟩ := safeRun_synced h
  intro idx hidx
  rw [hsynced.searched] at hidx
  exact (hsynced.dimension idx hidx).symm

/-! ### The rows of a batch -/

variable {faiss}

theorem searchOne_length {idx : IndexIDMap F} {q : List F} {k : ℕ} {slots : List (Int × F)}
    (h : idx.searchOne faiss q k = .ok slots) : slots.length = k := by
  obtain ⟨found, hfound, rfl⟩ := searchOne_ok.1 h
  have hle := search_length_le faiss idx.index q k
  rw [List.length_append, List.length_replicate, (translateAll_ok.1 hfound).1]
  omega

/-- There is a row of `k` slots for each query. -/
theorem slots_length {idx : IndexIDMap F} {query : ℕ → List F} {n k : ℕ}
    {slots : List (List (Int × F))}
    (h : traverseIdx (fun _ q => idx.searchOne faiss (query q) k) 0 (List.range n) = .ok slots) :
    slots.length = n ∧ ∀ r ∈ slots, r.length = k := by
  obtain ⟨hlength, hall⟩ := traverseIdx_ok_iff.1 h
  rw [List.length_range] at hlength
  refine ⟨hlength, fun r hr => ?_⟩
  obtain ⟨j, hj⟩ := List.mem_iff_getElem?.1 hr
  have hlt : j < n := hlength ▸ (List.getElem?_eq_some_iff.1 hj).1
  obtain ⟨r', hr', hone⟩ := hall j j (by simp [hlt])
  obtain rfl : r' = r := Option.some.inj (hr'.symm.trans hj)
  exact searchOne_length hone

/-- The flat arrays hold the slots of every column. -/
theorem search_columns {idx : IndexIDMap F} {queries : MatrixXf F} (k : ℕ)
    (hd : idx.index.d.toNat = queries.rows) :
    idx.search faiss queries.cols queries.data k =
      (fun slots => (slots.flatten.map (·.1), slots.flatten.map (·.2))) <$>
        traverseIdx (fun _ q => idx.searchOne faiss (queries.column q) k) 0
          (List.range queries.cols) := by
  have hread : readVectors queries.data queries.cols idx.index.d.toNat =
      .ok ((List.range queries.cols).map queries.column) := by
    refine readVectors_ok.2 ⟨?_, ?_⟩
    · rw [hd, queries.size_eq, Nat.mul_comm]
    · rw [hd]
      rfl
  rw [IndexIDMap.search, hread]
  simp only [traverseIdx_list_map, bind, Except.bind]
  cases traverseIdx (fun _ q => idx.searchOne faiss (queries.column q) k) 0
    (List.range queries.cols) <;> rfl

omit [CommRing F] [LinearOrder F] in
/-- Each row of the flat arrays is cut out whole. -/
theorem traverse_rows {slots : List (List (Int × F))} {k : ℕ} (hlen : ∀ r ∈ slots, r.length = k) :
    traverseIdx (fun _ q => FaissSearcher.row (slots.flatten.map (·.1)) (slots.flatten.map (·.2)) k q)
      0 (List.range slots.length) = .ok (slots.map hits) := by
  refine traverseIdx_ok_iff.2 ⟨by simp, fun j q hq => ?_⟩
  obtain ⟨hj, rfl⟩ : j < slots.length ∧ j = q := by
    simpa [List.getElem?_eq_some_iff] using hq
  have hfit : j * k + k ≤ slots.flatten.length := by
    rw [length_flatten_rows hlen, ← Nat.succ_mul]
    exact Nat.mul_le_mul_right k hj
  have hslice : slice k j (slots.flatten ++ []) = slots[j] :=
    slice_flatten hlen (List.getElem?_eq_getElem hj)
  rw [List.append_nil] at hslice
  refine ⟨hits slots[j], by simp [hj], ?_⟩
  rw [row_eq hfit, ← hslice]
  rfl

theorem searchBatch_eq {s : FaissSearcher F} {idx : IndexIDMap F} {queries : MatrixXf F}
    {topK : UInt32} (hbuilt : s.indexCpu.isSome) (hidx : s.searched = some idx)
    (hd : idx.index.d.toNat = queries.rows) :
    s.searchBatch faiss queries topK = traverseIdx
      (fun _ q => hits <$> idx.searchOne faiss (queries.column q) topK.toNat) 0
      (List.range queries.cols) := by
  have hnone : s.indexCpu.isNone = false := by simpa [← Option.not_isSome] using hbuilt
  rw [FaissSearcher.searchBatch, hnone, if_neg Bool.false_ne_true, hidx, traverseIdx_map]
  simp only [search_columns topK.toNat hd]
  cases hslots : traverseIdx (fun _ q => idx.searchOne faiss (queries.column q) topK.toNat) 0
    (List.range queries.cols) with
  | error e => rfl
  | ok slots =>
    obtain ⟨hcols, hlen⟩ := slots_length hslots
    exact hcols ▸ traverse_rows hlen

/-- A single search. -/
theorem search_eq {s : FaissSearcher F} {idx : IndexIDMap F} {q : Embedding F} {topK : UInt32}
    (hbuilt : s.indexCpu.isSome) (hidx : s.searched = some idx) (hd : idx.index.d.toNat = q.length) :
    s.search faiss q topK = hits <$> idx.searchOne faiss q topK.toNat := by
  have hcolumn : (MatrixXf.ofColumn q).column 0 = q := by
    simp [MatrixXf.column, MatrixXf.ofColumn, rowAt]
  rw [FaissSearcher.search, searchBatch_eq hbuilt hidx hd]
  show (traverseIdx _ 0 [0] >>= _) = _
  simp only [traverseIdx, hcolumn]
  cases idx.searchOne faiss q topK.toNat <;> rfl

theorem searchBatch_column {s : FaissSearcher F} {idx : IndexIDMap F} {queries : MatrixXf F}
    {topK : UInt32} (hbuilt : s.indexCpu.isSome) (hidx : s.searched = some idx)
    (hd : idx.index.d.toNat = queries.rows) :
    s.searchBatch faiss queries topK = traverseIdx
      (fun _ q => s.search faiss (queries.column q) topK) 0 (List.range queries.cols) := by
  rw [searchBatch_eq hbuilt hidx hd]
  refine traverseIdx_congr fun q hq => ?_
  rw [search_eq hbuilt hidx]
  rw [hd, queries.column_length (List.mem_range.1 hq)]

/-- **A batch of searches is the searches one by one**, for any number of hits that FAISS accepts. -/
theorem searchBatch_oneByOne (faiss : Faiss F) (cfg : FaissConfig) (s : FaissSearcher F)
    (hrun : Reachable faiss cfg s) (hbuilt : s.indexCpu.isSome) (hanswers : AnswersAtDimension s)
    (queries : MatrixXf F) (hrows : queries.rows = s.dimension.toNat) (topK : UInt32) (_ : 0 < topK) :
    BatchAgrees faiss s queries topK := by
  obtain ⟨idx, hidx⟩ := Option.isSome_iff_exists.1 (hrun.searched_isSome hbuilt)
  have hd : idx.index.d.toNat = queries.rows := by rw [hanswers idx hidx, hrows]
  refine ⟨searchBatch_column hbuilt hidx hd, fun out hout => ?_, fun idx' labels distances hidx' harrays => ?_⟩
  · rw [searchBatch_column hbuilt hidx hd] at hout
    obtain ⟨hlen, hall⟩ := traverseIdx_ok_iff.1 hout
    exact ⟨by simpa using hlen, fun q hq => hall q q (by simp [hq])⟩
  · obtain rfl : idx = idx' := Option.some.inj (hidx.symm.trans hidx')
    rw [search_columns topK.toNat hd, map_ok] at harrays
    obtain ⟨slots, hslots, harrays⟩ := harrays
    obtain ⟨rfl, rfl⟩ := Prod.mk.inj harrays
    obtain ⟨hcols, hlen⟩ := slots_length hslots
    have hflat := length_flatten_rows hlen
    rw [hcols] at hflat
    have hzip : (slots.flatten.map (·.1)).zip (slots.flatten.map (·.2)) = slots.flatten := by
      rw [List.zip_map']
      exact List.map_id _
    have hmap := map_slices [] hits hlen
    rw [List.append_nil, hcols] at hmap
    refine ⟨by rw [List.length_map, hflat], by rw [List.length_map, hflat], ?_⟩
    rw [searchBatch_eq hbuilt hidx hd, traverseIdx_map, hslots, hzip]
    simp only [← hits_eq, hmap]
    rfl

/-- Two probes in two dimensions. -/
def twoProbes : MatrixXf ℤ := ⟨2, 2, [0, 1, 1, 0], rfl⟩

theorem searchBatch_oneByOne_twoProbes : ∃ s : FaissSearcher ℤ,
    BatchAgrees referenceFaiss s twoProbes 2 ∧ s.searchBatch referenceFaiss twoProbes 2 =
      .ok [[⟨20, 3⟩, ⟨30, 1⟩], [⟨10, 1⟩, ⟨30, 1⟩]] := by
  have hbuild : ((Op.build threePeople [10, 20, 30]).run referenceFaiss {}).run { cfg := oneCell } =
      .ok () _ := rfl
  refine ⟨_, searchBatch_oneByOne referenceFaiss oneCell _ (.ok .new hbuild) rfl ?_ twoProbes rfl 2
    (by decide), rfl⟩
  intro idx hidx
  cases hidx
  rfl

/-- One probe in one dimension. -/
def shortProbe : MatrixXf ℤ := ⟨1, 1, [2], rfl⟩

/-- A person with a negative id other than `-1` is found by FAISS and left out. After a `build` that
throws, a batch with the dimension the searcher tells reads past its end. -/
theorem not_searchBatch_negativeId : ∃ s s' : FaissSearcher ℤ, ∃ idx labels distances out e,
    ((Op.build threePeople [-7, 20, 30]).run referenceFaiss {}).run { cfg := oneCell } = .ok () s ∧
    s.searched = some idx ∧
    idx.search referenceFaiss twoProbes.cols twoProbes.data 2 = .ok (labels, distances) ∧
    s.searchBatch referenceFaiss twoProbes 2 = .ok out ∧
    out ≠ (List.range twoProbes.cols).map (fun q =>
      ((slice 2 q (labels.zip distances)).filter fun b => b.1 ≠ -1).map fun b => ⟨b.1, b.2⟩) ∧
    ((Op.build shortProbe [40]).run referenceFaiss { train := some e }).run s = .error (.throws e) s' ∧
    s'.indexCpu.isSome ∧ shortProbe.rows = s'.dimension.toNat ∧
    ∀ out, s'.searchBatch referenceFaiss shortProbe 2 ≠ .ok out := by
  refine ⟨_, _, _, _, _, _, .runtimeError "out of memory", rfl, rfl, rfl, rfl, by decide, rfl, rfl, rfl,
    fun out hout => ?_⟩
  cases hout

end FacePipeline.Indexing
