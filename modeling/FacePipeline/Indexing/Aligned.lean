import FacePipeline.Indexing.FaissSearcher

/-!
# The id map and the inverted lists

A gallery lists the stored pairs of id and vector in the order of their enrolment. An index holds a
gallery (`Aligned`) when position `i` of the gallery is position `i` of the id map and the entry with
label `i`. Training and adding keep this; a removal keeps it when it takes away the last pairs only,
since the survivors keep their labels while the id map closes its gaps. On an aligned index a search
reports exactly what it found.
-/

namespace FacePipeline.Indexing

open FacePipeline.Config FacePipeline.Pipeline Traverse TopK

variable {F : Type}

/-- Stored pairs of id and vector, in the order of enrolment. -/
abbrev Gallery (F : Type) := List (Int × List F)

/-- The index stores the gallery, under consecutive labels from zero. -/
structure Aligned (idx : IndexIDMap F) (g : Gallery F) : Prop where
  idMap : idx.idMap = g.map (·.1)
  entries : idx.index.entries.map (fun e => (e.label, e.vec)) = g.zipIdx.map fun p => (p.2, p.1.2)
  indexTotal : idx.index.ntotal = g.length
  total : idx.ntotal = g.length
  /-- No stored vector is longer than the dimension. -/
  vec_le : ∀ p ∈ g, p.2.length ≤ idx.index.d.toNat

/-- The gallery of a `build`: the vectors under their ids, as the index keeps them. -/
def keptGallery [CommRing F] [LinearOrder F] (faiss : Faiss F) (cfg : FaissConfig)
    (embeddings : MatrixXf F) (ids : List Int) : Gallery F :=
  ids.zip ((embeddings.read (UInt32.ofNat embeddings.rows)).map
    ((trainedIndex faiss cfg embeddings).keep faiss))

namespace Aligned

variable {idx idx' : IndexIDMap F} {g : Gallery F}

/-- Each entry is a pair of the gallery. -/
theorem entry (h : Aligned idx g) {e : Entry F} (he : e ∈ idx.index.entries) :
    ∃ p, g[e.label]? = some p ∧ e.vec = p.2 := by
  have hmem := List.mem_map_of_mem (f := fun e => (e.label, e.vec)) he
  rw [h.entries] at hmem
  obtain ⟨⟨p, i⟩, hp, heq⟩ := List.mem_map.1 hmem
  obtain ⟨rfl, hvec⟩ : i = e.label ∧ p.2 = e.vec := by simpa using heq
  exact ⟨p, List.mem_zipIdx_iff_getElem?.1 hp, hvec.symm⟩

/-- A filter on the labels of the entries is a filter on the positions of the gallery. -/
theorem filter_entries (h : Aligned idx g) (keep : ℕ → Bool) :
    (idx.index.entries.filter fun e => keep e.label).map (fun e => (e.label, e.vec)) =
      (g.zipIdx.filter fun p => keep p.2).map fun p => (p.2, p.1.2) := by
  have hfilter := congrArg (List.filter fun lv : ℕ × List F => keep lv.1) h.entries
  rw [List.filter_map, List.filter_map] at hfilter
  exact hfilter

/-! ### Adding -/

section Add
variable [CommRing F] [LinearOrder F] {faiss : Faiss F}

theorem add (h : Aligned idx g) {n : ℕ} {data : List F} {ids : List Int}
    (hadd : idx.addWithIds faiss n data ids = .ok idx') :
    Aligned idx' (g ++ (ids.take n).zip
      (((List.range n).map (rowAt data idx.index.d.toNat)).map (idx.index.keep faiss))) := by
  obtain ⟨_, hids, rfl⟩ := addWithIds_ok.1 hadd
  have hlen : (ids.take n).length = n := by simpa using hids
  refine ⟨?_, ?_, ?_, ?_, ?_⟩
  · simp [h.idMap, List.map_fst_zip, hlen]
  · simp only [IndexIVF.add, List.map_append, h.entries, List.zipIdx_append]
    congr 1
    refine List.ext_getElem (by simp [hlen]) fun i _ _ => ?_
    simp [h.indexTotal]
  · simp [IndexIVF.add, h.indexTotal, hids]
  · simp [h.indexTotal, hids]
  · intro p hp
    rcases List.mem_append.1 hp with hp | hp
    · exact h.vec_le p hp
    · obtain ⟨v, hv, hkeep⟩ := List.mem_map.1 (List.of_mem_zip hp).2
      obtain ⟨i, _, rfl⟩ := List.mem_map.1 hv
      rw [← hkeep, keep_length]
      simp [IndexIVF.add, rowAt]

theorem zip_take_left {α β : Type} (xs : List α) (ys : List β) {n : ℕ} (h : ys.length = n) :
    (xs.take n).zip ys = xs.zip ys := by
  refine List.ext_getElem (by simp [h, Nat.min_comm]) fun i _ _ => ?_
  simp

/-- The index of a successful `build` holds what FAISS read of the matrix. -/
theorem prepare {cfg : FaissConfig} {fail : Failures} {embeddings : MatrixXf F} {ids : List Int}
    (h : FaissSearcher.prepare faiss cfg fail embeddings ids = .ok idx) :
    Aligned idx (keptGallery faiss cfg embeddings ids) := by
  have hempty : Aligned ⟨trainedIndex faiss cfg embeddings, [], 0⟩ [] :=
    ⟨rfl, rfl, rfl, rfl, by simp⟩
  have hnew := hempty.add (prepare_addWithIds h)
  rwa [List.nil_append, zip_take_left _ _ (by simp)] at hnew

end Add

/-! ### Removing -/

/-- A list whose selected elements are followed by selected elements only is split by them. -/
theorem exists_suffix {α : Type} {p : α → Prop} {xs : List α}
    (h : xs.Pairwise fun a b => p a → p b) :
    ∃ kept dropped, xs = kept ++ dropped ∧ (∀ a ∈ kept, ¬p a) ∧ ∀ a ∈ dropped, p a := by
  induction xs with
  | nil => exact ⟨[], [], rfl, by simp, by simp⟩
  | cons x xs ih =>
    rw [List.pairwise_cons] at h
    by_cases hx : p x
    · exact ⟨[], x :: xs, rfl, by simp, List.forall_mem_cons.2 ⟨hx, fun a ha => h.1 a ha hx⟩⟩
    · obtain ⟨kept, dropped, rfl, hkept, hdropped⟩ := ih h.2
      exact ⟨x :: kept, dropped, rfl, List.forall_mem_cons.2 ⟨hx, hkept⟩, hdropped⟩

/-- A removal that only takes away the pairs enrolled last. -/
theorem remove (h : Aligned idx g) {ids : List Int}
    (hsuffix : g.Pairwise fun a b => a.1 ∈ ids → b.1 ∈ ids)
    (hremove : idx.removeIds ids = .ok idx') : Aligned idx' (g.filter fun p => p.1 ∉ ids) := by
  obtain ⟨kept, dropped, rfl, hkept, hdropped⟩ := exists_suffix hsuffix
  have hfilter : (kept ++ dropped).filter (fun p => p.1 ∉ ids) = kept := by
    rw [List.filter_append, List.filter_eq_self.2 (by simpa using hkept),
      List.filter_eq_nil_iff.2 (by simpa using hdropped), List.append_nil]
  -- a label is selected exactly when its position lies behind the kept pairs
  have hselected : ∀ i < (kept ++ dropped).length,
      (idx.idMap[i]?.any (· ∈ ids)) = decide (kept.length ≤ i) := by
    intro i hi
    rw [h.idMap, List.getElem?_map]
    by_cases hik : i < kept.length
    · have := hkept _ (List.getElem_mem hik)
      simp [List.getElem?_append_left hik, hik, this]
    · rw [not_lt] at hik
      have hid : i - kept.length < dropped.length := by simp at hi; omega
      have := hdropped _ (List.getElem_mem hid)
      simp [List.getElem?_append_right hik, hik, hid, this]
  obtain ⟨_, _, rfl⟩ := removeIds_ok.1 hremove
  have hidMap : (idx.idMap.take idx.ntotal).filter (fun id => id ∉ ids) = kept.map (·.1) := by
    rw [h.total, List.take_of_length_le (by simp [h.idMap]), h.idMap, List.filter_map]
    exact congrArg _ hfilter
  have hentries : (idx.index.entries.filter fun e => !(idx.idMap[e.label]?.any (· ∈ ids))).map
      (fun e => (e.label, e.vec)) = kept.zipIdx.map fun p => (p.2, p.1.2) := by
    rw [h.filter_entries fun l => !(idx.idMap[l]?.any (· ∈ ids)), List.zipIdx_append,
      List.filter_append, List.filter_eq_self.2, List.filter_eq_nil_iff.2, List.append_nil]
    · rintro ⟨p, i⟩ hp
      have hi := List.mem_zipIdx hp
      simp only [hselected i (by simp; omega)]
      simp only [decide_eq_true (show kept.length ≤ i by omega)]
      simp
    · rintro ⟨p, i⟩ hp
      have hi := List.mem_zipIdx hp
      simp only [hselected i (by simp; omega)]
      simp
      omega
  rw [hfilter]
  refine ⟨hidMap, hentries, ?_, by simpa using congrArg List.length hidMap,
    fun p hp => h.vec_le p (List.mem_append_left _ hp)⟩
  have hkeptLen := congrArg List.length hentries
  have htotal := congrArg List.length h.entries
  have hsplit := List.length_eq_length_filter_add (l := idx.index.entries)
    fun e => (idx.idMap[e.label]?.any (· ∈ ids))
  simp only [List.length_map, List.length_zipIdx, List.length_append] at hkeptLen htotal
  have hindexTotal := h.indexTotal
  simp only [List.length_append] at hindexTotal
  simp only [IndexIVF.removeIds]
  omega

/-! ### Searching -/

section Search
variable [CommRing F]

/-- Components of a query behind the stored vector do not count. -/
theorem value_take (m : MetricType) (q v : List F) {n : ℕ} (h : v.length ≤ n) :
    m.value (q.take n) v = m.value q v := by
  have hzip : ∀ f : F → F → F, List.zipWith f (q.take n) v = List.zipWith f q v := by
    intro f
    rw [← List.take_of_length_le h, ← List.take_zipWith, List.take_of_length_le h,
      List.take_of_length_le]
    simp only [List.length_zipWith]
    omega
  cases m <;> simp only [MetricType.value, innerProduct, squaredDistance, hzip]

/-- Every position of the gallery with its score. -/
def scores (m : MetricType) (q : List F) (g : Gallery F) : List (ℕ × F) :=
  g.zipIdx.map fun p => (p.2, m.value q p.1.2)

/-- The hit for a scored position of the gallery. -/
def hitAt (g : Gallery F) (b : ℕ × F) : Option (SearchResult F) :=
  g[b.1]?.bind fun p => FaissSearcher.toHit p.1 b.2

/-- The pairs of the gallery as hits. -/
def asHits (m : MetricType) (q : List F) (g : Gallery F) : List (SearchResult F) :=
  g.map fun p => ⟨p.1, m.value q p.2⟩

/-- The hit for a scored position, before the sign of its id is looked at. -/
def resultAt (g : Gallery F) (b : ℕ × F) : SearchResult F :=
  ⟨(g[b.1]?.map (·.1)).getD 0, b.2⟩

omit [CommRing F] in
theorem filterMap_toHit {α : Type} (f : α → SearchResult F) (xs : List α) :
    (xs.filterMap fun a => FaissSearcher.toHit (f a).id (f a).similarity) =
      (xs.map f).filter fun r => ¬r.id < 0 := by
  induction xs with
  | nil => rfl
  | cons a xs ih =>
    rw [List.map_cons, List.filterMap_cons, List.filter_cons, ← ih, FaissSearcher.toHit]
    by_cases hid : (f a).id < 0 <;> simp [hid]

omit [CommRing F] in
/-- The hits for positions of the gallery are their results with an id that is not negative. -/
theorem filterMap_hitAt {g : Gallery F} {bs : List (ℕ × F)} (h : ∀ b ∈ bs, ∃ p, g[b.1]? = some p) :
    bs.filterMap (hitAt g) = (bs.map (resultAt g)).filter fun r => ¬r.id < 0 := by
  rw [← filterMap_toHit]
  refine List.filterMap_congr fun b hb => ?_
  obtain ⟨p, hp⟩ := h b hb
  simp [hitAt, resultAt, hp]

/-- Scored positions of the gallery exist. -/
theorem scores_position {m : MetricType} {q : List F} {g : Gallery F} {b : ℕ × F}
    (hb : b ∈ scores m q g) : ∃ p, g[b.1]? = some p := by
  obtain ⟨⟨p, i⟩, hp, rfl⟩ := List.mem_map.1 hb
  exact ⟨p, List.mem_zipIdx_iff_getElem?.1 hp⟩

theorem map_resultAt_scores (m : MetricType) (q : List F) (g : Gallery F) :
    (scores m q g).map (resultAt g) = asHits m q g := by
  rw [scores, List.map_map, asHits]
  conv_rhs => rw [← List.zipIdx_map_fst 0 g, List.map_map]
  refine List.map_congr_left fun p hp => ?_
  simp [resultAt, List.mem_zipIdx_iff_getElem?.1 hp]

variable [LinearOrder F] {faiss : Faiss F}

omit [LinearOrder F] in
/-- The entries score as the pairs of the gallery do. -/
theorem entries_scores (h : Aligned idx g) (q : List F) :
    idx.index.entries.map (fun e =>
      (e.label, idx.index.metric.value (q.take idx.index.d.toNat) e.vec)) =
      scores idx.index.metric q g := by
  have hmap := congrArg (List.map fun lv : ℕ × List F =>
    (lv.1, idx.index.metric.value (q.take idx.index.d.toNat) lv.2)) h.entries
  rw [List.map_map, List.map_map] at hmap
  refine hmap.trans (List.map_congr_left fun p hp => ?_)
  have hp := List.mem_of_getElem? (List.mem_zipIdx_iff_getElem?.1 hp)
  simp [value_take _ _ _ (h.vec_le _ hp)]

/-- A search scores pairs of the gallery, each at most once. -/
theorem scanned_sublist (h : Aligned idx g) (q : List F) :
    (idx.index.scanned faiss (q.take idx.index.d.toNat)).Sublist
      (scores idx.index.metric q g) := by
  rw [← h.entries_scores q]
  exact (List.filter_sublist).map _

/-- What a search finds are positions of the gallery. -/
theorem search_position (h : Aligned idx g) {q : List F} {k : ℕ} {b : ℕ × F}
    (hb : b ∈ idx.index.search faiss (q.take idx.index.d.toNat) k) : ∃ p, g[b.1]? = some p :=
  scores_position ((h.scanned_sublist q).subset ((faiss.isTopK_select _ _ _).mem hb))

/-- What a search returns: the best scanned pairs, under their own ids. -/
theorem search_ok_iff (h : Aligned idx g) {s : FaissSearcher F} (hcpu : s.indexCpu.isSome)
    (hsearched : s.searched = some idx) {q : Embedding F} {k : UInt32}
    {hits : List (SearchResult F)} :
    s.search faiss q k = .ok hits ↔ idx.index.d.toNat ≤ q.length ∧ hits =
      (idx.index.search faiss (q.take idx.index.d.toNat) k.toNat).filterMap (hitAt g) := by
  have htranslate : idx.translateAll
      (idx.index.search faiss (q.take idx.index.d.toNat) k.toNat) =
      .ok ((idx.index.search faiss (q.take idx.index.d.toNat) k.toNat).map
        fun b => (((g[b.1]?).map (·.1)).getD 0, b.2)) := by
    rw [translateAll_ok]
    refine ⟨by simp, fun j b hb => ?_⟩
    obtain ⟨p, hp⟩ := h.search_position (List.mem_of_getElem? hb)
    exact ⟨p.1, by simp [h.idMap, hp], by simp [hb, hp]⟩
  have hhits : ((idx.index.search faiss (q.take idx.index.d.toNat) k.toNat).map
        fun b => (((g[b.1]?).map (·.1)).getD 0, b.2)).filterMap
        (fun b => FaissSearcher.toHit b.1 b.2) =
      (idx.index.search faiss (q.take idx.index.d.toNat) k.toNat).filterMap (hitAt g) := by
    rw [List.filterMap_map]
    refine List.filterMap_congr fun b hb => ?_
    obtain ⟨p, hp⟩ := h.search_position hb
    simp [hitAt, hp]
  rw [search_ok]
  simp only [hcpu, hsearched, Option.some.injEq, true_and]
  constructor
  · rintro ⟨_, found, rfl, hd, hfound, rfl⟩
    obtain rfl := Except.ok.inj (htranslate.symm.trans hfound)
    exact ⟨hd, hhits⟩
  · rintro ⟨hd, rfl⟩
    exact ⟨idx, _, rfl, hd, htranslate, hhits.symm⟩

/-- Every hit is a pair of the gallery with its score, and no pair is reported twice. -/
theorem search_subperm (h : Aligned idx g) {s : FaissSearcher F} (hcpu : s.indexCpu.isSome)
    (hsearched : s.searched = some idx) {q : Embedding F} {k : UInt32}
    {hits : List (SearchResult F)} (hsearch : s.search faiss q k = .ok hits) :
    hits.Subperm (asHits idx.index.metric q g) := by
  obtain ⟨_, rfl⟩ := (h.search_ok_iff hcpu hsearched).1 hsearch
  rw [filterMap_hitAt fun b hb => h.search_position hb, ← map_resultAt_scores]
  have hbest : (idx.index.search faiss (q.take idx.index.d.toNat) k.toNat).Subperm
      (scores idx.index.metric q g) :=
    (faiss.isTopK_select _ _ _).subperm.trans (h.scanned_sublist q).subperm
  obtain ⟨l, hperm, hsub⟩ := hbest
  exact (List.filter_sublist.subperm).trans ⟨_, hperm.map (resultAt g), hsub.map (resultAt g)⟩

end Search

end Aligned

end FacePipeline.Indexing
