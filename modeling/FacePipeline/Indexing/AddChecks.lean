import FacePipeline.Indexing.Atomicity
import Mathlib.Data.Multiset.MapFold
import Mathlib.Data.Multiset.Replicate

/-!
# What `add` accepts

`add` hands the matrix and the ids to FAISS as they are. FAISS reads as many vectors of its own dimension as the
matrix has columns, and as many ids: a matrix of other vectors, or ids of another number, are accepted or read past
their end. `AddChecked` says when this cannot be seen, and `addChecks_iff` that it is the only case.
-/

namespace FacePipeline.Indexing

open FacePipeline.Config FacePipeline.Pipeline

/-! ### What is stored -/

section Stored
variable {F : Type}

/-- What is kept of the vectors, each under the id of its label. -/
def stored (idx : IndexIDMap F) : Multiset (Option Int × List F) :=
  (idx.index.entries.map fun e => (idx.idMap[e.label]?, e.vec) : List (Option Int × List F))

/-- The id map and the inverted file count the same vectors. -/
structure CountsAgree (idx : IndexIDMap F) : Prop where
  idMap : idx.idMap.length = idx.index.ntotal
  total : idx.ntotal = idx.index.ntotal

/-- No stored vector has one of the labels that the next `n` vectors get. -/
def FreshLabels (idx : IndexIDMap F) (n : ℕ) : Prop :=
  ∀ e ∈ idx.index.entries, e.label < idx.index.ntotal ∨ idx.index.ntotal + n ≤ e.label

/-- The stored pairs, once the id map has grown. -/
def relabelled (idx : IndexIDMap F) (new : List Int) : Multiset (Option Int × List F) :=
  (idx.index.entries.map fun e => ((idx.idMap ++ new)[e.label]?, e.vec) : List (Option Int × List F))

theorem not_between_of_countP_eq {α : Type} {f : α → ℕ} {a b : ℕ} {xs : List α}
    (h : xs.countP (b ≤ f ·) = xs.countP (a ≤ f ·)) : ∀ x ∈ xs, f x < a ∨ b ≤ f x := by
  intro x hx
  by_contra hbetween
  have hle : ∀ ys : List α, ys.countP (b ≤ f ·) ≤ ys.countP (a ≤ f ·) := by
    intro ys
    apply List.countP_mono_left
    intro y _ hy
    simp only [decide_eq_true_eq] at hy ⊢
    omega
  obtain ⟨before, after, rfl⟩ := List.append_of_mem hx
  have hbefore := hle before
  have hafter := hle after
  rw [List.countP_append, List.countP_append, List.countP_cons_of_neg (by simp; omega),
    List.countP_cons_of_pos (by simp; omega)] at h
  omega

theorem relabelled_eq_iff {idx : IndexIDMap F} (hcounts : CountsAgree idx) (new : List Int) :
    relabelled idx new = stored idx ↔ FreshLabels idx new.length := by
  have hlen := hcounts.idMap
  constructor
  · intro h
    have hnone : ∀ (ids : List Int) (label : ℕ), ids[label]?.isNone = decide (ids.length ≤ label) := by
      intro ids label
      rw [Bool.eq_iff_iff, Option.isNone_iff_eq_none, List.getElem?_eq_none_iff, decide_eq_true_eq]
    have hcount := (Multiset.coe_eq_coe.1 h).countP_eq fun p => p.1.isNone
    simp only [List.countP_map, Function.comp_def, hnone, List.length_append, hlen] at hcount
    exact not_between_of_countP_eq hcount
  · intro h
    refine congrArg _ (List.map_congr_left fun e he => ?_)
    have hid : (idx.idMap ++ new)[e.label]? = idx.idMap[e.label]? := by
      rcases h e he with hlt | hge
      · exact List.getElem?_append_left (by omega)
      · rw [List.getElem?_eq_none (by simp; omega), List.getElem?_eq_none (by omega)]
    rw [hid]

variable [CommRing F] [LinearOrder F] {faiss : Faiss F}

/-- Vectors under their ids, as the index keeps them. -/
def keptPairs (faiss : Faiss F) (idx : IndexIDMap F) (ids : List Int) (xs : List (List F)) :
    Multiset (Option Int × List F) :=
  ((ids.zip xs).map fun p => (some p.1, idx.index.keep faiss p.2) : List (Option Int × List F))

theorem keep_add (idx : IndexIVF F) (xs : List (List F)) : (idx.add faiss xs).keep faiss = idx.keep faiss :=
  rfl

/-- Adding relabels the old pairs and appends the new ones. -/
theorem stored_addWithIds {idx idx' : IndexIDMap F} {embeddings : MatrixXf F} {ids : List Int}
    (hcounts : CountsAgree idx)
    (h : idx.addWithIds faiss embeddings.cols embeddings.data ids = .ok idx') :
    stored idx' = relabelled idx (ids.take embeddings.cols) +
      keptPairs faiss idx ids (embeddings.read idx.index.d) := by
  obtain ⟨_, hids, rfl⟩ := addWithIds_ok.1 h
  unfold stored relabelled keptPairs IndexIVF.add
  rw [List.map_append, ← Multiset.coe_add]
  congr 2
  refine List.ext_getElem ?_ fun i hi _ => ?_
  · simp
    omega
  · simp only [List.length_map, List.length_mapIdx, List.length_range] at hi
    have hid : (idx.idMap ++ ids.take embeddings.cols)[idx.index.ntotal + i]? = some ids[i] := by
      rw [← hcounts.idMap, List.getElem?_append_right (by omega), Nat.add_sub_cancel_left,
        List.getElem?_take_of_lt hi, List.getElem?_eq_getElem]
    simp [MatrixXf.read, hid]

theorem addWithIds_counts {idx idx' : IndexIDMap F} {n : ℕ} {data : List F} {ids : List Int}
    (hcounts : CountsAgree idx) (h : idx.addWithIds faiss n data ids = .ok idx') : CountsAgree idx' := by
  obtain ⟨_, hids, rfl⟩ := addWithIds_ok.1 h
  constructor
  · simp [IndexIVF.add, hcounts.idMap, hids]
  · simp [IndexIVF.add]

theorem keptPairs_lengths {idx : IndexIDMap F} {ids : List Int} {xs : List (List F)} {n d : ℕ}
    (hids : ids.length = n) (hxs : xs.length = n) (hd : ∀ x ∈ xs, x.length = d) :
    (keptPairs faiss idx ids xs).map (·.2.length) = Multiset.replicate n d := by
  rw [Multiset.eq_replicate]
  constructor
  · simp [keptPairs, hids, hxs]
  · intro k hk
    obtain ⟨p, hp, rfl⟩ := Multiset.mem_map.1 hk
    obtain ⟨q, hq, rfl⟩ := List.mem_map.1 (Multiset.mem_coe.1 hp)
    exact (keep_length idx.index q.2).trans (hd q.2 (List.of_mem_zip hq).2)

/-- The vectors that are read are columns only if these have the index's dimension. -/
theorem dimension_of_stored {idx : IndexIDMap F} {embeddings : MatrixXf F} {ids new : List Int}
    (hids : ids.length = embeddings.cols)
    (hdata : embeddings.cols * idx.index.d.toNat ≤ embeddings.data.length)
    (h : relabelled idx new + keptPairs faiss idx ids (embeddings.read idx.index.d) =
      stored idx + keptPairs faiss idx ids embeddings.columns) :
    embeddings.cols = 0 ∨ idx.index.d.toNat = embeddings.rows := by
  have hrow : ∀ d, embeddings.cols * d ≤ embeddings.data.length →
      ∀ x ∈ (List.range embeddings.cols).map (rowAt embeddings.data d), x.length = d := by
    intro d hd x hx
    obtain ⟨j, hj, rfl⟩ := List.mem_map.1 hx
    exact rowAt_length (List.mem_range.1 hj) hd
  have hsize : embeddings.cols * embeddings.rows ≤ embeddings.data.length := by
    rw [embeddings.size_eq, Nat.mul_comm]
  have hold : (relabelled idx new).map (·.2.length) = (stored idx).map (·.2.length) := by
    simp [relabelled, stored, Function.comp_def]
  have hread : (keptPairs faiss idx ids (embeddings.read idx.index.d)).map (·.2.length) =
      Multiset.replicate embeddings.cols idx.index.d.toNat :=
    keptPairs_lengths hids (by simp) (hrow _ hdata)
  have hcolumns : (keptPairs faiss idx ids embeddings.columns).map (·.2.length) =
      Multiset.replicate embeddings.cols embeddings.rows :=
    keptPairs_lengths hids (by simp [MatrixXf.columns]) (hrow _ hsize)
  have hlengths := congrArg (Multiset.map (·.2.length)) h
  rw [Multiset.map_add, Multiset.map_add, hold, Multiset.add_right_inj, hread, hcolumns] at hlengths
  by_cases hcols : embeddings.cols = 0
  · exact .inl hcols
  · exact .inr ((Multiset.replicate_right_inj hcols).1 hlengths)

end Stored

/-! ### Built searchers -/

section Built
variable {F : Type} [CommRing F] [LinearOrder F]

/-- Where the counts are FAISS's own affair: `remove_ids` asserts at its end that they agree, and what is loaded has
been saved. -/
def CountsChecked (faiss : Faiss F) (fail : Failures) (s : FaissSearcher F) : Op F → Prop
  | .build _ _ | .add _ _ => True
  | .remove ids => ∀ idx, (Op.remove ids).newIndex faiss fail s = .ok idx → CountsAgree idx
  | .load file => CountsAgree file

/-- A searcher after any operations, each of which returned or threw. -/
inductive Built (faiss : Faiss F) (cfg : FaissConfig) : FaissSearcher F → Prop where
  | new : Built faiss cfg { cfg }
  | ok {s s' : FaissSearcher F} {op : Op F} {fail : Failures} : Built faiss cfg s →
      CountsChecked faiss fail s op → (op.run faiss fail).run s = .ok () s' → Built faiss cfg s'
  | throws {s s' : FaissSearcher F} {op : Op F} {fail : Failures} {e : Exn} : Built faiss cfg s →
      CountsChecked faiss fail s op → (op.run faiss fail).run s = .error (.throws e) s' → Built faiss cfg s'

variable {faiss : Faiss F}

theorem counts_trained (cfg : FaissConfig) (embeddings : MatrixXf F) :
    CountsAgree ⟨trainedIndex faiss cfg embeddings, [], 0⟩ :=
  ⟨rfl, rfl⟩

theorem newIndex_counts {fail : Failures} {s : FaissSearcher F} {op : Op F} {idx : IndexIDMap F}
    (hold : ∀ old, s.indexCpu = some old → CountsAgree old) (hchecked : CountsChecked faiss fail s op)
    (h : op.newIndex faiss fail s = .ok idx) : CountsAgree idx := by
  cases op with
  | build embeddings ids =>
    obtain ⟨_, hprepare⟩ := newIndex_build_ok.1 h
    exact addWithIds_counts (counts_trained s.cfg embeddings) (prepare_addWithIds hprepare)
  | add embeddings ids =>
    obtain ⟨old, hcpu, _, hadd⟩ := newIndex_add_ok.1 h
    exact addWithIds_counts (hold old hcpu) hadd
  | remove ids => exact hchecked idx h
  | load file =>
    obtain ⟨_, rfl⟩ := newIndex_load_ok.1 h
    exact hchecked

theorem built_counts {cfg : FaissConfig} {s : FaissSearcher F} (hbuilt : Built faiss cfg s) :
    ∀ idx, s.indexCpu = some idx → CountsAgree idx := by
  induction hbuilt with
  | new =>
    intro idx hidx
    cases hidx
  | ok _ hchecked hrun ih =>
    intro idx hidx
    obtain ⟨new, hnew, -, rfl⟩ := op_run_ok.1 hrun
    rw [finish_indexCpu] at hidx
    exact Option.some.inj hidx ▸ newIndex_counts ih hchecked hnew
  | @throws s s' op fail e _ hchecked hrun ih =>
    intro idx hidx
    rcases op_run_error.1 hrun with ⟨-, rfl⟩ | ⟨new, _, hnew, -, -, rfl⟩
    · obtain ⟨d, hd⟩ := assignedEarly_eq s op
      rw [hd] at hidx
      exact ih idx hidx
    · exact Option.some.inj hidx ▸ newIndex_counts ih hchecked hnew

/-! ### The call -/

/-- The call throws and changes nothing, or it is given columns of the dimension with one id each, and stores
these. -/
def AddsOrRejects (faiss : Faiss F) (fail : Failures) (s : FaissSearcher F) (embeddings : MatrixXf F)
    (ids : List Int) : Prop :=
  (∃ e, (FaissSearcher.add faiss fail embeddings ids).run s = .error (.throws e) s) ∨
  ∃ s' idx idx', (FaissSearcher.add faiss fail embeddings ids).run s = .ok () s' ∧ s.indexCpu = some idx ∧
    s'.indexCpu = some idx' ∧ embeddings.rows = s.dimension.toNat ∧ ids.length = embeddings.cols ∧
    stored idx' = stored idx + keptPairs faiss idx ids embeddings.columns

/-- What `add` would have to check, and what it relies on: the searcher's dimension is the index's, and the labels of
the new vectors are free. -/
structure AddFits (s : FaissSearcher F) (idx : IndexIDMap F) (embeddings : MatrixXf F) (ids : List Int) :
    Prop where
  rows : embeddings.rows = s.dimension.toNat
  ids : ids.length = embeddings.cols
  dimension : embeddings.cols = 0 ∨ idx.index.d = s.dimension
  fresh : FreshLabels idx embeddings.cols

/-- The clone that `add` makes of the new index throws. -/
def CloneFails (fail : Failures) (s : FaissSearcher F) : Prop :=
  s.onGpu = true ∧ fail.indexCpuToGpu ≠ none

/-- Nothing has been built, or FAISS rejects the call, or nothing is added, or everything fits and is cloned. -/
def AddChecked (fail : Failures) (s : FaissSearcher F) (embeddings : MatrixXf F) (ids : List Int) : Prop :=
  ∀ idx, s.indexCpu = some idx → fail.addWithIds ≠ none ∨
    (CloneFails fail s ∧ embeddings.cols = 0) ∨ (¬CloneFails fail s ∧ AddFits s idx embeddings ids)

/-- What FAISS does not reject beforehand is read past its end. -/
theorem addWithIds_error {idx : IndexIDMap F} {n : ℕ} {data : List F} {ids : List Int} {stop : Stop}
    (h : idx.addWithIds faiss n data ids = .error stop) : ∃ what, stop = .undefined what := by
  unfold IndexIDMap.addWithIds readVectors readIds undefined at h
  split_ifs at h
  · cases h
  · exact ⟨_, (Except.error.inj h).symm⟩
  · exact ⟨_, (Except.error.inj h).symm⟩
  · exact ⟨_, (Except.error.inj h).symm⟩

theorem keptPairs_columns {idx : IndexIDMap F} {embeddings : MatrixXf F} (ids : List Int)
    (h : embeddings.cols = 0 ∨ idx.index.d.toNat = embeddings.rows) :
    keptPairs faiss idx ids (embeddings.read idx.index.d) = keptPairs faiss idx ids embeddings.columns := by
  rcases h with h0 | hd
  · simp [keptPairs, MatrixXf.read, MatrixXf.columns, h0]
  · rw [MatrixXf.read_rows hd]

theorem stored_columns_iff {idx idx' : IndexIDMap F} {embeddings : MatrixXf F} {ids : List Int}
    (hcounts : CountsAgree idx) (hids : ids.length = embeddings.cols)
    (h : idx.addWithIds faiss embeddings.cols embeddings.data ids = .ok idx') :
    stored idx' = stored idx + keptPairs faiss idx ids embeddings.columns ↔
      (embeddings.cols = 0 ∨ idx.index.d.toNat = embeddings.rows) ∧ FreshLabels idx embeddings.cols := by
  have hlabels : relabelled idx (ids.take embeddings.cols) = stored idx ↔ FreshLabels idx embeddings.cols := by
    rw [relabelled_eq_iff hcounts, List.length_take, hids, min_self]
  rw [stored_addWithIds hcounts h, ← hlabels]
  constructor
  · intro hstored
    have hd := dimension_of_stored hids (addWithIds_ok.1 h).1 hstored
    rw [keptPairs_columns ids hd, Multiset.add_left_inj] at hstored
    exact ⟨hd, hstored⟩
  · rintro ⟨hd, hold⟩
    rw [keptPairs_columns ids hd, hold]

/-- The index is as before only if nothing was added. -/
theorem addWithIds_self_iff {idx idx' : IndexIDMap F} {n : ℕ} {data : List F} {ids : List Int}
    (hcounts : CountsAgree idx) (h : idx.addWithIds faiss n data ids = .ok idx') : idx' = idx ↔ n = 0 := by
  obtain ⟨_, _, rfl⟩ := addWithIds_ok.1 h
  obtain ⟨index, idMap, ntotal⟩ := idx
  obtain rfl : ntotal = index.ntotal := hcounts.total
  constructor
  · intro hsame
    have htotal := congrArg (fun i => i.index.ntotal) hsame
    simpa [IndexIVF.add] using htotal
  · rintro rfl
    simp [IndexIVF.add]

theorem add_run {s : FaissSearcher F} {idx : IndexIDMap F} (hidx : s.indexCpu = some idx) {fail : Failures}
    (hfail : fail.addWithIds = none) (embeddings : MatrixXf F) (ids : List Int) :
    (FaissSearcher.add faiss fail embeddings ids).run s =
      match idx.addWithIds faiss embeddings.cols embeddings.data ids with
      | .error stop => .error stop s
      | .ok idx' =>
          match if s.onGpu then fail.indexCpuToGpu else none with
          | some e => .error (.throws e) { s with indexCpu := some idx' }
          | none => .ok () ((Op.add embeddings ids).finish s idx') := by
  have hnew : (Op.add embeddings ids).newIndex faiss fail s =
      idx.addWithIds faiss embeddings.cols embeddings.data ids := by
    rw [Op.newIndex, hidx, hfail]
    rfl
  refine (op_run faiss fail s (.add embeddings ids)).trans ?_
  rw [hnew]
  rfl

theorem addsOrRejects_of_thrown {s : FaissSearcher F} {idx : IndexIDMap F} (hidx : s.indexCpu = some idx)
    {fail : Failures} {e : Exn} (hfail : fail.addWithIds = some e) (embeddings : MatrixXf F) (ids : List Int) :
    AddsOrRejects faiss fail s embeddings ids := by
  refine .inl ⟨e, ?_⟩
  have hnew : (Op.add embeddings ids).newIndex faiss fail s = throwing e := by
    rw [Op.newIndex, hidx, hfail]
    rfl
  exact op_run_error.2 (.inl ⟨hnew, rfl⟩)

theorem addsOrRejects_unbuilt {s : FaissSearcher F} (hidx : s.indexCpu = none) (fail : Failures)
    (embeddings : MatrixXf F) (ids : List Int) : AddsOrRejects faiss fail s embeddings ids := by
  refine .inl ⟨.runtimeError "FaissSearcher::add called before build", ?_⟩
  have hnew : (Op.add embeddings ids).newIndex faiss fail s =
      throwing (.runtimeError "FaissSearcher::add called before build") := by
    rw [Op.newIndex, hidx]
  exact op_run_error.2 (.inl ⟨hnew, rfl⟩)

/-- Whether the arrays are long enough. -/
theorem addWithIds_returns {idx : IndexIDMap F} {s : FaissSearcher F} {embeddings : MatrixXf F} {ids : List Int}
    (h : embeddings.cols = 0 ∨ AddFits s idx embeddings ids) :
    ∃ idx', idx.addWithIds faiss embeddings.cols embeddings.data ids = .ok idx' := by
  refine ⟨_, addWithIds_ok.2 ⟨?_, ?_, rfl⟩⟩
  · rcases h with h0 | hfits
    · rw [h0, Nat.zero_mul]
      exact Nat.zero_le _
    · rcases hfits.dimension with h0 | hd
      · rw [h0, Nat.zero_mul]
        exact Nat.zero_le _
      · rw [hd, ← hfits.rows, embeddings.size_eq, Nat.mul_comm]
  · rcases h with h0 | hfits
    · rw [h0]
      exact Nat.zero_le _
    · exact hfits.ids.ge

theorem addsOrRejects_iff {s : FaissSearcher F} {idx : IndexIDMap F} (hidx : s.indexCpu = some idx)
    (hcounts : CountsAgree idx) {fail : Failures} (hfail : fail.addWithIds = none) (embeddings : MatrixXf F)
    (ids : List Int) : AddsOrRejects faiss fail s embeddings ids ↔
      (CloneFails fail s ∧ embeddings.cols = 0) ∨ (¬CloneFails fail s ∧ AddFits s idx embeddings ids) := by
  unfold AddsOrRejects
  rw [add_run hidx hfail embeddings ids]
  cases hadd : idx.addWithIds faiss embeddings.cols embeddings.data ids with
  | error stop =>
    obtain ⟨what, rfl⟩ := addWithIds_error hadd
    refine iff_of_false ?_ fun h => ?_
    · rintro (⟨e, he⟩ | ⟨_, _, _, h, _⟩)
      · cases he
      · cases h
    · have hreturns : ∃ idx', idx.addWithIds faiss embeddings.cols embeddings.data ids = .ok idx' :=
        addWithIds_returns (h.imp And.right And.right)
      obtain ⟨idx', hok⟩ := hreturns
      rw [hadd] at hok
      cases hok
  | ok idx' =>
    cases hclone : (if s.onGpu then fail.indexCpuToGpu else none) with
    | some e =>
      have hfails : CloneFails fail s := by
        split_ifs at hclone with hgpu
        exact ⟨hgpu, by rw [hclone]; exact Option.some_ne_none e⟩
      have hsame : ({ s with indexCpu := some idx' } : FaissSearcher F) = s ↔ embeddings.cols = 0 := by
        rw [← addWithIds_self_iff hcounts hadd]
        constructor
        · intro h
          have hcpu := congrArg FaissSearcher.indexCpu h
          rw [hidx] at hcpu
          exact Option.some.inj hcpu
        · rintro rfl
          rw [← hidx]
      simp only [hfails, true_and, not_true_eq_false, false_and, or_false, ← hsame]
      constructor
      · rintro (⟨_, he⟩ | ⟨_, _, _, h, _⟩)
        · exact (EStateM.Result.error.inj he).2
        · cases h
      · intro h
        exact .inl ⟨e, by rw [h]⟩
    | none =>
      have hclones : ¬CloneFails fail s := by
        rintro ⟨hgpu, hne⟩
        rw [if_pos hgpu] at hclone
        exact hne hclone
      simp only [hclones, false_and, not_false_eq_true, true_and, false_or]
      constructor
      · rintro (⟨_, he⟩ | ⟨s', old, new, h, hold, hnew, hrows, hids, hstored⟩)
        · cases he
        · obtain ⟨-, rfl⟩ := EStateM.Result.ok.inj h
          obtain rfl := Option.some.inj (hidx.symm.trans hold)
          rw [finish_indexCpu] at hnew
          obtain rfl := Option.some.inj hnew
          obtain ⟨hd, hfresh⟩ := (stored_columns_iff hcounts hids hadd).1 hstored
          exact ⟨hrows, hids, hd.imp_right fun hd => UInt32.toNat_inj.1 (hd.trans hrows), hfresh⟩
      · intro hfits
        have hstored := (stored_columns_iff hcounts hfits.ids hadd).2
          ⟨hfits.dimension.imp_right fun hd => by rw [hd, hfits.rows], hfits.fresh⟩
        exact .inr ⟨_, idx, idx', rfl, hidx, finish_indexCpu, hfits.rows, hfits.ids, hstored⟩

/-! ### In two parts and in one -/

omit [CommRing F] [LinearOrder F] in
theorem append_size (m₁ m₂ : MatrixXf F) (h : m₁.rows = m₂.rows) :
    (m₁.data ++ m₂.data).length = m₁.rows * (m₁.cols + m₂.cols) := by
  rw [List.length_append, m₁.size_eq, m₂.size_eq, h, Nat.mul_add]

/-- The columns of both matrices. -/
def MatrixXf.append (m₁ m₂ : MatrixXf F) (h : m₁.rows = m₂.rows) : MatrixXf F :=
  ⟨m₁.rows, m₁.cols + m₂.cols, m₁.data ++ m₂.data, append_size m₁ m₂ h⟩

omit [CommRing F] [LinearOrder F] in
theorem columns_append {m₁ m₂ : MatrixXf F} (h : m₁.rows = m₂.rows) :
    (m₁.append m₂ h).columns = m₁.columns ++ m₂.columns := by
  have hsize : m₁.data.length = m₁.cols * m₁.rows := m₁.size_eq.trans (Nat.mul_comm _ _)
  have hleft : ∀ j ∈ List.range m₁.cols, rowAt (m₁.data ++ m₂.data) m₁.rows j = rowAt m₁.data m₁.rows j := by
    intro j hj
    have hend : (j + 1) * m₁.rows ≤ m₁.cols * m₁.rows := Nat.mul_le_mul_right _ (List.mem_range.1 hj)
    rw [Nat.succ_mul] at hend
    unfold rowAt
    rw [List.drop_append_of_le_length (by omega), List.take_append_of_le_length (by simp; omega)]
  have hright : ∀ j, rowAt (m₁.data ++ m₂.data) m₁.rows (m₁.cols + j) = rowAt m₂.data m₂.rows j := by
    intro j
    unfold rowAt
    rw [Nat.add_mul, ← hsize, List.drop_length_add_append, h]
  unfold MatrixXf.columns
  show (List.range (m₁.cols + m₂.cols)).map _ = _
  rw [List.range_add, List.map_append, List.map_map]
  exact congr_arg₂ _ (List.map_congr_left hleft) (List.map_congr_left fun j _ => hright j)

/-- The searcher stores the columns under their ids, as its index keeps vectors. -/
def StoresPairs (faiss : Faiss F) (s : FaissSearcher F) (embeddings : MatrixXf F) (ids : List Int) : Prop :=
  ∃ idx, s.indexCpu = some idx ∧ stored idx = keptPairs faiss idx ids embeddings.columns

theorem keptPairs_congr {idx idx' : IndexIDMap F} (h : idx.index.keep faiss = idx'.index.keep faiss)
    (ids : List Int) (xs : List (List F)) : keptPairs faiss idx ids xs = keptPairs faiss idx' ids xs := by
  unfold keptPairs
  rw [h]

theorem keptPairs_append (idx : IndexIDMap F) {ids₁ : List Int} {xs₁ : List (List F)} (ids₂ : List Int)
    (xs₂ : List (List F)) (h : ids₁.length = xs₁.length) :
    keptPairs faiss idx (ids₁ ++ ids₂) (xs₁ ++ xs₂) = keptPairs faiss idx ids₁ xs₁ + keptPairs faiss idx ids₂ xs₂ := by
  unfold keptPairs
  rw [List.zip_append h, List.map_append, Multiset.coe_add]

/-- What a `build` that returns has checked and stored. -/
theorem build_stores {fail : Failures} {s s' : FaissSearcher F} {embeddings : MatrixXf F} {ids : List Int}
    (hrows : embeddings.rows < 2 ^ 32) (h : (FaissSearcher.build faiss fail embeddings ids).run s = .ok () s') :
    ids.length = embeddings.cols ∧ StoresPairs faiss s' embeddings ids := by
  have hop : ((Op.build embeddings ids).run faiss fail).run s = .ok () s' := h
  obtain ⟨idx, hnew, -, rfl⟩ := op_run_ok.1 hop
  obtain ⟨hlen, hprepare⟩ := newIndex_build_ok.1 hnew
  have hadd := prepare_addWithIds hprepare
  have hd : (UInt32.ofNat embeddings.rows).toNat = embeddings.rows := by
    simpa using Nat.mod_eq_of_lt hrows
  have hkeep : idx.index.keep faiss = (trainedIndex faiss s.cfg embeddings).keep faiss := by
    obtain ⟨_, _, rfl⟩ := addWithIds_ok.1 hadd
    exact keep_add _ _
  refine ⟨hlen.symm, idx, finish_indexCpu, ?_⟩
  have hstored := (stored_columns_iff (counts_trained s.cfg embeddings) hlen.symm hadd).2
    ⟨.inr hd, fun e he => by cases he⟩
  have hempty : stored (⟨trainedIndex faiss s.cfg embeddings, [], 0⟩ : IndexIDMap F) = 0 := rfl
  rw [hstored, hempty, Multiset.zero_add]
  exact (keptPairs_congr hkeep _ _).symm

theorem addsOrRejects_stores {fail : Failures} {s s' : FaissSearcher F} {embeddings embeddings' : MatrixXf F}
    {ids ids' : List Int} (hrows : embeddings'.rows = embeddings.rows) (hids : ids'.length = embeddings'.cols)
    (hstores : StoresPairs faiss s embeddings' ids') (h : AddsOrRejects faiss fail s embeddings ids)
    (hrun : (FaissSearcher.add faiss fail embeddings ids).run s = .ok () s') :
    ids.length = embeddings.cols ∧ StoresPairs faiss s' (embeddings'.append embeddings hrows) (ids' ++ ids) := by
  obtain ⟨idx, hidx, hstored⟩ := hstores
  rcases h with ⟨e, he⟩ | ⟨s₂, old, new, hok, hold, hnew, -, hlen, hadded⟩
  · rw [hrun] at he
    cases he
  · obtain ⟨-, rfl⟩ := EStateM.Result.ok.inj (hrun.symm.trans hok)
    obtain rfl := Option.some.inj (hidx.symm.trans hold)
    have hkeep : new.index.keep faiss = idx.index.keep faiss := by
      have hop : ((Op.add embeddings ids).run faiss fail).run s = .ok () s' := hrun
      obtain ⟨idx', hadd, -, rfl⟩ := op_run_ok.1 hop
      obtain ⟨old, hcpu, _, hadd⟩ := newIndex_add_ok.1 hadd
      obtain rfl := Option.some.inj (hidx.symm.trans hcpu)
      obtain ⟨_, _, rfl⟩ := addWithIds_ok.1 hadd
      rw [finish_indexCpu] at hnew
      obtain rfl := Option.some.inj hnew
      exact keep_add _ _
    refine ⟨hlen, new, hnew, ?_⟩
    rw [hadded, hstored, columns_append, keptPairs_congr hkeep, keptPairs_append]
    simp [MatrixXf.columns, hids]

/-- A `build` of one part and an `add` of the other, against a `build` of both: lengths that do not match are rejected
either way, and the same pairs are stored. -/
structure LikeOneBuild (faiss : Faiss F) (fail fail₂ : Failures) (s s₁ : FaissSearcher F) (both : MatrixXf F)
    (ids : List Int) (embeddings₂ : MatrixXf F) (ids₂ : List Int) : Prop where
  rejected : ids.length ≠ both.cols →
    (∃ e, (FaissSearcher.build faiss fail both ids).run s = .error (.throws e) s) ∧
    ∃ e, (FaissSearcher.add faiss fail₂ embeddings₂ ids₂).run s₁ = .error (.throws e) s₁
  pairs : ∀ s₂ s', (FaissSearcher.add faiss fail₂ embeddings₂ ids₂).run s₁ = .ok () s₂ →
    (FaissSearcher.build faiss fail both ids).run s = .ok () s' →
    StoresPairs faiss s₂ both ids ∧ StoresPairs faiss s' both ids

theorem build_rejects {fail : Failures} {s : FaissSearcher F} {embeddings : MatrixXf F} {ids : List Int}
    (h : ids.length ≠ embeddings.cols) :
    ∃ e, (FaissSearcher.build faiss fail embeddings ids).run s = .error (.throws e) s := by
  have hnew : (Op.build embeddings ids).newIndex faiss fail s =
      throwing (.invalidArgument "FaissSearcher::build: ids.size() must equal #embeddings") := by
    rw [Op.newIndex, if_pos h.symm]
  have hearly : s = (Op.build embeddings ids).assignedEarly s := by
    rw [Op.assignedEarly, if_pos h.symm]
  have herror : ((Op.build embeddings ids).run faiss fail).run s = .error _ s := op_run_error.2 (.inl ⟨hnew, hearly⟩)
  exact ⟨_, herror⟩

theorem likeOneBuild {fail₁ fail₂ fail : Failures} {s s₁ : FaissSearcher F} {embeddings₁ embeddings₂ : MatrixXf F}
    {ids₁ ids₂ : List Int} (hrows : embeddings₁.rows = embeddings₂.rows)
    (hbuild : (FaissSearcher.build faiss fail₁ embeddings₁ ids₁).run s = .ok () s₁)
    (h : AddsOrRejects faiss fail₂ s₁ embeddings₂ ids₂) :
    LikeOneBuild faiss fail fail₂ s s₁ (embeddings₁.append embeddings₂ hrows) (ids₁ ++ ids₂) embeddings₂ ids₂ := by
  have hids₁ : ids₁.length = embeddings₁.cols := by
    by_contra hne
    have hrejects : ∃ e, (FaissSearcher.build faiss fail₁ embeddings₁ ids₁).run s = .error (.throws e) s :=
      build_rejects hne
    obtain ⟨e, he⟩ := hrejects
    rw [hbuild] at he
    cases he
  refine ⟨fun hlen => ⟨build_rejects hlen, ?_⟩, fun s₂ s' hadd hboth => ?_⟩
  · rcases h with h | ⟨_, _, _, _, _, _, _, hids₂, _⟩
    · exact h
    · rw [List.length_append, hids₁, hids₂] at hlen
      exact absurd rfl hlen
  · have hsmall : embeddings₁.rows < 2 ^ 32 := by
      rcases h with ⟨e, he⟩ | ⟨_, _, _, _, _, _, hdim, _⟩
      · rw [hadd] at he
        cases he
      · rw [hrows, hdim]
        exact s₁.dimension.toNat_lt
    obtain ⟨-, hstores⟩ := build_stores hsmall hbuild
    have hsmall' : (embeddings₁.append embeddings₂ hrows).rows < 2 ^ 32 := hsmall
    exact ⟨(addsOrRejects_stores hrows hids₁ hstores h hadd).2, (build_stores hsmall' hboth).2⟩

/-- **What `add` accepts.** It rejects what does not fit and stores what does exactly when everything fits or FAISS
itself rejects it; and then a `build` and an `add` come to one `build`. -/
theorem addChecks_iff (faiss : Faiss F) (cfg : FaissConfig) (s : FaissSearcher F) (hbuilt : Built faiss cfg s) :
    (∀ fail embeddings ids, AddsOrRejects faiss fail s embeddings ids ↔ AddChecked fail s embeddings ids) ∧
    (∀ fail₁ fail₂ fail s₁ (embeddings₁ embeddings₂ : MatrixXf F) ids₁ ids₂
      (hrows : embeddings₁.rows = embeddings₂.rows),
      (FaissSearcher.build faiss fail₁ embeddings₁ ids₁).run s = .ok () s₁ →
      AddChecked fail₂ s₁ embeddings₂ ids₂ →
      LikeOneBuild faiss fail fail₂ s s₁ (embeddings₁.append embeddings₂ hrows) (ids₁ ++ ids₂) embeddings₂ ids₂) := by
  have hiff : ∀ t, Built faiss cfg t → ∀ fail embeddings ids,
      AddsOrRejects faiss fail t embeddings ids ↔ AddChecked fail t embeddings ids := by
    intro t ht fail embeddings ids
    unfold AddChecked
    cases hidx : t.indexCpu with
    | none =>
      refine iff_of_true (addsOrRejects_unbuilt hidx fail embeddings ids) fun idx h => ?_
      cases h
    | some idx =>
      cases hfail : fail.addWithIds with
      | some e =>
        exact iff_of_true (addsOrRejects_of_thrown hidx hfail embeddings ids) fun _ _ => .inl (Option.some_ne_none e)
      | none =>
        rw [addsOrRejects_iff hidx (built_counts ht idx hidx) hfail]
        simp
  refine ⟨hiff s hbuilt, fun fail₁ fail₂ fail s₁ embeddings₁ embeddings₂ ids₁ ids₂ hrows hbuild hchecked => ?_⟩
  have hop : ((Op.build embeddings₁ ids₁).run faiss fail₁).run s = .ok () s₁ := hbuild
  have hcounts : CountsChecked faiss fail₁ s (.build embeddings₁ ids₁) := trivial
  have hs₁ : Built faiss cfg s₁ := .ok hbuilt hcounts hop
  exact likeOneBuild hrows hbuild ((hiff s₁ hs₁ fail₂ embeddings₂ ids₂).2 hchecked)

end Built

/-! ### One more person -/

/-- Three people are enrolled. -/
def threeEnrolled : FaissSearcher ℤ :=
  match (FaissSearcher.build referenceFaiss {} threePeople [10, 20, 30]).run { cfg := oneCell } with
  | .ok _ s => s
  | .error _ s => s

theorem threeEnrolled_run : ((Op.build threePeople [10, 20, 30]).run referenceFaiss {}).run { cfg := oneCell } =
    .ok () threeEnrolled :=
  rfl

theorem threeEnrolled_index {idx : IndexIDMap ℤ} (h : threeEnrolled.indexCpu = some idx) :
    CountsAgree idx ∧ idx.index.d = 2 ∧ FreshLabels idx 1 := by
  have hindex : threeEnrolled.indexCpu.map (fun idx => (idx.index.d, idx.index.ntotal, idx.ntotal, idx.idMap.length,
      idx.index.entries.map (·.label))) = some (2, 3, 3, 3, [0, 1, 2]) := rfl
  rw [h, Option.map_some, Option.some.injEq, Prod.mk.injEq, Prod.mk.injEq, Prod.mk.injEq, Prod.mk.injEq] at hindex
  obtain ⟨hd, htotal, htotal', hids, hlabels⟩ := hindex
  refine ⟨⟨by omega, by omega⟩, hd, fun e he => .inl ?_⟩
  have hlabel : e.label ∈ [0, 1, 2] := hlabels ▸ List.mem_map_of_mem he
  rw [htotal]
  simp at hlabel
  omega

/-- One more person is added to the three. -/
theorem addChecks_onePerson : AddsOrRejects referenceFaiss {} threeEnrolled onePerson [40] ∧
    LikeOneBuild referenceFaiss {} {} { cfg := oneCell } threeEnrolled (threePeople.append onePerson rfl)
      [10, 20, 30, 40] onePerson [40] := by
  have hcounts : CountsChecked referenceFaiss {} { cfg := oneCell } (.build threePeople [10, 20, 30]) := trivial
  have hbuilt := Built.ok .new hcounts threeEnrolled_run
  have hchecked : AddChecked {} threeEnrolled onePerson [40] := by
    intro idx hidx
    obtain ⟨-, hd, hfresh⟩ := threeEnrolled_index hidx
    exact .inr (.inr ⟨fun h => absurd h.1 (by decide), ⟨rfl, rfl, .inr hd, hfresh⟩⟩)
  constructor
  · exact ((addChecks_iff referenceFaiss oneCell _ hbuilt).1 {} onePerson [40]).2 hchecked
  · exact (addChecks_iff referenceFaiss oneCell _ .new).2 {} {} {} _ threePeople onePerson [10, 20, 30] [40] rfl
      threeEnrolled_run hchecked

/-- An id is missing and the memory behind the ids is read; an id too many is dropped; of a longer vector the first
components are stored. -/
theorem not_addChecks_mismatch :
    (FaissSearcher.add referenceFaiss {} onePerson []).run threeEnrolled =
      .error (.undefined "read past the end of the ids") threeEnrolled ∧
    ¬AddsOrRejects referenceFaiss {} threeEnrolled onePerson [] ∧
    (∃ s, (FaissSearcher.add referenceFaiss {} onePerson [40, 50]).run threeEnrolled = .ok () s) ∧
    ¬AddsOrRejects referenceFaiss {} threeEnrolled onePerson [40, 50] ∧
    (∃ s, (FaissSearcher.add referenceFaiss {} ⟨3, 1, [2, 2, 2], rfl⟩ [40]).run threeEnrolled = .ok () s) ∧
    ¬AddsOrRejects referenceFaiss {} threeEnrolled ⟨3, 1, [2, 2, 2], rfl⟩ [40] := by
  have hnot : ∀ (embeddings : MatrixXf ℤ) ids, embeddings.rows ≠ 2 ∨ ids.length ≠ embeddings.cols →
      embeddings.cols ≠ 0 → ¬AddsOrRejects referenceFaiss {} threeEnrolled embeddings ids := by
    intro embeddings ids hne hcols h
    have hidx : threeEnrolled.indexCpu = some _ := rfl
    rcases (addsOrRejects_iff hidx (threeEnrolled_index hidx).1 rfl embeddings ids).1 h with ⟨-, h0⟩ | ⟨-, hfits⟩
    · exact hcols h0
    · exact hne.elim (fun h => h hfits.rows) fun h => h hfits.ids
  exact ⟨rfl, hnot _ _ (by decide) (by decide), ⟨_, rfl⟩, hnot _ _ (by decide) (by decide), ⟨_, rfl⟩,
    hnot _ _ (by decide) (by decide)⟩

end FacePipeline.Indexing
