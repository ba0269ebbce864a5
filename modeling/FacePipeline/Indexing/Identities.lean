import FacePipeline.Indexing.Aligned
import Mathlib.Algebra.Order.Ring.Int

/-!
# Identities over a run of enrolments

`Op.store` says what an operation means for the gallery, whatever FAISS does with it. In a run whose
steps keep the positions (`KeepsPositions`) the index stays aligned with the gallery, so every hit is
a stored pair with its own score. A removal that leaves a gap breaks it: the survivors behind the gap
keep their labels, and the compacted id map has other ids, or none, at these positions.
-/

namespace FacePipeline.Indexing

open FacePipeline.Config FacePipeline.Pipeline

variable {F : Type}

/-- What an operation of the enrolment makes of the gallery. -/
def Op.store : Op F → Gallery F → Gallery F
  | .build embeddings ids, _ => ids.zip embeddings.columns
  | .add embeddings ids, g => g ++ ids.zip embeddings.columns
  | .remove ids, g => g.filter fun p => p.1 ∉ ids
  | .load _, g => g

/-- The operation belongs to the life of an IVF-Flat searcher. -/
def BuildsFlat (cfg : FaissConfig) : Op F → Prop
  | .build embeddings _ => chosenType cfg embeddings.cols = .ivfFlat
  | _ => True

/-- The steps after which positions, labels and columns still correspond: matrices are read with their
own number of rows, and a removal takes away the pairs enrolled last. -/
def KeepsPositions (s : FaissSearcher F) (g : Gallery F) : Op F → Prop
  | .build embeddings _ => embeddings.rows < 2 ^ 32
  | .add embeddings _ => embeddings.cols = 0 ∨ embeddings.rows = s.dimension.toNat
  | .remove ids => g.Pairwise fun a b => a.1 ∈ ids → b.1 ∈ ids
  | .load _ => False

instance (cfg : FaissConfig) (op : Op F) : Decidable (BuildsFlat cfg op) :=
  match op with
  | .build embeddings _ => inferInstanceAs (Decidable (chosenType cfg embeddings.cols = .ivfFlat))
  | .add _ _ | .remove _ | .load _ => inferInstanceAs (Decidable True)

instance (s : FaissSearcher F) (g : Gallery F) (op : Op F) : Decidable (KeepsPositions s g op) :=
  match op with
  | .build embeddings _ => inferInstanceAs (Decidable (embeddings.rows < 2 ^ 32))
  | .add _ _ => inferInstanceAs (Decidable (_ ∨ _))
  | .remove ids => inferInstanceAs (Decidable (g.Pairwise fun a b => a.1 ∈ ids → b.1 ∈ ids))
  | .load _ => inferInstanceAs (Decidable False)

/-! ### The invariant of a run -/

/-- The index that is stored and the index that is searched are one, and it holds the gallery. -/
structure Stores (cfg : FaissConfig) (s : FaissSearcher F) (g : Gallery F) : Prop where
  cfg_eq : s.cfg = cfg
  gpu : GpuConfigured s
  empty : s.indexCpu = none → g = []
  built : ∀ idx, s.indexCpu = some idx → s.searched = some idx ∧ Aligned idx g ∧
    idx.index.kind = .ivfFlat ∧ idx.index.metric = toFaiss cfg.metric ∧ idx.index.d = s.dimension

/-- A new index that holds the new gallery. -/
theorem stores_finish {cfg : FaissConfig} {s : FaissSearcher F} {g g' : Gallery F} {op : Op F}
    {idx : IndexIDMap F} (h : Stores cfg s g) (haligned : Aligned idx g')
    (hkind : idx.index.kind = .ivfFlat) (hmetric : idx.index.metric = toFaiss cfg.metric)
    (hd : idx.index.d = op.newDimension s idx) : Stores cfg (op.finish s idx) g' where
  cfg_eq := by simp [h.cfg_eq]
  gpu := finish_gpuConfigured h.gpu
  empty := by simp
  built idx' hidx' := by
    obtain rfl : idx = idx' := by simpa using hidx'
    exact ⟨finish_searched h.gpu, haligned, hkind, hmetric, by simp [hd]⟩

variable [CommRing F] [LinearOrder F] (faiss : Faiss F)

/-- A run of successful operations of an IVF-Flat searcher, with the gallery they amount to. Each of
the steps keeps the positions. -/
inductive EnrolRun (cfg : FaissConfig) : FaissSearcher F → Gallery F → Prop where
  | new : EnrolRun cfg { cfg } []
  | step {s s' g op fail} : EnrolRun cfg s g → BuildsFlat cfg op → KeepsPositions s g op →
      (op.run faiss fail).run s = .ok () s' → EnrolRun cfg s' (op.store g)

/-- The searcher speaks for the gallery. -/
structure Faithful (s : FaissSearcher F) (g : Gallery F) : Prop where
  size : s.size = g.length
  hits : ∀ q k hits, s.search faiss q k = .ok hits →
    hits.Subperm (g.map fun p => ⟨p.1, (toFaiss s.cfg.metric).value q p.2⟩)
  answers : s.indexCpu.isSome → ∀ q k, q.length = s.dimension.toNat →
    ∃ hits, s.search faiss q k = .ok hits

variable {faiss}

theorem keep_flat {idx : IndexIVF F} (h : idx.kind = .ivfFlat) : idx.keep faiss = id := by
  funext v
  simp [IndexIVF.keep, h]

/-- `add` appends the columns of the matrix. -/
theorem aligned_addColumns {idx idx' : IndexIDMap F} {g : Gallery F} {embeddings : MatrixXf F}
    {ids : List Int} (h : Aligned idx g) (hkind : idx.index.kind = .ivfFlat)
    (hrows : embeddings.cols = 0 ∨ embeddings.rows = idx.index.d.toNat)
    (hadd : idx.addWithIds faiss embeddings.cols embeddings.data ids = .ok idx') :
    Aligned idx' (g ++ ids.zip embeddings.columns) := by
  have hread : (List.range embeddings.cols).map (rowAt embeddings.data idx.index.d.toNat) =
      embeddings.columns := by
    rcases hrows with h0 | hrows
    · simp [MatrixXf.columns, h0]
    · exact MatrixXf.read_rows hrows.symm
  have hnew := h.add hadd
  rwa [hread, keep_flat hkind, List.map_id, Aligned.zip_take_left _ _ (by simp [MatrixXf.columns])]
    at hnew

/-- `build` replaces the gallery by the columns of the matrix. -/
theorem aligned_prepare {cfg : FaissConfig} {fail : Failures} {embeddings : MatrixXf F}
    {ids : List Int} {idx : IndexIDMap F} (hkind : chosenType cfg embeddings.cols = .ivfFlat)
    (hrows : embeddings.rows < 2 ^ 32)
    (h : FaissSearcher.prepare faiss cfg fail embeddings ids = .ok idx) :
    Aligned idx (ids.zip embeddings.columns) ∧ idx.index.kind = .ivfFlat ∧
      idx.index.metric = toFaiss cfg.metric ∧ idx.index.d = UInt32.ofNat embeddings.rows := by
  have haligned := Aligned.prepare h
  rw [keptGallery, keep_flat (show (trainedIndex faiss cfg embeddings).kind = .ivfFlat from hkind), List.map_id,
    MatrixXf.read_rows (by simpa using Nat.mod_eq_of_lt hrows)] at haligned
  obtain ⟨_, _, _, _, rfl⟩ := prepare_ok.1 h
  exact ⟨haligned, hkind, rfl, rfl⟩

theorem stores_step {cfg : FaissConfig} {s s' : FaissSearcher F} {g : Gallery F} {op : Op F}
    {fail : Failures} (h : Stores cfg s g) (hflat : BuildsFlat cfg op) (hkeeps : KeepsPositions s g op)
    (hrun : (op.run faiss fail).run s = .ok () s') :
    Stores cfg s' (op.store g) := by
  obtain ⟨idx, hidx, _, rfl⟩ := op_run_ok.1 hrun
  cases op with
  | build embeddings ids =>
    obtain ⟨_, hprepare⟩ := newIndex_build_ok.1 hidx
    rw [h.cfg_eq] at hprepare
    obtain ⟨haligned, hkind, hmetric, hd⟩ := aligned_prepare hflat hkeeps hprepare
    exact stores_finish h haligned hkind hmetric hd
  | add embeddings ids =>
    obtain ⟨old, hcpu, _, hadd⟩ := newIndex_add_ok.1 hidx
    obtain ⟨_, haligned, hkind, hmetric, hd⟩ := h.built old hcpu
    have hnew := aligned_addColumns haligned hkind (hd ▸ hkeeps) hadd
    obtain ⟨_, _, rfl⟩ := addWithIds_ok.1 hadd
    exact stores_finish h hnew hkind hmetric hd
  | remove ids =>
    obtain ⟨old, hcpu, _, hremove⟩ := newIndex_remove_ok.1 hidx
    obtain ⟨_, haligned, hkind, hmetric, hd⟩ := h.built old hcpu
    have hnew := haligned.remove hkeeps hremove
    obtain ⟨_, _, rfl⟩ := removeIds_ok.1 hremove
    exact stores_finish h hnew hkind hmetric hd
  | load file => exact hkeeps.elim

theorem run_stores {cfg : FaissConfig} {s : FaissSearcher F} {g : Gallery F}
    (hrun : EnrolRun faiss cfg s g) : Stores cfg s g := by
  induction hrun with
  | new => exact ⟨rfl, by simp [GpuConfigured], fun _ => rfl, by simp⟩
  | step _ hflat hkeeps hstep ih => exact stores_step ih hflat hkeeps hstep

theorem Stores.faithful {cfg : FaissConfig} {s : FaissSearcher F} {g : Gallery F}
    (h : Stores cfg s g) : Faithful faiss s g := by
  cases hcpu : s.indexCpu with
  | none =>
    obtain rfl := h.empty hcpu
    refine ⟨by simp [FaissSearcher.size, hcpu], fun q k hits hsearch => ?_, by simp [hcpu]⟩
    rw [search_ok, hcpu] at hsearch
    simp at hsearch
  | some idx =>
    obtain ⟨hsearched, haligned, _, hmetric, hd⟩ := h.built idx hcpu
    have hsome : s.indexCpu.isSome := by simp [hcpu]
    refine ⟨by simp [FaissSearcher.size, hcpu, haligned.total], fun q k hits hsearch => ?_,
      fun _ q k hq => ⟨_, (haligned.search_ok_iff hsome hsearched).2 ⟨by rw [hd, hq], rfl⟩⟩⟩
    have := haligned.search_subperm hsome hsearched hsearch
    rwa [Aligned.asHits, hmetric, ← h.cfg_eq] at this

/-- **Identities survive every run that keeps the positions.** -/
theorem enrolRun_faithful (faiss : Faiss F) (cfg : FaissConfig) (s : FaissSearcher F)
    (g : Gallery F) (hrun : EnrolRun faiss cfg s g) : Faithful faiss s g :=
  (run_stores hrun).faithful

/-! ### Three people, one of whom leaves -/

/-- The columns of three people in two dimensions. -/
def threePeople : MatrixXf ℤ := ⟨2, 3, [1, 0, 0, 3, 1, 1], rfl⟩

/-- One cell, no GPU. -/
def oneCell : FaissConfig := { nlist := 1, gpuId := -1 }

/-- The person enrolled last leaves. -/
theorem enrolRun_faithful_lastLeaves : ∃ s : FaissSearcher ℤ, s.size = 2 ∧
    Faithful referenceFaiss s [(10, [1, 0]), (20, [0, 3])] := by
  have hbuild : ((Op.build threePeople [10, 20, 30]).run referenceFaiss {}).run { cfg := oneCell } =
      .ok () _ := rfl
  have hbuilt := EnrolRun.step .new (by decide) (by decide) hbuild
  have hremoved := EnrolRun.step hbuilt (by decide) (by decide)
    (show ((Op.remove [30]).run referenceFaiss {}).run _ = .ok () _ from rfl)
  exact ⟨_, rfl, enrolRun_faithful referenceFaiss oneCell _ _ hremoved⟩

/-- The person enrolled first leaves, and a probe of the second one is reported as the third. -/
theorem not_faithful_firstLeaves : ∃ s₁ s₂ : FaissSearcher ℤ,
    ((Op.build threePeople [10, 20, 30]).run referenceFaiss {}).run { cfg := oneCell } = .ok () s₁ ∧
    ((Op.remove [10]).run referenceFaiss {}).run s₁ = .ok () s₂ ∧
    ¬Faithful referenceFaiss s₂
      ((Op.remove [10]).store ((Op.build threePeople [10, 20, 30]).store [])) := by
  refine ⟨_, _, rfl, rfl, fun h => ?_⟩
  have hhit := (h.hits [0, 1] 1 [⟨30, 3⟩] rfl).subset (List.mem_singleton_self _)
  revert hhit
  decide

end FacePipeline.Indexing
