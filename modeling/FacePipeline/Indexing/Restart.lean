import FacePipeline.Indexing.Atomicity
import FacePipeline.Lib.Hoare

/-!
# A restart

What is saved is the CPU index alone, and a load takes everything else from the configuration and from the file.
`Mirrors` relates two searchers that store the same index, search the same one and are configured alike but for
the GPU. Every operation keeps it and comes to the same on both sides (`op_mirrors`), whatever FAISS call fails in
it but the clone. After safe steps a saved file holds all there is of a searcher, so a process that loads it goes on
where the other one was, also on a machine with a GPU when the index was built without one.
-/

namespace FacePipeline.Indexing

open FacePipeline.Config FacePipeline.Pipeline Hoare

variable {F : Type}

/-- The same searcher, with or without a GPU. -/
structure Mirrors (s t : FaissSearcher F) : Prop where
  cfg : t.cfg = { s.cfg with gpuId := t.cfg.gpuId }
  dimension : t.dimension = s.dimension
  indexCpu : t.indexCpu = s.indexCpu
  searched : t.searched = s.searched
  configured : GpuConfigured s ∧ GpuConfigured t

variable {s t : FaissSearcher F} {op : Op F} {fail : Failures}

theorem Mirrors.assignedEarly (h : Mirrors s t) : Mirrors (op.assignedEarly s) (op.assignedEarly t) := by
  cases op with
  | build embeddings ids =>
    rw [Op.assignedEarly, Op.assignedEarly]
    split_ifs
    · exact h
    · exact ⟨h.cfg, rfl, h.indexCpu, h.searched, h.configured⟩
  | add | remove | load => exact h

theorem Mirrors.finish (h : Mirrors s t) (idx : IndexIDMap F) : Mirrors (op.finish s idx) (op.finish t idx) where
  cfg := by rw [finish_cfg, finish_cfg, h.cfg]
  dimension := by
    rw [finish_dimension, finish_dimension]
    cases op with
    | build | load => rfl
    | add | remove => exact h.dimension
  indexCpu := by rw [finish_indexCpu, finish_indexCpu]
  searched := by rw [finish_searched h.configured.1, finish_searched h.configured.2]
  configured := ⟨finish_gpuConfigured h.configured.1, finish_gpuConfigured h.configured.2⟩

theorem cloneError_eq_none (hclone : fail.indexCpuToGpu = none) : op.cloneError fail s = none := by
  rw [Op.cloneError, hclone, ite_self]

variable [CommRing F] [LinearOrder F] {faiss : Faiss F}

/-- Nothing in a new index comes from the GPU. -/
theorem Mirrors.newIndex (h : Mirrors s t) : op.newIndex faiss fail t = op.newIndex faiss fail s := by
  cases op with
  | build embeddings ids =>
    rw [Op.newIndex, Op.newIndex, h.cfg]
    rfl
  | add embeddings ids => rw [Op.newIndex, Op.newIndex, h.indexCpu]
  | remove ids => rw [Op.newIndex, Op.newIndex, h.indexCpu]
  | load file => rfl

/-- An operation comes to the same on both sides, unless a clone fails. -/
theorem op_mirrors (hclone : fail.indexCpuToGpu = none) (h : Mirrors s t) :
    SameResult Mirrors ((op.run faiss fail).run s) ((op.run faiss fail).run t) := by
  rw [op_run, op_run, h.newIndex, cloneError_eq_none hclone, cloneError_eq_none hclone]
  cases op.newIndex faiss fail s with
  | error stop => exact ⟨rfl, h.assignedEarly⟩
  | ok idx => exact ⟨rfl, h.finish idx⟩

/-- No call tells the two searchers apart. -/
structure Indistinct (faiss : Faiss F) (s t : FaissSearcher F) : Prop extends SameView faiss s t where
  searchBatch : ∀ queries k, t.searchBatch faiss queries k = s.searchBatch faiss queries k
  save : t.save = s.save
  outcome : ∀ op fail, Failures.indexCpuToGpu fail = none →
    outcome ((Op.run faiss fail op).run t) = outcome ((Op.run faiss fail op).run s)

omit [CommRing F] [LinearOrder F] in
theorem outcome_eq_of_sameResult {σ τ ε α : Type} {r : σ → τ → Prop} {x : EStateM.Result ε σ α}
    {y : EStateM.Result ε τ α} (h : SameResult r x y) : outcome y = outcome x := by
  cases x with
  | ok a s =>
    cases y with
    | ok b t => exact congrArg _ h.1.symm
    | error e t => exact h.elim
  | error e s =>
    cases y with
    | ok b t => exact h.elim
    | error e' t => exact congrArg _ h.1.symm

theorem Mirrors.searchBatch (h : Mirrors s t) (queries : MatrixXf F) (k : UInt32) :
    t.searchBatch faiss queries k = s.searchBatch faiss queries k := by
  rw [FaissSearcher.searchBatch, FaissSearcher.searchBatch, h.indexCpu, h.searched]

theorem Mirrors.indistinct (faiss : Faiss F) (h : Mirrors s t) : Indistinct faiss s t where
  size := by rw [FaissSearcher.size, FaissSearcher.size, h.indexCpu]
  dimension := h.dimension
  search q k := by rw [FaissSearcher.search, FaissSearcher.search, h.searchBatch]
  searchBatch := h.searchBatch
  save := by rw [FaissSearcher.save, FaissSearcher.save, h.indexCpu]
  outcome op fail hclone := outcome_eq_of_sameResult (op_mirrors hclone h)

theorem SafeRun.reachable {cfg : FaissConfig} (h : SafeRun faiss cfg s) : Reachable faiss cfg s := by
  induction h with
  | new => exact .new
  | ok _ _ hstep ih => exact .ok ih hstep
  | throws _ _ hstep ih => exact .throws ih hstep

/-- A file holds all there is of the searcher that saved it. -/
theorem mirrors_of_load {cfg : FaissConfig} {gpuId : Int} {file : IndexIDMap F} {t' : FaissSearcher F}
    (hs : SafeRun faiss cfg s) (hsave : s.save = .ok file) (ht : Reachable faiss { cfg with gpuId } t)
    (hload : ((Op.load file).run faiss fail).run t = .ok () t') : Mirrors s t' := by
  obtain ⟨hconfigured, hsynced⟩ := safeRun_synced hs
  have hcpu : s.indexCpu = some file := by
    rw [FaissSearcher.save] at hsave
    cases hidx : s.indexCpu with
    | none =>
      rw [hidx] at hsave
      cases hsave
    | some idx =>
      rw [hidx] at hsave
      exact congrArg some (Except.ok.inj hsave)
  obtain ⟨idx, hnew, _, rfl⟩ := op_run_ok.1 hload
  obtain ⟨_, rfl⟩ := newIndex_load_ok.1 hnew
  constructor
  · rw [finish_cfg, ht.cfg_eq, hs.reachable.cfg_eq]
  · rw [finish_dimension, hsynced.dimension _ hcpu]
    rfl
  · rw [finish_indexCpu, hcpu]
  · rw [finish_searched ht.gpuConfigured, hsynced.searched, hcpu]
  · exact ⟨hconfigured, finish_gpuConfigured ht.gpuConfigured⟩

/-- **A restart shows nowhere**: after a save and a load into another process, with or without a GPU, no later
history of calls tells the searchers apart. -/
theorem restart_indistinct (faiss : Faiss F) (cfg : FaissConfig) (gpuId : Int) (s t t' : FaissSearcher F)
    (file : IndexIDMap F) (fail : Failures) (hs : SafeRun faiss cfg s) (hsave : s.save = .ok file)
    (ht : Reachable faiss { cfg with gpuId } t) (hload : ((Op.load file).run faiss fail).run t = .ok () t')
    (calls : List (Op F × Failures)) (hclone : ∀ c ∈ calls, c.2.indexCpuToGpu = none) (caught : Stop → Bool) :
    Indistinct faiss (runCalls (fun c : Op F × Failures => c.1.run faiss c.2) caught calls s)
      (runCalls (fun c : Op F × Failures => c.1.run faiss c.2) caught calls t') := by
  have hmirrors : Mirrors s t' := mirrors_of_load hs hsave ht hload
  have hcalls : Mirrors (runCalls (fun c : Op F × Failures => c.1.run faiss c.2) caught calls s)
      (runCalls (fun c : Op F × Failures => c.1.run faiss c.2) caught calls t') :=
    runCalls_related (fun c hc _ _ h => op_mirrors (hclone c hc) h) hmirrors
  exact hcalls.indistinct faiss

/-- Built without a GPU and loaded onto one; then a fourth person comes, and the first one leaves. -/
theorem restart_indistinct_ontoGpu : ∃ (s t' : FaissSearcher ℤ) (file : IndexIDMap ℤ),
    ((Op.build threePeople [10, 20, 30]).run referenceFaiss {}).run { cfg := oneCell } = .ok () s ∧
    s.save = .ok file ∧ ((Op.load file).run referenceFaiss {}).run { cfg := oneCellGpu } = .ok () t' ∧
    Indistinct referenceFaiss
      (runCalls (fun c : Op ℤ × Failures => c.1.run referenceFaiss c.2) (fun _ => true)
        [(.add onePerson [40], {}), (.remove [10], {})] s)
      (runCalls (fun c : Op ℤ × Failures => c.1.run referenceFaiss c.2) (fun _ => true)
        [(.add onePerson [40], {}), (.remove [10], {})] t') := by
  have hsafe : StepSafe referenceFaiss {} { cfg := oneCell } (.build threePeople [10, 20, 30]) := by
    refine ⟨fun _ _ => rfl, fun _ _ hop _ e he => ?_⟩
    cases hop
    cases he
  have hbuilt := SafeRun.ok .new hsafe
    (show ((Op.build threePeople [10, 20, 30]).run referenceFaiss {}).run _ = .ok () _ from rfl)
  refine ⟨_, _, _, rfl, rfl, rfl, ?_⟩
  exact restart_indistinct referenceFaiss oneCell 0 _ _ _ _ {} hbuilt rfl .new rfl _ (by simp) _

end FacePipeline.Indexing
