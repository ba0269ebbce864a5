import FacePipeline.Indexing.Identities

/-!
# Failures in the middle of an operation

`build` sets the dimension before the calls that can fail, and every operation replaces the CPU index
before it asks for the clone. `StepSafe` names the steps on which neither can be seen: no clone throws,
and a `build` that cannot prepare its index was called with the present dimension. A safe step that
throws changes no member at all (`safe_error_unchanged`), and after safe steps the index that answers
is the index that is stored (`safeRun_atomic`).
-/

namespace FacePipeline.Indexing

open FacePipeline.Config FacePipeline.Pipeline

variable {F : Type}

/-- The searches are answered from the stored index, at its dimension. -/
structure Synced (s : FaissSearcher F) : Prop where
  searched : s.searched = s.indexCpu
  dimension : ∀ idx, s.indexCpu = some idx → s.dimension = idx.index.d

variable [CommRing F] [LinearOrder F] (faiss : Faiss F)

/-- Nothing that can be asked of the searcher tells the two states apart. -/
structure SameView (s s' : FaissSearcher F) : Prop where
  size : s'.size = s.size
  dimension : s'.dimension = s.dimension
  search : ∀ q k, s'.search faiss q k = s.search faiss q k

/-- A step on which a failure leaves no trace. -/
structure StepSafe (fail : Failures) (s : FaissSearcher F) (op : Op F) : Prop where
  clone : ∀ idx, op.newIndex faiss fail s = .ok idx → op.cloneError fail s = none
  build : ∀ embeddings ids, op = .build embeddings ids → embeddings.cols = ids.length →
    ∀ e, FaissSearcher.prepare faiss s.cfg fail embeddings ids = .error (.throws e) →
      UInt32.ofNat embeddings.rows = s.dimension

/-- The searcher after operations that succeed or throw, each of them safe. -/
inductive SafeRun (cfg : FaissConfig) : FaissSearcher F → Prop where
  | new : SafeRun cfg { cfg }
  | ok {s s' op fail} : SafeRun cfg s → StepSafe faiss fail s op →
      (op.run faiss fail).run s = .ok () s' → SafeRun cfg s'
  | throws {s s' op fail e} : SafeRun cfg s → StepSafe faiss fail s op →
      (op.run faiss fail).run s = .error (.throws e) s' → SafeRun cfg s'

variable {faiss}

/-- A safe step that throws changes nothing. -/
theorem safe_error_unchanged {s s' : FaissSearcher F} {op : Op F} {fail : Failures} {e : Exn}
    (hsafe : StepSafe faiss fail s op) (hrun : (op.run faiss fail).run s = .error (.throws e) s') :
    s' = s := by
  rcases op_run_error.1 hrun with ⟨hnew, rfl⟩ | ⟨idx, e', hnew, hclone, -, -⟩
  · cases op with
    | build embeddings ids =>
      by_cases hlen : embeddings.cols = ids.length
      · have hprepare : FaissSearcher.prepare faiss s.cfg fail embeddings ids =
            .error (.throws e) := by
          simpa [Op.newIndex, hlen] using hnew
        simp [Op.assignedEarly, hlen, hsafe.build embeddings ids rfl hlen e hprepare]
      · simp [Op.assignedEarly, hlen]
    | add | remove | load => rfl
  · rw [hsafe.clone idx hnew] at hclone
    cases hclone

/-- The dimension of the new index is the one the members record for it. -/
theorem newIndex_dimension {s : FaissSearcher F} {op : Op F} {fail : Failures} {idx : IndexIDMap F}
    (h : Synced s) (hnew : op.newIndex faiss fail s = .ok idx) :
    op.newDimension s idx = idx.index.d := by
  cases op with
  | build embeddings ids =>
    obtain ⟨_, _, _, _, rfl⟩ := prepare_ok.1 (newIndex_build_ok.1 hnew).2
    rfl
  | add embeddings ids =>
    obtain ⟨old, hcpu, _, hadd⟩ := newIndex_add_ok.1 hnew
    obtain ⟨_, _, rfl⟩ := addWithIds_ok.1 hadd
    exact h.dimension old hcpu
  | remove ids =>
    obtain ⟨old, hcpu, _, hremove⟩ := newIndex_remove_ok.1 hnew
    obtain ⟨_, _, rfl⟩ := removeIds_ok.1 hremove
    exact h.dimension old hcpu
  | load file => rfl

/-- A successful operation leaves the members in step. -/
theorem synced_ok {s s' : FaissSearcher F} {op : Op F} {fail : Failures} (hgpu : GpuConfigured s)
    (h : Synced s) (hrun : (op.run faiss fail).run s = .ok () s') :
    GpuConfigured s' ∧ Synced s' := by
  obtain ⟨idx, hnew, _, rfl⟩ := op_run_ok.1 hrun
  refine ⟨finish_gpuConfigured hgpu, by rw [finish_searched hgpu, finish_indexCpu], fun idx' h' => ?_⟩
  obtain rfl : idx = idx' := by simpa using h'
  rw [finish_dimension, newIndex_dimension h hnew]

theorem safeRun_synced {cfg : FaissConfig} {s : FaissSearcher F} (hrun : SafeRun faiss cfg s) :
    GpuConfigured s ∧ Synced s := by
  induction hrun with
  | new => exact ⟨by simp [GpuConfigured], rfl, by simp⟩
  | ok _ _ hstep ih => exact synced_ok ih.1 ih.2 hstep
  | throws _ hsafe hstep ih => rwa [safe_error_unchanged hsafe hstep]

/-- **Atomicity along safe runs.** -/
theorem safeRun_atomic (faiss : Faiss F) (cfg : FaissConfig) (s : FaissSearcher F)
    (hrun : SafeRun faiss cfg s) :
    Synced s ∧ ∀ op fail e s', StepSafe faiss fail s op →
      (op.run faiss fail).run s = .error (.throws e) s' → SameView faiss s s' := by
  refine ⟨(safeRun_synced hrun).2, fun op fail e s' hsafe hstep => ?_⟩
  rw [safe_error_unchanged hsafe hstep]
  exact ⟨rfl, rfl, fun _ _ => rfl⟩

/-! ### Failures on a GPU -/

/-- One cell, on the first GPU. -/
def oneCellGpu : FaissConfig := { nlist := 1, gpuId := 0 }

/-- One more person. -/
def onePerson : MatrixXf ℤ := ⟨2, 1, [2, 2], rfl⟩

/-- `add_with_ids` throws after a successful `build`. -/
theorem safeRun_atomic_addThrows : ∃ s s' : FaissSearcher ℤ, ∃ e,
    ((Op.add onePerson [40]).run referenceFaiss { addWithIds := some e }).run s =
      .error (.throws e) s' ∧ Synced s ∧ s.size = 3 ∧ SameView referenceFaiss s s' := by
  have hsafe : StepSafe referenceFaiss {} { cfg := oneCellGpu }
      (.build threePeople [10, 20, 30]) := by
    refine ⟨fun _ _ => rfl, fun _ _ hop _ e he => ?_⟩
    cases hop
    cases he
  have hbuilt := SafeRun.ok .new hsafe
    (show ((Op.build threePeople [10, 20, 30]).run referenceFaiss {}).run _ = .ok () _ from rfl)
  obtain ⟨hsynced, hview⟩ := safeRun_atomic referenceFaiss oneCellGpu _ hbuilt
  exact ⟨_, _, .runtimeError "out of memory", rfl, hsynced, rfl,
    hview (.add onePerson [40]) { addWithIds := some (.runtimeError "out of memory") } _ _
      ⟨fun _ _ => rfl, fun _ _ hop => nomatch hop⟩ rfl⟩

/-- The clone throws during `add`: the new person is counted and saved but never found. `train` throws
during `build`: the old index is left with the dimension of the new matrix. -/
theorem not_atomic_cloneThrows : ∃ s₁ s₂ s₃ : FaissSearcher ℤ, ∃ e,
    ((Op.build threePeople [10, 20, 30]).run referenceFaiss {}).run { cfg := oneCellGpu } =
      .ok () s₁ ∧
    ((Op.add onePerson [40]).run referenceFaiss { indexCpuToGpu := some e }).run s₁ =
      .error (.throws e) s₂ ∧ ¬SameView referenceFaiss s₁ s₂ ∧ ¬Synced s₂ ∧
    ((Op.build ⟨1, 1, [2], rfl⟩ [40]).run referenceFaiss { train := some e }).run s₁ =
      .error (.throws e) s₃ ∧ ¬SameView referenceFaiss s₁ s₃ ∧ ¬Synced s₃ := by
  refine ⟨_, _, _, .runtimeError "out of memory", rfl, rfl, fun h => ?_, fun h => ?_, rfl,
    fun h => ?_, fun h => ?_⟩
  · exact absurd h.size (by decide)
  · exact absurd h.searched (by decide)
  · exact absurd h.dimension (by decide)
  · exact absurd (h.dimension _ rfl) (by decide)

end FacePipeline.Indexing
