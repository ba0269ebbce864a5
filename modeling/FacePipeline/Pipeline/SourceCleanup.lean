import FacePipeline.Pipeline.SourceRegistry

/-!
# What failed calls and removals leave behind

`add_source` takes nothing back: when it fails after its bin is in the pipeline, the bin stays, without an
entry through which `remove_source` could reach it (`addSource_untouched_iff`). `remove_source` removes the
bin and the entry but never releases the pad, so that the pads held from the muxer count the removals
(`pads_length`).
-/

namespace FacePipeline.Pipeline

open FacePipeline.Config

namespace DeepStreamPipeline

variable {p p' : DeepStreamPipeline} {gst : GstCalls} {sourceId uri : String}

/-! ### A rejected source -/

/-- The same source bins, the same pads and the same registry. -/
structure Untouched (p p' : DeepStreamPipeline) : Prop where
  bins : ∀ bin, bin ∈ p'.graph.bins ↔ bin ∈ p.graph.bins
  pads : ∀ pad, pad ∈ p'.graph.pads ↔ pad ∈ p.graph.pads
  sources : p'.sources = p.sources

/-- **A rejected source leaves the graph alone exactly when it is rejected before its bin is in.** -/
theorem addSource_untouched_iff (p : DeepStreamPipeline) (gst : GstCalls) (sourceId uri : String) :
    ((p.addSource gst sourceId uri).1 = false → Untouched p (p.addSource gst sourceId uri).2) ↔
      (p.Admits sourceId → p.Attaches gst →
        p.Requests gst ∧ gst.staticPad = true ∧ gst.padLink = true) := by
  have hexit := addSource_exit gst sourceId uri p
  generalize p.addSource gst sourceId uri = result at hexit ⊢
  cases hexit with
  | refused hadmits =>
    exact iff_of_true (fun _ => ⟨fun _ => Iff.rfl, fun _ => Iff.rfl, rfl⟩) fun h => absurd h hadmits
  | notAttached _ hattaches =>
    exact iff_of_true (fun _ => ⟨fun _ => Iff.rfl, fun _ => Iff.rfl, rfl⟩) fun _ h => absurd h hattaches
  | notConnected hadmits hattaches hconnects =>
    refine iff_of_false (fun huntouched => ?_) fun h => hconnects (h hadmits hattaches)
    -- the bin of this call is in the pipeline now, and was not before
    have hbin : (⟨binName p.nextSourceIndex, uri, false⟩ : SourceBin) ∈ (p.attached gst uri).bins :=
      List.mem_append_right _ List.mem_cons_self
    exact hattaches.2.2 (List.mem_map_of_mem (((huntouched rfl).bins _).1 hbin))
  | added _ _ hrequests hstatic hlink =>
    exact iff_of_true (fun h => by cases h) fun _ _ => ⟨hrequests, hstatic, hlink⟩

/-- A link that fails leaves a bin and a pad that no call can remove. -/
theorem not_untouched_padLink : ∃ p, new {} true true = .ok p ∧
    (p.addSource { padLink := false } "a" "rtsp://a").1 = false ∧
    ¬Untouched p (p.addSource { padLink := false } "a" "rtsp://a").2 ∧
    (p.addSource { padLink := false } "a" "rtsp://a").2.graph.bins.map (·.name) = ["src-bin-0"] ∧
    (p.addSource { padLink := false } "a" "rtsp://a").2.graph.pads = ["sink_0"] ∧
    ((p.addSource { padLink := false } "a" "rtsp://a").2.removeSource "a").1 = false := by
  refine ⟨_, rfl, rfl, fun h => ?_, by decide, by decide, rfl⟩
  exact absurd ((h.pads "sink_0").1 (by decide)) (by decide)

/-! ### A removed source -/

/-- The call removes a source that is registered. -/
def Op.Removes (p : DeepStreamPipeline) : Op → Prop
  | .remove sourceId => sourceId ∈ p.sources
  | _ => False

instance (p : DeepStreamPipeline) (op : Op) : Decidable (op.Removes p) :=
  match op with
  | .remove sourceId => inferInstanceAs (Decidable (sourceId ∈ p.sources))
  | .add _ _ _ => inferInstanceAs (Decidable False)
  | .setRunning _ => inferInstanceAs (Decidable False)

/-- The removals of registered sources in a run. -/
def removals : List Op → DeepStreamPipeline → ℕ
  | [], _ => 0
  | op :: ops, p => (if op.Removes p then 1 else 0) + removals ops (p.exec op).2

/-- Every `add_source` of the run returns `true`. -/
def NoAddFails : List Op → DeepStreamPipeline → Prop
  | [], _ => True
  | op :: ops, p => (op.isAdd = true → (p.exec op).1 = true) ∧ NoAddFails ops (p.exec op).2

theorem length_erase_keys (hmem : sourceId ∈ p.sources) :
    (p.sources.erase sourceId).keys.length + 1 = p.sourceCount := by
  rw [AList.keys_erase, List.length_erase_of_mem (AList.mem_keys.1 hmem), sourceCount]
  exact Nat.sub_add_cancel (List.length_pos_of_mem (AList.mem_keys.1 hmem))

/-- One call: a source that comes brings a pad, a source that goes leaves it. -/
theorem exec_pads (op : Op) (hadd : op.isAdd = true → (p.exec op).1 = true) :
    (p.exec op).2.graph.pads.length + p.sourceCount =
      p.graph.pads.length + (p.exec op).2.sourceCount + if op.Removes p then 1 else 0 := by
  cases op with
  | setRunning running => rfl
  | remove sourceId =>
    show (p.removeSource sourceId).2.graph.pads.length + p.sourceCount =
      p.graph.pads.length + (p.removeSource sourceId).2.sourceCount + if sourceId ∈ p.sources then 1 else 0
    rw [removeSource]
    cases hidx : p.sources.lookup sourceId with
    | none =>
      rw [if_neg (AList.lookup_eq_none.1 hidx)]
      rfl
    | some idx =>
      have hmem : sourceId ∈ p.sources := AList.lookup_isSome.1 (by rw [hidx]; rfl)
      have hpads : (p.graph.binRemove (binName idx)).pads = p.graph.pads := by
        rw [Graph.binRemove]
        split_ifs <;> rfl
      rw [if_pos hmem, ← length_erase_keys hmem]
      show (p.graph.binRemove (binName idx)).pads.length + _ = _
      rw [hpads, Nat.add_assoc]
      rfl
  | add gst sourceId uri =>
    have hadd : (p.addSource gst sourceId uri).1 = true := hadd rfl
    show (p.addSource gst sourceId uri).2.graph.pads.length + p.sourceCount =
      p.graph.pads.length + (p.addSource gst sourceId uri).2.sourceCount + 0
    have hexit := addSource_exit gst sourceId uri p
    generalize p.addSource gst sourceId uri = result at hadd hexit ⊢
    cases hexit with
    | refused _ => cases hadd
    | notAttached _ _ => cases hadd
    | notConnected _ _ _ => cases hadd
    | added hadmits _ hrequests _ _ =>
      show (p.linked gst uri).pads.length + p.sourceCount =
        p.graph.pads.length + (p.sources.insert sourceId p.nextSourceIndex).keys.length + 0
      rw [linked_pads, attached, if_pos hrequests, sourceCount_insert hadmits.2]
      simp only [List.length_append, List.length_singleton]
      omega

/-- A run: the pads held are those of the sources, and those of all removed ones. -/
theorem pads_length (ops : List Op) (hadds : NoAddFails ops p) :
    (p.execAll ops).graph.pads.length + p.sourceCount =
      p.graph.pads.length + (p.execAll ops).sourceCount + removals ops p := by
  induction ops generalizing p with
  | nil => rfl
  | cons op ops ih =>
    have hstep := exec_pads op hadds.1
    have hrest := ih hadds.2
    show ((p.exec op).2.execAll ops).graph.pads.length + p.sourceCount =
      p.graph.pads.length + ((p.exec op).2.execAll ops).sourceCount +
        ((if op.Removes p then 1 else 0) + removals ops (p.exec op).2)
    omega

/-- What the removal of a source owes: its entry, its bin and its pad are gone, and nothing else. -/
structure Undone (sourceId : String) (idx : Int32) (p p' : DeepStreamPipeline) : Prop where
  entry : p'.sources = p.sources.erase sourceId
  bin : binName idx ∉ p'.graph.bins.map (·.name)
  pad : muxPadName idx ∉ p'.graph.pads
  others : ∀ id idx', id ≠ sourceId → p.sources.lookup id = some idx' →
    p'.sources.lookup id = some idx' ∧ SameBin (binName idx') p.graph p'.graph

/-- A removal does all of it but for the pad. -/
theorem removeSource_leaves_pad (h : Wired p) {idx : Int32} (hid : p.sources.lookup sourceId = some idx) :
    (p.removeSource sourceId).1 = true ∧
      (p.removeSource sourceId).2.sources = p.sources.erase sourceId ∧
      binName idx ∉ (p.removeSource sourceId).2.graph.bins.map (·.name) ∧
      muxPadName idx ∈ (p.removeSource sourceId).2.graph.pads := by
  have hpad : muxPadName idx ∈ (p.graph.binRemove (binName idx)).pads := by
    have hpads := (h.sources sourceId idx hid).pad
    rw [Graph.binRemove]
    split_ifs <;> exact hpads
  have hbin : binName idx ∉ (p.graph.binRemove (binName idx)).bins.map (·.name) := by
    rw [Graph.binRemove_names]
    exact h.names.not_mem_erase
  simp only [removeSource, hid]
  exact ⟨trivial, trivial, hbin, hpad⟩

/-- Calls about other sources leave a source where it is. -/
theorem execAll_others (h : Wired p) {idx : Int32} (hid : p.sources.lookup sourceId = some idx)
    (ops : List Op) (hops : ∀ op ∈ ops, op.sourceId ≠ some sourceId) :
    (p.execAll ops).sources.lookup sourceId = some idx := by
  induction ops generalizing p with
  | nil => exact hid
  | cons op ops ih =>
    rw [List.forall_mem_cons] at hops
    exact ih (exec_wired h op) (exec_other h op hops.1 hid).1 hops.2

theorem lookup_of_added (h : (p.addSource gst sourceId uri).1 = true) :
    (p.addSource gst sourceId uri).2.sources.lookup sourceId = some p.nextSourceIndex := by
  have hexit := addSource_exit gst sourceId uri p
  generalize p.addSource gst sourceId uri = result at h hexit ⊢
  cases hexit with
  | refused _ => cases h
  | notAttached _ _ => cases h
  | notConnected _ _ _ => cases h
  | added _ _ _ _ _ => exact AList.lookup_insert _

/-- **The muxer's pads match the sources exactly in the runs that remove none.** A source that comes and
goes leaves its pad, whatever happens to other sources in between. -/
theorem pads_eq_sourceCount_iff (cfg : PipelineConfig) (created linked : Bool) (p : DeepStreamPipeline)
    (ops : List Op) (hnew : new cfg created linked = .ok p) :
    (NoAddFails ops p →
      ((p.execAll ops).graph.pads.length = (p.execAll ops).sourceCount ↔ removals ops p = 0)) ∧
    ∀ gst sourceId uri others, ((p.execAll ops).addSource gst sourceId uri).1 = true →
      (∀ op ∈ others, op.sourceId ≠ some sourceId) →
      ¬Undone sourceId (p.execAll ops).nextSourceIndex
        (((p.execAll ops).addSource gst sourceId uri).2.execAll others)
        ((((p.execAll ops).addSource gst sourceId uri).2.execAll others).removeSource sourceId).2 := by
  obtain rfl := new_ok hnew
  refine ⟨fun hadds => ?_, fun gst sourceId uri others hadded hothers hundone => ?_⟩
  · have hlength : _ + 0 = 0 + _ + removals ops { cfg } := pads_length ops hadds
    omega
  · have hwired := addSource_wired (execAll_wired (new_wired cfg) ops) gst sourceId uri
    have hid := execAll_others hwired (lookup_of_added hadded) others hothers
    exact hundone.pad (removeSource_leaves_pad (execAll_wired hwired others) hid).2.2.2

/-- Two cameras that stay. -/
theorem pads_eq_sourceCount_iff_two :
    (execAll [.add {} "a" "rtsp://a", .add {} "b" "rtsp://b"] { cfg := {} }).graph.pads.length = 2 ∧
    ¬Undone "c" 2
      (addSource {} "c" "rtsp://c"
        (execAll [.add {} "a" "rtsp://a", .add {} "b" "rtsp://b"] { cfg := {} })).2
      ((addSource {} "c" "rtsp://c"
        (execAll [.add {} "a" "rtsp://a", .add {} "b" "rtsp://b"] { cfg := {} })).2.removeSource "c").2 := by
  obtain ⟨hcount, hundone⟩ := pads_eq_sourceCount_iff {} true true _
    [.add {} "a" "rtsp://a", .add {} "b" "rtsp://b"] rfl
  exact ⟨(hcount ⟨fun _ => rfl, fun _ => rfl, trivial⟩).2 rfl, hundone {} "c" "rtsp://c" [] rfl (by simp)⟩

/-- A camera that comes and goes leaves a pad that is nobody's. -/
theorem not_undone_reconnect : ∃ p, new {} true true = .ok p ∧
    NoAddFails [.add {} "a" "rtsp://a", .remove "a"] p ∧
    (p.execAll [.add {} "a" "rtsp://a", .remove "a"]).sourceCount = 0 ∧
    (p.execAll [.add {} "a" "rtsp://a", .remove "a"]).graph = { pads := ["sink_0"] } ∧
    ¬Undone "a" 0 (p.execAll [.add {} "a" "rtsp://a"])
      ((p.execAll [.add {} "a" "rtsp://a"]).removeSource "a").2 := by
  refine ⟨_, rfl, ⟨fun _ => rfl, nofun, trivial⟩, rfl, by decide, fun h => ?_⟩
  exact absurd h.pad (by decide)

end DeepStreamPipeline

end FacePipeline.Pipeline
