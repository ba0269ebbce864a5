import FacePipeline.Pipeline.DeepStreamPipeline

/-!
# The registry of sources

A registered source has an index, and its bin and its pad are found again by names made of that index.
`Wired` says that the names lead to exactly one bin and one link for each source. It is kept by every call
(`exec_wired`) because `gst_bin_add` refuses a name that is taken: the bin of a new source has another name
than those of the sources that are registered. The orphans that failed calls leave behind only use up names.
-/

namespace FacePipeline.Pipeline

open FacePipeline.Config

theorem binName_inj {i j : Int32} : binName i = binName j ↔ i = j := by
  rw [binName, binName, String.append_right_inj]
  exact ⟨fun h => Int32.toInt_inj.1 (Int.repr_injective h), fun h => h ▸ rfl⟩

/-! ### What the graph keeps under a name -/

/-- The bins and the links of that name are the same. -/
structure SameBin (name : String) (g g' : Graph) : Prop where
  bins : g'.bins.filter (·.name = name) = g.bins.filter (·.name = name)
  links : g'.links.filter (·.1 = name) = g.links.filter (·.1 = name)
  pads : g.pads ⊆ g'.pads

/-- A bin of that index stands in the pipeline, with one link, to the pad of the same index. -/
structure Connected (g : Graph) (idx : Int32) : Prop where
  bin : binName idx ∈ g.bins.map (·.name)
  link : g.links.filter (·.1 = binName idx) = [(binName idx, muxPadName idx)]
  pad : muxPadName idx ∈ g.pads

theorem SameBin.connected {idx : Int32} {g g' : Graph} (hsame : SameBin (binName idx) g g')
    (h : Connected g idx) : Connected g' idx := by
  refine ⟨?_, hsame.links.trans h.link, hsame.pads h.pad⟩
  obtain ⟨bin, hbin, hname⟩ := List.mem_map.1 h.bin
  have hmem : bin ∈ g.bins.filter (·.name = binName idx) := List.mem_filter.2 ⟨hbin, by simpa using hname⟩
  rw [← hsame.bins] at hmem
  exact List.mem_map.2 ⟨bin, (List.mem_filter.1 hmem).1, hname⟩

namespace Graph

variable {g : Graph} {name name' : String}

theorem syncState_names : (g.syncState name).bins.map (·.name) = g.bins.map (·.name) := by
  rw [syncState, List.map_map]
  apply List.map_congr_left
  intro bin _
  show (if bin.name = name then { bin with synced := true } else bin).name = bin.name
  split_ifs <;> rfl

theorem syncState_same (hne : name' ≠ name) : SameBin name' g (g.syncState name) := by
  refine ⟨?_, rfl, List.Subset.refl _⟩
  rw [syncState, List.filter_map]
  have hname : ((fun bin : SourceBin => decide (bin.name = name')) ∘ fun bin =>
      if bin.name = name then { bin with synced := true } else bin) = fun bin => decide (bin.name = name') := by
    funext bin
    show decide ((if bin.name = name then { bin with synced := true } else bin).name = name') = _
    split_ifs <;> rfl
  rw [hname]
  refine (List.map_congr_left fun bin hbin => ?_).trans (List.map_id _)
  have hbin : bin.name = name' := by simpa using (List.mem_filter.1 hbin).2
  rw [if_neg fun heq => hne (hbin.symm.trans heq)]
  rfl

theorem filter_eraseP {bins : List SourceBin} (hne : name' ≠ name) :
    (bins.eraseP fun bin => bin.name = name).filter (·.name = name') = bins.filter (·.name = name') := by
  rcases List.exists_or_eq_self_of_eraseP (fun bin : SourceBin => decide (bin.name = name)) bins with
    heq | ⟨bin, l₁, l₂, _, hbin, hbins, herase⟩
  · rw [heq]
  · have hbin : ¬bin.name = name' := fun heq => hne (heq.symm.trans (by simpa using hbin))
    rw [herase, hbins, List.filter_append, List.filter_append,
      List.filter_cons_of_neg (by simpa using hbin)]

theorem binRemove_same (hne : name' ≠ name) : SameBin name' g (g.binRemove name) := by
  rw [binRemove]
  split_ifs
  · refine ⟨filter_eraseP hne, ?_, List.Subset.refl _⟩
    rw [List.filter_filter]
    apply List.filter_congr
    intro link _
    by_cases hlink : link.1 = name'
    · simp [hlink, hne]
    · simp [hlink]
  · exact ⟨rfl, rfl, List.Subset.refl _⟩

theorem binRemove_names : (g.binRemove name).bins.map (·.name) = (g.bins.map (·.name)).erase name := by
  rw [binRemove]
  split_ifs with hmem
  · rw [List.erase_eq_eraseP', List.eraseP_map]
    rfl
  · rw [List.erase_of_not_mem hmem]

/-- A link that is left is not one of the removed bin. -/
theorem mem_binRemove_links {link : String × String} (hlinks : ∀ l ∈ g.links, l.1 ∈ g.bins.map (·.name))
    (h : link ∈ (g.binRemove name).links) : link ∈ g.links ∧ link.1 ≠ name := by
  rw [binRemove] at h
  split_ifs at h with hmem
  · simpa using h
  · exact ⟨h, fun heq => hmem (heq ▸ hlinks link h)⟩

end Graph

namespace DeepStreamPipeline

/-- Names lead from a registered source to its bin, its link and its pad. -/
structure Wired (p : DeepStreamPipeline) : Prop where
  count : p.sourceCount ≤ p.cfg.maxStreams.toNat
  names : (p.graph.bins.map (·.name)).Nodup
  links : ∀ l ∈ p.graph.links, l.1 ∈ p.graph.bins.map (·.name)
  sources : ∀ id idx, p.sources.lookup id = some idx → Connected p.graph idx
  distinct : ∀ id id' idx, p.sources.lookup id = some idx → p.sources.lookup id' = some idx → id = id'

variable {p : DeepStreamPipeline} {gst : GstCalls} {sourceId uri : String}

/-! ### The graph of a new source -/

theorem attached_names (p : DeepStreamPipeline) (gst : GstCalls) (uri : String) : (p.attached gst uri).bins.map (·.name) =
    p.graph.bins.map (·.name) ++ [binName p.nextSourceIndex] := by
  simp [attached]

theorem attached_same {name : String} (hne : name ≠ binName p.nextSourceIndex) :
    SameBin name p.graph (p.attached gst uri) := by
  refine ⟨?_, rfl, List.subset_append_left _ _⟩
  have hnew : ¬(SourceBin.mk (binName p.nextSourceIndex) uri false).name = name := fun heq => hne heq.symm
  simp only [attached, List.filter_append]
  rw [List.filter_cons_of_neg (by simpa using hnew), List.filter_nil, List.append_nil]

theorem linked_names : (p.linked gst uri).bins.map (·.name) =
    p.graph.bins.map (·.name) ++ [binName p.nextSourceIndex] := by
  rw [linked]
  split_ifs
  · exact Graph.syncState_names.trans (attached_names p gst uri)
  · exact attached_names p gst uri

theorem linked_pads : (p.linked gst uri).pads = (p.attached gst uri).pads := by
  rw [linked]
  split_ifs <;> rfl

theorem linked_links : (p.linked gst uri).links =
    p.graph.links ++ [(binName p.nextSourceIndex, muxPadName p.nextSourceIndex)] := by
  rw [linked]
  split_ifs <;> rfl

theorem linked_same {name : String} (hne : name ≠ binName p.nextSourceIndex) :
    SameBin name p.graph (p.linked gst uri) := by
  have hattached : SameBin name p.graph (p.attached gst uri) := attached_same hne
  refine ⟨?_, ?_, ?_⟩
  · rw [← hattached.bins, linked]
    split_ifs
    · exact (Graph.syncState_same hne).bins
    · rfl
  · have hnew : ¬(binName p.nextSourceIndex, muxPadName p.nextSourceIndex).1 = name :=
      fun heq => hne heq.symm
    rw [linked_links, List.filter_append, List.filter_cons_of_neg (by simpa using hnew),
      List.filter_nil, List.append_nil]
  · rw [linked_pads]
    exact hattached.pads

/-! ### Every call keeps the wiring -/

theorem Wired.fresh (h : Wired p) (hattaches : p.Attaches gst) {id : String} {idx : Int32}
    (hid : p.sources.lookup id = some idx) : binName idx ≠ binName p.nextSourceIndex := fun heq =>
  hattaches.2.2 (heq ▸ (h.sources id idx hid).bin)

theorem sourceCount_insert (hnew : sourceId ∉ p.sources) (idx : Int32) :
    (p.sources.insert sourceId idx).keys.length = p.sourceCount + 1 := by
  rw [AList.keys_insert, List.erase_of_not_mem fun hmem => hnew (AList.mem_keys.2 hmem),
    List.length_cons, sourceCount]

theorem wired_attached (h : Wired p) (hattaches : p.Attaches gst) :
    Wired { p.counted with graph := p.attached gst uri } := by
  refine ⟨h.count, ?_, fun l hl => ?_, fun id idx hid => ?_, h.distinct⟩
  · show ((p.attached gst uri).bins.map (·.name)).Nodup
    rw [attached_names, ← List.concat_eq_append]
    exact List.Nodup.concat hattaches.2.2 h.names
  · show l.1 ∈ (p.attached gst uri).bins.map (·.name)
    rw [attached_names]
    exact List.mem_append_left _ (h.links l hl)
  · exact (attached_same (h.fresh hattaches hid)).connected (h.sources id idx hid)

/-- The new source is connected under a name of its own. -/
theorem connected_linked (h : Wired p) (hattaches : p.Attaches gst) (hrequests : p.Requests gst) :
    Connected (p.linked gst uri) p.nextSourceIndex := by
  refine ⟨?_, ?_, ?_⟩
  · rw [linked_names]
    exact List.mem_append_right _ List.mem_cons_self
  · rw [linked_links, List.filter_append]
    have hnone : p.graph.links.filter (·.1 = binName p.nextSourceIndex) = [] := by
      rw [List.filter_eq_nil_iff]
      intro l hl heq
      exact hattaches.2.2 ((of_decide_eq_true heq) ▸ h.links l hl)
    rw [hnone]
    simp
  · rw [linked_pads, attached, if_pos hrequests]
    exact List.mem_append_right _ List.mem_cons_self

theorem wired_added (h : Wired p) (hadmits : p.Admits sourceId) (hattaches : p.Attaches gst)
    (hrequests : p.Requests gst) :
    Wired { p.counted with graph := p.linked gst uri
                           sources := p.sources.insert sourceId p.nextSourceIndex } := by
  have hlookup : ∀ id idx, (p.sources.insert sourceId p.nextSourceIndex).lookup id = some idx →
      id = sourceId ∧ idx = p.nextSourceIndex ∨ id ≠ sourceId ∧ p.sources.lookup id = some idx := by
    intro id idx hid
    by_cases heq : id = sourceId
    · subst heq
      rw [AList.lookup_insert] at hid
      exact .inl ⟨rfl, (Option.some.inj hid).symm⟩
    · rw [AList.lookup_insert_ne heq] at hid
      exact .inr ⟨heq, hid⟩
  refine ⟨?_, ?_, fun l hl => ?_, fun id idx hid => ?_, fun id id' idx hid hid' => ?_⟩
  · show (p.sources.insert sourceId p.nextSourceIndex).keys.length ≤ _
    rw [sourceCount_insert hadmits.2]
    exact hadmits.1
  · show ((p.linked gst uri).bins.map (·.name)).Nodup
    rw [linked_names, ← List.concat_eq_append]
    exact List.Nodup.concat hattaches.2.2 h.names
  · show l.1 ∈ (p.linked gst uri).bins.map (·.name)
    rw [linked_names]
    rw [linked_links, List.mem_append, List.mem_singleton] at hl
    rcases hl with hl | rfl
    · exact List.mem_append_left _ (h.links l hl)
    · exact List.mem_append_right _ List.mem_cons_self
  · rcases hlookup id idx hid with ⟨_, rfl⟩ | ⟨_, hid⟩
    · exact connected_linked h hattaches hrequests
    · exact (linked_same (h.fresh hattaches hid)).connected (h.sources id idx hid)
  · rcases hlookup id idx hid with ⟨rfl, rfl⟩ | ⟨_, hid⟩
    · rcases hlookup id' _ hid' with ⟨rfl, _⟩ | ⟨_, hid'⟩
      · rfl
      · exact absurd rfl (h.fresh hattaches hid')
    · rcases hlookup id' idx hid' with ⟨_, rfl⟩ | ⟨_, hid'⟩
      · exact absurd rfl (h.fresh hattaches hid)
      · exact h.distinct id id' idx hid hid'

theorem addSource_wired (h : Wired p) (gst : GstCalls) (sourceId uri : String) :
    Wired (p.addSource gst sourceId uri).2 := by
  have hexit := addSource_exit gst sourceId uri p
  generalize p.addSource gst sourceId uri = result at hexit ⊢
  cases hexit with
  | refused _ => exact h
  | notAttached _ _ => exact ⟨h.count, h.names, h.links, h.sources, h.distinct⟩
  | notConnected _ hattaches _ => exact wired_attached h hattaches
  | added hadmits hattaches hrequests _ _ => exact wired_added h hadmits hattaches hrequests

theorem removeSource_wired (h : Wired p) (sourceId : String) : Wired (p.removeSource sourceId).2 := by
  rw [removeSource]
  cases hidx : p.sources.lookup sourceId with
  | none => exact h
  | some idx =>
    have hlookup : ∀ id idx', (p.sources.erase sourceId).lookup id = some idx' →
        p.sources.lookup id = some idx' ∧ binName idx' ≠ binName idx := by
      intro id idx' hid
      have hne : id ≠ sourceId := fun heq => by
        rw [heq, AList.lookup_erase] at hid
        cases hid
      rw [AList.lookup_erase_ne hne] at hid
      refine ⟨hid, fun heq => hne (h.distinct id sourceId idx' hid ?_)⟩
      rw [hidx, binName_inj.1 heq]
    refine ⟨?_, ?_, fun l hl => ?_, fun id idx' hid => ?_, fun id id' idx' hid hid' => ?_⟩
    · show (p.sources.erase sourceId).keys.length ≤ _
      rw [AList.keys_erase]
      exact le_trans List.length_erase_le h.count
    · show ((p.graph.binRemove (binName idx)).bins.map (·.name)).Nodup
      rw [Graph.binRemove_names]
      exact h.names.erase _
    · show l.1 ∈ (p.graph.binRemove (binName idx)).bins.map (·.name)
      obtain ⟨hl, hne⟩ := Graph.mem_binRemove_links h.links hl
      rw [Graph.binRemove_names]
      exact (List.mem_erase_of_ne hne).2 (h.links l hl)
    · obtain ⟨hid, hne⟩ := hlookup id idx' hid
      exact (Graph.binRemove_same hne).connected (h.sources id idx' hid)
    · exact h.distinct id id' idx' (hlookup id idx' hid).1 (hlookup id' idx' hid').1

theorem exec_wired (h : Wired p) (op : Op) : Wired (p.exec op).2 := by
  cases op with
  | add gst sourceId uri => exact addSource_wired h gst sourceId uri
  | remove sourceId => exact removeSource_wired h sourceId
  | setRunning running => exact ⟨h.count, h.names, h.links, h.sources, h.distinct⟩

/-! ### What a call leaves alone -/

theorem SameBin.refl (name : String) (g : Graph) : SameBin name g g :=
  ⟨rfl, rfl, List.Subset.refl _⟩

/-- A call about one source does not touch the others. -/
theorem exec_other (h : Wired p) (op : Op) {id : String} {idx : Int32} (hop : op.sourceId ≠ some id)
    (hid : p.sources.lookup id = some idx) :
    (p.exec op).2.sources.lookup id = some idx ∧ SameBin (binName idx) p.graph (p.exec op).2.graph := by
  cases op with
  | setRunning running => exact ⟨hid, SameBin.refl _ _⟩
  | add gst sourceId uri =>
    have hne : id ≠ sourceId := fun heq => hop (congrArg some heq.symm)
    have hexit : AddExit gst sourceId uri p (p.exec (.add gst sourceId uri)) := addSource_exit gst sourceId uri p
    generalize p.exec (.add gst sourceId uri) = result at hexit ⊢
    cases hexit with
    | refused _ => exact ⟨hid, SameBin.refl _ _⟩
    | notAttached _ _ => exact ⟨hid, SameBin.refl _ _⟩
    | notConnected _ hattaches _ => exact ⟨hid, attached_same (h.fresh hattaches hid)⟩
    | added _ hattaches _ _ _ =>
      exact ⟨(AList.lookup_insert_ne hne).trans hid, linked_same (h.fresh hattaches hid)⟩
  | remove sourceId =>
    have hne : id ≠ sourceId := fun heq => hop (congrArg some heq.symm)
    show (p.removeSource sourceId).2.sources.lookup id = some idx ∧
      SameBin (binName idx) p.graph (p.removeSource sourceId).2.graph
    rw [removeSource]
    cases hidx : p.sources.lookup sourceId with
    | none => exact ⟨hid, SameBin.refl _ _⟩
    | some idx' =>
      refine ⟨(AList.lookup_erase_ne hne).trans hid, Graph.binRemove_same fun heq => hne ?_⟩
      exact h.distinct id sourceId idx hid (hidx.trans (congrArg some (binName_inj.1 heq).symm))

/-! ### Indices -/

/-- After `n` calls of `add_source`. -/
structure Indexed (n : ℕ) (p : DeepStreamPipeline) : Prop where
  next : 0 ≤ p.nextSourceIndex.toInt ∧ p.nextSourceIndex.toInt ≤ n
  below : ∀ id idx, p.sources.lookup id = some idx →
    0 ≤ idx.toInt ∧ idx.toInt < p.nextSourceIndex.toInt

theorem toInt_succ {i : Int32} (hpos : 0 ≤ i.toInt) (hlt : i.toInt + 1 < 2 ^ 31) :
    (i + 1).toInt = i.toInt + 1 := by
  rw [Int32.toInt_add, Int32.toInt_one]
  exact Int.bmod_eq_of_le (by omega) (by omega)

theorem Indexed.counted {n : ℕ} (h : Indexed n p) (hlt : n + 1 < 2 ^ 31) : Indexed (n + 1) p.counted := by
  obtain ⟨hpos, hle⟩ := h.next
  have hnext : p.counted.nextSourceIndex.toInt = p.nextSourceIndex.toInt + 1 :=
    toInt_succ hpos (by omega)
  refine ⟨by omega, fun id idx hid => ?_⟩
  have := h.below id idx hid
  omega

theorem exec_indexed {n : ℕ} (h : Indexed n p) (op : Op)
    (hlt : n + (if op.isAdd then 1 else 0) < 2 ^ 31) :
    Indexed (n + if op.isAdd then 1 else 0) (p.exec op).2 := by
  cases op with
  | setRunning running => exact ⟨h.next, h.below⟩
  | remove sourceId =>
    show Indexed n (p.removeSource sourceId).2
    rw [removeSource]
    cases hidx : p.sources.lookup sourceId with
    | none => exact h
    | some idx =>
      refine ⟨h.next, fun id idx' hid => h.below id idx' ?_⟩
      by_cases heq : id = sourceId
      · rw [heq] at hid
        exact absurd ((AList.lookup_erase _ _).symm.trans hid) (by simp)
      · exact (AList.lookup_erase_ne heq).symm.trans hid
  | add gst sourceId uri =>
    have hlt : n + 1 < 2 ^ 31 := hlt
    have hcounted := h.counted hlt
    have hexit : AddExit gst sourceId uri p (p.exec (.add gst sourceId uri)) := addSource_exit gst sourceId uri p
    generalize p.exec (.add gst sourceId uri) = result at hexit ⊢
    cases hexit with
    | refused _ => exact ⟨⟨h.next.1, by have := h.next.2; push_cast; omega⟩, h.below⟩
    | notAttached _ _ => exact hcounted
    | notConnected _ _ _ => exact ⟨hcounted.next, hcounted.below⟩
    | added _ _ _ _ _ =>
      refine ⟨hcounted.next, fun id idx hid => ?_⟩
      by_cases heq : id = sourceId
      · subst heq
        obtain rfl : p.nextSourceIndex = idx := by simpa using (AList.lookup_insert _).symm.trans hid
        refine ⟨h.next.1, ?_⟩
        show p.nextSourceIndex.toInt < (p.nextSourceIndex + 1).toInt
        rw [toInt_succ h.next.1 (by have := h.next.2; omega)]
        omega
      · exact hcounted.below id idx ((AList.lookup_insert_ne heq).symm.trans hid)

/-! ### Runs -/

theorem new_ok {cfg : PipelineConfig} {created linked : Bool} (h : new cfg created linked = .ok p) :
    p = { cfg } := by
  rw [new] at h
  split_ifs at h
  exact (Except.ok.inj h).symm

theorem new_wired (cfg : PipelineConfig) : Wired { cfg } :=
  ⟨Nat.zero_le _, List.nodup_nil, by simp, by simp, by simp⟩

theorem new_indexed (cfg : PipelineConfig) : Indexed 0 { cfg } :=
  ⟨show 0 ≤ (0 : Int32).toInt ∧ (0 : Int32).toInt ≤ (0 : ℕ) by decide, by simp⟩

theorem execAll_wired (h : Wired p) (ops : List Op) : Wired (p.execAll ops) := by
  induction ops generalizing p with
  | nil => exact h
  | cons op ops ih => exact ih (exec_wired h op)

theorem execAll_indexed {n : ℕ} (h : Indexed n p) (ops : List Op) (hlt : n + ops.countP Op.isAdd < 2 ^ 31) :
    Indexed (n + ops.countP Op.isAdd) (p.execAll ops) := by
  induction ops generalizing n p with
  | nil => exact h
  | cons op ops ih =>
    have hcount : n + (op :: ops).countP Op.isAdd =
        n + (if op.isAdd then 1 else 0) + ops.countP Op.isAdd := by
      rw [List.countP_cons]
      omega
    rw [hcount] at hlt ⊢
    exact ih (exec_indexed h op (by omega)) hlt

/-- What clients may rely on in every state. -/
structure RegistryInvariant (p : DeepStreamPipeline) : Prop where
  count : p.sourceCount ≤ p.cfg.maxStreams.toNat
  distinct : ∀ id id' idx, p.sources.lookup id = some idx → p.sources.lookup id' = some idx → id = id'
  below : ∀ id idx, p.sources.lookup id = some idx →
    0 ≤ idx.toInt ∧ idx.toInt < p.nextSourceIndex.toInt
  bin : ∀ id idx, p.sources.lookup id = some idx →
    ∃ bin, p.graph.bins.filter (·.name = binName idx) = [bin]
  link : ∀ id idx, p.sources.lookup id = some idx → muxPadName idx ∈ p.graph.pads ∧
    p.graph.links.filter (·.1 = binName idx) = [(binName idx, muxPadName idx)]
  refusedAdd : ∀ gst sourceId uri, sourceId ∈ p.sources ∨ p.cfg.maxStreams.toNat ≤ p.sourceCount →
    p.addSource gst sourceId uri = (false, p)
  refusedRemove : ∀ sourceId, sourceId ∉ p.sources → p.removeSource sourceId = (false, p)
  others : ∀ op id idx, op.sourceId ≠ some id → p.sources.lookup id = some idx →
    (p.exec op).2.sources.lookup id = some idx ∧ SameBin (binName idx) p.graph (p.exec op).2.graph

/-- A name that occurs once is that of one bin. -/
theorem filter_eq_singleton {bins : List SourceBin} (hnodup : (bins.map (·.name)).Nodup) {name : String}
    (hmem : name ∈ bins.map (·.name)) : ∃ bin, bins.filter (·.name = name) = [bin] := by
  have hcount := List.count_eq_one_of_mem hnodup hmem
  rw [List.count, List.countP_map, List.countP_eq_length_filter, List.length_eq_one_iff] at hcount
  exact hcount

theorem registryInvariant_of_wired (h : Wired p) {n : ℕ} (hindexed : Indexed n p) :
    RegistryInvariant p := by
  refine ⟨h.count, h.distinct, hindexed.below, fun id idx hid => ?_, fun id idx hid => ?_,
    fun gst sourceId uri hrefused => ?_, fun sourceId hnew => ?_, fun op id idx hop hid =>
    exec_other h op hop hid⟩
  · exact filter_eq_singleton h.names (h.sources id idx hid).bin
  · exact ⟨(h.sources id idx hid).pad, (h.sources id idx hid).link⟩
  · rw [addSource]
    rcases hrefused with hmem | hfull
    · rw [if_pos hmem, ite_self]
    · rw [if_pos hfull]
  · rw [removeSource, AList.lookup_eq_none.2 hnew]

/-- **The registry, the counter and the names agree in every state**, in whatever order the calls of all
clients take the mutex and whichever calls of GStreamer fail. -/
theorem registry_invariant (cfg : PipelineConfig) (created linked : Bool) (p : DeepStreamPipeline)
    (ops : List Op) (hnew : new cfg created linked = .ok p) (hlt : ops.countP Op.isAdd < 2 ^ 31) :
    RegistryInvariant (p.execAll ops) := by
  obtain rfl := new_ok hnew
  have hindexed := execAll_indexed (new_indexed cfg) ops (by omega)
  exact registryInvariant_of_wired (execAll_wired (new_wired cfg) ops) hindexed

/-- A camera that fails once, comes, goes and comes back, beside another one. -/
theorem registry_invariant_reconnect : RegistryInvariant
    (execAll [.add { padLink := false } "a" "rtsp://a", .add {} "a" "rtsp://a", .setRunning true,
      .add {} "b" "rtsp://b", .remove "a", .add {} "a" "rtsp://a"] { cfg := {} }) :=
  registry_invariant {} true true _ _ rfl (by decide)

end DeepStreamPipeline

end FacePipeline.Pipeline
