import FacePipeline.Lib.Locked
import FacePipeline.Pipeline.SourceRegistry

/-!
# The clients of the pipeline

`add_source`, `remove_source` and `source_count` step by step: any number of threads call them, each holds
`sources_mutex_` from its first line to its last, and meanwhile `start` and `stop` exchange `running_` without
it. `add_source` loads `running_` once, so it is atomic, and the calls of all threads are those of one sequence
(`clients_atomic`).
-/

namespace FacePipeline.Pipeline

open FacePipeline.Config Runs Locked

/-- What only a thread that holds `sources_mutex_` touches. -/
structure Registry where
  cfg : PipelineConfig
  graph : Graph := {}
  nextSourceIndex : Int32 := 0
  sources : AList fun _ : String => Int32 := ∅

namespace Registry

def pipeline (running : Bool) (r : Registry) : DeepStreamPipeline :=
  { cfg := r.cfg, graph := r.graph, running, nextSourceIndex := r.nextSourceIndex, sources := r.sources }

/-- A call of GStreamer that may fail, and then changes nothing. -/
def gst (f : Graph → Option Graph) (r : Registry) : Registry :=
  { r with graph := (f r.graph).getD r.graph }

def count (idx : Int32) (r : Registry) : Registry :=
  { r with nextSourceIndex := idx + 1 }

end Registry

def DeepStreamPipeline.registry (p : DeepStreamPipeline) : Registry :=
  { cfg := p.cfg, graph := p.graph, nextSourceIndex := p.nextSourceIndex, sources := p.sources }

inductive Request where
  | add (gst : GstCalls) (sourceId uri : String)
  | remove (sourceId : String)
  | count

inductive Reply where
  | accepted (ok : Bool)
  | count (n : ℕ)
  deriving DecidableEq, Repr

namespace Request

abbrev Body := Code Bool Registry Reply

/-- The step only looks at the guarded state. -/
def look (next : Registry → Body) : Body :=
  .act id next

/-- The end of `add_source`, once `running_` is loaded. -/
def register (sourceId : String) (idx : Int32) (running : Bool) : Body :=
  let insert : Body := .act (fun r => { r with sources := r.sources.insert sourceId idx }) fun _ =>
    .ret (.accepted true)
  if running then .act (fun r => { r with graph := r.graph.syncState (binName idx) }) fun _ => insert
  else insert

/-- `add_source`, once the bin is in the pipeline. -/
def connect (gst : GstCalls) (sourceId : String) (idx : Int32) : Body :=
  .act (Registry.gst (·.requestPad gst (muxPadName idx))) fun r =>
    if (r.graph.requestPad gst (muxPadName idx)).isNone ∨ gst.staticPad = false then .ret (.accepted false)
    else
      .act (Registry.gst (·.padLink gst (binName idx) (muxPadName idx))) fun r =>
        if (r.graph.padLink gst (binName idx) (muxPadName idx)).isNone then .ret (.accepted false)
        else .load fun running => register sourceId idx running

def addSource (gst : GstCalls) (sourceId uri : String) : Body :=
  look fun r =>
    if r.cfg.maxStreams.toNat ≤ r.sources.keys.length then .ret (.accepted false)
    else
      look fun r =>
        if sourceId ∈ r.sources then .ret (.accepted false)
        else
          .act (fun r => r.count r.nextSourceIndex) fun r =>
            let idx := r.nextSourceIndex
            if gst.factoryMake = false then .ret (.accepted false)
            else
              .act (Registry.gst (·.binAdd gst { name := binName idx, uri })) fun r =>
                if (r.graph.binAdd gst { name := binName idx, uri }).isNone then .ret (.accepted false)
                else connect gst sourceId idx

def removeSource (sourceId : String) : Body :=
  look fun r =>
    match r.sources.lookup sourceId with
    | none => .ret (.accepted false)
    | some idx =>
        .act (fun r => { r with graph := r.graph.binRemove (binName idx) }) fun _ =>
          .act (fun r => { r with sources := r.sources.erase sourceId }) fun _ => .ret (.accepted true)

def sourceCount : Body :=
  look fun r => .ret (.count r.sources.keys.length)

/-- The calls, with their steps. -/
def body : Request → Body
  | .add gst sourceId uri => addSource gst sourceId uri
  | .remove sourceId => removeSource sourceId
  | .count => sourceCount

/-- The calls, each in one step. -/
def apply (q : Request) (running : Bool) (r : Registry) : Reply × Registry :=
  match q with
  | .add gst sourceId uri =>
      let (ok, p) := (r.pipeline running).addSource gst sourceId uri
      (.accepted ok, p.registry)
  | .remove sourceId =>
      let (ok, p) := (r.pipeline running).removeSource sourceId
      (.accepted ok, p.registry)
  | .count => (.count (r.pipeline running).sourceCount, r)

theorem register_loadFree (sourceId : String) (idx : Int32) (running : Bool) :
    (register sourceId idx running).LoadFree :=
  .ite (fun _ _ _ => trivial) fun _ _ => trivial

theorem connect_loadsOnce (gst : GstCalls) (sourceId : String) (idx : Int32) :
    (connect gst sourceId idx).LoadsOnce :=
  fun _ => .ite (fun _ => trivial) fun _ _ => .ite (fun _ => trivial) fun _ =>
    register_loadFree sourceId idx

theorem body_loadsOnce (q : Request) : q.body.LoadsOnce := by
  cases q with
  | add gst sourceId uri =>
    refine fun r => .ite (fun _ => trivial) fun _ r => .ite (fun _ => trivial) fun _ r => ?_
    exact .ite (fun _ => trivial) fun _ r' => .ite (fun _ => trivial) fun _ => connect_loadsOnce gst sourceId _
  | remove sourceId =>
    intro r
    show (Code.LoadsOnce (ρ := Bool) (match r.sources.lookup sourceId with | none => _ | some idx => _))
    split
    · trivial
    · exact fun _ _ => trivial
  | count => exact fun _ => trivial

/-! ### The steps of a call make up the call -/

theorem connect_exec (gst : GstCalls) (sourceId : String) (idx : Int32) (running : Bool) (r : Registry) :
    (connect gst sourceId idx).exec running r =
      (.accepted ((r.pipeline running).connect gst sourceId idx).1,
        ((r.pipeline running).connect gst sourceId idx).2.registry) := by
  simp only [connect, Code.exec, Code.exec_ite, DeepStreamPipeline.connect]
  have hgraph : (r.pipeline running).graph = r.graph := rfl
  rw [hgraph]
  by_cases hpads : (r.graph.requestPad gst (muxPadName idx)).isNone ∨ gst.staticPad = false
  · rw [if_pos hpads, if_pos hpads]
    rfl
  · rw [if_neg hpads, if_neg hpads]
    have hstep : (r.gst (·.requestPad gst (muxPadName idx))).graph =
        (r.graph.requestPad gst (muxPadName idx)).getD r.graph := rfl
    rw [hstep]
    rcases Option.eq_none_or_eq_some (((r.graph.requestPad gst (muxPadName idx)).getD r.graph).padLink gst
      (binName idx) (muxPadName idx)) with hlink | ⟨graph, hlink⟩
    · simp only [Registry.gst, hlink]
      rfl
    · simp only [Registry.gst, hlink]
      cases running <;> rfl

/-- The steps of a call, taken without interruption, are the call. -/
theorem body_exec (q : Request) (running : Bool) (r : Registry) : q.body.exec running r = q.apply running r := by
  cases q with
  | add gst sourceId uri =>
    simp only [body, apply, addSource, look, Code.exec, Code.exec_ite, DeepStreamPipeline.addSource, id]
    have hpipeline : (r.pipeline running).sourceCount = r.sources.keys.length ∧
        (r.pipeline running).cfg = r.cfg ∧ (r.pipeline running).sources = r.sources ∧
        (r.pipeline running).nextSourceIndex = r.nextSourceIndex ∧ (r.pipeline running).graph = r.graph :=
      ⟨rfl, rfl, rfl, rfl, rfl⟩
    obtain ⟨hcount, hcfg, hsources, hindex, hgraph⟩ := hpipeline
    rw [hcount, hcfg, hsources, hindex, hgraph]
    by_cases hfull : r.cfg.maxStreams.toNat ≤ r.sources.keys.length
    · rw [if_pos hfull, if_pos hfull]
      rfl
    by_cases hdup : sourceId ∈ r.sources
    · rw [if_neg hfull, if_neg hfull, if_pos hdup, if_pos hdup]
      rfl
    by_cases hmake : gst.factoryMake = false
    · rw [if_neg hfull, if_neg hfull, if_neg hdup, if_neg hdup, if_pos hmake, if_pos hmake]
      rfl
    rw [if_neg hfull, if_neg hfull, if_neg hdup, if_neg hdup, if_neg hmake, if_neg hmake]
    have hcounted : (r.count r.nextSourceIndex).graph = r.graph := rfl
    rw [hcounted]
    rcases Option.eq_none_or_eq_some (r.graph.binAdd gst { name := binName r.nextSourceIndex, uri }) with
      hbin | ⟨graph, hbin⟩
    · simp only [Registry.gst, Registry.count, hbin]
      rfl
    · simp only [Registry.gst, Registry.count, hbin, connect_exec]
      rfl
  | remove sourceId =>
    simp only [body, apply, removeSource, look, Code.exec, DeepStreamPipeline.removeSource, id]
    have hsources : (r.pipeline running).sources = r.sources := rfl
    rw [hsources]
    cases r.sources.lookup sourceId with
    | none => rfl
    | some idx => rfl
  | count => rfl

end Request

/-! ### Any number of clients -/

/-- The threads are numbered. -/
abbrev Clients := State ℕ Bool Registry Request Reply

abbrev AtomicClients := Atomic ℕ Bool Registry Request Reply

namespace Clients

def pipeline (s : Clients) : DeepStreamPipeline :=
  s.guarded.pipeline s.atomic

/-- No call of `p` has begun. -/
def initial (p : DeepStreamPipeline) : Clients :=
  { guarded := p.registry, atomic := p.running }

def atomicInitial (p : DeepStreamPipeline) : AtomicClients :=
  { guarded := p.registry, atomic := p.running }

/-- **The calls of all clients are atomic**: in any interleaving of their steps with the exchanges of
`running_`, they begin, return and answer as calls that are one step each, and these lead to the same
pipeline. -/
theorem clients_atomic (p : DeepStreamPipeline) (es : List (Locked.Event ℕ Bool Request Reply)) (s : Clients)
    (hrun : run (Locked.step Request.body) es (initial p) = some s) :
    ∃ (es' : List (AtomicEvent ℕ Bool Request Reply)) (t : AtomicClients),
      run (Atomic.step Request.apply) es' (atomicInitial p) = some t ∧
        es'.flatMap AtomicEvent.history = es.flatMap Locked.Event.history ∧
        (s.holder = none → t.guarded.pipeline t.atomic = s.pipeline) := by
  obtain ⟨es', t, hrun', hsim, hhistory⟩ := run_atomic Request.body_loadsOnce Request.body_exec hrun
  refine ⟨es', t, hrun', hhistory, fun hfree => ?_⟩
  rw [hsim.atomic, hsim.free hfree, pipeline]

/-- Two clients add the same camera while the pipeline is started; one of them is refused. -/
def sameCamera : List (Locked.Event ℕ Bool Request Reply) :=
  [.visible (.call 0 (.add {} "a" "rtsp://a")), .visible (.call 1 (.add {} "a" "rtsp://b")), .lock 1, .act 1, .act 1,
    .act 1, .act 1, .visible (.store true), .act 1, .act 1, .act 1, .act 1, .act 1, .unlock 1, .lock 0,
    .visible (.ret 1 (.accepted true)), .act 0, .act 0, .unlock 0, .visible (.ret 0 (.accepted false))]

theorem clients_atomic_sameCamera : ∃ s, run (Locked.step Request.body) sameCamera (initial { cfg := {} }) = some s ∧
    ∃ (es' : List (AtomicEvent ℕ Bool Request Reply)) (t : AtomicClients),
      run (Atomic.step Request.apply) es' (atomicInitial { cfg := {} }) = some t ∧
        es'.flatMap AtomicEvent.history = sameCamera.flatMap Locked.Event.history ∧
        (s.holder = none → t.guarded.pipeline t.atomic = pipeline s) := by
  have hruns : (run (Locked.step Request.body) sameCamera (initial { cfg := {} })).isSome = true := by
    decide +kernel
  obtain ⟨s, hs⟩ := Option.isSome_iff_exists.1 hruns
  exact ⟨s, hs, clients_atomic { cfg := {} } sameCamera s hs⟩

/-! ### What holds in any interleaving -/

theorem addSource_cfg (p : DeepStreamPipeline) (gst : GstCalls) (sourceId uri : String) :
    (p.addSource gst sourceId uri).2.cfg = p.cfg := by
  have hexit := DeepStreamPipeline.addSource_exit gst sourceId uri p
  generalize p.addSource gst sourceId uri = result at hexit ⊢
  cases hexit <;> rfl

theorem removeSource_cfg (p : DeepStreamPipeline) (sourceId : String) :
    (p.removeSource sourceId).2.cfg = p.cfg := by
  rw [DeepStreamPipeline.removeSource]
  split <;> rfl

/-- The sources are wired, and there are not more of them than configured. -/
structure Kept (cfg : PipelineConfig) (running : Bool) (r : Registry) : Prop where
  wired : (r.pipeline running).Wired
  cfg : r.cfg = cfg

/-- A count is one of sources that are there. -/
def Counts (cfg : PipelineConfig) : Reply → Prop
  | .count n => n ≤ cfg.maxStreams.toNat
  | .accepted _ => True

theorem Kept.store {cfg : PipelineConfig} {running running' : Bool} {r : Registry} (h : Kept cfg running r) :
    Kept cfg running' r :=
  ⟨⟨h.wired.count, h.wired.names, h.wired.links, h.wired.sources, h.wired.distinct⟩, h.cfg⟩

/-- The flag does not matter to the wiring. -/
theorem Kept.of_wired {cfg : PipelineConfig} {running : Bool} {p : DeepStreamPipeline} (h : p.Wired)
    (hcfg : p.cfg = cfg) : Kept cfg running p.registry :=
  ⟨⟨h.count, h.names, h.links, h.sources, h.distinct⟩, hcfg⟩

theorem Kept.apply {cfg : PipelineConfig} {running : Bool} {r : Registry} (h : Kept cfg running r)
    (q : Request) : Kept cfg running (q.apply running r).2 ∧ Counts cfg (q.apply running r).1 := by
  cases q with
  | add gst sourceId uri =>
    refine ⟨.of_wired (DeepStreamPipeline.addSource_wired h.wired gst sourceId uri) ?_, trivial⟩
    exact (addSource_cfg _ gst sourceId uri).trans h.cfg
  | remove sourceId =>
    refine ⟨.of_wired (DeepStreamPipeline.removeSource_wired h.wired sourceId) ?_, trivial⟩
    exact (removeSource_cfg _ sourceId).trans h.cfg
  | count => exact ⟨h, h.cfg ▸ h.wired.count⟩

/-- What clients may rely on, however their calls are interleaved. -/
structure Safe (cfg : PipelineConfig) (history : List (Visible ℕ Bool Request Reply)) (s : Clients) : Prop where
  /-- One thread at most is inside the mutex. -/
  exclusive : ∀ i j c c', s.thread i = .inside c → s.thread j = .inside c' → i = j
  wired : s.holder = none → s.pipeline.Wired
  /-- No client is told of more sources than configured. -/
  count : ∀ i n, .ret i (.count n) ∈ history → n ≤ cfg.maxStreams.toNat

/-- **The registry is safe in any interleaving** of the clients' steps with starts and stops. -/
theorem clients_safe (cfg : PipelineConfig) (created linked : Bool) (p : DeepStreamPipeline)
    (es : List (Locked.Event ℕ Bool Request Reply)) (s : Clients)
    (hnew : DeepStreamPipeline.new cfg created linked = .ok p)
    (hrun : run (Locked.step Request.body) es (initial p) = some s) :
    Safe cfg (es.flatMap Locked.Event.history) s := by
  obtain rfl := DeepStreamPipeline.new_ok hnew
  have hinv : Kept cfg (initial { cfg }).atomic (initial { cfg }).guarded :=
    .of_wired (DeepStreamPipeline.new_wired cfg) rfl
  obtain ⟨_, _, _, hsim, _⟩ := run_atomic Request.body_loadsOnce Request.body_exec hrun
  obtain ⟨hkept, hcounts⟩ := kept_of_run Request.body_loadsOnce Request.body_exec
    (fun q _ _ h => h.apply q) (fun _ _ _ h => h.store) hinv hrun
  refine ⟨fun i j c c' hi hj => ?_, fun hfree => (hkept hfree).wired, fun i n hn => ?_⟩
  · exact Option.some.inj ((hsim.holder hi).symm.trans (hsim.holder hj))
  · exact hcounts i _ hn

theorem clients_safe_sameCamera : ∃ s, run (Locked.step Request.body) sameCamera (initial { cfg := {} }) = some s ∧
    Safe {} (sameCamera.flatMap Locked.Event.history) s := by
  have hruns : (run (Locked.step Request.body) sameCamera (initial { cfg := {} })).isSome = true := by
    decide +kernel
  obtain ⟨s, hs⟩ := Option.isSome_iff_exists.1 hruns
  exact ⟨s, hs, clients_safe {} true true _ sameCamera s rfl hs⟩

end Clients

end FacePipeline.Pipeline
