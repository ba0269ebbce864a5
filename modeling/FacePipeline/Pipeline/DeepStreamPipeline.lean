import FacePipeline.Config.SystemConfig
import Mathlib

/-!
# The source bins of the pipeline

`add_source` and `remove_source` hold `sources_mutex_` from their first line to their last, so the calls of
any number of clients are one sequence, in the order in which they take it. A call changes three
collections: the bins in the pipeline, the pads requested from the muxer and the registry.

GStreamer is a parameter. `GstCalls` says which of the calls of one `add_source` fail for reasons of their
own; beyond that, a name that is taken is refused, a requested pad stays until it is released, and removing
a bin unlinks it.
-/

namespace FacePipeline.Pipeline

open FacePipeline.Config

def kMaxSourcesHardLimit : UInt32 := 32

/-- An `nvurisrcbin` in the pipeline. -/
structure SourceBin where
  name : String
  uri : String
  /-- Whether its state was synchronized with the pipeline's. -/
  synced : Bool := false
  deriving DecidableEq, Repr

/-- What `add_source` and `remove_source` change of the GStreamer graph: the source bins in the pipeline,
the sink pads requested from the muxer, and the links from the one to the other, by name. -/
structure Graph where
  bins : List SourceBin := []
  pads : List String := []
  links : List (String × String) := []
  deriving DecidableEq, Repr

structure DeepStreamPipeline where
  cfg : PipelineConfig
  graph : Graph := {}
  running : Bool := false
  nextSourceIndex : Int32 := 0
  sources : AList fun _ : String => Int32 := ∅

/-- The GStreamer calls of one `add_source`: which of them succeed. -/
structure GstCalls where
  factoryMake : Bool := true
  binAdd : Bool := true
  requestPad : Bool := true
  staticPad : Bool := true
  padLink : Bool := true
  deriving DecidableEq, Repr

def binName (idx : Int32) : String :=
  "src-bin-" ++ toString idx.toInt

def muxPadName (idx : Int32) : String :=
  "sink_" ++ toString idx.toInt

namespace Graph

/-- `gst_bin_add`. -/
def binAdd (gst : GstCalls) (bin : SourceBin) (g : Graph) : Option Graph :=
  if gst.binAdd = true ∧ bin.name ∉ g.bins.map (·.name) then some { g with bins := g.bins ++ [bin] }
  else none

/-- `gst_element_request_pad_simple` on the muxer. -/
def requestPad (gst : GstCalls) (name : String) (g : Graph) : Option Graph :=
  if gst.requestPad = true ∧ name ∉ g.pads then some { g with pads := g.pads ++ [name] } else none

/-- `gst_pad_link`, of a pad that was just requested. -/
def padLink (gst : GstCalls) (bin pad : String) (g : Graph) : Option Graph :=
  if gst.padLink = true then some { g with links := g.links ++ [(bin, pad)] } else none

/-- `gst_element_sync_state_with_parent`. -/
def syncState (name : String) (g : Graph) : Graph :=
  { g with bins := g.bins.map fun bin => if bin.name = name then { bin with synced := true } else bin }

/-- `gst_bin_get_by_name` and, when there is such a bin, `gst_bin_remove`. -/
def binRemove (name : String) (g : Graph) : Graph :=
  if name ∈ g.bins.map (·.name) then
    { g with bins := g.bins.eraseP fun bin => bin.name = name
             links := g.links.filter fun link => link.1 ≠ name }
  else g

end Graph

namespace DeepStreamPipeline

/-- The constructor; `created` and `linked` say whether the fixed elements could be made and linked. -/
def new (cfg : PipelineConfig) (created linked : Bool) : Except Exn DeepStreamPipeline :=
  if kMaxSourcesHardLimit < cfg.maxStreams then
    .error (.invalidArgument "max_streams exceeds hard limit (32)")
  else if created = false then
    .error (.runtimeError "failed to create one or more GStreamer elements")
  else if linked = false then .error (.runtimeError "failed to link streammux -> pgie -> sink")
  else .ok { cfg }

def sourceCount (p : DeepStreamPipeline) : ℕ :=
  p.sources.keys.length

/-- The rest of `add_source`, once the bin is in the pipeline. -/
def connect (gst : GstCalls) (sourceId : String) (idx : Int32) (p : DeepStreamPipeline) :
    Bool × DeepStreamPipeline :=
  let muxPad := p.graph.requestPad gst (muxPadName idx)
  let p := { p with graph := muxPad.getD p.graph }
  if muxPad.isNone ∨ gst.staticPad = false then (false, p)
  else
    match p.graph.padLink gst (binName idx) (muxPadName idx) with
    | none => (false, p)
    | some graph =>
        let graph := if p.running then graph.syncState (binName idx) else graph
        (true, { p with graph, sources := p.sources.insert sourceId idx })

def addSource (gst : GstCalls) (sourceId uri : String) (p : DeepStreamPipeline) :
    Bool × DeepStreamPipeline :=
  if p.cfg.maxStreams.toNat ≤ p.sourceCount then (false, p)
  else if sourceId ∈ p.sources then (false, p)
  else
    let idx := p.nextSourceIndex
    let p := { p with nextSourceIndex := idx + 1 }
    if gst.factoryMake = false then (false, p)
    else
      match p.graph.binAdd gst { name := binName idx, uri } with
      | none => (false, p)
      | some graph => connect gst sourceId idx { p with graph }

def removeSource (sourceId : String) (p : DeepStreamPipeline) : Bool × DeepStreamPipeline :=
  match p.sources.lookup sourceId with
  | none => (false, p)
  | some idx =>
      (true, { p with graph := p.graph.binRemove (binName idx), sources := p.sources.erase sourceId })

/-- A call of a client. `start` and `stop` do not take the mutex; of what they do, `add_source` sees the
flag. -/
inductive Op where
  | add (gst : GstCalls) (sourceId uri : String)
  | remove (sourceId : String)
  | setRunning (running : Bool)

/-- The source a call is about. -/
def Op.sourceId : Op → Option String
  | .add _ sourceId _ => some sourceId
  | .remove sourceId => some sourceId
  | .setRunning _ => none

def Op.isAdd : Op → Bool
  | .add _ _ _ => true
  | _ => false

def exec (op : Op) (p : DeepStreamPipeline) : Bool × DeepStreamPipeline :=
  match op with
  | .add gst sourceId uri => p.addSource gst sourceId uri
  | .remove sourceId => p.removeSource sourceId
  | .setRunning running => (true, { p with running })

/-- The calls of all clients, in the order in which they take the mutex. -/
def execAll (ops : List Op) (p : DeepStreamPipeline) : DeepStreamPipeline :=
  ops.foldl (fun p op => (p.exec op).2) p

/-! ### The exits of `add_source` -/

/-- The call is not refused at the door: there is room, and the id is new. -/
def Admits (p : DeepStreamPipeline) (sourceId : String) : Prop :=
  p.sourceCount < p.cfg.maxStreams.toNat ∧ sourceId ∉ p.sources

/-- The bin gets into the pipeline. -/
def Attaches (p : DeepStreamPipeline) (gst : GstCalls) : Prop :=
  gst.factoryMake = true ∧ gst.binAdd = true ∧
    binName p.nextSourceIndex ∉ p.graph.bins.map (·.name)

/-- The muxer hands out the pad. -/
def Requests (p : DeepStreamPipeline) (gst : GstCalls) : Prop :=
  gst.requestPad = true ∧ muxPadName p.nextSourceIndex ∉ p.graph.pads

instance (p : DeepStreamPipeline) (sourceId : String) : Decidable (p.Admits sourceId) :=
  inferInstanceAs (Decidable (_ ∧ _))

instance (p : DeepStreamPipeline) (gst : GstCalls) : Decidable (p.Attaches gst) :=
  inferInstanceAs (Decidable (_ ∧ _))

instance (p : DeepStreamPipeline) (gst : GstCalls) : Decidable (p.Requests gst) :=
  inferInstanceAs (Decidable (_ ∧ _))

/-- An index is used up. -/
def counted (p : DeepStreamPipeline) : DeepStreamPipeline :=
  { p with nextSourceIndex := p.nextSourceIndex + 1 }

/-- The graph with the new bin, and with the new pad if there is one. -/
def attached (p : DeepStreamPipeline) (gst : GstCalls) (uri : String) : Graph :=
  { p.graph with
    bins := p.graph.bins ++ [{ name := binName p.nextSourceIndex, uri }]
    pads := p.graph.pads ++ if p.Requests gst then [muxPadName p.nextSourceIndex] else [] }

/-- The graph of a source that was added. -/
def linked (p : DeepStreamPipeline) (gst : GstCalls) (uri : String) : Graph :=
  let graph := { p.attached gst uri with
    links := p.graph.links ++ [(binName p.nextSourceIndex, muxPadName p.nextSourceIndex)] }
  if p.running then graph.syncState (binName p.nextSourceIndex) else graph

/-- Where `add_source` returns, and what it leaves. -/
inductive AddExit (gst : GstCalls) (sourceId uri : String) (p : DeepStreamPipeline) :
    Bool × DeepStreamPipeline → Prop
  | refused : ¬p.Admits sourceId → AddExit gst sourceId uri p (false, p)
  | notAttached : p.Admits sourceId → ¬p.Attaches gst → AddExit gst sourceId uri p (false, p.counted)
  | notConnected : p.Admits sourceId → p.Attaches gst →
      ¬(p.Requests gst ∧ gst.staticPad = true ∧ gst.padLink = true) →
      AddExit gst sourceId uri p (false, { p.counted with graph := p.attached gst uri })
  | added : p.Admits sourceId → p.Attaches gst → p.Requests gst → gst.staticPad = true →
      gst.padLink = true → AddExit gst sourceId uri p
        (true, { p.counted with graph := p.linked gst uri
                                sources := p.sources.insert sourceId p.nextSourceIndex })

/-- The pipeline with the new bin, before pads are requested. -/
def withBin (p : DeepStreamPipeline) (uri : String) : DeepStreamPipeline :=
  { p.counted with graph := { p.graph with
      bins := p.graph.bins ++ [{ name := binName p.nextSourceIndex, uri }] } }

theorem connect_exit {gst : GstCalls} {sourceId uri : String} {p : DeepStreamPipeline}
    (hadmits : p.Admits sourceId) (hattaches : p.Attaches gst) :
    AddExit gst sourceId uri p (connect gst sourceId p.nextSourceIndex (p.withBin uri)) := by
  by_cases hrequests : p.Requests gst
  · have hpad : (p.withBin uri).graph.requestPad gst (muxPadName p.nextSourceIndex) =
        some (p.attached gst uri) := by
      rw [attached, if_pos hrequests]
      exact if_pos hrequests
    simp only [connect, hpad, Option.isNone_some, Bool.false_eq_true, false_or, Option.getD_some]
    by_cases hstatic : gst.staticPad = false
    · rw [if_pos hstatic]
      exact .notConnected hadmits hattaches fun h => by rw [h.2.1] at hstatic; cases hstatic
    · rw [if_neg hstatic]
      cases hlink : gst.padLink with
      | false =>
        have hnone : (p.attached gst uri).padLink gst (binName p.nextSourceIndex)
            (muxPadName p.nextSourceIndex) = none := if_neg (by rw [hlink]; decide)
        rw [hnone]
        exact .notConnected hadmits hattaches fun h => by rw [h.2.2] at hlink; cases hlink
      | true =>
        have hsome : (p.attached gst uri).padLink gst (binName p.nextSourceIndex)
            (muxPadName p.nextSourceIndex) = some { p.attached gst uri with
              links := p.graph.links ++ [(binName p.nextSourceIndex, muxPadName p.nextSourceIndex)] } :=
          if_pos hlink
        rw [hsome]
        exact .added hadmits hattaches hrequests (by simpa using hstatic) hlink
  · have hpad : (p.withBin uri).graph.requestPad gst (muxPadName p.nextSourceIndex) = none :=
      if_neg hrequests
    have hattached : (p.withBin uri).graph = p.attached gst uri := by
      rw [attached, if_neg hrequests, List.append_nil]
      rfl
    simp only [connect, hpad, Option.isNone_none, true_or, if_true, Option.getD_none]
    rw [hattached]
    exact .notConnected hadmits hattaches fun h => hrequests h.1

theorem addSource_exit (gst : GstCalls) (sourceId uri : String) (p : DeepStreamPipeline) :
    AddExit gst sourceId uri p (p.addSource gst sourceId uri) := by
  rw [addSource]
  split_ifs with hfull hdup hmake
  · exact .refused fun h => absurd h.1 (Nat.not_lt.2 hfull)
  · exact .refused fun h => h.2 hdup
  · refine .notAttached ⟨Nat.lt_of_not_le hfull, hdup⟩ fun h => ?_
    rw [h.1] at hmake
    cases hmake
  · have hadmits : p.Admits sourceId := ⟨Nat.lt_of_not_le hfull, hdup⟩
    by_cases hadd : gst.binAdd = true ∧ binName p.nextSourceIndex ∉ p.graph.bins.map (·.name)
    · have hbin : p.graph.binAdd gst { name := binName p.nextSourceIndex, uri } =
          some (p.withBin uri).graph := if_pos hadd
      simp only [hbin]
      exact connect_exit hadmits ⟨by simpa using hmake, hadd⟩
    · have hbin : p.graph.binAdd gst { name := binName p.nextSourceIndex, uri } = none := if_neg hadd
      simp only [hbin]
      exact .notAttached hadmits fun h => hadd h.2

end DeepStreamPipeline

end FacePipeline.Pipeline
