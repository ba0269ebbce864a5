import FacePipeline.Config.SystemConfig
import FacePipeline.Lib.Binary64
import FacePipeline.Lib.OrderedMap
import FacePipeline.Trt.ScrfdPostprocess
import FacePipeline.Trt.TrtEngine

/-!
# The detector: which outputs belong to which stride

`resolve_bindings_` recovers the stride of an output from its number of rows alone, by inverting the
anchor count of a square input in doubles (`bindingStride`), and its kind from the last dimension. The
entry of a stride holds the names that were resolved to it last (`find?_resolve`).
-/

namespace FacePipeline.Trt

open FacePipeline.Config Binary64

/-- Output binding names of one stride. -/
structure StrideBindings where
  score : String := ""
  bbox : String := ""
  kps : String := ""
  deriving DecidableEq, Repr

/-- The stride of an output of `n` rows; `none` where the loop goes on with the next binding. -/
def bindingStride (inputWidth : UInt32) (n : Int) : Option Int :=
  if n ≤ 0 then none
  else
    let cells := ofInt n / ofInt kAnchorsPerLocation
    let feat := cells.sqrt
    if feat ≤ 0 then none
    else
      let stride := castInt (lround (ofInt inputWidth.toNat / feat))
      if stride ≤ 0 then none else some stride

/-- The stride of a binding; `none` for an input and for an empty shape. -/
def strideOf (inputWidth : UInt32) (b : BindingInfo) : Option Int :=
  if b.isInput then none
  else
    match b.shape with
    | [] => none
    | n :: _ => bindingStride inputWidth n

/-- The trailing dimension of a score, a box and a landmark tensor. -/
def kScoreDim : Int := 1

def kBboxDim : Int := 4

def kKpsDim : Int := 10

/-- `if (last == 1) … else if (last == 4) … else if (last == 10) …`. -/
def StrideBindings.record (sb : StrideBindings) (b : BindingInfo) : StrideBindings :=
  if b.shape.getLast? = some kScoreDim then { sb with score := b.name }
  else if b.shape.getLast? = some kBboxDim then { sb with bbox := b.name }
  else if b.shape.getLast? = some kKpsDim then { sb with kps := b.name }
  else sb

/-- One round of the loop of `resolve_bindings_`. -/
def resolveBinding (inputWidth : UInt32) (m : OrderedMap Int StrideBindings) (b : BindingInfo) :
    OrderedMap Int StrideBindings :=
  match strideOf inputWidth b with
  | none => m
  | some stride => m.alter stride fun sb => (sb.getD {}).record b

def resolve (inputWidth : UInt32) (bindings : List BindingInfo) : OrderedMap Int StrideBindings :=
  bindings.foldl (resolveBinding inputWidth) OrderedMap.empty

structure SCRFDDetector (F : Type) where
  cfg : DetectionConfig F
  engine : TrtEngine
  /-- The number of floats in `input_scratch_`. -/
  inputScratch : ℕ
  inputName : String
  strideBindings : OrderedMap Int StrideBindings

namespace SCRFDDetector

variable {F : Type}

/-- The constructor, with `resolve_bindings_`. -/
def new (malloc : Malloc) (cfg : DetectionConfig F) (file : EngineFile) :
    Except Stop (SCRFDDetector F) :=
  match TrtEngine.new malloc cfg.enginePath file with
  | .error err => .error (.throws err)
  | .ok engine =>
      match engine.bindings with
      | [] => .error (.undefined "front() of an empty vector")
      | input :: _ =>
          match (TrtEngine.setInputShape malloc input.name
              [1, 3, cfg.inputHeight.toNat, cfg.inputWidth.toNat]).run engine with
          | .error err _ => .error (.throws err)
          | .ok _ engine =>
              .ok { cfg, engine, inputName := input.name
                    inputScratch := (3 * cfg.inputHeight * cfg.inputWidth).toNat
                    strideBindings := resolve cfg.inputWidth engine.bindings }

/-- `binding(name)`, where an exception ends the call. -/
def binding (det : SCRFDDetector F) (name : String) : Except Stop BindingInfo :=
  (det.engine.binding name).mapError .throws

variable [Add F] [Sub F] [Mul F] [Div F] [IntCast F] [LT F] [DecidableLT F]

/-- One entry of `stride_bindings_`, for one image; `copied name i` is element `i` of the tensor of
that name, as `copy_output` delivers it. -/
def decodeEntry (det : SCRFDDetector F) (copied : String → ℕ → F) (scale : F) (padX padY : Int)
    (raw : List (FaceDetection F)) (entry : Int × StrideBindings) :
    Except Stop (List (FaceDetection F)) :=
  let (stride, names) := entry
  if names.score = "" ∨ names.bbox = "" ∨ names.kps = "" then .ok raw
  else do
    let sb ← det.binding names.score
    let bb ← det.binding names.bbox
    let kb ← det.binding names.kps
    decodeStride stride (castInt det.cfg.inputWidth.toNat) (castInt det.cfg.inputHeight.toNat)
      kAnchorsPerLocation ((List.range sb.volume).map (copied names.score))
      ((List.range bb.volume).map (copied names.bbox)) ((List.range kb.volume).map (copied names.kps))
      det.cfg.confidenceThreshold scale padX padY raw

/-- The loop of `detect_batch` over `stride_bindings_`, for one image. -/
def decodeStrides (det : SCRFDDetector F) (copied : String → ℕ → F) (scale : F) (padX padY : Int) :
    Except Stop (List (FaceDetection F)) :=
  det.strideBindings.entries.foldlM (det.decodeEntry copied scale padX padY) []

end SCRFDDetector

/-! ### The entries of the map -/

/-- The output that was listed last among those of a stride and a trailing dimension. -/
def lastOutput (inputWidth : UInt32) (bindings : List BindingInfo) (stride last : Int) :
    Option BindingInfo :=
  bindings.reverse.find? fun b =>
    strideOf inputWidth b = some stride ∧ b.shape.getLast? = some last

/-- `""` when there is no such output. -/
def nameOf (b : Option BindingInfo) : String :=
  (b.map (·.name)).getD ""

theorem lastOutput_append {inputWidth : UInt32} {bs : List BindingInfo} {b : BindingInfo}
    {stride last : Int} : lastOutput inputWidth (bs ++ [b]) stride last =
      if strideOf inputWidth b = some stride ∧ b.shape.getLast? = some last then some b
      else lastOutput inputWidth bs stride last := by
  rw [lastOutput, List.reverse_concat, List.find?_cons]
  by_cases h : strideOf inputWidth b = some stride ∧ b.shape.getLast? = some last
  · rw [if_pos h, decide_eq_true h]
  · rw [if_neg h, decide_eq_false h]
    rfl

/-- What the loop has recorded for a stride. -/
def entryOf (inputWidth : UInt32) (bs : List BindingInfo) (stride : Int) : StrideBindings :=
  { score := nameOf (lastOutput inputWidth bs stride kScoreDim)
    bbox := nameOf (lastOutput inputWidth bs stride kBboxDim)
    kps := nameOf (lastOutput inputWidth bs stride kKpsDim) }

theorem entryOf_append_of_ne {inputWidth : UInt32} {bs : List BindingInfo} {b : BindingInfo}
    {stride : Int} (h : strideOf inputWidth b ≠ some stride) :
    entryOf inputWidth (bs ++ [b]) stride = entryOf inputWidth bs stride := by
  simp only [entryOf, lastOutput_append, h, false_and, if_false]

theorem entryOf_append {inputWidth : UInt32} {bs : List BindingInfo} {b : BindingInfo}
    {stride : Int} (h : strideOf inputWidth b = some stride) :
    entryOf inputWidth (bs ++ [b]) stride = (entryOf inputWidth bs stride).record b := by
  simp only [entryOf, lastOutput_append, h, true_and, StrideBindings.record]
  by_cases hscore : b.shape.getLast? = some kScoreDim
  · simp [hscore, nameOf, kScoreDim, kBboxDim, kKpsDim]
  · by_cases hbbox : b.shape.getLast? = some kBboxDim
    · simp [hbbox, nameOf, kScoreDim, kBboxDim, kKpsDim]
    · by_cases hkps : b.shape.getLast? = some kKpsDim
      · simp [hkps, nameOf, kScoreDim, kBboxDim, kKpsDim]
      · simp only [hscore, hbbox, hkps, if_false]

theorem lastOutput_eq_none {inputWidth : UInt32} {bs : List BindingInfo} {stride last : Int}
    (h : ¬∃ b ∈ bs, strideOf inputWidth b = some stride) :
    lastOutput inputWidth bs stride last = none := by
  rw [lastOutput, List.find?_eq_none]
  intro b hb
  have hne : strideOf inputWidth b ≠ some stride := fun hs => h ⟨b, List.mem_reverse.1 hb, hs⟩
  simp [hne]

/-- The map after the loop. -/
theorem find?_resolve (inputWidth : UInt32) (bs : List BindingInfo) (stride : Int) :
    (resolve inputWidth bs).find? stride =
      if ∃ b ∈ bs, strideOf inputWidth b = some stride then some (entryOf inputWidth bs stride)
      else none := by
  induction bs using List.reverseRecOn with
  | nil => simp [resolve]
  | append_singleton bs b ih =>
    have hstep : resolve inputWidth (bs ++ [b]) =
        resolveBinding inputWidth (resolve inputWidth bs) b := by
      simp [resolve]
    have hold : ((resolve inputWidth bs).find? stride).getD {} = entryOf inputWidth bs stride := by
      rw [ih]
      split_ifs with h
      · rfl
      · simp [entryOf, lastOutput_eq_none h, nameOf]
    rw [hstep, resolveBinding]
    cases hstride : strideOf inputWidth b with
    | none => simp [ih, hstride, entryOf_append_of_ne]
    | some s =>
      simp only [OrderedMap.find?_alter]
      by_cases hs : stride = s
      · subst hs
        rw [if_pos rfl, hold, ← entryOf_append hstride,
          if_pos ⟨b, List.mem_append_right _ (List.mem_singleton_self b), hstride⟩]
      · have hne : strideOf inputWidth b ≠ some stride := by
          rw [hstride]
          exact fun h => hs (Option.some.inj h).symm
        rw [if_neg hs, ih, entryOf_append_of_ne hne]
        simp [hne]

/-! ### The constructor -/

/-- A detector that was constructed: the first tensor is the input, pinned to the configured size, and
the others are recorded as the engine reports them. -/
structure Constructed {F : Type} (cfg : DetectionConfig F) (det : SCRFDDetector F)
    (input : IOTensor) (rest : List IOTensor) : Prop where
  cfg_eq : det.cfg = cfg
  tensors : det.engine.engine.tensors = input :: rest
  isInput : input.isInput = true
  bindings : ∃ info : BindingInfo, info.isInput = true ∧ info.name = input.name ∧
    det.engine.bindings = info :: rest.map bindingInfo
  small : elements [1, 3, cfg.inputHeight.toNat, cfg.inputWidth.toNat] < 2 ^ 31
  strideBindings : det.strideBindings = resolve cfg.inputWidth det.engine.bindings

theorem new_constructed {F : Type} {malloc : Malloc} {cfg : DetectionConfig F} {file : EngineFile}
    {det : SCRFDDetector F} (h : SCRFDDetector.new malloc cfg file = .ok det) :
    ∃ input rest, Constructed cfg det input rest := by
  unfold SCRFDDetector.new at h
  split at h
  · cases h
  · rename_i e hnew
    have hbindings := new_bindings hnew
    split at h
    · cases h
    · rename_i first more hfirst
      split at h
      · cases h
      · rename_i u e' hset
        obtain rfl := Except.ok.inj h
        obtain ⟨haccepts, info, hinfo, rfl⟩ := setInputShape_ok hset
        obtain ⟨⟨t, ht, hname, hisInput, _⟩, hsmall⟩ := e.engine.of_accepts _ _ haccepts
        cases htensors : e.engine.tensors with
        | nil => simp [htensors] at ht
        | cons input rest =>
          rw [hbindings, htensors, List.map_cons, List.cons.injEq] at hfirst
          obtain ⟨rfl, rfl⟩ := hfirst
          have hinput : t = input :=
            List.inj_on_of_nodup_map e.engine.nodup ht (htensors ▸ List.mem_cons_self) hname
          have hrecorded : TrtEngine.recordShape (bindingInfo input).name
              [1, 3, cfg.inputHeight.toNat, cfg.inputWidth.toNat] e.bindings =
              { bindingInfo input with
                shape := [1, 3, cfg.inputHeight.toNat, cfg.inputWidth.toNat]
                volume := volumeOf [1, 3, cfg.inputHeight.toNat, cfg.inputWidth.toNat] } ::
                rest.map bindingInfo := by
            rw [hbindings, htensors, List.map_cons, TrtEngine.recordShape, if_pos rfl]
          exact ⟨input, rest, rfl, htensors, hinput ▸ hisInput,
            ⟨_, hinput ▸ hisInput, rfl, hrecorded⟩, hsmall, rfl⟩

/-- An input that TensorRT accepts has sides that fit an `int`. -/
theorem Constructed.size_lt {F : Type} {cfg : DetectionConfig F} {det : SCRFDDetector F}
    {input : IOTensor} {rest : List IOTensor} (h : Constructed cfg det input rest)
    (hW : cfg.inputWidth ≠ 0) (hH : cfg.inputHeight ≠ 0) :
    cfg.inputWidth.toNat < 2 ^ 31 ∧ cfg.inputHeight.toNat < 2 ^ 31 := by
  have hpos : ∀ n : UInt32, n ≠ 0 → 0 < n.toNat := fun n hn =>
    Nat.pos_of_ne_zero fun h0 => hn (UInt32.toNat_inj.1 h0)
  have hsmall : 1 * (3 * (cfg.inputHeight.toNat * (cfg.inputWidth.toNat * 1))) < 2 ^ 31 := h.small
  rw [Nat.mul_one] at hsmall
  have hW_le := Nat.le_mul_of_pos_left cfg.inputWidth.toNat (hpos _ hH)
  have hH_le := Nat.le_mul_of_pos_right cfg.inputHeight.toNat (hpos _ hW)
  constructor <;> omega

/-! ### The tensors behind the entries -/

section Tensors

variable {F : Type}

/-- The output tensor that the engine lists last among those of a stride and a trailing dimension. -/
def lastTensor (cfg : DetectionConfig F) (engine : CudaEngine) (stride last : Int) :
    Option IOTensor :=
  engine.tensors.reverse.find? fun t =>
    strideOf cfg.inputWidth (bindingInfo t) = some stride ∧ t.dims.getLast? = some last

/-- `""` when there is no such tensor. -/
def tensorName (t : Option IOTensor) : String :=
  (t.map (·.name)).getD ""

variable {cfg : DetectionConfig F} {det : SCRFDDetector F} {input : IOTensor} {rest : List IOTensor}

theorem tensorName_ne_empty {o : Option IOTensor} (h : tensorName o ≠ "") : ∃ t, o = some t := by
  cases o with
  | none => exact absurd rfl h
  | some t => exact ⟨t, rfl⟩

theorem strideOf_pos {inputWidth : UInt32} {b : BindingInfo} {stride : Int}
    (h : strideOf inputWidth b = some stride) : 0 < stride := by
  unfold strideOf at h
  split_ifs at h
  split at h
  · cases h
  · unfold bindingStride at h
    simp only at h
    split_ifs at h with _ _ hpos
    obtain rfl := Option.some.inj h
    omega

theorem strideOf_input {inputWidth : UInt32} {b : BindingInfo} (h : b.isInput = true) :
    strideOf inputWidth b = none := by
  rw [strideOf, if_pos h]

theorem isOutput_of_strideOf {inputWidth : UInt32} {t : IOTensor} {stride : Int}
    (h : strideOf inputWidth (bindingInfo t) = some stride) : t.isInput = false := by
  by_contra hinput
  have hinput' : (bindingInfo t).isInput = true := by
    rw [Bool.not_eq_false] at hinput
    exact hinput
  rw [strideOf_input hinput'] at h
  cases h

/-- The outputs that count, as bindings and as tensors. -/
theorem Constructed.lastOutput_eq (h : Constructed cfg det input rest) (stride last : Int) :
    lastOutput cfg.inputWidth det.engine.bindings stride last =
      (lastTensor cfg det.engine.engine stride last).map bindingInfo := by
  obtain ⟨info, hinfo, _, hbindings⟩ := h.bindings
  have hinput : (bindingInfo input).isInput = true := h.isInput
  rw [lastOutput, lastTensor, hbindings, h.tensors, List.reverse_cons, List.reverse_cons,
    List.find?_append, List.find?_append, ← List.map_reverse, List.find?_map]
  simp only [List.find?_singleton, strideOf_input hinfo, strideOf_input hinput, reduceCtorEq,
    false_and, decide_false, Bool.false_eq_true, if_false, Option.or_none]
  rfl

theorem lastTensor_some {engine : CudaEngine} {stride last : Int} {t : IOTensor}
    (h : lastTensor cfg engine stride last = some t) :
    t ∈ engine.tensors ∧ t.isInput = false ∧
      strideOf cfg.inputWidth (bindingInfo t) = some stride ∧ t.dims.getLast? = some last := by
  have hmem := List.mem_reverse.1 (List.mem_of_find?_eq_some h)
  rw [lastTensor] at h
  have hfound := List.find?_some h
  rw [decide_eq_true_eq] at hfound
  exact ⟨hmem, isOutput_of_strideOf hfound.1, hfound⟩

theorem Constructed.mem_rest (h : Constructed cfg det input rest) {t : IOTensor}
    (ht : t ∈ det.engine.engine.tensors) (hout : t.isInput = false) : t ∈ rest := by
  rw [h.tensors, List.mem_cons] at ht
  refine ht.resolve_left fun heq => ?_
  rw [heq, h.isInput] at hout
  cases hout

/-- The map of a constructed detector, in terms of the engine's tensors. -/
theorem Constructed.find?_strideBindings (h : Constructed cfg det input rest) (stride : Int) :
    det.strideBindings.find? stride =
      if ∃ t ∈ det.engine.engine.tensors, strideOf cfg.inputWidth (bindingInfo t) = some stride then
        some { score := tensorName (lastTensor cfg det.engine.engine stride kScoreDim)
               bbox := tensorName (lastTensor cfg det.engine.engine stride kBboxDim)
               kps := tensorName (lastTensor cfg det.engine.engine stride kKpsDim) }
      else none := by
  obtain ⟨info, hinfo, _, hbindings⟩ := h.bindings
  have hname : ∀ o : Option IOTensor, nameOf (o.map bindingInfo) = tensorName o := fun o => by
    cases o <;> rfl
  have hinput : (bindingInfo input).isInput = true := h.isInput
  have hexists : (∃ b ∈ det.engine.bindings, strideOf cfg.inputWidth b = some stride) ↔
      ∃ t ∈ det.engine.engine.tensors, strideOf cfg.inputWidth (bindingInfo t) = some stride := by
    rw [hbindings, h.tensors]
    simp [strideOf_input hinfo, strideOf_input hinput]
  rw [h.strideBindings, find?_resolve]
  simp only [hexists, entryOf, h.lastOutput_eq, hname]

end Tensors

/-- Tensors are told apart by their names. -/
theorem find?_name {ts : List IOTensor} (hnodup : (ts.map (·.name)).Nodup) {t : IOTensor}
    (ht : t ∈ ts) : ts.find? (fun t' => t'.name = t.name) = some t := by
  obtain ⟨t', hfind⟩ : ∃ t', ts.find? (fun t' => t'.name = t.name) = some t' :=
    Option.isSome_iff_exists.1 (List.find?_isSome.2 ⟨t, ht, decide_eq_true rfl⟩)
  have hname := List.find?_some hfind
  rw [decide_eq_true_eq] at hname
  rw [hfind, List.inj_on_of_nodup_map hnodup (List.mem_of_find?_eq_some hfind) ht hname]

/-! ### An exported engine -/

/-- The outputs of a stock export: name, stride and trailing dimension. -/
def scrfdOutputs (width height : Int) : List IOTensor :=
  [("448", 8, kScoreDim), ("471", 16, kScoreDim), ("494", 32, kScoreDim),
    ("451", 8, kBboxDim), ("474", 16, kBboxDim), ("497", 32, kBboxDim),
    ("454", 8, kKpsDim), ("477", 16, kKpsDim), ("500", 32, kKpsDim)].map fun (name, stride, last) =>
      ⟨name, [anchors width height stride, last], .float, false⟩

def scrfdInput : IOTensor :=
  ⟨"input.1", [1, 3, -1, -1], .float, true⟩

/-- The engine of that export, for inputs of one size. -/
def scrfdEngine (width height : ℕ) (hsmall : 3 * (height * width) < 2 ^ 31)
    (houtputs : ∀ t ∈ scrfdOutputs width height, (∀ d ∈ t.dims, 0 ≤ d) ∧ elements t.dims < 2 ^ 31) :
    CudaEngine where
  tensors := scrfdInput :: scrfdOutputs width height
  nodup := by simp [scrfdInput, scrfdOutputs]
  elements_dims := by
    intro t ht hdims
    rcases List.mem_cons.1 ht with rfl | ht
    · exact absurd (hdims (-1) (by decide)) (by decide)
    · exact (houtputs t ht).2
  accepts name shape := name = "input.1" && shape = [1, 3, height, width]
  of_accepts := by
    intro name shape h
    simp only [Bool.and_eq_true, decide_eq_true_eq] at h
    obtain ⟨rfl, rfl⟩ := h
    refine ⟨⟨_, List.mem_cons_self, rfl, rfl, ?_⟩, ?_⟩
    · simp [Refines, scrfdInput]
    · simpa [elements] using hsmall
  inferred _ name := (((scrfdOutputs width height).find? (·.name = name)).map (·.dims)).getD []
  refines_inferred := by
    intro shapes t ht hout
    rcases List.mem_cons.1 ht with rfl | ht
    · cases hout
    · rw [find?_name (by simp [scrfdOutputs]) ht]
      exact List.forall₂_same.2 fun d hd => ⟨(houtputs t ht).1 d hd, fun _ => rfl⟩

def squareEngine : CudaEngine :=
  scrfdEngine 640 640 (by decide) (by decide +kernel)

def portraitEngine : CudaEngine :=
  scrfdEngine 480 640 (by decide) (by decide +kernel)

/-- A configuration that differs from the defaults in the input size. -/
def detectionConfig (inputWidth inputHeight : UInt32) : DetectionConfig ℚ :=
  { enginePath := "scrfd_10g.engine", inputWidth, inputHeight, confidenceThreshold := 1 / 2
    nmsIouThreshold := 2 / 5 }

end FacePipeline.Trt
