import FacePipeline.Basic
import Mathlib.Algebra.BigOperators.Group.List.Basic
import Mathlib.Logic.Function.Basic
import Mathlib.Data.Int.Order.Basic

/-!
# The TensorRT engine wrapper

`TrtEngine` owns an engine, one execution context and a device buffer for each binding. The constructor
allocates the bindings whose shape is known at load time; `set_input_shape` records a shape, allocates
anew and registers the address, for the binding it is called for. Device memory is a supply of
allocations that are told apart by a serial number, so that an address stays recognisable after it was
freed; `cudaMalloc` may fail at any of them.

What TensorRT does is a parameter (`CudaEngine`): which input shapes the context accepts, and which
output shapes it infers from them.
-/

namespace FacePipeline.Trt

/-- `nvinfer1::DataType`; `other` stands for the types the wrapper does not know. -/
inductive DataType where
  | float
  | half
  | int8
  | int32
  | bool
  | uint8
  | fp8
  | other
  deriving DecidableEq, Repr

def elementSizeFor : DataType → ℕ
  | .float => 4
  | .half => 2
  | .int8 => 1
  | .int32 => 4
  | .bool => 1
  | .uint8 => 1
  | .fp8 => 1
  | .other => 0

/-- Arithmetic in `std::size_t`. -/
def sizeT (n : ℕ) : ℕ :=
  n % 2 ^ 64

def volumeFrom (v : ℕ) : List Int → ℕ
  | [] => v
  | d :: ds => if d ≤ 0 then 0 else volumeFrom (sizeT (v * d.toNat)) ds

/-- The element count of a shape, zero when it has a dynamic or an empty dimension. -/
def volumeOf (shape : List Int) : ℕ :=
  volumeFrom 1 shape

/-- `nvinfer1::Dims::MAX_DIMS`. -/
def maxDims : ℕ := 8

/-- An I/O tensor as the engine reports it; a dynamic dimension is `-1`. -/
structure IOTensor where
  name : String
  dims : List Int
  dtype : DataType
  isInput : Bool
  deriving DecidableEq, Repr

/-- `shape` is `dims` with the dynamic dimensions filled in. -/
def Refines (shape dims : List Int) : Prop :=
  List.Forall₂ (fun s d => 0 ≤ s ∧ (0 ≤ d → s = d)) shape dims

/-- The element count of a fully specified shape. -/
def elements (shape : List Int) : ℕ :=
  (shape.map Int.toNat).prod

/-- A dynamic batch takes any count of items. -/
theorem refines_succ (n : ℕ) {dims : List Int} (h : ∀ d ∈ dims, 0 ≤ d) :
    Refines (((n : Int) + 1) :: dims) (-1 :: dims) := by
  refine List.Forall₂.cons ⟨by omega, by omega⟩ ?_
  rw [List.forall₂_same]
  intro d hd
  exact ⟨h d hd, fun _ => rfl⟩

theorem elements_succ (n : ℕ) (dims : List Int) :
    elements (((n : Int) + 1) :: dims) = (n + 1) * elements dims := by
  simp [elements]

/-- A deserialized engine with its execution context: the I/O tensors, the input shapes the context
accepts and the output shapes it infers from the ones set so far. TensorRT limits a tensor to fewer than `2^31` elements. -/
structure CudaEngine where
  tensors : List IOTensor
  nodup : (tensors.map (·.name)).Nodup
  elements_dims : ∀ t ∈ tensors, (∀ d ∈ t.dims, 0 ≤ d) → elements t.dims < 2 ^ 31
  accepts : String → List Int → Bool
  of_accepts : ∀ name shape, accepts name shape = true →
    (∃ t ∈ tensors, t.name = name ∧ t.isInput = true ∧ Refines shape t.dims) ∧
      elements shape < 2 ^ 31
  inferred : (String → Option (List Int)) → String → List Int
  refines_inferred : ∀ shapes, ∀ t ∈ tensors, t.isInput = false →
    Refines (inferred shapes t.name) t.dims

/-- `utils::DeviceBuffer`. -/
structure DeviceBuffer where
  data : Option ℕ := none
  bytes : ℕ := 0
  deriving DecidableEq, Repr

/-- One binding, with the shape and volume last recorded for it. -/
structure BindingInfo where
  name : String
  shape : List Int
  elementSize : ℕ
  volume : ℕ
  isInput : Bool
  deriving DecidableEq, Repr

/-- The execution context: input shapes set so far, and registered addresses. -/
structure Context where
  inputShape : String → Option (List Int) := fun _ => none
  address : String → Option ℕ := fun _ => none

structure TrtEngine where
  engine : CudaEngine
  context : Context := {}
  deviceBuffers : String → Option DeviceBuffer := fun _ => none
  bindings : List BindingInfo := []
  /-- The number of allocations made so far. -/
  allocs : ℕ := 0

/-- `cudaMalloc`: the error of the `i`-th allocation of that many bytes, if it fails. -/
abbrev Malloc := ℕ → ℕ → Option String

/-- A member function of the engine that may throw. -/
abbrev EngineM := EStateM Exn TrtEngine

/-- `device_buffers[name]`, created empty when there is none. -/
def buffer (e : TrtEngine) (name : String) : DeviceBuffer :=
  (e.deviceBuffers name).getD {}

/-- `device_buffers[name].reset(bytes)`: the old allocation is freed first, and stays freed when the
new one fails. -/
def resetBuffer (malloc : Malloc) (name : String) (bytes : ℕ) : EngineM Unit := do
  modify fun e =>
    { e with deviceBuffers := Function.update e.deviceBuffers name (some
        { data := none, bytes := if (buffer e name).data.isSome then 0 else (buffer e name).bytes }) }
  if 0 < bytes then
    let e ← get
    match malloc e.allocs bytes with
    | some err => throw (.runtimeError ("CUDA error at " ++ err))
    | none =>
        modify fun e =>
          { e with deviceBuffers := Function.update e.deviceBuffers name (some ⟨some e.allocs, bytes⟩)
                   allocs := e.allocs + 1 }

/-- `context->setTensorAddress(name, device_buffers[name].get())`. -/
def registerAddress (name : String) : EngineM Unit :=
  modify fun e =>
    { e with context := { e.context with
        address := Function.update e.context.address name (buffer e name).data } }

/-- What the constructor records of a tensor. -/
def bindingInfo (t : IOTensor) : BindingInfo :=
  { name := t.name, shape := t.dims, elementSize := elementSizeFor t.dtype,
    volume := volumeOf t.dims, isInput := t.isInput }

/-- One round of the constructor's loop: buffers for the bindings of known shape only. -/
def addBinding (malloc : Malloc) (t : IOTensor) : EngineM Unit := do
  let info := bindingInfo t
  if 0 < info.volume ∧ 0 < info.elementSize then
    resetBuffer malloc t.name (sizeT (info.volume * info.elementSize))
    registerAddress t.name
  modify fun e => { e with bindings := e.bindings ++ [info] }

def addBindings (malloc : Malloc) : List IOTensor → EngineM Unit
  | [] => return ()
  | t :: ts => do
      addBinding malloc t
      addBindings malloc ts

/-- What the constructor finds at `engine_path`: the file's bytes, a runtime, the engine they
deserialize to, and an execution context. -/
structure EngineFile where
  blob : Option (List UInt8)
  runtime : Bool
  deserialize : List UInt8 → Option CudaEngine
  context : Bool

/-- A readable engine file. -/
def engineFile (engine : CudaEngine) : EngineFile :=
  { blob := some [], runtime := true, deserialize := fun _ => some engine, context := true }

/-- The part of the constructor before the loop. -/
def openEngine (enginePath : String) (file : EngineFile) : Except Exn CudaEngine :=
  match file.blob with
  | none => .error (.runtimeError ("cannot open TRT engine: " ++ enginePath))
  | some blob =>
      if file.runtime = false then .error (.runtimeError "createInferRuntime failed")
      else
        match file.deserialize blob with
        | none => .error (.runtimeError ("failed to deserialize TRT engine: " ++ enginePath))
        | some engine =>
            if file.context = false then
              .error (.runtimeError "failed to create TRT execution context")
            else .ok engine

namespace TrtEngine

/-- The constructor. -/
def new (malloc : Malloc) (enginePath : String) (file : EngineFile) : Except Exn TrtEngine :=
  match openEngine enginePath file with
  | .error err => .error err
  | .ok engine =>
      match (addBindings malloc engine.tensors).run { engine } with
      | .ok _ e => .ok e
      | .error err _ => .error err

/-- The first binding of that name. -/
def binding (e : TrtEngine) (name : String) : Except Exn BindingInfo :=
  match e.bindings.find? fun b => b.name = name with
  | some b => .ok b
  | none => .error (.outOfRange ("no such binding: " ++ name))

/-- `info.shape = shape; info.volume = volume_of(shape);` for the first binding of that name. -/
def recordShape (name : String) (shape : List Int) : List BindingInfo → List BindingInfo
  | [] => []
  | b :: bs =>
      if b.name = name then { b with shape := shape, volume := volumeOf shape } :: bs
      else b :: recordShape name shape bs

def setInputShape (malloc : Malloc) (name : String) (shape : List Int) : EngineM Unit := do
  if maxDims < shape.length then
    throw (.invalidArgument ("shape rank " ++ toString shape.length ++
      " exceeds TensorRT's maximum of " ++ toString maxDims))
  let e ← get
  if e.engine.accepts name shape = false then
    throw (.runtimeError ("setInputShape failed for " ++ name))
  modify fun e =>
    { e with context := { e.context with
        inputShape := Function.update e.context.inputShape name (some shape) } }
  match e.binding name with
  | .error err => throw err
  | .ok info =>
      modify fun e => { e with bindings := recordShape name shape e.bindings }
      resetBuffer malloc name (sizeT (volumeOf shape * info.elementSize))
      registerAddress name

/-- Calls of `set_input_shape` one after the other. -/
def setInputShapes (malloc : Malloc) : List (String × List Int) → EngineM Unit
  | [] => return ()
  | (name, shape) :: calls => do
      setInputShape malloc name shape
      setInputShapes malloc calls

/-- The shape the execution context has for a tensor: set, static, or inferred. -/
def contextShape (e : TrtEngine) (t : IOTensor) : List Int :=
  if t.isInput then (e.context.inputShape t.name).getD t.dims
  else e.engine.inferred e.context.inputShape t.name

/-- `device_buffers.at(name).get()`, as `copy_input`, `copy_output` and `device_ptr` use it. -/
def devicePtr (e : TrtEngine) (name : String) : Except Exn (Option ℕ) :=
  match e.deviceBuffers name with
  | some b => .ok b.data
  | none => .error (.outOfRange "_Map_base::at")

/-- `infer`: `enqueueV3` needs an address for every tensor, and may fail for reasons of its own. -/
def infer (e : TrtEngine) (enqueued : Bool) : Except Exn Unit :=
  if (∀ t ∈ e.engine.tensors, (e.context.address t.name).isSome) ∧ enqueued = true then .ok ()
  else .error (.runtimeError "enqueueV3 failed")

end TrtEngine

/-! ### Volumes -/

theorem elements_pos {shape : List Int} (hpos : ∀ d ∈ shape, 0 < d) : 0 < elements shape := by
  rw [elements, List.prod_pos_iff_forall_pos_nat]
  intro n hn
  obtain ⟨d, hd, rfl⟩ := List.mem_map.1 hn
  have := hpos d hd
  omega

theorem volumeFrom_of_pos {v : ℕ} {shape : List Int} (hpos : ∀ d ∈ shape, 0 < d)
    (hlt : v * elements shape < 2 ^ 64) : volumeFrom v shape = v * elements shape := by
  induction shape generalizing v with
  | nil => simp [volumeFrom, elements]
  | cons d ds ih =>
    rw [List.forall_mem_cons] at hpos
    have hprod : v * elements (d :: ds) = v * d.toNat * elements ds := by
      simp [elements, Nat.mul_assoc]
    rw [hprod] at hlt ⊢
    have hle : v * d.toNat ≤ v * d.toNat * elements ds :=
      Nat.le_mul_of_pos_right _ (elements_pos hpos.2)
    rw [volumeFrom, if_neg (not_le.2 hpos.1), sizeT, Nat.mod_eq_of_lt (Nat.lt_of_le_of_lt hle hlt)]
    exact ih hpos.2 hlt

theorem volumeOf_of_pos {shape : List Int} (hpos : ∀ d ∈ shape, 0 < d)
    (hlt : elements shape < 2 ^ 64) : volumeOf shape = elements shape := by
  rw [volumeOf, volumeFrom_of_pos hpos (by simpa using hlt), Nat.one_mul]

theorem volumeOf_of_not_pos {shape : List Int} (h : ∃ d ∈ shape, d ≤ 0) : volumeOf shape = 0 := by
  have hall : ∀ v, volumeFrom v shape = 0 := by
    induction shape with
    | nil => simp at h
    | cons d ds ih =>
      intro v
      rw [volumeFrom]
      split_ifs with hd
      · rfl
      · obtain ⟨x, hx, hle⟩ := h
        refine ih ⟨x, (List.mem_cons.1 hx).resolve_left fun heq => hd (heq ▸ hle), hle⟩ _
  exact hall 1

/-! ### What a call that returns has done -/

/-- The buffer of `name` after its old allocation is freed. -/
def freedBuffer (e : TrtEngine) (name : String) : DeviceBuffer :=
  { data := none, bytes := if (buffer e name).data.isSome then 0 else (buffer e name).bytes }

/-- The buffer of `name` after a `reset` that returns. -/
def newBuffer (e : TrtEngine) (name : String) (bytes : ℕ) : DeviceBuffer :=
  if 0 < bytes then ⟨some e.allocs, bytes⟩ else freedBuffer e name

theorem resetBuffer_run (malloc : Malloc) (name : String) (bytes : ℕ) (e : TrtEngine) :
    (resetBuffer malloc name bytes).run e =
      match if 0 < bytes then malloc e.allocs bytes else none with
      | some err => .error (.runtimeError ("CUDA error at " ++ err))
          { e with deviceBuffers := Function.update e.deviceBuffers name (some (freedBuffer e name)) }
      | none => .ok ()
          { e with
            deviceBuffers := Function.update e.deviceBuffers name (some (newBuffer e name bytes))
            allocs := if 0 < bytes then e.allocs + 1 else e.allocs } := by
  by_cases hbytes : 0 < bytes
  · cases hmalloc : malloc e.allocs bytes with
    | none => simp [resetBuffer, EStateM.run_bind, hbytes, hmalloc, newBuffer]
    | some err => simp [resetBuffer, EStateM.run_bind, hbytes, hmalloc, freedBuffer]
  · simp [resetBuffer, hbytes, newBuffer, freedBuffer]

theorem resetBuffer_ok {malloc : Malloc} {name : String} {bytes : ℕ} {e e' : TrtEngine} {u : Unit}
    (h : (resetBuffer malloc name bytes).run e = .ok u e') : e' =
      { e with
        deviceBuffers := Function.update e.deviceBuffers name (some (newBuffer e name bytes))
        allocs := if 0 < bytes then e.allocs + 1 else e.allocs } := by
  rw [resetBuffer_run] at h
  split at h
  · cases h
  · exact (EStateM.Result.ok.inj h).2.symm

theorem resetBuffer_returns {malloc : Malloc} (hmalloc : ∀ i n, malloc i n = none) (name : String)
    (bytes : ℕ) (e : TrtEngine) : ∃ e', (resetBuffer malloc name bytes).run e = .ok () e' := by
  rw [resetBuffer_run]
  simp only [hmalloc, ite_self]
  exact ⟨_, rfl⟩

/-- A new buffer, and its address registered. -/
def allocated (e : TrtEngine) (name : String) (bytes : ℕ) : TrtEngine :=
  { e with
    context := { e.context with
      address := Function.update e.context.address name (newBuffer e name bytes).data }
    deviceBuffers := Function.update e.deviceBuffers name (some (newBuffer e name bytes))
    allocs := if 0 < bytes then e.allocs + 1 else e.allocs }

theorem allocate_ok {malloc : Malloc} {name : String} {bytes : ℕ} {e e₁ e' : TrtEngine} {u v : Unit}
    (hreset : (resetBuffer malloc name bytes).run e = .ok u e₁)
    (hregister : (registerAddress name).run e₁ = .ok v e') : e' = allocated e name bytes := by
  simp only [registerAddress, EStateM.run_modify, EStateM.Result.ok.injEq] at hregister
  rw [← hregister.2, resetBuffer_ok hreset]
  simp [allocated, buffer]

theorem addBinding_ok {malloc : Malloc} {t : IOTensor} {e e' : TrtEngine} {u : Unit}
    (h : (addBinding malloc t).run e = .ok u e') :
    ∃ e₁, e₁ = (if 0 < volumeOf t.dims ∧ 0 < elementSizeFor t.dtype then
        allocated e t.name (sizeT (volumeOf t.dims * elementSizeFor t.dtype)) else e) ∧
      e' = { e₁ with bindings := e₁.bindings ++ [bindingInfo t] } := by
  by_cases hknown : 0 < volumeOf t.dims ∧ 0 < elementSizeFor t.dtype
  · rw [addBinding, if_pos (show 0 < (bindingInfo t).volume ∧ 0 < (bindingInfo t).elementSize
      from hknown)] at h
    obtain ⟨_, e₁, hreset, h⟩ := bind_run_ok.1 h
    obtain ⟨_, e₂, hregister, h⟩ := bind_run_ok.1 h
    simp only [EStateM.run_modify, EStateM.Result.ok.injEq] at h
    exact ⟨e₂, by rw [if_pos hknown, allocate_ok hreset hregister]; rfl, h.2.symm⟩
  · rw [addBinding, if_neg (show ¬(0 < (bindingInfo t).volume ∧ 0 < (bindingInfo t).elementSize)
      from hknown)] at h
    simp only [EStateM.run_modify, EStateM.Result.ok.injEq] at h
    exact ⟨e, by rw [if_neg hknown], h.2.symm⟩

/-- The constructor's loop records every tensor, in order. -/
theorem addBindings_bindings {malloc : Malloc} {ts : List IOTensor} {e e' : TrtEngine} {u : Unit}
    (h : (addBindings malloc ts).run e = .ok u e') :
    e'.engine = e.engine ∧ e'.bindings = e.bindings ++ ts.map bindingInfo := by
  induction ts generalizing e with
  | nil =>
    simp only [addBindings, EStateM.run_pure, EStateM.Result.ok.injEq] at h
    rw [h.2]
    exact ⟨rfl, by simp⟩
  | cons t ts ih =>
    obtain ⟨_, _, hfirst, hrest⟩ := bind_run_ok.1 h
    obtain ⟨e₁, he₁, rfl⟩ := addBinding_ok hfirst
    obtain ⟨hengine, hbindings⟩ := ih hrest
    have hfirst' : e₁.engine = e.engine ∧ e₁.bindings = e.bindings := by
      rw [he₁]
      split_ifs <;> exact ⟨rfl, rfl⟩
    exact ⟨hengine.trans hfirst'.1, by simp [hbindings, hfirst'.2]⟩

theorem new_ok {malloc : Malloc} {enginePath : String} {file : EngineFile} {e : TrtEngine}
    (h : TrtEngine.new malloc enginePath file = .ok e) :
    ∃ u, (addBindings malloc e.engine.tensors).run { engine := e.engine } = .ok u e := by
  unfold TrtEngine.new at h
  split at h
  · cases h
  · rename_i engine _
    split at h
    · rename_i u e₁ hrun
      obtain rfl : e₁ = e := Except.ok.inj h
      obtain rfl : e₁.engine = engine := (addBindings_bindings hrun).1
      exact ⟨u, hrun⟩
    · cases h

theorem new_bindings {malloc : Malloc} {enginePath : String} {file : EngineFile} {e : TrtEngine}
    (h : TrtEngine.new malloc enginePath file = .ok e) :
    e.bindings = e.engine.tensors.map bindingInfo := by
  obtain ⟨u, hrun⟩ := new_ok h
  simpa using (addBindings_bindings hrun).2

theorem setInputShape_ok {malloc : Malloc} {name : String} {shape : List Int} {e e' : TrtEngine}
    {u : Unit} (h : (TrtEngine.setInputShape malloc name shape).run e = .ok u e') :
    e.engine.accepts name shape = true ∧ ∃ info, e.binding name = .ok info ∧
      e' = allocated
        { e with
          context := { e.context with
            inputShape := Function.update e.context.inputShape name (some shape) }
          bindings := TrtEngine.recordShape name shape e.bindings }
        name (sizeT (volumeOf shape * info.elementSize)) := by
  unfold TrtEngine.setInputShape at h
  by_cases hrank : maxDims < shape.length
  · rw [if_pos hrank] at h
    obtain ⟨_, _, h, -⟩ := bind_run_ok.1 h
    cases h
  · rw [if_neg hrank, EStateM.run_bind, EStateM.run_get] at h
    cases haccepts : e.engine.accepts name shape with
    | false =>
      simp only [haccepts, if_true] at h
      obtain ⟨_, _, h, -⟩ := bind_run_ok.1 h
      cases h
    | true =>
      simp only [haccepts, Bool.true_eq_false, if_false, EStateM.run_bind, EStateM.run_modify] at h
      cases hbinding : e.binding name with
      | error err =>
        rw [hbinding] at h
        cases h
      | ok info =>
        simp only [hbinding] at h
        obtain ⟨_, e₁, hmodify, h⟩ := bind_run_ok.1 h
        obtain ⟨_, e₂, hreset, hregister⟩ := bind_run_ok.1 h
        simp only [EStateM.run_modify, EStateM.Result.ok.injEq] at hmodify
        refine ⟨rfl, info, rfl, ?_⟩
        rw [allocate_ok hreset hregister, ← hmodify.2]

/-- A call that the context accepts returns, unless there is no memory. -/
theorem setInputShape_run {malloc : Malloc} {name : String} {shape : List Int} {e : TrtEngine}
    {info : BindingInfo} (hrank : shape.length ≤ maxDims)
    (haccepts : e.engine.accepts name shape = true) (hbinding : e.binding name = .ok info)
    (hmalloc : ∀ i n, malloc i n = none) :
    ∃ e', (TrtEngine.setInputShape malloc name shape).run e = .ok () e' := by
  have hrank' : ¬maxDims < shape.length := Nat.not_lt.2 hrank
  rw [TrtEngine.setInputShape, if_neg hrank', bind_run_of_ok (EStateM.run_get e)]
  simp only [haccepts, Bool.true_eq_false, if_false, hbinding]
  rw [bind_run_of_ok (EStateM.run_modify _ _), bind_run_of_ok (EStateM.run_modify _ _)]
  obtain ⟨e₁, hreset⟩ := resetBuffer_returns hmalloc name (sizeT (volumeOf shape * info.elementSize)) _
  exact ⟨_, (bind_run_of_ok hreset).trans rfl⟩

end FacePipeline.Trt
