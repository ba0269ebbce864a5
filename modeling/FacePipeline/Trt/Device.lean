import FacePipeline.Lib.Hoare
import FacePipeline.Trt.Allocation
import FacePipeline.Trt.ArcFaceEncoder

/-!
# The wrapper on its device memory

`deviceOps` is what the member functions of `TrtEngine` do once device memory has contents: an allocation
is told apart by its serial number, holds words of the size of a `float`, and every call of
`cudaMemcpyAsync` is logged with the bytes it moves and the bytes there are at its two ends. Nothing in the
code compares the three; a copy that does not fit is undefined.

What CUDA and TensorRT do is a parameter (`Cuda`): which calls fail, and what inference leaves in memory.
-/

namespace FacePipeline.Trt

open Hoare

/-- A call of `cudaMemcpyAsync`: the bytes it moves, those of the device buffer and those of the host
vector. -/
structure Copy where
  bytes : ℕ
  device : ℕ
  host : ℕ
  deriving DecidableEq, Repr

/-- The copy stays inside both of its ends. -/
def Copy.Fits (c : Copy) : Prop :=
  c.bytes ≤ c.device ∧ c.bytes ≤ c.host

instance (c : Copy) : Decidable c.Fits :=
  inferInstanceAs (Decidable (_ ∧ _))

/-- The words of each allocation. -/
abbrev Memory (F : Type) := ℕ → ℕ → F

/-- The CUDA runtime and TensorRT. -/
structure Cuda (F : Type) where
  malloc : Malloc
  /-- The error of the `i`-th call on a stream, if it fails. -/
  fault : ℕ → Option String
  /-- `enqueueV3`: the memory after inference, if it is enqueued. -/
  enqueue : TrtEngine → Memory F → Option (Memory F)

/-- The wrapper, the memory its buffers own, the number of calls on a stream and the copies so far. -/
structure Device (F : Type) where
  engine : TrtEngine
  memory : Memory F
  calls : ℕ := 0
  copies : List Copy := []

abbrev DeviceM (F : Type) := EStateM Stop (Device F)

section Calls

variable {F : Type}

/-- A member function of the wrapper that leaves the memory alone. -/
def onWrapper {α : Type} (x : EngineM α) : DeviceM F α := fun d =>
  match x.run d.engine with
  | .ok a engine => .ok a { d with engine }
  | .error err engine => .error (.throws err) { d with engine }

/-- A checked call on a stream. -/
def streamCall (cuda : Cuda F) : DeviceM F Unit := do
  let d ← get
  set { d with calls := d.calls + 1 }
  match cuda.fault d.calls with
  | some err => throw (.throws (.runtimeError ("CUDA error at " ++ err)))
  | none => return ()

/-- `cudaMemcpyAsync` between `device_buffers.at(name)` and a host vector; the result is the address. -/
def memcpyAsync (cuda : Cuda F) (name : String) (host : List F) (bytes : ℕ) : DeviceM F (Option ℕ) := do
  let d ← get
  match d.engine.deviceBuffers name with
  | none => throw (.throws (.outOfRange "_Map_base::at"))
  | some buffer =>
      let copy : Copy := { bytes, device := buffer.bytes, host := host.length * kFloatSize }
      set { d with copies := d.copies ++ [copy] }
      if copy.Fits then do
        streamCall cuda
        return buffer.data
      else throw (.undefined "copy past the end of a buffer")

/-- The first words of an allocation, replaced. -/
def writeWords (memory : Memory F) (p : ℕ) (words : List F) : Memory F :=
  Function.update memory p fun i => words.getD i (memory p i)

/-- The first words of an allocation. -/
def readWords (memory : Memory F) (p n : ℕ) : List F :=
  (List.range n).map (memory p)

def copyInput (cuda : Cuda F) (name : String) (host : List F) (bytes : ℕ) : DeviceM F Unit := do
  match ← memcpyAsync cuda name host bytes with
  | none => return ()
  | some p => modify fun d =>
      { d with memory := writeWords d.memory p (host.take (bytes / kFloatSize)) }

def copyOutput (cuda : Cuda F) (name : String) (host : List F) (bytes : ℕ) : DeviceM F (List F) := do
  match ← memcpyAsync cuda name host bytes with
  | none => return host
  | some p =>
      let d ← get
      return readWords d.memory p (bytes / kFloatSize) ++ host.drop (bytes / kFloatSize)

def infer (cuda : Cuda F) : DeviceM F Unit := do
  let d ← get
  let memory := cuda.enqueue d.engine d.memory
  match d.engine.infer memory.isSome with
  | .error err => throw (.throws err)
  | .ok () => set { d with memory := memory.getD d.memory }

/-- The engine behind `engine_`. -/
def deviceOps (cuda : Cuda F) : EngineOps (Device F) F where
  bindings d := d.engine.bindings
  setInputShape name shape := onWrapper (TrtEngine.setInputShape cuda.malloc name shape)
  createStream := streamCall cuda
  copyInput := copyInput cuda
  infer := infer cuda
  copyOutput := copyOutput cuda
  synchronize := streamCall cuda

/-- A loaded engine, before the first call. -/
def loaded (engine : TrtEngine) (memory : Memory F) : Device F :=
  { engine, memory }

/-- An exception can be caught by a caller that calls again. -/
def caught : Stop → Bool
  | .throws _ => true
  | .undefined _ => false

/-! ### Words -/

theorem readWords_writeWords (memory : Memory F) (p : ℕ) (words : List F) :
    readWords (writeWords memory p words) p words.length = words := by
  apply List.ext_getElem
  · simp [readWords]
  · intro i _ hi
    simp [readWords, writeWords, hi]

theorem length_readWords (memory : Memory F) (p n : ℕ) : (readWords memory p n).length = n := by
  simp [readWords]

/-! ### Calls that succeed -/

variable {cuda : Cuda F} {d : Device F}

theorem onWrapper_eq {α : Type} (x : EngineM α) :
    (onWrapper x : DeviceM F α) = focus (·.engine) (fun engine d => { d with engine }) .throws x := by
  funext d
  rw [onWrapper, focus]
  cases x.run d.engine with
  | ok a engine => rfl
  | error err engine => rfl

theorem onWrapper_ok {α : Type} {x : EngineM α} {a : α} {e : TrtEngine}
    (h : x.run d.engine = .ok a e) :
    (onWrapper x : DeviceM F α).run d = .ok a { d with engine := e } := by
  rw [onWrapper_eq]
  exact focus_ok h

theorem streamCall_ok (hfault : cuda.fault d.calls = none) :
    (streamCall cuda).run d = .ok () { d with calls := d.calls + 1 } := by
  rw [streamCall, bind_run_of_ok (EStateM.run_get d), bind_run_of_ok (EStateM.run_set _ _)]
  rw [hfault]
  rfl

/-- The device after a copy. -/
def Device.copied (d : Device F) (copy : Copy) (memory : Memory F) : Device F :=
  { d with memory, calls := d.calls + 1, copies := d.copies ++ [copy] }

theorem memcpyAsync_ok {name : String} {host : List F} {bytes : ℕ} {buffer : DeviceBuffer}
    (hbuffer : d.engine.deviceBuffers name = some buffer) (hdevice : bytes ≤ buffer.bytes)
    (hhost : bytes ≤ host.length * kFloatSize) (hfault : cuda.fault d.calls = none) :
    (memcpyAsync cuda name host bytes).run d = .ok buffer.data
      (d.copied ⟨bytes, buffer.bytes, host.length * kFloatSize⟩ d.memory) := by
  have hfits : Copy.Fits ⟨bytes, buffer.bytes, host.length * kFloatSize⟩ := ⟨hdevice, hhost⟩
  rw [memcpyAsync, bind_run_of_ok (EStateM.run_get d)]
  simp only [hbuffer, if_pos hfits]
  rw [bind_run_of_ok (EStateM.run_set _ _)]
  exact bind_run_of_ok (streamCall_ok hfault)

theorem copyInput_ok {name : String} {host : List F} {n p bytes : ℕ}
    (hbuffer : d.engine.deviceBuffers name = some ⟨some p, bytes⟩) (hdevice : n * kFloatSize ≤ bytes)
    (hhost : n ≤ host.length) (hfault : cuda.fault d.calls = none) :
    (copyInput cuda name host (n * kFloatSize)).run d = .ok ()
      (d.copied ⟨n * kFloatSize, bytes, host.length * kFloatSize⟩
        (writeWords d.memory p (host.take n))) := by
  rw [copyInput, bind_run_of_ok (memcpyAsync_ok hbuffer hdevice (Nat.mul_le_mul_right _ hhost) hfault),
    Nat.mul_div_cancel _ (by decide : 0 < kFloatSize)]
  rfl

theorem copyOutput_ok {name : String} {host : List F} {n p bytes : ℕ}
    (hbuffer : d.engine.deviceBuffers name = some ⟨some p, bytes⟩) (hdevice : n * kFloatSize ≤ bytes)
    (hhost : n ≤ host.length) (hfault : cuda.fault d.calls = none) :
    (copyOutput cuda name host (n * kFloatSize)).run d = .ok (readWords d.memory p n ++ host.drop n)
      (d.copied ⟨n * kFloatSize, bytes, host.length * kFloatSize⟩ d.memory) := by
  rw [copyOutput, bind_run_of_ok (memcpyAsync_ok hbuffer hdevice (Nat.mul_le_mul_right _ hhost) hfault),
    Nat.mul_div_cancel _ (by decide : 0 < kFloatSize)]
  rfl

theorem infer_ok {memory : Memory F} (hinfer : d.engine.infer true = .ok ())
    (henqueue : cuda.enqueue d.engine d.memory = some memory) :
    (infer cuda).run d = .ok () { d with memory } := by
  rw [infer, bind_run_of_ok (EStateM.run_get d), henqueue]
  simp only [Option.isSome_some, hinfer]
  rfl

/-- A copy past an end: it is issued, and what follows is undefined. -/
theorem memcpyAsync_misfit {name : String} {host : List F} {bytes : ℕ} {buffer : DeviceBuffer}
    (hbuffer : d.engine.deviceBuffers name = some buffer)
    (hmisfit : ¬Copy.Fits ⟨bytes, buffer.bytes, host.length * kFloatSize⟩) :
    (memcpyAsync cuda name host bytes).run d = .error (.undefined "copy past the end of a buffer")
      { d with copies := d.copies ++ [⟨bytes, buffer.bytes, host.length * kFloatSize⟩] } := by
  rw [memcpyAsync, bind_run_of_ok (EStateM.run_get d)]
  simp only [hbuffer, if_neg hmisfit]
  rw [bind_run_of_ok (EStateM.run_set _ _)]
  rfl

/-- A copy was issued that does not fit. -/
def Misfit (d : Device F) : Prop :=
  ∃ c ∈ d.copies, ¬c.Fits

/-! ### Calls that leave the wrapper as it is -/

/-- The wrapper is `e`, and every copy so far fits. -/
def Steady (e : TrtEngine) (d : Device F) : Prop :=
  d.engine = e ∧ ∀ c ∈ d.copies, c.Fits

variable {e : TrtEngine}

theorem streamCall_steady : Triple (Steady e) (streamCall cuda) (fun _ => Steady e) (Steady e) := by
  refine Triple.get_bind fun d hd => Triple.bind (Q := fun _ => Steady e) (Triple.set hd) fun _ => ?_
  cases cuda.fault d.calls with
  | none => exact Triple.pure fun _ hs => hs
  | some err => exact Triple.throw fun _ hs => hs

theorem memcpyAsync_steady {name : String} {host : List F} {bytes : ℕ}
    (hdevice : ∀ buffer, e.deviceBuffers name = some buffer → bytes ≤ buffer.bytes)
    (hhost : bytes ≤ host.length * kFloatSize) :
    Triple (Steady e) (memcpyAsync cuda name host bytes) (fun _ => Steady e) (Steady e) := by
  refine Triple.get_bind fun d hd => ?_
  obtain ⟨rfl, hcopies⟩ := hd
  cases hbuffer : d.engine.deviceBuffers name with
  | none => exact Triple.throw fun _ hs => hs
  | some buffer =>
    have hfits : Copy.Fits ⟨bytes, buffer.bytes, host.length * kFloatSize⟩ :=
      ⟨hdevice buffer hbuffer, hhost⟩
    simp only [if_pos hfits]
    refine (Triple.set ⟨rfl, fun c hc => ?_⟩).bind fun _ => streamCall_steady.bind fun _ =>
      Triple.pure fun _ hs => hs
    rcases List.mem_append.1 hc with hc | hc
    · exact hcopies c hc
    · rwa [List.mem_singleton.1 hc]

theorem copyInput_steady {name : String} {host : List F} {bytes : ℕ}
    (hdevice : ∀ buffer, e.deviceBuffers name = some buffer → bytes ≤ buffer.bytes)
    (hhost : bytes ≤ host.length * kFloatSize) :
    Triple (Steady e) (copyInput cuda name host bytes) (fun _ => Steady e) (Steady e) := by
  refine (memcpyAsync_steady hdevice hhost).bind fun p => ?_
  cases p with
  | none => exact Triple.pure fun _ hs => hs
  | some p => exact Triple.modify fun _ hs => hs

/-- A copy out leaves the host vector's length. -/
theorem copyOutput_steady {name : String} {host : List F} {bytes : ℕ}
    (hdevice : ∀ buffer, e.deviceBuffers name = some buffer → bytes ≤ buffer.bytes)
    (hhost : bytes ≤ host.length * kFloatSize) :
    Triple (Steady e) (copyOutput cuda name host bytes)
      (fun out d => Steady e d ∧ out.length = host.length) (Steady e) := by
  refine (memcpyAsync_steady hdevice hhost).bind fun p => ?_
  cases p with
  | none => exact Triple.pure fun _ hs => ⟨hs, rfl⟩
  | some p =>
    refine Triple.get_bind fun d _ => Triple.pure fun _ hs => ⟨hs, ?_⟩
    have hwords : bytes / kFloatSize ≤ host.length := Nat.div_le_of_le_mul (by rwa [Nat.mul_comm])
    rw [List.length_append, length_readWords, List.length_drop]
    omega

/-- Inference needs an address for every tensor. -/
theorem infer_steady : Triple (Steady e) (infer cuda)
    (fun _ d => Steady e d ∧ ∀ t ∈ e.engine.tensors, (e.context.address t.name).isSome) (Steady e) := by
  refine Triple.get_bind fun d hd => ?_
  obtain ⟨rfl, hcopies⟩ := hd
  cases hinfer : d.engine.infer (cuda.enqueue d.engine d.memory).isSome with
  | error err =>
    simp only [hinfer]
    exact Triple.throw fun _ hs => hs
  | ok _ =>
    simp only [hinfer]
    rw [TrtEngine.infer] at hinfer
    split_ifs at hinfer with haddress
    exact Triple.set ⟨⟨rfl, hcopies⟩, haddress.1⟩

end Calls

end FacePipeline.Trt
