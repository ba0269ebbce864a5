import FacePipeline.Lib.Ownership
import FacePipeline.Lib.Runs
import FacePipeline.Trt.TrtEngine

/-!
# The owning wrappers of CUDA handles

`CudaStream`, `PinnedBuffer` and `DeviceBuffer` free in their destructors what they allocate in their constructors. The
runtime is a heap of handles with their sizes; it answers an allocation with an error, a handle or null, and never
with a handle that is allocated. Nobody looks at what a free comes to: the runtime may refuse it, and the handle is
then lost, and a free of anything that is not there is counted by `invalidFrees`.

A program builds, moves, assigns, changes and destroys objects in any order (`step`), each of which may throw where
the member function can. Whatever it does, every handle that is allocated belongs to exactly one object or was
refused to be freed (`wrappers_neverLeak`).
-/

namespace FacePipeline.Utils

open FacePipeline.Trt (DeviceBuffer sizeT)
open Ownership Runs

structure Heap where
  /-- The bytes of every handle that is allocated, those that are lost apart. -/
  live : ℕ → Option ℕ := fun _ => none
  /-- The bytes of every handle that the runtime has refused to free. -/
  lost : ℕ → Option ℕ := fun _ => none
  frees : ℕ := 0
  invalidFrees : ℕ := 0
  /-- Whether the runtime refuses the `i`-th free. -/
  refuses : ℕ → Bool := fun _ => false

/-- What the runtime says to an allocation: the error's text, or the handle it has stored. -/
abbrev Answer := Except String (Option ℕ)

/-- `cuda_check` of an allocation. No run has an answer with a handle that is allocated already. -/
def allocate (bytes : ℕ) (answer : Answer) (heap : Heap) : Option (Except Exn (Option ℕ) × Heap) :=
  match answer with
  | .error err => some (.error (.runtimeError ("CUDA error at " ++ err)), heap)
  | .ok none => some (.ok none, heap)
  | .ok (some p) =>
      if heap.live p = none ∧ heap.lost p = none then
        some (.ok (some p), { heap with live := Function.update heap.live p (some bytes) })
      else none

/-- `cudaFree`, `cudaFreeHost` and `cudaStreamDestroy`. -/
def cudaFree (p : ℕ) (heap : Heap) : Heap :=
  match heap.live p with
  | some n => { heap with
      live := Function.update heap.live p none
      lost := if heap.refuses heap.frees then Function.update heap.lost p (some n) else heap.lost
      frees := heap.frees + 1 }
  | none => { heap with frees := heap.frees + 1, invalidFrees := heap.invalidFrees + 1 }

/-- `if (p != nullptr) cudaFree(p);` -/
def freeUnlessNull (p : Option ℕ) (heap : Heap) : Heap :=
  match p with
  | some p => cudaFree p heap
  | none => heap

/-! ### `CudaStream` -/

structure CudaStream where
  stream : Option ℕ := none

namespace CudaStream

def new (answer : Answer) (heap : Heap) : Option (Except Exn CudaStream × Heap) := do
  let (stream, heap) ← allocate 0 answer heap
  return (stream.map fun stream => ⟨stream⟩, heap)

def destroy (s : CudaStream) (heap : Heap) : Heap :=
  freeUnlessNull s.stream heap

/-- The new object, and what is left of the other one. -/
def moveFrom (other : CudaStream) : CudaStream × CudaStream :=
  (⟨other.stream⟩, { other with stream := none })

/-- The assignment between two different objects. -/
def moveAssign (s other : CudaStream) (heap : Heap) : CudaStream × CudaStream × Heap :=
  let heap := freeUnlessNull s.stream heap
  ({ s with stream := other.stream }, { other with stream := none }, heap)

end CudaStream

/-! ### `PinnedBuffer` -/

structure PinnedBuffer where
  data : Option ℕ := none
  count : ℕ := 0

namespace PinnedBuffer

/-- `count * sizeof(T)`. -/
def bytes (sizeofT : ℕ) (b : PinnedBuffer) : ℕ :=
  sizeT (b.count * sizeofT)

def new (sizeofT count : ℕ) (answer : Answer) (heap : Heap) : Option (Except Exn PinnedBuffer × Heap) := do
  let (data, heap) ← allocate (sizeT (count * sizeofT)) answer heap
  return (data.map fun data => ⟨data, count⟩, heap)

def destroy (b : PinnedBuffer) (heap : Heap) : Heap :=
  freeUnlessNull b.data heap

def moveFrom (other : PinnedBuffer) : PinnedBuffer × PinnedBuffer :=
  (⟨other.data, other.count⟩, { other with data := none, count := 0 })

def moveAssign (b other : PinnedBuffer) (heap : Heap) : PinnedBuffer × PinnedBuffer × Heap :=
  let heap := freeUnlessNull b.data heap
  ({ b with data := other.data, count := other.count }, { other with data := none, count := 0 }, heap)

end PinnedBuffer

/-! ### `DeviceBuffer` -/

namespace DeviceBuffer

def new (bytes : ℕ) (answer : Answer) (heap : Heap) : Option (Except Exn DeviceBuffer × Heap) :=
  if 0 < bytes then do
    let (data, heap) ← allocate bytes answer heap
    return (data.map fun data => ⟨data, bytes⟩, heap)
  else some (.ok ⟨none, bytes⟩, heap)

def release (b : DeviceBuffer) (heap : Heap) : DeviceBuffer × Heap :=
  match b.data with
  | some p => ({ b with data := none, bytes := 0 }, cudaFree p heap)
  | none => (b, heap)

/-- The buffer afterwards, and what is thrown. -/
def reset (b : DeviceBuffer) (newBytes : ℕ) (answer : Answer) (heap : Heap) :
    Option (DeviceBuffer × Option Exn × Heap) :=
  let (b, heap) := release b heap
  if 0 < newBytes then do
    let (data, heap) ← allocate newBytes answer heap
    match data with
    | .ok data => return ({ b with data, bytes := newBytes }, none, heap)
    | .error e => return (b, some e, heap)
  else some (b, none, heap)

def destroy (b : DeviceBuffer) (heap : Heap) : Heap :=
  (release b heap).2

def moveFrom (other : DeviceBuffer) : DeviceBuffer × DeviceBuffer :=
  (⟨other.data, other.bytes⟩, { other with data := none, bytes := 0 })

def moveAssign (b other : DeviceBuffer) (heap : Heap) : DeviceBuffer × DeviceBuffer × Heap :=
  let (b, heap) := release b heap
  ({ b with data := other.data, bytes := other.bytes }, { other with data := none, bytes := 0 }, heap)

end DeviceBuffer

/-! ### Programs -/

/-- The member functions of one of the classes: how objects are built and changed, and the handle one owns, with its
size. -/
structure Wrapper (O New Change : Type) where
  handle : O → Option (ℕ × ℕ)
  new : New → Heap → Option (Except Exn O × Heap)
  moveFrom : O → O × O
  moveAssign : O → O → Heap → O × O × Heap
  change : Change → O → Heap → Option (O × Option Exn × Heap)
  destroy : O → Heap → Heap

def cudaStream : Wrapper CudaStream Answer Empty where
  handle s := s.stream.map (·, 0)
  new := CudaStream.new
  moveFrom := CudaStream.moveFrom
  moveAssign := CudaStream.moveAssign
  change := Empty.elim
  destroy := CudaStream.destroy

def pinnedBuffer (sizeofT : ℕ) : Wrapper PinnedBuffer (ℕ × Answer) Empty where
  handle b := b.data.map (·, b.bytes sizeofT)
  new args := PinnedBuffer.new sizeofT args.1 args.2
  moveFrom := PinnedBuffer.moveFrom
  moveAssign := PinnedBuffer.moveAssign
  change := Empty.elim
  destroy := PinnedBuffer.destroy

/-- The two members of a `DeviceBuffer` that change it in place. -/
inductive DeviceBuffer.Change where
  | release
  | reset (newBytes : ℕ) (answer : Answer)

def DeviceBuffer.change : DeviceBuffer.Change → DeviceBuffer → Heap → Option (DeviceBuffer × Option Exn × Heap)
  | .release, b, heap => some ((release b heap).1, none, (release b heap).2)
  | .reset newBytes answer, b, heap => reset b newBytes answer heap

/-- The default constructor builds what `DeviceBuffer(0)` builds. -/
def deviceBuffer : Wrapper DeviceBuffer (ℕ × Answer) DeviceBuffer.Change where
  handle b := b.data.map (·, b.bytes)
  new args := DeviceBuffer.new args.1 args.2
  moveFrom := DeviceBuffer.moveFrom
  moveAssign := DeviceBuffer.moveAssign
  change := DeviceBuffer.change
  destroy := DeviceBuffer.destroy

/-- What a program does to the objects named in `ι`. -/
inductive Event (ι New Change : Type) where
  | new (x : ι) (args : New)
  | move (x y : ι)
  | assign (x y : ι)
  | change (x : ι) (args : Change)
  | destroy (x : ι)

structure State (ι O : Type) where
  objects : ι → Option O := fun _ => none
  heap : Heap := {}

section Model

variable {ι O New Change : Type} [DecidableEq ι]

/-- One step. A constructor that throws leaves no object; an object is used only while it is there. -/
def step (w : Wrapper O New Change) : Event ι New Change → State ι O → Option (State ι O)
  | .new x args, s =>
      match s.objects x with
      | some _ => none
      | none => do
          let (built, heap) ← w.new args s.heap
          match built with
          | .ok o => return { objects := Function.update s.objects x (some o), heap }
          | .error _ => return { s with heap }
  | .move x y, s =>
      match s.objects x, s.objects y with
      | none, some other =>
          let (o, left) := w.moveFrom other
          some { s with objects := Function.update (Function.update s.objects x (some o)) y (some left) }
      | _, _ => none
  | .assign x y, s =>
      match s.objects x, s.objects y with
      | some o, some other =>
          if x = y then some s
          else
            let (o, left, heap) := w.moveAssign o other s.heap
            some { objects := Function.update (Function.update s.objects x (some o)) y (some left), heap }
      | _, _ => none
  | .change x args, s =>
      match s.objects x with
      | some o => do
          let (o, _, heap) ← w.change args o s.heap
          return { objects := Function.update s.objects x (some o), heap }
      | none => none
  | .destroy x, s =>
      match s.objects x with
      | some o => some { objects := Function.update s.objects x none, heap := w.destroy o s.heap }
      | none => none

def State.held (w : Wrapper O New Change) (s : State ι O) (x : ι) : Option (ℕ × ℕ) :=
  (s.objects x).bind w.handle

/-- Every handle that is allocated and not lost belongs to one object, which knows its size. None was freed that was
not there, and none is lost unless the runtime has refused a free. -/
structure Owned (w : Wrapper O New Change) (refuses : ℕ → Bool) (s : State ι O) : Prop where
  exact : Exact (s.held w) s.heap.live
  invalidFrees : s.heap.invalidFrees = 0
  runtime : s.heap.refuses = refuses
  lost : ∀ p, s.heap.lost p ≠ none → ∃ i < s.heap.frees, refuses i = true

end Model

/-! ### What the member functions do to the heap -/

/-- The handle is allocated with its size. -/
def Backed (heap : Heap) (handle : Option (ℕ × ℕ)) : Prop :=
  ∀ p n, handle = some (p, n) → heap.live p = some n

/-- The heap once a handle, if there is one, is freed. -/
def Heap.freed (heap : Heap) (handle : Option (ℕ × ℕ)) : Heap :=
  match handle with
  | some (p, n) => { heap with
      live := Function.update heap.live p none
      lost := if heap.refuses heap.frees then Function.update heap.lost p (some n) else heap.lost
      frees := heap.frees + 1 }
  | none => heap

theorem freed_live (heap : Heap) (handle : Option (ℕ × ℕ)) :
    (heap.freed handle).live = discard handle heap.live := by
  cases handle <;> rfl

theorem freed_frame (heap : Heap) (handle : Option (ℕ × ℕ)) :
    (heap.freed handle).invalidFrees = heap.invalidFrees ∧ (heap.freed handle).refuses = heap.refuses := by
  cases handle <;> exact ⟨rfl, rfl⟩

/-- A handle is lost only by a free that was refused. -/
theorem freed_lost {heap : Heap} (h : ∀ p, heap.lost p ≠ none → ∃ i < heap.frees, heap.refuses i = true)
    (handle : Option (ℕ × ℕ)) {p : ℕ} (hp : (heap.freed handle).lost p ≠ none) :
    ∃ i < (heap.freed handle).frees, heap.refuses i = true := by
  cases handle with
  | none => exact h p hp
  | some handle =>
    obtain ⟨q, n⟩ := handle
    cases hrefuses : heap.refuses heap.frees with
    | true => exact ⟨heap.frees, Nat.lt_succ_self _, hrefuses⟩
    | false =>
      have hold : heap.lost p ≠ none := by simpa [Heap.freed, hrefuses] using hp
      obtain ⟨i, hi, hri⟩ := h p hold
      exact ⟨i, Nat.lt_succ_of_lt hi, hri⟩

/-- The handle is new, if there is one. -/
inductive Acquired (heap : Heap) : Option (ℕ × ℕ) → Heap → Prop where
  | nothing : Acquired heap none heap
  | handle {p n : ℕ} (hp : heap.live p = none) :
      Acquired heap (some (p, n)) { heap with live := Function.update heap.live p (some n) }

structure Lawful {O New Change : Type} (w : Wrapper O New Change) : Prop where
  new_ok : ∀ args heap o heap', w.new args heap = some (.ok o, heap') → Acquired heap (w.handle o) heap'
  new_error : ∀ args heap e heap', w.new args heap = some (.error e, heap') → heap' = heap
  moveFrom : ∀ other, w.handle (w.moveFrom other).1 = w.handle other ∧ w.handle (w.moveFrom other).2 = none
  moveAssign : ∀ o other heap, Backed heap (w.handle o) →
    w.handle (w.moveAssign o other heap).1 = w.handle other ∧ w.handle (w.moveAssign o other heap).2.1 = none ∧
      (w.moveAssign o other heap).2.2 = heap.freed (w.handle o)
  change : ∀ args o heap o' e heap', Backed heap (w.handle o) → w.change args o heap = some (o', e, heap') →
    Acquired (heap.freed (w.handle o)) (w.handle o') heap'
  destroy : ∀ o heap, Backed heap (w.handle o) → w.destroy o heap = heap.freed (w.handle o)

section Laws

variable {heap heap' : Heap} {bytes : ℕ} {answer : Answer} {e : Exn}

theorem allocate_ok {data : Option ℕ} (h : allocate bytes answer heap = some (.ok data, heap')) :
    Acquired heap (data.map (·, bytes)) heap' := by
  unfold allocate at h
  split at h
  · cases h
  · cases h
    exact .nothing
  · split_ifs at h with hp
    cases h
    exact .handle hp.1

theorem allocate_error (h : allocate bytes answer heap = some (.error e, heap')) : heap' = heap := by
  unfold allocate at h
  split at h
  · cases h
    rfl
  · cases h
  · split_ifs at h
    cases h

theorem cudaFree_eq {p n : ℕ} (h : Backed heap (some (p, n))) : cudaFree p heap = heap.freed (some (p, n)) := by
  have hp : heap.live p = some n := h p n rfl
  rw [cudaFree, hp]
  rfl

theorem freeUnlessNull_eq {p : Option ℕ} {n : ℕ} (h : Backed heap (p.map (·, n))) :
    freeUnlessNull p heap = heap.freed (p.map (·, n)) := by
  cases p with
  | none => rfl
  | some p => exact cudaFree_eq h

theorem release_eq {b : DeviceBuffer} (h : Backed heap (deviceBuffer.handle b)) :
    deviceBuffer.handle (DeviceBuffer.release b heap).1 = none ∧
      (DeviceBuffer.release b heap).2 = heap.freed (deviceBuffer.handle b) := by
  obtain ⟨data, bytes⟩ := b
  cases data with
  | none => exact ⟨rfl, rfl⟩
  | some p => exact ⟨rfl, cudaFree_eq h⟩

/-- A constructor that allocates and stores the handle. -/
theorem acquired_of_new {O : Type} (handle : O → Option (ℕ × ℕ)) {make : Option ℕ → O}
    (hmake : ∀ data, handle (make data) = data.map (·, bytes)) {built : Except Exn O}
    (h : (do
      let (data, heap) ← allocate bytes answer heap
      return (data.map make, heap)) = some (built, heap')) :
    (∀ o, built = .ok o → Acquired heap (handle o) heap') ∧ ∀ e, built = .error e → heap' = heap := by
  obtain ⟨⟨data, heap₁⟩, halloc, hreturn⟩ := Option.bind_eq_some_iff.1 h
  cases hreturn
  cases data with
  | ok data =>
    constructor
    · rintro _ ⟨⟩
      rw [hmake]
      exact allocate_ok halloc
    · rintro e ⟨⟩
  | error e =>
    constructor
    · rintro o ⟨⟩
    · intro _ _
      exact allocate_error halloc

end Laws

theorem cudaStream_lawful : Lawful cudaStream where
  new_ok _ _ o _ h := (acquired_of_new cudaStream.handle (fun _ => rfl) h).1 o rfl
  new_error _ _ e _ h := (acquired_of_new cudaStream.handle (fun _ => rfl) h).2 e rfl
  moveFrom _ := ⟨rfl, rfl⟩
  moveAssign _ _ _ h := ⟨rfl, rfl, freeUnlessNull_eq h⟩
  change args := args.elim
  destroy _ _ h := freeUnlessNull_eq h

theorem pinnedBuffer_lawful (sizeofT : ℕ) : Lawful (pinnedBuffer sizeofT) where
  new_ok _ _ o _ h := (acquired_of_new (pinnedBuffer sizeofT).handle (fun _ => rfl) h).1 o rfl
  new_error _ _ e _ h := (acquired_of_new (pinnedBuffer sizeofT).handle (fun _ => rfl) h).2 e rfl
  moveFrom _ := ⟨rfl, rfl⟩
  moveAssign _ _ _ h := ⟨rfl, rfl, freeUnlessNull_eq h⟩
  change args := args.elim
  destroy _ _ h := freeUnlessNull_eq h

theorem reset_acquired {b b' : DeviceBuffer} {newBytes : ℕ} {answer : Answer} {e : Option Exn} {heap heap' : Heap}
    (h : Backed heap (deviceBuffer.handle b)) (hreset : DeviceBuffer.reset b newBytes answer heap = some (b', e, heap')) :
    Acquired (heap.freed (deviceBuffer.handle b)) (deviceBuffer.handle b') heap' := by
  obtain ⟨hnull, hfreed⟩ := release_eq h
  unfold DeviceBuffer.reset at hreset
  dsimp only at hreset
  rw [hfreed] at hreset
  split_ifs at hreset with hbytes
  · obtain ⟨⟨data, heap₁⟩, halloc, hreturn⟩ := Option.bind_eq_some_iff.1 hreset
    cases data with
    | ok data =>
      cases hreturn
      exact allocate_ok halloc
    | error err =>
      cases hreturn
      rw [hnull, allocate_error halloc]
      exact .nothing
  · cases hreset
    rw [hnull]
    exact .nothing

theorem deviceBuffer_lawful : Lawful deviceBuffer where
  new_ok args heap o heap' h := by
    change DeviceBuffer.new args.1 args.2 heap = some (.ok o, heap') at h
    unfold DeviceBuffer.new at h
    split_ifs at h
    · exact (acquired_of_new deviceBuffer.handle (fun _ => rfl) h).1 o rfl
    · cases h
      exact .nothing
  new_error args heap e heap' h := by
    change DeviceBuffer.new args.1 args.2 heap = some (.error e, heap') at h
    unfold DeviceBuffer.new at h
    split_ifs at h
    · exact (acquired_of_new deviceBuffer.handle (fun _ => rfl) h).2 e rfl
    · cases h
  moveFrom _ := ⟨rfl, rfl⟩
  moveAssign _ _ _ h := ⟨rfl, rfl, (release_eq h).2⟩
  change args b heap b' e heap' h hchange := by
    cases args with
    | release =>
      obtain ⟨hnull, hfreed⟩ := release_eq h
      cases hchange
      rw [hnull, hfreed]
      exact .nothing
    | reset newBytes answer => exact reset_acquired h hchange
  destroy _ _ h := (release_eq h).2

/-! ### Programs keep every handle owned -/

section Runs

variable {ι O New Change : Type} [DecidableEq ι] {w : Wrapper O New Change} {refuses : ℕ → Bool} {s s' : State ι O}

theorem held_update (x : ι) (o : Option O) (heap : Heap) :
    State.held w { objects := Function.update s.objects x o, heap } =
      Function.update (s.held w) x (o.bind w.handle) := by
  funext y
  simp only [State.held, Function.update_apply]
  split_ifs <;> rfl

omit [DecidableEq ι] in
theorem Owned.backed (h : Owned w refuses s) {x : ι} {o : O} (hx : s.objects x = some o) : Backed s.heap (w.handle o) := by
  intro p n hp
  refine h.exact.live_of_held (x := x) ?_
  rw [State.held, hx]
  exact hp

/-- An object that held what it has freed, and then may have acquired something new. -/
theorem Owned.replace (h : Owned w refuses s) {x : ι} {o : Option O} {heap : Heap}
    (hacquired : Acquired (s.heap.freed (s.held w x)) (o.bind w.handle) heap) :
    Owned w refuses { objects := Function.update s.objects x o, heap } := by
  have hfreed := h.exact.discard x
  obtain ⟨hinvalid, hrefuses⟩ := freed_frame s.heap (s.held w x)
  have hlost : ∀ p, (s.heap.freed (s.held w x)).lost p ≠ none →
      ∃ i < (s.heap.freed (s.held w x)).frees, refuses i = true := by
    intro p hp
    rw [← h.runtime]
    exact freed_lost (fun p hp => h.runtime ▸ h.lost p hp) _ hp
  rw [← freed_live] at hfreed
  have hheld := held_update (w := w) (s := s) x o heap
  generalize hhandle : o.bind w.handle = handle at hacquired hheld
  cases hacquired with
  | nothing => exact ⟨hheld ▸ hfreed, hinvalid.trans h.invalidFrees, hrefuses.trans h.runtime, hlost⟩
  | handle hp =>
    rename_i p n
    have hnothing : Function.update (s.held w) x none x = none := Function.update_self ..
    have hexact := hfreed.acquire (a := n) hnothing hp
    rw [Function.update_idem, ← hheld] at hexact
    exact ⟨hexact, hinvalid.trans h.invalidFrees, hrefuses.trans h.runtime, hlost⟩

/-- An object that holds nothing takes over from another one. -/
theorem Owned.transfer (h : Owned w refuses s) {x y : ι} (o left : Option O) (hxy : x ≠ y) (hx : s.held w x = none)
    (ho : o.bind w.handle = s.held w y) (hleft : left.bind w.handle = none) :
    Owned w refuses { s with objects := Function.update (Function.update s.objects x o) y left } := by
  refine ⟨?_, h.invalidFrees, h.runtime, h.lost⟩
  have hfirst := held_update (w := w) (s := s) x o s.heap
  have hboth := held_update (w := w) (s := ⟨Function.update s.objects x o, s.heap⟩) y left s.heap
  rw [hfirst, ho, hleft] at hboth
  rw [hboth]
  exact h.exact.transfer hxy hx

/-- An assignment frees what its target has, and then moves. -/
theorem Owned.assign (hw : Lawful w) (h : Owned w refuses s) {x y : ι} {o other : O} (hxy : x ≠ y)
    (hx : s.objects x = some o) (hy : s.objects y = some other) :
    Owned w refuses {
      objects := Function.update (Function.update s.objects x (some (w.moveAssign o other s.heap).1)) y
        (some (w.moveAssign o other s.heap).2.1)
      heap := (w.moveAssign o other s.heap).2.2 } := by
  obtain ⟨hassigned, hleft, hheap⟩ := hw.moveAssign o other s.heap (h.backed hx)
  have hreleased : Owned w refuses ⟨Function.update s.objects x none, (w.moveAssign o other s.heap).2.2⟩ := by
    refine h.replace (o := none) ?_
    rw [hheap, State.held, hx]
    exact .nothing
  have hnothing : State.held w ⟨Function.update s.objects x none, (w.moveAssign o other s.heap).2.2⟩ x = none := by
    simp [State.held]
  have hkept : State.held w ⟨Function.update s.objects x none, (w.moveAssign o other s.heap).2.2⟩ y =
      w.handle other := by
    simp [State.held, Function.update_of_ne (Ne.symm hxy), hy]
  have hmoved := hreleased.transfer (some (w.moveAssign o other s.heap).1)
    (some (w.moveAssign o other s.heap).2.1) hxy hnothing (hassigned.trans hkept.symm) hleft
  rwa [Function.update_idem] at hmoved

theorem step_owned (hw : Lawful w) (h : Owned w refuses s) {e : Event ι New Change} (hstep : step w e s = some s') :
    Owned w refuses s' := by
  cases e with
  | new x args =>
    simp only [step] at hstep
    split at hstep
    · cases hstep
    · next hx =>
      obtain ⟨⟨built, heap⟩, hnew, hreturn⟩ := Option.bind_eq_some_iff.1 hstep
      cases built with
      | ok o =>
        cases hreturn
        refine h.replace (o := some o) ?_
        rw [State.held, hx]
        exact hw.new_ok _ _ _ _ hnew
      | error err =>
        cases hreturn
        rw [hw.new_error _ _ _ _ hnew]
        exact h
  | move x y =>
    simp only [step] at hstep
    split at hstep
    · next other hx hy =>
      cases hstep
      have hxy : x ≠ y := by
        rintro rfl
        rw [hx] at hy
        cases hy
      obtain ⟨hmoved, hleft⟩ := hw.moveFrom other
      refine h.transfer _ _ hxy ?_ ?_ hleft
      · rw [State.held, hx]
        rfl
      · rw [State.held, hy]
        exact hmoved
    · cases hstep
  | assign x y =>
    simp only [step] at hstep
    split at hstep
    · next o other hx hy =>
      split_ifs at hstep with hxy
      · cases hstep
        exact h
      · cases hstep
        exact h.assign hw hxy hx hy
    · cases hstep
  | change x args =>
    simp only [step] at hstep
    split at hstep
    · next o hx =>
      obtain ⟨⟨o', err, heap⟩, hchange, hreturn⟩ := Option.bind_eq_some_iff.1 hstep
      cases hreturn
      refine h.replace (o := some o') ?_
      rw [State.held, hx]
      exact hw.change _ _ _ _ _ _ (h.backed hx) hchange
    · cases hstep
  | destroy x =>
    simp only [step] at hstep
    split at hstep
    · next o hx =>
      cases hstep
      refine h.replace (o := none) ?_
      rw [State.held, hx, hw.destroy o s.heap (h.backed hx)]
      exact .nothing
    · cases hstep

theorem run_owned (hw : Lawful w) (h : Owned w refuses s) {es : List (Event ι New Change)}
    (hrun : run (step w) es s = some s') : Owned w refuses s' :=
  inv_of_run (fun _ _ _ howned hstep => step_owned hw howned hstep) h hrun

/-- Whatever a program does and the runtime refuses, each handle that is allocated has one owner or is lost, and once
there is no object left the lost ones are all that is left. -/
def NeverLeaks (ι : Type) [DecidableEq ι] (w : Wrapper O New Change) : Prop :=
  ∀ (refuses : ℕ → Bool) (es : List (Event ι New Change)) (s : State ι O),
    run (step w) es { heap := { refuses } } = some s →
      Owned w refuses s ∧ ((∀ x, s.objects x = none) → ∀ p, s.heap.live p = none)

theorem Lawful.neverLeaks (hw : Lawful w) : NeverLeaks ι w := by
  intro refuses es s hrun
  have hinitial : Owned w refuses ({ heap := { refuses } } : State ι O) :=
    ⟨Exact.empty, rfl, rfl, fun _ hp => absurd rfl hp⟩
  have howned : Owned w refuses s := run_owned hw hinitial hrun
  refine ⟨howned, fun hgone p => howned.exact.nothing_live (fun x => ?_) p⟩
  rw [State.held, hgone x]
  rfl

end Runs

/-- **No program of the three wrappers leaks a handle or frees one twice.** -/
theorem wrappers_neverLeak (ι : Type) [DecidableEq ι] (sizeofT : ℕ) :
    NeverLeaks ι cudaStream ∧ NeverLeaks ι (pinnedBuffer sizeofT) ∧ NeverLeaks ι deviceBuffer :=
  ⟨cudaStream_lawful.neverLeaks, (pinnedBuffer_lawful sizeofT).neverLeaks, deviceBuffer_lawful.neverLeaks⟩

/-- The runtime refuses the first free, that of the assignment, and then has no memory for the new size. -/
theorem wrappers_neverLeak_refused : ∃ s, run (step deviceBuffer) [.new false (16, .ok (some 7)),
    .new true (8, .ok (some 9)), .assign false true, .assign false false,
    .change false (.reset 32 (.error "cudaErrorMemoryAllocation")), .destroy false, .destroy true]
      { heap := { refuses := fun i => i = 0 } } = some s ∧
    Owned deviceBuffer (fun i => i = 0) s ∧ (∀ p, s.heap.live p = none) ∧ s.heap.lost 7 = some 16 := by
  obtain ⟨s, hrun, hgone, hlost⟩ : ∃ s, run (step deviceBuffer) [.new false (16, .ok (some 7)),
      .new true (8, .ok (some 9)), .assign false true, .assign false false,
      .change false (.reset 32 (.error "cudaErrorMemoryAllocation")), .destroy false, .destroy true]
        { heap := { refuses := fun i => i = 0 } } = some s ∧
      (∀ x, s.objects x = none) ∧ s.heap.lost 7 = some 16 := by
    refine ⟨_, rfl, fun x => ?_, rfl⟩
    cases x <;> rfl
  obtain ⟨howned, hnothing⟩ := (wrappers_neverLeak Bool 4).2.2 (fun i => i = 0) _ s hrun
  exact ⟨s, hrun, howned, hnothing hgone, hlost⟩

/-! ### The buffers of an engine -/

/-- The engine's supply of addresses, as an answer of the runtime. -/
def engineAnswer (malloc : Trt.Malloc) (e : Trt.TrtEngine) (bytes : ℕ) : Answer :=
  match malloc e.allocs bytes with
  | some err => .error err
  | none => .ok (some e.allocs)

theorem release_buffer (e : Trt.TrtEngine) (name : String) (heap : Heap) :
    (DeviceBuffer.release (Trt.buffer e name) heap).1 = Trt.freedBuffer e name := by
  unfold DeviceBuffer.release Trt.freedBuffer
  generalize Trt.buffer e name = b
  obtain ⟨data, bytes⟩ := b
  cases data with
  | none => rfl
  | some p => rfl

/-- `TrtEngine` resets the buffers of its bindings as the wrapper does on a heap. -/
theorem resetBuffer_eq_reset {malloc : Trt.Malloc} {name : String} {bytes : ℕ} {e : Trt.TrtEngine} {b : DeviceBuffer}
    {thrown : Option Exn} {heap heap' : Heap}
    (h : DeviceBuffer.reset (Trt.buffer e name) bytes (engineAnswer malloc e bytes) heap = some (b, thrown, heap')) :
    (stateAfter ((Trt.resetBuffer malloc name bytes).run e)).deviceBuffers name = some b ∧
      outcome ((Trt.resetBuffer malloc name bytes).run e) = match thrown with
        | none => .ok ()
        | some err => .error err := by
  rw [Trt.resetBuffer_run]
  unfold DeviceBuffer.reset at h
  dsimp only at h
  rw [release_buffer] at h
  by_cases hbytes : 0 < bytes
  · rw [if_pos hbytes] at h ⊢
    obtain ⟨⟨data, heap₁⟩, halloc, hreturn⟩ := Option.bind_eq_some_iff.1 h
    unfold engineAnswer at halloc
    cases hmalloc : malloc e.allocs bytes with
    | some err =>
      rw [hmalloc] at halloc
      cases halloc
      cases hreturn
      exact ⟨Function.update_self .., rfl⟩
    | none =>
      simp only [hmalloc, allocate] at halloc
      split_ifs at halloc
      cases halloc
      cases hreturn
      refine ⟨(Function.update_self ..).trans ?_, rfl⟩
      rw [Trt.newBuffer, if_pos hbytes]
  · rw [if_neg hbytes] at h ⊢
    cases h
    refine ⟨(Function.update_self ..).trans ?_, rfl⟩
    rw [Trt.newBuffer, if_neg hbytes]

end FacePipeline.Utils
