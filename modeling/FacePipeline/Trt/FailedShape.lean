import FacePipeline.Trt.Allocation

/-!
# A call of `set_input_shape` that throws

The context's shape, the recorded shape, the old buffer and the registered address change one after the other,
and `cudaMalloc` fails between the second and the last: the shape is the new one then, the buffer is gone and the
context holds the address that was freed. `setInputShape_run_eq` is the whole call; which calls leave everything
as it was when they throw follows from it (`unchanged_iff`, `leavesNoTrace_iff`). Where no call is disturbed, the
wrapper's books agree with its buffers in every state (`serve_booked`).
-/

namespace FacePipeline.Trt

/-- The bytes that a call for this shape asks `cudaMalloc` for. -/
def requested (shape : List Int) (info : BindingInfo) : ℕ :=
  sizeT (volumeOf shape * info.elementSize)

/-- The error of the allocation that a call makes, if it makes one. -/
def mallocError (malloc : Malloc) (e : TrtEngine) (bytes : ℕ) : Option String :=
  if 0 < bytes then malloc e.allocs bytes else none

/-- The context has the new shape. -/
def shaped (e : TrtEngine) (name : String) (shape : List Int) : TrtEngine :=
  { e with context := { e.context with
      inputShape := Function.update e.context.inputShape name (some shape) } }

/-- So has the wrapper. -/
def noted (e : TrtEngine) (name : String) (shape : List Int) : TrtEngine :=
  { shaped e name shape with bindings := TrtEngine.recordShape name shape e.bindings }

/-- And the old buffer is freed. -/
def starved (e : TrtEngine) (name : String) (shape : List Int) : TrtEngine :=
  { noted e name shape with
    deviceBuffers := Function.update e.deviceBuffers name (some (freedBuffer e name)) }

/-- **The whole call**, whether it returns or throws. -/
theorem setInputShape_run_eq (malloc : Malloc) (name : String) (shape : List Int) (e : TrtEngine) :
    (TrtEngine.setInputShape malloc name shape).run e =
      if maxDims < shape.length then
        .error (.invalidArgument ("shape rank " ++ toString shape.length ++
          " exceeds TensorRT's maximum of " ++ toString maxDims)) e
      else if e.engine.accepts name shape = false then
        .error (.runtimeError ("setInputShape failed for " ++ name)) e
      else
        match e.binding name with
        | .error err => .error err (shaped e name shape)
        | .ok info =>
            match mallocError malloc e (requested shape info) with
            | some err => .error (.runtimeError ("CUDA error at " ++ err)) (starved e name shape)
            | none => .ok () (allocated (noted e name shape) name (requested shape info)) := by
  unfold TrtEngine.setInputShape
  by_cases hrank : maxDims < shape.length
  · rw [if_pos hrank, if_pos hrank]
    rfl
  rw [if_neg hrank, if_neg hrank, bind_run_of_ok (EStateM.run_get e)]
  cases haccepts : e.engine.accepts name shape with
  | false => rfl
  | true =>
    simp only [Bool.true_eq_false, if_false]
    rw [bind_run_of_ok (EStateM.run_modify _ _)]
    cases hbinding : e.binding name with
    | error err => rfl
    | ok info =>
      simp only
      rw [bind_run_of_ok (EStateM.run_modify _ _), EStateM.run_bind, resetBuffer_run]
      unfold mallocError requested
      cases (if 0 < sizeT (volumeOf shape * info.elementSize) then
          malloc e.allocs (sizeT (volumeOf shape * info.elementSize)) else none) with
      | some err => rfl
      | none =>
        simp [registerAddress, allocated, buffer, noted, shaped]

/-! ### Which failed calls leave no trace -/

/-- The books, the buffers and the context are as they were. -/
structure Unchanged (e e' : TrtEngine) : Prop where
  bindings : e'.bindings = e.bindings
  deviceBuffers : e'.deviceBuffers = e.deviceBuffers
  inputShape : e'.context.inputShape = e.context.inputShape
  address : e'.context.address = e.context.address

/-- The state before a call that fails late is the one such a call leaves. -/
def AlreadyLeft (name : String) (shape : List Int) (e : TrtEngine) : Prop :=
  e.context.inputShape name = some shape ∧ ∀ info, e.binding name = .ok info →
    info.shape = shape ∧ info.volume = volumeOf shape ∧
      ∃ b, e.deviceBuffers name = some b ∧ b.data = none

/-- The call fails before its first change or not at all. -/
def Undisturbed (malloc : Malloc) (name : String) (shape : List Int) (e : TrtEngine) : Prop :=
  maxDims < shape.length ∨ e.engine.accepts name shape = false ∨
    ∃ info, e.binding name = .ok info ∧ mallocError malloc e (requested shape info) = none

theorem recordShape_eq_self_iff {name : String} {shape : List Int} {bs : List BindingInfo} {info : BindingInfo}
    (h : (bs.find? fun b => b.name = name) = some info) :
    TrtEngine.recordShape name shape bs = bs ↔ info.shape = shape ∧ info.volume = volumeOf shape := by
  induction bs with
  | nil => cases h
  | cons b bs ih =>
    rw [TrtEngine.recordShape]
    by_cases hname : b.name = name
    · rw [List.find?_cons_of_pos (by simpa using hname)] at h
      obtain rfl := Option.some.inj h
      rw [if_pos hname, List.cons.injEq]
      obtain ⟨name', shape', elementSize, volume, isInput⟩ := b
      simp [eq_comm]
    · rw [List.find?_cons_of_neg (by simpa using hname)] at h
      rw [if_neg hname, List.cons.injEq, ih h]
      exact ⟨And.right, fun heq => ⟨rfl, heq⟩⟩

theorem find?_of_binding {e : TrtEngine} {name : String} {info : BindingInfo} (h : e.binding name = .ok info) :
    (e.bindings.find? fun b => b.name = name) = some info := by
  unfold TrtEngine.binding at h
  split at h
  · rename_i b hb
    rw [hb, Except.ok.inj h]
  · cases h

/-- What freeing does not change is freed. -/
theorem eq_freedBuffer_iff {e : TrtEngine} {name : String} :
    some (freedBuffer e name) = e.deviceBuffers name ↔
      ∃ b, e.deviceBuffers name = some b ∧ b.data = none := by
  constructor
  · intro h
    exact ⟨_, h.symm, rfl⟩
  · rintro ⟨⟨data, bytes⟩, hb, hdata⟩
    obtain rfl : data = none := hdata
    simp [freedBuffer, buffer, hb]

theorem unchanged_starved_iff {name : String} {shape : List Int} {e : TrtEngine} {info : BindingInfo}
    (h : e.binding name = .ok info) : Unchanged e (starved e name shape) ↔ AlreadyLeft name shape e := by
  have hrecord : TrtEngine.recordShape name shape e.bindings = e.bindings ↔
      info.shape = shape ∧ info.volume = volumeOf shape := recordShape_eq_self_iff (find?_of_binding h)
  constructor
  · rintro ⟨hbindings, hbuffers, hshape, -⟩
    refine ⟨(Function.update_eq_self_iff.1 hshape).symm, fun info' h' => ?_⟩
    obtain rfl := Except.ok.inj (h.symm.trans h')
    obtain ⟨hsame, hvolume⟩ := hrecord.1 hbindings
    exact ⟨hsame, hvolume, eq_freedBuffer_iff.1 (Function.update_eq_self_iff.1 hbuffers)⟩
  · rintro ⟨hshape, hinfo⟩
    obtain ⟨hsame, hvolume, hbuffer⟩ := hinfo info h
    exact ⟨hrecord.2 ⟨hsame, hvolume⟩, Function.update_eq_self_iff.2 (eq_freedBuffer_iff.2 hbuffer),
      Function.update_eq_self_iff.2 hshape.symm, rfl⟩

theorem unchanged_shaped_iff {name : String} {shape : List Int} {e : TrtEngine} {err : Exn}
    (h : e.binding name = .error err) : Unchanged e (shaped e name shape) ↔ AlreadyLeft name shape e := by
  constructor
  · intro hsame
    refine ⟨(Function.update_eq_self_iff.1 hsame.inputShape).symm, fun info hinfo => ?_⟩
    rw [h] at hinfo
    cases hinfo
  · rintro ⟨hshape, -⟩
    exact ⟨rfl, rfl, Function.update_eq_self_iff.2 hshape.symm, rfl⟩

/-- **A call that throws leaves everything as it was** exactly when it does not fail after its first change, or
changes nothing by it. -/
theorem unchanged_iff (malloc : Malloc) (name : String) (shape : List Int) (e : TrtEngine) :
    (∀ err e', (TrtEngine.setInputShape malloc name shape).run e = .error err e' → Unchanged e e') ↔
      Undisturbed malloc name shape e ∨ AlreadyLeft name shape e := by
  have hrefl : Unchanged e e := ⟨rfl, rfl, rfl, rfl⟩
  rw [setInputShape_run_eq]
  split_ifs with hrank haccepts
  · refine iff_of_true (fun err e' h => ?_) (.inl (.inl hrank))
    obtain ⟨-, rfl⟩ := EStateM.Result.error.inj h
    exact hrefl
  · refine iff_of_true (fun err e' h => ?_) (.inl (.inr (.inl haccepts)))
    obtain ⟨-, rfl⟩ := EStateM.Result.error.inj h
    exact hrefl
  · cases hbinding : e.binding name with
    | error err =>
      have hdisturbed : ¬Undisturbed malloc name shape e := by
        rintro (h | h | ⟨info, hinfo, -⟩)
        · exact hrank h
        · exact haccepts h
        · rw [hbinding] at hinfo
          cases hinfo
      rw [or_iff_right hdisturbed, ← unchanged_shaped_iff hbinding]
      constructor
      · intro h
        exact h err _ rfl
      · intro h err' e' hrun
        obtain ⟨-, rfl⟩ := EStateM.Result.error.inj hrun
        exact h
    | ok info =>
      cases hmalloc : mallocError malloc e (requested shape info) with
      | none =>
        refine iff_of_true (fun err e' h => ?_) (.inl (.inr (.inr ⟨info, hbinding, hmalloc⟩)))
        simp only [hmalloc] at h
        cases h
      | some err =>
        have hdisturbed : ¬Undisturbed malloc name shape e := by
          rintro (h | h | ⟨info', hinfo, hnone⟩)
          · exact hrank h
          · exact haccepts h
          · obtain rfl := Except.ok.inj (hbinding.symm.trans hinfo)
            rw [hmalloc] at hnone
            cases hnone
        rw [or_iff_right hdisturbed, ← unchanged_starved_iff hbinding]
        simp only [hmalloc]
        constructor
        · intro h
          exact h _ _ rfl
        · intro h err' e' hrun
          obtain ⟨-, rfl⟩ := EStateM.Result.error.inj hrun
          exact h

/-! ### The books and the buffers -/

/-- A buffer of the bytes that are recorded for a binding, and none for no bytes. -/
structure Matches (b : DeviceBuffer) (info : BindingInfo) : Prop where
  bytes : b.bytes = info.volume * info.elementSize
  allocated : b.data.isSome = true ↔ 0 < info.volume * info.elementSize

/-- Every binding has the buffer that is recorded, and the context holds the addresses of these buffers and no
others. -/
structure Sound (e : TrtEngine) : Prop where
  buffers : ∀ info ∈ e.bindings, Matches (buffer e info.name) info
  addresses : ∀ name, e.context.address name = (buffer e name).data

/-- What the calls keep. -/
structure Booked (e : TrtEngine) : Prop where
  sound : Sound e
  names : (e.bindings.map (·.name)).Nodup
  sizes : ∀ info ∈ e.bindings, info.elementSize ≤ 4
  unknown : ∀ name, name ∉ e.bindings.map (·.name) → buffer e name = {}

theorem buffer_allocated (e : TrtEngine) (name : String) (bytes : ℕ) (n : String) :
    buffer (allocated e name bytes) n = if n = name then newBuffer e name bytes else buffer e n := by
  unfold buffer allocated
  simp only [Function.update_apply]
  split_ifs <;> rfl

theorem address_allocated (e : TrtEngine) (name : String) (bytes : ℕ) (n : String) :
    (allocated e name bytes).context.address n =
      if n = name then (newBuffer e name bytes).data else e.context.address n := by
  unfold allocated
  simp only [Function.update_apply]

/-- No memory is recorded for a buffer that has none. -/
theorem Booked.bytes_of_none {e : TrtEngine} (h : Booked e) {name : String} (hnone : (buffer e name).data = none) :
    (buffer e name).bytes = 0 := by
  by_cases hname : name ∈ e.bindings.map (·.name)
  · obtain ⟨info, hinfo, rfl⟩ := List.mem_map.1 hname
    have hmatches := h.sound.buffers info hinfo
    rw [hmatches.bytes]
    apply Nat.eq_zero_of_not_pos
    rw [← hmatches.allocated, hnone]
    decide
  · rw [h.unknown name hname]

theorem matches_newBuffer {e : TrtEngine} {name : String} {bytes : ℕ} {info : BindingInfo}
    (hbytes : bytes = info.volume * info.elementSize)
    (hnone : (buffer e name).data = none → (buffer e name).bytes = 0) :
    Matches (newBuffer e name bytes) info := by
  subst hbytes
  unfold newBuffer
  split_ifs with hpos
  · exact ⟨rfl, iff_of_true rfl hpos⟩
  · refine ⟨?_, iff_of_false (by simp [freedBuffer]) hpos⟩
    rw [Nat.eq_zero_of_not_pos hpos]
    unfold freedBuffer
    simp only
    split_ifs with hsome
    · rfl
    · exact hnone (by simpa using hsome)

theorem addresses_allocated {e : TrtEngine} (h : ∀ n, e.context.address n = (buffer e n).data) (name : String)
    (bytes : ℕ) (n : String) :
    (allocated e name bytes).context.address n = (buffer (allocated e name bytes) n).data := by
  rw [buffer_allocated, address_allocated]
  split_ifs
  · rfl
  · exact h n

/-! ### The constructor -/

theorem volumeOf_le {shape : List Int} (h : (∀ d ∈ shape, 0 < d) → elements shape < 2 ^ 31) :
    volumeOf shape < 2 ^ 31 := by
  by_cases hpos : ∀ d ∈ shape, 0 < d
  · have hlt := h hpos
    rw [volumeOf_of_pos hpos (by omega)]
    exact hlt
  · rw [volumeOf_of_not_pos (by simpa using hpos)]
    decide

theorem sizeT_volume {shape : List Int} {size : ℕ} (h : (∀ d ∈ shape, 0 < d) → elements shape < 2 ^ 31)
    (hsize : size ≤ 4) : sizeT (volumeOf shape * size) = volumeOf shape * size := by
  have hlt := volumeOf_le h
  have hle : volumeOf shape * size ≤ volumeOf shape * 4 := Nat.mul_le_mul_left _ hsize
  exact Nat.mod_eq_of_lt (by omega)

theorem addBinding_booked {malloc : Malloc} {t : IOTensor} {e e' : TrtEngine} {u : Unit} (hbooked : Booked e)
    (hsmall : (∀ d ∈ t.dims, 0 < d) → elements t.dims < 2 ^ 31) (hnew : t.name ∉ e.bindings.map (·.name))
    (h : (addBinding malloc t).run e = .ok u e') : Booked e' := by
  obtain ⟨e₁, he₁, rfl⟩ := addBinding_ok h
  have hempty : buffer e t.name = {} := hbooked.unknown _ hnew
  have hbindings : e₁.bindings = e.bindings := by
    rw [he₁]
    split_ifs <;> rfl
  have hother : ∀ n, n ≠ t.name → buffer e₁ n = buffer e n := by
    intro n hn
    rw [he₁]
    split_ifs
    · rw [buffer_allocated, if_neg hn]
    · rfl
  have hown : Matches (buffer e₁ t.name) (bindingInfo t) := by
    rw [he₁]
    split_ifs with hknown
    · rw [buffer_allocated, if_pos rfl, sizeT_volume hsmall (elementSizeFor_le _)]
      exact matches_newBuffer rfl fun _ => by rw [hempty]
    · rw [hempty]
      have hzero : ¬0 < (bindingInfo t).volume * (bindingInfo t).elementSize := fun hpos =>
        hknown ⟨Nat.pos_of_mul_pos_right hpos, Nat.pos_of_mul_pos_left hpos⟩
      exact ⟨(Nat.eq_zero_of_not_pos hzero).symm, iff_of_false (by decide) hzero⟩
  have haddresses : ∀ n, e₁.context.address n = (buffer e₁ n).data := by
    rw [he₁]
    split_ifs
    · exact addresses_allocated hbooked.sound.addresses _ _
    · exact hbooked.sound.addresses
  refine ⟨⟨fun info hinfo => ?_, haddresses⟩, ?_, fun info hinfo => ?_, fun name hname => ?_⟩
  · rcases List.mem_append.1 hinfo with hinfo | hinfo
    · rw [hbindings] at hinfo
      have hne : info.name ≠ t.name := fun heq => hnew (heq ▸ List.mem_map_of_mem hinfo)
      show Matches (buffer e₁ info.name) info
      rw [hother _ hne]
      exact hbooked.sound.buffers info hinfo
    · obtain rfl := List.mem_singleton.1 hinfo
      exact hown
  · show ((e₁.bindings ++ [bindingInfo t]).map (·.name)).Nodup
    rw [hbindings, List.map_append, List.map_singleton, ← List.concat_eq_append]
    exact hbooked.names.concat hnew
  · rcases List.mem_append.1 hinfo with hinfo | hinfo
    · rw [hbindings] at hinfo
      exact hbooked.sizes info hinfo
    · obtain rfl := List.mem_singleton.1 hinfo
      exact elementSizeFor_le _
  · have hname' : name ∉ (e₁.bindings ++ [bindingInfo t]).map (·.name) := hname
    rw [hbindings, List.map_append, List.map_singleton, List.mem_append, List.mem_singleton, not_or] at hname'
    exact (hother name hname'.2).trans (hbooked.unknown name hname'.1)

theorem addBindings_booked {malloc : Malloc} {ts : List IOTensor} {e e' : TrtEngine} {u : Unit}
    (hbooked : Booked e) (hsmall : ∀ t ∈ ts, (∀ d ∈ t.dims, 0 < d) → elements t.dims < 2 ^ 31)
    (hnodup : (e.bindings.map (·.name) ++ ts.map (·.name)).Nodup)
    (h : (addBindings malloc ts).run e = .ok u e') : Booked e' := by
  induction ts generalizing e with
  | nil =>
    obtain ⟨-, rfl⟩ := EStateM.Result.ok.inj h
    exact hbooked
  | cons t ts ih =>
    obtain ⟨_, e₁, hfirst, hrest⟩ := bind_run_ok.1 h
    rw [List.forall_mem_cons] at hsmall
    have hnew : t.name ∉ e.bindings.map (·.name) := fun hmem =>
      (List.nodup_append.1 hnodup).2.2 _ hmem _ List.mem_cons_self rfl
    have hbindings : e₁.bindings = e.bindings ++ [bindingInfo t] := by
      obtain ⟨e₂, he₂, rfl⟩ := addBinding_ok hfirst
      rw [he₂]
      split_ifs <;> rfl
    refine ih (addBinding_booked hbooked hsmall.1 hnew hfirst) hsmall.2 ?_ hrest
    rw [hbindings, List.map_append, List.map_singleton, List.append_assoc]
    exact hnodup

theorem new_booked {malloc : Malloc} {enginePath : String} {file : EngineFile} {e : TrtEngine}
    (h : TrtEngine.new malloc enginePath file = .ok e) : Booked e := by
  obtain ⟨u, hrun⟩ := new_ok h
  have hempty : Booked { engine := e.engine } :=
    ⟨⟨by simp, fun _ => rfl⟩, by simp, by simp, fun _ _ => rfl⟩
  refine addBindings_booked hempty ?_ e.engine.nodup hrun
  exact fun t ht hpos => e.engine.elements_dims t ht fun d hd => (hpos d hd).le

/-! ### The calls -/

theorem recordShape_names (name : String) (shape : List Int) (bs : List BindingInfo) :
    (TrtEngine.recordShape name shape bs).map (·.name) = bs.map (·.name) := by
  induction bs with
  | nil => rfl
  | cons b bs ih =>
    rw [TrtEngine.recordShape]
    split_ifs with hname
    · rfl
    · rw [List.map_cons, List.map_cons, ih]

/-- What is recorded afterwards was recorded before, but for the named binding. -/
theorem mem_recordShape {name : String} {shape : List Int} {bs : List BindingInfo} {info info' : BindingInfo}
    (hnodup : (bs.map (·.name)).Nodup) (hfind : (bs.find? fun b => b.name = name) = some info)
    (h : info' ∈ TrtEngine.recordShape name shape bs) :
    info' = { info with shape := shape, volume := volumeOf shape } ∨ info' ∈ bs ∧ info'.name ≠ name := by
  induction bs with
  | nil => cases hfind
  | cons b bs ih =>
    rw [List.map_cons, List.nodup_cons] at hnodup
    rw [TrtEngine.recordShape] at h
    by_cases hname : b.name = name
    · rw [List.find?_cons_of_pos (by simpa using hname)] at hfind
      obtain rfl := Option.some.inj hfind
      rw [if_pos hname] at h
      rcases List.mem_cons.1 h with rfl | h
      · exact .inl rfl
      · refine .inr ⟨List.mem_cons_of_mem _ h, fun heq => hnodup.1 ?_⟩
        rw [hname, ← heq]
        exact List.mem_map_of_mem h
    · rw [List.find?_cons_of_neg (by simpa using hname)] at hfind
      rw [if_neg hname] at h
      rcases List.mem_cons.1 h with rfl | h
      · exact .inr ⟨List.mem_cons_self, hname⟩
      · exact (ih hnodup.2 hfind h).imp_right fun hold => ⟨List.mem_cons_of_mem _ hold.1, hold.2⟩

/-- A call that returns. -/
theorem setInputShape_booked {malloc : Malloc} {name : String} {shape : List Int} {e e' : TrtEngine} {u : Unit}
    (hbooked : Booked e) (h : (TrtEngine.setInputShape malloc name shape).run e = .ok u e') : Booked e' := by
  obtain ⟨haccepts, info, hinfo, he'⟩ := setInputShape_ok h
  have hfind := find?_of_binding hinfo
  have hmem := List.mem_of_find?_eq_some hfind
  have hname : info.name = name := by simpa using List.find?_some hfind
  have hbytes : sizeT (volumeOf shape * info.elementSize) = volumeOf shape * info.elementSize :=
    sizeT_volume (fun _ => (e.engine.of_accepts _ _ haccepts).2) (hbooked.sizes info hmem)
  have hbuffer : ∀ n, buffer e' n = if n = name then
      newBuffer (noted e name shape) name (sizeT (volumeOf shape * info.elementSize)) else buffer e n := by
    intro n
    rw [he']
    exact buffer_allocated (noted e name shape) name _ n
  have hbindings : e'.bindings = TrtEngine.recordShape name shape e.bindings := by rw [he']; rfl
  refine ⟨⟨fun info' hinfo' => ?_, ?_⟩, ?_, fun info' hinfo' => ?_, fun n hn => ?_⟩
  · rw [hbindings] at hinfo'
    rw [hbuffer]
    rcases mem_recordShape hbooked.names hfind hinfo' with rfl | ⟨hold, hne⟩
    · rw [if_pos hname]
      exact matches_newBuffer hbytes hbooked.bytes_of_none
    · rw [if_neg hne]
      exact hbooked.sound.buffers info' hold
  · rw [he']
    exact addresses_allocated (e := noted e name shape) hbooked.sound.addresses _ _
  · rw [hbindings, recordShape_names]
    exact hbooked.names
  · rw [hbindings] at hinfo'
    rcases mem_recordShape hbooked.names hfind hinfo' with rfl | ⟨hold, -⟩
    · exact hbooked.sizes info hmem
    · exact hbooked.sizes info' hold
  · rw [hbindings, recordShape_names] at hn
    have hne : n ≠ name := by
      rintro rfl
      exact hn (hname ▸ List.mem_map_of_mem hmem)
    rw [hbuffer, if_neg hne]
    exact hbooked.unknown n hn

/-! ### Runs -/

/-- A call of `set_input_shape`, and what `cudaMalloc` does during it. -/
structure ShapeCall where
  malloc : Malloc
  name : String
  shape : List Int

/-- The state after a call, for a caller that catches what it throws. -/
def serveCall (e : TrtEngine) (c : ShapeCall) : TrtEngine :=
  match (TrtEngine.setInputShape c.malloc c.name c.shape).run e with
  | .ok _ e' => e'
  | .error _ e' => e'

def serve (calls : List ShapeCall) (e : TrtEngine) : TrtEngine :=
  calls.foldl serveCall e

/-- The call leaves everything as it was if it throws. -/
def LeavesNoTrace (e : TrtEngine) (c : ShapeCall) : Prop :=
  Undisturbed c.malloc c.name c.shape e ∨ AlreadyLeft c.name c.shape e

/-- So does every call of the run. -/
def AllLeaveNoTrace : List ShapeCall → TrtEngine → Prop
  | [], _ => True
  | c :: calls, e => LeavesNoTrace e c ∧ AllLeaveNoTrace calls (serveCall e c)

theorem Booked.congr {e e' : TrtEngine} (h : Booked e) (hsame : Unchanged e e') : Booked e' := by
  have hbuffer : ∀ n, buffer e' n = buffer e n := fun n => by rw [buffer, buffer, hsame.deviceBuffers]
  refine ⟨⟨fun info hinfo => ?_, fun n => ?_⟩, ?_, ?_, fun n hn => ?_⟩
  · rw [hsame.bindings] at hinfo
    rw [hbuffer]
    exact h.sound.buffers info hinfo
  · rw [hsame.address, hbuffer]
    exact h.sound.addresses n
  · rw [hsame.bindings]
    exact h.names
  · rw [hsame.bindings]
    exact h.sizes
  · rw [hsame.bindings] at hn
    rw [hbuffer]
    exact h.unknown n hn

theorem serveCall_booked {e : TrtEngine} {c : ShapeCall} (hbooked : Booked e) (hc : LeavesNoTrace e c) :
    Booked (serveCall e c) := by
  unfold serveCall
  cases hrun : (TrtEngine.setInputShape c.malloc c.name c.shape).run e with
  | ok u e' => exact setInputShape_booked hbooked hrun
  | error err e' => exact hbooked.congr ((unchanged_iff c.malloc c.name c.shape e).2 hc err e' hrun)

theorem serve_booked {e : TrtEngine} {calls : List ShapeCall} (hbooked : Booked e)
    (hcalls : AllLeaveNoTrace calls e) : Booked (serve calls e) := by
  induction calls generalizing e with
  | nil => exact hbooked
  | cons c calls ih => exact ih (serveCall_booked hbooked hcalls.1) hcalls.2

/-- **Calls that throw.** A call leaves everything as it was exactly when it does not fail after its first change,
or changes nothing by it; and where this is so of every call, the buffers are the recorded ones in every state
that is reached, and the context's addresses are theirs. -/
theorem leavesNoTrace_iff (e : TrtEngine) (c : ShapeCall) :
    ((∀ err e', (TrtEngine.setInputShape c.malloc c.name c.shape).run e = .error err e' → Unchanged e e') ↔
      LeavesNoTrace e c) ∧
    (∀ (malloc : Malloc) (enginePath : String) (file : EngineFile) (calls : List ShapeCall),
      TrtEngine.new malloc enginePath file = .ok e → AllLeaveNoTrace calls e → Sound (serve calls e)) :=
  ⟨unchanged_iff c.malloc c.name c.shape e,
    fun _ _ _ _ hnew hcalls => (serve_booked (new_booked hnew) hcalls).sound⟩

/-! ### A batch that does not fit -/

/-- A batch of `n` faces. -/
def batchCall (malloc : Malloc) (n : Int) : ShapeCall :=
  ⟨malloc, "input.1", [n, 3, 112, 112]⟩

theorem leavesNoTrace_refused : ∃ e,
    TrtEngine.new (fun _ _ => none) "arcface.engine" (engineFile arcFaceEngine) = .ok e ∧
    Sound (serve [batchCall (fun _ _ => none) 2, batchCall (fun _ _ => none) 65] e) := by
  refine ⟨_, rfl, (leavesNoTrace_iff _ (batchCall (fun _ _ => none) 2)).2 (fun _ _ => none) "arcface.engine"
    (engineFile arcFaceEngine) _ rfl ?_⟩
  exact ⟨.inl (.inr (.inr ⟨_, rfl, rfl⟩)), .inl (.inr (.inl (by decide))), trivial⟩

/-- No memory for the second batch: the context keeps the address of the first one, which is freed. -/
theorem not_leavesNoTrace_noMemory : ∃ e₀ e e',
    TrtEngine.new (fun _ _ => none) "arcface.engine" (engineFile arcFaceEngine) = .ok e₀ ∧
    serve [batchCall (fun _ _ => none) 1] e₀ = e ∧
    (TrtEngine.setInputShape (fun _ _ => some "out of memory") "input.1" [2, 3, 112, 112]).run e =
      .error (.runtimeError "CUDA error at out of memory") e' ∧
    ¬Unchanged e e' ∧ e'.context.address "input.1" = some 0 ∧ (∀ name, (buffer e' name).data = none) ∧ ¬Sound e' := by
  refine ⟨_, _, _, rfl, rfl, rfl, fun h => ?_, rfl, fun name => ?_, fun h => ?_⟩
  · exact absurd (congrFun h.inputShape "input.1") (by decide)
  · by_cases hname : name = "input.1"
    · subst hname
      rfl
    · show DeviceBuffer.data ((Function.update (Function.update (Function.update (fun _ => none) "input.1" _)
        "input.1" _) "input.1" _ name).getD {}) = none
      rw [Function.update_of_ne hname, Function.update_of_ne hname, Function.update_of_ne hname]
      rfl
  · exact absurd (h.addresses "input.1") (by decide)

end FacePipeline.Trt
