import FacePipeline.Trt.TrtEngine
import Mathlib.Data.List.Nodup

/-!
# Device memory before inference

The constructor allocates the bindings of known shape, `set_input_shape` the one binding it names.
`Laid e shape` follows both through a run: a tensor has a buffer, of exactly the bytes of its shape and
at the registered address, when every dimension of the shape is positive, and no address otherwise.
`set_input_shape` is only ever accepted for an input, so the shape of an output stays that of load time:
an output with a dynamic dimension never gets a buffer (`prepared_iff`).
-/

namespace FacePipeline.Trt

/-- The shape last set for a tensor, or its load-time shape. -/
def lastShape (calls : List (String × List Int)) (t : IOTensor) : List Int :=
  calls.foldl (fun shape c => if c.1 = t.name then c.2 else shape) t.dims

/-- The input shapes are all specified. -/
def Specified (e : TrtEngine) : Prop :=
  ∀ t ∈ e.engine.tensors, t.isInput = true → ∀ d ∈ e.contextShape t, 0 ≤ d

instance (e : TrtEngine) : Decidable (Specified e) :=
  inferInstanceAs (Decidable (∀ t ∈ e.engine.tensors, t.isInput = true → ∀ d ∈ e.contextShape t, 0 ≤ d))

/-- The tensor has a registered buffer that holds the shape the context has for it. -/
def Ready (e : TrtEngine) (t : IOTensor) : Prop :=
  ∃ buf p, e.deviceBuffers t.name = some buf ∧ buf.data = some p ∧
    e.context.address t.name = some p ∧
    elements (e.contextShape t) * elementSizeFor t.dtype ≤ buf.bytes

/-- Inference finds every buffer, and so do the copies. -/
structure Prepared (e : TrtEngine) : Prop where
  ready : ∀ t ∈ e.engine.tensors, Ready e t
  infer : e.infer true = .ok ()
  copies : ∀ t ∈ e.engine.tensors, ∃ p, e.devicePtr t.name = .ok (some p)

/-- A buffer of the shape's bytes when the shape is positive throughout, no address otherwise. -/
def Backed (e : TrtEngine) (t : IOTensor) (shape : List Int) : Prop :=
  if ∀ d ∈ shape, 0 < d then
    ∃ p, e.deviceBuffers t.name = some ⟨some p, elements shape * elementSizeFor t.dtype⟩ ∧
      e.context.address t.name = some p
  else e.context.address t.name = none

/-- What the wrapper records of a tensor of that shape. -/
def recorded (shape : IOTensor → List Int) (t : IOTensor) : BindingInfo :=
  { bindingInfo t with shape := shape t, volume := volumeOf (shape t) }

@[simp] theorem recorded_name (shape : IOTensor → List Int) (t : IOTensor) :
    (recorded shape t).name = t.name := rfl

/-- The wrapper's state when the current shapes are `shape`. -/
structure Laid (e : TrtEngine) (shape : IOTensor → List Int) : Prop where
  bindings : e.bindings = e.engine.tensors.map (recorded shape)
  inputShape : ∀ t ∈ e.engine.tensors, (e.context.inputShape t.name).getD t.dims = shape t
  output : ∀ t ∈ e.engine.tensors, t.isInput = false → shape t = t.dims
  small : ∀ t ∈ e.engine.tensors, (∀ d ∈ shape t, 0 < d) → elements (shape t) < 2 ^ 31
  backed : ∀ t ∈ e.engine.tensors, Backed e t (shape t)

/-! ### Buffers -/

/-- The wrapper asks for the bytes of a positive shape, and for none otherwise. -/
theorem requested_bytes {shape : List Int} {size : ℕ}
    (hsmall : (∀ d ∈ shape, 0 < d) → elements shape < 2 ^ 31) (hsize : size ≤ 4) :
    sizeT (volumeOf shape * size) = if ∀ d ∈ shape, 0 < d then elements shape * size else 0 := by
  split_ifs with hpos
  · have hlt := hsmall hpos
    have hbytes : elements shape * size ≤ elements shape * 4 := Nat.mul_le_mul_left _ hsize
    rw [volumeOf_of_pos hpos (by omega), sizeT, Nat.mod_eq_of_lt (by omega)]
  · rw [volumeOf_of_not_pos (by simpa using hpos), Nat.zero_mul]
    rfl

theorem elementSizeFor_le (dtype : DataType) : elementSizeFor dtype ≤ 4 := by
  cases dtype <;> decide

theorem volumeOf_pos_iff {shape : List Int}
    (hsmall : (∀ d ∈ shape, 0 < d) → elements shape < 2 ^ 31) :
    0 < volumeOf shape ↔ ∀ d ∈ shape, 0 < d := by
  by_cases hpos : ∀ d ∈ shape, 0 < d
  · have hlt := hsmall hpos
    rw [volumeOf_of_pos hpos (by omega)]
    exact iff_of_true (elements_pos hpos) hpos
  · rw [volumeOf_of_not_pos (by simpa using hpos)]
    exact iff_of_false (Nat.lt_irrefl 0) hpos

theorem allocated_backed {e : TrtEngine} {t : IOTensor} {shape : List Int}
    (hsmall : (∀ d ∈ shape, 0 < d) → elements shape < 2 ^ 31) (hsize : 0 < elementSizeFor t.dtype) :
    Backed (allocated e t.name (sizeT (volumeOf shape * elementSizeFor t.dtype))) t shape := by
  rw [requested_bytes hsmall (elementSizeFor_le _), Backed]
  split_ifs with hpos
  · have hbytes : 0 < elements shape * elementSizeFor t.dtype :=
      Nat.mul_pos (elements_pos hpos) hsize
    simp [allocated, newBuffer, hbytes]
  · simp [allocated, newBuffer, freedBuffer]

theorem Backed.congr {e e' : TrtEngine} {t : IOTensor} {shape : List Int} (h : Backed e t shape)
    (hbuffer : e'.deviceBuffers t.name = e.deviceBuffers t.name)
    (haddress : e'.context.address t.name = e.context.address t.name) : Backed e' t shape := by
  rwa [Backed, hbuffer, haddress]

/-! ### The constructor -/

/-- What one round of the constructor's loop leaves for its own tensor, and for the others. -/
theorem addBinding_laid {malloc : Malloc} {t : IOTensor} {e e' : TrtEngine} {u : Unit}
    (hsmall : (∀ d ∈ t.dims, 0 < d) → elements t.dims < 2 ^ 31)
    (hsize : 0 < elementSizeFor t.dtype) (hfresh : e.context.address t.name = none)
    (h : (addBinding malloc t).run e = .ok u e') :
    e'.context.inputShape = e.context.inputShape ∧ Backed e' t t.dims ∧
      ∀ name, name ≠ t.name → e'.deviceBuffers name = e.deviceBuffers name ∧
        e'.context.address name = e.context.address name := by
  obtain ⟨e₁, he₁, rfl⟩ := addBinding_ok h
  by_cases hpos : ∀ d ∈ t.dims, 0 < d
  · rw [if_pos ⟨(volumeOf_pos_iff hsmall).2 hpos, hsize⟩] at he₁
    subst he₁
    refine ⟨rfl, (allocated_backed hsmall hsize).congr rfl rfl, fun name hne => ?_⟩
    simp [allocated, hne]
  · rw [if_neg fun hknown => hpos ((volumeOf_pos_iff hsmall).1 hknown.1)] at he₁
    subst he₁
    refine ⟨rfl, ?_, fun _ _ => ⟨rfl, rfl⟩⟩
    rw [Backed, if_neg hpos]
    exact hfresh

theorem addBindings_laid {malloc : Malloc} {ts : List IOTensor} {e e' : TrtEngine} {u : Unit}
    (hnodup : (ts.map (·.name)).Nodup)
    (hsmall : ∀ t ∈ ts, (∀ d ∈ t.dims, 0 < d) → elements t.dims < 2 ^ 31)
    (hsize : ∀ t ∈ ts, 0 < elementSizeFor t.dtype)
    (hfresh : ∀ t ∈ ts, e.context.address t.name = none)
    (h : (addBindings malloc ts).run e = .ok u e') :
    e'.context.inputShape = e.context.inputShape ∧ (∀ t ∈ ts, Backed e' t t.dims) ∧
      ∀ name, name ∉ ts.map (·.name) → e'.deviceBuffers name = e.deviceBuffers name ∧
        e'.context.address name = e.context.address name := by
  induction ts generalizing e with
  | nil =>
    simp only [addBindings, EStateM.run_pure, EStateM.Result.ok.injEq] at h
    simp [← h.2]
  | cons t ts ih =>
    obtain ⟨_, e₁, hfirst, hrest⟩ := bind_run_ok.1 h
    rw [List.map_cons, List.nodup_cons] at hnodup
    rw [List.forall_mem_cons] at hsmall hsize hfresh
    obtain ⟨hinput, hbacked, hframe⟩ :=
      addBinding_laid hsmall.1 hsize.1 hfresh.1 hfirst
    have hne : ∀ t' ∈ ts, t'.name ≠ t.name := fun t' ht' heq =>
      hnodup.1 (heq ▸ List.mem_map_of_mem ht')
    have hfresh₁ : ∀ t' ∈ ts, e₁.context.address t'.name = none := fun t' ht' =>
      ((hframe _ (hne t' ht')).2).trans (hfresh.2 t' ht')
    obtain ⟨hinput', hbacked', hframe'⟩ := ih hnodup.2 hsmall.2 hsize.2 hfresh₁ hrest
    refine ⟨hinput'.trans hinput, ?_, ?_⟩
    · rw [List.forall_mem_cons]
      exact ⟨hbacked.congr (hframe' _ hnodup.1).1 (hframe' _ hnodup.1).2, hbacked'⟩
    · intro name hname
      rw [List.map_cons, List.mem_cons, not_or] at hname
      exact ⟨((hframe' name hname.2).1).trans (hframe name hname.1).1,
        ((hframe' name hname.2).2).trans (hframe name hname.1).2⟩

theorem new_laid {malloc : Malloc} {enginePath : String} {file : EngineFile} {e : TrtEngine}
    (h : TrtEngine.new malloc enginePath file = .ok e)
    (hsize : ∀ t ∈ e.engine.tensors, 0 < elementSizeFor t.dtype) : Laid e (·.dims) := by
  obtain ⟨u, hrun⟩ := new_ok h
  have hsmall : ∀ t ∈ e.engine.tensors, (∀ d ∈ t.dims, 0 < d) → elements t.dims < 2 ^ 31 :=
    fun t ht hpos => e.engine.elements_dims t ht fun d hd => (hpos d hd).le
  obtain ⟨hinput, hbacked, -⟩ :=
    addBindings_laid e.engine.nodup hsmall hsize (fun _ _ => rfl) hrun
  refine ⟨?_, fun t _ => ?_, fun _ _ _ => rfl, hsmall, hbacked⟩
  · rw [new_bindings h]
    rfl
  · rw [hinput]
    rfl

/-! ### The calls of `set_input_shape` -/

theorem recordShape_map {name : String} {s : List Int} {shape : IOTensor → List Int}
    {ts : List IOTensor} (hnodup : (ts.map (·.name)).Nodup) :
    TrtEngine.recordShape name s (ts.map (recorded shape)) =
      ts.map (recorded fun t => if name = t.name then s else shape t) := by
  induction ts with
  | nil => rfl
  | cons t ts ih =>
    rw [List.map_cons, List.nodup_cons] at hnodup
    rw [List.map_cons, TrtEngine.recordShape, List.map_cons]
    by_cases hname : t.name = name
    · rw [if_pos (show (recorded shape t).name = name from hname)]
      have hrest : ∀ t' ∈ ts, recorded shape t' =
          recorded (fun t => if name = t.name then s else shape t) t' := fun t' ht' => by
        have hne : name ≠ t'.name := fun heq =>
          hnodup.1 (hname.trans heq ▸ List.mem_map_of_mem ht')
        simp [recorded, hne]
      rw [List.map_congr_left hrest]
      simp [recorded, bindingInfo, hname]
    · rw [if_neg (show ¬(recorded shape t).name = name from hname), ih hnodup.2]
      simp [recorded, Ne.symm hname]

theorem binding_elementSize {e : TrtEngine} {shape : IOTensor → List Int} {t : IOTensor}
    {info : BindingInfo} (hbindings : e.bindings = e.engine.tensors.map (recorded shape))
    (ht : t ∈ e.engine.tensors) (h : e.binding t.name = .ok info) :
    info.elementSize = elementSizeFor t.dtype := by
  unfold TrtEngine.binding at h
  split at h
  · rename_i b hfind
    obtain rfl : b = info := Except.ok.inj h
    have hmem := List.mem_of_find?_eq_some hfind
    have hname : b.name = t.name := by simpa using List.find?_some hfind
    rw [hbindings] at hmem
    obtain ⟨t', ht', rfl⟩ := List.mem_map.1 hmem
    rw [List.inj_on_of_nodup_map e.engine.nodup ht' ht hname]
    rfl
  · cases h

/-- A call that returns was made for an input, and lays that input out anew. -/
theorem setInputShape_laid {malloc : Malloc} {name : String} {s : List Int} {e e' : TrtEngine}
    {u : Unit} {shape : IOTensor → List Int} (hlaid : Laid e shape)
    (hsize : ∀ t ∈ e.engine.tensors, 0 < elementSizeFor t.dtype)
    (h : (TrtEngine.setInputShape malloc name s).run e = .ok u e') :
    e'.engine = e.engine ∧ Laid e' fun t => if name = t.name then s else shape t := by
  obtain ⟨haccepts, info, hinfo, rfl⟩ := setInputShape_ok h
  obtain ⟨⟨t, ht, rfl, hinput, -⟩, hsmall⟩ := e.engine.of_accepts _ _ haccepts
  have hinj := List.inj_on_of_nodup_map e.engine.nodup
  rw [binding_elementSize hlaid.bindings ht hinfo]
  refine ⟨rfl, ?_, fun t' ht' => ?_, fun t' ht' hout => ?_, fun t' ht' => ?_, fun t' ht' => ?_⟩
  · show TrtEngine.recordShape t.name s e.bindings = _
    rw [hlaid.bindings, recordShape_map e.engine.nodup]
    rfl
  · show (Function.update e.context.inputShape t.name (some s) t'.name).getD t'.dims = _
    by_cases hname : t.name = t'.name
    · simp [hname]
    · rw [Function.update_of_ne (Ne.symm hname), if_neg hname]
      exact hlaid.inputShape t' ht'
  · have hname : t.name ≠ t'.name := fun heq => by
      rw [← hinj ht ht' heq, hinput] at hout
      cases hout
    rw [if_neg hname]
    exact hlaid.output t' ht' hout
  · show (∀ d ∈ if t.name = t'.name then s else shape t', 0 < d) → _
    split_ifs
    · exact fun _ => hsmall
    · exact hlaid.small t' ht'
  · by_cases hname : t.name = t'.name
    · obtain rfl := hinj ht ht' hname
      rw [if_pos rfl]
      exact allocated_backed (fun _ => hsmall) (hsize t ht)
    · rw [if_neg hname]
      refine (hlaid.backed t' ht').congr ?_ ?_ <;> simp [allocated, Ne.symm hname]

theorem setInputShapes_laid {malloc : Malloc} {calls : List (String × List Int)}
    {e e' : TrtEngine} {u : Unit} {shape : IOTensor → List Int} (hlaid : Laid e shape)
    (hsize : ∀ t ∈ e.engine.tensors, 0 < elementSizeFor t.dtype)
    (h : (TrtEngine.setInputShapes malloc calls).run e = .ok u e') :
    e'.engine = e.engine ∧
      Laid e' fun t => calls.foldl (fun s c => if c.1 = t.name then c.2 else s) (shape t) := by
  induction calls generalizing e shape with
  | nil =>
    simp only [TrtEngine.setInputShapes, EStateM.run_pure, EStateM.Result.ok.injEq] at h
    obtain ⟨-, rfl⟩ := h
    exact ⟨rfl, hlaid⟩
  | cons c calls ih =>
    obtain ⟨_, e₁, hfirst, hrest⟩ := bind_run_ok.1 h
    obtain ⟨hengine, hlaid₁⟩ := setInputShape_laid hlaid hsize hfirst
    obtain ⟨hengine', hlaid'⟩ := ih hlaid₁ (by rwa [hengine]) hrest
    exact ⟨hengine'.trans hengine, hlaid'⟩

/-! ### Buffers before inference -/

theorem Refines.eq_of_nonneg {shape dims : List Int} (h : Refines shape dims)
    (hdims : ∀ d ∈ dims, 0 ≤ d) : shape = dims := by
  induction h with
  | nil => rfl
  | cons hd _ ih =>
    rw [List.forall_mem_cons] at hdims
    rw [hd.2 hdims.1, ih hdims.2]

theorem contextShape_eq {e : TrtEngine} {shape : IOTensor → List Int} (hlaid : Laid e shape)
    {t : IOTensor} (ht : t ∈ e.engine.tensors) (hpos : ∀ d ∈ shape t, 0 < d) :
    e.contextShape t = shape t := by
  unfold TrtEngine.contextShape
  split_ifs with hinput
  · exact hlaid.inputShape t ht
  · have hdims := hlaid.output t ht (by simpa using hinput)
    rw [hdims] at hpos ⊢
    exact (e.engine.refines_inferred _ t ht (by simpa using hinput)).eq_of_nonneg fun d hd =>
      (hpos d hd).le

theorem address_isSome_iff {e : TrtEngine} {shape : IOTensor → List Int} (hlaid : Laid e shape)
    {t : IOTensor} (ht : t ∈ e.engine.tensors) :
    (e.context.address t.name).isSome ↔ ∀ d ∈ shape t, 0 < d := by
  have hbacked := hlaid.backed t ht
  rw [Backed] at hbacked
  split_ifs at hbacked with hpos
  · obtain ⟨p, _, haddress⟩ := hbacked
    exact iff_of_true (by rw [haddress, Option.isSome_some]) hpos
  · exact iff_of_false (by simp [hbacked]) hpos

theorem ready_iff {e : TrtEngine} {shape : IOTensor → List Int} (hlaid : Laid e shape)
    {t : IOTensor} (ht : t ∈ e.engine.tensors) : Ready e t ↔ ∀ d ∈ shape t, 0 < d := by
  have hbacked := hlaid.backed t ht
  rw [Backed] at hbacked
  split_ifs at hbacked with hpos
  · obtain ⟨p, hbuffer, haddress⟩ := hbacked
    refine iff_of_true ⟨_, p, hbuffer, rfl, haddress, ?_⟩ hpos
    exact Nat.le_of_eq (congrArg (elements · * _) (contextShape_eq hlaid ht hpos))
  · refine iff_of_false (fun hready => ?_) hpos
    obtain ⟨_, p, _, _, haddress, _⟩ := hready
    rw [hbacked] at haddress
    cases haddress

theorem prepared_of_ready {e : TrtEngine} (h : ∀ t ∈ e.engine.tensors, Ready e t) : Prepared e := by
  refine ⟨h, ?_, fun t ht => ?_⟩
  · have haddress : ∀ t ∈ e.engine.tensors, (e.context.address t.name).isSome := fun t ht => by
      obtain ⟨_, p, _, _, haddress, _⟩ := h t ht
      rw [haddress, Option.isSome_some]
    rw [TrtEngine.infer, if_pos ⟨haddress, rfl⟩]
  · obtain ⟨buf, p, hbuffer, hdata, _, _⟩ := h t ht
    exact ⟨p, by rw [TrtEngine.devicePtr, hbuffer, ← hdata]⟩

/-- **Every tensor has device memory exactly when the shapes the wrapper was told are positive.** -/
theorem prepared_iff (malloc : Malloc) (enginePath : String) (file : EngineFile)
    (calls : List (String × List Int)) (e e' : TrtEngine)
    (hnew : TrtEngine.new malloc enginePath file = .ok e)
    (hsize : ∀ t ∈ e.engine.tensors, 0 < elementSizeFor t.dtype)
    (hcalls : (TrtEngine.setInputShapes malloc calls).run e = .ok () e') :
    Prepared e' ↔ ∀ t ∈ e.engine.tensors, ∀ d ∈ lastShape calls t, 0 < d := by
  obtain ⟨hengine, hlaid⟩ := setInputShapes_laid (new_laid hnew hsize) hsize hcalls
  rw [← hengine]
  refine ⟨fun h t ht => (ready_iff hlaid ht).1 (h.ready t ht), fun h => prepared_of_ready fun t ht =>
    (ready_iff hlaid ht).2 (h t ht)⟩

/-! ### Two engines -/

/-- A batch of faces in, an embedding of each out, for batches of up to 64. -/
def arcFaceEngine : CudaEngine where
  tensors := [⟨"input.1", [-1, 3, 112, 112], .float, true⟩, ⟨"683", [-1, 512], .float, false⟩]
  nodup := by decide
  elements_dims := by decide
  accepts name shape := name = "input.1" && (List.range 64).any fun n => shape = [(n : Int) + 1, 3, 112, 112]
  of_accepts := by
    intro name shape h
    simp only [Bool.and_eq_true, decide_eq_true_eq, List.any_eq_true, List.mem_range] at h
    obtain ⟨rfl, n, hn, rfl⟩ := h
    refine ⟨⟨_, List.mem_cons_self, rfl, rfl, refines_succ n (by decide)⟩, ?_⟩
    show elements (((n : Int) + 1) :: [3, 112, 112]) < 2 ^ 31
    rw [elements_succ]
    calc (n + 1) * elements [3, 112, 112] ≤ 64 * elements [3, 112, 112] := Nat.mul_le_mul_right _ hn
      _ < 2 ^ 31 := by decide
  inferred shapes _ := [(((shapes "input.1").getD []).headD 0).natAbs, 512]
  refines_inferred := by
    intro shapes t ht hout
    simp at ht
    rcases ht with rfl | rfl
    · cases hout
    · simp [Refines]

/-- An engine of one output of static shape. -/
def staticOutputEngine : CudaEngine where
  tensors := [⟨"input.1", [1, 3, -1, -1], .float, true⟩, ⟨"448", [12800, 1], .half, false⟩]
  nodup := by decide
  elements_dims := by decide
  accepts name shape := name = "input.1" && shape = [1, 3, 640, 640]
  of_accepts := by
    intro name shape h
    simp at h
    obtain ⟨rfl, rfl⟩ := h
    exact ⟨⟨_, List.mem_cons_self, rfl, rfl, by simp [Refines]⟩, by decide⟩
  inferred _ _ := [12800, 1]
  refines_inferred := by
    intro shapes t ht hout
    simp at ht
    rcases ht with rfl | rfl
    · cases hout
    · simp [Refines]

theorem prepared_iff_staticOutput : ∃ e e',
    TrtEngine.new (fun _ _ => none) "scrfd.engine" (engineFile staticOutputEngine) = .ok e ∧
    (TrtEngine.setInputShapes (fun _ _ => none) [("input.1", [1, 3, 640, 640])]).run e =
      .ok () e' ∧ Prepared e' := by
  refine ⟨_, _, rfl, rfl, ?_⟩
  exact (prepared_iff (fun _ _ => none) "scrfd.engine" (engineFile staticOutputEngine)
    [("input.1", [1, 3, 640, 640])] _ _ rfl (by decide) rfl).2 (by decide)

/-- The embedding of the first chunk has no buffer: `infer` fails, and `copy_output` throws. -/
theorem not_prepared_arcFace : ∃ e e',
    TrtEngine.new (fun _ _ => none) "arcface.engine" (engineFile arcFaceEngine) = .ok e ∧
    (TrtEngine.setInputShapes (fun _ _ => none) [("input.1", [1, 3, 112, 112])]).run e =
      .ok () e' ∧
    Specified e' ∧ (∀ t ∈ e'.engine.tensors, 0 < elementSizeFor t.dtype) ∧ ¬Prepared e' ∧
    e'.infer true = .error (.runtimeError "enqueueV3 failed") ∧
    e'.devicePtr "683" = .error (.outOfRange "_Map_base::at") := by
  refine ⟨_, _, rfl, rfl, by decide, by decide, fun h => ?_, rfl, rfl⟩
  cases h.infer

end FacePipeline.Trt
