import Mathlib.Data.List.Basic

/-!
# Pre- and postconditions of stateful programs

`Triple P x Q E`: from a state in `P` the program `x` returns in `Q`, or fails in `E`. The rules follow the
structure of a program. A caller that catches what a call throws goes on with the state that the call has
left (`runCalls`), so that an invariant of returning and failing calls alike holds after any of them.
-/

namespace Hoare

variable {ε σ α β ι : Type} {P P' E E' : σ → Prop} {Q Q' : α → σ → Prop}

/-- From `P`, `x` returns in `Q` or fails in `E`. -/
structure Triple (P : σ → Prop) (x : EStateM ε σ α) (Q : α → σ → Prop) (E : σ → Prop) : Prop where
  run : ∀ s, P s → match x.run s with
    | .ok a s' => Q a s'
    | .error _ s' => E s'

/-- What a run that returns has done. -/
theorem Triple.returns {x : EStateM ε σ α} (h : Triple P x Q E) {s s' : σ} {a : α} (hs : P s)
    (hrun : x.run s = .ok a s') : Q a s' := by
  have hx := h.run s hs
  rwa [hrun] at hx

theorem Triple.weaken {x : EStateM ε σ α} (h : Triple P x Q E) (hP : ∀ s, P' s → P s)
    (hQ : ∀ a s, Q a s → Q' a s) (hE : ∀ s, E s → E' s) : Triple P' x Q' E' := by
  refine ⟨fun s hs => ?_⟩
  have hx := h.run s (hP s hs)
  cases hrun : x.run s with
  | ok a s' =>
    rw [hrun] at hx
    exact hQ a s' hx
  | error e s' =>
    rw [hrun] at hx
    exact hE s' hx

theorem Triple.pure {a : α} (h : ∀ s, P s → Q a s) : Triple P (pure a : EStateM ε σ α) Q E :=
  ⟨h⟩

theorem Triple.throw {e : ε} (h : ∀ s, P s → E s) : Triple P (throw e : EStateM ε σ α) Q E :=
  ⟨h⟩

/-- What comes after a `throw` is not run. -/
theorem Triple.throw_bind {e : ε} {f : α → EStateM ε σ β} {R : β → σ → Prop} (h : ∀ s, P s → E s) :
    Triple P ((MonadExcept.throw e : EStateM ε σ α) >>= f) R E :=
  ⟨h⟩

theorem Triple.bind {x : EStateM ε σ α} {f : α → EStateM ε σ β} {R : β → σ → Prop}
    (hx : Triple P x Q E) (hf : ∀ a, Triple (Q a) (f a) R E) : Triple P (x >>= f) R E := by
  refine ⟨fun s hs => ?_⟩
  have hfirst := hx.run s hs
  rw [EStateM.run_bind]
  cases hrun : x.run s with
  | ok a s' =>
    rw [hrun] at hfirst
    exact (hf a).run s' hfirst
  | error e s' =>
    rw [hrun] at hfirst
    exact hfirst

/-- Nothing is asked of `x`. -/
theorem Triple.after {x : EStateM ε σ α} {f : α → EStateM ε σ β} {R : β → σ → Prop}
    (hf : ∀ a, Triple (fun _ => True) (f a) R fun _ => True) : Triple P (x >>= f) R fun _ => True := by
  have hx : Triple P x (fun _ _ => True) fun _ => True := by
    refine ⟨fun s _ => ?_⟩
    cases x.run s <;> trivial
  exact hx.bind hf

/-- The rest of a program may use a fact about the value it goes on with. -/
theorem Triple.bind_fact {x : EStateM ε σ α} {f : α → EStateM ε σ β} {q : α → Prop} {R : σ → Prop}
    {S : β → σ → Prop} (hx : Triple P x (fun a s => R s ∧ q a) E) (hf : ∀ a, q a → Triple R (f a) S E) :
    Triple P (x >>= f) S E :=
  hx.bind fun a => ⟨fun s hs => (hf a hs.2).run s hs.1⟩

/-- What is known of the runs that return. -/
theorem Triple.and_returns {x : EStateM ε σ α} {R : α → σ → Prop} (h : Triple P x Q E)
    (hR : ∀ s a s', P s → x.run s = .ok a s' → R a s') : Triple P x (fun a s => Q a s ∧ R a s) E := by
  refine ⟨fun s hs => ?_⟩
  have hx := h.run s hs
  cases hrun : x.run s with
  | ok a s' =>
    rw [hrun] at hx
    exact ⟨hx, hR s a s' hs hrun⟩
  | error e s' =>
    rw [hrun] at hx
    exact hx

/-- It is enough to look at each initial state by itself. -/
theorem Triple.of_states {x : EStateM ε σ α} (h : ∀ s, P s → Triple (· = s) x Q E) : Triple P x Q E :=
  ⟨fun s hs => (h s hs).run s rfl⟩

/-- What is read is some state in `P`. -/
theorem Triple.get_bind {f : σ → EStateM ε σ α} (h : ∀ s, P s → Triple P (f s) Q E) :
    Triple P (get >>= f) Q E :=
  ⟨fun s hs => (h s hs).run s hs⟩

theorem Triple.set {s₁ : σ} {R : PUnit → σ → Prop} (h : R ⟨⟩ s₁) :
    Triple P (set s₁ : EStateM ε σ PUnit) R E :=
  ⟨fun _ _ => h⟩

theorem Triple.modify {f : σ → σ} {R : PUnit → σ → Prop} (h : ∀ s, P s → R ⟨⟩ (f s)) :
    Triple P (modify f : EStateM ε σ PUnit) R E :=
  ⟨h⟩

/-- A loop keeps what each of its rounds keeps. -/
theorem Triple.foldlM {f : β → ι → EStateM ε σ β} {xs : List ι}
    (h : ∀ x ∈ xs, ∀ b, Triple P (f b x) (fun _ => P) E) (b : β) :
    Triple P (xs.foldlM f b) (fun _ => P) E := by
  induction xs generalizing b with
  | nil => exact Triple.pure fun _ hs => hs
  | cons x xs ih =>
    rw [List.forall_mem_cons] at h
    rw [List.foldlM_cons]
    exact (h.1 b).bind fun b' => ih h.2 b'

/-- Each element is `ok`, as long as those before it let the loop go on. -/
def InTurn (ok next : ι → Prop) : List ι → Prop
  | [] => True
  | x :: xs => ok x ∧ (next x → InTurn ok next xs)

/-- A round may rely on what the rounds before it have let through. -/
theorem Triple.foldlM_inTurn {f : β → ι → EStateM ε σ β} {ok next : ι → Prop} {xs : List ι}
    (h : ∀ x ∈ xs, ok x → ∀ b, Triple P (f b x) (fun _ s => P s ∧ next x) E) (hturn : InTurn ok next xs)
    (b : β) : Triple P (xs.foldlM f b) (fun _ => P) E := by
  induction xs generalizing b with
  | nil => exact Triple.pure fun _ hs => hs
  | cons x xs ih =>
    rw [List.forall_mem_cons] at h
    obtain ⟨hok, hrest⟩ := hturn
    rw [List.foldlM_cons]
    exact (h.1 hok b).bind_fact fun b' hnext => ih h.2 (hrest hnext) b'

/-- In a sorted list, the elements before another one are the smaller ones. -/
theorem inTurn_iff {ok next : ι → Prop} {r : ι → ι → Prop} (hasymm : ∀ x y, r x y → ¬r y x) {xs : List ι}
    (hsorted : xs.Pairwise r) :
    InTurn ok next xs ↔ ∀ x ∈ xs, (∀ y ∈ xs, r y x → next y) → ok x := by
  induction xs with
  | nil => simp [InTurn]
  | cons x xs ih =>
    rw [List.pairwise_cons] at hsorted
    obtain ⟨hbefore, hsorted⟩ := hsorted
    rw [InTurn, ih hsorted]
    constructor
    · rintro ⟨hok, hrest⟩ y hy hnext
      rcases List.mem_cons.1 hy with rfl | hy
      · exact hok
      · exact hrest (hnext x List.mem_cons_self (hbefore y hy)) y hy fun z hz =>
          hnext z (List.mem_cons_of_mem _ hz)
    · intro h
      refine ⟨h x List.mem_cons_self fun y hy hyx => ?_, fun hx y hy hnext => ?_⟩
      · rcases List.mem_cons.1 hy with rfl | hy
        · exact absurd hyx (hasymm y y hyx)
        · exact absurd hyx (hasymm x y (hbefore y hy))
      · refine h y (List.mem_cons_of_mem _ hy) fun z hz hzy => ?_
        rcases List.mem_cons.1 hz with rfl | hz
        · exact hx
        · exact hnext z hz hzy

theorem Triple.mapM {f : ι → EStateM ε σ β} {xs : List ι} (h : ∀ x ∈ xs, Triple P (f x) (fun _ => P) E) :
    Triple P (xs.mapM f) (fun _ => P) E := by
  induction xs with
  | nil => exact Triple.pure fun _ hs => hs
  | cons x xs ih =>
    rw [List.forall_mem_cons] at h
    rw [List.mapM_cons]
    exact h.1.bind fun _ => (ih h.2).bind fun _ => Triple.pure fun _ hs => hs

/-- A loop keeps what each of its rounds keeps of the value. -/
theorem Triple.foldlM_value {f : β → ι → EStateM ε σ β} {q : β → Prop} {xs : List ι}
    (h : ∀ x ∈ xs, ∀ b, q b → Triple P (f b x) (fun b' s => P s ∧ q b') E) {b : β} (hb : q b) :
    Triple P (xs.foldlM f b) (fun b' s => P s ∧ q b') E := by
  induction xs generalizing b with
  | nil => exact Triple.pure fun _ hs => ⟨hs, hb⟩
  | cons x xs ih =>
    rw [List.forall_mem_cons] at h
    rw [List.foldlM_cons]
    exact (h.1 b hb).bind_fact fun b' hb' => ih h.2 hb'

/-- One result for each element, and what is known of each. -/
theorem Triple.mapM_forall {f : ι → EStateM ε σ β} {q : β → Prop} {xs : List ι}
    (h : ∀ x ∈ xs, Triple P (f x) (fun b s => P s ∧ q b) E) :
    Triple P (xs.mapM f) (fun bs s => P s ∧ bs.length = xs.length ∧ ∀ b ∈ bs, q b) E := by
  induction xs with
  | nil => exact Triple.pure fun _ hs => ⟨hs, rfl, fun _ hb => absurd hb List.not_mem_nil⟩
  | cons x xs ih =>
    rw [List.forall_mem_cons] at h
    rw [List.mapM_cons]
    refine h.1.bind_fact fun b hb => (ih h.2).bind_fact fun bs hbs => ?_
    refine Triple.pure fun _ hs => ⟨hs, ?_, List.forall_mem_cons.2 ⟨hb, hbs.2⟩⟩
    rw [List.length_cons, List.length_cons, hbs.1]

/-- A program on a part of the state, which throws its errors as `err`. -/
def focus {τ δ : Type} (get : σ → τ) (set : τ → σ → σ) (err : δ → ε) (x : EStateM δ τ α) :
    EStateM ε σ α := fun s =>
  match x.run (get s) with
  | .ok a t => .ok a (set t s)
  | .error e t => .error (err e) (set t s)

theorem focus_ok {τ δ : Type} {get : σ → τ} {set : τ → σ → σ} {err : δ → ε} {x : EStateM δ τ α} {s : σ}
    {a : α} {t : τ} (h : x.run (get s) = .ok a t) : (focus get set err x).run s = .ok a (set t s) := by
  rw [EStateM.run, focus, h]

theorem focus_error {τ δ : Type} {get : σ → τ} {set : τ → σ → σ} {err : δ → ε} {x : EStateM δ τ α}
    {s : σ} {e : δ} {t : τ} (h : x.run (get s) = .error e t) :
    (focus get set err x).run s = .error (err e) (set t s) := by
  rw [EStateM.run, focus, h]

/-- What holds of the part, and what that makes of the whole. -/
theorem Triple.focus {τ δ : Type} {get : σ → τ} {set : τ → σ → σ} {err : δ → ε} {x : EStateM δ τ α}
    {R R' : τ → Prop} {S : α → τ → Prop} (hx : Triple R x S R') (hP : ∀ s, P s → R (get s))
    (hQ : ∀ s a t, P s → S a t → Q a (set t s)) (hE : ∀ s t, P s → R' t → E (set t s)) :
    Triple P (focus get set err x) Q E := by
  refine ⟨fun s hs => ?_⟩
  have hpart := hx.run (get s) (hP s hs)
  show match (match x.run (get s) with
    | .ok a t => EStateM.Result.ok a (set t s)
    | .error e t => EStateM.Result.error (err e) (set t s)) with
    | .ok a s' => Q a s'
    | .error _ s' => E s'
  cases hrun : x.run (get s) with
  | ok a t =>
    rw [hrun] at hpart
    exact hQ s a t hs hpart
  | error e t =>
    rw [hrun] at hpart
    exact hE s t hs hpart

/-! ### Sequences of calls -/

/-- The state after some calls; an error that `caught` lets through ends the sequence. -/
def runCalls (call : ι → EStateM ε σ α) (caught : ε → Bool) : List ι → σ → σ
  | [], s => s
  | i :: is, s =>
      match (call i).run s with
      | .ok _ s' => runCalls call caught is s'
      | .error e s' => if caught e then runCalls call caught is s' else s'

theorem runCalls_invariant_of_mem {call : ι → EStateM ε σ α} {caught : ε → Bool} {is : List ι}
    (h : ∀ i ∈ is, Triple P (call i) (fun _ => P) P) {s : σ} (hs : P s) :
    P (runCalls call caught is s) := by
  induction is generalizing s with
  | nil => exact hs
  | cons i is ih =>
    rw [List.forall_mem_cons] at h
    have hstep := h.1.run s hs
    rw [runCalls]
    cases hrun : (call i).run s with
    | ok a s' =>
      rw [hrun] at hstep
      exact ih h.2 hstep
    | error e s' =>
      rw [hrun] at hstep
      show P (if caught e then runCalls call caught is s' else s')
      split_ifs
      · exact ih h.2 hstep
      · exact hstep

/-- Two runs come to the same, in related states. -/
def SameResult {τ : Type} (r : σ → τ → Prop) : EStateM.Result ε σ α → EStateM.Result ε τ α → Prop
  | .ok a s, .ok b t => a = b ∧ r s t
  | .error e s, .error e' t => e = e' ∧ r s t
  | _, _ => False

/-- Calls that agree one by one agree as a sequence. -/
theorem runCalls_related {τ : Type} {call : ι → EStateM ε σ α} {call' : ι → EStateM ε τ α} {caught : ε → Bool}
    {r : σ → τ → Prop} {is : List ι}
    (h : ∀ i ∈ is, ∀ s t, r s t → SameResult r ((call i).run s) ((call' i).run t)) {s : σ} {t : τ} (hr : r s t) :
    r (runCalls call caught is s) (runCalls call' caught is t) := by
  induction is generalizing s t with
  | nil => exact hr
  | cons i is ih =>
    rw [List.forall_mem_cons] at h
    have hstep := h.1 s t hr
    rw [runCalls, runCalls]
    cases hs : (call i).run s with
    | ok a s' =>
      cases ht : (call' i).run t with
      | ok b t' =>
        rw [hs, ht] at hstep
        exact ih h.2 hstep.2
      | error e t' =>
        rw [hs, ht] at hstep
        exact hstep.elim
    | error e s' =>
      cases ht : (call' i).run t with
      | ok b t' =>
        rw [hs, ht] at hstep
        exact hstep.elim
      | error e' t' =>
        rw [hs, ht] at hstep
        obtain ⟨rfl, hr'⟩ := hstep
        show r (if caught e then runCalls call caught is s' else s') (if caught e then runCalls call' caught is t' else t')
        split_ifs
        · exact ih h.2 hr'
        · exact hr'

theorem runCalls_invariant {call : ι → EStateM ε σ α} {caught : ε → Bool}
    (h : ∀ i, Triple P (call i) (fun _ => P) P) (is : List ι) {s : σ} (hs : P s) :
    P (runCalls call caught is s) :=
  runCalls_invariant_of_mem (fun i _ => h i) hs

end Hoare
