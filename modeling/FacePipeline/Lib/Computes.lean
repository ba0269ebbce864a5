import FacePipeline.Lib.Hoare

/-!
# Stateful programs that compute a function

`Computes P x r Q E fails`: from any state in `P` the program `x` comes to the outcome `r`, or throws an error of
its own (`fails`) that the specification knows nothing of. It returns in `Q` and throws in `E`. The state is not
seen in `r`, so what a program computes is the same whatever ran before it, and a program whose rounds all start
from one invariant computes the same over a list as its specification does (`Computes.mapM`, `Computes.foldlM`).
-/

namespace Hoare

variable {ε σ α β ι : Type} {P Q R E : σ → Prop} {fails : ε → Prop}

/-- From `P`, `x` comes to `r` or fails. -/
structure Computes (P : σ → Prop) (x : EStateM ε σ α) (r : Except ε α) (Q E : σ → Prop) (fails : ε → Prop) :
    Prop where
  run : ∀ s, P s → match x.run s with
    | .ok a s' => r = .ok a ∧ Q s'
    | .error e s' => (r = .error e ∨ fails e) ∧ E s'

theorem Computes.ok {x : EStateM ε σ α} {r : Except ε α} (h : Computes P x r Q E fails) {s s' : σ} {a : α}
    (hs : P s) (hrun : x.run s = .ok a s') : r = .ok a ∧ Q s' := by
  have hx := h.run s hs
  rwa [hrun] at hx

theorem Computes.error {x : EStateM ε σ α} {r : Except ε α} (h : Computes P x r Q E fails) {s s' : σ} {e : ε}
    (hs : P s) (hrun : x.run s = .error e s') : (r = .error e ∨ fails e) ∧ E s' := by
  have hx := h.run s hs
  rwa [hrun] at hx

/-- It is enough to look at each kind of run. -/
theorem Computes.intro {x : EStateM ε σ α} {r : Except ε α}
    (hok : ∀ s s' a, P s → x.run s = .ok a s' → r = .ok a ∧ Q s')
    (herror : ∀ s s' e, P s → x.run s = .error e s' → (r = .error e ∨ fails e) ∧ E s') :
    Computes P x r Q E fails := by
  refine ⟨fun s hs => ?_⟩
  cases hrun : x.run s with
  | ok a s' => exact hok s s' a hs hrun
  | error e s' => exact herror s s' e hs hrun

theorem Computes.pure {a : α} (h : ∀ s, P s → Q s) :
    Computes P (pure a : EStateM ε σ α) (.ok a) Q E fails :=
  ⟨fun s hs => ⟨rfl, h s hs⟩⟩

theorem Computes.throw {e : ε} (h : ∀ s, P s → E s) :
    Computes P (throw e : EStateM ε σ α) (.error e) Q E fails :=
  ⟨fun s hs => ⟨.inl rfl, h s hs⟩⟩

/-- What is read is some state in `P`. -/
theorem Computes.get_bind {f : σ → EStateM ε σ α} {r : Except ε α}
    (h : ∀ s, P s → Computes P (f s) r Q E fails) : Computes P (get >>= f) r Q E fails :=
  ⟨fun s hs => (h s hs).run s hs⟩

theorem Computes.set {s₁ : σ} (h : Q s₁) :
    Computes P (set s₁ : EStateM ε σ PUnit) (.ok ⟨⟩) Q E fails :=
  ⟨fun _ _ => ⟨rfl, h⟩⟩

theorem Computes.modify {f : σ → σ} (h : ∀ s, P s → Q (f s)) :
    Computes P (modify f : EStateM ε σ PUnit) (.ok ⟨⟩) Q E fails :=
  ⟨fun s hs => ⟨rfl, h s hs⟩⟩

/-- What the state shows may be used as a fact. -/
theorem Computes.of_fact {x : EStateM ε σ α} {r : Except ε α} {φ : Prop} (hφ : ∀ s, P s → φ)
    (h : φ → Computes P x r Q E fails) : Computes P x r Q E fails :=
  ⟨fun s hs => (h (hφ s hs)).run s hs⟩

/-- Both sides go on with the same value. -/
theorem Computes.bind {x : EStateM ε σ α} {f : α → EStateM ε σ β} {r : Except ε α} {g : α → Except ε β}
    (hx : Computes P x r Q E fails) (hf : ∀ a, r = .ok a → Computes Q (f a) (g a) R E fails) :
    Computes P (x >>= f) (r >>= g) R E fails := by
  refine ⟨fun s hs => ?_⟩
  rw [EStateM.run_bind]
  cases hrun : x.run s with
  | ok a s' =>
    obtain ⟨rfl, hs'⟩ := hx.ok hs hrun
    exact (hf a rfl).run s' hs'
  | error e s' =>
    obtain ⟨hr | hfails, hs'⟩ := hx.error hs hrun
    · subst hr
      exact ⟨.inl rfl, hs'⟩
    · exact ⟨.inr hfails, hs'⟩

/-- A step that the specification does not have. -/
theorem Computes.step {x : EStateM ε σ α} {f : α → EStateM ε σ β} {a : α} {r : Except ε β}
    (hx : Computes P x (.ok a) Q E fails) (hf : Computes Q (f a) r R E fails) :
    Computes P (x >>= f) r R E fails := by
  have hboth := hx.bind (g := fun _ => r) (R := R) (f := f) fun a' ha' => by
    obtain rfl := Except.ok.inj ha'
    exact hf
  exact hboth

theorem Computes.weaken {x : EStateM ε σ α} {r : Except ε α} {P' Q' : σ → Prop} (h : Computes P x r Q E fails)
    (hP : ∀ s, P' s → P s) (hQ : ∀ s, Q s → Q' s) : Computes P' x r Q' E fails :=
  .intro (fun _ _ _ hs hrun => (h.ok (hP _ hs) hrun).imp_right (hQ _)) fun _ _ _ hs hrun =>
    h.error (hP _ hs) hrun

theorem Computes.foldlM {f : β → ι → EStateM ε σ β} {g : β → ι → Except ε β} {xs : List ι}
    (h : ∀ x ∈ xs, ∀ b, Computes P (f b x) (g b x) P E fails) (b : β) :
    Computes P (xs.foldlM f b) (xs.foldlM g b) P E fails := by
  induction xs generalizing b with
  | nil => exact .pure fun _ hs => hs
  | cons x xs ih =>
    rw [List.forall_mem_cons] at h
    rw [List.foldlM_cons, List.foldlM_cons]
    exact (h.1 b).bind fun b' _ => ih h.2 b'

theorem Computes.mapM {f : ι → EStateM ε σ β} {g : ι → Except ε β} {xs : List ι}
    (h : ∀ x ∈ xs, Computes P (f x) (g x) P E fails) : Computes P (xs.mapM f) (xs.mapM g) P E fails := by
  induction xs with
  | nil => exact .pure fun _ hs => hs
  | cons x xs ih =>
    rw [List.forall_mem_cons] at h
    rw [List.mapM_cons, List.mapM_cons]
    refine h.1.bind fun y _ => (ih h.2).bind fun ys _ => ?_
    exact .pure fun _ hs => hs

/-- A program on a part of the state. -/
theorem Computes.focus {τ δ : Type} {get : σ → τ} {set : τ → σ → σ} {err : δ → ε} {x : EStateM δ τ α}
    {r : Except δ α} {P' Q' E' : τ → Prop} {fails' : δ → Prop} (hx : Computes P' x r Q' E' fails')
    (hP : ∀ s, P s → P' (get s)) (hQ : ∀ s t, P s → Q' t → Q (set t s)) (hE : ∀ s t, P s → E' t → E (set t s))
    (hfails : ∀ e, fails' e → fails (err e)) :
    Computes P (Hoare.focus get set err x) (r.mapError err) Q E fails := by
  refine ⟨fun s hs => ?_⟩
  cases hrun : x.run (get s) with
  | ok a t =>
    obtain ⟨rfl, ht⟩ := hx.ok (hP s hs) hrun
    rw [focus_ok hrun]
    exact ⟨rfl, hQ s t hs ht⟩
  | error e t =>
    obtain ⟨hr, ht⟩ := hx.error (hP s hs) hrun
    rw [focus_error hrun]
    refine ⟨?_, hE s t hs ht⟩
    rcases hr with rfl | he
    · exact .inl rfl
    · exact .inr (hfails e he)

/-- A program that computes something keeps what it needs for it. -/
theorem Computes.triple {x : EStateM ε σ α} {r : Except ε α} (h : Computes P x r Q E fails) :
    Triple P x (fun _ => Q) E := by
  refine ⟨fun s hs => ?_⟩
  cases hrun : x.run s with
  | ok a s' => exact (h.ok hs hrun).2
  | error e s' => exact (h.error hs hrun).2

end Hoare
