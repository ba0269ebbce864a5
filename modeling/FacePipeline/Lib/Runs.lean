import Mathlib.Data.Option.Basic

/-!
# Runs of a partial step function

A system is a step function from events to partial state changes: an event that is not enabled has no
successor. A run is a list of events that are enabled one after the other. What each step preserves, a run
preserves; where the steps need a side condition, it is one on every step of the run (`Along`).
-/

namespace Runs

variable {σ ε : Type*}

def run (step : ε → σ → Option σ) : List ε → σ → Option σ
  | [], s => some s
  | e :: es, s => (step e s).bind (run step es)

variable {step : ε → σ → Option σ}

theorem run_cons_eq_some {e : ε} {es : List ε} {s s' : σ} :
    run step (e :: es) s = some s' ↔ ∃ s₁, step e s = some s₁ ∧ run step es s₁ = some s' :=
  Option.bind_eq_some_iff

/-- From a state without a successor only the empty run starts. -/
theorem run_of_stuck {es : List ε} {s s' : σ} (hstuck : ∀ e, step e s = none)
    (hrun : run step es s = some s') : s' = s := by
  cases es with
  | nil => exact (Option.some.inj hrun).symm
  | cons e es =>
    obtain ⟨s₁, hs₁, _⟩ := run_cons_eq_some.1 hrun
    rw [hstuck e] at hs₁
    cases hs₁

theorem run_append_eq_some {es es' : List ε} {s s' : σ} :
    run step (es ++ es') s = some s' ↔ ∃ s₁, run step es s = some s₁ ∧ run step es' s₁ = some s' := by
  induction es generalizing s with
  | nil => simp [run]
  | cons e es ih =>
    rw [List.cons_append, run_cons_eq_some]
    simp only [run_cons_eq_some, ih]
    exact ⟨fun ⟨s₁, h₁, s₂, h₂, h₃⟩ => ⟨s₂, ⟨s₁, h₁, h₂⟩, h₃⟩,
      fun ⟨s₂, ⟨s₁, h₁, h₂⟩, h₃⟩ => ⟨s₁, h₁, s₂, h₂, h₃⟩⟩

/-- Every step of the run is taken in a state where `ok` allows it. -/
def Along (step : ε → σ → Option σ) (ok : ε → σ → Prop) : List ε → σ → Prop
  | [], _ => True
  | e :: es, s => ok e s ∧ ∀ s' ∈ step e s, Along step ok es s'

variable {ok : ε → σ → Prop}

instance decidableAlong [DecidableRel ok] : (es : List ε) → (s : σ) → Decidable (Along step ok es s)
  | [], _ => inferInstanceAs (Decidable True)
  | e :: es, s =>
      have : DecidablePred (Along step ok es) := decidableAlong es
      inferInstanceAs (Decidable (ok e s ∧ ∀ s' ∈ step e s, Along step ok es s'))

theorem along_of_forall {es : List ε} {s : σ} (h : ∀ e ∈ es, ∀ s, ok e s) : Along step ok es s := by
  induction es generalizing s with
  | nil => trivial
  | cons e es ih =>
    exact ⟨h e List.mem_cons_self s, fun _ _ => ih fun e' he' => h e' (List.mem_cons_of_mem _ he')⟩

theorem Along.append_left {es es' : List ε} {s : σ} (h : Along step ok (es ++ es') s) :
    Along step ok es s := by
  induction es generalizing s with
  | nil => trivial
  | cons e es ih => exact ⟨h.1, fun s' hs' => ih (h.2 s' hs')⟩

/-- A run keeps what each allowed step keeps. -/
theorem inv_of_along {inv : σ → Prop}
    (hstep : ∀ e s s', inv s → ok e s → step e s = some s' → inv s') {es : List ε} {s s' : σ}
    (hinv : inv s) (halong : Along step ok es s) (hrun : run step es s = some s') : inv s' := by
  induction es generalizing s with
  | nil => exact Option.some.inj hrun ▸ hinv
  | cons e es ih =>
    obtain ⟨s₁, hs₁, hrest⟩ := run_cons_eq_some.1 hrun
    exact ih (hstep e s s₁ hinv halong.1 hs₁) (halong.2 s₁ hs₁) hrest

theorem inv_of_run {inv : σ → Prop} (hstep : ∀ e s s', inv s → step e s = some s' → inv s') {es : List ε} {s s' : σ}
    (hinv : inv s) (hrun : run step es s = some s') : inv s' := by
  have hall : Along step (fun _ _ => True) es s := along_of_forall fun _ _ _ => trivial
  exact inv_of_along (fun e s s' h _ => hstep e s s' h) hinv hall hrun

/-- A run that is not allowed takes a first step that is not. -/
theorem exists_first_of_not_along {inv : σ → Prop}
    (hstep : ∀ e s s', inv s → ok e s → step e s = some s' → inv s') {es : List ε} {s s' : σ}
    (hinv : inv s) (halong : ¬Along step ok es s) (hrun : run step es s = some s') :
    ∃ es₁ e es₂ s₁ s₂, es = es₁ ++ e :: es₂ ∧ run step es₁ s = some s₁ ∧ inv s₁ ∧ ¬ok e s₁ ∧
      step e s₁ = some s₂ ∧ run step es₂ s₂ = some s' := by
  induction es generalizing s with
  | nil => exact absurd trivial halong
  | cons e es ih =>
    obtain ⟨s₁, hs₁, hrest⟩ := run_cons_eq_some.1 hrun
    by_cases hok : ok e s
    · have hrestAlong : ¬Along step ok es s₁ := fun hall => halong ⟨hok, fun s₂ hs₂ => by
        obtain rfl := Option.some.inj (hs₁.symm.trans hs₂)
        exact hall⟩
      obtain ⟨es₁, e', es₂, s₂, s₃, rfl, hrun₁, hfound⟩ := ih (hstep e s s₁ hinv hok hs₁) hrestAlong hrest
      exact ⟨e :: es₁, e', es₂, s₂, s₃, rfl, run_cons_eq_some.2 ⟨s₁, hs₁, hrun₁⟩, hfound⟩
    · exact ⟨[], e, es, s, s₁, rfl, rfl, hinv, hok, hs₁, hrest⟩

/-! ### Simulation -/

variable {τ δ α : Type*} {step' : δ → τ → Option τ} {r : σ → τ → Prop} {obs : ε → List α}
  {obs' : δ → List α} {pending : σ → List α}

/-- A simulation that answers each step with a run answers a run with a run. The answer may be late: what is
observed of it lags behind by what is `pending`. -/
theorem run_simulated
    (hsim : ∀ e s s' t, r s t → step e s = some s' → ∃ es t', run step' es t = some t' ∧ r s' t' ∧
      es.flatMap obs' ++ pending s' = pending s ++ obs e)
    {es : List ε} {s s' : σ} {t : τ} (h : r s t) (hrun : run step es s = some s') :
    ∃ es' t', run step' es' t = some t' ∧ r s' t' ∧
      es'.flatMap obs' ++ pending s' = pending s ++ es.flatMap obs := by
  induction es generalizing s t with
  | nil =>
    obtain rfl := Option.some.inj hrun
    exact ⟨[], t, rfl, h, by simp⟩
  | cons e es ih =>
    obtain ⟨s₁, hs₁, hrest⟩ := run_cons_eq_some.1 hrun
    obtain ⟨es₁, t₁, hrun₁, hr₁, hobs₁⟩ := hsim e s s₁ t h hs₁
    obtain ⟨es₂, t₂, hrun₂, hr₂, hobs₂⟩ := ih hr₁ hrest
    refine ⟨es₁ ++ es₂, t₂, run_append_eq_some.2 ⟨t₁, hrun₁, hrun₂⟩, hr₂, ?_⟩
    rw [List.flatMap_append, List.append_assoc, hobs₂, ← List.append_assoc, hobs₁, List.flatMap_cons,
      List.append_assoc]

end Runs
