import Mathlib.Logic.Function.Basic

/-!
# Unique ownership

A heap maps the handles that are allocated to what is known of them (a size, say), and each owner holds at most one
handle. `Exact` is what resource-owning types promise: the handles that are allocated are those that are held, each
of them by one owner. It survives the three changes such types are made of (`acquire`, `free`, `transfer`), and once
nobody holds anything, nothing is allocated (`Exact.nothing_live`).
-/

namespace Ownership

variable {ι H S : Type*}

structure Exact (held : ι → Option (H × S)) (live : H → Option S) : Prop where
  live_iff : ∀ h a, live h = some a ↔ ∃ x, held x = some (h, a)
  unique : ∀ x y h a b, held x = some (h, a) → held y = some (h, b) → x = y

variable {held : ι → Option (H × S)} {live : H → Option S} {x y : ι} {h : H} {a : S}

theorem Exact.empty : Exact (fun _ : ι => (none : Option (H × S))) fun _ => none where
  live_iff := by simp
  unique := by simp

theorem Exact.live_of_held (hexact : Exact held live) (hx : held x = some (h, a)) : live h = some a :=
  (hexact.live_iff h a).2 ⟨x, hx⟩

theorem Exact.nothing_live (hexact : Exact held live) (hheld : ∀ x, held x = none) (h : H) : live h = none := by
  rw [Option.eq_none_iff_forall_ne_some]
  intro a ha
  obtain ⟨x, hx⟩ := (hexact.live_iff h a).1 ha
  rw [hheld x] at hx
  cases hx

variable [DecidableEq ι] [DecidableEq H]

/-- A handle that is not allocated goes to an owner that holds none. -/
theorem Exact.acquire (hexact : Exact held live) (hx : held x = none) (hh : live h = none) :
    Exact (Function.update held x (some (h, a))) (Function.update live h (some a)) := by
  have hfree : ∀ y b, held y ≠ some (h, b) := by
    intro y b hy
    rw [hexact.live_of_held hy] at hh
    cases hh
  constructor
  · intro h' a'
    have hold := hexact.live_iff h' a'
    simp only [Function.update_apply]
    grind
  · intro y z h' b c hy hz
    have hold := hexact.unique y z h' b c
    simp only [Function.update_apply] at hy hz
    grind

/-- An owner frees the handle it holds. -/
theorem Exact.free (hexact : Exact held live) (hx : held x = some (h, a)) :
    Exact (Function.update held x none) (Function.update live h none) := by
  have hothers : ∀ y b, held y = some (h, b) → y = x := fun y b hy => hexact.unique y x h b a hy hx
  constructor
  · intro h' a'
    have hold := hexact.live_iff h' a'
    simp only [Function.update_apply]
    grind
  · intro y z h' b c hy hz
    have hold := hexact.unique y z h' b c
    simp only [Function.update_apply] at hy hz
    grind

/-- An owner that holds nothing takes what another one holds. -/
theorem Exact.transfer (hexact : Exact held live) (hxy : x ≠ y) (hx : held x = none) :
    Exact (Function.update (Function.update held x (held y)) y none) live := by
  cases hy : held y with
  | none =>
    have hnothing : ∀ z, held z = none → Function.update held z none = held := by
      intro z hz
      rw [← hz]
      exact Function.update_eq_self z held
    rwa [hnothing x hx, hnothing y hy]
  | some p =>
    obtain ⟨h, a⟩ := p
    have hmoved := (hexact.free hy).acquire (x := x) (h := h) (a := a)
      (by rw [Function.update_of_ne hxy, hx]) (Function.update_self ..)
    rw [Function.update_idem, ← hexact.live_of_held hy, Function.update_eq_self] at hmoved
    rwa [Function.update_comm hxy]

/-- The heap once a handle, if there is one, is freed. -/
def discard : Option (H × S) → (H → Option S) → H → Option S
  | some (h, _), live => Function.update live h none
  | none, live => live

/-- An owner frees the handle it holds, if it holds one. -/
theorem Exact.discard (hexact : Exact held live) (x : ι) :
    Exact (Function.update held x none) (discard (held x) live) := by
  cases hx : held x with
  | none =>
    have hnothing : Function.update held x none = held := by
      rw [← hx]
      exact Function.update_eq_self x held
    rwa [hnothing]
  | some p => exact hexact.free hx

end Ownership
