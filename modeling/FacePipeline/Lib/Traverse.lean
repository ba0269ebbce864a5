import Mathlib.Data.List.ReduceOption

/-!
# Running a fallible step over a list

`traverseIdx g i xs` runs `g` on the elements of `xs` in order, with the position (counted from `i`)
as first argument, and stops at the first failure. It succeeds exactly when every step does
(`traverseIdx_ok_iff`).
-/

namespace Traverse

variable {α β ε : Type*} {g : ℕ → α → Except ε β}

def traverseIdx (g : ℕ → α → Except ε β) : ℕ → List α → Except ε (List β)
  | _, [] => .ok []
  | i, x :: xs =>
      match g i x with
      | .error e => .error e
      | .ok y =>
          match traverseIdx g (i + 1) xs with
          | .error e => .error e
          | .ok ys => .ok (y :: ys)

@[simp] theorem traverseIdx_nil (i : ℕ) : traverseIdx g i [] = .ok [] := rfl

theorem traverseIdx_cons_ok {i : ℕ} {x : α} {xs : List α} {zs : List β} :
    traverseIdx g i (x :: xs) = .ok zs ↔
      ∃ y ys, g i x = .ok y ∧ traverseIdx g (i + 1) xs = .ok ys ∧ zs = y :: ys := by
  simp only [traverseIdx]
  cases hg : g i x with
  | error e => simp
  | ok y =>
    cases hrest : traverseIdx g (i + 1) xs with
    | error e => simp
    | ok ys => simp [eq_comm]

theorem traverseIdx_ok_iff {i : ℕ} {xs : List α} {ys : List β} :
    traverseIdx g i xs = .ok ys ↔ ys.length = xs.length ∧
      ∀ (j : ℕ) (x : α), xs[j]? = some x → ∃ y, ys[j]? = some y ∧ g (i + j) x = .ok y := by
  induction xs generalizing i ys with
  | nil => simp [eq_comm]
  | cons x xs ih =>
    rw [traverseIdx_cons_ok]
    constructor
    · rintro ⟨y, zs, hy, hzs, rfl⟩
      obtain ⟨hlen, hall⟩ := ih.1 hzs
      refine ⟨by simp [hlen], fun j x' hj => ?_⟩
      cases j with
      | zero =>
        obtain rfl : x = x' := by simpa using hj
        exact ⟨y, by simp, hy⟩
      | succ j =>
        obtain ⟨y', hy', hg⟩ := hall j x' (by simpa using hj)
        exact ⟨y', by simpa using hy', by rw [← hg]; congr 1; omega⟩
    · rintro ⟨hlen, hall⟩
      cases ys with
      | nil => simp at hlen
      | cons y ys =>
        obtain ⟨y', hy', hg⟩ := hall 0 x (by simp)
        obtain rfl : y = y' := by simpa using hy'
        refine ⟨y, ys, hg, ih.2 ⟨by simpa using hlen, fun j x' hj => ?_⟩, rfl⟩
        obtain ⟨z, hz, hgz⟩ := hall (j + 1) x' (by simpa using hj)
        exact ⟨z, by simpa using hz, by rw [← hgz]; congr 1; omega⟩

theorem traverseIdx_length {i : ℕ} {xs : List α} {ys : List β} (h : traverseIdx g i xs = .ok ys) :
    ys.length = xs.length :=
  (traverseIdx_ok_iff.1 h).1

/-- If every step succeeds, so does the run. -/
theorem exists_traverseIdx_ok {i : ℕ} {xs : List α}
    (h : ∀ (j : ℕ) (x : α), xs[j]? = some x → ∃ y, g (i + j) x = .ok y) :
    ∃ ys, traverseIdx g i xs = .ok ys := by
  induction xs generalizing i with
  | nil => exact ⟨[], rfl⟩
  | cons x xs ih =>
    obtain ⟨y, hy⟩ := h 0 x (by simp)
    obtain ⟨ys, hys⟩ := ih (i := i + 1) fun j x' hj => by
      obtain ⟨z, hz⟩ := h (j + 1) x' (by simpa using hj)
      exact ⟨z, by rw [← hz]; congr 1; omega⟩
    exact ⟨y :: ys, traverseIdx_cons_ok.2 ⟨y, ys, hy, hys, rfl⟩⟩

/-- A step that does not look at the position succeeds on a list exactly when it does on each
element. -/
theorem exists_traverseIdx_const_ok_iff {g : α → Except ε β} {i : ℕ} {xs : List α} :
    (∃ ys, traverseIdx (fun _ => g) i xs = .ok ys) ↔ ∀ x ∈ xs, ∃ y, g x = .ok y := by
  constructor
  · rintro ⟨ys, hys⟩ x hx
    obtain ⟨j, hj⟩ := List.mem_iff_getElem?.1 hx
    obtain ⟨y, _, hy⟩ := (traverseIdx_ok_iff.1 hys).2 j x hj
    exact ⟨y, hy⟩
  · exact fun h => exists_traverseIdx_ok fun j x hj => h x (List.mem_of_getElem? hj)

/-- Two steps, of which the second does what the first does and something more. -/
theorem traverseIdx_const_map {γ : Type*} {g : α → Except ε β} {g' : α → Except ε γ} {h : β → γ}
    (hstep : ∀ x y, g x = .ok y → g' x = .ok (h y)) {i : ℕ} {xs : List α} {ys : List β}
    (hys : traverseIdx (fun _ => g) i xs = .ok ys) :
    traverseIdx (fun _ => g') i xs = .ok (ys.map h) := by
  induction xs generalizing i ys with
  | nil =>
    obtain rfl := Except.ok.inj hys
    rfl
  | cons x xs ih =>
    obtain ⟨y, zs, hy, hzs, rfl⟩ := traverseIdx_cons_ok.1 hys
    exact traverseIdx_cons_ok.2 ⟨h y, zs.map h, hstep x y hy, ih hzs, rfl⟩

/-- Treating each answer afterwards. -/
theorem traverseIdx_map {ε β γ : Type} (g : α → Except ε β) (h : β → γ) (i : ℕ) (xs : List α) :
    traverseIdx (fun _ x => h <$> g x) i xs = List.map h <$> traverseIdx (fun _ => g) i xs := by
  induction xs generalizing i with
  | nil => rfl
  | cons x xs ih =>
    unfold traverseIdx
    rw [ih (i + 1)]
    cases g x with
    | error e => rfl
    | ok y => cases traverseIdx (fun _ => g) (i + 1) xs <;> rfl

theorem traverseIdx_list_map {γ : Type*} (g : α → Except ε β) (f : γ → α) (i : ℕ) (xs : List γ) :
    traverseIdx (fun _ => g) i (xs.map f) = traverseIdx (fun _ x => g (f x)) i xs := by
  induction xs generalizing i with
  | nil => rfl
  | cons x xs ih => simp only [List.map_cons, traverseIdx, ih]

theorem traverseIdx_congr {g g' : α → Except ε β} {i : ℕ} {xs : List α} (h : ∀ x ∈ xs, g x = g' x) :
    traverseIdx (fun _ => g) i xs = traverseIdx (fun _ => g') i xs := by
  induction xs generalizing i with
  | nil => rfl
  | cons x xs ih =>
    rw [List.forall_mem_cons] at h
    simp only [traverseIdx, h.1, ih h.2]

/-- The elements that have an answer, in order and with it. -/
theorem traverseIdx_reduceOption {g : α → Except ε (Option β)} {i : ℕ} {xs : List α}
    {os : List (Option β)} (h : traverseIdx (fun _ => g) i xs = .ok os) :
    ∃ ps : List (α × β), os.reduceOption = ps.map Prod.snd ∧ (ps.map Prod.fst).Sublist xs ∧
      ∀ p ∈ ps, g p.1 = .ok (some p.2) := by
  induction xs generalizing i os with
  | nil =>
    obtain rfl := Except.ok.inj h
    exact ⟨[], rfl, List.Sublist.refl _, by simp⟩
  | cons x xs ih =>
    obtain ⟨o, os, ho, hos, rfl⟩ := traverseIdx_cons_ok.1 h
    obtain ⟨ps, hps, hsublist, hanswers⟩ := ih hos
    cases o with
    | none => exact ⟨ps, hps, hsublist.cons x, hanswers⟩
    | some y =>
      refine ⟨(x, y) :: ps, ?_, hsublist.cons_cons x, List.forall_mem_cons.2 ⟨ho, hanswers⟩⟩
      rw [List.reduceOption_cons_of_some, hps]
      rfl

/-- A fold whose steps succeed or fail whatever was accumulated succeeds when they all do. -/
theorem exists_foldlM_ok_iff {step : β → α → Except ε β} {P : α → Prop}
    (h : ∀ b x, (∃ b', step b x = .ok b') ↔ P x) {xs : List α} {b : β} :
    (∃ b', xs.foldlM step b = .ok b') ↔ ∀ x ∈ xs, P x := by
  induction xs generalizing b with
  | nil => exact iff_of_true ⟨b, rfl⟩ (by simp)
  | cons x xs ih =>
    rw [List.forall_mem_cons, ← h b x, List.foldlM_cons]
    cases hstep : step b x with
    | error e => simp [bind, Except.bind]
    | ok b₁ => simpa [bind, Except.bind] using ih

theorem foldlM_flatMap {γ : Type*} {step : β → α → Except ε β} (f : γ → List α) (xs : List γ) (b : β) :
    (xs.flatMap f).foldlM step b = xs.foldlM (fun b x => (f x).foldlM step b) b := by
  induction xs generalizing b with
  | nil => rfl
  | cons x xs ih =>
    rw [List.flatMap_cons, List.foldlM_append, List.foldlM_cons]
    exact bind_congr fun b' => ih b'

theorem foldlM_congr {step step' : β → α → Except ε β} {xs : List α} {b : β}
    (h : ∀ x ∈ xs, ∀ b, step b x = step' b x) : xs.foldlM step b = xs.foldlM step' b := by
  induction xs generalizing b with
  | nil => rfl
  | cons x xs ih =>
    rw [List.forall_mem_cons] at h
    rw [List.foldlM_cons, List.foldlM_cons, h.1 b]
    exact bind_congr fun b' => ih h.2

/-- A fold that succeeds has taken a successful step for every element. -/
theorem exists_step_of_foldlM_ok {step : β → α → Except ε β} {xs : List α} {b b' : β}
    (h : xs.foldlM step b = .ok b') {x : α} (hx : x ∈ xs) : ∃ b₁ b₂, step b₁ x = .ok b₂ := by
  induction xs generalizing b with
  | nil => cases hx
  | cons x' xs ih =>
    rw [List.foldlM_cons] at h
    cases hstep : step b x' with
    | error e =>
      rw [hstep] at h
      cases h
    | ok b₁ =>
      rw [hstep] at h
      rcases List.mem_cons.1 hx with rfl | hx
      · exact ⟨b, b₁, hstep⟩
      · exact ih h hx

/-! ### Without the position -/

theorem mapM_of_forall_ok {f : α → Except ε β} {h : α → β} {xs : List α}
    (hok : ∀ x ∈ xs, f x = .ok (h x)) : xs.mapM f = .ok (xs.map h) := by
  induction xs with
  | nil => rfl
  | cons x xs ih =>
    rw [List.forall_mem_cons] at hok
    rw [List.mapM_cons, hok.1, ih hok.2]
    rfl

theorem exists_mapM_ok {f : α → Except ε β} {xs : List α} (hok : ∀ x ∈ xs, ∃ y, f x = .ok y) :
    ∃ ys, xs.mapM f = .ok ys := by
  induction xs with
  | nil => exact ⟨[], rfl⟩
  | cons x xs ih =>
    rw [List.forall_mem_cons] at hok
    obtain ⟨⟨y, hy⟩, hxs⟩ := hok
    obtain ⟨ys, hys⟩ := ih hxs
    rw [List.mapM_cons, hy, hys]
    exact ⟨y :: ys, rfl⟩

/-- Treating each answer afterwards. -/
theorem mapM_map {γ : Type*} (f : α → Except ε β) (h : β → γ) (xs : List α) :
    xs.mapM (fun x => (f x).map h) = (xs.mapM f).map (List.map h) := by
  induction xs with
  | nil => rfl
  | cons x xs ih =>
    rw [List.mapM_cons, List.mapM_cons, ih]
    cases f x with
    | error e => rfl
    | ok y => cases xs.mapM f <;> rfl

/-- Translating each error. -/
theorem mapM_mapError {ε' : Type*} (f : α → Except ε β) (h : ε → ε') (xs : List α) :
    xs.mapM (fun x => (f x).mapError h) = (xs.mapM f).mapError h := by
  induction xs with
  | nil => rfl
  | cons x xs ih =>
    rw [List.mapM_cons, List.mapM_cons, ih]
    cases f x with
    | error e => rfl
    | ok y => cases xs.mapM f <;> rfl

theorem mapM_length {f : α → Except ε β} {xs : List α} {ys : List β} (h : xs.mapM f = .ok ys) :
    ys.length = xs.length := by
  induction xs generalizing ys with
  | nil =>
    obtain rfl := Except.ok.inj h
    rfl
  | cons x xs ih =>
    rw [List.mapM_cons] at h
    cases hx : f x with
    | error e =>
      rw [hx] at h
      cases h
    | ok y =>
      cases hxs : xs.mapM f with
      | error e =>
        rw [hx, hxs] at h
        cases h
      | ok zs =>
        rw [hx, hxs] at h
        obtain rfl := Except.ok.inj h
        rw [List.length_cons, List.length_cons, ih hxs]

theorem mem_of_mapM_ok {f : α → Except ε β} {xs : List α} {ys : List β} (h : xs.mapM f = .ok ys) {y : β}
    (hy : y ∈ ys) : ∃ x ∈ xs, f x = .ok y := by
  induction xs generalizing ys with
  | nil =>
    obtain rfl := Except.ok.inj h
    cases hy
  | cons x xs ih =>
    rw [List.mapM_cons] at h
    cases hx : f x with
    | error e =>
      rw [hx] at h
      cases h
    | ok y' =>
      cases hxs : xs.mapM f with
      | error e =>
        rw [hx, hxs] at h
        cases h
      | ok zs =>
        rw [hx, hxs] at h
        obtain rfl := Except.ok.inj h
        rcases List.mem_cons.1 hy with rfl | hy
        · exact ⟨x, List.mem_cons_self, hx⟩
        · obtain ⟨x', hx', hy'⟩ := ih hxs hy
          exact ⟨x', List.mem_cons_of_mem _ hx', hy'⟩

end Traverse
