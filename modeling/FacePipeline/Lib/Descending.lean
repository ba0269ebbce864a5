import Mathlib.Data.List.Sort

/-!
# Sorting by a key

A `DescendingSort` is any function that sorts by a key, greatest first; it may leave elements of equal keys
in any order. All it needs of the keys is that `<` agrees with some linear order of them (`byRank`). Where
they are linearly ordered and distinct there is only one result, so that sorting commutes with dropping the
elements below a bound (`sort_filter`), and these are the last ones (`sort_split`).
-/

/-- Sorting by `key`, greatest first. -/
structure DescendingSort {α K : Type*} [LT K] (key : α → K) where
  sort : List α → List α
  perm : ∀ xs, (sort xs).Perm xs
  sorted : ∀ xs, (sort xs).Pairwise fun a b => ¬key a < key b

namespace DescendingSort

variable {α K : Type*}

/-- What has a property comes first, in a list where nothing without it stands before anything with it. -/
theorem eq_filter_append {p : α → Bool} {xs : List α} (h : xs.Pairwise fun a b => p b = true → p a = true) :
    xs = xs.filter p ++ xs.filter fun a => !p a := by
  induction xs with
  | nil => rfl
  | cons x xs ih =>
    rw [List.pairwise_cons] at h
    cases hx : p x with
    | true =>
      rw [List.filter_cons_of_pos hx, List.filter_cons_of_neg (by simp [hx]), List.cons_append]
      exact congrArg (x :: ·) (ih h.2)
    | false =>
      have hnone : ∀ a ∈ xs, p a = false := fun a ha => by
        by_contra hpa
        rw [h.1 a ha (by simpa using hpa)] at hx
        cases hx
      rw [List.filter_cons_of_neg (by simp [hx]), List.filter_cons_of_pos (by simp [hx]),
        List.filter_eq_nil_iff.2 fun a ha => by simp [hnone a ha],
        List.filter_eq_self.2 fun a ha => by simp [hnone a ha], List.nil_append]

theorem insertionSort_sorted [LinearOrder K] (key : α → K) (xs : List α) :
    (xs.insertionSort fun a b => key b ≤ key a).Pairwise fun a b => key b ≤ key a := by
  have : Std.Total fun a b => key b ≤ key a := ⟨fun a b => le_total (key b) (key a)⟩
  have : IsTrans α fun a b => key b ≤ key a := ⟨fun a b c hba hcb => hcb.trans hba⟩
  exact List.pairwise_insertionSort _ xs

/-- Insertion sort by the rank of the keys. -/
def byRank [LT K] {L : Type*} [LinearOrder L] (key : α → K) (rank : K → L)
    (hrank : ∀ a b, a < b → rank a < rank b) : DescendingSort key where
  sort := List.insertionSort fun a b => rank (key b) ≤ rank (key a)
  perm := List.perm_insertionSort _
  sorted xs := (insertionSort_sorted (fun a => rank (key a)) xs).imp fun hle hlt =>
    hle.not_gt (hrank _ _ hlt)

variable [LinearOrder K]

/-- Insertion sort. -/
def insertion (key : α → K) : DescendingSort key :=
  byRank key id fun _ _ h => h

/-- It looks at the keys only. -/
theorem insertion_map {β : Type*} (key : α → K) (f : β → α) (xs : List β) :
    (insertion key).sort (xs.map f) = ((insertion fun b => key (f b)).sort xs).map f :=
  (List.map_insertionSort _ _ f xs fun _ _ _ _ => Iff.rfl).symm

variable {key : α → K}

theorem descending (s : DescendingSort key) (xs : List α) :
    (s.sort xs).Pairwise fun a b => key b ≤ key a :=
  (s.sorted xs).imp not_lt.1

/-- Distinct keys leave no choice. -/
theorem eq_of_perm {xs ys : List α} (hxs : xs.Pairwise fun a b => key b ≤ key a)
    (hys : ys.Pairwise fun a b => key b ≤ key a) (hperm : xs.Perm ys) (hdistinct : (xs.map key).Nodup) :
    xs = ys := by
  have hinj := List.inj_on_of_nodup_map hdistinct
  refine hperm.eq_of_pairwise (fun a b ha hb hab hba => ?_) hxs hys
  exact hinj ha (hperm.mem_iff.2 hb) (le_antisymm hba hab)

/-- Every sort gives the same result, in whatever order the elements come. -/
theorem sort_eq_of_perm (s₁ s₂ : DescendingSort key) {xs ys : List α} (hperm : xs.Perm ys)
    (hdistinct : (xs.map key).Nodup) : s₁.sort xs = s₂.sort ys := by
  refine eq_of_perm (s₁.descending xs) (s₂.descending ys) ?_ ?_
  · exact (s₁.perm xs).trans (hperm.trans (s₂.perm ys).symm)
  · exact (((s₁.perm xs).map key).nodup_iff).2 hdistinct

/-- What is sorted stays as it is. -/
theorem sort_of_sorted (s : DescendingSort key) {xs : List α} (hsorted : xs.Pairwise fun a b => key b ≤ key a)
    (hdistinct : (xs.map key).Nodup) : s.sort xs = xs :=
  (eq_of_perm hsorted (s.descending xs) (s.perm xs).symm hdistinct).symm

theorem sort_filter (s : DescendingSort key) {xs : List α} (hdistinct : (xs.map key).Nodup) (p : α → Bool) :
    s.sort (xs.filter p) = (s.sort xs).filter p := by
  refine eq_of_perm (s.descending _) ((s.descending xs).filter p) ((s.perm _).trans ((s.perm xs).symm.filter p)) ?_
  exact (((s.perm _).map key).nodup_iff).2 (hdistinct.sublist (List.filter_sublist.map key))

/-- The elements from a bound on come first. -/
theorem sort_split (s : DescendingSort key) (xs : List α) (t : K) :
    ∃ post, s.sort xs = (s.sort xs).filter (fun a => t ≤ key a) ++ post ∧ ∀ a ∈ post, key a < t := by
  refine ⟨(s.sort xs).filter fun a => !decide (t ≤ key a), eq_filter_append ?_, fun a ha => ?_⟩
  · refine (s.descending xs).imp fun hle hb => ?_
    rw [decide_eq_true_iff] at hb ⊢
    exact hb.trans hle
  · simpa using (List.mem_filter.1 ha).2

end DescendingSort
