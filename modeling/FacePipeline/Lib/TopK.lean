import Mathlib.Data.List.Sort

/-!
# Best-first selection

`IsTopK le k xs ys` says that `ys` is a best-first answer of size `k` drawn from `xs`, where `le a b`
means that `a` is at least as good as `b`. The answer is a relation and not a function: with ties
several answers are right, and nothing here depends on which one an implementation picks.
`topK` is one implementation (a stable sort and a cut), correct for every total preorder.
-/

namespace TopK

variable {α β : Type*} {le : α → α → Prop} {k : ℕ} {xs ys : List α}

/-- `ys` holds the `k` best of `xs` (all of them when there are fewer), best first. -/
structure IsTopK (le : α → α → Prop) (k : ℕ) (xs ys : List α) : Prop where
  sorted : ys.Pairwise le
  length : ys.length = min k xs.length
  dominates : ∃ rest, xs.Perm (ys ++ rest) ∧ ∀ y ∈ ys, ∀ r ∈ rest, le y r

namespace IsTopK

theorem subperm (h : IsTopK le k xs ys) : ys.Subperm xs := by
  obtain ⟨rest, hperm, _⟩ := h.dominates
  exact ((List.sublist_append_left ys rest).subperm).trans hperm.symm.subperm

theorem mem (h : IsTopK le k xs ys) {y : α} (hy : y ∈ ys) : y ∈ xs :=
  h.subperm.subset hy

/-- Asking for at least as many as there are returns everything. -/
theorem perm_of_length_le (h : IsTopK le k xs ys) (hk : xs.length ≤ k) : ys.Perm xs := by
  refine h.subperm.perm_of_length_le ?_
  rw [h.length]
  omega

/-- Only the capped size matters. -/
theorem congr_size {k' : ℕ} (h : IsTopK le k xs ys) (hk : min k xs.length = min k' xs.length) :
    IsTopK le k' xs ys :=
  ⟨h.sorted, h.length.trans hk, h.dominates⟩

/-- Relabelling the candidates by a map that keeps the order. -/
theorem map {le' : β → β → Prop} (f : α → β) (hf : ∀ a ∈ xs, ∀ b ∈ xs, le a b → le' (f a) (f b))
    (h : IsTopK le k xs ys) : IsTopK le' k (xs.map f) (ys.map f) := by
  obtain ⟨rest, hperm, hdom⟩ := h.dominates
  have hrest : ∀ r ∈ rest, r ∈ xs := fun r hr =>
    hperm.mem_iff.2 (List.mem_append_right _ hr)
  refine ⟨?_, by simp [h.length], rest.map f, ?_, ?_⟩
  · rw [List.pairwise_map]
    exact h.sorted.imp_of_mem fun ha hb hab => hf _ (h.mem ha) _ (h.mem hb) hab
  · rw [← List.map_append]
    exact hperm.map f
  · intro y hy r hr
    obtain ⟨a, ha, rfl⟩ := List.mem_map.1 hy
    obtain ⟨b, hb, rfl⟩ := List.mem_map.1 hr
    exact hf a (h.mem ha) b (hrest b hb) (hdom a ha b hb)

end IsTopK

/-! ### An implementation -/

/-- A stable sort, cut after `k` elements. -/
def topK (le : α → α → Prop) [DecidableRel le] (k : ℕ) (xs : List α) : List α :=
  (xs.insertionSort le).take k

theorem isTopK_topK (le : α → α → Prop) [DecidableRel le] [Std.Total le] [IsTrans α le] (k : ℕ) (xs : List α) :
    IsTopK le k xs (topK le k xs) := by
  have hsorted := List.pairwise_insertionSort le xs
  have hsplit := List.take_append_drop k (xs.insertionSort le)
  refine ⟨hsorted.sublist (List.take_sublist _ _), by simp [topK], (xs.insertionSort le).drop k, ?_, ?_⟩
  · rw [topK, hsplit]
    exact (List.perm_insertionSort le xs).symm
  · rw [← hsplit, List.pairwise_append] at hsorted
    exact hsorted.2.2

end TopK
