import Mathlib.Data.List.Perm.Basic
import Mathlib.Data.List.Sublists

/-!
# Greedy selection

`keep r xs` walks `xs` and keeps an element unless one that was kept before is related to it. What was
walked over before only matters through what was kept of it (`keepFrom_append`): the selection from a list
starts with the selection from each of its prefixes.
-/

namespace Greedy

variable {α : Type*} (r : α → α → Prop) [DecidableRel r]

/-- The elements kept of a list, when `kept` was kept before. -/
def keepFrom (kept : List α) : List α → List α
  | [] => []
  | x :: xs => if ∃ k ∈ kept, r k x then keepFrom kept xs else x :: keepFrom (kept ++ [x]) xs

def keep (xs : List α) : List α :=
  keepFrom r [] xs

variable {r} {kept xs ys : List α}

theorem keepFrom_append : keepFrom r kept (xs ++ ys) =
    keepFrom r kept xs ++ keepFrom r (kept ++ keepFrom r kept xs) ys := by
  induction xs generalizing kept with
  | nil => simp [keepFrom]
  | cons x xs ih =>
    rw [List.cons_append, keepFrom, keepFrom]
    split_ifs with hx
    · exact ih
    · rw [ih, List.cons_append, List.append_assoc, List.singleton_append]

theorem keep_append : keep r (xs ++ ys) = keep r xs ++ keepFrom r (keep r xs) ys :=
  keepFrom_append

theorem keepFrom_sublist : (keepFrom r kept xs).Sublist xs := by
  induction xs generalizing kept with
  | nil => exact List.Sublist.refl _
  | cons x xs ih =>
    rw [keepFrom]
    split_ifs with hx
    · exact ih.cons x
    · exact ih.cons_cons x

theorem keep_sublist : (keep r xs).Sublist xs :=
  keepFrom_sublist

/-- Nothing kept is related to something kept before it. -/
theorem keepFrom_pairwise (h : kept.Pairwise fun a b => ¬r a b) :
    (kept ++ keepFrom r kept xs).Pairwise fun a b => ¬r a b := by
  induction xs generalizing kept with
  | nil => simpa [keepFrom] using h
  | cons x xs ih =>
    rw [keepFrom]
    split_ifs with hx
    · exact ih h
    · rw [← List.singleton_append, ← List.append_assoc]
      refine ih (List.pairwise_append.2 ⟨h, List.pairwise_singleton _ _, fun k hk y hy hr => hx ?_⟩)
      exact ⟨k, hk, List.mem_singleton.1 hy ▸ hr⟩

theorem keep_pairwise : (keep r xs).Pairwise fun a b => ¬r a b :=
  keepFrom_pairwise List.Pairwise.nil

/-- Where no element is related to a later one, all are kept. -/
theorem keepFrom_of_pairwise (h : (kept ++ xs).Pairwise fun a b => ¬r a b) : keepFrom r kept xs = xs := by
  induction xs generalizing kept with
  | nil => rfl
  | cons x xs ih =>
    have hx : ¬∃ k ∈ kept, r k x := by
      rintro ⟨k, hk, hr⟩
      exact (List.pairwise_append.1 h).2.2 k hk x List.mem_cons_self hr
    rw [keepFrom, if_neg hx, ih (by rwa [List.append_assoc, List.singleton_append])]

theorem keep_of_pairwise (h : xs.Pairwise fun a b => ¬r a b) : keep r xs = xs :=
  keepFrom_of_pairwise h

/-- One more element. -/
theorem keep_concat (xs : List α) (x : α) :
    keep r (xs ++ [x]) = if ∃ k ∈ keep r xs, r k x then keep r xs else keep r xs ++ [x] := by
  rw [keep_append, keepFrom]
  split_ifs <;> simp [keepFrom]

/-- **Every element is kept in its place, or related to one that was kept before it.** -/
theorem keep_covering (xs : List α) (x : α) (ys : List α) :
    (∃ zs, keep r (xs ++ x :: ys) = keep r xs ++ x :: zs ∧ zs.Sublist ys) ∨
      ∃ k ∈ keep r (xs ++ x :: ys), k ∈ xs ∧ r k x := by
  rw [keep_append, keepFrom]
  split_ifs with hx
  · obtain ⟨k, hk, hr⟩ := hx
    exact .inr ⟨k, List.mem_append_left _ hk, keep_sublist.subset hk, hr⟩
  · exact .inl ⟨_, rfl, keepFrom_sublist⟩

/-- What nothing is related to is kept. -/
theorem filter_keepFrom {p : α → Bool} (h : ∀ x ∈ kept ++ xs, ∀ y ∈ xs, p y = true → ¬r x y) :
    (keepFrom r kept xs).filter p = xs.filter p := by
  induction xs generalizing kept with
  | nil => rfl
  | cons x xs ih =>
    rw [keepFrom]
    split_ifs with hx
    · obtain ⟨k, hk, hr⟩ := hx
      have hpx : ¬p x = true := fun hpx => h k (by simp [hk]) x List.mem_cons_self hpx hr
      rw [List.filter_cons_of_neg hpx]
      exact ih fun a ha y hy => h a (by grind) y (List.mem_cons_of_mem _ hy)
    · have hrest : ((keepFrom r (kept ++ [x]) xs)).filter p = xs.filter p :=
        ih fun a ha y hy => h a (by simpa using ha) y (List.mem_cons_of_mem _ hy)
      rw [List.filter_cons, List.filter_cons, hrest]

theorem filter_keep {p : α → Bool} (h : ∀ x ∈ xs, ∀ y ∈ xs, p y = true → ¬r x y) :
    (keep r xs).filter p = xs.filter p :=
  filter_keepFrom h

/-- Selection from a list of images, by a relation on what they are images of. -/
theorem keepFrom_map {β : Type*} {q : β → β → Prop} [DecidableRel q] {f : β → α}
    (h : ∀ a b, r (f a) (f b) ↔ q a b) (kept xs : List β) :
    keepFrom r (kept.map f) (xs.map f) = (keepFrom q kept xs).map f := by
  induction xs generalizing kept with
  | nil => rfl
  | cons x xs ih =>
    have hrelated : (∃ k ∈ kept.map f, r k (f x)) ↔ ∃ k ∈ kept, q k x := by
      simp only [List.mem_map, exists_exists_and_eq_and, h]
    rw [List.map_cons, keepFrom, keepFrom]
    by_cases hx : ∃ k ∈ kept, q k x
    · rw [if_pos (hrelated.2 hx), if_pos hx]
      exact ih kept
    · have hkept : kept.map f ++ [f x] = (kept ++ [x]).map f := by rw [List.map_append, List.map_singleton]
      rw [if_neg (mt hrelated.1 hx), if_neg hx, List.map_cons, hkept, ih]

theorem keep_map {β : Type*} {q : β → β → Prop} [DecidableRel q] {f : β → α}
    (h : ∀ a b, r (f a) (f b) ↔ q a b) (xs : List β) : keep r (xs.map f) = (keep q xs).map f :=
  keepFrom_map h [] xs

/-- What is left of the selection when only the elements of a prefix are asked for. -/
theorem filter_keep_append {p : α → Bool} (hxs : ∀ x ∈ xs, p x = true) (hys : ∀ y ∈ ys, p y = false) :
    (keep r (xs ++ ys)).filter p = keep r xs := by
  have hrest : (keepFrom r (keep r xs) ys).filter p = [] := by
    rw [List.filter_eq_nil_iff]
    intro y hy
    rw [hys y (keepFrom_sublist.subset hy)]
    decide
  have hkept : (keep r xs).filter p = keep r xs :=
    List.filter_eq_self.2 fun x hx => hxs x (keep_sublist.subset hx)
  rw [keep_append, List.filter_append, hrest, hkept, List.append_nil]

end Greedy
