import Mathlib.Data.List.AList

/-!
# Maps in which the first value of a key stays

`emplace` leaves a key that is there alone. A map that is filled by it from a list has, under each key, the
first element of the list with that key (`lookup_collect`).
-/

namespace FirstWins

variable {κ α : Type*} [DecidableEq κ]

/-- `std::unordered_map::emplace` -/
def emplace (m : AList fun _ : κ => α) (k : κ) (a : α) : AList fun _ : κ => α :=
  if k ∈ m then m else m.insert k a

/-- The map of a loop that emplaces each element under its key. -/
def collect (key : α → κ) (xs : List α) : AList fun _ : κ => α :=
  xs.foldl (fun m a => emplace m (key a) a) ∅

theorem lookup_emplace (m : AList fun _ : κ => α) (k k' : κ) (a : α) :
    (emplace m k a).lookup k' = (m.lookup k').or (if k = k' then some a else none) := by
  rw [emplace]
  by_cases hmem : k ∈ m
  · rw [if_pos hmem]
    by_cases hk : k = k'
    · subst hk
      obtain ⟨b, hb⟩ := Option.isSome_iff_exists.1 (AList.lookup_isSome.2 hmem)
      rw [hb, Option.some_or]
    · rw [if_neg hk, Option.or_none]
  · rw [if_neg hmem]
    by_cases hk : k = k'
    · subst hk
      rw [AList.lookup_insert, AList.lookup_eq_none.2 hmem, if_pos rfl, Option.none_or]
    · rw [AList.lookup_insert_ne (Ne.symm hk), if_neg hk, Option.or_none]

theorem lookup_foldl (key : α → κ) (xs : List α) (m : AList fun _ : κ => α) (k : κ) :
    (xs.foldl (fun m a => emplace m (key a) a) m).lookup k = (m.lookup k).or (xs.find? (key · = k)) := by
  induction xs generalizing m with
  | nil => simp
  | cons x xs ih =>
    rw [List.foldl_cons, ih, lookup_emplace, Option.or_assoc, List.find?_cons]
    by_cases hk : key x = k
    · simp [hk]
    · simp [hk]

theorem lookup_collect (key : α → κ) (xs : List α) (k : κ) :
    (collect key xs).lookup k = xs.find? (key · = k) := by
  rw [collect, lookup_foldl, AList.lookup_empty, Option.none_or]

/-- Every element is the one under its key exactly when no two elements share a key. -/
theorem forall_lookup_collect_iff {key : α → κ} {xs : List α} :
    (∀ a ∈ xs, (collect key xs).lookup (key a) = some a) ↔ ∀ a ∈ xs, ∀ b ∈ xs, key a = key b → a = b := by
  constructor
  · intro h a ha b hb hkey
    have hfirst := h a ha
    rw [hkey, h b hb] at hfirst
    exact (Option.some.inj hfirst).symm
  · intro h a ha
    rw [lookup_collect]
    cases hfind : xs.find? (key · = key a) with
    | none => exact absurd (decide_eq_true rfl) (List.find?_eq_none.1 hfind a ha)
    | some b =>
      have hb : key b = key a := by simpa using List.find?_some hfind
      rw [h b (List.mem_of_find?_eq_some hfind) a ha hb]

end FirstWins
