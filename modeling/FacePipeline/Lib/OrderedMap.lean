import Mathlib.Data.List.Sort
import Mathlib.Data.List.Nodup

/-!
# Ordered maps

A map is the list of its entries in increasing order of the keys. `alter` is the update behind
`m[k] = …` and `auto& x = m[k]`; `find?_alter` says all that an update does, and two maps with the same
lookups are equal (`ext_find?`).
-/

@[ext]
structure OrderedMap (κ β : Type) [LT κ] where
  entries : List (κ × β)
  increasing : entries.Pairwise fun a b => a.1 < b.1

namespace OrderedMap

variable {κ β : Type} [LinearOrder κ]

instance [DecidableEq β] : DecidableEq (OrderedMap κ β) := fun m m' =>
  decidable_of_iff (m.entries = m'.entries) OrderedMap.ext_iff.symm

def empty : OrderedMap κ β := ⟨[], List.Pairwise.nil⟩

def find? (m : OrderedMap κ β) (k : κ) : Option β :=
  m.entries.lookup k

/-- Put `f` of the old value, if there is one, at `k`. -/
def alterEntries (k : κ) (f : Option β → β) : List (κ × β) → List (κ × β)
  | [] => [(k, f none)]
  | (k', b) :: rest =>
      if k < k' then (k, f none) :: (k', b) :: rest
      else if k = k' then (k, f (some b)) :: rest
      else (k', b) :: alterEntries k f rest

theorem fst_mem_alterEntries {k : κ} {f : Option β → β} {entries : List (κ × β)} {p : κ × β}
    (h : p ∈ alterEntries k f entries) : p.1 = k ∨ ∃ q ∈ entries, q.1 = p.1 := by
  induction entries with
  | nil => exact Or.inl (by rw [List.mem_singleton.1 h])
  | cons q rest ih =>
    rw [alterEntries] at h
    split_ifs at h with hlt heq
    · rcases List.mem_cons.1 h with rfl | h
      · exact Or.inl rfl
      · exact Or.inr ⟨p, h, rfl⟩
    · rcases List.mem_cons.1 h with rfl | h
      · exact Or.inl rfl
      · exact Or.inr ⟨p, List.mem_cons_of_mem _ h, rfl⟩
    · rcases List.mem_cons.1 h with rfl | h
      · exact Or.inr ⟨_, List.mem_cons_self, rfl⟩
      · exact (ih h).imp_right fun ⟨q', hq', hfst⟩ => ⟨q', List.mem_cons_of_mem _ hq', hfst⟩

theorem alterEntries_increasing {k : κ} {f : Option β → β} {entries : List (κ × β)}
    (h : entries.Pairwise fun a b => a.1 < b.1) :
    (alterEntries k f entries).Pairwise fun a b => a.1 < b.1 := by
  induction entries with
  | nil => exact List.pairwise_singleton _ _
  | cons q rest ih =>
    rw [List.pairwise_cons] at h
    rw [alterEntries]
    split_ifs with hlt heq
    · rw [List.pairwise_cons, List.pairwise_cons, List.forall_mem_cons]
      exact ⟨⟨hlt, fun p hp => hlt.trans (h.1 p hp)⟩, h⟩
    · subst heq
      exact List.pairwise_cons.2 h
    · refine List.pairwise_cons.2 ⟨fun p hp => ?_, ih h.2⟩
      rcases fst_mem_alterEntries hp with hfst | ⟨q', hq', hfst⟩
      · rw [hfst]
        exact lt_of_le_of_ne (not_lt.1 hlt) (Ne.symm heq)
      · rw [← hfst]
        exact h.1 q' hq'

def alter (m : OrderedMap κ β) (k : κ) (f : Option β → β) : OrderedMap κ β :=
  ⟨alterEntries k f m.entries, alterEntries_increasing m.increasing⟩

@[simp] theorem find?_empty (k : κ) : (empty : OrderedMap κ β).find? k = none := rfl

theorem lookup_cons (k : κ) (q : κ × β) (rest : List (κ × β)) :
    (q :: rest).lookup k = if k = q.1 then some q.2 else rest.lookup k := by
  obtain ⟨k', b⟩ := q
  rw [List.lookup_cons]
  by_cases h : k = k'
  · simp [h]
  · simp [beq_false_of_ne h, h]

theorem lookup_eq_none {k : κ} {entries : List (κ × β)} (h : ∀ p ∈ entries, k < p.1) :
    entries.lookup k = none := by
  rw [List.lookup_eq_none_iff]
  intro p hp
  simpa using (h p hp).ne

/-- What an update does. -/
theorem find?_alter (m : OrderedMap κ β) (k k' : κ) (f : Option β → β) :
    (m.alter k f).find? k' = if k' = k then some (f (m.find? k)) else m.find? k' := by
  obtain ⟨entries, h⟩ := m
  show (alterEntries k f entries).lookup k' = if k' = k then some (f (entries.lookup k))
    else entries.lookup k'
  induction entries with
  | nil => rw [alterEntries, lookup_cons, List.lookup_nil, List.lookup_nil]
  | cons q rest ih =>
    rw [List.pairwise_cons] at h
    rw [alterEntries]
    by_cases hlt : k < q.1
    · have hnone : (q :: rest).lookup k = none :=
        lookup_eq_none (List.forall_mem_cons.2 ⟨hlt, fun p hp => hlt.trans (h.1 p hp)⟩)
      rw [if_pos hlt, lookup_cons, hnone]
    · rw [if_neg hlt]
      by_cases heq : k = q.1
      · subst heq
        rw [if_pos rfl, lookup_cons, lookup_cons, lookup_cons, if_pos rfl]
        split_ifs <;> rfl
      · rw [if_neg heq, lookup_cons, ih h.2, lookup_cons, lookup_cons, if_neg heq]
        split_ifs with hk hk'
        · exact absurd (hk'.symm.trans hk) heq
        · rfl
        · rfl
        · rfl

theorem mem_entries {m : OrderedMap κ β} {k : κ} {b : β} :
    (k, b) ∈ m.entries ↔ m.find? k = some b := by
  obtain ⟨entries, h⟩ := m
  show (k, b) ∈ entries ↔ entries.lookup k = some b
  induction entries with
  | nil => simp
  | cons q rest ih =>
    rw [List.pairwise_cons] at h
    rw [List.mem_cons, lookup_cons, ih h.2]
    split_ifs with hk
    · have hnone : rest.lookup k = none := lookup_eq_none (hk ▸ h.1)
      rw [hnone, Option.some.injEq, Prod.ext_iff]
      simp [hk, eq_comm]
    · refine or_iff_right fun heq => hk ?_
      rw [← heq]

/-- Two maps with the same lookups are equal. -/
theorem ext_find? {m m' : OrderedMap κ β} (h : ∀ k, m.find? k = m'.find? k) : m = m' := by
  have hmem : ∀ p, p ∈ m.entries ↔ p ∈ m'.entries := fun p => by
    rw [mem_entries (k := p.1) (b := p.2), mem_entries (k := p.1) (b := p.2), h]
  have hnodup : ∀ m : OrderedMap κ β, m.entries.Nodup := fun m =>
    m.increasing.imp fun hlt heq => hlt.ne (congrArg Prod.fst heq)
  have hperm := (List.perm_ext_iff_of_nodup (hnodup m) (hnodup m')).2 hmem
  have heq : m.entries = m'.entries :=
    hperm.eq_of_pairwise (fun _ _ _ _ hlt hgt => absurd hlt hgt.asymm) m.increasing m'.increasing
  exact OrderedMap.ext heq

end OrderedMap
