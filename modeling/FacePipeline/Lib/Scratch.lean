import Mathlib.Data.List.Induction

/-!
# Scratch buffers

A scratch buffer is a list that is overwritten in place. `overlay off row buf` is `buf` with `row` from
offset `off` on; single writes that hit every position of that region, in any order and any number of
times, are such an overlay (`setAll_eq_overlay`), and overlays side by side are one (`overlay_overlay`).
`slice n i xs` is the `i`-th row of `n` elements, which is how a buffer of rows is read back
(`slice_flatten`).
-/

namespace Scratch

variable {α : Type*}

/-- Single writes, one after the other. -/
def setAll (buf : List α) (ws : List (ℕ × α)) : List α :=
  ws.foldl (fun buf w => buf.set w.1 w.2) buf

def overlay (off : ℕ) (row buf : List α) : List α :=
  buf.take off ++ row ++ buf.drop (off + row.length)

/-- The `i`-th row of `n` elements. -/
def slice (n i : ℕ) (xs : List α) : List α :=
  (xs.drop (i * n)).take n

@[simp] theorem length_setAll (buf : List α) (ws : List (ℕ × α)) :
    (setAll buf ws).length = buf.length := by
  induction ws generalizing buf with
  | nil => rfl
  | cons w ws ih =>
    show (setAll (buf.set w.1 w.2) ws).length = _
    rw [ih, List.length_set]

theorem setAll_append (buf : List α) (ws ws' : List (ℕ × α)) :
    setAll buf (ws ++ ws') = setAll (setAll buf ws) ws' :=
  List.foldl_append

theorem length_overlay {off : ℕ} {row buf : List α} (h : off + row.length ≤ buf.length) :
    (overlay off row buf).length = buf.length := by
  simp only [overlay, List.length_append, List.length_take, List.length_drop]
  omega

theorem getElem?_overlay {off : ℕ} {row buf : List α} (h : off + row.length ≤ buf.length) (j : ℕ) :
    (overlay off row buf)[j]? =
      if off ≤ j ∧ j < off + row.length then row[j - off]? else buf[j]? := by
  have hoff : (buf.take off).length = off := by
    rw [List.length_take]
    omega
  rw [overlay, List.append_assoc]
  by_cases hlow : j < off
  · rw [if_neg (by omega), List.getElem?_append_left (by omega), List.getElem?_take_of_lt hlow]
  · rw [List.getElem?_append_right (by omega), hoff]
    by_cases hhigh : j < off + row.length
    · rw [if_pos ⟨by omega, hhigh⟩, List.getElem?_append_left (by omega)]
    · rw [if_neg (by omega), List.getElem?_append_right (by omega), List.getElem?_drop]
      congr 1
      omega

/-- A position holds what was written there, if every write to it has written the same. -/
theorem getElem?_setAll {buf : List α} {ws : List (ℕ × α)} {j : ℕ} {x : α} (hj : j < buf.length)
    (hvalue : ∀ w ∈ ws, w.1 = j → w.2 = x) :
    (setAll buf ws)[j]? = if ∃ w ∈ ws, w.1 = j then some x else buf[j]? := by
  induction ws using List.reverseRecOn with
  | nil => simp [setAll]
  | append_singleton ws w ih =>
    have ih := ih fun w' hw' => hvalue w' (List.mem_append_left _ hw')
    have hlast : (setAll buf (ws ++ [w]))[j]? = ((setAll buf ws).set w.1 w.2)[j]? := by
      rw [setAll_append]
      rfl
    rw [hlast, List.getElem?_set]
    by_cases hw : w.1 = j
    · have hmem : w ∈ ws ++ [w] := List.mem_append_right _ (List.mem_singleton_self w)
      rw [if_pos hw, if_pos (by rw [length_setAll, hw]; exact hj), hvalue w hmem hw,
        if_pos ⟨w, hmem, hw⟩]
    · have hold : (∃ w' ∈ ws ++ [w], w'.1 = j) ↔ ∃ w' ∈ ws, w'.1 = j := by
        constructor
        · rintro ⟨w', hw', hw'j⟩
          rcases List.mem_append.1 hw' with hmem | hmem
          · exact ⟨w', hmem, hw'j⟩
          · exact absurd (List.mem_singleton.1 hmem ▸ hw'j) hw
        · rintro ⟨w', hw', hw'j⟩
          exact ⟨w', List.mem_append_left _ hw', hw'j⟩
      rw [if_neg hw, ih]
      simp only [hold]

/-- Writes that cover a region with one row are an overlay. -/
theorem setAll_eq_overlay {off : ℕ} {row buf : List α} {ws : List (ℕ × α)}
    (hfit : off + row.length ≤ buf.length)
    (hvalue : ∀ w ∈ ws, off ≤ w.1 ∧ row[w.1 - off]? = some w.2)
    (hcover : ∀ k < row.length, ∃ w ∈ ws, w.1 = off + k) :
    setAll buf ws = overlay off row buf := by
  refine List.ext_getElem? fun j => ?_
  by_cases hj : j < buf.length
  · rw [getElem?_overlay hfit]
    by_cases hregion : off ≤ j ∧ j < off + row.length
    · obtain ⟨w, hw, hwj⟩ := hcover (j - off) (by omega)
      have hwrites : ∀ w' ∈ ws, w'.1 = j → w'.2 = w.2 := fun w' hw' hw'j => by
        have h := (hvalue w hw).2
        have h' := (hvalue w' hw').2
        rw [hwj] at h
        rw [hw'j] at h'
        rw [show off + (j - off) - off = j - off by omega, h'] at h
        exact Option.some.inj h
      rw [getElem?_setAll hj hwrites, if_pos ⟨w, hw, by omega⟩, if_pos hregion, ← (hvalue w hw).2]
      congr 1
      omega
    · have hnone : ∀ w ∈ ws, w.1 ≠ j := fun w hw hwj => by
        have hlt : w.1 - off < row.length := (List.getElem?_eq_some_iff.1 (hvalue w hw).2).1
        have hge := (hvalue w hw).1
        omega
      rw [if_neg hregion, getElem?_setAll (x := buf[j]) hj fun w hw hwj => absurd hwj (hnone w hw),
        if_neg]
      rintro ⟨w, hw, hwj⟩
      exact hnone w hw hwj
  · rw [List.getElem?_eq_none (by rw [length_setAll]; omega),
      List.getElem?_eq_none (by rw [length_overlay hfit]; omega)]

/-- Two rows side by side. -/
theorem overlay_overlay {off : ℕ} {row row' buf : List α} (hfit : off + row.length ≤ buf.length) :
    overlay (off + row.length) row' (overlay off row buf) = overlay off (row ++ row') buf := by
  have hoff : (buf.take off ++ row).length = off + row.length := by
    rw [List.length_append, List.length_take]
    omega
  have htake : (overlay off row buf).take (off + row.length) = buf.take off ++ row := by
    rw [overlay, List.take_left' hoff]
  have hdrop : (overlay off row buf).drop (off + row.length + row'.length) =
      buf.drop (off + (row ++ row').length) := by
    rw [overlay, ← List.drop_drop, List.drop_left' hoff, List.drop_drop, List.length_append,
      Nat.add_assoc]
  rw [overlay, htake, hdrop, overlay, List.append_assoc (buf.take off)]

@[simp] theorem overlay_nil (off : ℕ) (buf : List α) : overlay off [] buf = buf := by
  simp [overlay]

@[simp] theorem overlay_zero (row buf : List α) : overlay 0 row buf = row ++ buf.drop row.length := by
  simp [overlay]

/-- The rows before a cut do not see it. -/
theorem slice_take {n i b : ℕ} (hi : i < b) (xs : List α) : slice n i (xs.take (b * n)) = slice n i xs := by
  have hrow : i * n + n ≤ b * n := by
    rw [← Nat.succ_mul]
    exact Nat.mul_le_mul_right _ hi
  rw [slice, slice, List.drop_take, List.take_take, Nat.min_eq_left (by omega)]

/-- Reading back the rows of a buffer. -/
theorem slice_flatten {n i : ℕ} {rows : List (List α)} {row rest : List α}
    (hlen : ∀ r ∈ rows, r.length = n) (hrow : rows[i]? = some row) :
    slice n i (rows.flatten ++ rest) = row := by
  induction rows generalizing i with
  | nil => simp at hrow
  | cons r rows ih =>
    rw [List.forall_mem_cons] at hlen
    rw [List.flatten_cons, List.append_assoc]
    cases i with
    | zero =>
      obtain rfl : r = row := by simpa using hrow
      rw [slice, Nat.zero_mul, List.drop_zero, List.take_left' hlen.1]
    | succ i =>
      rw [slice, Nat.succ_mul, Nat.add_comm, ← List.drop_drop, List.drop_left' hlen.1]
      exact ih hlen.2 (by simpa using hrow)

theorem map_slices {β : Type*} {n : ℕ} {rows : List (List α)} (rest : List α) (f : List α → β)
    (hlen : ∀ r ∈ rows, r.length = n) :
    (List.range rows.length).map (fun i => f (slice n i (rows.flatten ++ rest))) = rows.map f := by
  refine List.ext_getElem (by simp) fun i hi _ => ?_
  have hi' : i < rows.length := by simpa using hi
  rw [List.getElem_map, List.getElem_map, List.getElem_range,
    slice_flatten hlen (List.getElem?_eq_getElem hi')]

theorem length_flatten_rows {n : ℕ} {rows : List (List α)} (hlen : ∀ r ∈ rows, r.length = n) :
    rows.flatten.length = rows.length * n := by
  rw [List.length_flatten, List.map_congr_left hlen, List.map_const', List.sum_replicate_nat]

end Scratch
