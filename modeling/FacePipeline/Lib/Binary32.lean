import FacePipeline.Lib.Descending
import Mathlib.Data.Prod.Lex
import Mathlib.Tactic.Common

/-!
# Comparing floats

The comparisons of `Float32` are those of the standard: a NaN is neither below nor above anything, itself
included. So `≤` is not total, but `<` still says that `≤` holds in one direction only, and a float below
another has a smaller `rank`. That is enough to sort by floats.
-/

namespace Binary32

open Float.Model

instance instZero : Zero Float32 :=
  ⟨0⟩

instance instOne : One Float32 :=
  ⟨1⟩

instance instIntCast : IntCast Float32 :=
  ⟨Float32.ofInt⟩

/-- Comparing the other way round. -/
theorem compare_swap (a b : UnpackedFloat) : b.compare a = (a.compare b).map Ordering.swap := by
  cases a with
  | notANumber => cases b <;> rfl
  | infinity s =>
    cases s <;> cases b with
    | infinity t => cases t <;> rfl
    | finite t => cases t <;> rfl
    | _ => rfl
  | zero s =>
    cases b with
    | infinity t => cases t <;> rfl
    | finite t => cases t <;> rfl
    | _ => rfl
  | finite s m e =>
    cases b with
    | notANumber => rfl
    | infinity t => cases s <;> cases t <;> rfl
    | zero t => cases s <;> rfl
    | finite t m' e' =>
      have hswap : ((compare e e').then (compare m m')).swap = (compare e' e).then (compare m' m) := by
        rw [Ordering.swap_then, ← Std.OrientedCmp.eq_swap, ← Std.OrientedCmp.eq_swap]
      cases s <;> cases t
      · exact congrArg some (by rw [← hswap])
      · rfl
      · rfl
      · exact congrArg some hswap.symm

/-- `<` is what `≤` says in one direction only. -/
theorem lt_iff {a b : UnpackedFloat} : a.lt b = true ↔ a.le b = true ∧ ¬b.le a = true := by
  rw [UnpackedFloat.lt, UnpackedFloat.le, UnpackedFloat.le, compare_swap a b]
  cases a.compare b with
  | none => decide
  | some o => cases o <;> decide

theorem coe_lt {a b : Float32} : a < b ↔ a.toModel.unpack.lt b.toModel.unpack = true :=
  decide_eq_true_iff

theorem coe_le {a b : Float32} : a ≤ b ↔ a.toModel.unpack.le b.toModel.unpack = true :=
  decide_eq_true_iff

instance lawfulOrderLT : Std.LawfulOrderLT Float32 where
  lt_iff a b := by
    rw [coe_lt, coe_le, coe_le]
    exact lt_iff

/-! ### Sorting -/

/-- Where a float stands: on which side of zero, with which exponent and which mantissa. -/
def rank : UnpackedFloat → ℤ ×ₗ ℤ ×ₗ ℤ
  | .notANumber => toLex (0, toLex (0, 0))
  | .infinity .negative => toLex (-2, toLex (0, 0))
  | .finite .negative m e _ => toLex (-1, toLex (-e, -m))
  | .zero _ => toLex (0, toLex (0, 0))
  | .finite .positive m e _ => toLex (1, toLex (e, m))
  | .infinity .positive => toLex (2, toLex (0, 0))

theorem lex_lt_of_then {e e' : ℤ} {m m' : ℕ} (h : (compare e e').then (compare m m') = .lt) :
    toLex (e, (m : ℤ)) < toLex (e', (m' : ℤ)) := by
  rw [Prod.Lex.toLex_lt_toLex]
  rcases Ordering.then_eq_lt.1 h with hlt | ⟨heq, hlt⟩
  · exact .inl (compare_lt_iff_lt.1 hlt)
  · exact .inr ⟨compare_eq_iff_eq.1 heq, Int.ofNat_lt.2 (compare_lt_iff_lt.1 hlt)⟩

theorem lex_neg_lt_of_then {e e' : ℤ} {m m' : ℕ} (h : ((compare e e').then (compare m m')).swap = .lt) :
    toLex (-e, -(m : ℤ)) < toLex (-e', -(m' : ℤ)) := by
  rw [Ordering.swap_then, ← Std.OrientedCmp.eq_swap, ← Std.OrientedCmp.eq_swap] at h
  rw [Prod.Lex.toLex_lt_toLex]
  rcases Prod.Lex.toLex_lt_toLex.1 (lex_lt_of_then h) with hlt | ⟨heq, hlt⟩
  · exact .inl (Int.neg_lt_neg hlt)
  · exact .inr ⟨congrArg Neg.neg heq.symm, Int.neg_lt_neg hlt⟩

theorem rank_lt_of_lt {a b : UnpackedFloat} (h : a.lt b = true) : rank a < rank b := by
  have hcompare : a.compare b = some .lt := eq_of_beq h
  cases a with
  | notANumber => cases b <;> cases hcompare
  | infinity s =>
    cases s with
    | positive => cases b with
      | infinity t => cases t <;> cases hcompare
      | _ => cases hcompare
    | negative => cases b with
      | infinity t => cases t with
        | negative => cases hcompare
        | positive => exact Prod.Lex.toLex_lt_toLex.2 (.inl (by decide))
      | finite t => cases t with
        | negative => exact Prod.Lex.toLex_lt_toLex.2 (.inl (show (-2 : ℤ) < -1 by decide))
        | positive => exact Prod.Lex.toLex_lt_toLex.2 (.inl (show (-2 : ℤ) < 1 by decide))
      | zero => exact Prod.Lex.toLex_lt_toLex.2 (.inl (by decide))
      | notANumber => cases hcompare
  | zero s =>
    cases b with
    | infinity t => cases t with
      | negative => cases hcompare
      | positive => exact Prod.Lex.toLex_lt_toLex.2 (.inl (by decide))
    | finite t => cases t with
      | negative => cases hcompare
      | positive => exact Prod.Lex.toLex_lt_toLex.2 (.inl (show (0 : ℤ) < 1 by decide))
    | _ => cases hcompare
  | finite s m e =>
    cases s with
    | negative => cases b with
      | notANumber => cases hcompare
      | infinity t => cases t with
        | negative => cases hcompare
        | positive => exact Prod.Lex.toLex_lt_toLex.2 (.inl (show (-1 : ℤ) < 2 by decide))
      | zero t => exact Prod.Lex.toLex_lt_toLex.2 (.inl (show (-1 : ℤ) < 0 by decide))
      | finite t m' e' => cases t with
        | negative => exact Prod.Lex.toLex_lt_toLex.2 (.inr ⟨rfl, lex_neg_lt_of_then (Option.some.inj hcompare)⟩)
        | positive => exact Prod.Lex.toLex_lt_toLex.2 (.inl (show (-1 : ℤ) < 1 by decide))
    | positive => cases b with
      | notANumber => cases hcompare
      | infinity t => cases t with
        | negative => cases hcompare
        | positive => exact Prod.Lex.toLex_lt_toLex.2 (.inl (show (1 : ℤ) < 2 by decide))
      | zero t => cases hcompare
      | finite t m' e' => cases t with
        | negative => cases hcompare
        | positive => exact Prod.Lex.toLex_lt_toLex.2 (.inr ⟨rfl, lex_lt_of_then (Option.some.inj hcompare)⟩)

/-- Sorting by floats. -/
def descending {α : Type*} (key : α → Float32) : DescendingSort key :=
  .byRank key (fun a => rank a.toModel.unpack) fun _ _ h => rank_lt_of_lt (coe_lt.1 h)

end Binary32
