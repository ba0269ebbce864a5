import FacePipeline.Basic
import Mathlib.Algebra.Order.Group.Defs

/-!
# The margin rule

A probe resolves to its best candidate when the best similarity clears the threshold and leads the
runner-up by the minimum margin. A lone candidate has no runner-up, so its own similarity stands in
for the margin.
-/

namespace FacePipeline.Pipeline

section Decision
variable {F : Type} [Sub F]

/-- Margin between the best and the second-best similarity. -/
def computeMargin (top1Sim : F) : Option F → F
  | some top2Sim => top1Sim - top2Sim
  | none => top1Sim

variable [LE F] [DecidableLE F]

/-- Whether the probe resolves to the top-1 identity. -/
def matchDecision (top1Sim : F) (top2Sim : Option F) (threshold marginMin : F) : Bool :=
  decide (threshold ≤ top1Sim) && decide (marginMin ≤ computeMargin top1Sim top2Sim)

/-- The overload for a ranked list of similarities, highest first. -/
def matchDecisionRanked (rankedSimilarities : List F) (threshold marginMin : F) : Bool :=
  match rankedSimilarities with
  | [] => false
  | top :: rest => matchDecision top rest.head? threshold marginMin

@[simp] theorem matchDecision_eq_true {top1Sim threshold marginMin : F} {top2Sim : Option F} :
    matchDecision top1Sim top2Sim threshold marginMin = true ↔
      threshold ≤ top1Sim ∧ marginMin ≤ computeMargin top1Sim top2Sim := by
  simp [matchDecision]

end Decision

section Order
variable {F : Type} [AddCommGroup F] [LinearOrder F] [IsOrderedAddMonoid F]

/-- A weaker runner-up leaves a larger margin. -/
theorem computeMargin_anti {top1Sim a b : F} (h : a ≤ b) :
    computeMargin top1Sim (some b) ≤ computeMargin top1Sim (some a) :=
  sub_le_sub_left h top1Sim

/-- A weaker runner-up keeps a match. -/
theorem matchDecision_mono {top1Sim threshold marginMin a b : F} (h : a ≤ b)
    (hmatch : matchDecision top1Sim (some b) threshold marginMin = true) :
    matchDecision top1Sim (some a) threshold marginMin = true := by
  rw [matchDecision_eq_true] at hmatch ⊢
  exact ⟨hmatch.1, hmatch.2.trans (computeMargin_anti h)⟩

end Order

end FacePipeline.Pipeline
