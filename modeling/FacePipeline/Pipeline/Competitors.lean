import FacePipeline.Pipeline.ProbeChain
import Mathlib.Algebra.Order.Ring.Rat
import Mathlib.Tactic.NormNum

/-!
# What a competitor does to a match

Of the hits behind the best one the decision reads the first, and a weaker runner-up leaves a larger margin. So
an accepted face stays accepted when competitors are taken away, as long as one is left. When none is left the
best similarity stands in for the margin, and it may be smaller than the margin to a runner-up of negative
similarity: `acceptedAs_fewer` says that this is the one case in which a competitor helps.
-/

namespace FacePipeline.Pipeline

open FacePipeline.Config

section Competitors

variable {F : Type} [AddCommGroup F] [LinearOrder F]

/-- The hits resolve the face to `id`. -/
def AcceptedAs (cfg : RecognitionConfig F) (f : FaceResult F) (hits : List (SearchResult F)) (id : Int) : Prop :=
  (resolveFace cfg f hits).matchedId = some id

theorem acceptedAs_iff {cfg : RecognitionConfig F} {f : FaceResult F} (hf : f.matchedId = none)
    {top : SearchResult F} {rest : List (SearchResult F)} :
    AcceptedAs cfg f (top :: rest) top.id ↔ cfg.threshold ≤ top.similarity ∧
      cfg.marginMin ≤ computeMargin top.similarity (rest.head?.map (·.similarity)) := by
  rw [← matchDecision_eq_true]
  unfold AcceptedAs resolveFace
  simp only
  split_ifs with hmatch
  · exact iff_of_true rfl hmatch
  · refine iff_of_false ?_ hmatch
    rw [hf]
    exact Option.some_ne_none _ ∘ Eq.symm

omit [AddCommGroup F] in
/-- The runner-up of fewer competitors is not a better one. -/
theorem runnerUp_le {rest kept : List (SearchResult F)}
    (hsorted : rest.Pairwise fun a b => b.similarity ≤ a.similarity) (hsub : kept.Sublist rest)
    {first second : SearchResult F} (hfirst : rest.head? = some first) (hsecond : kept.head? = some second) :
    second.similarity ≤ first.similarity := by
  obtain ⟨rest, rfl⟩ := List.head?_eq_some_iff.1 hfirst
  have hmem : second ∈ first :: rest := hsub.subset (List.mem_of_head? hsecond)
  rcases List.mem_cons.1 hmem with rfl | hmem
  · exact le_rfl
  · exact (List.pairwise_cons.1 hsorted).1 second hmem

variable [IsOrderedAddMonoid F]

/-- **When a competitor helps.** Without some of its competitors a match stays a match, unless none is left and
the best similarity is below the minimum margin; the runner-up had a negative similarity then. -/
theorem acceptedAs_fewer (cfg : RecognitionConfig F) (f : FaceResult F) (top : SearchResult F)
    (rest kept : List (SearchResult F)) (hf : f.matchedId = none)
    (hsorted : (top :: rest).Pairwise fun a b => b.similarity ≤ a.similarity) (hsub : kept.Sublist rest)
    (h : AcceptedAs cfg f (top :: rest) top.id) :
    (AcceptedAs cfg f (top :: kept) top.id ↔ (kept = [] → cfg.marginMin ≤ top.similarity)) ∧
    (top.similarity < cfg.marginMin → ∃ second, rest.head? = some second ∧ second.similarity < 0) := by
  rw [acceptedAs_iff hf] at h ⊢
  obtain ⟨hthreshold, hmargin⟩ := h
  constructor
  · cases hkept : kept.head? with
    | none =>
      rw [List.head?_eq_none_iff] at hkept
      simp [hkept, hthreshold, computeMargin]
    | some second =>
      have hne : kept ≠ [] := by
        rintro rfl
        cases hkept
      refine iff_of_true ⟨hthreshold, ?_⟩ fun hnil => absurd hnil hne
      obtain ⟨first, hfirst⟩ : ∃ first, rest.head? = some first := by
        cases hrest : rest.head? with
        | some first => exact ⟨first, rfl⟩
        | none =>
          rw [List.head?_eq_none_iff.1 hrest] at hsub
          exact absurd (List.sublist_nil.1 hsub) hne
      rw [hfirst] at hmargin
      exact hmargin.trans (computeMargin_anti (runnerUp_le (List.pairwise_cons.1 hsorted).2 hsub hfirst hkept))
  · intro hlow
    cases hrest : rest.head? with
    | none =>
      rw [hrest] at hmargin
      exact absurd hmargin (not_le.2 hlow)
    | some second =>
      rw [hrest] at hmargin
      refine ⟨second, rfl, ?_⟩
      by_contra hnonneg
      have hle : top.similarity - second.similarity ≤ top.similarity := sub_le_self _ (not_lt.1 hnonneg)
      exact absurd (hmargin.trans hle) (not_le.2 hlow)

end Competitors

/-- A detected face, not recognised yet. -/
def newFace {F : Type} [Zero F] : FaceResult F :=
  .ofDetection ⟨0, 0, 0, 0⟩ (Vector.replicate 5 ⟨0, 0⟩) 0

/-- The strongest competitor is taken away. -/
theorem acceptedAs_fewer_strong :
    AcceptedAs (⟨50, 10, 5⟩ : RecognitionConfig ℤ) newFace [⟨3, 80⟩, ⟨1, 20⟩] 3 :=
  (acceptedAs_fewer (⟨50, 10, 5⟩ : RecognitionConfig ℤ) newFace ⟨3, 80⟩ [⟨0, 60⟩, ⟨1, 20⟩] [⟨1, 20⟩] rfl
    (by decide) (by decide) ((acceptedAs_iff rfl).2 (by decide))).1.2 (by decide)

/-- A lone hit of similarity 0.1 misses a margin of 0.3, and keeps it before one of similarity -0.5. -/
theorem not_accepted_alone :
    (⟨1 / 20, 3 / 10, 5⟩ : RecognitionConfig ℚ).Valid ∧
    AcceptedAs (⟨1 / 20, 3 / 10, 5⟩ : RecognitionConfig ℚ) newFace [⟨3, 1 / 10⟩, ⟨0, -1 / 2⟩] 3 ∧
    ¬AcceptedAs (⟨1 / 20, 3 / 10, 5⟩ : RecognitionConfig ℚ) newFace [⟨3, 1 / 10⟩] 3 := by
  refine ⟨⟨?_, ?_, by decide⟩, ?_, ?_⟩
  · norm_num [kMinSimilarity, kMaxSimilarity]
  · norm_num [kMinSimilarity, kMaxSimilarity]
  · refine (acceptedAs_iff rfl).2 ?_
    norm_num [computeMargin]
  · refine mt (acceptedAs_iff rfl).1 ?_
    norm_num [computeMargin]

end FacePipeline.Pipeline
