import FacePipeline.Pipeline.ProbeChain
import Mathlib.Algebra.Ring.Int.Defs

/-!
# Several photos of one person

The enrolment tool stores every image of a person under one id, so the hits of a face can repeat an
id. `resolveFace` takes the margin against the second hit whatever its id is. `rival` is the first
hit of another person, the runner-up the margin rule is meant for; the decision is the one against
the rival exactly when no photo of the first hit's own person that is ranked before the rival moves
the margin to the other side of the minimum (`secondPhotoInert_iff`).
-/

namespace FacePipeline.Pipeline

open FacePipeline.Config

variable {F : Type}

/-- `DropsSame id xs ys`: `ys` is `xs` with some hits of identity `id` removed. -/
inductive DropsSame (id : Int) : List (SearchResult F) → List (SearchResult F) → Prop where
  | nil : DropsSame id [] []
  | keep {xs ys} (h : SearchResult F) : DropsSame id xs ys → DropsSame id (h :: xs) (h :: ys)
  | drop {xs ys} (h : SearchResult F) : h.id = id → DropsSame id xs ys → DropsSame id (h :: xs) ys

/-- The first hit of another identity. -/
def rival (id : Int) (hits : List (SearchResult F)) : Option (SearchResult F) :=
  hits.find? (·.id ≠ id)

/-- The photos of `id` ranked before the rival. -/
def photosBeforeRival (id : Int) (hits : List (SearchResult F)) : List (SearchResult F) :=
  hits.takeWhile (·.id = id)

/-! ### What a removal can bring to the front -/

theorem dropsSame_refl (id : Int) (hits : List (SearchResult F)) : DropsSame id hits hits := by
  induction hits with
  | nil => exact .nil
  | cons h hits ih => exact .keep h ih

/-- Every photo before the rival can become the first hit that is left. -/
theorem exists_dropsSame_head {id : Int} {hits : List (SearchResult F)} {h : SearchResult F}
    (hh : h ∈ photosBeforeRival id hits) : ∃ left, DropsSame id hits left ∧ left.head? = some h := by
  induction hits with
  | nil => simp [photosBeforeRival] at hh
  | cons x xs ih =>
    by_cases hx : x.id = id
    · rw [photosBeforeRival, List.takeWhile_cons_of_pos (by simpa using hx), List.mem_cons] at hh
      rcases hh with rfl | hh
      · exact ⟨_, dropsSame_refl id _, rfl⟩
      · obtain ⟨left, hleft, hhead⟩ := ih hh
        exact ⟨left, .drop x hx hleft, hhead⟩
    · rw [photosBeforeRival, List.takeWhile_cons_of_neg (by simpa using hx)] at hh
      cases hh

/-- Removing every photo leaves the rival in front. -/
theorem exists_dropsSame_rival (id : Int) (hits : List (SearchResult F)) :
    ∃ left, DropsSame id hits left ∧ left.head? = rival id hits := by
  induction hits with
  | nil => exact ⟨[], .nil, rfl⟩
  | cons x xs ih =>
    by_cases hx : x.id = id
    · obtain ⟨left, hleft, hhead⟩ := ih
      exact ⟨left, .drop x hx hleft, by simpa [rival, hx] using hhead⟩
    · exact ⟨x :: xs, dropsSame_refl id _, by simp [rival, hx]⟩

/-- Nothing else can come to the front. -/
theorem DropsSame.head {id : Int} {hits left : List (SearchResult F)}
    (h : DropsSame id hits left) :
    left.head? = rival id hits ∨ ∃ x ∈ photosBeforeRival id hits, left.head? = some x := by
  induction h with
  | nil => exact .inl rfl
  | @keep xs ys x _ _ =>
    by_cases hx : x.id = id
    · exact .inr ⟨x, by simp [photosBeforeRival, hx], rfl⟩
    · exact .inl (by simp [rival, hx])
  | @drop xs ys x hx _ ih =>
    rcases ih with hhead | ⟨y, hy, hhead⟩
    · exact .inl (by simpa [rival, hx] using hhead)
    · exact .inr ⟨y, by
        rw [photosBeforeRival, List.takeWhile_cons_of_pos (by simpa using hx)]
        exact List.mem_cons_of_mem x hy, hhead⟩

/-- On a best-first list the rival is the best hit of any other identity. -/
theorem rival_best [LE F] {id : Int} {hits : List (SearchResult F)} {r h : SearchResult F}
    (hsorted : hits.Pairwise fun a b => b.similarity ≤ a.similarity)
    (hr : rival id hits = some r) (hh : h ∈ hits) (hid : h.id ≠ id) :
    h = r ∨ h.similarity ≤ r.similarity := by
  induction hits with
  | nil => cases hh
  | cons x xs ih =>
    rw [List.pairwise_cons] at hsorted
    by_cases hx : x.id = id
    · refine ih hsorted.2 (by simpa [rival, hx] using hr) ?_
      exact (List.mem_cons.1 hh).resolve_left fun h' => hid (h' ▸ hx)
    · obtain rfl : x = r := by simpa [rival, hx] using hr
      exact (List.mem_cons.1 hh).imp_right (hsorted.1 h)

/-! ### The decision -/

section Decision
variable [Sub F] [LE F] [DecidableLE F]

/-- The margin rule against a given runner-up. -/
def Accepts (cfg : RecognitionConfig F) (top : SearchResult F) (second : Option (SearchResult F)) :
    Prop :=
  cfg.threshold ≤ top.similarity ∧
    cfg.marginMin ≤ computeMargin top.similarity (second.map (·.similarity))

instance (cfg : RecognitionConfig F) (top : SearchResult F) (second : Option (SearchResult F)) :
    Decidable (Accepts cfg top second) :=
  inferInstanceAs (Decidable (_ ∧ _))

/-- The second photo of a person does not compete with the first: the decision on the face stays the
same when hits of the first hit's identity are removed, and it is the decision against the rival. -/
structure SecondPhotoInert (cfg : RecognitionConfig F) (f : FaceResult F) (top : SearchResult F)
    (rest : List (SearchResult F)) : Prop where
  removal : ∀ left, DropsSame top.id rest left →
    (resolveFace cfg f (top :: left)).matchedId = (resolveFace cfg f (top :: rest)).matchedId
  againstRival : (resolveFace cfg f (top :: rest)).matchedId = some top.id ↔
    Accepts cfg top (rival top.id rest)

theorem resolveFace_cons_matchedId {cfg : RecognitionConfig F} {f : FaceResult F}
    (hf : f.matchedId = none) (top : SearchResult F) (rest : List (SearchResult F)) :
    (resolveFace cfg f (top :: rest)).matchedId =
      if Accepts cfg top rest.head? then some top.id else none := by
  have haccepts : Accepts cfg top rest.head? ↔ matchDecision top.similarity
      (rest.head?.map (·.similarity)) cfg.threshold cfg.marginMin = true :=
    matchDecision_eq_true.symm
  simp only [resolveFace, haccepts]
  split_ifs
  · rfl
  · exact hf

/-- Two decisions about one first hit agree when both runners-up pass the margin or neither does. -/
theorem matchedId_eq_iff {cfg : RecognitionConfig F} {f : FaceResult F} (hf : f.matchedId = none)
    (top : SearchResult F) (xs ys : List (SearchResult F)) :
    (resolveFace cfg f (top :: xs)).matchedId = (resolveFace cfg f (top :: ys)).matchedId ↔
      (Accepts cfg top xs.head? ↔ Accepts cfg top ys.head?) := by
  rw [resolveFace_cons_matchedId hf, resolveFace_cons_matchedId hf]
  split_ifs with hxs hys hys <;> simp [hxs, hys]

/-- **When a second photo is inert.** Either the first hit is below the threshold, or every photo of
the same person before the rival lies on the rival's side of the minimum margin. -/
theorem secondPhotoInert_iff (cfg : RecognitionConfig F) (f : FaceResult F)
    (hf : f.matchedId = none) (top : SearchResult F) (rest : List (SearchResult F)) :
    SecondPhotoInert cfg f top rest ↔ (¬cfg.threshold ≤ top.similarity ∨
      ∀ h ∈ photosBeforeRival top.id rest, (cfg.marginMin ≤ top.similarity - h.similarity ↔
        cfg.marginMin ≤
          computeMargin top.similarity ((rival top.id rest).map (·.similarity)))) := by
  constructor
  · intro hinert
    by_cases hthreshold : cfg.threshold ≤ top.similarity
    · refine .inr fun h hh => ?_
      -- both `h` and the rival are in front after some removal
      obtain ⟨left, hleft, hhead⟩ := exists_dropsSame_head hh
      obtain ⟨left', hleft', hhead'⟩ := exists_dropsSame_rival top.id rest
      have hsame := (hinert.removal left hleft).trans (hinert.removal left' hleft').symm
      rw [matchedId_eq_iff hf, hhead, hhead'] at hsame
      simpa [Accepts, hthreshold, computeMargin] using hsame
    · exact .inl hthreshold
  · intro hcond
    have hside : ∀ left, DropsSame top.id rest left →
        (Accepts cfg top left.head? ↔ Accepts cfg top (rival top.id rest)) := by
      intro left hleft
      rcases hleft.head with hhead | ⟨h, hh, hhead⟩
      · rw [hhead]
      · rw [hhead, Accepts, Accepts, and_congr_right_iff]
        intro hthreshold
        exact (hcond.resolve_left (not_not.2 hthreshold)) h hh
    refine ⟨fun left hleft => ?_, ?_⟩
    · rw [matchedId_eq_iff hf, hside left hleft, hside rest (dropsSame_refl _ _)]
    · rw [resolveFace_cons_matchedId hf, ← hside rest (dropsSame_refl _ _)]
      simp

end Decision

/-! ### Two photos and a distant stranger -/

theorem secondPhotoInert_distantPhotos :
    SecondPhotoInert ⟨50, 4, 5⟩ (.ofDetection ⟨0, 0, 8, 8⟩ (Vector.replicate 5 ⟨0, 0⟩) 90)
      (⟨7, 90⟩ : SearchResult ℤ) [⟨7, 80⟩, ⟨8, 30⟩] :=
  (secondPhotoInert_iff _ _ rfl _ _).2 (.inr (by decide))

/-- Two photos close to each other: the match is lost, as it would not be with one of them. -/
theorem secondPhotoInert_closePhotos :
    ¬SecondPhotoInert ⟨50, 4, 5⟩ (.ofDetection ⟨0, 0, 8, 8⟩ (Vector.replicate 5 ⟨0, 0⟩) 90)
      (⟨7, 90⟩ : SearchResult ℤ) [⟨7, 89⟩, ⟨8, 30⟩] := by
  intro hinert
  have hremoved := hinert.removal [⟨8, 30⟩] (.drop _ rfl (dropsSame_refl _ _))
  revert hremoved
  decide

end FacePipeline.Pipeline
