import FacePipeline.Config.SystemConfig
import FacePipeline.Lib.TopK
import FacePipeline.Lib.Traverse
import Mathlib.Algebra.BigOperators.Group.List.Basic
import Mathlib.Algebra.Order.Ring.Defs

/-!
# The FAISS indexes

What the wrapper relies on of FAISS: an inverted-file index (`IndexIVF`) that stores vectors under
consecutive internal labels, and the id map around it (`IndexIDMap`) that translates an internal
label into the user's id by position. Removal keeps the labels of the survivors and compacts the id
map. Both read raw arrays with a length and a dimension given by the caller, so a read past the end
is `undefined` here.

Clustering, the product quantizer's codec, the choice between equally good candidates and the
distance left in an unused result slot are parameters (`Faiss`).
-/

namespace FacePipeline.Indexing

open FacePipeline.Config TopK Traverse

/-- `faiss::MetricType`, as far as the configuration reaches it. -/
inductive MetricType where
  | innerProduct
  | l2
  deriving DecidableEq, Repr

section Metric
variable {F : Type} [CommRing F]

def innerProduct (x y : List F) : F :=
  (List.zipWith (· * ·) x y).sum

/-- The squared Euclidean distance, which is what FAISS reports for its L2 metric. -/
def squaredDistance (x y : List F) : F :=
  (List.zipWith (fun a b => (a - b) * (a - b)) x y).sum

def MetricType.value : MetricType → List F → List F → F
  | .innerProduct => FacePipeline.Indexing.innerProduct
  | .l2 => squaredDistance

variable [LinearOrder F]

/-- The score `a` is at least as good as `b`: scores descend, distances ascend. -/
def MetricType.Closer : MetricType → F → F → Prop
  | .innerProduct, a, b => b ≤ a
  | .l2, a, b => a ≤ b

instance (m : MetricType) : DecidableRel (m.Closer (F := F)) := fun a b =>
  match m with
  | .innerProduct => inferInstanceAs (Decidable (b ≤ a))
  | .l2 => inferInstanceAs (Decidable (a ≤ b))

/-- Labels with their scores, better first. -/
def MetricType.Ranked (m : MetricType) (a b : ℕ × F) : Prop :=
  m.Closer a.2 b.2

instance (m : MetricType) : DecidableRel (m.Ranked (F := F)) := fun a b =>
  inferInstanceAs (Decidable (m.Closer a.2 b.2))

end Metric

/-- The parts of FAISS that the wrapper leaves open. -/
structure Faiss (F : Type) [CommRing F] [LinearOrder F] where
  /-- The centroids found by k-means: metric, number of cells, training vectors. -/
  cluster : MetricType → ℕ → List (List F) → List (List F)
  length_cluster : ∀ m nlist xs, (cluster m nlist xs).length = nlist
  /-- What the product quantizer keeps of a vector: number of subquantizers, training vectors,
  centroid of the vector's cell, vector. -/
  reconstruct : ℕ → List (List F) → List F → List F → List F
  length_reconstruct : ∀ m xs c v, (reconstruct m xs c v).length = v.length
  /-- The best `k` of a list of scored labels. -/
  select : MetricType → ℕ → List (ℕ × F) → List (ℕ × F)
  isTopK_select : ∀ m k xs, IsTopK m.Ranked k xs (select m k xs)
  /-- The distance reported in an unused slot. -/
  unused : F

/-- One stored vector: its internal label, its cell and what is kept of it. -/
structure Entry (F : Type) where
  label : ℕ
  cell : ℕ
  vec : List F
  deriving DecidableEq, Repr

/-- `IndexIVFFlat` and `IndexIVFPQ`. -/
structure IndexIVF (F : Type) where
  kind : FaissIndexType
  metric : MetricType
  d : UInt32
  nlist : UInt32
  pqM : UInt32
  nprobe : ℕ := 1
  centroids : List (List F) := []
  training : List (List F) := []
  entries : List (Entry F) := []
  ntotal : ℕ := 0
  deriving DecidableEq, Repr

/-- `IndexIDMap`: position `l` of `idMap` holds the user's id of internal label `l`. -/
structure IndexIDMap (F : Type) where
  index : IndexIVF F
  idMap : List Int := []
  ntotal : ℕ := 0
  deriving DecidableEq, Repr

/-- A FAISS call: it may throw or run into undefined behaviour. -/
abbrev Call := Except Stop

def throwing {α : Type} (e : Exn) : Call α := .error (.throws e)

def undefined {α : Type} (what : String) : Call α := .error (.undefined what)

/-- The `i`-th vector of dimension `d` in a raw array. -/
def rowAt {F : Type} (data : List F) (d i : ℕ) : List F :=
  (data.drop (i * d)).take d

/-- `n` vectors of dimension `d`, read one behind the other from a raw array. -/
def readVectors {F : Type} (data : List F) (n d : ℕ) : Call (List (List F)) :=
  if n * d ≤ data.length then .ok ((List.range n).map (rowAt data d))
  else undefined "read past the end of the vectors"

/-- `n` ids read from a raw array. -/
def readIds (ids : List Int) (n : ℕ) : Call (List Int) :=
  if n ≤ ids.length then .ok (ids.take n) else undefined "read past the end of the ids"

/-! ### The inverted file -/

namespace IndexIVF

variable {F : Type}

/-- The constructor. A product quantizer splits the dimension evenly. The casts of `d` and `pqM` to
`int` are the identity on what FAISS can represent and are left out. -/
def new (kind : FaissIndexType) (metric : MetricType) (d nlist pqM : UInt32) : Call (IndexIVF F) :=
  if kind = .ivfPQ ∧ pqM = 0 then undefined "division by zero"
  else if kind = .ivfPQ ∧ d % pqM ≠ 0 then throwing (.other "Error: 'd % M == 0' failed")
  else .ok { kind, metric, d, nlist, pqM }

variable [CommRing F] [LinearOrder F] (faiss : Faiss F)

/-- Train the coarse quantizer, and the product quantizer of 256 centroids per part. -/
def train (idx : IndexIVF F) (xs : List (List F)) : Call (IndexIVF F) :=
  if idx.nlist = 0 ∨ xs.length < idx.nlist.toNat then
    throwing (.other "Number of training points should be at least as large as number of clusters")
  else if idx.kind = .ivfPQ ∧ xs.length < 256 then
    throwing (.other "Number of training points should be at least as large as number of clusters")
  else .ok { idx with centroids := faiss.cluster idx.metric idx.nlist.toNat xs, training := xs }

/-- The `nprobe` cells nearest to `q`. -/
def nearestCells (idx : IndexIVF F) (nprobe : ℕ) (q : List F) : List (ℕ × F) :=
  faiss.select idx.metric nprobe
    (idx.centroids.zipIdx.map fun c => (c.2, idx.metric.value q c.1))

/-- The cell of a vector. -/
def assign (idx : IndexIVF F) (v : List F) : ℕ :=
  ((idx.nearestCells faiss 1 v).head?.map (·.1)).getD 0

/-- What the index keeps of a vector: all of it, or its code. -/
def keep (idx : IndexIVF F) (v : List F) : List F :=
  match idx.kind with
  | .ivfFlat => v
  | .ivfPQ => faiss.reconstruct idx.pqM.toNat idx.training
      (idx.centroids.getD (idx.assign faiss v) []) v

/-- Store vectors under the labels `ntotal, ntotal + 1, …`. -/
def add (idx : IndexIVF F) (xs : List (List F)) : IndexIVF F :=
  { idx with
    entries := idx.entries ++ xs.mapIdx fun i v =>
      ⟨idx.ntotal + i, idx.assign faiss v, idx.keep faiss v⟩
    ntotal := idx.ntotal + xs.length }

omit [CommRing F] [LinearOrder F] in
/-- Delete the entries whose label is selected; the others keep their labels. -/
def removeIds (idx : IndexIVF F) (selected : ℕ → Bool) : IndexIVF F :=
  { idx with
    entries := idx.entries.filter fun e => !selected e.label
    ntotal := idx.ntotal - (idx.entries.filter fun e => selected e.label).length }

/-- The cells a search looks at. -/
def probed (idx : IndexIVF F) (q : List F) : List ℕ :=
  (idx.nearestCells faiss idx.nprobe q).map (·.1)

/-- The stored vectors a search scores. -/
def scanned (idx : IndexIVF F) (q : List F) : List (ℕ × F) :=
  (idx.entries.filter fun e => e.cell ∈ idx.probed faiss q).map fun e =>
    (e.label, idx.metric.value q e.vec)

/-- The labels and scores of the best `k` scanned vectors. -/
def search (idx : IndexIVF F) (q : List F) (k : ℕ) : List (ℕ × F) :=
  faiss.select idx.metric k (idx.scanned faiss q)

end IndexIVF

/-! ### The id map -/

namespace IndexIDMap

variable {F : Type}

/-- The user's id of an internal label: `id_map[label]`. -/
def translate (idx : IndexIDMap F) (label : ℕ) : Call Int :=
  match idx.idMap[label]? with
  | some id => .ok id
  | none => undefined "read past the end of id_map"

/-- Translate the selector, delete, then compact the id map. -/
def removeIds (idx : IndexIDMap F) (ids : List Int) : Call (IndexIDMap F) := do
  let _ ← traverseIdx (fun _ (e : Entry F) => idx.translate e.label) 0 idx.index.entries
  if idx.idMap.length < idx.ntotal then undefined "read past the end of id_map"
  else
    let idMap := (idx.idMap.take idx.ntotal).filter fun id => id ∉ ids
    return { index := idx.index.removeIds fun label => (idx.idMap[label]?.any (· ∈ ids)),
             idMap, ntotal := idMap.length }

/-- Scored labels under the user's ids. -/
def translateAll (idx : IndexIDMap F) (best : List (ℕ × F)) : Call (List (Int × F)) :=
  traverseIdx (fun _ b => (idx.translate b.1).map (·, b.2)) 0 best

variable [CommRing F] [LinearOrder F] (faiss : Faiss F)

def train (idx : IndexIDMap F) (n : ℕ) (data : List F) : Call (IndexIDMap F) := do
  let xs ← readVectors data n idx.index.d.toNat
  let index ← idx.index.train faiss xs
  return { idx with index }

/-- Add to the inverted file, then append the ids. -/
def addWithIds (idx : IndexIDMap F) (n : ℕ) (data : List F) (ids : List Int) :
    Call (IndexIDMap F) := do
  let xs ← readVectors data n idx.index.d.toNat
  let new ← readIds ids n
  let index := idx.index.add faiss xs
  return { index, idMap := idx.idMap ++ new, ntotal := index.ntotal }

/-- The `k` result slots of one query: translated labels and distances, `-1` in an unused slot. -/
def searchOne (idx : IndexIDMap F) (q : List F) (k : ℕ) : Call (List (Int × F)) := do
  let best := idx.index.search faiss q k
  let found ← idx.translateAll best
  return found ++ List.replicate (k - best.length) (-1, faiss.unused)

/-- `search`: the flat `labels` and `distances` arrays of `n` queries, query by query. -/
def search (idx : IndexIDMap F) (n : ℕ) (queries : List F) (k : ℕ) : Call (List Int × List F) := do
  let qs ← readVectors queries n idx.index.d.toNat
  let slots ← traverseIdx (fun _ q => idx.searchOne faiss q k) 0 qs
  return (slots.flatten.map (·.1), slots.flatten.map (·.2))

end IndexIDMap

/-! ### What a call that returns has done -/

section Calls
variable {F : Type}

@[simp] theorem throwing_ne_ok {α : Type} {e : Exn} {a : α} : (throwing e : Call α) ≠ .ok a := by
  simp [throwing]

@[simp] theorem undefined_ne_ok {α : Type} {what : String} {a : α} :
    (undefined what : Call α) ≠ .ok a := by
  simp [undefined]

theorem rowAt_length {data : List F} {n d i : ℕ} (hi : i < n) (hd : n * d ≤ data.length) :
    (rowAt data d i).length = d := by
  have hend : (i + 1) * d ≤ n * d := Nat.mul_le_mul_right d hi
  rw [Nat.succ_mul] at hend
  simp only [rowAt, List.length_take, List.length_drop]
  omega

theorem readVectors_ok {data : List F} {n d : ℕ} {xs : List (List F)} :
    readVectors data n d = .ok xs ↔
      n * d ≤ data.length ∧ xs = (List.range n).map (rowAt data d) := by
  unfold readVectors
  split_ifs with h
  · simp [h, eq_comm]
  · simp [h]

theorem readIds_ok {ids new : List Int} {n : ℕ} :
    readIds ids n = .ok new ↔ n ≤ ids.length ∧ new = ids.take n := by
  unfold readIds
  split_ifs with h
  · simp [h, eq_comm]
  · simp [h]

theorem translate_ok {idx : IndexIDMap F} {label : ℕ} {id : Int} :
    idx.translate label = .ok id ↔ idx.idMap[label]? = some id := by
  unfold IndexIDMap.translate
  cases idx.idMap[label]? <;> simp

theorem translateAll_ok {idx : IndexIDMap F} {best : List (ℕ × F)} {found : List (Int × F)} :
    idx.translateAll best = .ok found ↔ found.length = best.length ∧
      ∀ (j : ℕ) (b : ℕ × F), best[j]? = some b →
        ∃ id, idx.idMap[b.1]? = some id ∧ found[j]? = some (id, b.2) := by
  simp only [IndexIDMap.translateAll, traverseIdx_ok_iff]
  refine and_congr_right fun _ => forall_congr' fun j => forall_congr' fun b =>
    forall_congr' fun _ => ?_
  rw [IndexIDMap.translate]
  cases idx.idMap[b.1]? <;> simp [undefined, Except.map, eq_comm]

/-- A removal that returns: every label had an id. -/
theorem removeIds_ok {idx idx' : IndexIDMap F} {ids : List Int} :
    idx.removeIds ids = .ok idx' ↔ (∀ e ∈ idx.index.entries, ∃ id, idx.idMap[e.label]? = some id) ∧
      idx.ntotal ≤ idx.idMap.length ∧ idx' =
        { index := idx.index.removeIds fun label => (idx.idMap[label]?.any (· ∈ ids)),
          idMap := (idx.idMap.take idx.ntotal).filter fun id => id ∉ ids,
          ntotal := ((idx.idMap.take idx.ntotal).filter fun id => id ∉ ids).length } := by
  simp only [IndexIDMap.removeIds, bind_ok, exists_and_right, exists_traverseIdx_const_ok_iff,
    translate_ok]
  refine and_congr_right fun _ => ?_
  split_ifs with h
  · simp [h]
  · simp [not_lt.1 h]

theorem new_ok {kind : FaissIndexType} {metric : MetricType} {d nlist pqM : UInt32}
    {idx : IndexIVF F} :
    IndexIVF.new kind metric d nlist pqM = .ok idx ↔
      (kind = .ivfPQ → pqM ≠ 0 ∧ d % pqM = 0) ∧ idx = { kind, metric, d, nlist, pqM } := by
  unfold IndexIVF.new
  split_ifs with hzero hmod
  · exact iff_of_false undefined_ne_ok fun h => (h.1 hzero.1).1 hzero.2
  · exact iff_of_false throwing_ne_ok fun h => hmod.2 (h.1 hmod.1).2
  · have hpq : kind = .ivfPQ → pqM ≠ 0 ∧ d % pqM = 0 :=
      fun hkind => ⟨fun h => hzero ⟨hkind, h⟩, not_not.1 fun h => hmod ⟨hkind, h⟩⟩
    exact ⟨fun h => ⟨hpq, (Except.ok.inj h).symm⟩, fun h => h.2 ▸ rfl⟩

variable [CommRing F] [LinearOrder F] {faiss : Faiss F}

theorem keep_length (idx : IndexIVF F) (v : List F) : (idx.keep faiss v).length = v.length := by
  unfold IndexIVF.keep
  cases idx.kind with
  | ivfFlat => rfl
  | ivfPQ => exact faiss.length_reconstruct _ _ _ _

theorem search_length_le (faiss : Faiss F) (idx : IndexIVF F) (q : List F) (k : ℕ) :
    (idx.search faiss q k).length ≤ k := by
  rw [IndexIVF.search, (faiss.isTopK_select _ _ _).length]
  exact min_le_left _ _

theorem train_ok {idx idx' : IndexIVF F} {xs : List (List F)} :
    idx.train faiss xs = .ok idx' ↔ idx.nlist ≠ 0 ∧ idx.nlist.toNat ≤ xs.length ∧
      (idx.kind = .ivfPQ → 256 ≤ xs.length) ∧
      idx' = { idx with centroids := faiss.cluster idx.metric idx.nlist.toNat xs,
                        training := xs } := by
  unfold IndexIVF.train
  split_ifs with hnlist hpq
  · refine iff_of_false throwing_ne_ok fun h => ?_
    exact hnlist.elim h.1 (not_lt.2 h.2.1)
  · exact iff_of_false throwing_ne_ok fun h => absurd hpq.2 (not_lt.2 (h.2.2.1 hpq.1))
  · rw [not_or, not_lt] at hnlist
    simp only [not_and, not_lt] at hpq
    exact ⟨fun h => ⟨hnlist.1, hnlist.2, hpq, (Except.ok.inj h).symm⟩, fun h => h.2.2.2 ▸ rfl⟩

theorem addWithIds_ok {idx idx' : IndexIDMap F} {n : ℕ} {data : List F} {ids : List Int} :
    idx.addWithIds faiss n data ids = .ok idx' ↔ n * idx.index.d.toNat ≤ data.length ∧
      n ≤ ids.length ∧ idx' =
        { index := idx.index.add faiss ((List.range n).map (rowAt data idx.index.d.toNat)),
          idMap := idx.idMap ++ ids.take n, ntotal := idx.index.ntotal + n } := by
  simp only [IndexIDMap.addWithIds, bind_ok, readVectors_ok, readIds_ok]
  constructor
  · rintro ⟨_, ⟨hdata, rfl⟩, _, ⟨hids, rfl⟩, h⟩
    refine ⟨hdata, hids, ?_⟩
    simpa [IndexIVF.add] using h
  · rintro ⟨hdata, hids, rfl⟩
    exact ⟨_, ⟨hdata, rfl⟩, _, ⟨hids, rfl⟩, by simp [IndexIVF.add]⟩

end Calls

/-! ### A reference implementation of the open parts -/

section Reference
variable {F : Type} [CommRing F] [LinearOrder F]

instance (m : MetricType) : Std.Total (m.Ranked (F := F)) :=
  match m with
  | .innerProduct => ⟨fun a b => le_total b.2 a.2⟩
  | .l2 => ⟨fun a b => le_total a.2 b.2⟩

instance (m : MetricType) : IsTrans (ℕ × F) m.Ranked :=
  match m with
  | .innerProduct => ⟨fun _ _ _ hab hbc => le_trans (α := F) hbc hab⟩
  | .l2 => ⟨fun _ _ _ hab hbc => le_trans (α := F) hab hbc⟩

/-- The first vectors are the centroids, codes are exact, and ties go to the entry stored first. -/
def referenceFaiss : Faiss F where
  cluster _ nlist xs := (List.range nlist).map fun i => xs.getD i []
  length_cluster := by simp
  reconstruct _ _ _ v := v
  length_reconstruct _ _ _ _ := rfl
  select m := topK m.Ranked
  isTopK_select m := isTopK_topK m.Ranked
  unused := 0

end Reference

end FacePipeline.Indexing
