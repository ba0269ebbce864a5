import FacePipeline.Indexing.Faiss
import FacePipeline.Pipeline.ProbeChain
import Mathlib.Data.List.ReduceOption

/-!
# The vector index

`FaissSearcher` owns a CPU index and, with a GPU, a clone of it that answers the searches. Its
operations change the members one after the other around FAISS calls that can fail; they run in
`SearcherM`, where the members keep what was assigned to them before a call throws. `Failures` says
which of the FAISS calls of one operation throw, beyond the ones that refuse their input.
-/

namespace FacePipeline.Indexing

open FacePipeline.Config FacePipeline.Pipeline Traverse

/-- A column-major matrix. -/
structure MatrixXf (F : Type) where
  rows : ℕ
  cols : ℕ
  data : List F
  size_eq : data.length = rows * cols

namespace MatrixXf
variable {F : Type}

def column (m : MatrixXf F) (j : ℕ) : List F :=
  rowAt m.data m.rows j

def columns (m : MatrixXf F) : List (List F) :=
  (List.range m.cols).map m.column

theorem column_length (m : MatrixXf F) {j : ℕ} (hj : j < m.cols) : (m.column j).length = m.rows :=
  rowAt_length hj (by rw [m.size_eq, Nat.mul_comm])

/-- `Eigen::MatrixXf m(v.size(), 1); m.col(0) = v;` -/
def ofColumn (v : List F) : MatrixXf F :=
  ⟨v.length, 1, v, by simp⟩

end MatrixXf

def toFaiss : FaissMetric → MetricType
  | .innerProduct => .innerProduct
  | .l2 => .l2

/-- `min(4 * sqrt(n), n / 39)`, at least one. -/
def defaultNlist (n : ℕ) : UInt32 :=
  if n = 0 then 1
  else
    let root := (4.0 * Float.sqrt (Float.ofNat n)).toUInt64.toNat
    UInt32.ofNat (max 1 (min root (n / 39)))

/-- The FAISS calls of one operation that throw. -/
structure Failures where
  train : Option Exn := none
  addWithIds : Option Exn := none
  removeIds : Option Exn := none
  readIndex : Option Exn := none
  indexCpuToGpu : Option Exn := none

/-- A call that throws before it has done anything, or runs. -/
def unlessThrown {α : Type} (e : Option Exn) (call : Call α) : Call α :=
  match e with
  | some e => throwing e
  | none => call

/-- The searcher's members. -/
structure FaissSearcher (F : Type) where
  cfg : FaissConfig
  dimension : UInt32 := 0
  indexCpu : Option (IndexIDMap F) := none
  indexGpu : Option (IndexIDMap F) := none
  onGpu : Bool := false

/-- A member function that may throw; what it has assigned stays. -/
abbrev SearcherM (F : Type) := EStateM Stop (FaissSearcher F)

section Model
variable {F : Type}

def call {α : Type} (c : Call α) : SearcherM F α :=
  match c with
  | .ok a => return a
  | .error e => throw e

/-- The index type `build` uses for `n` vectors. -/
def chosenType (cfg : FaissConfig) (n : ℕ) : FaissIndexType :=
  if cfg.indexType = .ivfPQ ∧ n < cfg.ivfPqMinSize.toNat then .ivfFlat else cfg.indexType

/-- The number of cells `build` uses for `n` vectors. -/
def chosenNlist (cfg : FaissConfig) (n : ℕ) : UInt32 :=
  if 0 < cfg.nlist then cfg.nlist else defaultNlist n

/-- `index_gpu.reset(index_cpu_to_gpu(…, index_cpu.get()))`: the clone has the content of the CPU
index, and replaces the old one only when the call returns. -/
def upload (fail : Failures) : SearcherM F Unit := do
  let s ← get
  match s.indexCpu with
  | none => throw (.undefined "null index")
  | some idx =>
      let clone ← call (unlessThrown fail.indexCpuToGpu (.ok idx))
      modify fun s => { s with indexGpu := some clone }

namespace FaissSearcher

/-- The index that answers searches. -/
def searched (s : FaissSearcher F) : Option (IndexIDMap F) :=
  if s.onGpu then s.indexGpu else s.indexCpu

/-- `ntotal` of the CPU index. -/
def size (s : FaissSearcher F) : ℕ :=
  match s.indexCpu with
  | some idx => idx.ntotal
  | none => 0

/-- What `save` writes. -/
def save (s : FaissSearcher F) : Call (IndexIDMap F) :=
  match s.indexCpu with
  | some idx => .ok idx
  | none => throwing (.runtimeError "FaissSearcher::save called before build")

def remove (fail : Failures) (ids : List Int) : SearcherM F Unit := do
  let s ← get
  match s.indexCpu with
  | none => throw (.throws (.runtimeError "FaissSearcher::remove called before build"))
  | some idx =>
      let idx ← call (unlessThrown fail.removeIds (idx.removeIds ids))
      modify fun s => { s with indexCpu := some idx }
      if s.onGpu then upload fail

/-- Load the file with content `file`. -/
def load (fail : Failures) (file : IndexIDMap F) : SearcherM F Unit := do
  let idx ← call (unlessThrown fail.readIndex (.ok file))
  modify fun s => { s with indexCpu := some idx }
  modify fun s => { s with dimension := idx.index.d }
  let s ← get
  if 0 ≤ s.cfg.gpuId then
    upload fail
    modify fun s => { s with onGpu := true }

/-- A slot with a negative label holds no result. -/
def toHit (label : Int) (distance : F) : Option (SearchResult F) :=
  if label < 0 then none else some ⟨label, distance⟩

def slot (labels : List Int) (distances : List F) (pos : ℕ) : Call (Option (SearchResult F)) :=
  match labels[pos]?, distances[pos]? with
  | some label, some distance => .ok (toHit label distance)
  | _, _ => undefined "read past the end of the results"

/-- The hits of query `q`. -/
def row (labels : List Int) (distances : List F) (topK q : ℕ) : Call (List (SearchResult F)) :=
  (traverseIdx (fun _ r => slot labels distances (q * topK + r)) 0 (List.range topK)).map
    List.reduceOption

variable [CommRing F] [LinearOrder F] (faiss : Faiss F)

/-- The new index of `build`: constructed, trained and filled before it becomes a member. -/
def prepare (cfg : FaissConfig) (fail : Failures) (embeddings : MatrixXf F) (ids : List Int) :
    Call (IndexIDMap F) := do
  let n := embeddings.cols
  let ivf ← IndexIVF.new (chosenType cfg n) (toFaiss cfg.metric) (UInt32.ofNat embeddings.rows)
    (chosenNlist cfg n) cfg.pqM
  let wrapped ← unlessThrown fail.train (IndexIDMap.train faiss ⟨ivf, [], 0⟩ n embeddings.data)
  unlessThrown fail.addWithIds (wrapped.addWithIds faiss n embeddings.data ids)

def build (fail : Failures) (embeddings : MatrixXf F) (ids : List Int) : SearcherM F Unit := do
  if embeddings.cols ≠ ids.length then
    throw (.throws
      (.invalidArgument "FaissSearcher::build: ids.size() must equal #embeddings"))
  modify fun s => { s with dimension := UInt32.ofNat embeddings.rows }
  let s ← get
  let wrapped ← call (prepare faiss s.cfg fail embeddings ids)
  modify fun s => { s with indexCpu := some wrapped }
  if 0 ≤ s.cfg.gpuId then
    upload fail
    modify fun s => { s with onGpu := true }

def add (fail : Failures) (embeddings : MatrixXf F) (ids : List Int) : SearcherM F Unit := do
  let s ← get
  match s.indexCpu with
  | none => throw (.throws (.runtimeError "FaissSearcher::add called before build"))
  | some idx =>
      let idx ← call (unlessThrown fail.addWithIds
        (idx.addWithIds faiss embeddings.cols embeddings.data ids))
      modify fun s => { s with indexCpu := some idx }
      if s.onGpu then upload fail

def searchBatch (s : FaissSearcher F) (queries : MatrixXf F) (topK : UInt32) :
    Call (List (List (SearchResult F))) := do
  if s.indexCpu.isNone then
    throwing (.runtimeError "FaissSearcher::search called before build")
  else
    match s.searched with
    | none => undefined "null index"
    | some idx =>
        let (labels, distances) ← idx.search faiss queries.cols queries.data topK.toNat
        traverseIdx (fun _ q => row labels distances topK.toNat q) 0 (List.range queries.cols)

def search (s : FaissSearcher F) (query : Embedding F) (topK : UInt32) :
    Call (List (SearchResult F)) := do
  let batched ← s.searchBatch faiss (.ofColumn query) topK
  return batched.headD []

end FaissSearcher

end Model

/-! ### What a search answers -/

section Search
variable {F : Type}

/-- The slices of the flat result arrays hold the results of the query they are taken for. -/
theorem row_eq {slots : List (Int × F)} {k q : ℕ} (h : q * k + k ≤ slots.length) :
    FaissSearcher.row (slots.map (·.1)) (slots.map (·.2)) k q =
      .ok (((slots.drop (q * k)).take k).filterMap fun b => FaissSearcher.toHit b.1 b.2) := by
  have hrow : traverseIdx (fun _ r => FaissSearcher.slot (slots.map (·.1)) (slots.map (·.2))
      (q * k + r)) 0 (List.range k) =
      .ok (((slots.drop (q * k)).take k).map fun b => FaissSearcher.toHit b.1 b.2) := by
    rw [traverseIdx_ok_iff]
    refine ⟨by simp; omega, fun j r hr => ?_⟩
    obtain ⟨hj, rfl⟩ : j < k ∧ j = r := by
      simpa [List.getElem?_eq_some_iff] using hr
    have hpos : q * k + j < slots.length := by omega
    refine ⟨FaissSearcher.toHit slots[q * k + j].1 slots[q * k + j].2, ?_, ?_⟩
    · simp [hj, hpos]
    · simp [FaissSearcher.slot, hpos]
  rw [FaissSearcher.row, hrow]
  simp [Except.map, List.reduceOption]

variable [CommRing F] [LinearOrder F] {faiss : Faiss F}

/-- The result arrays of a single query. -/
theorem search_one_ok {idx : IndexIDMap F} {q : List F} {k : ℕ} {labels : List Int}
    {distances : List F} :
    idx.search faiss 1 q k = .ok (labels, distances) ↔ idx.index.d.toNat ≤ q.length ∧
      ∃ slots, idx.searchOne faiss (q.take idx.index.d.toNat) k = .ok slots ∧
        labels = slots.map (·.1) ∧ distances = slots.map (·.2) := by
  simp only [IndexIDMap.search, bind_ok, readVectors_ok, one_mul]
  constructor
  · rintro ⟨_, ⟨hd, rfl⟩, slots, hslots, h⟩
    obtain ⟨row, rest, hrow, hrest, rfl⟩ := traverseIdx_cons_ok.1 hslots
    cases hrest
    refine ⟨hd, row, by simpa [rowAt] using hrow, ?_⟩
    simpa using h
  · rintro ⟨hd, slots, hslots, rfl, rfl⟩
    refine ⟨_, ⟨hd, rfl⟩, [slots], traverseIdx_cons_ok.2 ⟨slots, [], ?_, rfl, rfl⟩, ?_⟩
    · simpa [rowAt] using hslots
    · simp

theorem searchOne_ok {idx : IndexIDMap F} {q : List F} {k : ℕ} {slots : List (Int × F)} :
    idx.searchOne faiss q k = .ok slots ↔ ∃ found,
      idx.translateAll (idx.index.search faiss q k) = .ok found ∧ slots =
        found ++ List.replicate (k - (idx.index.search faiss q k).length) (-1, faiss.unused) := by
  simp only [IndexIDMap.searchOne, bind_ok, pure_ok]

/-- A search that returns has found the best scanned vectors and reports them under their ids,
without those whose id is negative. -/
theorem search_ok {s : FaissSearcher F} {q : Embedding F} {k : UInt32}
    {hits : List (SearchResult F)} :
    s.search faiss q k = .ok hits ↔ s.indexCpu.isSome ∧ ∃ idx found, s.searched = some idx ∧
      idx.index.d.toNat ≤ q.length ∧
      idx.translateAll (idx.index.search faiss (q.take idx.index.d.toNat) k.toNat) = .ok found ∧
      hits = found.filterMap fun b => FaissSearcher.toHit b.1 b.2 := by
  simp only [FaissSearcher.search, FaissSearcher.searchBatch, bind_ok, pure_ok]
  cases hcpu : s.indexCpu with
  | none => simp
  | some cpu =>
    cases hidx : s.searched with
    | none => simp
    | some idx =>
      have hrow : ∀ {slots : List (Int × F)}, slots.length = k.toNat →
          traverseIdx (fun _ q => FaissSearcher.row (slots.map (·.1)) (slots.map (·.2)) k.toNat q)
            0 (List.range 1) = .ok [slots.filterMap fun b => FaissSearcher.toHit b.1 b.2] := by
        intro slots hlen
        refine traverseIdx_cons_ok.2 ⟨_, [], row_eq (by simp [hlen]), rfl, ?_⟩
        simp [hlen.symm]
      have hlen : ∀ {slots}, idx.searchOne faiss (q.take idx.index.d.toNat) k.toNat = .ok slots →
          slots.length = k.toNat := by
        intro slots hslots
        obtain ⟨found, hfound, rfl⟩ := searchOne_ok.1 hslots
        have := search_length_le faiss idx.index (q.take idx.index.d.toNat) k.toNat
        simp [(translateAll_ok.1 hfound).1, this]
      have hunused : ∀ n, (List.replicate n ((-1 : Int), faiss.unused)).filterMap
          (fun b => FaissSearcher.toHit b.1 b.2) = [] := by
        simp [FaissSearcher.toHit]
      simp only [Option.isNone_some, Bool.false_eq_true, if_false, Option.isSome_some, true_and,
        bind_ok, Option.some.injEq]
      constructor
      · rintro ⟨rows, ⟨⟨labels, distances⟩, harrays, hrows⟩, rfl⟩
        obtain ⟨hd, slots, hslots, rfl, rfl⟩ := search_one_ok.1 harrays
        obtain ⟨found, hfound, hsplit⟩ := searchOne_ok.1 hslots
        refine ⟨idx, found, rfl, hd, hfound, ?_⟩
        obtain rfl := Except.ok.inj ((hrow (hlen hslots)).symm.trans hrows)
        rw [hsplit]
        simp [hunused]
      · rintro ⟨_, found, rfl, hd, hfound, rfl⟩
        have hslots := searchOne_ok.2 ⟨found, hfound, rfl⟩
        refine ⟨_, ⟨(_, _), search_one_ok.2 ⟨hd, _, hslots, rfl, rfl⟩, hrow (hlen hslots)⟩, ?_⟩
        simp [hunused]

end Search

/-! ### What `build` prepares -/

section Prepare
variable {F : Type}

@[simp] theorem unlessThrown_ok {α : Type} {e : Option Exn} {c : Call α} {a : α} :
    unlessThrown e c = .ok a ↔ e = none ∧ c = .ok a := by
  cases e <;> simp [unlessThrown]

/-- The vectors FAISS reads from a matrix, given the dimension `build` passes. -/
def MatrixXf.read (m : MatrixXf F) (d : UInt32) : List (List F) :=
  (List.range m.cols).map (rowAt m.data d.toNat)

/-- A matrix read with its own number of rows gives its columns. -/
theorem MatrixXf.read_rows {m : MatrixXf F} {d : UInt32} (h : d.toNat = m.rows) :
    m.read d = m.columns := by
  rw [MatrixXf.read, h]
  rfl

@[simp] theorem MatrixXf.read_length (m : MatrixXf F) (d : UInt32) :
    (m.read d).length = m.cols := by
  simp [MatrixXf.read]

variable [CommRing F] [LinearOrder F]

/-- The trained and still empty inverted file of `build`. -/
def trainedIndex (faiss : Faiss F) (cfg : FaissConfig) (embeddings : MatrixXf F) : IndexIVF F where
  kind := chosenType cfg embeddings.cols
  metric := toFaiss cfg.metric
  d := UInt32.ofNat embeddings.rows
  nlist := chosenNlist cfg embeddings.cols
  pqM := cfg.pqM
  centroids := faiss.cluster (toFaiss cfg.metric) (chosenNlist cfg embeddings.cols).toNat
    (embeddings.read (UInt32.ofNat embeddings.rows))
  training := embeddings.read (UInt32.ofNat embeddings.rows)

/-- What FAISS requires of the parameters of a trainable index. -/
structure Trainable (cfg : FaissConfig) (embeddings : MatrixXf F) : Prop where
  nlist_pos : chosenNlist cfg embeddings.cols ≠ 0
  nlist_le : (chosenNlist cfg embeddings.cols).toNat ≤ embeddings.cols
  pqM : chosenType cfg embeddings.cols = .ivfPQ →
    cfg.pqM ≠ 0 ∧ UInt32.ofNat embeddings.rows % cfg.pqM = 0
  training : chosenType cfg embeddings.cols = .ivfPQ → 256 ≤ embeddings.cols

theorem prepare_ok {faiss : Faiss F} {cfg : FaissConfig} {fail : Failures}
    {embeddings : MatrixXf F} {ids : List Int} {idx : IndexIDMap F} :
    FaissSearcher.prepare faiss cfg fail embeddings ids = .ok idx ↔
      fail.train = none ∧ fail.addWithIds = none ∧ Trainable cfg embeddings ∧
      embeddings.cols ≤ ids.length ∧ idx =
        { index := (trainedIndex faiss cfg embeddings).add faiss
            (embeddings.read (UInt32.ofNat embeddings.rows)),
          idMap := ids.take embeddings.cols, ntotal := embeddings.cols } := by
  have hdata : embeddings.cols * (UInt32.ofNat embeddings.rows).toNat ≤ embeddings.data.length := by
    rw [embeddings.size_eq, Nat.mul_comm, UInt32.toNat_ofNat']
    exact Nat.mul_le_mul_right _ (Nat.mod_le _ _)
  simp only [FaissSearcher.prepare, bind_ok, new_ok, unlessThrown_ok, IndexIDMap.train,
    readVectors_ok, train_ok, addWithIds_ok, pure_ok]
  constructor
  · rintro ⟨_, ⟨hpq, rfl⟩, _, ⟨htrain, _, ⟨_, rfl⟩, _, ⟨hpos, hle, h256, rfl⟩, rfl⟩, hadd, _,
      hids, rfl⟩
    refine ⟨htrain, hadd, ⟨hpos, by simpa using hle, hpq, by simpa using h256⟩, hids, ?_⟩
    simp [trainedIndex, MatrixXf.read]
  · rintro ⟨htrain, hadd, h, hids, rfl⟩
    refine ⟨_, ⟨h.pqM, rfl⟩, _, ⟨htrain, _, ⟨hdata, rfl⟩, _,
      ⟨h.nlist_pos, by simpa using h.nlist_le, by simpa using h.training, rfl⟩, rfl⟩, hadd, hdata,
      hids, ?_⟩
    simp [trainedIndex, MatrixXf.read]

/-- The last step of `prepare` fills the empty index. -/
theorem prepare_addWithIds {faiss : Faiss F} {cfg : FaissConfig} {fail : Failures}
    {embeddings : MatrixXf F} {ids : List Int} {idx : IndexIDMap F}
    (h : FaissSearcher.prepare faiss cfg fail embeddings ids = .ok idx) :
    IndexIDMap.addWithIds faiss ⟨trainedIndex faiss cfg embeddings, [], 0⟩ embeddings.cols
      embeddings.data ids = .ok idx := by
  obtain ⟨_, _, _, hids, rfl⟩ := prepare_ok.1 h
  refine addWithIds_ok.2 ⟨?_, hids, by simp [trainedIndex, MatrixXf.read]⟩
  simp only [trainedIndex]
  rw [embeddings.size_eq, Nat.mul_comm, UInt32.toNat_ofNat']
  exact Nat.mul_le_mul_right _ (Nat.mod_le _ _)

end Prepare

/-! ### One operation

The four mutating operations have one shape: a new CPU index is computed, then it becomes a member,
then the GPU gets a clone. -/

/-- A call of a mutating operation. -/
inductive Op (F : Type) where
  | build (embeddings : MatrixXf F) (ids : List Int)
  | add (embeddings : MatrixXf F) (ids : List Int)
  | remove (ids : List Int)
  | load (file : IndexIDMap F)

namespace Op

variable {F : Type} [CommRing F] [LinearOrder F] (faiss : Faiss F)

def run (fail : Failures) : Op F → SearcherM F Unit
  | .build embeddings ids => FaissSearcher.build faiss fail embeddings ids
  | .add embeddings ids => FaissSearcher.add faiss fail embeddings ids
  | .remove ids => FaissSearcher.remove fail ids
  | .load file => FaissSearcher.load fail file

/-- The CPU index the operation computes. -/
def newIndex (fail : Failures) (s : FaissSearcher F) : Op F → Call (IndexIDMap F)
  | .build embeddings ids =>
      if embeddings.cols ≠ ids.length then
        throwing (.invalidArgument "FaissSearcher::build: ids.size() must equal #embeddings")
      else FaissSearcher.prepare faiss s.cfg fail embeddings ids
  | .add embeddings ids =>
      match s.indexCpu with
      | none => throwing (.runtimeError "FaissSearcher::add called before build")
      | some idx => unlessThrown fail.addWithIds
          (idx.addWithIds faiss embeddings.cols embeddings.data ids)
  | .remove ids =>
      match s.indexCpu with
      | none => throwing (.runtimeError "FaissSearcher::remove called before build")
      | some idx => unlessThrown fail.removeIds (idx.removeIds ids)
  | .load file => unlessThrown fail.readIndex (.ok file)

omit [CommRing F] [LinearOrder F]

/-- The members when the new index cannot be computed: `build` has set the dimension by then. -/
def assignedEarly (s : FaissSearcher F) : Op F → FaissSearcher F
  | .build embeddings ids =>
      if embeddings.cols ≠ ids.length then s
      else { s with dimension := UInt32.ofNat embeddings.rows }
  | _ => s

/-- The dimension once the new index is a member. -/
def newDimension (s : FaissSearcher F) (idx : IndexIDMap F) : Op F → UInt32
  | .build embeddings _ => UInt32.ofNat embeddings.rows
  | .load _ => idx.index.d
  | _ => s.dimension

/-- Whether the GPU gets a clone. -/
def clones (s : FaissSearcher F) : Op F → Bool
  | .build _ _ | .load _ => 0 ≤ s.cfg.gpuId
  | _ => s.onGpu

/-- What the clone throws, if there is one. -/
def cloneError (fail : Failures) (s : FaissSearcher F) (op : Op F) : Option Exn :=
  if op.clones s then fail.indexCpuToGpu else none

/-- The members once the new index is one of them. -/
def install (s : FaissSearcher F) (op : Op F) (idx : IndexIDMap F) : FaissSearcher F :=
  { s with dimension := op.newDimension s idx, indexCpu := some idx }

/-- The members at the end of a successful operation. -/
def finish (s : FaissSearcher F) (op : Op F) (idx : IndexIDMap F) : FaissSearcher F :=
  if op.clones s then { op.install s idx with indexGpu := some idx, onGpu := true }
  else op.install s idx

end Op

section Steps
variable {F : Type}

@[simp] theorem call_ok {α : Type} (a : α) : (call (.ok a) : SearcherM F α) = pure a := rfl

@[simp] theorem call_error {α : Type} (e : Stop) :
    (call (.error e) : SearcherM F α) = throw e := rfl

theorem upload_run {s : FaissSearcher F} {idx : IndexIDMap F} (fail : Failures)
    (h : s.indexCpu = some idx) :
    (upload fail).run s = match fail.indexCpuToGpu with
      | some e => .error (.throws e) s
      | none => .ok () { s with indexGpu := some idx } := by
  obtain ⟨cfg, dimension, indexCpu, indexGpu, onGpu⟩ := s
  obtain rfl : indexCpu = some idx := h
  cases hfail : fail.indexCpuToGpu with
  | none => simp only [upload, hfail, unlessThrown]; rfl
  | some e => simp only [upload, hfail, unlessThrown]; rfl

variable [CommRing F] [LinearOrder F]

omit [CommRing F] [LinearOrder F] in
/-- The common end of `add` and `remove`: the index is replaced, and cloned if there is a clone. -/
theorem replace_run (fail : Failures) (s : FaissSearcher F) (c : Call (IndexIDMap F)) :
    (do let idx ← call c
        modify fun s => { s with indexCpu := some idx }
        if s.onGpu then upload fail : SearcherM F Unit).run s = match c with
      | .error e => .error e s
      | .ok idx =>
          match if s.onGpu then fail.indexCpuToGpu else none with
          | some e => .error (.throws e) { s with indexCpu := some idx }
          | none => .ok () (if s.onGpu then
              { s with indexCpu := some idx, indexGpu := some idx, onGpu := true }
            else { s with indexCpu := some idx }) := by
  obtain ⟨cfg, dimension, indexCpu, indexGpu, onGpu⟩ := s
  cases c with
  | error e => rfl
  | ok idx =>
    cases onGpu <;> cases hfail : fail.indexCpuToGpu <;>
      simp [EStateM.run_bind, hfail, upload_run]

/-- What an operation does, whichever it is. -/
theorem op_run (faiss : Faiss F) (fail : Failures) (s : FaissSearcher F) (op : Op F) :
    (op.run faiss fail).run s = match op.newIndex faiss fail s with
      | .error e => .error e (op.assignedEarly s)
      | .ok idx =>
          match op.cloneError fail s with
          | some e => .error (.throws e) (op.install s idx)
          | none => .ok () (op.finish s idx) := by
  obtain ⟨cfg, dimension, indexCpu, indexGpu, onGpu⟩ := s
  cases op with
  | build embeddings ids =>
    simp only [Op.run, FaissSearcher.build, Op.newIndex, Op.assignedEarly]
    by_cases hlen : embeddings.cols = ids.length
    · simp only [ne_eq, hlen, not_true_eq_false, if_false]
      cases hcall : FaissSearcher.prepare faiss cfg fail embeddings ids with
      | error e =>
        simp only [EStateM.run_bind, EStateM.run_modify, EStateM.run_get, hcall, call_error]
        rfl
      | ok idx =>
        by_cases hgpu : 0 ≤ cfg.gpuId <;> cases hfail : fail.indexCpuToGpu <;>
          simp [EStateM.run_bind, hcall, hgpu, hfail, upload_run, Op.finish, Op.install, Op.clones,
            Op.cloneError, Op.newDimension]
    · simp only [ne_eq, hlen, not_false_eq_true, if_true]
      rfl
  | add embeddings ids =>
    cases indexCpu with
    | none => rfl
    | some idx => exact replace_run fail _ _
  | remove ids =>
    cases indexCpu with
    | none => rfl
    | some idx => exact replace_run fail _ _
  | load file =>
    simp only [Op.run, FaissSearcher.load, Op.newIndex]
    cases hcall : unlessThrown fail.readIndex (.ok file) with
    | error e => rfl
    | ok idx =>
      by_cases hgpu : 0 ≤ cfg.gpuId <;> cases hfail : fail.indexCpuToGpu <;>
        simp [EStateM.run_bind, hgpu, hfail, upload_run, Op.finish, Op.install, Op.clones,
          Op.cloneError, Op.newDimension]

/-! What the new index of an operation is, when it can be computed. -/

section NewIndex
variable {faiss : Faiss F} {fail : Failures} {s : FaissSearcher F} {idx : IndexIDMap F}

theorem newIndex_build_ok {embeddings : MatrixXf F} {ids : List Int} :
    (Op.build embeddings ids).newIndex faiss fail s = .ok idx ↔ embeddings.cols = ids.length ∧
      FaissSearcher.prepare faiss s.cfg fail embeddings ids = .ok idx := by
  rw [Op.newIndex]
  split_ifs with hlen
  · exact iff_of_false nofun fun h => hlen h.1
  · exact (and_iff_right (not_not.1 hlen)).symm

theorem newIndex_add_ok {embeddings : MatrixXf F} {ids : List Int} :
    (Op.add embeddings ids).newIndex faiss fail s = .ok idx ↔ ∃ old, s.indexCpu = some old ∧
      fail.addWithIds = none ∧ old.addWithIds faiss embeddings.cols embeddings.data ids = .ok idx := by
  rw [Op.newIndex]
  cases s.indexCpu with
  | none => exact iff_of_false nofun nofun
  | some old => simp

theorem newIndex_remove_ok {ids : List Int} :
    (Op.remove ids).newIndex faiss fail s = .ok idx ↔ ∃ old, s.indexCpu = some old ∧
      fail.removeIds = none ∧ old.removeIds ids = .ok idx := by
  rw [Op.newIndex]
  cases s.indexCpu with
  | none => exact iff_of_false nofun nofun
  | some old => simp

theorem newIndex_load_ok {file : IndexIDMap F} :
    (Op.load file).newIndex faiss fail s = .ok idx ↔ fail.readIndex = none ∧ file = idx := by
  rw [Op.newIndex, unlessThrown_ok, Except.ok.injEq]

end NewIndex

theorem op_run_ok {faiss : Faiss F} {fail : Failures} {s s' : FaissSearcher F} {op : Op F}
    {u : Unit} : (op.run faiss fail).run s = .ok u s' ↔
      ∃ idx, op.newIndex faiss fail s = .ok idx ∧ op.cloneError fail s = none ∧
        s' = op.finish s idx := by
  rw [op_run]
  cases op.newIndex faiss fail s with
  | error e => simp
  | ok idx => cases op.cloneError fail s <;> simp [eq_comm]

/-- An operation fails before its new index is a member, or in the clone of it. -/
theorem op_run_error {faiss : Faiss F} {fail : Failures} {s s' : FaissSearcher F} {op : Op F}
    {stop : Stop} : (op.run faiss fail).run s = .error stop s' ↔
      op.newIndex faiss fail s = .error stop ∧ s' = op.assignedEarly s ∨
      ∃ idx e, op.newIndex faiss fail s = .ok idx ∧ op.cloneError fail s = some e ∧
        stop = .throws e ∧ s' = op.install s idx := by
  rw [op_run]
  cases op.newIndex faiss fail s with
  | error e => simp [eq_comm]
  | ok idx => cases op.cloneError fail s <;> simp [eq_comm]

omit [CommRing F] [LinearOrder F] in
/-- Nothing but the dimension is set early. -/
theorem assignedEarly_eq (s : FaissSearcher F) (op : Op F) :
    ∃ d, op.assignedEarly s = { s with dimension := d } := by
  cases op with
  | build embeddings ids =>
    rw [Op.assignedEarly]
    split_ifs
    · exact ⟨s.dimension, rfl⟩
    · exact ⟨_, rfl⟩
  | add | remove | load => exact ⟨s.dimension, rfl⟩

/-! ### The members after a successful operation -/

omit [CommRing F] [LinearOrder F]

variable {s : FaissSearcher F} {op : Op F} {idx : IndexIDMap F}

@[simp] theorem finish_cfg : (op.finish s idx).cfg = s.cfg := by
  unfold Op.finish
  split_ifs <;> rfl

@[simp] theorem finish_indexCpu : (op.finish s idx).indexCpu = some idx := by
  unfold Op.finish
  split_ifs <;> rfl

@[simp] theorem finish_dimension : (op.finish s idx).dimension = op.newDimension s idx := by
  unfold Op.finish
  split_ifs <;> rfl

/-- The GPU is in use only when one is configured. -/
def GpuConfigured (s : FaissSearcher F) : Prop :=
  s.onGpu = true → 0 ≤ s.cfg.gpuId

theorem finish_gpuConfigured (h : GpuConfigured s) : GpuConfigured (op.finish s idx) := by
  intro hgpu
  rw [finish_cfg]
  by_cases hclones : op.clones s
  · cases op with
    | build => simpa [Op.clones] using hclones
    | load => simpa [Op.clones] using hclones
    | add => exact h hclones
    | remove => exact h hclones
  · simp only [Op.finish, hclones] at hgpu
    exact h hgpu

/-- The new index answers the searches. -/
theorem finish_searched (h : GpuConfigured s) : (op.finish s idx).searched = some idx := by
  by_cases hclones : op.clones s
  · simp [Op.finish, FaissSearcher.searched, hclones]
  · have hgpu : s.onGpu = false := by
      rw [← Bool.not_eq_true]
      intro hgpu
      cases op with
      | build => exact hclones (decide_eq_true (h hgpu))
      | load => exact hclones (decide_eq_true (h hgpu))
      | add => exact hclones hgpu
      | remove => exact hclones hgpu
    simp [Op.finish, Op.install, FaissSearcher.searched, hclones, hgpu]

/-! ### Reachable members -/

variable [CommRing F] [LinearOrder F] {faiss : Faiss F}

/-- The searcher after any operations, each of which returned or threw. -/
inductive Reachable (faiss : Faiss F) (cfg : FaissConfig) : FaissSearcher F → Prop where
  | new : Reachable faiss cfg { cfg }
  | ok {s s' : FaissSearcher F} {op : Op F} {fail : Failures} : Reachable faiss cfg s →
      (op.run faiss fail).run s = .ok () s' → Reachable faiss cfg s'
  | throws {s s' : FaissSearcher F} {op : Op F} {fail : Failures} {e : Exn} :
      Reachable faiss cfg s → (op.run faiss fail).run s = .error (.throws e) s' →
      Reachable faiss cfg s'

/-- An operation that throws touches neither the configuration nor the GPU side. -/
theorem op_error_gpu {fail : Failures} {s' : FaissSearcher F} {e : Stop}
    (hrun : (op.run faiss fail).run s = .error e s') :
    s'.cfg = s.cfg ∧ s'.indexGpu = s.indexGpu ∧ s'.onGpu = s.onGpu := by
  rcases op_run_error.1 hrun with ⟨-, rfl⟩ | ⟨idx, _, -, -, -, rfl⟩
  · obtain ⟨d, hd⟩ := assignedEarly_eq s op
    rw [hd]
    exact ⟨rfl, rfl, rfl⟩
  · exact ⟨rfl, rfl, rfl⟩

theorem Reachable.cfg_eq {cfg : FaissConfig} (h : Reachable faiss cfg s) : s.cfg = cfg := by
  induction h with
  | new => rfl
  | ok _ hstep ih =>
    obtain ⟨_, _, _, rfl⟩ := op_run_ok.1 hstep
    simpa using ih
  | throws _ hstep ih => rw [(op_error_gpu hstep).1, ih]

theorem Reachable.gpuConfigured {cfg : FaissConfig} (h : Reachable faiss cfg s) :
    GpuConfigured s := by
  induction h with
  | new => simp [GpuConfigured]
  | ok _ hstep ih =>
    obtain ⟨_, _, _, rfl⟩ := op_run_ok.1 hstep
    exact finish_gpuConfigured ih
  | throws _ hstep ih =>
    obtain ⟨hcfg, _, hgpu⟩ := op_error_gpu hstep
    simpa [GpuConfigured, hcfg, hgpu] using ih

end Steps

end FacePipeline.Indexing
