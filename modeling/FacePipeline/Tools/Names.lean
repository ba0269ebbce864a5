import FacePipeline.Lib.Fnv
import Mathlib.Data.List.Basic

/-!
# Names of files and people

A path is its directories and its file name. `is_image` asks for one of four extensions behind a stem that is
not empty (`isImage_iff`). A person's id is the hash of the name: FNV-1a with the top bit cleared, which is
FNV-1a of 63 bits, so ids are not negative, and a search drops none of them.
-/

namespace FacePipeline.Tools

/-- A component of a path, as the bytes of a `std::string`. -/
abbrev Name := List UInt8

/-- A string literal of the source. -/
def ascii (s : String) : Name :=
  s.toList.map fun c => c.toNat.toUInt8

def dot : UInt8 := 46

structure Path where
  /-- The components before the file name. -/
  parents : List Name
  filename : Name
  deriving DecidableEq, Repr

/-- `path::extension`: from the last dot on, unless the name begins with it. -/
def Path.extension (p : Path) : Name :=
  let tail := p.filename.reverse.takeWhile (· ≠ dot)
  let stem := (p.filename.reverse.dropWhile (· ≠ dot)).tail
  if p.filename = [dot, dot] ∨ stem = [] then [] else dot :: tail.reverse

def kImageExt : List Name :=
  [ascii ".jpg", ascii ".jpeg", ascii ".png", ascii ".bmp"]

def Path.isImage (p : Path) : Bool :=
  kImageExt.any fun e => p.extension = e

/-- `parent_path().filename()` -/
def Path.person (p : Path) : Name :=
  p.parents.getLast?.getD []

/-- FNV-1a 64-bit hash with the high bit cleared. -/
def hashId (s : Name) : Int :=
  let h := s.foldl (fun (h : UInt64) c => (h ^^^ c.toUInt64) * 1099511628211) 14695981039346656037
  (h &&& 0x7FFFFFFFFFFFFFFF).toInt64.toInt

/-! ### Images -/

/-- An extension that has no other dot is found behind any stem. -/
theorem extension_append {parents : List Name} {stem tail : Name} (hstem : stem ≠ []) (htail : dot ∉ tail)
    (hne : tail ≠ []) : (Path.mk parents (stem ++ dot :: tail)).extension = dot :: tail := by
  have hrev : (stem ++ dot :: tail).reverse = tail.reverse ++ dot :: stem.reverse := by simp
  have hfree : ∀ c ∈ tail.reverse, (decide (c ≠ dot)) = true := fun c hc => by
    have hmem := List.mem_reverse.1 hc
    simpa using fun heq : c = dot => htail (heq ▸ hmem)
  have htake : (stem ++ dot :: tail).reverse.takeWhile (· ≠ dot) = tail.reverse := by
    rw [hrev, List.takeWhile_append_of_pos hfree]
    simp
  have hdrop : (stem ++ dot :: tail).reverse.dropWhile (· ≠ dot) = dot :: stem.reverse := by
    rw [hrev, List.dropWhile_append_of_pos hfree]
    simp
  simp only [Path.extension, htake, hdrop, List.tail_cons, List.reverse_reverse]
  rw [if_neg]
  rintro (hdots | hnil)
  · have hlength := congrArg List.length hdots
    have hstemLength := List.length_pos_iff.2 hstem
    have htailLength := List.length_pos_iff.2 hne
    simp at hlength
    omega
  · exact hstem (List.reverse_eq_nil_iff.1 hnil)

/-- The extension is a part of the name. -/
theorem extension_eq {p : Path} {c : UInt8} {tail : Name} (h : p.extension = c :: tail) :
    ∃ stem, stem ≠ [] ∧ p.filename = stem ++ c :: tail := by
  rw [Path.extension] at h
  split_ifs at h with hnone
  obtain ⟨rfl, rfl⟩ := List.cons.inj h
  have hstem := not_or.1 hnone |>.2
  have hsplit := List.takeWhile_append_dropWhile (p := (· ≠ dot)) (l := p.filename.reverse)
  have hhead := List.head?_dropWhile_not (· ≠ dot) p.filename.reverse
  cases hdrop : p.filename.reverse.dropWhile (· ≠ dot) with
  | nil =>
    rw [hdrop] at hstem
    exact absurd rfl hstem
  | cons d rest =>
    rw [hdrop] at hstem hsplit hhead
    obtain rfl : d = dot := by simpa using hhead
    refine ⟨rest.reverse, fun hnil => hstem (List.reverse_eq_nil_iff.1 hnil), ?_⟩
    have hrev := congrArg List.reverse hsplit
    rw [List.reverse_reverse, List.reverse_append, List.reverse_cons, List.append_assoc] at hrev
    exact hrev.symm

theorem isImage_iff (p : Path) :
    p.isImage = true ↔ ∃ stem e, stem ≠ [] ∧ e ∈ kImageExt ∧ p.filename = stem ++ e := by
  have hext : ∀ e ∈ kImageExt, e = dot :: e.tail ∧ dot ∉ e.tail ∧ e.tail ≠ [] := by decide
  rw [Path.isImage, List.any_eq_true]
  constructor
  · rintro ⟨e, he, heq⟩
    have heq : p.extension = dot :: e.tail := (of_decide_eq_true heq).trans (hext e he).1
    obtain ⟨stem, hstem, hname⟩ := extension_eq heq
    exact ⟨stem, e, hstem, he, hname.trans (congrArg _ (hext e he).1.symm)⟩
  · rintro ⟨stem, e, hstem, he, hname⟩
    obtain ⟨hdot, hfree, hne⟩ := hext e he
    obtain ⟨parents, filename⟩ := p
    obtain rfl : filename = stem ++ dot :: e.tail := hname.trans (congrArg _ hdot)
    refine ⟨e, he, decide_eq_true ?_⟩
    exact (extension_append hstem hfree hne).trans hdot.symm

/-! ### Ids -/

def prime63 : BitVec 63 := 1099511628211

def offset63 : BitVec 63 := (14695981039346656037 : BitVec 64).setWidth 63

theorem foldl_toBitVec (s : Name) (h : UInt64) :
    (s.foldl (fun (h : UInt64) c => (h ^^^ c.toUInt64) * 1099511628211) h).toBitVec =
      Fnv.hash 1099511628211 h.toBitVec s := by
  induction s generalizing h with
  | nil => rfl
  | cons c s ih => exact ih _

theorem toInt_clearTop (h : UInt64) :
    (h &&& 0x7FFFFFFFFFFFFFFF).toInt64.toInt = (h.toBitVec.setWidth 63).toNat := by
  have hmask : (h.toBitVec &&& 0x7FFFFFFFFFFFFFFF).toNat = h.toBitVec.toNat % 2 ^ 63 := by
    rw [BitVec.toNat_and]
    exact Nat.and_two_pow_sub_one_eq_mod h.toBitVec.toNat 63
  have hlt : h.toBitVec.toNat % 2 ^ 63 < 2 ^ 63 := Nat.mod_lt _ (by decide)
  show (h.toBitVec &&& 0x7FFFFFFFFFFFFFFF).toInt = _
  rw [BitVec.toInt_eq_toNat_of_lt (by omega), hmask, BitVec.toNat_setWidth]

/-- Clearing the top bit of the hash leaves the hash of 63 bits. -/
theorem hashId_eq (s : Name) : hashId s = (Fnv.hash prime63 offset63 s).toNat := by
  rw [hashId, toInt_clearTop, foldl_toBitVec, Fnv.setWidth_hash (by decide)]
  rfl

theorem hashId_nonneg (s : Name) : 0 ≤ hashId s := by
  rw [hashId_eq]
  exact Int.natCast_nonneg _

theorem hashId_inj {s t : Name} :
    hashId s = hashId t ↔ Fnv.hash prime63 offset63 s = Fnv.hash prime63 offset63 t := by
  rw [hashId_eq, hashId_eq, Int.natCast_inj, BitVec.toNat_inj]

/-- **When names collide**: a common end plays no part in it, and names that differ in one byte do not. -/
theorem hashId_collisions (u u' v : Name) :
    (hashId (u ++ v) = hashId (u' ++ v) ↔ hashId u = hashId u') ∧
      ∀ c c' : UInt8, c ≠ c' → hashId (u ++ c :: v) ≠ hashId (u ++ c' :: v) := by
  refine ⟨?_, fun c c' hne heq => ?_⟩
  · rw [hashId_inj, hashId_inj]
    exact Fnv.hash_append_inj (by decide)
  · exact Fnv.hash_byte_ne (by decide) (by decide) hne (hashId_inj.1 heq)

/-- The published test vector of FNV-1a for `a`, less its top bit. -/
example : hashId (ascii "a") = 0x2f63dc4c8601ec8c := by decide

example : (Path.mk [ascii "lfw", ascii "Ada"] (ascii "Ada.1.jpg")).isImage = true := by decide

end FacePipeline.Tools
