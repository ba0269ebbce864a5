import Mathlib.Data.Nat.ModEq
import Mathlib.Logic.Function.Basic

/-!
# FNV-1a

The hash takes one byte after the other: the byte is xored into the state, and the state is multiplied by the
prime. With an odd prime each step is injective in the state, and with at least eight bits in the byte. So a
common end neither makes nor undoes a collision (`hash_append_inj`), and two strings that differ in one byte
never collide (`hash_byte_ne`). The low bits of the states are the states of the narrower hash
(`setWidth_hash`), so both hold of a truncated hash as well.
-/

namespace Fnv

variable {w k : ℕ} {prime offset : BitVec w}

def step (prime h : BitVec w) (c : UInt8) : BitVec w :=
  (h ^^^ c.toBitVec.setWidth w) * prime

def hash (prime offset : BitVec w) (bytes : List UInt8) : BitVec w :=
  bytes.foldl (step prime) offset

theorem hash_append (u v : List UInt8) : hash prime offset (u ++ v) = hash prime (hash prime offset u) v :=
  List.foldl_append

theorem hash_cons (c : UInt8) (v : List UInt8) : hash prime offset (c :: v) = hash prime (step prime offset c) v :=
  rfl

/-! ### One step -/

theorem mul_injective (hodd : prime.toNat % 2 = 1) : Function.Injective fun x : BitVec w => x * prime := by
  intro x y hxy
  have hcoprime : Nat.Coprime (2 ^ w) prime.toNat :=
    Nat.Coprime.pow_left w (by rw [Nat.Coprime, Nat.gcd_rec, hodd, Nat.gcd_one_left])
  have hmod : x.toNat * prime.toNat ≡ y.toNat * prime.toNat [MOD 2 ^ w] := by
    have hnat := congrArg BitVec.toNat hxy
    rwa [BitVec.toNat_mul, BitVec.toNat_mul] at hnat
  have hcancel := Nat.ModEq.cancel_right_of_coprime hcoprime hmod
  apply BitVec.eq_of_toNat_eq
  rwa [Nat.ModEq, Nat.mod_eq_of_lt x.isLt, Nat.mod_eq_of_lt y.isLt] at hcancel

theorem step_injective (hodd : prime.toNat % 2 = 1) (c : UInt8) :
    Function.Injective fun h : BitVec w => step prime h c := by
  intro h h' heq
  have hxor := mul_injective hodd heq
  exact BitVec.xor_left_inj _ |>.1 hxor

theorem step_byte_injective (hodd : prime.toNat % 2 = 1) (hw : 8 ≤ w) (h : BitVec w) :
    Function.Injective (step prime h) := by
  intro c c' heq
  have hxor := mul_injective hodd heq
  have hbyte : c.toBitVec.setWidth w = c'.toBitVec.setWidth w := (BitVec.xor_right_inj _).1 hxor
  apply UInt8.toBitVec_inj.1
  apply BitVec.eq_of_toNat_eq
  have hnat := congrArg BitVec.toNat hbyte
  rwa [BitVec.toNat_setWidth_of_le hw, BitVec.toNat_setWidth_of_le hw] at hnat

/-! ### Whole strings -/

theorem hash_injective (hodd : prime.toNat % 2 = 1) (v : List UInt8) :
    Function.Injective fun h : BitVec w => hash prime h v := by
  induction v with
  | nil => exact fun _ _ h => h
  | cons c v ih => exact fun _ _ h => step_injective hodd c (ih h)

theorem hash_append_inj (hodd : prime.toNat % 2 = 1) {u u' v : List UInt8} :
    hash prime offset (u ++ v) = hash prime offset (u' ++ v) ↔ hash prime offset u = hash prime offset u' := by
  rw [hash_append, hash_append]
  exact (hash_injective hodd v).eq_iff

theorem hash_byte_ne (hodd : prime.toNat % 2 = 1) (hw : 8 ≤ w) {u v : List UInt8} {c c' : UInt8} (hne : c ≠ c') :
    hash prime offset (u ++ c :: v) ≠ hash prime offset (u ++ c' :: v) := by
  intro heq
  rw [hash_append, hash_append] at heq
  exact hne (step_byte_injective hodd hw _ (hash_injective hodd v heq))

/-! ### Truncation -/

theorem setWidth_step (hk : k ≤ w) (h : BitVec w) (c : UInt8) :
    (step prime h c).setWidth k = step (prime.setWidth k) (h.setWidth k) c := by
  rw [step, BitVec.setWidth_mul _ _ hk, BitVec.setWidth_xor, step]
  congr 2
  exact BitVec.setWidth_setWidth_of_le _ hk

theorem setWidth_hash (hk : k ≤ w) (bytes : List UInt8) :
    (hash prime offset bytes).setWidth k = hash (prime.setWidth k) (offset.setWidth k) bytes := by
  induction bytes generalizing offset with
  | nil => rfl
  | cons c v ih => rw [hash_cons, ih, setWidth_step hk, hash_cons]

end Fnv
