import Mathlib.Data.List.Basic
import Mathlib.Tactic
import NestBase.Lib.Unicode

/-!
# CRC-32

The checksum shifts a register of 32 bits to the right, bit for bit, and adds the
polynomial whenever a one falls out.  `ofBytes` does so for each byte in turn.

A shift of the register is linear, so the eight shifts of a byte can be looked up for
the low byte of the register and only move the others (`shiftByte_eq`).
-/

namespace NestBase
namespace Lib
namespace Crc32

def polynomial : BitVec 32 := 0xedb88320

/-- One bit falls out of the register. -/
def shiftBit (register : BitVec 32) : BitVec 32 :=
  if register.getLsbD 0 then polynomial ^^^ (register >>> 1) else register >>> 1

/-- Eight bits fall out. -/
def shiftByte (register : BitVec 32) : BitVec 32 :=
  shiftBit^[8] register

def addByte (register : BitVec 32) (byte : UInt8) : BitVec 32 :=
  shiftByte (register ^^^ BitVec.ofNat 32 byte.toNat)

/-- The CRC-32 of some bytes. -/
def ofBytes (bytes : Bytes) : BitVec 32 :=
  bytes.foldl addByte 0xffffffff ^^^ 0xffffffff

/-! ## The shift is linear -/

theorem shiftBit_xor (a b : BitVec 32) : shiftBit (a ^^^ b) = shiftBit a ^^^ shiftBit b := by
  unfold shiftBit
  rw [BitVec.ushiftRight_xor_distrib, BitVec.getLsbD_xor]
  cases a.getLsbD 0 <;> cases b.getLsbD 0
  · rfl
  · simp only [Bool.false_xor, Bool.false_eq_true, if_false, if_true]
    ac_rfl
  · simp only [Bool.true_xor, Bool.not_false, Bool.false_eq_true, if_false, if_true]
    ac_rfl
  · simp only [Bool.xor_self, Bool.false_eq_true, if_false, if_true]
    have htwice : polynomial ^^^ (a >>> 1) ^^^ (polynomial ^^^ (b >>> 1)) =
        polynomial ^^^ polynomial ^^^ ((a >>> 1) ^^^ (b >>> 1)) := by
      ac_rfl
    rw [htwice, BitVec.xor_self, BitVec.zero_xor]

theorem iterate_shiftBit_xor (count : Nat) (a b : BitVec 32) :
    shiftBit^[count] (a ^^^ b) = shiftBit^[count] a ^^^ shiftBit^[count] b := by
  induction count generalizing a b with
  | zero => rfl
  | succ count ih =>
      simp only [Function.iterate_succ_apply]
      rw [shiftBit_xor, ih]

/-- Zeros that fall out only move the others. -/
theorem iterate_shiftBit_of_zeros {register : BitVec 32} {count : Nat}
    (h : ∀ i < count, register.getLsbD i = false) :
    shiftBit^[count] register = register >>> count := by
  induction count with
  | zero => simp
  | succ count ih =>
      rw [Function.iterate_succ_apply', ih fun i hi => h i (by omega), shiftBit]
      have hlow : (register >>> count).getLsbD 0 = false := by
        rw [BitVec.getLsbD_ushiftRight, Nat.add_zero]
        exact h count (by omega)
      rw [hlow]
      simp [BitVec.shiftRight_add]

def lowByte (register : BitVec 32) : BitVec 32 :=
  register &&& 0xff

theorem toNat_lowByte (register : BitVec 32) : (lowByte register).toNat = register.toNat % 256 := by
  rw [lowByte, BitVec.toNat_and]
  exact Nat.and_two_pow_sub_one_eq_mod register.toNat 8

/-- The shifts of the low byte, added to what is above it. -/
theorem shiftByte_eq (register : BitVec 32) :
    shiftByte register = (register >>> 8) ^^^ shiftByte (lowByte register) := by
  have hsplit : register = (register ^^^ lowByte register) ^^^ lowByte register := by
    rw [BitVec.xor_assoc, BitVec.xor_self, BitVec.xor_zero]
  have hbits : ∀ i < 8, (register ^^^ lowByte register).getLsbD i = false := by
    intro i hi
    have hmask : (0xff : BitVec 32).getLsbD i = true := by
      interval_cases i <;> rfl
    rw [BitVec.getLsbD_xor, lowByte, BitVec.getLsbD_and, hmask, Bool.and_true, Bool.xor_self]
  have hshift : (lowByte register) >>> 8 = 0 := by
    apply BitVec.eq_of_toNat_eq
    rw [BitVec.toNat_ushiftRight, toNat_lowByte, Nat.shiftRight_eq_div_pow]
    simp only [BitVec.ofNat_eq_ofNat, BitVec.toNat_ofNat, Nat.zero_mod]
    omega
  have hhigh : shiftBit^[8] (register ^^^ lowByte register) = register >>> 8 := by
    rw [iterate_shiftBit_of_zeros hbits, BitVec.ushiftRight_xor_distrib, hshift]
    simp
  unfold shiftByte
  conv_lhs => rw [hsplit]
  rw [iterate_shiftBit_xor, hhigh]

end Crc32
end Lib
end NestBase
