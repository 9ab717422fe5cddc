import Mathlib.Data.BitVec

/-!
# Bit operators on numbers

The bit operators of a script take numbers, work on their lowest 32 bits and give a
number back: the signed value of the bits, or the unsigned one for `>>>`.  What they
do to the bits does not depend on which of the two a number is (`bits_toInt`,
`bits_toNat`).
-/

namespace NestBase
namespace Lib
namespace NumberBits

/-- The lowest 32 bits of a whole number, in two's complement. -/
def bits (x : Int) : BitVec 32 :=
  BitVec.ofInt 32 x

/-- `a ^ b` -/
def bitXor (a b : Int) : Int :=
  (bits a ^^^ bits b).toInt

/-- `a & b` -/
def bitAnd (a b : Int) : Int :=
  (bits a &&& bits b).toInt

/-- `a >>> count` -/
def shiftRightUnsigned (a : Int) (count : Nat) : Int :=
  (bits a >>> (count % 32)).toNat

/-- A number as an element of a `Uint32Array`. -/
def toUint32 (x : Int) : Int :=
  (bits x).toNat

@[simp]
theorem bits_toInt (b : BitVec 32) : bits b.toInt = b :=
  BitVec.ofInt_toInt

@[simp]
theorem bits_toNat (b : BitVec 32) : bits (b.toNat : Int) = b := by
  unfold bits
  rw [BitVec.ofInt_natCast, BitVec.ofNat_toNat, BitVec.setWidth_eq]

@[simp]
theorem bits_natCast (n : Nat) : bits (n : Int) = BitVec.ofNat 32 n :=
  BitVec.ofInt_natCast 32 n

@[simp]
theorem bits_bitXor (a b : Int) : bits (bitXor a b) = bits a ^^^ bits b :=
  bits_toInt _

@[simp]
theorem bits_bitAnd (a b : Int) : bits (bitAnd a b) = bits a &&& bits b :=
  bits_toInt _

@[simp]
theorem bits_shiftRightUnsigned (a : Int) (count : Nat) :
    bits (shiftRightUnsigned a count) = bits a >>> (count % 32) :=
  bits_toNat _

@[simp]
theorem bits_toUint32 (x : Int) : bits (toUint32 x) = bits x :=
  bits_toNat _

/-- The lowest bit of a number, as a condition. -/
theorem bitAnd_one_ne_zero_iff (x : Int) : bitAnd x 1 ≠ 0 ↔ bits x &&& 1 = 1 := by
  have hlow : bits x &&& 1 = 0 ∨ bits x &&& 1 = 1 := by
    change bits x &&& 1#32 = 0 ∨ bits x &&& 1#32 = 1
    rw [BitVec.and_one_eq_setWidth_ofBool_getLsbD]
    cases (bits x).getLsbD 0
    · exact .inl rfl
    · exact .inr rfl
  have hone : bits 1 = 1 := rfl
  unfold bitAnd
  rw [hone]
  rcases hlow with h | h
  · rw [h]
    decide
  · rw [h]
    decide

/-- A mask of eight bits leaves a byte. -/
theorem bitAnd_byte (x : Int) : bitAnd x 0xff = ((bits x &&& 0xff).toNat : Int) := by
  have hmask : bits 0xff = 0xff := rfl
  have hlt : (bits x &&& 0xff).toNat < 256 := by
    rw [BitVec.toNat_and]
    exact Nat.lt_of_le_of_lt Nat.and_le_right (by decide)
  unfold bitAnd
  rw [hmask, BitVec.toInt_eq_toNat_of_lt (by omega)]

end NumberBits
end Lib
end NestBase
