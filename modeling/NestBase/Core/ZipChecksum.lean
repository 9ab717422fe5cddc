import NestBase.Core.ZipBuilder
import NestBase.Lib.NumberBits

/-!
# The checksum of the archive, on numbers

`crc32` and its table as the script computes them: the register is a number, signed
behind `^` and unsigned behind `>>>`.  The bits of the register go through the loop of
`ZipBuilder`, so the result is the checksum of the bytes as an unsigned number
(`crc32_eq_toNat_ofBytes`).
-/

namespace NestBase
namespace Core
namespace ZipChecksum

open Lib
open Lib.NumberBits

/-- A turn of the inner loop over an entry of the table. -/
def tableTurn (c : Int) : Int :=
  if bitAnd c 1 ≠ 0 then bitXor 0xedb88320 (shiftRightUnsigned c 1) else shiftRightUnsigned c 1

/-- `table[n]` -/
def tableEntry (n : Nat) : Int :=
  toUint32 ((List.range 8).foldl (fun c _ => tableTurn c) n)

def CRC_TABLE : List Int :=
  (List.range 256).map tableEntry

/-- `CRC_TABLE[idx] ?? 0` -/
def entryAt (idx : Int) : Int :=
  if idx < 0 then 0 else CRC_TABLE[idx.toNat]?.getD 0

/-- The body of the loop over the bytes. -/
def crcStep (crc : Int) (byte : UInt8) : Int :=
  let idx := bitAnd (bitXor crc byte.toNat) 0xff
  bitXor (shiftRightUnsigned crc 8) (entryAt idx)

def crc32 (bytes : Bytes) : Int :=
  shiftRightUnsigned (bitXor (bytes.foldl crcStep 0xffffffff) 0xffffffff) 0

/-! ## The bits of the register -/

theorem bits_tableTurn (c : Int) :
    bits (tableTurn c) =
      if bits c &&& 1 = 1 then (0xedb88320 : BitVec 32) ^^^ (bits c >>> 1) else bits c >>> 1 := by
  have hpolynomial : bits 0xedb88320 = 0xedb88320 := rfl
  unfold tableTurn
  by_cases h : bits c &&& 1 = 1
  · rw [if_pos ((bitAnd_one_ne_zero_iff c).mpr h), if_pos h, bits_bitXor,
      bits_shiftRightUnsigned, hpolynomial]
  · rw [if_neg (mt (bitAnd_one_ne_zero_iff c).mp h), if_neg h, bits_shiftRightUnsigned]

theorem bits_foldl_tableTurn (turns : List Nat) (c : Int) :
    bits (turns.foldl (fun c _ => tableTurn c) c) =
      turns.foldl
        (fun (c : BitVec 32) _ =>
          if c &&& 1 = 1 then (0xedb88320 : BitVec 32) ^^^ (c >>> 1) else c >>> 1)
        (bits c) := by
  induction turns generalizing c with
  | nil => rfl
  | cons turn turns ih =>
      rw [List.foldl_cons, List.foldl_cons, ih, bits_tableTurn]

theorem bits_tableEntry (n : Nat) : bits (tableEntry n) = ZipBuilder.tableEntry n := by
  rw [tableEntry, bits_toUint32, bits_foldl_tableTurn, bits_natCast, ZipBuilder.tableEntry]

/-- The lookup of a byte finds the entry with the same bits. -/
theorem bits_entryAt {n : Nat} (h : n < 256) :
    bits (entryAt n) = ZipBuilder.CRC_TABLE.getD n 0 := by
  have hnumber : CRC_TABLE[n]?.getD 0 = tableEntry n := by
    rw [CRC_TABLE, List.getElem?_map, List.getElem?_range h]
    rfl
  have hbits : ZipBuilder.CRC_TABLE.getD n 0 = ZipBuilder.tableEntry n := by
    rw [ZipBuilder.CRC_TABLE, List.getD_eq_getElem?_getD, List.getElem?_map,
      List.getElem?_range h]
    rfl
  rw [entryAt, if_neg (by omega), Int.toNat_natCast, hnumber, hbits, bits_tableEntry]

/-- One byte does to the bits what it does in `ZipBuilder`. -/
theorem bits_crcStep (crc : Int) (byte : UInt8) :
    bits (crcStep crc byte) = ZipBuilder.crcStep (bits crc) byte := by
  have hlt : ((bits crc ^^^ BitVec.ofNat 32 byte.toNat) &&& 0xff).toNat < 256 := by
    rw [BitVec.toNat_and]
    exact Nat.lt_of_le_of_lt Nat.and_le_right (by decide)
  unfold crcStep ZipBuilder.crcStep
  dsimp only
  rw [bits_bitXor, bits_shiftRightUnsigned, bitAnd_byte, bits_bitXor, bits_natCast,
    bits_entryAt hlt]

/-- The loop over the bytes. -/
theorem bits_foldl_crcStep (bytes : Bytes) (crc : Int) :
    bits (bytes.foldl crcStep crc) = bytes.foldl ZipBuilder.crcStep (bits crc) := by
  induction bytes generalizing crc with
  | nil => rfl
  | cons byte bytes ih => rw [List.foldl_cons, List.foldl_cons, ih, bits_crcStep]

/-- The table-driven loop on numbers gives the bit-by-bit checksum, as an unsigned number. -/
theorem crc32_eq_toNat_ofBytes (bytes : Bytes) :
    crc32 bytes = ((Crc32.ofBytes bytes).toNat : Int) := by
  have hstart : bits 0xffffffff = 0xffffffff := rfl
  have hregister :
      bits (bitXor (bytes.foldl crcStep 0xffffffff) 0xffffffff) = Crc32.ofBytes bytes := by
    rw [bits_bitXor, bits_foldl_crcStep, hstart, ← ZipBuilder.crc32_eq, ZipBuilder.crc32]
  rw [crc32, shiftRightUnsigned, hregister]
  rfl

end ZipChecksum
end Core
end NestBase
