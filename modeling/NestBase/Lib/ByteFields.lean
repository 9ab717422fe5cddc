import Mathlib.Data.List.Basic
import Mathlib.Tactic
import NestBase.Lib.Unicode

/-!
# Fields of bytes

A number is stored in a field of fixed width, least byte first; what does not fit into
the width is lost, so reading gives the number modulo the width (`readFields_append`).

A buffer is written at offsets and never grows.  Fields that lie one behind the other
are written as one piece (`writeFields_append`).
-/

namespace NestBase
namespace Lib
namespace ByteFields

def littleEndian : Nat → Nat → Bytes
  | 0, _ => []
  | width + 1, value => UInt8.ofNat value :: littleEndian width (value / 256)

def valueOf : Bytes → Nat
  | [] => 0
  | byte :: rest => byte.toNat + 256 * valueOf rest

@[simp] theorem length_littleEndian (width value : Nat) :
    (littleEndian width value).length = width := by
  induction width generalizing value with
  | zero => rfl
  | succ width ih => simp [littleEndian, ih]

theorem valueOf_littleEndian (width value : Nat) :
    valueOf (littleEndian width value) = value % 256 ^ width := by
  induction width generalizing value with
  | zero => simp [littleEndian, valueOf, Nat.mod_one]
  | succ width ih =>
      have hbyte : (UInt8.ofNat value).toNat = value % 256 := by simp
      rw [littleEndian, valueOf, ih, hbyte, Nat.pow_succ', Nat.mod_mul]

/-! ## Fields -/

structure Field where
  width : Nat
  value : Nat
deriving DecidableEq

def u16 (value : Nat) : Field where
  width := 2
  value := value

def u32 (value : Nat) : Field where
  width := 4
  value := value

def Field.bytes (field : Field) : Bytes :=
  littleEndian field.width field.value

/-- The number that is read back from a field. -/
def Field.stored (field : Field) : Nat :=
  field.value % 256 ^ field.width

def bytesOf (fields : List Field) : Bytes :=
  fields.flatMap Field.bytes

def widthOf (fields : List Field) : Nat :=
  (fields.map Field.width).sum

@[simp] theorem length_bytes (field : Field) : field.bytes.length = field.width :=
  length_littleEndian _ _

@[simp] theorem length_bytesOf (fields : List Field) : (bytesOf fields).length = widthOf fields := by
  induction fields with
  | nil => rfl
  | cons field fields ih => simp_all [bytesOf, widthOf]

/-- Numbers of some widths at the head of a text, and the rest of it. -/
def readFields : List Nat → Bytes → Option (List Nat × Bytes)
  | [], bytes => some ([], bytes)
  | width :: widths, bytes =>
      if bytes.length < width then none
      else
        (readFields widths (bytes.drop width)).map fun (values, rest) =>
          (valueOf (bytes.take width) :: values, rest)

/-- Fields are read back up to their widths. -/
theorem readFields_append (fields : List Field) (rest : Bytes) :
    readFields (fields.map Field.width) (bytesOf fields ++ rest) =
      some (fields.map Field.stored, rest) := by
  induction fields with
  | nil => rfl
  | cons field fields ih =>
      have hsplit : bytesOf (field :: fields) ++ rest = field.bytes ++ (bytesOf fields ++ rest) := by
        simp [bytesOf]
      have htake : (field.bytes ++ (bytesOf fields ++ rest)).take field.width = field.bytes :=
        List.take_left' (length_bytes field)
      have hdrop : (field.bytes ++ (bytesOf fields ++ rest)).drop field.width =
          bytesOf fields ++ rest :=
        List.drop_left' (length_bytes field)
      rw [hsplit, List.map_cons, readFields, htake, hdrop, ih, if_neg (by simp)]
      simp [Field.bytes, Field.stored, valueOf_littleEndian]

/-! ## Writing at offsets -/

/-- Write into a buffer; none when the bytes would end behind it. -/
def writeAt (buffer : Bytes) (offset : Nat) (bytes : Bytes) : Option Bytes :=
  if offset + bytes.length ≤ buffer.length then
    some (buffer.take offset ++ bytes ++ buffer.drop (offset + bytes.length))
  else none

/-- Fields at offsets from a cursor. -/
def writeFields (buffer : Bytes) (cursor : Nat) (fields : List (Nat × Field)) : Option Bytes :=
  fields.foldlM (fun buffer field => writeAt buffer (cursor + field.1) field.2.bytes) buffer

/-- Every field begins where the one before it ends. -/
def Contiguous : Nat → List (Nat × Field) → Prop
  | _, [] => True
  | start, (offset, field) :: rest => offset = start ∧ Contiguous (start + field.width) rest

theorem writeAt_append {written rest bytes : Bytes} {offset : Nat}
    (hoffset : offset = written.length) (hfits : bytes.length ≤ rest.length) :
    writeAt (written ++ rest) offset bytes =
      some (written ++ bytes ++ rest.drop bytes.length) := by
  subst hoffset
  rw [writeAt, if_pos (by rw [List.length_append]; omega), List.take_left, List.drop_append]
  simp

theorem writeFields_append {written rest : Bytes} {cursor start : Nat}
    {fields : List (Nat × Field)}
    (hcontiguous : Contiguous start fields)
    (hcursor : cursor + start = written.length)
    (hfits : widthOf (fields.map Prod.snd) ≤ rest.length) :
    writeFields (written ++ rest) cursor fields =
      some (written ++ bytesOf (fields.map Prod.snd) ++
        rest.drop (widthOf (fields.map Prod.snd))) := by
  induction fields generalizing written rest start with
  | nil => simp [writeFields, bytesOf, widthOf]
  | cons field fields ih =>
      obtain ⟨offset, field⟩ := field
      obtain ⟨rfl, hrest⟩ := hcontiguous
      have hwidth : widthOf (field :: fields.map Prod.snd) =
          field.width + widthOf (fields.map Prod.snd) := by
        simp [widthOf]
      rw [List.map_cons, hwidth] at hfits
      have hwrite := writeAt_append hcursor
        (by rw [length_bytes]; omega : field.bytes.length ≤ rest.length)
      have hnext := @ih (written ++ field.bytes) (rest.drop field.width) (offset + field.width) hrest
        (by rw [List.length_append, length_bytes]; omega)
        (by rw [List.length_drop]; omega)
      rw [writeFields, List.foldlM_cons, hwrite, length_bytes]
      refine Eq.trans hnext ?_
      rw [List.map_cons, hwidth, List.drop_drop]
      simp [bytesOf]

end ByteFields
end Lib
end NestBase
