import NestBase.Lib.ByteFields
import NestBase.Lib.Crc32

/-!
# Writing zip archives

`buildZipArchive` plans the entries, sums up the sizes of the parts and writes them
into a buffer of this length, part by part at a cursor.  The cursor meets the sums, so
every write fits and the archive is the records one behind the other
(`buildZipArchive_eq`): the local header of each entry with its bytes, the headers of
the central directory, and the record that ends it.
-/

namespace NestBase
namespace Core
namespace ZipBuilder

open Lib
open Lib.ByteFields

structure ZipEntryInput where
  filename : String
  bytes : Bytes
deriving DecidableEq

structure ZipEntryPlan where
  filename : String
  filenameBytes : Bytes
  bytes : Bytes
  crc32 : BitVec 32
  localHeaderOffset : Nat

def SIG_LFH : Nat := 0x04034b50
def SIG_CDH : Nat := 0x02014b50
def SIG_EOCD : Nat := 0x06054b50
def ZIP_VERSION : Nat := 20
def FLAG_UTF8 : Nat := 0x0800
def METHOD_STORED : Nat := 0

def dosTime : Nat := 0

/-- `(0 << 9) | (1 << 5) | 1` -/
def dosDate : Nat := 33

/-! ## The checksum -/

/-- An entry of the table: eight turns of the inner loop. -/
def tableEntry (n : Nat) : BitVec 32 :=
  (List.range 8).foldl
    (fun c _ => if c &&& 1 = 1 then (0xedb88320 : BitVec 32) ^^^ (c >>> 1) else c >>> 1)
    (BitVec.ofNat 32 n)

def CRC_TABLE : List (BitVec 32) :=
  (List.range 256).map tableEntry

/-- The body of the loop over the bytes. -/
def crcStep (crc : BitVec 32) (byte : UInt8) : BitVec 32 :=
  let idx := (crc ^^^ BitVec.ofNat 32 byte.toNat) &&& 0xff
  (crc >>> 8) ^^^ CRC_TABLE.getD idx.toNat 0

def crc32 (bytes : Bytes) : BitVec 32 :=
  bytes.foldl crcStep 0xffffffff ^^^ 0xffffffff

theorem tableEntry_eq (n : Nat) : tableEntry n = Crc32.shiftByte (BitVec.ofNat 32 n) := by
  have hbit : ∀ c : BitVec 32,
      (if c &&& 1 = 1 then (0xedb88320 : BitVec 32) ^^^ (c >>> 1) else c >>> 1) =
        Crc32.shiftBit c := by
    intro c
    have hlow : c &&& 1 = 1 ↔ c.getLsbD 0 = true := by
      change c &&& 1#32 = 1#32 ↔ _
      rw [BitVec.and_one_eq_setWidth_ofBool_getLsbD]
      cases c.getLsbD 0 <;> decide
    by_cases h : c.getLsbD 0 = true
    · rw [if_pos (hlow.mpr h), Crc32.shiftBit, if_pos h, Crc32.polynomial]
    · rw [if_neg (mt hlow.mp h), Crc32.shiftBit, if_neg h]
  unfold tableEntry
  simp only [hbit]
  rfl

/-- The loop over the bytes with the table gives the checksum. -/
theorem crc32_eq (bytes : Bytes) : crc32 bytes = Crc32.ofBytes bytes := by
  have hstep : crcStep = Crc32.addByte := by
    funext crc byte
    have hbyte : BitVec.ofNat 32 byte.toNat >>> 8 = 0 := by
      apply BitVec.eq_of_toNat_eq
      have hlt := byte.toNat_lt
      simp only [BitVec.toNat_ushiftRight, BitVec.toNat_ofNat, Nat.shiftRight_eq_div_pow,
        BitVec.ofNat_eq_ofNat, Nat.zero_mod]
      omega
    rw [Crc32.addByte, Crc32.shiftByte_eq, BitVec.ushiftRight_xor_distrib, hbyte]
    have hentry : CRC_TABLE.getD (Crc32.lowByte (crc ^^^ BitVec.ofNat 32 byte.toNat)).toNat 0 =
        Crc32.shiftByte (Crc32.lowByte (crc ^^^ BitVec.ofNat 32 byte.toNat)) := by
      have hlt : (Crc32.lowByte (crc ^^^ BitVec.ofNat 32 byte.toNat)).toNat < 256 := by
        rw [Crc32.toNat_lowByte]
        omega
      rw [CRC_TABLE, List.getD_eq_getElem?_getD, List.getElem?_map, List.getElem?_range hlt,
        Option.map_some, Option.getD_some, tableEntry_eq, BitVec.ofNat_toNat, BitVec.setWidth_eq]
    rw [crcStep, ← hentry]
    simp [Crc32.lowByte]
  rw [crc32, Crc32.ofBytes, hstep]

/-- The check value of the checksum: that of the digits 1 to 9. -/
example : crc32 [49, 50, 51, 52, 53, 54, 55, 56, 57] = 0xcbf43926 := by decide +kernel

/-! ## The archive -/

/-- `encoder.encode(filename)` -/
def encodeName (filename : String) : Bytes :=
  Unicode.utf8 filename.toList

def lfhSize (entry : ZipEntryInput) : Nat :=
  30 + (encodeName entry.filename).length + entry.bytes.length

/-- The plans of the entries, the first of which begins at the running offset. -/
def planEntries : Nat → List ZipEntryInput → List ZipEntryPlan
  | _, [] => []
  | runningOffset, entry :: entries =>
      { filename := entry.filename
        filenameBytes := encodeName entry.filename
        bytes := entry.bytes
        crc32 := crc32 entry.bytes
        localHeaderOffset := runningOffset } ::
      planEntries (runningOffset + lfhSize entry) entries

def localTotal (entries : List ZipEntryInput) : Nat :=
  (entries.map lfhSize).sum

def cdSize (plans : List ZipEntryPlan) : Nat :=
  (plans.map fun plan => 46 + plan.filenameBytes.length).sum

def eocdSize : Nat := 22

def localHeader (plan : ZipEntryPlan) : List (Nat × Field) :=
  [(0, u32 SIG_LFH), (4, u16 ZIP_VERSION), (6, u16 FLAG_UTF8), (8, u16 METHOD_STORED),
    (10, u16 dosTime), (12, u16 dosDate), (14, u32 plan.crc32.toNat),
    (18, u32 plan.bytes.length), (22, u32 plan.bytes.length),
    (26, u16 plan.filenameBytes.length), (28, u16 0)]

def centralHeader (plan : ZipEntryPlan) : List (Nat × Field) :=
  [(0, u32 SIG_CDH), (4, u16 ZIP_VERSION), (6, u16 ZIP_VERSION), (8, u16 FLAG_UTF8),
    (10, u16 METHOD_STORED), (12, u16 dosTime), (14, u16 dosDate), (16, u32 plan.crc32.toNat),
    (20, u32 plan.bytes.length), (24, u32 plan.bytes.length),
    (28, u16 plan.filenameBytes.length), (30, u16 0), (32, u16 0), (34, u16 0), (36, u16 0),
    (38, u32 0), (42, u32 plan.localHeaderOffset)]

def endOfCentralDirectory (count size start : Nat) : List (Nat × Field) :=
  [(0, u32 SIG_EOCD), (4, u16 0), (6, u16 0), (8, u16 count), (10, u16 count), (12, u32 size),
    (16, u32 start), (20, u16 0)]

/-- The buffer and the place of the next write. -/
structure Output where
  buffer : Bytes
  cursor : Nat
deriving DecidableEq

/-- `buffer.set(bytes, cursor)` -/
def Output.append (output : Output) (bytes : Bytes) : Option Output :=
  (writeAt output.buffer output.cursor bytes).map fun buffer =>
    { buffer := buffer, cursor := output.cursor + bytes.length }

/-- The fields of a header at the cursor, which goes behind them. -/
def Output.header (output : Output) (fields : List (Nat × Field)) (size : Nat) : Option Output :=
  (writeFields output.buffer output.cursor fields).map fun buffer =>
    { buffer := buffer, cursor := output.cursor + size }

def writeLocal (output : Output) (plan : ZipEntryPlan) : Option Output := do
  let output ← output.header (localHeader plan) 30
  let output ← output.append plan.filenameBytes
  output.append plan.bytes

def writeCentral (output : Output) (plan : ZipEntryPlan) : Option Output := do
  let output ← output.header (centralHeader plan) 46
  output.append plan.filenameBytes

/-- The archive; none when the engine has no array of the length. -/
def buildZipArchive (maxLength : Nat) (entries : List ZipEntryInput) : Option Bytes :=
  let plans := planEntries 0 entries
  let total := localTotal entries + cdSize plans + eocdSize
  if maxLength < total then none
  else do
    let output ← plans.foldlM writeLocal { buffer := List.replicate total 0, cursor := 0 }
    let cdStart := output.cursor
    let output ← plans.foldlM writeCentral output
    writeFields output.buffer output.cursor
      (endOfCentralDirectory plans.length (cdSize plans) cdStart)

/-! ## The records of an archive -/

def fieldsOf (fields : List (Nat × Field)) : List Field :=
  fields.map Prod.snd

def localRecord (plan : ZipEntryPlan) : Bytes :=
  bytesOf (fieldsOf (localHeader plan)) ++ plan.filenameBytes ++ plan.bytes

def centralRecord (plan : ZipEntryPlan) : Bytes :=
  bytesOf (fieldsOf (centralHeader plan)) ++ plan.filenameBytes

def endRecord (plans : List ZipEntryPlan) (start : Nat) : Bytes :=
  bytesOf (fieldsOf (endOfCentralDirectory plans.length (cdSize plans) start))

/-- The records one behind the other. -/
def archiveOf (entries : List ZipEntryInput) : Bytes :=
  (planEntries 0 entries).flatMap localRecord ++ (planEntries 0 entries).flatMap centralRecord ++
    endRecord (planEntries 0 entries) (localTotal entries)

def totalLength (entries : List ZipEntryInput) : Nat :=
  localTotal entries + cdSize (planEntries 0 entries) + eocdSize

theorem widthOf_localHeader (plan : ZipEntryPlan) : widthOf (fieldsOf (localHeader plan)) = 30 := by
  simp [fieldsOf, localHeader, widthOf, u16, u32]

theorem widthOf_centralHeader (plan : ZipEntryPlan) :
    widthOf (fieldsOf (centralHeader plan)) = 46 := by
  simp [fieldsOf, centralHeader, widthOf, u16, u32]

theorem widthOf_endOfCentralDirectory (count size start : Nat) :
    widthOf (fieldsOf (endOfCentralDirectory count size start)) = 22 := by
  simp [fieldsOf, endOfCentralDirectory, widthOf, u16, u32]

theorem length_localRecord (plan : ZipEntryPlan) :
    (localRecord plan).length = 30 + plan.filenameBytes.length + plan.bytes.length := by
  rw [localRecord, List.length_append, List.length_append, length_bytesOf, widthOf_localHeader]

theorem length_centralRecord (plan : ZipEntryPlan) :
    (centralRecord plan).length = 46 + plan.filenameBytes.length := by
  rw [centralRecord, List.length_append, length_bytesOf, widthOf_centralHeader]

theorem length_endRecord (plans : List ZipEntryPlan) (start : Nat) :
    (endRecord plans start).length = 22 := by
  rw [endRecord, length_bytesOf, widthOf_endOfCentralDirectory]

theorem length_localRecords (offset : Nat) (entries : List ZipEntryInput) :
    ((planEntries offset entries).flatMap localRecord).length = localTotal entries := by
  induction entries generalizing offset with
  | nil => rfl
  | cons entry entries ih =>
      rw [planEntries, List.flatMap_cons, List.length_append, length_localRecord, ih]
      simp [localTotal, lfhSize]

theorem length_centralRecords (plans : List ZipEntryPlan) :
    (plans.flatMap centralRecord).length = cdSize plans := by
  induction plans with
  | nil => rfl
  | cons plan plans ih =>
      rw [List.flatMap_cons, List.length_append, length_centralRecord, ih]
      simp [cdSize]

theorem length_planEntries (offset : Nat) (entries : List ZipEntryInput) :
    (planEntries offset entries).length = entries.length := by
  induction entries generalizing offset with
  | nil => rfl
  | cons entry entries ih => rw [planEntries, List.length_cons, ih, List.length_cons]

/-! ## What the writes leave in the buffer -/

/-- The bytes so far, with the rest of the buffer behind them. -/
structure Written (written rest : Bytes) (output : Output) : Prop where
  buffer : output.buffer = written ++ rest
  cursor : output.cursor = written.length

theorem append_written {written rest : Bytes} {output : Output} (bytes : Bytes)
    (h : Written written rest output) (hfits : bytes.length ≤ rest.length) :
    ∃ next, output.append bytes = some next ∧
      Written (written ++ bytes) (rest.drop bytes.length) next := by
  rw [Output.append, h.buffer, writeAt_append h.cursor hfits]
  exact ⟨_, rfl, rfl, by rw [h.cursor, List.length_append]⟩

theorem header_written {written rest : Bytes} {output : Output} {fields : List (Nat × Field)}
    {size : Nat} (hcontiguous : Contiguous 0 fields) (hsize : widthOf (fieldsOf fields) = size)
    (h : Written written rest output) (hfits : size ≤ rest.length) :
    ∃ next, output.header fields size = some next ∧
      Written (written ++ bytesOf (fieldsOf fields)) (rest.drop size) next := by
  subst hsize
  rw [Output.header, h.buffer, writeFields_append hcontiguous h.cursor hfits]
  exact ⟨_, rfl, rfl, by rw [h.cursor, List.length_append, length_bytesOf]⟩

theorem writeLocal_written {written rest : Bytes} {output : Output} (plan : ZipEntryPlan)
    (h : Written written rest output) (hfits : (localRecord plan).length ≤ rest.length) :
    ∃ next, writeLocal output plan = some next ∧
      Written (written ++ localRecord plan) (rest.drop (localRecord plan).length) next := by
  rw [length_localRecord] at hfits ⊢
  have hcontiguous : Contiguous 0 (localHeader plan) := by
    simp [localHeader, Contiguous, u16, u32]
  obtain ⟨first, hfirst, hwritten⟩ :=
    header_written hcontiguous (widthOf_localHeader plan) h (by omega)
  obtain ⟨second, hsecond, hwritten⟩ :=
    append_written plan.filenameBytes hwritten (by rw [List.length_drop]; omega)
  obtain ⟨third, hthird, hwritten⟩ :=
    append_written plan.bytes hwritten
      (by rw [List.length_drop, List.length_drop]; omega)
  refine ⟨third, ?_, ?_⟩
  · rw [writeLocal, hfirst, Option.bind_eq_bind, Option.bind_some, hsecond, Option.bind_some,
      hthird]
  · rw [List.drop_drop, List.drop_drop, List.append_assoc written, List.append_assoc written,
      ← Nat.add_assoc] at hwritten
    exact hwritten

theorem writeCentral_written {written rest : Bytes} {output : Output} (plan : ZipEntryPlan)
    (h : Written written rest output) (hfits : (centralRecord plan).length ≤ rest.length) :
    ∃ next, writeCentral output plan = some next ∧
      Written (written ++ centralRecord plan) (rest.drop (centralRecord plan).length) next := by
  rw [length_centralRecord] at hfits ⊢
  have hcontiguous : Contiguous 0 (centralHeader plan) := by
    simp [centralHeader, Contiguous, u16, u32]
  obtain ⟨first, hfirst, hwritten⟩ :=
    header_written hcontiguous (widthOf_centralHeader plan) h (by omega)
  obtain ⟨second, hsecond, hwritten⟩ :=
    append_written plan.filenameBytes hwritten (by rw [List.length_drop]; omega)
  refine ⟨second, ?_, ?_⟩
  · rw [writeCentral, hfirst, Option.bind_eq_bind, Option.bind_some, hsecond]
  · rw [List.drop_drop, List.append_assoc written] at hwritten
    exact hwritten

/-- A loop that writes one record for each plan. -/
theorem foldlM_written {write : Output → ZipEntryPlan → Option Output}
    {record : ZipEntryPlan → Bytes}
    (hwrite : ∀ plan written rest output, Written written rest output →
      (record plan).length ≤ rest.length →
        ∃ next, write output plan = some next ∧
          Written (written ++ record plan) (rest.drop (record plan).length) next)
    (plans : List ZipEntryPlan) {written rest : Bytes} {output : Output}
    (h : Written written rest output) (hfits : (plans.flatMap record).length ≤ rest.length) :
    ∃ last, plans.foldlM write output = some last ∧
      Written (written ++ plans.flatMap record) (rest.drop (plans.flatMap record).length) last := by
  induction plans generalizing written rest output with
  | nil => exact ⟨output, rfl, by simpa using h⟩
  | cons plan plans ih =>
      rw [List.flatMap_cons, List.length_append] at hfits ⊢
      obtain ⟨next, hnext, hwritten⟩ := hwrite plan written rest output h (by omega)
      obtain ⟨last, hlast, hwritten⟩ := ih hwritten (by rw [List.length_drop]; omega)
      refine ⟨last, ?_, ?_⟩
      · rw [List.foldlM_cons, hnext]
        exact hlast
      · rwa [List.drop_drop, List.append_assoc] at hwritten

/-- The archive is the records one behind the other. -/
theorem buildZipArchive_eq (maxLength : Nat) (entries : List ZipEntryInput) :
    buildZipArchive maxLength entries =
      if maxLength < totalLength entries then none else some (archiveOf entries) := by
  unfold buildZipArchive
  dsimp only
  rw [← totalLength]
  split
  · rfl
  · have hlocals := length_localRecords 0 entries
    have hcentrals := length_centralRecords (planEntries 0 entries)
    have htotal : totalLength entries =
        localTotal entries + cdSize (planEntries 0 entries) + 22 := rfl
    have hstart : Written [] (List.replicate (totalLength entries) 0)
        { buffer := List.replicate (totalLength entries) 0, cursor := 0 } := ⟨rfl, rfl⟩
    obtain ⟨first, hfirst, hwritten⟩ :=
      foldlM_written (fun plan _ _ _ => writeLocal_written plan) (planEntries 0 entries) hstart
        (by rw [List.length_replicate, hlocals]; omega)
    have hcdStart : first.cursor = localTotal entries := by
      rw [hwritten.cursor, List.nil_append, hlocals]
    obtain ⟨second, hsecond, hwritten⟩ :=
      foldlM_written (fun plan _ _ _ => writeCentral_written plan) (planEntries 0 entries) hwritten
        (by rw [List.length_drop, List.length_replicate, hlocals, hcentrals]; omega)
    set remaining := ((List.replicate (totalLength entries) (0 : UInt8)).drop _).drop _
      with hremaining
    have hlength : remaining.length = 22 := by
      rw [hremaining, List.length_drop, List.length_drop, List.length_replicate, hlocals, hcentrals]
      omega
    have hcontiguous : Contiguous 0 (endOfCentralDirectory (planEntries 0 entries).length
        (cdSize (planEntries 0 entries)) first.cursor) := by
      simp [endOfCentralDirectory, Contiguous, u16, u32]
    have hend := writeFields_append hcontiguous hwritten.cursor
      (show widthOf (fieldsOf _) ≤ remaining.length by
        rw [widthOf_endOfCentralDirectory, hlength])
    have hnone : remaining.drop (widthOf (fieldsOf (endOfCentralDirectory
        (planEntries 0 entries).length (cdSize (planEntries 0 entries)) first.cursor))) = [] := by
      rw [widthOf_endOfCentralDirectory, ← hlength, List.drop_length]
    rw [hfirst, Option.bind_eq_bind, Option.bind_some, hsecond, Option.bind_some, hwritten.buffer]
    refine hend.trans ?_
    rw [← fieldsOf, hnone, List.append_nil, List.nil_append, hcdStart]
    rfl

end ZipBuilder
end Core
end NestBase
