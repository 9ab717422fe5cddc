import NestBase.Core.ZipBuilder

/-!
# Reading zip archives

A reader finds the record at the end of an archive, goes through the central directory
it names, and from each of its headers to the local header and the bytes behind it.

Sizes, offsets and counts are stored in fields of 16 and 32 bits.  When all of them fit,
the reader recovers the entries of an archive of `buildZipArchive`; when one does not,
the archive is written all the same.  `zipHonest_iff` says when the outcome is right.
-/

namespace NestBase
namespace Core
namespace ZipBuilder

open Lib
open Lib.ByteFields

/-! ## The reader -/

structure LocalHeader where
  flags : Nat
  method : Nat
  crc32 : Nat
  compressedSize : Nat
  uncompressedSize : Nat
  filenameBytes : Bytes
  /-- The archive from the end of the header on. -/
  data : Bytes

structure CentralHeader where
  flags : Nat
  method : Nat
  crc32 : Nat
  compressedSize : Nat
  uncompressedSize : Nat
  filenameBytes : Bytes
  localHeaderOffset : Nat

structure EndRecord where
  count : Nat
  size : Nat
  start : Nat

structure Member where
  central : CentralHeader
  localHeader : LocalHeader
  bytes : Bytes

def readLocalHeader (archive : Bytes) (offset : Nat) : Option LocalHeader :=
  match readFields [4, 2, 2, 2, 2, 2, 4, 4, 4, 2, 2] (archive.drop offset) with
  | some ([signature, _, flags, method, _, _, crc32, compressedSize, uncompressedSize, nameLength,
      extraLength], rest) =>
      if signature = SIG_LFH ∧ nameLength + extraLength ≤ rest.length then
        some
          { flags := flags
            method := method
            crc32 := crc32
            compressedSize := compressedSize
            uncompressedSize := uncompressedSize
            filenameBytes := rest.take nameLength
            data := rest.drop (nameLength + extraLength) }
      else none
  | _ => none

/-- A header of the central directory, and the offset of the next one. -/
def readCentralHeader (archive : Bytes) (offset : Nat) : Option (CentralHeader × Nat) :=
  match readFields [4, 2, 2, 2, 2, 2, 2, 4, 4, 4, 2, 2, 2, 2, 2, 4, 4] (archive.drop offset) with
  | some ([signature, _, _, flags, method, _, _, crc32, compressedSize, uncompressedSize,
      nameLength, extraLength, commentLength, _, _, _, localHeaderOffset], rest) =>
      if signature = SIG_CDH ∧ nameLength + extraLength + commentLength ≤ rest.length then
        some
          ({ flags := flags
             method := method
             crc32 := crc32
             compressedSize := compressedSize
             uncompressedSize := uncompressedSize
             filenameBytes := rest.take nameLength
             localHeaderOffset := localHeaderOffset },
            offset + 46 + nameLength + extraLength + commentLength)
      else none
  | _ => none

/-- The record at the end of an archive without a comment. -/
def readEnd (archive : Bytes) : Option EndRecord :=
  match readFields [4, 2, 2, 2, 2, 4, 4, 2] (archive.drop (archive.length - 22)) with
  | some ([signature, _, _, _, count, size, start, commentLength], _) =>
      if signature = SIG_EOCD ∧ commentLength = 0 then
        some { count := count, size := size, start := start }
      else none
  | _ => none

/-- The bytes of a stored entry lie behind its local header. -/
def readMember (archive : Bytes) (central : CentralHeader) : Option Member :=
  (readLocalHeader archive central.localHeaderOffset).bind fun header =>
    if central.method = METHOD_STORED ∧ central.compressedSize ≤ header.data.length then
      some
        { central := central
          localHeader := header
          bytes := header.data.take central.compressedSize }
    else none

def readMembers (archive : Bytes) : Nat → Nat → Option (List Member × Nat)
  | 0, offset => some ([], offset)
  | count + 1, offset => do
      let (central, next) ← readCentralHeader archive offset
      let member ← readMember archive central
      let (members, last) ← readMembers archive count next
      some (member :: members, last)

/-- The members of an archive, whose directory ends where the record says. -/
def readZip (archive : Bytes) : Option (List Member) := do
  let directory ← readEnd archive
  let (members, last) ← readMembers archive directory.count directory.start
  if last = directory.start + directory.size then some members else none

/-! ## Archives that decode -/

def Member.entry (member : Member) : ZipEntryInput where
  filename := String.ofList (Unicode.charsOfUtf8 member.central.filenameBytes)
  bytes := member.bytes

/-- The stored checksum is that of the bytes, and the local header belongs to the member. -/
structure Member.Sound (member : Member) : Prop where
  crc32 : member.central.crc32 = (Crc32.ofBytes member.bytes).toNat
  uncompressedSize : member.central.uncompressedSize = member.bytes.length
  localName : member.localHeader.filenameBytes = member.central.filenameBytes
  localFlags : member.localHeader.flags = member.central.flags
  localMethod : member.localHeader.method = member.central.method
  localCrc32 : member.localHeader.crc32 = member.central.crc32
  localCompressedSize : member.localHeader.compressedSize = member.central.compressedSize
  localUncompressedSize : member.localHeader.uncompressedSize = member.central.uncompressedSize

/-- A reader recovers the entries, in order. -/
def DecodesTo (archive : Bytes) (entries : List ZipEntryInput) : Prop :=
  ∃ members, readZip archive = some members ∧ members.map Member.entry = entries ∧
    ∀ member ∈ members, member.Sound

/-- Every number that the archive stores fits into its field. -/
structure Representable (entries : List ZipEntryInput) : Prop where
  count : entries.length ≤ 65535
  names : ∀ plan ∈ planEntries 0 entries, plan.filenameBytes.length ≤ 65535
  sizes : ∀ plan ∈ planEntries 0 entries, plan.bytes.length < 2 ^ 32
  offsets : ∀ plan ∈ planEntries 0 entries, plan.localHeaderOffset < 2 ^ 32
  directorySize : cdSize (planEntries 0 entries) < 2 ^ 32
  directoryStart : localTotal entries < 2 ^ 32

/-- What the format can represent is written such that it can be read, and nothing else is
written. -/
structure Honest (maxLength : Nat) (entries : List ZipEntryInput) : Prop where
  decodes : Representable entries →
    ∃ archive, buildZipArchive maxLength entries = some archive ∧ DecodesTo archive entries
  fails : ¬Representable entries → buildZipArchive maxLength entries = none

/-! ## Reading what was written -/

section Reading

theorem stored_u16 {value : Nat} (h : value ≤ 65535) : (u16 value).stored = value :=
  Nat.mod_eq_of_lt (by norm_num [u16]; omega)

theorem stored_u32 {value : Nat} (h : value < 2 ^ 32) : (u32 value).stored = value :=
  Nat.mod_eq_of_lt (by norm_num [u32]; omega)

/-- A plan whose numbers fit into the fields. -/
structure Fits (plan : ZipEntryPlan) : Prop where
  name : plan.filenameBytes.length ≤ 65535
  size : plan.bytes.length < 2 ^ 32
  offset : plan.localHeaderOffset < 2 ^ 32

theorem stored_localHeader {plan : ZipEntryPlan} (h : Fits plan) :
    (fieldsOf (localHeader plan)).map Field.stored =
      [SIG_LFH, ZIP_VERSION, FLAG_UTF8, METHOD_STORED, dosTime, dosDate, plan.crc32.toNat,
        plan.bytes.length, plan.bytes.length, plan.filenameBytes.length, 0] := by
  simp only [fieldsOf, localHeader, List.map_cons, List.map_nil, stored_u16 h.name,
    stored_u32 h.size, stored_u32 plan.crc32.isLt]
  rfl

theorem stored_centralHeader {plan : ZipEntryPlan} (h : Fits plan) :
    (fieldsOf (centralHeader plan)).map Field.stored =
      [SIG_CDH, ZIP_VERSION, ZIP_VERSION, FLAG_UTF8, METHOD_STORED, dosTime, dosDate,
        plan.crc32.toNat, plan.bytes.length, plan.bytes.length, plan.filenameBytes.length, 0, 0,
        0, 0, 0, plan.localHeaderOffset] := by
  simp only [fieldsOf, centralHeader, List.map_cons, List.map_nil, stored_u16 h.name,
    stored_u32 h.size, stored_u32 plan.crc32.isLt, stored_u32 h.offset]
  rfl

/-- The local header of a plan as it is read. -/
def localHeaderOf (plan : ZipEntryPlan) (rest : Bytes) : LocalHeader where
  flags := FLAG_UTF8
  method := METHOD_STORED
  crc32 := plan.crc32.toNat
  compressedSize := plan.bytes.length
  uncompressedSize := plan.bytes.length
  filenameBytes := plan.filenameBytes
  data := plan.bytes ++ rest

def centralHeaderOf (plan : ZipEntryPlan) : CentralHeader where
  flags := FLAG_UTF8
  method := METHOD_STORED
  crc32 := plan.crc32.toNat
  compressedSize := plan.bytes.length
  uncompressedSize := plan.bytes.length
  filenameBytes := plan.filenameBytes
  localHeaderOffset := plan.localHeaderOffset

theorem readLocalHeader_record {plan : ZipEntryPlan} (h : Fits plan) {archive before rest : Bytes}
    (harchive : archive = before ++ (localRecord plan ++ rest)) :
    readLocalHeader archive before.length = some (localHeaderOf plan rest) := by
  have hread := readFields_append (fieldsOf (localHeader plan))
    (plan.filenameBytes ++ (plan.bytes ++ rest))
  rw [stored_localHeader h] at hread
  have hwidths : (fieldsOf (localHeader plan)).map Field.width =
      [4, 2, 2, 2, 2, 2, 4, 4, 4, 2, 2] := rfl
  have hdrop : archive.drop before.length =
      bytesOf (fieldsOf (localHeader plan)) ++ (plan.filenameBytes ++ (plan.bytes ++ rest)) := by
    rw [harchive, List.drop_left, localRecord]
    simp only [List.append_assoc]
  rw [hwidths] at hread
  unfold readLocalHeader
  rw [hdrop, hread]
  dsimp only
  rw [if_pos ⟨rfl, by simp⟩]
  simp [localHeaderOf]

theorem readCentralHeader_record {plan : ZipEntryPlan} (h : Fits plan)
    {archive before rest : Bytes} (harchive : archive = before ++ (centralRecord plan ++ rest)) :
    readCentralHeader archive before.length =
      some (centralHeaderOf plan, (before ++ centralRecord plan).length) := by
  have hread := readFields_append (fieldsOf (centralHeader plan)) (plan.filenameBytes ++ rest)
  rw [stored_centralHeader h] at hread
  have hwidths : (fieldsOf (centralHeader plan)).map Field.width =
      [4, 2, 2, 2, 2, 2, 2, 4, 4, 4, 2, 2, 2, 2, 2, 4, 4] := rfl
  have hdrop : archive.drop before.length =
      bytesOf (fieldsOf (centralHeader plan)) ++ (plan.filenameBytes ++ rest) := by
    rw [harchive, List.drop_left, centralRecord]
    simp only [List.append_assoc]
  rw [hwidths] at hread
  unfold readCentralHeader
  rw [hdrop, hread]
  dsimp only
  rw [if_pos ⟨rfl, by simp⟩, List.length_append, length_centralRecord]
  simp [centralHeaderOf, Nat.add_assoc]

/-- The record at the end, whose numbers are stored in fields of 16 and 32 bits. -/
theorem readEnd_archiveOf (entries : List ZipEntryInput) :
    readEnd (archiveOf entries) =
      some
        { count := entries.length % 256 ^ 2
          size := cdSize (planEntries 0 entries) % 256 ^ 4
          start := localTotal entries % 256 ^ 4 } := by
  set plans := planEntries 0 entries with hplans
  have hread := readFields_append
    (fieldsOf (endOfCentralDirectory plans.length (cdSize plans) (localTotal entries))) []
  have hdrop : (archiveOf entries).drop ((archiveOf entries).length - 22) =
      bytesOf (fieldsOf (endOfCentralDirectory plans.length (cdSize plans) (localTotal entries))) ++
        [] := by
    rw [archiveOf, List.length_append, length_endRecord, Nat.add_sub_cancel, List.drop_left,
      List.append_nil]
    rfl
  have hwidths : (fieldsOf (endOfCentralDirectory plans.length (cdSize plans)
      (localTotal entries))).map Field.width = [4, 2, 2, 2, 2, 4, 4, 2] := rfl
  have hstored : (fieldsOf (endOfCentralDirectory plans.length (cdSize plans)
      (localTotal entries))).map Field.stored =
        [SIG_EOCD, 0, 0, plans.length % 256 ^ 2, plans.length % 256 ^ 2, cdSize plans % 256 ^ 4,
          localTotal entries % 256 ^ 4, 0] := rfl
  rw [hwidths, hstored] at hread
  unfold readEnd
  rw [hdrop, hread]
  dsimp only
  rw [if_pos ⟨rfl, rfl⟩, hplans, length_planEntries]

/-- A member that was read from the records of a plan. -/
structure MemberOf (plan : ZipEntryPlan) (member : Member) : Prop where
  central : member.central = centralHeaderOf plan
  localHeader : ∃ rest, member.localHeader = localHeaderOf plan rest
  bytes : member.bytes = plan.bytes

/-- The local header of the plan lies at its offset. -/
def LocalAt (archive : Bytes) (plan : ZipEntryPlan) : Prop :=
  ∃ before after, archive = before ++ (localRecord plan ++ after) ∧
    before.length = plan.localHeaderOffset

theorem readMember_record {plan : ZipEntryPlan} (h : Fits plan) {archive : Bytes}
    (hlocal : LocalAt archive plan) :
    ∃ member, readMember archive (centralHeaderOf plan) = some member ∧ MemberOf plan member := by
  obtain ⟨before, after, harchive, hoffset⟩ := hlocal
  have hread := readLocalHeader_record h harchive
  rw [hoffset] at hread
  have hmember : readMember archive (centralHeaderOf plan) =
      some
        { central := centralHeaderOf plan
          localHeader := localHeaderOf plan after
          bytes := plan.bytes } := by
    unfold readMember
    rw [show (centralHeaderOf plan).localHeaderOffset = plan.localHeaderOffset from rfl, hread,
      Option.bind_some, if_pos ⟨rfl, by simp [centralHeaderOf, localHeaderOf]⟩]
    simp [centralHeaderOf, localHeaderOf]
  exact ⟨_, hmember, rfl, ⟨after, rfl⟩, rfl⟩

/-- The reader goes through the central directory from one plan to the next. -/
theorem readMembers_records {archive rest : Bytes} (plans : List ZipEntryPlan)
    (hfits : ∀ plan ∈ plans, Fits plan) (hlocal : ∀ plan ∈ plans, LocalAt archive plan)
    (before : Bytes) (harchive : archive = before ++ (plans.flatMap centralRecord ++ rest)) :
    ∃ members,
      readMembers archive plans.length before.length =
          some (members, (before ++ plans.flatMap centralRecord).length) ∧
        List.Forall₂ MemberOf plans members := by
  induction plans generalizing before with
  | nil => exact ⟨[], by simp [readMembers], .nil⟩
  | cons plan plans ih =>
      obtain ⟨hfit, hfits⟩ := List.forall_mem_cons.mp hfits
      obtain ⟨hat, hlocal⟩ := List.forall_mem_cons.mp hlocal
      rw [List.flatMap_cons, List.append_assoc] at harchive
      have hcentral := readCentralHeader_record hfit harchive
      obtain ⟨member, hmember, hmemberOf⟩ := readMember_record hfit hat
      obtain ⟨members, hmembers, hall⟩ :=
        ih hfits hlocal (before ++ centralRecord plan) (by rw [harchive, List.append_assoc])
      refine ⟨member :: members, ?_, .cons hmemberOf hall⟩
      simp only [List.length_cons, readMembers, hcentral, hmember, hmembers, Option.bind_eq_bind,
        Option.bind_some]
      rw [List.flatMap_cons, List.append_assoc]

/-- The plans lie one behind the other in the first part of the archive. -/
theorem localRecord_at (offset : Nat) (entries : List ZipEntryInput) :
    ∀ plan ∈ planEntries offset entries,
      ∃ before after,
        (planEntries offset entries).flatMap localRecord =
            before ++ (localRecord plan ++ after) ∧
          plan.localHeaderOffset = offset + before.length := by
  induction entries generalizing offset with
  | nil => simp [planEntries]
  | cons entry entries ih =>
      intro plan hplan
      rw [planEntries, List.mem_cons] at hplan
      rw [planEntries, List.flatMap_cons]
      rcases hplan with rfl | hplan
      · exact ⟨[], _, rfl, rfl⟩
      · obtain ⟨before, after, hrecords, hoffset⟩ := ih _ plan hplan
        refine ⟨_, after, by rw [hrecords, ← List.append_assoc], ?_⟩
        rw [List.length_append, length_localRecord, hoffset]
        simp only [lfhSize]
        omega

theorem localAt_archiveOf (entries : List ZipEntryInput) :
    ∀ plan ∈ planEntries 0 entries, LocalAt (archiveOf entries) plan := by
  intro plan hplan
  obtain ⟨before, after, hrecords, hoffset⟩ := localRecord_at 0 entries plan hplan
  refine ⟨before, after ++ ((planEntries 0 entries).flatMap centralRecord ++
    endRecord (planEntries 0 entries) (localTotal entries)), ?_, by omega⟩
  rw [archiveOf, hrecords]
  simp only [List.append_assoc]

/-- The entry and the fields of a plan. -/
theorem plan_spec (offset : Nat) (entries : List ZipEntryInput) :
    ((planEntries offset entries).map fun plan =>
        ({ filename := plan.filename, bytes := plan.bytes } : ZipEntryInput)) = entries ∧
      ∀ plan ∈ planEntries offset entries,
        plan.filenameBytes = encodeName plan.filename ∧ plan.crc32 = crc32 plan.bytes := by
  induction entries generalizing offset with
  | nil => simp [planEntries]
  | cons entry entries ih =>
      obtain ⟨hentries, hfields⟩ := ih (offset + lfhSize entry)
      rw [planEntries]
      refine ⟨by rw [List.map_cons, hentries], List.forall_mem_cons.mpr ⟨⟨rfl, rfl⟩, hfields⟩⟩

theorem entry_of_memberOf {plan : ZipEntryPlan} {member : Member} (h : MemberOf plan member)
    (hname : plan.filenameBytes = encodeName plan.filename) :
    member.entry = { filename := plan.filename, bytes := plan.bytes } := by
  rw [Member.entry, h.central, h.bytes, centralHeaderOf, hname, encodeName,
    Unicode.charsOfUtf8_utf8, String.ofList_toList]

theorem sound_of_memberOf {plan : ZipEntryPlan} {member : Member} (h : MemberOf plan member)
    (hcrc : plan.crc32 = crc32 plan.bytes) : member.Sound := by
  obtain ⟨rest, hlocal⟩ := h.localHeader
  constructor
  · rw [h.central, h.bytes, ← crc32_eq, ← hcrc]
    rfl
  · rw [h.central, h.bytes]
    rfl
  all_goals rw [hlocal, h.central]; rfl

theorem entries_of_forall₂ {plans : List ZipEntryPlan} {members : List Member}
    (h : List.Forall₂ MemberOf plans members)
    (hnames : ∀ plan ∈ plans, plan.filenameBytes = encodeName plan.filename) :
    members.map Member.entry =
      plans.map fun plan => { filename := plan.filename, bytes := plan.bytes } := by
  induction h with
  | nil => rfl
  | cons hmember hrest ih =>
      obtain ⟨hname, hnames⟩ := List.forall_mem_cons.mp hnames
      rw [List.map_cons, List.map_cons, entry_of_memberOf hmember hname, ih hnames]

theorem plan_of_member {plans : List ZipEntryPlan} {members : List Member}
    (h : List.Forall₂ MemberOf plans members) {member : Member} (hmember : member ∈ members) :
    ∃ plan ∈ plans, MemberOf plan member := by
  induction h with
  | nil => cases hmember
  | cons hfirst hrest ih =>
      rcases List.mem_cons.mp hmember with rfl | hmember
      · exact ⟨_, List.mem_cons_self, hfirst⟩
      · obtain ⟨plan, hplan, hof⟩ := ih hmember
        exact ⟨plan, List.mem_cons_of_mem _ hplan, hof⟩

/-- An archive whose numbers fit is read back. -/
theorem decodesTo_archiveOf {entries : List ZipEntryInput} (h : Representable entries) :
    DecodesTo (archiveOf entries) entries := by
  obtain ⟨hentries, hfields⟩ := plan_spec 0 entries
  have hfits : ∀ plan ∈ planEntries 0 entries, Fits plan := fun plan hplan =>
    ⟨h.names plan hplan, h.sizes plan hplan, h.offsets plan hplan⟩
  have hstart := length_localRecords 0 entries
  have hsize := length_centralRecords (planEntries 0 entries)
  have harchive : archiveOf entries = (planEntries 0 entries).flatMap localRecord ++
      ((planEntries 0 entries).flatMap centralRecord ++
        endRecord (planEntries 0 entries) (localTotal entries)) := by
    rw [archiveOf, List.append_assoc]
  obtain ⟨members, hmembers, hall⟩ :=
    readMembers_records (planEntries 0 entries) hfits (localAt_archiveOf entries) _ harchive
  rw [List.length_append, hstart, hsize, length_planEntries] at hmembers
  have hend := readEnd_archiveOf entries
  have hcount : entries.length % 256 ^ 2 = entries.length :=
    Nat.mod_eq_of_lt (by have := h.count; norm_num; omega)
  have hdirectory : cdSize (planEntries 0 entries) % 256 ^ 4 = cdSize (planEntries 0 entries) :=
    Nat.mod_eq_of_lt (by have := h.directorySize; norm_num at this ⊢; omega)
  have htotal : localTotal entries % 256 ^ 4 = localTotal entries :=
    Nat.mod_eq_of_lt (by have := h.directoryStart; norm_num at this ⊢; omega)
  rw [hcount, hdirectory, htotal] at hend
  refine ⟨members, ?_, ?_, ?_⟩
  · simp only [readZip, hend, hmembers, Option.bind_eq_bind, Option.bind_some]
    exact if_pos trivial
  · rw [entries_of_forall₂ hall fun plan hplan => (hfields plan hplan).1, hentries]
  · intro member hmember
    obtain ⟨plan, hplan, hof⟩ := plan_of_member hall hmember
    exact sound_of_memberOf hof (hfields plan hplan).2

end Reading

/-! ## More entries than can be counted -/

section TooMany

theorem cdSize_planEntries (offset : Nat) (entries : List ZipEntryInput) :
    cdSize (planEntries offset entries) =
      (entries.map fun entry => 46 + (encodeName entry.filename).length).sum := by
  induction entries generalizing offset with
  | nil => rfl
  | cons entry entries ih =>
      have hrest := ih (offset + lfhSize entry)
      simp only [cdSize] at hrest
      simp only [cdSize, planEntries, List.map_cons, List.sum_cons, hrest]

/-- The length of an archive of copies of one entry. -/
theorem totalLength_replicate (count : Nat) (entry : ZipEntryInput) :
    totalLength (List.replicate count entry) =
      count * lfhSize entry + count * (46 + (encodeName entry.filename).length) + 22 := by
  rw [totalLength, localTotal, cdSize_planEntries, List.map_replicate, List.map_replicate,
    List.sum_replicate, List.sum_replicate, smul_eq_mul, smul_eq_mul]
  rfl

def emptyEntry : ZipEntryInput where
  filename := "a"
  bytes := []

theorem sizes_emptyEntry : lfhSize emptyEntry = 31 ∧ (encodeName emptyEntry.filename).length = 1 := by
  decide

/-- The number of entries is stored as 0, and the archive is not read back. -/
theorem not_decodesTo_replicate {count : Nat} (hpos : 0 < count) (hmod : count % 256 ^ 2 = 0)
    (entry : ZipEntryInput) :
    ¬DecodesTo (archiveOf (List.replicate count entry)) (List.replicate count entry) := by
  rintro ⟨members, hread, hentries, -⟩
  have hend := readEnd_archiveOf (List.replicate count entry)
  rw [List.length_replicate, hmod] at hend
  simp only [readZip, hend, readMembers, Option.bind_eq_bind, Option.bind_some] at hread
  split at hread
  · cases hread
    have hlength := congrArg List.length hentries
    rw [List.map_nil, List.length_nil, List.length_replicate] at hlength
    omega
  · cases hread

/-- A multiple of 65536 entries that fit is written, though it cannot be counted in 16 bits. -/
theorem buildZipArchive_replicate {maxLength count : Nat} {entry : ZipEntryInput}
    (hpos : 0 < count) (hmod : count % 256 ^ 2 = 0)
    (hfits : totalLength (List.replicate count entry) ≤ maxLength) :
    ¬Honest maxLength (List.replicate count entry) ∧
      ∃ archive, buildZipArchive maxLength (List.replicate count entry) = some archive ∧
        ¬DecodesTo archive (List.replicate count entry) := by
  have hbuild : buildZipArchive maxLength (List.replicate count entry) =
      some (archiveOf (List.replicate count entry)) := by
    rw [buildZipArchive_eq, if_neg (not_lt.mpr hfits)]
  have hcount : ¬Representable (List.replicate count entry) := by
    intro h
    have hle := h.count
    rw [List.length_replicate] at hle
    omega
  refine ⟨fun h => ?_, _, hbuild, not_decodesTo_replicate hpos hmod entry⟩
  have hnone := h.fails hcount
  rw [hbuild] at hnone
  cases hnone

/-- 65536 entries are written, though they cannot be counted in 16 bits. -/
theorem not_honest_tooMany :
    ¬Honest (2 ^ 53 - 1) (List.replicate (256 ^ 2) emptyEntry) ∧
      ∃ archive, buildZipArchive (2 ^ 53 - 1) (List.replicate (256 ^ 2) emptyEntry) = some archive ∧
        ¬DecodesTo archive (List.replicate (256 ^ 2) emptyEntry) := by
  refine buildZipArchive_replicate (by norm_num) (Nat.mod_self _) ?_
  rw [totalLength_replicate, sizes_emptyEntry.1, sizes_emptyEntry.2]
  norm_num

end TooMany

/-- The outcome is right exactly when the format can represent the entries and the engine can
hold their archive, or neither of the two. -/
theorem zipHonest_iff (maxLength : Nat) (entries : List ZipEntryInput) :
    Honest maxLength entries ↔ (Representable entries ↔ totalLength entries ≤ maxLength) := by
  have hbuild := buildZipArchive_eq maxLength entries
  by_cases hfits : totalLength entries ≤ maxLength
  · rw [if_neg (not_lt.mpr hfits)] at hbuild
    constructor
    · intro h
      refine ⟨fun _ => hfits, fun _ => ?_⟩
      by_contra hnot
      rw [h.fails hnot] at hbuild
      cases hbuild
    · intro h
      exact ⟨fun hrep => ⟨_, hbuild, decodesTo_archiveOf hrep⟩,
        fun hnot => absurd (h.mpr hfits) hnot⟩
  · rw [if_pos (not_le.mp hfits)] at hbuild
    constructor
    · intro h
      refine ⟨fun hrep => ?_, fun hle => absurd hle hfits⟩
      obtain ⟨archive, hsome, -⟩ := h.decodes hrep
      rw [hbuild] at hsome
      cases hsome
    · intro h
      exact ⟨fun hrep => absurd (h.mp hrep) hfits, fun _ => hbuild⟩

end ZipBuilder
end Core
end NestBase
