import NestBase.Core.FolderStorage
import NestBase.Lib.Transaction
import NestBase.Lib.ZodSchema

/-!
# Updating an example

The PATCH route reads its body by `UpdateExampleSchema`, which is
`CreateExampleSchema.partial()`, and `ExampleService.update` writes the fields
that the result defines.

`CreateExampleSchema` gives `status` the default `"draft"`, and the default
survives `partial()`: a body without `status` is read as one that sets it.  So
an update keeps the fields that its body does not name exactly when it names
`status` or the example is a draft already (`keepsUnnamed_iff`).
-/

namespace NestBase
namespace Examples

open Lib
open Files

/-! ## Rows -/

structure Example where
  id : String
  tenantId : String
  name : String
  description : Option String
  status : String
  createdAt : Int
  updatedAt : Int
deriving DecidableEq, Repr

/-- The table `examples`; its ids are as a uuid column holds them. -/
structure ExampleTable (uuid : UuidColumn) where
  rows : List Example
  ids_nodup : KeysNodup Example.id rows
  ids_stored : ∀ row ∈ rows, uuid.parse row.id = some row.id

/-! ## Schemas -/

def exampleStatuses : List String :=
  ["draft", "published", "archived"]

def CreateExampleSchema : ZodShape :=
  [("name", .string (some 1) (some 255)),
    ("description", .optional (.string none (some 2000))),
    ("status", .default_ (.str "draft") (.enum exampleStatuses))]

def UpdateExampleSchema : ZodShape :=
  CreateExampleSchema.partialOf

def textOf : Json → Option String
  | .str text => some text
  | _ => none

/-- A field that is `none` is undefined. -/
structure UpdateExampleDto where
  name : Option String
  description : Option String
  status : Option String
deriving DecidableEq, Repr

/-- What `ZodValidationPipe` returns for the body. -/
def transform (body : Option Json) : Except (List ZodIssue) UpdateExampleDto := do
  let fields ← UpdateExampleSchema.parse body
  pure
    { name := (OrderedMap.get "name" fields).bind textOf
      description := (OrderedMap.get "description" fields).bind textOf
      status := (OrderedMap.get "status" fields).bind textOf }

/-! ## Dates -/

/-- A number in decimal, filled up with zeros to a width. -/
def padZeros (width n : Nat) : String :=
  let digits := toString n
  String.ofList (List.replicate (width - digits.length) '0') ++ digits

/-- The year, month and day of a day counted from 1970-01-01. -/
def civilDate (day : Int) : Int × Nat × Nat :=
  -- years start in March, and 400 of them have 146097 days
  let shifted := day + 719468
  let era := shifted / 146097
  let dayOfEra := (shifted % 146097).toNat
  let yearOfEra :=
    (dayOfEra - dayOfEra / 1460 + dayOfEra / 36524 - dayOfEra / 146096) / 365
  let dayOfYear := dayOfEra - (365 * yearOfEra + yearOfEra / 4 - yearOfEra / 100)
  let march := (5 * dayOfYear + 2) / 153
  let month := if march < 10 then march + 3 else march - 9
  (yearOfEra + era * 400 + (if month ≤ 2 then 1 else 0), month,
    dayOfYear - (153 * march + 2) / 5 + 1)

/-- `new Date(time).toISOString()` -/
def toISOString (time : Int) : String :=
  let date := civilDate (time / 86400000)
  let ms := (time % 86400000).toNat
  let year :=
    if 0 ≤ date.1 ∧ date.1 ≤ 9999 then padZeros 4 date.1.toNat
    else (if date.1 < 0 then "-" else "+") ++ padZeros 6 date.1.natAbs
  year ++ "-" ++ padZeros 2 date.2.1 ++ "-" ++ padZeros 2 date.2.2 ++ "T" ++
    padZeros 2 (ms / 3600000) ++ ":" ++ padZeros 2 (ms / 60000 % 60) ++ ":" ++
    padZeros 2 (ms / 1000 % 60) ++ "." ++ padZeros 3 (ms % 1000) ++ "Z"

example : toISOString 951827696789 = "2000-02-29T12:34:56.789Z" := by decide +kernel

/-! ## Statements -/

inductive PrismaError where
  | recordNotFound
  /-- A value that the column does not take. -/
  | invalidValue
deriving DecidableEq, Repr

def PrismaError.code : PrismaError → Option String
  | recordNotFound => some "P2025"
  | invalidValue => none

inductive ServiceError where
  | error (message : String)
  | rlsTenantMissing
  /-- An `ExampleNotFoundError`. -/
  | exampleNotFound (id : String)
  | prisma (error : PrismaError)
deriving DecidableEq, Repr

/-- The `data` of an update: the fields the service spreads into it. -/
structure ExampleData where
  name : Option String
  description : Option String
  status : Option String

def ExampleData.apply (data : ExampleData) (now : Int) (row : Example) : Example :=
  { row with
    name := data.name.getD row.name
    description := (data.description.map some).getD row.description
    status := data.status.getD row.status
    updatedAt := now }

def ExampleData.taken (data : ExampleData) : Bool :=
  data.name.all takesText && data.description.all takesText && data.status.all takesText

section Statements

variable {uuid : UuidColumn}

/-- The row an update matches, in a transaction whose `app.tenant_id` is `setting`. -/
def ExampleTable.find? (table : ExampleTable uuid) (setting id tenantId : String) :
    Option Example :=
  (findRow Example.id id table.rows).filter fun row =>
    decide (row.tenantId = tenantId ∧ row.tenantId = setting)

def ExampleTable.change (table : ExampleTable uuid) (id : String) (data : ExampleData) (now : Int) :
    ExampleTable uuid where
  rows := updateMany (fun row => decide (row.id = id)) (data.apply now) table.rows
  ids_nodup := table.ids_nodup.updateMany _ fun _ => rfl
  ids_stored := by
    intro row' hrow'
    obtain ⟨row, hrow, ⟨-, rfl⟩ | ⟨-, rfl⟩⟩ := exists_of_mem_updateMany hrow'
    · exact table.ids_stored row hrow
    · exact table.ids_stored row' hrow

/-- `tx.example.update({ where: { id, tenantId }, data })` -/
def exampleUpdate
    (setting id tenantId : String) (data : ExampleData) (now : Int) (table : ExampleTable uuid) :
    Except ServiceError (Example × ExampleTable uuid) :=
  match uuid.parse id, uuid.parse tenantId with
  | some id', some tenantId' =>
      if data.taken then
        match table.find? setting id' tenantId' with
        | none => .error (.prisma .recordNotFound)
        | some row => .ok (data.apply now row, table.change id' data now)
      else .error (.prisma .invalidValue)
  | _, _ => .error (.prisma .invalidValue)

/-- The body sees `app.tenant_id` set to the tenant. -/
def runWithRlsTenant
    {α : Type} (fault : Option ServiceError)
    (fn : String → Body (ExampleTable uuid) ServiceError α)
    (tenantId : String) (table : ExampleTable uuid) :
    Except ServiceError α × ExampleTable uuid :=
  if tenantId = "" then (.error .rlsTenantMissing, table)
  else if !isUuid tenantId then
    (.error (.error "runWithRlsTenant: invalid tenant ID format"), table)
  else transaction fault (fn tenantId) table

/-! ## The service -/

structure ExampleResponse where
  id : String
  name : String
  description : Option String
  status : String
  createdAt : String
  updatedAt : String
deriving DecidableEq, Repr

def toResponse (record : Example) : ExampleResponse where
  id := record.id
  name := record.name
  description := record.description
  status := record.status
  createdAt := toISOString record.createdAt
  updatedAt := toISOString record.updatedAt

/-- The fields that are not undefined. -/
def UpdateExampleDto.data (dto : UpdateExampleDto) : ExampleData where
  name := dto.name
  description := dto.description
  status := dto.status

/-- `ExampleService.update` -/
def update
    (fault : Option ServiceError) (tenantId id : String) (dto : UpdateExampleDto) (now : Int)
    (table : ExampleTable uuid) :
    Except ServiceError ExampleResponse × ExampleTable uuid :=
  match
    runWithRlsTenant fault (fun setting => exampleUpdate setting id tenantId dto.data now) tenantId
      table
  with
  | (.error (.prisma error), table') =>
      if error.code = some "P2025" then (.error (.exampleNotFound id), table')
      else (.error (.prisma error), table')
  | (.error error, table') => (.error error, table')
  | (.ok record, table') => (.ok (toResponse record), table')

/-! ## What an update does -/

variable {table table' : ExampleTable uuid}
variable {fault : Option ServiceError}
variable {tenantId : String}

theorem runWithRlsTenant_eq_ok_iff
    {α : Type} {fn : String → Body (ExampleTable uuid) ServiceError α} {a : α} :
    runWithRlsTenant fault fn tenantId table = (.ok a, table') ↔
      isUuid tenantId = true ∧ fault = none ∧ fn tenantId table = .ok (a, table') := by
  unfold runWithRlsTenant
  by_cases hempty : tenantId = ""
  · rw [if_pos hempty, hempty]
    exact iff_of_false nofun fun h => absurd h.1 (by decide)
  rw [if_neg hempty]
  cases hvalid : isUuid tenantId with
  | false => exact iff_of_false nofun fun h => absurd h.1 Bool.false_ne_true
  | true =>
      rw [if_neg (by decide), transaction_eq_ok_iff]
      exact (and_iff_right rfl).symm

variable {dto : UpdateExampleDto}
variable {now : Int}

theorem update_eq_ok_iff {id : String} {response : ExampleResponse} :
    update fault tenantId id dto now table = (.ok response, table') ↔
      isUuid tenantId = true ∧ fault = none ∧
        ∃ record,
          exampleUpdate tenantId id tenantId dto.data now table = .ok (record, table') ∧
            response = toResponse record := by
  unfold update
  rcases hrun :
    runWithRlsTenant fault (fun setting => exampleUpdate setting id tenantId dto.data now) tenantId
      table with ⟨result, after⟩
  rw [← and_assoc, ← exists_and_left]
  have hrunIff (record : Example) :
      ((isUuid tenantId = true ∧ fault = none) ∧
          exampleUpdate tenantId id tenantId dto.data now table = .ok (record, table') ∧
            response = toResponse record) ↔
        (result, after) = (.ok record, table') ∧ response = toResponse record := by
    rw [← hrun, runWithRlsTenant_eq_ok_iff]
    tauto
  rw [exists_congr hrunIff]
  cases result with
  | ok record =>
      constructor
      · intro h
        cases h
        exact ⟨record, rfl, rfl⟩
      · rintro ⟨record', hrecord, rfl⟩
        cases hrecord
        rfl
  | error error' =>
      refine iff_of_false ?_ fun ⟨record, hrecord, _⟩ => (by cases hrecord)
      cases error' with
      | prisma error'' =>
          dsimp only
          split <;> nofun
      | error message => nofun
      | rlsTenantMissing => nofun
      | exampleNotFound id' => nofun

/-- A statement that succeeds has changed the row it matches, and no other. -/
theorem exampleUpdate_eq_ok_iff {setting id : String} {data : ExampleData} {record : Example} :
    exampleUpdate setting id tenantId data now table = .ok (record, table') ↔
      ∃ id' tenantId' row,
        uuid.parse id = some id' ∧ uuid.parse tenantId = some tenantId' ∧ data.taken = true ∧
          table.find? setting id' tenantId' = some row ∧
            record = data.apply now row ∧ table' = table.change id' data now := by
  unfold exampleUpdate
  cases uuid.parse id with
  | none => exact iff_of_false nofun nofun
  | some id' =>
      cases uuid.parse tenantId with
      | none => exact iff_of_false nofun nofun
      | some tenantId' =>
          dsimp only
          cases htaken : data.taken with
          | false => exact iff_of_false nofun nofun
          | true =>
              rw [if_pos rfl]
              cases hfind : table.find? setting id' tenantId' with
              | none =>
                  refine iff_of_false nofun ?_
                  rintro ⟨_, _, row, ⟨rfl⟩, ⟨rfl⟩, -, hrow, -⟩
                  rw [hfind] at hrow
                  cases hrow
              | some row =>
                  constructor
                  · intro h
                    cases h
                    exact ⟨id', tenantId', row, rfl, rfl, rfl, hfind, rfl, rfl⟩
                  · rintro ⟨_, _, row', ⟨rfl⟩, ⟨rfl⟩, -, hrow, rfl, rfl⟩
                    rw [hfind] at hrow
                    cases hrow
                    rfl

theorem ExampleTable.findRow_change
    (table : ExampleTable uuid) (id other : String) (data : ExampleData) (now : Int) :
    findRow Example.id other (table.change id data now).rows =
      (findRow Example.id other table.rows).map fun row =>
        if row.id = id then data.apply now row else row := by
  have hkept (row : Example) : (data.apply now row).id = row.id := rfl
  simp only [ExampleTable.change, findRow_updateMany _ hkept, decide_eq_true_eq]

/-- An update that returns has changed its row by the data, and no other row. -/
theorem findRow_of_update
    {id id' : String} {response : ExampleResponse}
    (hid : uuid.parse id = some id')
    (hupdate : update fault tenantId id dto now table = (.ok response, table'))
    (other : String) :
    findRow Example.id other table'.rows =
      (findRow Example.id other table.rows).map fun row =>
        if row.id = id' then dto.data.apply now row else row := by
  obtain ⟨-, -, record, hrecord, -⟩ := update_eq_ok_iff.mp hupdate
  obtain ⟨id'', tenantId', row, hid', -, -, -, -, rfl⟩ := exampleUpdate_eq_ok_iff.mp hrecord
  rw [hid] at hid'
  cases hid'
  exact table.findRow_change id' other dto.data now

/-- A stored example is updated when its columns take the texts. -/
theorem exists_update
    {row : Example}
    (now : Int)
    (htenant : isUuid tenantId = true)
    (hstored : uuid.parse tenantId = some tenantId)
    (hrow : row ∈ table.rows)
    (hsame : row.tenantId = tenantId)
    (htaken : dto.data.taken = true) :
    ∃ table',
      update none tenantId row.id dto now table =
        (.ok (toResponse (dto.data.apply now row)), table') := by
  have hfind : table.find? tenantId row.id tenantId = some row := by
    unfold ExampleTable.find?
    rw [findRow_of_mem table.ids_nodup hrow, Option.filter_some, if_pos (by simp [hsame])]
  refine ⟨table.change row.id dto.data now, update_eq_ok_iff.mpr ⟨htenant, rfl, _, ?_, rfl⟩⟩
  exact exampleUpdate_eq_ok_iff.mpr
    ⟨row.id, tenantId, row, table.ids_stored row hrow, hstored, htaken, hfind, rfl, rfl⟩

end Statements

/-! ## What the body names -/

/-- A field the body does not name keeps its value; one it names has the given value. -/
structure FieldKept (body : Json) (field : String) (before after : Option String) : Prop where
  absent : body.field? field = none → after = before
  present : ∀ value, body.field? field = some value → after.map Json.str = some value

structure KeepsUnnamed (body : Json) (row row' : Example) : Prop where
  name : FieldKept body "name" (some row.name) (some row'.name)
  description : FieldKept body "description" row.description row'.description
  status : FieldKept body "status" (some row.status) (some row'.status)

theorem CreateExampleSchema_names : (CreateExampleSchema.map Prod.fst).Nodup := by
  decide

section Bodies

variable {body : Json} {dto : UpdateExampleDto}

/-- What the body is read as. -/
theorem exists_fields (hbody : transform (some body) = .ok dto) :
    ∃ fields,
      ZodShape.parseFields body CreateExampleSchema.partialOf = .ok fields ∧
        dto =
          { name := (OrderedMap.get "name" fields).bind textOf
            description := (OrderedMap.get "description" fields).bind textOf
            status := (OrderedMap.get "status" fields).bind textOf } := by
  unfold transform UpdateExampleSchema ZodShape.parse at hbody
  cases body with
  | obj entries =>
      cases hfields : ZodShape.parseFields (.obj entries) CreateExampleSchema.partialOf with
      | error issues =>
          simp only [hfields] at hbody
          cases hbody
      | ok fields =>
          simp only [hfields] at hbody
          cases hbody
          exact ⟨fields, rfl, rfl⟩
  | null => cases hbody
  | bool b => cases hbody
  | num text => cases hbody
  | str text => cases hbody
  | arr items => cases hbody

variable {fields : List (String × Json)}

/-- How one field of the body is read: as its default where it is absent. -/
theorem read_field
    {name : String} {schema : ZodSchema}
    (hfields : ZodShape.parseFields body CreateExampleSchema.partialOf = .ok fields)
    (hschema : (name, schema) ∈ CreateExampleSchema) :
    (body.field? name = none →
        (OrderedMap.get name fields).bind textOf = schema.missing.bind textOf) ∧
      ∀ value, body.field? name = some value →
        ∃ text, value = .str text ∧ (OrderedMap.get name fields).bind textOf = some text := by
  constructor
  · intro habsent
    rw [ZodShape.get_partialOf_of_absent CreateExampleSchema_names hschema hfields habsent]
  · intro value hpresent
    obtain ⟨hget, text, rfl⟩ :=
      ZodShape.get_partialOf_of_present CreateExampleSchema_names hschema hfields hpresent
    exact ⟨text, rfl, by rw [hget]; rfl⟩

/-- A field without a default is kept. -/
theorem fieldKept_of_missing
    {name : String} {schema : ZodSchema} {before : Option String}
    (hfields : ZodShape.parseFields body CreateExampleSchema.partialOf = .ok fields)
    (hschema : (name, schema) ∈ CreateExampleSchema)
    (hmissing : schema.missing = none) :
    FieldKept body name before
      ((((OrderedMap.get name fields).bind textOf).map some).getD before) := by
  obtain ⟨habsent, hpresent⟩ := read_field hfields hschema
  refine ⟨fun h => ?_, fun value h => ?_⟩
  · rw [habsent h, hmissing]
    rfl
  · obtain ⟨text, rfl, hread⟩ := hpresent value h
    rw [hread]
    rfl

/-- A field with a default is kept when it is named or holds the default already. -/
theorem fieldKept_iff_of_default
    {name default_ before : String} {schema : ZodSchema}
    (hfields : ZodShape.parseFields body CreateExampleSchema.partialOf = .ok fields)
    (hschema : (name, schema) ∈ CreateExampleSchema)
    (hmissing : schema.missing = some (.str default_)) :
    FieldKept body name (some before)
        (some (((OrderedMap.get name fields).bind textOf).getD before)) ↔
      (body.field? name).isSome ∨ before = default_ := by
  obtain ⟨habsent, hpresent⟩ := read_field hfields hschema
  cases hfield : body.field? name with
  | none =>
      have hread := habsent hfield
      rw [hmissing] at hread
      rw [hread]
      constructor
      · intro hkept
        exact Or.inr (Option.some.inj (hkept.absent hfield)).symm
      · rintro (h | rfl)
        · cases h
        · exact ⟨fun _ => rfl, fun value h => (by rw [hfield] at h; cases h)⟩
  | some value =>
      obtain ⟨text, rfl, hread⟩ := hpresent value hfield
      rw [hread]
      refine iff_of_true ⟨fun h => ?_, fun value h => ?_⟩ (Or.inl rfl)
      · rw [hfield] at h
        cases h
      · rw [hfield] at h
        exact h

/-- What a body changes of a row. -/
theorem keepsUnnamed_apply_iff
    (hbody : transform (some body) = .ok dto)
    (now : Int) (row : Example) :
    KeepsUnnamed body row (dto.data.apply now row) ↔
      (body.field? "status").isSome ∨ row.status = "draft" := by
  obtain ⟨fields, hfields, rfl⟩ := exists_fields hbody
  have hstatus :
      FieldKept body "status" (some row.status)
          (some (((OrderedMap.get "status" fields).bind textOf).getD row.status)) ↔
        (body.field? "status").isSome ∨ row.status = "draft" :=
    fieldKept_iff_of_default hfields (.tail _ (.tail _ (.head _))) rfl
  have hname :
      FieldKept body "name" (some row.name)
        (some (((OrderedMap.get "name" fields).bind textOf).getD row.name)) := by
    rw [← Option.getD_map some]
    exact fieldKept_of_missing hfields (.head _) rfl
  have hdescription :
      FieldKept body "description" row.description
        ((((OrderedMap.get "description" fields).bind textOf).map some).getD row.description) :=
    fieldKept_of_missing hfields (.tail _ (.head _)) rfl
  exact ⟨fun hkept => hstatus.mp hkept.status,
    fun hcondition => ⟨hname, hdescription, hstatus.mpr hcondition⟩⟩

/--
An update keeps the fields that its body does not name, and sets those it
names, exactly when the body names `status` or the example is a draft.
-/
theorem keepsUnnamed_iff
    {uuid : UuidColumn} {table table' : ExampleTable uuid}
    {fault : Option ServiceError} {tenantId id id' : String} {now : Int}
    {response : ExampleResponse} {row row' : Example}
    (hbody : transform (some body) = .ok dto)
    (hid : uuid.parse id = some id')
    (hupdate : update fault tenantId id dto now table = (.ok response, table'))
    (hrow : findRow Example.id id' table.rows = some row)
    (hrow' : findRow Example.id id' table'.rows = some row') :
    KeepsUnnamed body row row' ↔ (body.field? "status").isSome ∨ row.status = "draft" := by
  have hchanged : row' = dto.data.apply now row := by
    rw [findRow_of_update hid hupdate, hrow, Option.map_some, if_pos (key_of_findRow hrow)] at hrow'
    exact (Option.some.inj hrow').symm
  rw [hchanged]
  exact keepsUnnamed_apply_iff hbody now row

end Bodies

/-! ## A renamed example -/

section Renamed

/-- A uuid column, on the texts it holds itself. -/
def plainUuids : UuidColumn where
  parse text := if isUuid text then some text else none
  canonical text value h := by
    split at h
    · next hvalid =>
      cases h
      exact if_pos hvalid
    · cases h

theorem plainUuids_parse {text : String} (h : isUuid text = true) :
    plainUuids.parse text = some text := by
  change (if isUuid text = true then some text else none) = some text
  exact if_pos h

def acme : String :=
  "00000000-0000-7000-8000-00000000000a"

def stored (status : String) : Example where
  id := "00000000-0000-7000-8000-000000000001"
  tenantId := acme
  name := "old"
  description := some "keep me"
  status := status
  createdAt := 0
  updatedAt := 0

theorem isUuid_storedId : isUuid "00000000-0000-7000-8000-000000000001" = true := by
  decide +kernel

theorem ids_stored_one (status : String) :
    ∀ row ∈ [stored status], plainUuids.parse row.id = some row.id := by
  intro row hrow
  rw [List.mem_singleton.mp hrow]
  exact plainUuids_parse isUuid_storedId

def oneExample (status : String) : ExampleTable plainUuids where
  rows := [stored status]
  ids_nodup := List.nodup_singleton _
  ids_stored := ids_stored_one status

def renameBody : Json :=
  .obj [("name", .str "new")]

def renameDto : UpdateExampleDto where
  name := some "new"
  description := none
  status := some "draft"

theorem transform_renameBody : transform (some renameBody) = .ok renameDto := by
  rfl

/-- A body with a name is accepted, and the update returns. -/
theorem exists_update_rename (status : String) :
    ∃ response table',
      update none acme (stored status).id renameDto 1 (oneExample status) =
          (.ok response, table') ∧
        findRow Example.id (stored status).id table'.rows =
          some (renameDto.data.apply 1 (stored status)) := by
  have hacme : isUuid acme = true := by decide +kernel
  have hid : plainUuids.parse (stored status).id = some (stored status).id :=
    (oneExample status).ids_stored _ List.mem_cons_self
  have hmem : stored status ∈ (oneExample status).rows := List.mem_cons_self
  have htaken : renameDto.data.taken = true := by decide
  obtain ⟨table', htable'⟩ := exists_update 1 hacme (plainUuids_parse hacme) hmem rfl htaken
  refine ⟨_, table', htable', ?_⟩
  rw [findRow_of_update hid htable']
  rfl

theorem keepsUnnamed_draft :
    ∃ response table' row',
      update none acme (stored "draft").id renameDto 1 (oneExample "draft") =
          (.ok response, table') ∧
        findRow Example.id (stored "draft").id table'.rows = some row' ∧
          KeepsUnnamed renameBody (stored "draft") row' := by
  obtain ⟨response, table', hupdate, hrow'⟩ := exists_update_rename "draft"
  have hid : plainUuids.parse (stored "draft").id = some (stored "draft").id :=
    (oneExample "draft").ids_stored _ List.mem_cons_self
  exact ⟨response, table', _, hupdate, hrow',
    (keepsUnnamed_iff transform_renameBody hid hupdate rfl hrow').mpr (Or.inr rfl)⟩

/-- Renaming a published example makes it a draft. -/
theorem not_keepsUnnamed_published :
    ∃ response table' row',
      transform (some renameBody) = .ok renameDto ∧
      update none acme (stored "published").id renameDto 1 (oneExample "published") =
          (.ok response, table') ∧
        findRow Example.id (stored "published").id table'.rows = some row' ∧
          row'.status = "draft" ∧ ¬ KeepsUnnamed renameBody (stored "published") row' := by
  obtain ⟨response, table', hupdate, hrow'⟩ := exists_update_rename "published"
  refine ⟨response, table', _, transform_renameBody, hupdate, hrow', rfl, ?_⟩
  rw [keepsUnnamed_apply_iff transform_renameBody]
  decide

end Renamed

end Examples
end NestBase
