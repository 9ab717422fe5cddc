import NestBase.Core.PrismaSchema

/-!
# The extension chain of the client

`buildExtendedClient` puts `uuidV7Extension`, `auditStampExtension` and
`softDeleteExtension` before the client.  Each rewrites the arguments of an
operation, for all models alike.

What they add is right: a read finds the rows without `deletedAt`, a write
stores the given data with the stamps.  But they add `deletedAt`, `id`,
`tenantId`, `createdBy` and `updatedBy` without regard to the columns of the
model, leave `includeDeleted` where it is, and put a unique where-clause below
an `AND`.  `keepsPromise_iff` says which calls the client still takes.
-/

namespace NestBase
namespace PrismaExtensions

open Lib
open Lib.Prisma
open PrismaSchema

/-! ## The extensions -/

/-- What the resolvers find in the request. -/
structure Resolvers where
  tenantId : Option String
  userId : Option String
deriving DecidableEq, Repr

/-- Set an entry that is absent or undefined. -/
def setMissing (name value : String) (data : Data) : Data :=
  match data.value name with
  | none => data.set name (.printed value)
  | some _ => data

def stampCreate (resolvers : Resolvers) (data : Data) : Data :=
  let out := resolvers.tenantId.elim data fun tenantId => setMissing "tenantId" tenantId data
  resolvers.userId.elim out fun userId =>
    setMissing "updatedBy" userId (setMissing "createdBy" userId out)

def stampUpdate (resolvers : Resolvers) (data : Data) : Data :=
  resolvers.userId.elim data fun userId => setMissing "updatedBy" userId data

/-- `newId` is what `uuidV7()` draws. -/
def uuidV7Extension (newId : String) (operation : Operation) (args : Args) : Args :=
  match operation with
  | .create => { args with data := some (setMissing "id" newId (args.data.getD [])) }
  | _ => args

def auditStampExtension (resolvers : Resolvers) (operation : Operation) (args : Args) : Args :=
  match operation with
  | .create => { args with data := some (stampCreate resolvers (args.data.getD [])) }
  | .update => { args with data := some (stampUpdate resolvers (args.data.getD [])) }
  | .upsert =>
      { args with
        create := args.create.map (stampCreate resolvers)
        update := args.update.map (stampUpdate resolvers) }
  | _ => args

/-- `{ deletedAt: null }` -/
def notDeleted : Where :=
  .field "deletedAt" (.equals .null) .empty

def addSoftDeleteFilter (args : Args) (includeDeleted : Bool) : Args :=
  if includeDeleted then args
  else
    match args.clause with
    | none => { args with clause := some notDeleted }
    | some .empty => { args with clause := some notDeleted }
    | some clause =>
        { args with clause := some (.and (.cons clause (.cons notDeleted .nil)) .empty) }

def softDeleteExtension (operation : Operation) (args : Args) : Args :=
  if operation.isRead then addSoftDeleteFilter args (decide (args.includeDeleted = some true))
  else args

/-- The arguments that reach the client. -/
def extended (resolvers : Resolvers) (newId : String) (operation : Operation) (args : Args) : Args :=
  softDeleteExtension operation
    (auditStampExtension resolvers operation (uuidV7Extension newId operation args))

/-! ## What is promised -/

def isLive (row : Row) : Bool :=
  decide (row "deletedAt" = .null)

/-- The rows a read is about. -/
def shown (model : Model) (args : Args) (rows : List Row) : List Row :=
  if model.hasColumn "deletedAt" && decide (args.includeDeleted ≠ some true) then
    rows.filter isLive
  else rows

/-- The stamp of a new row. -/
def createStamp (resolvers : Resolvers) (column : String) : Option Value :=
  if column = "tenantId" then resolvers.tenantId.map .printed
  else if column = "createdBy" ∨ column = "updatedBy" then resolvers.userId.map .printed
  else none

def updateStamp (resolvers : Resolvers) (column : String) : Option Value :=
  if column = "updatedBy" then resolvers.userId.map .printed else none

/-- What a new row holds of the data; the database generates an id where none is given. -/
def storedCreate (model : Model) (generated : String) (data : Data) (column : String) :
    Option Value :=
  if column = "id" ∧ model.generatesId = true ∧ (data.value "id").isNone then
    some (.printed generated)
  else data.value column

/-- The given data, and what is stored for the columns they leave out. -/
structure Stores
    (model : Model) (stamp : String → Option Value) (given : Data)
    (stored : String → Option Value) : Prop where
  kept : ∀ column value, given.value column = some value → stored column = some value
  stamped :
    ∀ column, column ≠ "id" → model.hasColumn column = true → given.value column = none →
      stored column = stamp column

/-- A write stores what it is given, with its stamps and an id. -/
def StoresWrite (model : Model) (resolvers : Resolvers) (generated : String) (args handed : Args) :
    Operation → Prop
  | .create =>
      ∃ data, handed.data = some data ∧
        Stores model (createStamp resolvers) (args.data.getD [])
          (storedCreate model generated data) ∧
        (model.hasColumn "id" = true → (storedCreate model generated data "id").isSome)
  | .update =>
      ∃ given data, args.data = some given ∧ handed.data = some data ∧
        Stores model (updateStamp resolvers) given data.value
  | .upsert =>
      ∃ given data given' data', args.create = some given ∧ handed.create = some data ∧
        args.update = some given' ∧ handed.update = some data' ∧
        Stores model (createStamp resolvers) given (storedCreate model generated data) ∧
        (model.hasColumn "id" = true → (storedCreate model generated data "id").isSome) ∧
        Stores model (updateStamp resolvers) given' data'.value
  | _ => True

/-- The extensions change only what they promise. -/
structure KeepsPromise
    (model : Model) (resolvers : Resolvers) (newId : String) (operation : Operation)
    (args : Args) : Prop where
  valid : valid model operation (extended resolvers newId operation args) = true
  reads :
    operation.isRead = true → ∀ page rows,
      findRows operation (extended resolvers newId operation args).clause page rows =
        findRows operation args.clause page (shown model args rows)
  writes :
    ∀ generated,
      StoresWrite model resolvers generated args (extended resolvers newId operation args)
        operation

/-- The bare client takes the arguments, apart from `includeDeleted` of a read. -/
structure Accepted (model : Model) (operation : Operation) (args : Args) : Prop where
  valid : Prisma.valid model operation { args with includeDeleted := none } = true
  onlyReads : operation.isRead = false → args.includeDeleted = none

/-- When they do. -/
def Kept (model : Model) (resolvers : Resolvers) (args : Args) : Operation → Prop
  | .findMany => model.hasColumn "deletedAt" = true ∧ args.includeDeleted = none
  | .findFirst => model.hasColumn "deletedAt" = true ∧ args.includeDeleted = none
  | .findUnique => False
  | .create =>
      model.hasColumn "id" = true ∧
        (resolvers.tenantId = none ∨ model.hasColumn "tenantId" = true) ∧ resolvers.userId = none
  | .update => resolvers.userId = none
  | .upsert =>
      (resolvers.tenantId = none ∨ model.hasColumn "tenantId" = true) ∧ resolvers.userId = none

/-! ## Stamps -/

section Stamps

variable {accepts : String → Bool} {data : Data} {resolvers : Resolvers}

theorem value_setMissing (data : Data) (name value other : String) :
    (setMissing name value data).value other =
      (data.value other).or (if name = other then some (.printed value) else none) := by
  unfold setMissing
  cases hname : data.value name with
  | none =>
      dsimp only
      rw [Data.value_set]
      by_cases hother : name = other
      · subst hother
        rw [if_pos rfl, if_pos rfl, hname]
        rfl
      · rw [if_neg hother, if_neg hother, Option.or_none]
  | some old =>
      dsimp only
      by_cases hother : name = other
      · subst hother
        rw [hname]
        rfl
      · rw [if_neg hother, Option.or_none]

theorem value_stampCreate (resolvers : Resolvers) (data : Data) (column : String) :
    (stampCreate resolvers data).value column =
      (data.value column).or (createStamp resolvers column) := by
  unfold stampCreate createStamp
  by_cases htenant : column = "tenantId"
  · subst htenant
    cases resolvers.tenantId <;> cases resolvers.userId <;> simp [value_setMissing]
  rw [if_neg htenant]
  by_cases hcreated : column = "createdBy"
  · subst hcreated
    cases resolvers.tenantId <;> cases resolvers.userId <;> simp [value_setMissing]
  by_cases hupdated : column = "updatedBy"
  · subst hupdated
    cases resolvers.tenantId <;> cases resolvers.userId <;> simp [value_setMissing]
  rw [if_neg (not_or.mpr ⟨hcreated, hupdated⟩)]
  cases resolvers.tenantId <;> cases resolvers.userId <;>
    simp [value_setMissing, Ne.symm htenant, Ne.symm hcreated, Ne.symm hupdated]

theorem value_stampUpdate (resolvers : Resolvers) (data : Data) (column : String) :
    (stampUpdate resolvers data).value column =
      (data.value column).or (updateStamp resolvers column) := by
  unfold stampUpdate updateStamp
  cases resolvers.userId with
  | none => simp
  | some userId =>
      rw [Option.elim_some, value_setMissing]
      simp only [Option.map_some, eq_comm]

/-- A column that is set is known, or refused with the data. -/
theorem names_setMissing_iff {name value : String} :
    (setMissing name value data).names accepts = true ↔
      data.names accepts = true ∧ accepts name = true := by
  unfold setMissing
  cases hname : data.value name with
  | none =>
      exact names_set_iff
  | some old =>
      exact ⟨fun hdata => ⟨hdata, accepts_of_value hdata hname⟩, fun h => h.1⟩

theorem names_stampCreate_iff :
    (stampCreate resolvers data).names accepts = true ↔
      data.names accepts = true ∧
        (resolvers.tenantId = none ∨ accepts "tenantId" = true) ∧
          (resolvers.userId = none ∨ accepts "createdBy" = true ∧ accepts "updatedBy" = true) := by
  unfold stampCreate
  cases resolvers.tenantId <;> cases resolvers.userId <;>
    simp [names_setMissing_iff, and_assoc]

theorem names_stampUpdate_iff :
    (stampUpdate resolvers data).names accepts = true ↔
      data.names accepts = true ∧ (resolvers.userId = none ∨ accepts "updatedBy" = true) := by
  unfold stampUpdate
  cases resolvers.userId <;> simp [names_setMissing_iff]

theorem hasNeeded_setMissing
    {model : Model} {name value : String}
    (hneeded : model.hasNeeded data = true) :
    model.hasNeeded (setMissing name value data) = true := by
  unfold setMissing
  split
  · exact hasNeeded_set hneeded
  · exact hneeded

theorem hasNeeded_stampCreate {model : Model} (hneeded : model.hasNeeded data = true) :
    model.hasNeeded (stampCreate resolvers data) = true := by
  unfold stampCreate
  have hout :
      model.hasNeeded
        (resolvers.tenantId.elim data fun tenantId => setMissing "tenantId" tenantId data) =
          true := by
    cases resolvers.tenantId with
    | none => exact hneeded
    | some tenantId => exact hasNeeded_setMissing hneeded
  cases resolvers.userId with
  | none => exact hout
  | some userId => exact hasNeeded_setMissing (hasNeeded_setMissing hout)

end Stamps

/-! ## Filters -/

section Filters

theorem eval_notDeleted (row : Row) : notDeleted.eval row = isLive row := by
  rw [notDeleted, Where.eval, Where.eval, Bool.and_true]
  rfl

/-- The filter leaves out the deleted rows. -/
theorem eval_addSoftDeleteFilter (args : Args) (row : Row) :
    ((addSoftDeleteFilter args false).clause.all (·.eval row)) =
      (args.clause.all (·.eval row) && isLive row) := by
  unfold addSoftDeleteFilter
  rw [if_neg Bool.false_ne_true]
  split
  · next hclause => rw [hclause, Option.all_some, Option.all_none, eval_notDeleted, Bool.true_and]
  · next hclause =>
      rw [hclause, Option.all_some, Option.all_some, eval_notDeleted, Where.eval, Bool.true_and]
  · next clause _ hclause =>
      rw [hclause, Option.all_some, Option.all_some, Where.eval, Branches.all, Branches.all,
        Branches.all, Where.eval, eval_notDeleted, Bool.and_true, Bool.and_true]

theorem uses_notDeleted (accepts : String → Bool) :
    notDeleted.uses accepts = accepts "deletedAt" := by
  rw [notDeleted, Where.uses, Where.uses, Bool.and_true]

/-- The filter is known where `deletedAt` is. -/
theorem uses_addSoftDeleteFilter (args : Args) (accepts : String → Bool) :
    ((addSoftDeleteFilter args false).clause.all (·.uses accepts)) =
      (args.clause.all (·.uses accepts) && accepts "deletedAt") := by
  unfold addSoftDeleteFilter
  rw [if_neg Bool.false_ne_true]
  split
  · next hclause => rw [hclause, Option.all_some, Option.all_none, uses_notDeleted, Bool.true_and]
  · next hclause =>
      rw [hclause, Option.all_some, Option.all_some, uses_notDeleted, Where.uses, Bool.true_and]
  · next clause _ hclause =>
      rw [hclause, Option.all_some, Option.all_some, Where.uses, Branches.uses, Branches.uses,
        Branches.uses, Where.uses, uses_notDeleted, Bool.and_true, Bool.and_true]

/-- Below an `AND` there is no unique field at the top. -/
theorem not_isUnique_addSoftDeleteFilter
    {model : Model} {args : Args}
    (hclause : args.clause.any (·.isUnique model) = true) :
    (addSoftDeleteFilter args false).clause.any (·.isUnique model) = false := by
  unfold addSoftDeleteFilter
  rw [if_neg Bool.false_ne_true]
  split
  · next hnone =>
      rw [hnone] at hclause
      cases hclause
  · next hempty =>
      rw [hempty] at hclause
      cases hclause
  · rw [Option.any_some, Where.isUnique, Where.hasUnique, Where.hasUnique, Bool.and_false]

/-- Only the where-clause changes. -/
theorem addSoftDeleteFilter_eq (args : Args) (includeDeleted : Bool) :
    addSoftDeleteFilter args includeDeleted =
      { args with clause := (addSoftDeleteFilter args includeDeleted).clause } := by
  unfold addSoftDeleteFilter
  split
  · rfl
  · split <;> rfl

end Filters

/-! ## Reads -/

section Reads

variable {model : Model} {resolvers : Resolvers} {newId : String} {args : Args}
variable {operation : Operation}

/-- An `includeDeleted` stays among the arguments, and is refused. -/
theorem not_valid_of_includeDeleted
    {given : Bool}
    (hread : operation.isRead = true)
    (hgiven : args.includeDeleted = some given) :
    valid model operation (extended resolvers newId operation args) = false := by
  have hextended :
      extended resolvers newId operation args =
        addSoftDeleteFilter args (decide (args.includeDeleted = some true)) := by
    cases operation <;> first | rfl | cases hread
  rw [hextended, addSoftDeleteFilter_eq, valid, hgiven]
  rfl

/-- A read of many rows, or of the first, is taken when the model has a `deletedAt`. -/
theorem valid_find_iff
    (hfind : operation = .findMany ∨ operation = .findFirst)
    (hargs : Accepted model operation args)
    (hgiven : args.includeDeleted = none) :
    valid model operation (extended resolvers newId operation args) = true ↔
      model.knows "deletedAt" = true := by
  have hbare := hargs.valid
  rcases hfind with rfl | rfl
  all_goals
    simp only [valid, validShape, Bool.and_eq_true] at hbare
    obtain ⟨⟨-, hothers⟩, ⟨⟨huses, hdata⟩, hcreate⟩, hupdate⟩ := hbare
    have hfilter := uses_addSoftDeleteFilter args model.knows
    rw [huses, Bool.true_and] at hfilter
    change valid model _ (addSoftDeleteFilter args (decide (args.includeDeleted = some true))) =
      true ↔ _
    rw [hgiven, decide_eq_false (by decide), addSoftDeleteFilter_eq]
    simp only [valid, validShape, hgiven, hothers, hfilter, hdata, hcreate, hupdate,
      Option.isNone_none, Bool.and_true, Bool.true_and]

theorem not_valid_findUnique (hargs : Accepted model .findUnique args) :
    valid model .findUnique (extended resolvers newId .findUnique args) = false := by
  cases hgiven : args.includeDeleted with
  | some given => exact not_valid_of_includeDeleted rfl hgiven
  | none =>
      have hbare := hargs.valid
      simp only [valid, validShape, Bool.and_eq_true] at hbare
      obtain ⟨-, ⟨⟨hunique, -⟩, -⟩, -⟩ := hbare
      change valid model _ (addSoftDeleteFilter args (decide (args.includeDeleted = some true))) = _
      rw [hgiven, decide_eq_false (by decide), addSoftDeleteFilter_eq]
      simp only [valid, validShape, not_isUnique_addSoftDeleteFilter hunique, Bool.false_and,
        Bool.and_false]

/-- A filtered read is the read of the rows that are not deleted. -/
theorem findRows_extended
    (hread : operation.isRead = true)
    (hcolumn : model.hasColumn "deletedAt" = true)
    (hgiven : args.includeDeleted = none)
    (page : List Row → List Row) (rows : List Row) :
    findRows operation (extended resolvers newId operation args).clause page rows =
      findRows operation args.clause page (shown model args rows) := by
  have hclause :
      (extended resolvers newId operation args).clause = (addSoftDeleteFilter args false).clause := by
    have hfalse : decide (args.includeDeleted = some true) = false := by
      rw [hgiven]
      rfl
    cases operation with
    | findMany => exact congrArg (fun b => (addSoftDeleteFilter args b).clause) hfalse
    | findFirst => exact congrArg (fun b => (addSoftDeleteFilter args b).clause) hfalse
    | findUnique => exact congrArg (fun b => (addSoftDeleteFilter args b).clause) hfalse
    | create => cases hread
    | update => cases hread
    | upsert => cases hread
  have hshown : shown model args rows = rows.filter isLive := by
    rw [shown, hcolumn, hgiven]
    rfl
  have hfound :
      (rows.filter fun row => (addSoftDeleteFilter args false).clause.all (·.eval row)) =
        (rows.filter isLive).filter fun row => args.clause.all (·.eval row) := by
    rw [List.filter_filter]
    exact List.filter_congr fun row _ => eval_addSoftDeleteFilter args row
  rw [findRows, findRows, hclause, hshown, hfound]

end Reads

/-! ## Writes -/

section Writes

variable {model : Model} {resolvers : Resolvers} {newId : String} {args : Args}
variable {data : Data}

/-- The data of a stamped `create` are taken when the stamps are columns. -/
theorem acceptsCreate_stampCreate_iff (hdata : model.acceptsCreate data = true) :
    model.acceptsCreate (stampCreate resolvers data) = true ↔
      (resolvers.tenantId = none ∨ model.knows "tenantId" = true) ∧
        (resolvers.userId = none ∨
          model.knows "createdBy" = true ∧ model.knows "updatedBy" = true) := by
  obtain ⟨hnames, hneeded⟩ := Bool.and_eq_true_iff.mp hdata
  rw [Model.acceptsCreate, Bool.and_eq_true, names_stampCreate_iff, hasNeeded_stampCreate hneeded,
    hnames]
  simp only [true_and, and_true]

theorem acceptsUpdate_stampUpdate_iff (hdata : model.acceptsUpdate data = true) :
    model.acceptsUpdate (stampUpdate resolvers data) = true ↔
      resolvers.userId = none ∨ model.knows "updatedBy" = true := by
  rw [Model.acceptsUpdate, names_stampUpdate_iff]
  exact and_iff_right hdata

theorem valid_create_iff (hargs : Accepted model .create args) :
    valid model .create (extended resolvers newId .create args) = true ↔
      model.knows "id" = true ∧
        (resolvers.tenantId = none ∨ model.knows "tenantId" = true) ∧
          (resolvers.userId = none ∨
            model.knows "createdBy" = true ∧ model.knows "updatedBy" = true) := by
  have hgiven := hargs.onlyReads rfl
  have hbare := hargs.valid
  simp only [valid, validShape, Bool.and_eq_true] at hbare
  obtain ⟨⟨-, hothers⟩, ⟨⟨hclause, hdata⟩, hcreate⟩, hupdate⟩ := hbare
  obtain ⟨hnames, hneeded⟩ := Bool.and_eq_true_iff.mp hdata
  have haccepts :
      model.acceptsCreate (stampCreate resolvers (setMissing "id" newId (args.data.getD []))) =
          true ↔
        model.knows "id" = true ∧
          (resolvers.tenantId = none ∨ model.knows "tenantId" = true) ∧
            (resolvers.userId = none ∨
              model.knows "createdBy" = true ∧ model.knows "updatedBy" = true) := by
    rw [Model.acceptsCreate, Bool.and_eq_true, names_stampCreate_iff, names_setMissing_iff,
      hasNeeded_stampCreate (hasNeeded_setMissing hneeded), hnames]
    simp only [true_and, and_true]
  rw [← haccepts]
  change valid model .create
      { args with
        data := some (stampCreate resolvers (setMissing "id" newId (args.data.getD []))) } = true ↔ _
  simp only [valid, validShape, hgiven, hothers, hclause, hcreate, hupdate, Option.isNone_none,
    Option.getD_some, Bool.and_true, Bool.true_and]

theorem valid_update_iff (hargs : Accepted model .update args) :
    valid model .update (extended resolvers newId .update args) = true ↔
      resolvers.userId = none ∨ model.knows "updatedBy" = true := by
  have hgiven := hargs.onlyReads rfl
  have hbare := hargs.valid
  simp only [valid, validShape, Bool.and_eq_true] at hbare
  obtain ⟨⟨-, hothers⟩, ⟨⟨hclause, hdata⟩, hcreate⟩, hupdate⟩ := hbare
  obtain ⟨data, hsome, hdata⟩ := (Option.any_eq_true _ _).mp hdata
  rw [← acceptsUpdate_stampUpdate_iff hdata]
  change valid model .update
      { args with data := some (stampUpdate resolvers (args.data.getD [])) } = true ↔ _
  simp only [valid, validShape, hgiven, hothers, hclause, hcreate, hupdate, hsome,
    Option.isNone_none, Option.getD_some, Option.any_some, Bool.and_true, Bool.true_and]

theorem valid_upsert_iff (hargs : Accepted model .upsert args) :
    valid model .upsert (extended resolvers newId .upsert args) = true ↔
      (resolvers.tenantId = none ∨ model.knows "tenantId" = true) ∧
        (resolvers.userId = none ∨
          model.knows "createdBy" = true ∧ model.knows "updatedBy" = true) := by
  have hgiven := hargs.onlyReads rfl
  have hbare := hargs.valid
  simp only [valid, validShape, Bool.and_eq_true] at hbare
  obtain ⟨⟨-, hothers⟩, ⟨⟨hclause, hdata⟩, hcreate⟩, hupdate⟩ := hbare
  obtain ⟨create, hcreateSome, hcreate⟩ := (Option.any_eq_true _ _).mp hcreate
  obtain ⟨update, hupdateSome, hupdate⟩ := (Option.any_eq_true _ _).mp hupdate
  change valid model .upsert
      { args with
        create := args.create.map (stampCreate resolvers)
        update := args.update.map (stampUpdate resolvers) } = true ↔ _
  simp only [valid, validShape, hgiven, hothers, hclause, hdata, hcreateSome, hupdateSome,
    Option.isNone_none, Option.map_some, Option.any_some, Bool.true_and, Bool.and_eq_true,
    acceptsCreate_stampCreate_iff hcreate, acceptsUpdate_stampUpdate_iff hupdate]
  constructor
  · exact fun h => h.1
  · exact fun h => ⟨h, h.2.imp_right And.right⟩

/-- A row that has an `id` gets one. -/
theorem isSome_storedCreate_id
    {generated : String}
    (hmodel : model ∈ schema)
    (hneeded : model.hasNeeded data = true)
    (hid : model.hasColumn "id" = true) :
    (storedCreate model generated data "id").isSome = true := by
  unfold storedCreate
  cases hvalue : data.value "id" with
  | some value =>
      rw [if_neg (by simp)]
      rfl
  | none =>
      obtain ⟨column, hcolumn, hname⟩ := List.any_eq_true.mp hid
      have hname : column.name = "id" := of_decide_eq_true hname
      have hfree : column.needed = false := by
        by_contra hcontra
        have hgiven := (List.all_eq_true.mp hneeded) column hcolumn
        simp only [hname, hvalue, Bool.eq_true_of_not_eq_false hcontra, Bool.or_eq_true,
          List.any_eq_true, Bool.and_eq_true] at hgiven
        rcases hgiven with (hneeded | hsome) | ⟨relation, hrelation, hfields, -⟩
        · cases hneeded
        · cases hsome
        · exact not_fields_id model hmodel relation hrelation (List.contains_iff_mem.mp hfields)
      have hgenerates : model.generatesId = true :=
        List.any_eq_true.mpr ⟨column, hcolumn, by simp [hname, hfree]⟩
      rw [if_pos ⟨rfl, hgenerates, rfl⟩]
      rfl

/-- Stamped data are stored with their stamps, whatever id they get. -/
theorem stores_of_value
    {given : Data} {stamp : String → Option Value} {generated : String}
    (hgiven : ∀ column value, given.value column = some value → data.value column = some value)
    (hstamp :
      ∀ column, column ≠ "id" → given.value column = none → data.value column = stamp column) :
    Stores model stamp given (storedCreate model generated data) := by
  constructor
  · intro column value hvalue
    have hdata := hgiven column value hvalue
    unfold storedCreate
    rw [if_neg, hdata]
    rintro ⟨rfl, -, hnone⟩
    rw [hdata] at hnone
    cases hnone
  · intro column hid _ hvalue
    unfold storedCreate
    rw [if_neg fun h => hid h.1]
    exact hstamp column hid hvalue

theorem stores_create (given : Data) (generated : String) :
    Stores model (createStamp resolvers) given
      (storedCreate model generated (stampCreate resolvers (setMissing "id" newId given))) := by
  refine stores_of_value ?_ ?_
  · intro column value hvalue
    rw [value_stampCreate, value_setMissing, hvalue, Option.some_or, Option.some_or]
  · intro column hid hvalue
    rw [value_stampCreate, value_setMissing, hvalue, if_neg (Ne.symm hid), Option.or_none,
      Option.none_or]

theorem stores_upsert (given : Data) (generated : String) :
    Stores model (createStamp resolvers) given
      (storedCreate model generated (stampCreate resolvers given)) := by
  refine stores_of_value ?_ ?_
  · intro column value hvalue
    rw [value_stampCreate, hvalue, Option.some_or]
  · intro column _ hvalue
    rw [value_stampCreate, hvalue, Option.none_or]

theorem stores_update (given : Data) :
    Stores model (updateStamp resolvers) given (stampUpdate resolvers given).value := by
  constructor
  · intro column value hvalue
    rw [value_stampUpdate, hvalue, Option.some_or]
  · intro column _ _ hvalue
    rw [value_stampUpdate, hvalue, Option.none_or]

/-- What is stored is right, where the client takes the write. -/
theorem storesWrite_extended
    {operation : Operation}
    (hmodel : model ∈ schema)
    (hargs : Accepted model operation args)
    (generated : String) :
    StoresWrite model resolvers generated args (extended resolvers newId operation args)
      operation := by
  have hbare := hargs.valid
  cases operation with
  | findMany => exact trivial
  | findFirst => exact trivial
  | findUnique => exact trivial
  | create =>
      simp only [valid, validShape, Bool.and_eq_true] at hbare
      obtain ⟨-, ⟨⟨-, hdata⟩, -⟩, -⟩ := hbare
      have hneeded := (Bool.and_eq_true_iff.mp hdata).2
      exact ⟨_, rfl, stores_create _ generated,
        isSome_storedCreate_id hmodel (hasNeeded_stampCreate (hasNeeded_setMissing hneeded))⟩
  | update =>
      simp only [valid, validShape, Bool.and_eq_true] at hbare
      obtain ⟨-, ⟨⟨-, hdata⟩, -⟩, -⟩ := hbare
      obtain ⟨data, hsome, -⟩ := (Option.any_eq_true _ _).mp hdata
      refine ⟨data, stampUpdate resolvers data, hsome, ?_, stores_update data⟩
      change some (stampUpdate resolvers (args.data.getD [])) = _
      rw [hsome, Option.getD_some]
  | upsert =>
      simp only [valid, validShape, Bool.and_eq_true] at hbare
      obtain ⟨-, ⟨-, hcreate⟩, hupdate⟩ := hbare
      obtain ⟨create, hcreateSome, hcreate⟩ := (Option.any_eq_true _ _).mp hcreate
      obtain ⟨update, hupdateSome, -⟩ := (Option.any_eq_true _ _).mp hupdate
      have hneeded := (Bool.and_eq_true_iff.mp hcreate).2
      refine ⟨create, stampCreate resolvers create, update, stampUpdate resolvers update,
        hcreateSome, congrArg (Option.map (stampCreate resolvers)) hcreateSome, hupdateSome,
        congrArg (Option.map (stampUpdate resolvers)) hupdateSome, stores_upsert create generated,
        isSome_storedCreate_id hmodel (hasNeeded_stampCreate hneeded), stores_update update⟩

end Writes

/-! ## Together -/

section Main

variable {model : Model} {resolvers : Resolvers} {newId : String} {args : Args}

theorem valid_extended_iff
    {operation : Operation}
    (hmodel : model ∈ schema)
    (hargs : Accepted model operation args) :
    valid model operation (extended resolvers newId operation args) = true ↔
      Kept model resolvers args operation := by
  have hid := knows_eq_hasColumn model hmodel "id" (by simp)
  have htenant := knows_eq_hasColumn model hmodel "tenantId" (by simp)
  have hdeleted := knows_eq_hasColumn model hmodel "deletedAt" (by simp)
  have hcreated : ¬ (model.knows "createdBy" = true ∧ model.knows "updatedBy" = true) := by
    rw [knows_eq_hasColumn model hmodel "createdBy" (by simp),
      not_hasColumn_createdBy model hmodel]
    exact fun h => Bool.false_ne_true h.1
  have huser :
      (resolvers.userId = none ∨ model.knows "createdBy" = true ∧ model.knows "updatedBy" = true) ↔
        resolvers.userId = none :=
    or_iff_left hcreated
  have hupdated : model.knows "updatedBy" ≠ true := by
    rw [knows_eq_hasColumn model hmodel "updatedBy" (by simp),
      not_hasColumn_updatedBy model hmodel]
    exact Bool.false_ne_true
  have hfind :
      ∀ operation', operation = operation' → (operation' = .findMany ∨ operation' = .findFirst) →
        (valid model operation (extended resolvers newId operation args) = true ↔
          model.hasColumn "deletedAt" = true ∧ args.includeDeleted = none) := by
    rintro operation' rfl hoperation
    have hread : operation.isRead = true := by
      rcases hoperation with rfl | rfl <;> rfl
    cases hgiven : args.includeDeleted with
    | none =>
        rw [valid_find_iff hoperation hargs hgiven, hdeleted]
        exact (and_iff_left rfl).symm
    | some given =>
        rw [not_valid_of_includeDeleted hread hgiven]
        exact iff_of_false Bool.false_ne_true fun h => nomatch h.2
  cases operation with
  | findMany => exact hfind _ rfl (Or.inl rfl)
  | findFirst => exact hfind _ rfl (Or.inr rfl)
  | findUnique =>
      rw [not_valid_findUnique hargs]
      exact iff_of_false Bool.false_ne_true id
  | create =>
      rw [valid_create_iff hargs, hid, htenant, huser]
      rfl
  | update =>
      rw [valid_update_iff hargs, or_iff_left hupdated]
      rfl
  | upsert =>
      rw [valid_upsert_iff hargs, htenant, huser]
      rfl

/-- A call does what is promised exactly when the client takes its arguments. -/
theorem keepsPromise_iff
    {operation : Operation}
    (hmodel : model ∈ schema)
    (hargs : Accepted model operation args) :
    KeepsPromise model resolvers newId operation args ↔ Kept model resolvers args operation := by
  have hvalid :
      valid model operation (extended resolvers newId operation args) = true ↔
        Kept model resolvers args operation :=
    valid_extended_iff hmodel hargs
  constructor
  · exact fun h => hvalid.mp h.valid
  · intro hkept
    refine ⟨hvalid.mpr hkept, fun hread page rows => ?_, storesWrite_extended hmodel hargs⟩
    cases operation with
    | findMany => exact findRows_extended rfl hkept.1 hkept.2 page rows
    | findFirst => exact findRows_extended rfl hkept.1 hkept.2 page rows
    | findUnique => exact hkept.elim
    | create => cases hread
    | update => cases hread
    | upsert => cases hread

end Main

/-- Arguments that name a value of one field. -/
def whereField (name text : String) : Args where
  clause := some (.field name (.equals (.printed text)) .empty)
  data := none
  create := none
  update := none
  includeDeleted := none
  others := []

/-- A tenant reads its files of one name. -/
theorem keepsPromise_file :
    KeepsPromise File ⟨some "t1", some "u1"⟩ "new" .findMany (whereField "filename" "a.txt") :=
  (keepsPromise_iff (by decide) ⟨by rfl, fun _ => rfl⟩).mpr
    ⟨by rfl, rfl⟩

/-- A user is not found by address, as it has no `deletedAt`; nor a file by its id. -/
theorem not_keepsPromise_user_file :
    (Accepted User .findFirst (whereField "email" "a@b.c") ∧
      ¬ KeepsPromise User ⟨none, none⟩ "new" .findFirst (whereField "email" "a@b.c")) ∧
    (Accepted File .findUnique (whereField "id" "f1") ∧
      ¬ KeepsPromise File ⟨none, none⟩ "new" .findUnique (whereField "id" "f1")) := by
  refine ⟨⟨⟨by rfl, fun _ => rfl⟩, fun hkept => ?_⟩,
    ⟨⟨by rfl, fun _ => rfl⟩, fun hkept => ?_⟩⟩
  · exact absurd hkept.valid (by decide)
  · exact absurd hkept.valid (by decide)

end PrismaExtensions
end NestBase
