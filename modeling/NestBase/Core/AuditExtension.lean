import NestBase.Lib.ChangeStore
import NestBase.Lib.OrderedMap
import NestBase.Lib.Transition

/-!
# The audit extension

`buildAuditExtension` writes a row of the audit log after a `create`, an
`update` or a `delete` of an auditable model.  It does so by the bare client:
outside the transaction the call runs in, after the change, and when the
feature is on.  The other four write operations have no hook.

A run is a sequence of calls and of transactions that start and finish.  What
the database answers to a call, and whether the insert into the audit log
succeeds, belongs to the event, so a result about every run is one about every
database.  `accounted_step_iff` says which steps keep the log in balance with
the changes that are not undone, and `complete_of_reaches` is the result for
runs of such steps.
-/

namespace NestBase
namespace AuditExtension

open Lib

/-! ## Rows and arguments -/

/-- What is neither null nor a string is kept as `String` prints it. -/
inductive Value where
  | null
  | string (text : String)
  | other (printed : String)
deriving DecidableEq, Repr

abbrev Record := List (String × Value)

inductive Action where
  | create
  | update
  | delete
  | restore
deriving DecidableEq, Repr

/-- The columns a call asks for. -/
inductive Projection where
  | all
  | select (names : List String)
  | leaveOut (names : List String)
deriving DecidableEq, Repr

def Projection.keeps (name : String) : Projection → Bool
  | all => true
  | select names => names.contains name
  | leaveOut names => !names.contains name

def Projection.result (returns : Projection) (row : Record) : Record :=
  row.filter fun entry => returns.keeps entry.1

structure CreateArgs where
  data : Record
  returns : Projection
deriving DecidableEq, Repr

structure UpdateArgs where
  clause : Record
  data : Record
  returns : Projection
deriving DecidableEq, Repr

structure DeleteArgs where
  clause : Record
  hardDelete : Option Bool
  returns : Projection
deriving DecidableEq, Repr

/-- A change of one row; its id is none when the model has no such column. -/
structure Change where
  model : String
  id : Option String
  action : Action
deriving DecidableEq, Repr

/--
A call is refused before it reaches the database, fails there, or changes rows:
those it is about, and others along with them, by a nested write or a cascade.
-/
inductive Outcome (α : Type) where
  | refused
  | failed
  | done (answer : α) (along : List Change)
deriving DecidableEq, Repr

/-- What a call does to the database. -/
inductive Effect where
  | refused
  | failed
  | done (changes : List Change)
deriving DecidableEq, Repr

def Outcome.effect {α : Type} (main : α → List Change) : Outcome α → Effect
  | refused => .refused
  | failed => .failed
  | done answer along => .done (main answer ++ along)

def Outcome.Holds {α : Type} (p : α → List Change → Prop) : Outcome α → Prop
  | refused => True
  | failed => True
  | done answer along => p answer along

def Outcome.answer? {α : Type} : Outcome α → Option α
  | refused => none
  | failed => none
  | done answer _ => some answer

/-- A write by the extended client, with the rows it changes, as they are then. -/
inductive Call where
  | create (model : String) (args : CreateArgs) (outcome : Outcome Record)
  | createMany (model : String) (outcome : Outcome (List Record))
  | update (model : String) (args : UpdateArgs) (outcome : Outcome Record)
  | updateMany (model : String) (data : Record) (outcome : Outcome (List Record))
  /-- The row is new, or it is updated by the data. -/
  | upsert (model : String) (update : Record) (outcome : Outcome (Bool × Record))
  | delete (model : String) (args : DeleteArgs) (outcome : Outcome Record)
  | deleteMany (model : String) (outcome : Outcome (List Record))
deriving DecidableEq, Repr

/-! ## The extension -/

def CORE_AUDITABLE_MODELS : List String :=
  ["Organization", "Member", "Role", "RolePolicy", "Policy", "Permission", "ApiKey"]

/-- The service in one request. -/
structure Service where
  auditEnabled : Bool
  extraAuditableModels : List String
  tenantId : Option String
  userId : Option String
  requestId : Option String
deriving DecidableEq, Repr

def Service.auditable (service : Service) (model : String) : Bool :=
  (CORE_AUDITABLE_MODELS ++ service.extraAuditableModels).contains model

/-- `/^[a-z_][a-z0-9_]*$/` -/
def isSafeTableName (name : String) : Bool :=
  match name.toList with
  | [] => false
  | first :: rest =>
      (first.isLower || first == '_') && rest.all fun c => c.isLower || c.isDigit || c == '_'

structure TableName where
  name : String
  safe : isSafeTableName name = true

def MODEL_TABLE_MAP : List (String × TableName) :=
  [("Organization", ⟨"organization", by decide⟩),
    ("Member", ⟨"member", by decide⟩),
    ("Role", ⟨"roles", by decide⟩),
    ("RolePolicy", ⟨"role_policies", by decide⟩),
    ("Policy", ⟨"policies", by decide⟩),
    ("Permission", ⟨"permissions", by decide⟩),
    ("ApiKey", ⟨"api_keys", by decide⟩),
    ("User", ⟨"users", by decide⟩),
    ("UserProfile", ⟨"user_profiles", by decide⟩),
    ("File", ⟨"files", by decide⟩),
    ("Folder", ⟨"folders", by decide⟩),
    ("WebhookEndpoint", ⟨"webhook_endpoints", by decide⟩)]

/-- What the bare client answers during a call. -/
structure BareClient where
  /-- The rows of a table with an id, none when the query fails. -/
  queryRawUnsafe : String → String → Option (List Record)
  /-- The row of the audit log is inserted. -/
  executeRaw : Bool

/-- Every name in the map is safe, so the check of the name does not throw. -/
def readBeforeImage (bare : BareClient) (model : String) (clause : Record) : Option Record :=
  match OrderedMap.get model MODEL_TABLE_MAP, OrderedMap.get "id" clause with
  | some table, some (.string id) =>
      if id.length = 0 then none
      else (bare.queryRawUnsafe table.name id).bind List.head?
  | _, _ => none

structure Diff where
  before : Option Record
  after : Option Record
  clause : Option Record
deriving DecidableEq, Repr

structure AuditLogWriteInput where
  tenantId : String
  actorUserId : Option String
  targetModel : String
  targetId : String
  action : Action
  diff : Diff
  /-- The id of the request. -/
  metadata : Option String
deriving DecidableEq, Repr

def extractTenantIdFromRow (row : Option Record) : Option String :=
  match row.bind (OrderedMap.get "tenantId") with
  | some (.string text) => if 0 < text.length then some text else none
  | _ => none

def extractTargetId (result : Record) : String :=
  match OrderedMap.get "id" result with
  | some (.string text) => text
  | some (.other printed) => printed
  | _ => ""

def emitAuditRow
    (service : Service) (model : String) (action : Action) (diff : Diff) (targetId : String)
    (tenantId : Option String) :
    Option AuditLogWriteInput :=
  tenantId.map fun tenantId =>
    { tenantId := tenantId
      actorUserId := service.userId
      targetModel := model
      targetId := targetId
      action := action
      diff := diff
      metadata := service.requestId }

/-- An update that clears `deletedAt` is a restore. -/
def updateAction (data : Record) : Action :=
  if OrderedMap.get "deletedAt" data = some .null then .restore else .update

def auditCreate (service : Service) (model : String) (args : CreateArgs) (result : Record) :
    Option AuditLogWriteInput :=
  let tenantId :=
    (extractTenantIdFromRow (some result)).or
      ((extractTenantIdFromRow (some args.data)).or service.tenantId)
  emitAuditRow service model .create ⟨none, some result, none⟩ (extractTargetId result) tenantId

def auditUpdate
    (service : Service) (bare : BareClient) (model : String) (args : UpdateArgs)
    (result : Record) :
    Option AuditLogWriteInput :=
  let before := readBeforeImage bare model args.clause
  let diff :=
    if before.isSome then ⟨before, some result, none⟩ else ⟨none, some args.data, none⟩
  let tenantId :=
    (extractTenantIdFromRow (some result)).or
      ((extractTenantIdFromRow before).or
        ((extractTenantIdFromRow (some args.clause)).or service.tenantId))
  emitAuditRow service model (updateAction args.data) diff (extractTargetId result) tenantId

def auditDelete
    (service : Service) (bare : BareClient) (model : String) (args : DeleteArgs)
    (result : Record) :
    Option AuditLogWriteInput :=
  let before := readBeforeImage bare model args.clause
  let diff := if before.isSome then ⟨before, none, none⟩ else ⟨none, none, some args.clause⟩
  let tenantId :=
    (extractTenantIdFromRow before).or
      ((extractTenantIdFromRow (some result)).or
        ((extractTenantIdFromRow (some args.clause)).or service.tenantId))
  emitAuditRow service model .delete diff (extractTargetId result) tenantId

/-- `softDeleteExtension` comes first: only a hard delete reaches the database. -/
def isHardDeleteRequest (args : DeleteArgs) : Bool :=
  decide (args.hardDelete = some true)

/-- The row that is emitted after the call. -/
def Call.emitted (service : Service) (bare : BareClient) : Call → Option AuditLogWriteInput
  | .create model args outcome =>
      outcome.answer?.bind fun row =>
        if service.auditable model then auditCreate service model args (args.returns.result row)
        else none
  | .update model args outcome =>
      outcome.answer?.bind fun row =>
        if service.auditable model then
          auditUpdate service bare model args (args.returns.result row)
        else none
  | .delete model args outcome =>
      outcome.answer?.bind fun row =>
        if service.auditable model && isHardDeleteRequest args then
          auditDelete service bare model args (args.returns.result row)
        else none
  | _ => none

/-- `writeAuditLog` does nothing while the feature is off. -/
def Call.written (service : Service) (bare : BareClient) (call : Call) : List AuditLogWriteInput :=
  if service.auditEnabled && bare.executeRaw then (call.emitted service bare).toList else []

/-! ## Runs -/

def rowId (row : Record) : Option String :=
  match OrderedMap.get "id" row with
  | some (.string text) => some text
  | some (.other printed) => some printed
  | _ => none

def Call.effect : Call → Effect
  | .create model _ outcome => outcome.effect fun row => [⟨model, rowId row, .create⟩]
  | .createMany model outcome => outcome.effect (·.map fun row => ⟨model, rowId row, .create⟩)
  | .update model args outcome =>
      outcome.effect fun row => [⟨model, rowId row, updateAction args.data⟩]
  | .updateMany model data outcome =>
      outcome.effect (·.map fun row => ⟨model, rowId row, updateAction data⟩)
  | .upsert model data outcome =>
      outcome.effect fun row =>
        [⟨model, rowId row.2, if row.1 then .create else updateAction data⟩]
  | .delete model args outcome =>
      if isHardDeleteRequest args then outcome.effect fun row => [⟨model, rowId row, .delete⟩]
      else .refused
  | .deleteMany model outcome => outcome.effect (·.map fun row => ⟨model, rowId row, .delete⟩)

inductive Event where
  | start (id : Nat)
  | call (transaction : Option Nat) (call : Call) (bare : BareClient)
  | finish (commits : Bool) (id : Nat)

structure World where
  store : ChangeStore Nat Change
  auditLog : List AuditLogWriteInput
deriving DecidableEq, Repr

def World.empty : World where
  store := .empty
  auditLog := []

/-- The row of the log is committed at once, whatever becomes of the transaction. -/
def step (service : Service) (world : World) : Event → Option World
  | .start id => (world.store.start id).map fun store => { world with store := store }
  | .call transaction call bare =>
      match call.effect with
      | .refused => some world
      | .failed => (world.store.abort transaction).map fun store => { world with store := store }
      | .done changes =>
          (world.store.write transaction changes).map fun store =>
            { store := store
              auditLog := world.auditLog ++ call.written service bare }
  | .finish commits id =>
      (world.store.finish commits id).map fun store => { world with store := store }

/-- The change a row of the log is about. -/
def AuditLogWriteInput.change (row : AuditLogWriteInput) : Change where
  model := row.targetModel
  id := some row.targetId
  action := row.action

def audited (service : Service) (changes : List Change) : List Change :=
  changes.filter fun change => service.auditable change.model

/-- The log has one row for each change of an auditable row that is not undone. -/
def Accounted (service : Service) (world : World) : Prop :=
  (world.auditLog.map AuditLogWriteInput.change).Perm (audited service world.store.all)

/-- When no transaction is open, it has one for each committed change, and no others. -/
def Complete (service : Service) (world : World) : Prop :=
  world.store.opened = [] →
    (world.auditLog.map AuditLogWriteInput.change).Perm (audited service world.store.committed)

/-! ## The condition -/

/-- The row has an id, which the call asks for. -/
def NamesRow (returns : Projection) (row : Record) : Prop :=
  ∃ id, rowId row = some id ∧ (returns.keeps "id" = true ∨ id = "")

/-- The feature is on, the insert succeeds, and the log gets the id. -/
def Inserts (service : Service) (bare : BareClient) (returns : Projection) (row : Record) : Prop :=
  service.auditEnabled = true ∧ bare.executeRaw = true ∧ NamesRow returns row

/-- The row of a call that has a hook is reported; no other auditable row changes. -/
def ReportsOne
    (service : Service) (bare : BareClient) (model : String) (returns : Projection)
    (row : Record) (along : List Change) : Prop :=
  (service.auditable model = true → Inserts service bare returns row) ∧ audited service along = []

/-- A call that has none changes no auditable row. -/
def ReportsNone
    (service : Service) (model : String) (rows : List Record) (along : List Change) : Prop :=
  (service.auditable model = true → rows = []) ∧ audited service along = []

def Call.Reported (service : Service) (bare : BareClient) : Call → Prop
  | .create model args outcome => outcome.Holds (ReportsOne service bare model args.returns)
  | .createMany model outcome => outcome.Holds (ReportsNone service model)
  | .update model args outcome => outcome.Holds (ReportsOne service bare model args.returns)
  | .updateMany model _ outcome => outcome.Holds (ReportsNone service model)
  | .upsert model _ outcome => outcome.Holds fun row => ReportsNone service model [row.2]
  | .delete model args outcome =>
      isHardDeleteRequest args = true →
        outcome.Holds (ReportsOne service bare model args.returns)
  | .deleteMany model outcome => outcome.Holds (ReportsNone service model)

/-- No transaction that has changed an auditable row is undone. -/
def Kept (service : Service) (world : World) : Event → Prop
  | .start _ => True
  | .call _ call bare => call.Reported service bare
  | .finish commits id =>
      ∀ opened, world.store.find id = some opened →
        audited service (opened.lost commits) = []

/-! ## The ids -/

section Ids

variable {returns : Projection} {row : Record}

theorem get_result (returns : Projection) (row : Record) (name : String) :
    OrderedMap.get name (returns.result row) =
      if returns.keeps name = true then OrderedMap.get name row else none := by
  unfold Projection.result
  induction row with
  | nil =>
      split <;> rfl
  | cons entry rest ih =>
      rw [List.filter_cons, OrderedMap.get_cons name entry rest]
      by_cases hname : entry.1 = name
      · subst hname
        rw [if_pos rfl]
        split
        · rw [OrderedMap.get_cons, if_pos rfl]
        · next hkeeps => rw [ih, if_neg hkeeps]
      · rw [if_neg hname, ← ih]
        split
        · rw [OrderedMap.get_cons, if_neg hname]
        · rfl

theorem extractTargetId_eq (row : Record) : extractTargetId row = (rowId row).getD "" := by
  unfold extractTargetId rowId
  split <;> rfl

theorem rowId_result (returns : Projection) (row : Record) :
    rowId (returns.result row) = if returns.keeps "id" = true then rowId row else none := by
  unfold rowId
  rw [get_result]
  cases returns.keeps "id" <;> rfl

/-- The log names the row exactly when the row has an id that the call asks for. -/
theorem namesRow_iff :
    rowId row = some (extractTargetId (returns.result row)) ↔ NamesRow returns row := by
  rw [extractTargetId_eq, rowId_result, NamesRow]
  cases hid : rowId row with
  | none => simp
  | some id =>
      split
      · next hkeeps => simp [hkeeps]
      · next hkeeps => simp [hkeeps]

end Ids

/-! ## One call -/

section Calls

variable {service : Service} {bare : BareClient}

theorem audited_append (changes along : List Change) :
    audited service (changes ++ along) = audited service changes ++ audited service along :=
  List.filter_append ..

variable {action : Action}
variable {model : String}

/-- In a request with a tenant a row is emitted. -/
theorem emitAuditRow_eq_some
    {diff : Diff} {targetId : String} {tenantId : Option String}
    (htenant : tenantId.isSome = true) :
    ∃ row, emitAuditRow service model action diff targetId tenantId = some row ∧
      row.change = ⟨model, some targetId, action⟩ := by
  obtain ⟨tenant, rfl⟩ := Option.isSome_iff_exists.mp htenant
  exact ⟨_, rfl, rfl⟩

/-- What a hook leaves in the log. -/
def hooked
    (service : Service) (bare : BareClient) (model : String) (returns : Projection)
    (action : Action) (row : Record) :
    List Change :=
  if service.auditable model && (service.auditEnabled && bare.executeRaw) then
    [⟨model, some (extractTargetId (returns.result row)), action⟩]
  else []

theorem hooked_perm_iff {returns : Projection} {row : Record} {along : List Change} :
    (hooked service bare model returns action row).Perm
        (audited service ([⟨model, rowId row, action⟩] ++ along)) ↔
      ReportsOne service bare model returns row along := by
  rw [audited_append, ReportsOne, hooked, audited, List.filter_singleton]
  dsimp only
  cases service.auditable model with
  | false =>
      rw [Bool.false_and, if_neg Bool.false_ne_true, cond_false, List.nil_append, List.nil_perm]
      simp only [Bool.false_eq_true, false_implies, true_and]
  | true =>
      rw [Bool.true_and, cond_true, List.singleton_append]
      cases hinserts : service.auditEnabled && bare.executeRaw with
      | false =>
          have hnot : ¬ Inserts service bare returns row := by
            rintro ⟨henabled, hexecute, -⟩
            rw [henabled, hexecute] at hinserts
            cases hinserts
          simp [hnot]
      | true =>
          obtain ⟨henabled, hexecute⟩ := Bool.and_eq_true_iff.mp hinserts
          have hnames :
              Inserts service bare returns row ↔
                rowId row = some (extractTargetId (returns.result row)) := by
            rw [namesRow_iff, Inserts, henabled, hexecute]
            simp only [true_and]
          rw [if_pos rfl, List.singleton_perm, List.cons.injEq, Change.mk.injEq]
          simp only [true_and, and_true, true_implies, hnames]
          rw [eq_comm, @eq_comm _ []]

theorem nil_perm_iff {rows : List Record} {along : List Change} {action : Record → Action} :
    ([] : List Change).Perm
        (audited service
          ((rows.map fun row => ⟨model, rowId row, action row⟩) ++ along)) ↔
      ReportsNone service model rows along := by
  rw [List.nil_perm, audited_append, List.append_eq_nil_iff, ReportsNone, audited,
    List.filter_eq_nil_iff, List.forall_mem_map]
  cases hmodel : service.auditable model with
  | false => simp [hmodel]
  | true => simp [hmodel, List.eq_nil_iff_forall_not_mem]

theorem written_eq_hooked
    {call : Call} {returns : Projection} {row : Record} {emitted : AuditLogWriteInput}
    (hemitted :
      call.emitted service bare = if service.auditable model = true then some emitted else none)
    (hchange : emitted.change = ⟨model, some (extractTargetId (returns.result row)), action⟩) :
    (call.written service bare).map AuditLogWriteInput.change =
      hooked service bare model returns action row := by
  unfold Call.written hooked
  rw [hemitted, ← hchange]
  cases service.auditable model <;> cases service.auditEnabled && bare.executeRaw <;> rfl

theorem written_create
    (htenant : service.tenantId.isSome = true)
    (model : String) (args : CreateArgs) (row : Record) (along : List Change) :
    ((Call.create model args (.done row along)).written service bare).map
        AuditLogWriteInput.change =
      hooked service bare model args.returns .create row := by
  obtain ⟨emitted, hemitted, hchange⟩ :
      ∃ emitted, auditCreate service model args (args.returns.result row) = some emitted ∧
        emitted.change = ⟨model, some (extractTargetId (args.returns.result row)), .create⟩ :=
    emitAuditRow_eq_some (by simp [htenant])
  refine written_eq_hooked ?_ hchange
  rw [Call.emitted, Outcome.answer?, Option.bind_some, hemitted]

theorem written_update
    (htenant : service.tenantId.isSome = true)
    (model : String) (args : UpdateArgs) (row : Record) (along : List Change) :
    ((Call.update model args (.done row along)).written service bare).map
        AuditLogWriteInput.change =
      hooked service bare model args.returns (updateAction args.data) row := by
  obtain ⟨emitted, hemitted, hchange⟩ :
      ∃ emitted, auditUpdate service bare model args (args.returns.result row) = some emitted ∧
        emitted.change =
          ⟨model, some (extractTargetId (args.returns.result row)), updateAction args.data⟩ :=
    emitAuditRow_eq_some (by simp [htenant])
  refine written_eq_hooked ?_ hchange
  rw [Call.emitted, Outcome.answer?, Option.bind_some, hemitted]

theorem written_delete
    (htenant : service.tenantId.isSome = true)
    (model : String) (args : DeleteArgs) (row : Record) (along : List Change)
    (hhard : isHardDeleteRequest args = true) :
    ((Call.delete model args (.done row along)).written service bare).map
        AuditLogWriteInput.change =
      hooked service bare model args.returns .delete row := by
  obtain ⟨emitted, hemitted, hchange⟩ :
      ∃ emitted, auditDelete service bare model args (args.returns.result row) = some emitted ∧
        emitted.change = ⟨model, some (extractTargetId (args.returns.result row)), .delete⟩ :=
    emitAuditRow_eq_some (by simp [htenant])
  refine written_eq_hooked ?_ hchange
  rw [Call.emitted, Outcome.answer?, Option.bind_some, hemitted, hhard, Bool.and_true]

/-- A call without a hook writes nothing. -/
theorem written_of_emitted {call : Call} (hemitted : call.emitted service bare = none) :
    (call.written service bare).map AuditLogWriteInput.change = [] := by
  unfold Call.written
  rw [hemitted]
  split <;> rfl

theorem eq_done_of_effect
    {α : Type} {main : α → List Change} {outcome : Outcome α} {changes : List Change}
    (heffect : outcome.effect main = .done changes) :
    ∃ answer along, outcome = .done answer along ∧ changes = main answer ++ along := by
  cases outcome with
  | refused => cases heffect
  | failed => cases heffect
  | done answer along =>
      cases heffect
      exact ⟨answer, along, rfl, rfl⟩

/-- The rows of the log balance the changes exactly when the call is reported. -/
theorem written_perm_iff
    (htenant : service.tenantId.isSome = true)
    {call : Call} {changes : List Change}
    (heffect : call.effect = .done changes) :
    ((call.written service bare).map AuditLogWriteInput.change).Perm (audited service changes) ↔
      call.Reported service bare := by
  cases call with
  | create model args outcome =>
      obtain ⟨row, along, rfl, rfl⟩ := eq_done_of_effect heffect
      rw [written_create htenant]
      exact hooked_perm_iff
  | createMany model outcome =>
      obtain ⟨rows, along, rfl, rfl⟩ := eq_done_of_effect heffect
      rw [written_of_emitted rfl]
      exact nil_perm_iff
  | update model args outcome =>
      obtain ⟨row, along, rfl, rfl⟩ := eq_done_of_effect heffect
      rw [written_update htenant]
      exact hooked_perm_iff
  | updateMany model data outcome =>
      obtain ⟨rows, along, rfl, rfl⟩ := eq_done_of_effect heffect
      rw [written_of_emitted rfl]
      exact nil_perm_iff
  | upsert model data outcome =>
      obtain ⟨row, along, rfl, rfl⟩ := eq_done_of_effect heffect
      rw [written_of_emitted rfl]
      exact @nil_perm_iff service model [row.2] along fun _ =>
        if row.1 then .create else updateAction data
  | delete model args outcome =>
      rw [Call.effect] at heffect
      split at heffect
      · next hhard =>
          obtain ⟨row, along, rfl, rfl⟩ := eq_done_of_effect heffect
          rw [written_delete htenant model args row along hhard, hooked_perm_iff]
          exact ⟨fun hone _ => hone, fun hone => hone hhard⟩
      · cases heffect
  | deleteMany model outcome =>
      obtain ⟨rows, along, rfl, rfl⟩ := eq_done_of_effect heffect
      rw [written_of_emitted rfl]
      exact nil_perm_iff

theorem holds_of_effect
    {α : Type} {main : α → List Change} {p : α → List Change → Prop} {outcome : Outcome α}
    (heffect : ∀ changes, outcome.effect main ≠ .done changes) :
    outcome.Holds p := by
  cases outcome with
  | refused => trivial
  | failed => trivial
  | done answer along => exact (heffect _ rfl).elim

/-- A call that changes nothing has nothing to report. -/
theorem reported_of_effect {call : Call} (heffect : ∀ changes, call.effect ≠ .done changes) :
    call.Reported service bare := by
  cases call with
  | create model args outcome => exact holds_of_effect heffect
  | createMany model outcome => exact holds_of_effect heffect
  | update model args outcome => exact holds_of_effect heffect
  | updateMany model data outcome => exact holds_of_effect heffect
  | upsert model data outcome => exact holds_of_effect heffect
  | delete model args outcome =>
      intro hhard
      simp only [Call.effect, if_pos hhard] at heffect
      exact holds_of_effect heffect
  | deleteMany model outcome => exact holds_of_effect heffect

end Calls

/-! ## Runs of calls -/

section Runs

variable {service : Service} {world world' : World}

theorem audited_perm
    (service : Service) {changes changes' : List Change}
    (h : changes.Perm changes') :
    (audited service changes).Perm (audited service changes') :=
  h.filter _

theorem accounted_empty : Accounted service World.empty :=
  List.Perm.refl _

/-- One step keeps the balance exactly when it meets the condition. -/
theorem accounted_step_iff
    (htenant : service.tenantId.isSome = true)
    {event : Event}
    (hstep : step service world event = some world')
    (hbalance : Accounted service world) :
    Accounted service world' ↔ Kept service world event := by
  cases event with
  | start id =>
      obtain ⟨store, hstore, rfl⟩ := Option.map_eq_some_iff.mp hstep
      have hsame : Accounted service { world with store := store } := by
        rw [Accounted, ChangeStore.all_start hstore]
        exact hbalance
      exact iff_of_true hsame trivial
  | call transaction call bare =>
      rw [step] at hstep
      split at hstep
      · next heffect =>
          cases hstep
          exact iff_of_true hbalance (reported_of_effect (by simp [heffect]))
      · next heffect =>
          obtain ⟨store, hstore, rfl⟩ := Option.map_eq_some_iff.mp hstep
          have hsame : Accounted service { world with store := store } := by
            rw [Accounted, ChangeStore.all_abort hstore]
            exact hbalance
          exact iff_of_true hsame (reported_of_effect (by simp [heffect]))
      · next changes heffect =>
          obtain ⟨store, hstore, rfl⟩ := Option.map_eq_some_iff.mp hstep
          have hall := audited_perm service (ChangeStore.perm_write hstore)
          rw [audited_append] at hall
          rw [Accounted, List.map_append, Kept, ← written_perm_iff htenant heffect,
            hall.congr_right, (hbalance.append_right _).congr_left, List.perm_append_left_iff]
  | finish commits id =>
      obtain ⟨store, hstore, rfl⟩ := Option.map_eq_some_iff.mp hstep
      obtain ⟨opened, hfind, hperm⟩ := ChangeStore.perm_finish hstore
      have hall := audited_perm service hperm
      rw [audited_append] at hall
      have hlost :
          Accounted service { world with store := store } ↔
            audited service (opened.lost commits) = [] := by
        constructor
        · intro hafter
          have hbefore := (hbalance.trans hall).length_eq
          have hlength := List.Perm.length_eq hafter
          rw [List.length_append] at hbefore
          rw [← List.length_eq_zero_iff]
          dsimp only at hlength
          omega
        · intro hnone
          rw [hnone, List.append_nil] at hall
          exact hbalance.trans hall
      rw [hlost, Kept, hfind]
      constructor
      · rintro hnone opened' hopened
        cases hopened
        exact hnone
      · exact fun hkept => hkept opened rfl

theorem complete_of_accounted (hbalance : Accounted service world) : Complete service world := by
  intro hclosed
  have hall : world.store.all = world.store.committed := by
    rw [ChangeStore.all, ChangeStore.pending, hclosed, List.flatMap_nil, List.append_nil]
  rw [← hall]
  exact hbalance

theorem accounted_of_reaches
    (htenant : service.tenantId.isSome = true)
    (hrun : Reaches (step service) (Kept service) World.empty world) :
    Accounted service world :=
  hrun.invariant accounted_empty fun _ _ _ hbalance hkept hstep =>
    (accounted_step_iff htenant hstep hbalance).mpr hkept

/-- The log is complete in every state that a run of such steps reaches. -/
theorem complete_of_reaches
    (htenant : service.tenantId.isSome = true)
    (hrun : Reaches (step service) (Kept service) World.empty world) :
    Complete service world :=
  complete_of_accounted (accounted_of_reaches htenant hrun)

end Runs

/-- A user of a tenant, with the feature on. -/
def tenantService : Service where
  auditEnabled := true
  extraAuditableModels := []
  tenantId := some "t1"
  userId := some "u1"
  requestId := some "q1"

/-- The insert succeeds. -/
def inserting : BareClient where
  queryRawUnsafe := fun _ _ => some []
  executeRaw := true

def adminRow : Record :=
  [("id", .string "r1"), ("tenantId", .string "t1"), ("name", .string "admin")]

def createAdmin : Call :=
  .create "Role" ⟨[("name", .string "admin")], .all⟩ (.done adminRow [])

/-- A role is created in a transaction that commits. -/
theorem complete_createAdmin :
    ∃ world,
      Reaches (step tenantService) (Kept tenantService) World.empty world ∧
        world.store.committed = [⟨"Role", some "r1", .create⟩] ∧
          Complete tenantService world := by
  have hfirst : Reaches (step tenantService) (Kept tenantService) World.empty World.empty :=
    Reaches.refl _
  have hstart := hfirst.tail (e := Event.start 1) trivial rfl
  have hcall :=
    hstart.tail (e := Event.call (some 1) createAdmin inserting)
      ⟨fun _ => ⟨rfl, rfl, "r1", rfl, Or.inl rfl⟩, rfl⟩ rfl
  have hfinish :=
    hcall.tail (e := Event.finish true 1)
      (by
        intro opened hopened
        cases hopened
        rfl)
      rfl
  exact ⟨_, hfinish, rfl, complete_of_reaches rfl hfinish⟩

/-- Many roles created at once are not in the log; one whose transaction rolls back is. -/
theorem not_complete_createMany_rollback :
    (∃ world,
      runEvents (step tenantService) World.empty
          [.call none (.createMany "Role" (.done [adminRow] [])) inserting] = some world ∧
        ¬ Complete tenantService world) ∧
    (∃ world,
      runEvents (step tenantService) World.empty
          [.start 1, .call (some 1) createAdmin inserting, .finish false 1] = some world ∧
        ¬ Complete tenantService world) := by
  refine ⟨⟨_, rfl, fun hcomplete => ?_⟩, ⟨_, rfl, fun hcomplete => ?_⟩⟩
  · exact absurd (hcomplete rfl).length_eq (by decide)
  · exact absurd (hcomplete rfl).length_eq (by decide)

end AuditExtension
end NestBase
