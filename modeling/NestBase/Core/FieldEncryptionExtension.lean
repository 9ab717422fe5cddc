import NestBase.Core.FieldEncryption
import NestBase.Lib.OrderedMap
import NestBase.Lib.Table
import NestBase.Lib.Transition

/-!
# The field-encryption extension of the database client

`buildFieldEncryptionCallbacks` wraps six operations of the client.  `create`,
`update` and `upsert` encrypt the string values of the listed fields before the
query; `upsert`, `findUnique`, `findFirst` and `findMany` decrypt them in the
rows of the answer.

`create` and `update` return the answer of the query as it is, so their caller
gets ciphertext.  Filters, orders and the operand object `{ set: text }` of an
update pass through unencrypted.  Where none of this shows, the extended client
over the encrypted store answers as a plain client does
(`extension_transparent`): the store is the plain one with every row sealed
(`sealStore`), and one query keeps that (`extended_sealStore`).
-/

namespace NestBase
namespace FieldEncryptionExtension

open Lib

variable {α : Type}

/-! ## The client -/

/-- A value of an argument or of a row. -/
inductive Value (α : Type)
  | string (text : String)
  /-- The operand `{ set: text }` of an update. -/
  | set (text : String)
  | other (value : α)
  deriving DecidableEq

/-- What a column holds after an operand is applied. -/
def Value.stored : Value α → Value α
  | .set text => .string text
  | value => value

abbrev Row (α : Type) := Record String (Value α)

/-- The rows of each model. -/
abbrev Store (α : Type) := String → List (Row α)

structure Find (α : Type) where
  filter : Row α → Bool
  orderBy : Row α → Row α → Bool
  skip : Nat
  take : Option Nat

/-- An operation and its arguments; `data`, `create` and `update` may be left out. -/
inductive Args (α : Type)
  | create (data : Option (Row α))
  | update (filter : Row α → Bool) (data : Option (Row α))
  | upsert (filter : Row α → Bool) (create update : Option (Row α))
  | findUnique (filter : Row α → Bool)
  | findFirst (find : Find α)
  | findMany (find : Find α)

structure Call (α : Type) where
  model : String
  select : Option (List String)
  args : Args α

inductive QueryError
  /-- P2025 -/
  | recordNotFound
  | validation
  deriving DecidableEq

inductive Answer (α : Type)
  | one (row : Option (Row α))
  | many (rows : List (Row α))
  | rejected (error : QueryError)
  deriving DecidableEq

def Answer.map (change : Row α → Row α) : Answer α → Answer α
  | .one row => .one (row.map change)
  | .many rows => .many (rows.map change)
  | .rejected error => .rejected error

def selectFields (select : Option (List String)) (row : Row α) : Row α :=
  match select with
  | none => row
  | some fields => row.restrict fun field => decide (field ∈ fields)

def Find.choose (find : Find α) (rows : List (Row α)) : List (Row α) :=
  let ordered := ((rows.filter find.filter).mergeSort find.orderBy).drop find.skip
  match find.take with
  | none => ordered
  | some n => ordered.take n

/-- An argument that is left out assigns nothing. -/
def dataOf (data : Option (Row α)) : Row α :=
  data.getD Record.empty

/-- A created row takes plain values only. -/
def hasOperand (data : Row α) : Bool :=
  data.entries.any fun entry =>
    match entry.2 with
    | .set _ => true
    | _ => false

def applyUpdate (data : Option (Row α)) (row : Row α) : Row α :=
  row.assign ((dataOf data).map Value.stored)

/-- The query of a client without extensions. -/
def query (call : Call α) (store : Store α) : Answer α × Store α :=
  let rows := store call.model
  let create (data : Option (Row α)) : Answer α × Store α :=
    (.one (some (selectFields call.select (dataOf data))),
      Function.update store call.model (rows ++ [dataOf data]))
  match call.args with
  | .create data =>
      if hasOperand (dataOf data) then (.rejected .validation, store) else create data
  | .update filter data =>
      match updateFirst filter (applyUpdate data) rows with
      | none => (.rejected .recordNotFound, store)
      | some (row, rows') =>
          (.one (some (selectFields call.select row)), Function.update store call.model rows')
  | .upsert filter data update =>
      if hasOperand (dataOf data) then (.rejected .validation, store)
      else
        match updateFirst filter (applyUpdate update) rows with
        | none => create data
        | some (row, rows') =>
            (.one (some (selectFields call.select row)), Function.update store call.model rows')
  | .findUnique filter => (.one ((rows.find? filter).map (selectFields call.select)), store)
  | .findFirst find => (.one ((find.choose rows).head?.map (selectFields call.select)), store)
  | .findMany find => (.many ((find.choose rows).map (selectFields call.select)), store)

/-! ## The extension -/

structure Extension where
  fieldsByModel : Record String (List String)
  encrypt : String → String
  decrypt : String → String

/-- `field.trim() === ""`. -/
def isBlank (field : String) : Bool :=
  decide (FieldEncryption.trim (Unicode.ofText field) = [])

/-- The first model with a blank field name is refused. -/
def buildFieldEncryptionCallbacks
    (modelFields : Record String (List String))
    (encrypt decrypt : String → String) :
    Except String Extension :=
  match modelFields.entries.find? fun entry => entry.2.any isBlank with
  | some (modelName, _) =>
      .error
        ("fieldEncryptionExtension: modelFields[\"" ++ modelName ++
          "\"] entries must be non-empty strings")
  | none => .ok { fieldsByModel := modelFields, encrypt := encrypt, decrypt := decrypt }

/-- One round of `for (const f of fields)`: only a string value is replaced. -/
def cryptField (crypt : String → String) (record : Row α) (field : String) : Row α :=
  match record.get field with
  | some (.string text) => record.set field (.string (crypt text))
  | _ => record

def cryptFields (crypt : String → String) (fields : List String) (record : Row α) : Row α :=
  fields.foldl (cryptField crypt) record

def decryptFields
    (row : Option (Row α)) (fields : Option (List String)) (decrypt : String → String) :
    Option (Row α) :=
  match row, fields with
  | some row, some fields => if fields = [] then some row else some (cryptFields decrypt fields row)
  | row, _ => row

namespace Extension

variable (ext : Extension)
variable {β : Type}

/-- Encrypt the listed strings of `args.data` before the query, and answer what it answers. -/
def encryptData (model : String) (data : Option (Row α)) (query : Option (Row α) → β) : β :=
  match ext.fieldsByModel.get model with
  | none => query data
  | some fields =>
      if fields = [] then query data
      else
        match data with
        | some rawData => query (some (cryptFields ext.encrypt fields rawData))
        | none => query none

def create (model : String) (data : Option (Row α)) (query : Option (Row α) → β) : β :=
  ext.encryptData model data query

def update (model : String) (data : Option (Row α)) (query : Option (Row α) → β) : β :=
  ext.encryptData model data query

/-- The row of an answer, decrypted. -/
def decryptAnswer (model : String) : Answer α → Answer α
  | .one row => .one (decryptFields row (ext.fieldsByModel.get model) ext.decrypt)
  | answer => answer

def upsert
    (model : String) (create update : Option (Row α))
    (query : Option (Row α) → Option (Row α) → Answer α × β) :
    Answer α × β :=
  match ext.fieldsByModel.get model with
  | none => query create update
  | some fields =>
      if fields = [] then query create update
      else
        let result :=
          query (create.map (cryptFields ext.encrypt fields))
            (update.map (cryptFields ext.encrypt fields))
        (ext.decryptAnswer model result.1, result.2)

/-- `findUnique` and `findFirst`. -/
def findOne (model : String) (query : Answer α × β) : Answer α × β :=
  (ext.decryptAnswer model query.1, query.2)

def findMany (model : String) (query : Answer α × β) : Answer α × β :=
  match query.1 with
  | .many rows =>
      match ext.fieldsByModel.get model with
      | none => query
      | some fields =>
          if fields = [] then query
          else (.many (rows.map (cryptFields ext.decrypt fields)), query.2)
  | _ => query

/-- A call through the extended client. -/
def extended (call : Call α) (store : Store α) : Answer α × Store α :=
  match call.args with
  | .create data =>
      ext.create call.model data fun data => query { call with args := .create data } store
  | .update filter data =>
      ext.update call.model data fun data => query { call with args := .update filter data } store
  | .upsert filter create update =>
      ext.upsert call.model create update fun create update =>
        query { call with args := .upsert filter create update } store
  | .findUnique _ => ext.findOne call.model (query call store)
  | .findFirst _ => ext.findOne call.model (query call store)
  | .findMany _ => ext.findMany call.model (query call store)

end Extension

/-! ## Both clients, side by side -/

structure World (α : Type) where
  /-- What a client without the extension would have stored. -/
  plain : Store α
  stored : Store α
  /-- The answer of the plain client and the answer of the extended one, call by call. -/
  answers : List (Answer α × Answer α)

def emptyWorld : World α where
  plain := fun _ => []
  stored := fun _ => []
  answers := []

def step (ext : Extension) (w : World α) (call : Call α) : Option (World α) :=
  let plain := query call w.plain
  let extended := ext.extended call w.stored
  some
    { plain := plain.2
      stored := extended.2
      answers := w.answers ++ [(plain.1, extended.1)] }

def fieldsOf (ext : Extension) (model : String) : List String :=
  (ext.fieldsByModel.get model).getD []

/-- The row with its listed strings encrypted. -/
def sealRow (ext : Extension) (model : String) (row : Row α) : Row α :=
  cryptFields ext.encrypt (fieldsOf ext model) row

/-- Every string of a listed field in the store is an output of `encrypt`. -/
def AtRest (ext : Extension) (store : Store α) : Prop :=
  ∀ model, ∀ row ∈ store model, ∀ field ∈ fieldsOf ext model, ∀ text,
    row.get field = some (.string text) → ∃ plaintext, text = ext.encrypt plaintext

/-- The filter and the order judge every row the same with its listed fields encrypted. -/
def Args.Blind (sealed : Row α → Row α) (rows : List (Row α)) : Args α → Prop
  | .create _ => True
  | .update filter _ | .upsert filter _ _ | .findUnique filter =>
      ∀ row ∈ rows, filter (sealed row) = filter row
  | .findFirst find | .findMany find =>
      (∀ row ∈ rows, find.filter (sealed row) = find.filter row) ∧
        ∀ x ∈ rows, ∀ y ∈ rows, find.orderBy (sealed x) (sealed y) = find.orderBy x y

/-- No operand of an applied update puts a text into a listed field that encryption would change. -/
def Args.SealedOperands (sealed : Row α → Row α) (rows : List (Row α)) : Args α → Prop
  | .update filter data | .upsert filter _ data =>
      rows.any filter = true →
        sealed ((dataOf data).map Value.stored) = (sealed (dataOf data)).map Value.stored
  | _ => True

/-- The row that `create` or `update` returns holds no listed string that encryption would change. -/
def Args.SealedAnswer (sealed : Row α → Row α) (answer : Answer α) : Args α → Prop
  | .create _ | .update _ _ => answer.map sealed = answer
  | _ => True

structure Admitted (ext : Extension) (w : World α) (call : Call α) : Prop where
  blind : call.args.Blind (sealRow ext call.model) (w.plain call.model)
  operands : call.args.SealedOperands (sealRow ext call.model) (w.plain call.model)
  answer : call.args.SealedAnswer (sealRow ext call.model) (query call w.plain).1

/-! ## Encrypted records -/

/-- A string value under a function, every other value as it is. -/
def Value.mapString (crypt : String → String) : Value α → Value α
  | .string text => .string (crypt text)
  | value => value

theorem mapString_id (value : Value α) : value.mapString id = value := by
  cases value <;> rfl

theorem mapString_mapString (f g : String → String) (value : Value α) :
    (value.mapString g).mapString f = value.mapString (f ∘ g) := by
  cases value <;> rfl

theorem keys_cryptField (crypt : String → String) (record : Row α) (field : String) :
    (cryptField crypt record field).keys = record.keys := by
  unfold cryptField
  split
  · next text htext => exact Record.keys_set_of_get htext _
  · rfl

theorem get_cryptField (crypt : String → String) (record : Row α) (field key : String) :
    (cryptField crypt record field).get key =
      (record.get key).map (Value.mapString (if field = key then crypt else id)) := by
  unfold cryptField
  by_cases hkey : field = key
  · subst hkey
    cases hvalue : record.get field with
    | none => simp [hvalue]
    | some value =>
        cases value with
        | string text => simp [Record.get_set, Value.mapString]
        | set text => simp [hvalue, Value.mapString]
        | other value => simp [hvalue, Value.mapString]
  · have hsame : (record.get key).map (Value.mapString id) = record.get key := by
      cases record.get key with
      | none => rfl
      | some value => rw [Option.map_some, mapString_id]
    rw [if_neg hkey, hsame]
    split
    · rw [Record.get_set, if_neg hkey]
    · rfl

theorem keys_cryptFields (crypt : String → String) (fields : List String) (record : Row α) :
    (cryptFields crypt fields record).keys = record.keys := by
  unfold cryptFields
  induction fields generalizing record with
  | nil => rfl
  | cons field fields ih => rw [List.foldl_cons, ih, keys_cryptField]

/-- A field is encrypted once for each time it is listed. -/
theorem get_cryptFields (crypt : String → String) (fields : List String) (record : Row α)
    (key : String) :
    (cryptFields crypt fields record).get key =
      (record.get key).map (Value.mapString crypt^[fields.count key]) := by
  unfold cryptFields
  induction fields generalizing record with
  | nil =>
      cases hvalue : record.get key with
      | none => simp [hvalue]
      | some value => simp [hvalue, mapString_id]
  | cons field fields ih =>
      rw [List.foldl_cons, ih, get_cryptField, Option.map_map]
      congr 1
      funext value
      rw [Function.comp_apply, mapString_mapString, List.count_cons]
      by_cases hkey : field = key
      · simp [hkey, Function.iterate_succ]
      · simp [hkey]

/-- Decryption undoes encryption, also of a field that is listed more than once. -/
theorem cryptFields_decrypt_encrypt
    {encrypt decrypt : String → String}
    (hinv : ∀ text, decrypt (encrypt text) = text)
    (fields : List String) (record : Row α) :
    cryptFields decrypt fields (cryptFields encrypt fields record) = record := by
  refine Record.ext_get ?_ ?_
  · rw [keys_cryptFields, keys_cryptFields]
  · intro key
    have hiterate : decrypt^[fields.count key] ∘ encrypt^[fields.count key] = id :=
      funext (Function.LeftInverse.iterate hinv _)
    rw [get_cryptFields, get_cryptFields, Option.map_map]
    cases record.get key with
    | none => rfl
    | some value =>
        rw [Option.map_some, Function.comp_apply, mapString_mapString, hiterate, mapString_id]

theorem cryptFields_assign (crypt : String → String) (fields : List String) (row data : Row α) :
    cryptFields crypt fields (row.assign data) =
      (cryptFields crypt fields row).assign (cryptFields crypt fields data) := by
  refine Record.ext_get ?_ ?_
  · rw [keys_cryptFields, Record.keys_assign, Record.keys_assign, keys_cryptFields,
      keys_cryptFields]
  · intro key
    rw [get_cryptFields, Record.get_assign, Record.get_assign, get_cryptFields, get_cryptFields]
    cases data.get key <;> rfl

theorem selectFields_cryptFields
    (crypt : String → String) (fields : List String) (select : Option (List String))
    (row : Row α) :
    selectFields select (cryptFields crypt fields row) =
      cryptFields crypt fields (selectFields select row) := by
  cases select with
  | none => rfl
  | some names =>
      refine Record.ext_get ?_ ?_
      · rw [keys_cryptFields, selectFields, selectFields, Record.keys_restrict,
          Record.keys_restrict, keys_cryptFields]
      · intro key
        rw [get_cryptFields, selectFields, selectFields, Record.get_restrict,
          Record.get_restrict, get_cryptFields]
        split <;> rfl

theorem hasOperand_iff {data : Row α} :
    hasOperand data = true ↔ ∃ key text, data.get key = some (.set text) := by
  unfold hasOperand
  rw [List.any_eq_true]
  constructor
  · rintro ⟨⟨key, value⟩, hmem, hvalue⟩
    cases value with
    | set text => exact ⟨key, text, OrderedMap.get_of_mem data.distinct hmem⟩
    | string text => cases hvalue
    | other value => cases hvalue
  · rintro ⟨key, text, hget⟩
    exact ⟨(key, .set text), OrderedMap.mem_of_get hget, rfl⟩

/-- Encryption neither adds nor removes an operand. -/
theorem hasOperand_cryptFields (crypt : String → String) (fields : List String) (data : Row α) :
    hasOperand (cryptFields crypt fields data) = hasOperand data := by
  rw [Bool.eq_iff_iff, hasOperand_iff, hasOperand_iff]
  refine exists_congr fun key => exists_congr fun text => ?_
  rw [get_cryptFields]
  cases data.get key with
  | none => simp
  | some value => cases value <;> simp [Value.mapString]

/-! ## The two stores -/

/-- The store with the listed strings of every row encrypted. -/
def sealStore (ext : Extension) (store : Store α) : Store α :=
  fun model => (store model).map (sealRow ext model)

theorem sealStore_update (ext : Extension) (store : Store α) (model : String) (rows : List (Row α)) :
    sealStore ext (Function.update store model rows) =
      Function.update (sealStore ext store) model (rows.map (sealRow ext model)) := by
  funext other
  unfold sealStore
  by_cases hother : other = model
  · subst hother
    rw [Function.update_self, Function.update_self]
  · rw [Function.update_of_ne hother, Function.update_of_ne hother]

/-- The arguments with the data encrypted; filters and orders stay. -/
def Args.mapData (change : Row α → Row α) : Args α → Args α
  | .create data => .create (data.map change)
  | .update filter data => .update filter (data.map change)
  | .upsert filter created updated => .upsert filter (created.map change) (updated.map change)
  | .findUnique filter => .findUnique filter
  | .findFirst find => .findFirst find
  | .findMany find => .findMany find

theorem dataOf_map_sealRow (ext : Extension) (model : String) (data : Option (Row α)) :
    dataOf (data.map (sealRow ext model)) = sealRow ext model (dataOf data) := by
  cases data with
  | some data => rfl
  | none =>
      refine Record.ext_get ?_ ?_
      · exact (keys_cryptFields _ _ _).symm
      · intro key
        unfold sealRow
        rw [get_cryptFields]
        rfl

variable {ext : Extension}
variable {model : String}

/-- An update with encrypted data seals what the plain update stores. -/
theorem applyUpdate_sealRow {data : Option (Row α)}
    (hoperands :
      sealRow ext model ((dataOf data).map Value.stored) =
        (sealRow ext model (dataOf data)).map Value.stored)
    (row : Row α) :
    applyUpdate (data.map (sealRow ext model)) (sealRow ext model row) =
      sealRow ext model (applyUpdate data row) := by
  unfold applyUpdate
  rw [dataOf_map_sealRow, ← hoperands]
  exact (cryptFields_assign _ _ _ _).symm

variable {rows : List (Row α)}

theorem updateFirst_sealRow
    {filter : Row α → Bool}
    (data : Option (Row α))
    (hblind : ∀ row ∈ rows, filter (sealRow ext model row) = filter row)
    (hoperands :
      rows.any filter = true →
        sealRow ext model ((dataOf data).map Value.stored) =
          (sealRow ext model (dataOf data)).map Value.stored) :
    updateFirst filter (applyUpdate (data.map (sealRow ext model)))
        (rows.map (sealRow ext model)) =
      (updateFirst filter (applyUpdate data) rows).map fun found =>
        (sealRow ext model found.1, found.2.map (sealRow ext model)) := by
  refine updateFirst_map hblind ?_
  intro row hrow hmatch
  exact applyUpdate_sealRow (hoperands (List.any_eq_true.mpr ⟨row, hrow, hmatch⟩)) row

theorem choose_map
    {sealed : Row α → Row α} {find : Find α}
    (hfilter : ∀ row ∈ rows, find.filter (sealed row) = find.filter row)
    (horder :
      ∀ x ∈ rows, ∀ y ∈ rows, find.orderBy (sealed x) (sealed y) = find.orderBy x y) :
    find.choose (rows.map sealed) = (find.choose rows).map sealed := by
  have hfiltered :
      (rows.map sealed).filter find.filter = (rows.filter find.filter).map sealed := by
    rw [List.filter_map]
    refine congrArg (List.map sealed) (List.filter_congr ?_)
    intro row hrow
    exact hfilter row hrow
  have hordered :
      ((rows.filter find.filter).map sealed).mergeSort find.orderBy =
        ((rows.filter find.filter).mergeSort find.orderBy).map sealed := by
    refine (List.map_mergeSort ?_).symm
    intro x hx y hy
    exact (horder x (List.mem_of_mem_filter hx) y (List.mem_of_mem_filter hy)).symm
  unfold Find.choose
  rw [hfiltered, hordered, ← List.map_drop]
  cases find.take with
  | none => rfl
  | some n => exact (List.map_take).symm

/-- The query of encrypted data on the sealed store is the sealed query. -/
theorem query_sealStore
    {call : Call α} {store : Store α}
    (hblind : call.args.Blind (sealRow ext call.model) (store call.model))
    (hoperands : call.args.SealedOperands (sealRow ext call.model) (store call.model)) :
    query { call with args := call.args.mapData (sealRow ext call.model) } (sealStore ext store) =
      ((query call store).1.map (sealRow ext call.model),
        sealStore ext (query call store).2) := by
  obtain ⟨model, select, args⟩ := call
  have hselect :
      ∀ row : Row α,
        selectFields select (sealRow ext model row) = sealRow ext model (selectFields select row) :=
    selectFields_cryptFields _ _ select
  have hrows : sealStore ext store model = (store model).map (sealRow ext model) := rfl
  have hchecked : ∀ data : Row α, hasOperand (sealRow ext model data) = hasOperand data :=
    hasOperand_cryptFields _ _
  have hcreate :
      ∀ data : Row α,
        Function.update (sealStore ext store) model
            ((store model).map (sealRow ext model) ++ [sealRow ext model data]) =
          sealStore ext (Function.update store model (store model ++ [data])) := by
    intro data
    rw [sealStore_update, List.map_append, List.map_singleton]
  cases args with
  | create data =>
      simp only [query, Args.mapData, dataOf_map_sealRow, hchecked, hrows, hselect, hcreate]
      split
      · rfl
      · rfl
  | update filter data =>
      have hupdate := updateFirst_sealRow data hblind hoperands
      simp only [query, Args.mapData, hrows, hupdate]
      cases updateFirst filter (applyUpdate data) (store model) with
      | none => rfl
      | some found =>
          simp only [Option.map_some, hselect, sealStore_update, Answer.map]
  | upsert filter create update =>
      have hupdate := updateFirst_sealRow update hblind hoperands
      simp only [query, Args.mapData, dataOf_map_sealRow, hchecked, hrows, hupdate, hselect, hcreate]
      split
      · rfl
      · cases updateFirst filter (applyUpdate update) (store model) with
        | none => rfl
        | some found =>
            simp only [Option.map_some, hselect, sealStore_update, Answer.map]
  | findUnique filter =>
      have hfind :
          ((store model).map (sealRow ext model)).find? filter =
            ((store model).find? filter).map (sealRow ext model) := by
        rw [List.find?_map]
        congr 1
        exact List.find?_congr hblind
      simp only [query, Args.mapData, hrows, hfind, Answer.map]
      cases (store model).find? filter with
      | none => rfl
      | some row => simp only [Option.map_some, hselect]
  | findFirst find =>
      simp only [query, Args.mapData, hrows, choose_map hblind.1 hblind.2, Answer.map,
        List.head?_map]
      cases (find.choose (store model)).head? with
      | none => rfl
      | some row => simp only [Option.map_some, hselect]
  | findMany find =>
      simp only [query, Args.mapData, hrows, choose_map hblind.1 hblind.2, Answer.map,
        List.map_map]
      refine Prod.ext (congrArg Answer.many (List.map_congr_left ?_)) rfl
      intro row _
      exact hselect row

/-! ## What the callbacks do -/

theorem sealRow_of_unlisted (hfields : fieldsOf ext model = []) :
    (sealRow ext model : Row α → Row α) = id := by
  funext row
  unfold sealRow
  rw [hfields]
  rfl

variable {β : Type}

theorem encryptData_eq
    (ext : Extension) (model : String) (data : Option (Row α)) (query : Option (Row α) → β) :
    ext.encryptData model data query = query (data.map (sealRow ext model)) := by
  have hplain : fieldsOf ext model = [] → query (data.map (sealRow ext model)) = query data := by
    intro hfields
    rw [sealRow_of_unlisted hfields, Option.map_id, id]
  unfold Extension.encryptData
  cases hfields : ext.fieldsByModel.get model with
  | none => exact (hplain (by simp [fieldsOf, hfields])).symm
  | some fields =>
      dsimp only
      have hlisted : fieldsOf ext model = fields := by simp [fieldsOf, hfields]
      split
      · next hempty => exact (hplain (hlisted.trans hempty)).symm
      · unfold sealRow
        rw [hlisted]
        cases data with
        | none => rfl
        | some data => rfl

/-- The inverse of `sealRow`. -/
def openRow (ext : Extension) (model : String) (row : Row α) : Row α :=
  cryptFields ext.decrypt (fieldsOf ext model) row

theorem openRow_of_unlisted (hfields : fieldsOf ext model = []) :
    (openRow ext model : Row α → Row α) = id := by
  funext row
  unfold openRow
  rw [hfields]
  rfl

theorem openRow_sealRow
    (hinv : ∀ text, ext.decrypt (ext.encrypt text) = text)
    (model : String) (row : Row α) :
    openRow ext model (sealRow ext model row) = row :=
  cryptFields_decrypt_encrypt hinv _ row

theorem Answer.map_map (f g : Row α → Row α) (answer : Answer α) :
    (answer.map g).map f = answer.map (f ∘ g) := by
  cases answer with
  | one row => simp [Answer.map, Option.map_map]
  | many rows => simp [Answer.map, List.map_map]
  | rejected error => rfl

@[simp] theorem Answer.map_id (answer : Answer α) : answer.map id = answer := by
  cases answer with
  | one row => simp [Answer.map]
  | many rows => simp [Answer.map]
  | rejected error => rfl

/-- The answer is not a list of rows. -/
def Answer.Single (answer : Answer α) : Prop :=
  ∀ rows, answer ≠ .many rows

theorem decryptAnswer_eq
    {answer : Answer α}
    (ext : Extension) (model : String)
    (hsingle : answer.Single) :
    ext.decryptAnswer model answer = answer.map (openRow ext model) := by
  cases answer with
  | many rows => exact absurd rfl (hsingle rows)
  | rejected error => rfl
  | one row =>
      simp only [Extension.decryptAnswer, Answer.map, Answer.one.injEq]
      cases row with
      | none => rfl
      | some row =>
          unfold decryptFields
          cases hfields : ext.fieldsByModel.get model with
          | none =>
              have hempty : fieldsOf ext model = [] := by simp [fieldsOf, hfields]
              rw [openRow_of_unlisted hempty]
              rfl
          | some fields =>
              have hlisted : fieldsOf ext model = fields := by simp [fieldsOf, hfields]
              dsimp only
              split
              · next hempty =>
                rw [openRow_of_unlisted (hlisted.trans hempty)]
                rfl
              · unfold openRow
                rw [hlisted]
                rfl

theorem upsert_eq
    {query : Option (Row α) → Option (Row α) → Answer α × β}
    (ext : Extension) (model : String) (created updated : Option (Row α))
    (hsingle : ∀ created updated, (query created updated).1.Single) :
    ext.upsert model created updated query =
      let result :=
        query (created.map (sealRow ext model)) (updated.map (sealRow ext model))
      (result.1.map (openRow ext model), result.2) := by
  have hplain :
      fieldsOf ext model = [] →
        query created updated =
          ((query (created.map (sealRow ext model)) (updated.map (sealRow ext model))).1.map
              (openRow ext model),
            (query (created.map (sealRow ext model)) (updated.map (sealRow ext model))).2) := by
    intro hempty
    rw [sealRow_of_unlisted hempty, openRow_of_unlisted hempty, Option.map_id, Answer.map_id]
    rfl
  unfold Extension.upsert
  cases hfields : ext.fieldsByModel.get model with
  | none => exact hplain (by simp [fieldsOf, hfields])
  | some fields =>
      have hlisted : fieldsOf ext model = fields := by simp [fieldsOf, hfields]
      dsimp only
      split
      · next hempty => exact hplain (hlisted.trans hempty)
      · rw [decryptAnswer_eq ext model (hsingle _ _)]
        unfold sealRow
        rw [hlisted]

theorem findMany_eq {rest : β} (ext : Extension) (model : String) :
    ext.findMany model (.many rows, rest) = (.many (rows.map (openRow ext model)), rest) := by
  unfold Extension.findMany
  cases hfields : ext.fieldsByModel.get model with
  | none =>
      have hempty : fieldsOf ext model = [] := by simp [fieldsOf, hfields]
      rw [openRow_of_unlisted hempty, List.map_id]
  | some fields =>
      have hlisted : fieldsOf ext model = fields := by simp [fieldsOf, hfields]
      dsimp only
      split
      · next hempty => rw [openRow_of_unlisted (hlisted.trans hempty), List.map_id]
      · unfold openRow
        rw [hlisted]

/-- The operations whose answer is decrypted. -/
def Args.decrypts : Args α → Bool
  | .create _ | .update _ _ => false
  | .upsert _ _ _ | .findUnique _ | .findFirst _ | .findMany _ => true

/-- What a call through the extended client asks the query for, and makes of its answer. -/
theorem extended_eq (ext : Extension) (call : Call α) (store : Store α) :
    ext.extended call store =
      let inner :=
        query { call with args := call.args.mapData (sealRow ext call.model) } store
      (if call.args.decrypts then inner.1.map (openRow ext call.model) else inner.1, inner.2) := by
  obtain ⟨model, select, args⟩ := call
  cases args with
  | create data =>
      simp only [Extension.extended, Extension.create, encryptData_eq, Args.mapData,
        Args.decrypts, Bool.false_eq_true, if_false]
  | update filter data =>
      simp only [Extension.extended, Extension.update, encryptData_eq, Args.mapData,
        Args.decrypts, Bool.false_eq_true, if_false]
  | upsert filter created updated =>
      simp only [Extension.extended, Args.mapData, Args.decrypts, if_true]
      rw [upsert_eq]
      · intro created updated rows
        simp only [query]
        split
        · rintro ⟨⟩
        · split <;> rintro ⟨⟩
  | findUnique filter =>
      simp only [Extension.extended, Extension.findOne, Args.mapData, Args.decrypts, if_true, query]
      rw [decryptAnswer_eq ext model]
      rintro rows ⟨⟩
  | findFirst find =>
      simp only [Extension.extended, Extension.findOne, Args.mapData, Args.decrypts, if_true, query]
      rw [decryptAnswer_eq ext model]
      rintro rows ⟨⟩
  | findMany find =>
      simp only [Extension.extended, Args.mapData, Args.decrypts, if_true, query, findMany_eq,
        Answer.map]

/--
Over the sealed store an admitted call is answered as over the plain one, and
leaves the plain store's successor, sealed.
-/
theorem extended_sealStore
    {call : Call α} {store : Store α}
    (hinv : ∀ text, ext.decrypt (ext.encrypt text) = text)
    (hblind : call.args.Blind (sealRow ext call.model) (store call.model))
    (hoperands : call.args.SealedOperands (sealRow ext call.model) (store call.model))
    (hanswer : call.args.SealedAnswer (sealRow ext call.model) (query call store).1) :
    ext.extended call (sealStore ext store) =
      ((query call store).1, sealStore ext (query call store).2) := by
  have hopen : openRow ext call.model ∘ sealRow ext call.model = (id : Row α → Row α) :=
    funext (openRow_sealRow hinv call.model)
  rw [extended_eq, query_sealStore hblind hoperands]
  dsimp only
  refine Prod.ext ?_ rfl
  dsimp only
  cases hargs : call.args with
  | create data =>
      rw [hargs] at hanswer
      exact hanswer
  | update filter data =>
      rw [hargs] at hanswer
      exact hanswer
  | upsert filter created updated =>
      rw [Args.decrypts, if_pos rfl, Answer.map_map, hopen, Answer.map_id]
  | findUnique filter => rw [Args.decrypts, if_pos rfl, Answer.map_map, hopen, Answer.map_id]
  | findFirst find => rw [Args.decrypts, if_pos rfl, Answer.map_map, hopen, Answer.map_id]
  | findMany find => rw [Args.decrypts, if_pos rfl, Answer.map_map, hopen, Answer.map_id]

/-- A sealed store holds outputs of `encrypt` in its listed fields. -/
theorem atRest_sealStore (ext : Extension) (store : Store α) :
    AtRest ext (sealStore ext store) := by
  intro model row hrow field hfield text htext
  obtain ⟨plain, -, rfl⟩ := List.mem_map.mp hrow
  unfold sealRow at htext
  rw [get_cryptFields, Option.map_eq_some_iff] at htext
  obtain ⟨value, -, hvalue⟩ := htext
  have hcount : 0 < (fieldsOf ext model).count field := List.count_pos_iff.mpr hfield
  obtain ⟨n, hn⟩ := Nat.exists_eq_succ_of_ne_zero hcount.ne'
  rw [hn, Function.iterate_succ'] at hvalue
  cases value with
  | string plaintext => exact ⟨_, (Value.string.inj hvalue).symm⟩
  | set operand => cases hvalue
  | other value => cases hvalue

/-- The encrypted store is the plain one sealed, and the callers have seen no difference. -/
structure WorldInv (ext : Extension) (w : World α) : Prop where
  stored : w.stored = sealStore ext w.plain
  answers : ∀ answer ∈ w.answers, answer.1 = answer.2

theorem worldInv_step
    {w w' : World α} {call : Call α}
    (hencrypt : ∀ text, ext.decrypt (ext.encrypt text) = text)
    (hinv : WorldInv ext w)
    (hadmitted : Admitted ext w call)
    (hstep : step ext w call = some w') :
    WorldInv ext w' := by
  obtain rfl := Option.some.inj hstep
  have hcall :=
    extended_sealStore hencrypt hadmitted.blind hadmitted.operands hadmitted.answer
  rw [← hinv.stored] at hcall
  refine ⟨?_, ?_⟩
  · change (ext.extended call w.stored).2 = _
    rw [hcall]
  · intro answer hmem
    rcases List.mem_append.mp hmem with hold | hnew
    · exact hinv.answers answer hold
    · rw [List.mem_singleton.mp hnew, hcall]

/--
In every run whose calls are admitted, the extended client answers each call as
a plain client does, and every listed string at rest is an output of `encrypt`.
-/
theorem extension_transparent
    {ext : Extension}
    (hencrypt : ∀ text, ext.decrypt (ext.encrypt text) = text)
    {w : World α}
    (hrun : Reaches (step ext) (Admitted ext) emptyWorld w) :
    (∀ answer ∈ w.answers, answer.1 = answer.2) ∧ AtRest ext w.stored := by
  have hinv : WorldInv ext w := by
    refine Reaches.invariant hrun ?_ ?_
    · refine ⟨rfl, ?_⟩
      intro answer hanswer
      cases hanswer
    · intro t call t' ht hadmitted hstep
      exact worldInv_step hencrypt ht hadmitted hstep
  refine ⟨hinv.answers, ?_⟩
  rw [hinv.stored]
  exact atRest_sealStore ext w.plain

/-! ## A created account -/

def marked : Extension where
  fieldsByModel := { entries := [("Account", ["secret"])], distinct := by decide }
  encrypt := fun text => String.ofList ('#' :: text.toList)
  decrypt := fun text => String.ofList text.toList.tail

theorem marked_inv (text : String) : marked.decrypt (marked.encrypt text) = text := by
  simp [marked]

def createAccount (select : Option (List String)) : Call String where
  model := "Account"
  select := select
  args :=
    .create
      (some
        { entries := [("id", .string "a1"), ("secret", .string "s3cret")]
          distinct := by decide })

/-- With only the id selected, the created row shows no ciphertext. -/
theorem createAccount_transparent :
    ∃ w : World String, Reaches (step marked) (Admitted marked) emptyWorld w ∧ w.stored "Account" ≠ [] ∧
      (∀ answer ∈ w.answers, answer.1 = answer.2) ∧ AtRest marked w.stored := by
  have hsealed :
      (query (createAccount (some ["id"])) emptyWorld.plain).1.map (sealRow marked "Account") =
        (query (createAccount (some ["id"])) emptyWorld.plain).1 := by
    decide
  have hrun :
      Reaches (step marked) (Admitted marked) emptyWorld
        ((step marked emptyWorld (createAccount (some ["id"]))).get rfl) :=
    Reaches.tail (e := createAccount (some ["id"])) (Reaches.refl emptyWorld)
      ⟨trivial, trivial, hsealed⟩ rfl
  exact ⟨_, hrun, by decide, extension_transparent marked_inv hrun⟩

/-- The caller of `create` gets the ciphertext back. -/
theorem createAccount_not_transparent :
    ¬ ∀ (ext : Extension), (∀ text, ext.decrypt (ext.encrypt text) = text) →
        ∀ w : World String, Reaches (step ext) anyEvent emptyWorld w →
          (∀ answer ∈ w.answers, answer.1 = answer.2) ∧ AtRest ext w.stored := by
  intro hall
  have hrun :
      Reaches (step marked) anyEvent emptyWorld
        ((step marked emptyWorld (createAccount none)).get rfl) :=
    Reaches.tail (Reaches.refl emptyWorld) trivial rfl
  have hanswers := (hall marked marked_inv _ hrun).1
  exact absurd hanswers (by decide)

end FieldEncryptionExtension
end NestBase
