import NestBase.Lib.OrderedMap

/-!
# Arguments of a database client

A client has one set of operations for every model.  It takes an argument
object only if all the names in it are known: at the top level those of the
operation, in a where-clause and in the data those of the model (`valid`).  A
unique operation needs a unique field at the top of its where-clause.

`Where.eval` is what a where-clause says of a row, and `findRows` what a read
returns; the order and the page a read asks for are a function of the rows
found.
-/

namespace NestBase
namespace Lib
namespace Prisma

/-! ## Models -/

/-- A column is needed when a new row must give it a value. -/
structure Column where
  name : String
  needed : Bool
deriving DecidableEq, Repr

/-- A relation stands for the foreign keys it is made of. -/
structure Relation where
  name : String
  fields : List String
deriving DecidableEq, Repr

structure Model where
  name : String
  columns : List Column
  relations : List Relation
  uniques : List (List String)
deriving DecidableEq, Repr

def Model.hasColumn (model : Model) (name : String) : Bool :=
  model.columns.any fun column => column.name = name

def Model.knows (model : Model) (name : String) : Bool :=
  model.hasColumn name || model.relations.any fun relation => relation.name = name

/-- A compound key is named by its columns, with `_` between them. -/
def Model.uniqueNames (model : Model) : List String :=
  model.uniques.map fun columns => "_".intercalate columns

/-- The database generates the id of a row that gives none. -/
def Model.generatesId (model : Model) : Bool :=
  model.columns.any fun column => column.name = "id" && !column.needed

/-! ## Where-clauses -/

/-- Anything but `null` is printed. -/
inductive Value where
  | null
  | printed (text : String)
deriving DecidableEq, Repr

abbrev Row := String → Value

inductive Condition where
  | undefined
  | equals (value : Value)
  | satisfies (test : Value → Bool)
  /-- A condition on related rows, or on the columns of a compound key. -/
  | related (test : Row → Bool)

def Condition.isDefined : Condition → Bool
  | undefined => false
  | _ => true

def Condition.eval (name : String) (row : Row) : Condition → Bool
  | undefined => true
  | equals value => decide (row name = value)
  | satisfies test => test (row name)
  | related test => test row

mutual

/-- A where-clause, entry by entry. -/
inductive Where where
  | empty
  | field (name : String) (condition : Condition) (rest : Where)
  | and (branches : Branches) (rest : Where)
  | or (branches : Branches) (rest : Where)
  | not (branches : Branches) (rest : Where)

inductive Branches where
  | nil
  | cons (first : Where) (rest : Branches)

end

mutual

def Where.eval (row : Row) : Where → Bool
  | .empty => true
  | .field name condition rest => condition.eval name row && rest.eval row
  | .and branches rest => branches.all row && rest.eval row
  | .or branches rest => branches.any row && rest.eval row
  | .not branches rest => !branches.any row && rest.eval row

def Branches.all (row : Row) : Branches → Bool
  | .nil => true
  | .cons first rest => first.eval row && rest.all row

def Branches.any (row : Row) : Branches → Bool
  | .nil => false
  | .cons first rest => first.eval row || rest.any row

end

mutual

/-- Every field that is named, at any depth, is accepted. -/
def Where.uses (accepts : String → Bool) : Where → Bool
  | .empty => true
  | .field name _ rest => accepts name && rest.uses accepts
  | .and branches rest => branches.uses accepts && rest.uses accepts
  | .or branches rest => branches.uses accepts && rest.uses accepts
  | .not branches rest => branches.uses accepts && rest.uses accepts

def Branches.uses (accepts : String → Bool) : Branches → Bool
  | .nil => true
  | .cons first rest => first.uses accepts && rest.uses accepts

end

/-- The top level names a key of the model, and otherwise what the model knows. -/
def Where.usesUnique (model : Model) : Where → Bool
  | .empty => true
  | .field name _ rest =>
      (model.knows name || model.uniqueNames.contains name) && rest.usesUnique model
  | .and branches rest => branches.uses model.knows && rest.usesUnique model
  | .or branches rest => branches.uses model.knows && rest.usesUnique model
  | .not branches rest => branches.uses model.knows && rest.usesUnique model

/-- A unique field has a value at the top level. -/
def Where.hasUnique (model : Model) : Where → Bool
  | .empty => false
  | .field name condition rest =>
      (model.uniqueNames.contains name && condition.isDefined) || rest.hasUnique model
  | .and _ rest => rest.hasUnique model
  | .or _ rest => rest.hasUnique model
  | .not _ rest => rest.hasUnique model

def Where.isUnique (model : Model) (clause : Where) : Bool :=
  clause.usesUnique model && clause.hasUnique model

/-! ## Data -/

/-- The data of a write; an entry may be undefined. -/
abbrev Data := List (String × Option Value)

/-- The value under a name, none where it is absent or undefined. -/
def Data.value (data : Data) (name : String) : Option Value :=
  (OrderedMap.get name data).join

def Data.set (data : Data) (name : String) (value : Value) : Data :=
  OrderedMap.set name (some value) data

theorem Data.value_set (data : Data) (name other : String) (value : Value) :
    (data.set name value).value other = if name = other then some value else data.value other := by
  unfold Data.value Data.set
  rw [OrderedMap.get_set]
  split <;> rfl

def Data.names (accepts : String → Bool) (data : Data) : Bool :=
  data.all fun entry => entry.2.isNone || accepts entry.1

/-- Every needed column has a value, or a relation that stands for it. -/
def Model.hasNeeded (model : Model) (data : Data) : Bool :=
  model.columns.all fun column =>
    !column.needed || (data.value column.name).isSome ||
      model.relations.any fun relation =>
        relation.fields.contains column.name && (data.value relation.name).isSome

def Model.acceptsCreate (model : Model) (data : Data) : Bool :=
  data.names model.knows && model.hasNeeded data

def Model.acceptsUpdate (model : Model) (data : Data) : Bool :=
  data.names model.knows

/-! ## Operations -/

inductive Operation where
  | findMany
  | findFirst
  | findUnique
  | create
  | update
  | upsert
deriving DecidableEq, Repr

def Operation.isRead : Operation → Bool
  | findMany => true
  | findFirst => true
  | findUnique => true
  | create => false
  | update => false
  | upsert => false

/-- An argument object; `others` are the names of the entries besides these. -/
structure Args where
  clause : Option Where
  data : Option Data
  create : Option Data
  update : Option Data
  includeDeleted : Option Bool
  others : List String

/-- The names an operation takes besides its clause and its data. -/
def Operation.takes : Operation → List String
  | findMany => ["select", "include", "omit", "orderBy", "cursor", "take", "skip", "distinct"]
  | findFirst => ["select", "include", "omit", "orderBy", "cursor", "take", "skip", "distinct"]
  | findUnique => ["select", "include", "omit"]
  | create => ["select", "include", "omit"]
  | update => ["select", "include", "omit"]
  | upsert => ["select", "include", "omit"]

def validShape (model : Model) (args : Args) : Operation → Bool
  | .findMany =>
      args.clause.all (·.uses model.knows) && args.data.isNone && args.create.isNone &&
        args.update.isNone
  | .findFirst =>
      args.clause.all (·.uses model.knows) && args.data.isNone && args.create.isNone &&
        args.update.isNone
  | .findUnique =>
      args.clause.any (·.isUnique model) && args.data.isNone && args.create.isNone &&
        args.update.isNone
  | .create =>
      args.clause.isNone && model.acceptsCreate (args.data.getD []) && args.create.isNone &&
        args.update.isNone
  | .update =>
      args.clause.any (·.isUnique model) && args.data.any model.acceptsUpdate &&
        args.create.isNone && args.update.isNone
  | .upsert =>
      args.clause.any (·.isUnique model) && args.data.isNone &&
        args.create.any model.acceptsCreate && args.update.any model.acceptsUpdate

/-- The client takes the arguments. -/
def valid (model : Model) (operation : Operation) (args : Args) : Bool :=
  args.includeDeleted.isNone && args.others.all operation.takes.contains &&
    validShape model args operation

/-- The rows a read returns; `page` is the order and the page of its other arguments. -/
def findRows
    (operation : Operation) (clause : Option Where) (page : List Row → List Row)
    (rows : List Row) :
    List Row :=
  let found := page (rows.filter fun row => clause.all (·.eval row))
  if operation = .findMany then found else found.take 1

/-! ## Adding an entry -/

/-- The names are accepted when those before are, and the new one is. -/
theorem names_set_iff {accepts : String → Bool} {data : Data} {name : String} {value : Value} :
    (data.set name value).names accepts = true ↔
      data.names accepts = true ∧ accepts name = true := by
  have hset : (name, some value) ∈ data.set name value := by
    refine OrderedMap.mem_of_get ?_
    rw [Data.set, OrderedMap.get_set, if_pos rfl]
  constructor
  · intro hall
    have hname : accepts name = true := (List.all_eq_true.mp hall) _ hset
    refine ⟨List.all_eq_true.mpr fun entry hentry => ?_, hname⟩
    by_cases hsame : entry.1 = name
    · rw [hsame, hname, Bool.or_true]
    · exact (List.all_eq_true.mp hall) entry (OrderedMap.mem_set_of_ne hentry hsame)
  · rintro ⟨hdata, hname⟩
    refine List.all_eq_true.mpr fun entry hentry => ?_
    rcases OrderedMap.mem_set hentry with rfl | hmem
    · exact hname
    · exact (List.all_eq_true.mp hdata) entry hmem

theorem accepts_of_value
    {accepts : String → Bool} {data : Data} {name : String} {value : Value}
    (hdata : data.names accepts = true)
    (hvalue : data.value name = some value) :
    accepts name = true :=
  (List.all_eq_true.mp hdata) _ (OrderedMap.mem_of_get (Option.join_eq_some_iff.mp hvalue))

theorem isSome_value_set
    {data : Data} {name other : String} {value : Value}
    (hother : (data.value other).isSome = true) :
    ((data.set name value).value other).isSome = true := by
  rw [Data.value_set]
  split
  · rfl
  · exact hother

/-- What a new row needs it still has after another entry. -/
theorem hasNeeded_set
    {model : Model} {data : Data} {name : String} {value : Value}
    (hneeded : model.hasNeeded data = true) :
    model.hasNeeded (data.set name value) = true := by
  refine List.all_eq_true.mpr fun column hcolumn => ?_
  have hgiven := (List.all_eq_true.mp hneeded) column hcolumn
  simp only [Bool.or_eq_true, List.any_eq_true, Bool.and_eq_true] at hgiven ⊢
  rcases hgiven with (hfree | hsome) | ⟨relation, hrelation, hfields, hsome⟩
  · exact Or.inl (Or.inl hfree)
  · exact Or.inl (Or.inr (isSome_value_set hsome))
  · exact Or.inr ⟨relation, hrelation, hfields, isSome_value_set hsome⟩

end Prisma
end Lib
end NestBase
