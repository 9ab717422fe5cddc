import NestBase.Core.CaslAbility

/-!
# The output pipeline

Every response passes three walks.  With an ability and a subject the first
keeps the fields the ability lists; without them it maps geometry columns to
GeoJSON.  The second walk removes entries with secret names, and the third is
a safety net that masks or refuses what the second should have removed.

Each walk rebuilds every object from its enumerable entries.  An instance of
`Date` has none, so it comes out as an empty object.  An entry assigned under
`__proto__` sets the prototype of the new object and is not an entry of it.

The lower case of the runtime and its JSON parser are the parameters
`toLowerCase` and `parse`.
-/

namespace NestBase
namespace OutputPipeline

open Lib
open Permissions

/-- A value a handler returns. -/
inductive Value where
  | null
  | bool (b : Bool)
  | num (text : String)
  | str (s : String)
  /-- A `Date`, by the text its `toJSON` returns; an invalid one has none. -/
  | date (iso : Option String)
  | arr (items : List Value)
  | obj (entries : List (String × Value))

namespace Value

/-- Induction with the items of an array and the values of an object at hand. -/
theorem induction
    {P : Value → Prop}
    (null : P .null)
    (bool : ∀ b, P (.bool b))
    (num : ∀ text, P (.num text))
    (str : ∀ s, P (.str s))
    (date : ∀ iso, P (.date iso))
    (arr : ∀ items, (∀ item ∈ items, P item) → P (.arr items))
    (obj : ∀ entries, (∀ entry ∈ entries, P entry.2) → P (.obj entries)) :
    ∀ value, P value := by
  refine @Value.rec P (fun items => ∀ item ∈ items, P item)
    (fun entries => ∀ entry ∈ entries, P entry.2) (fun entry => P entry.2)
    null bool num str date arr obj ?_ ?_ ?_ ?_ ?_
  · intro item hitem
    cases hitem
  · intro first rest hfirst hrest item hitem
    rcases List.mem_cons.mp hitem with rfl | hmem
    · exact hfirst
    · exact hrest item hmem
  · intro entry hentry
    cases hentry
  · intro first rest hfirst hrest entry hentry
    rcases List.mem_cons.mp hentry with rfl | hmem
    · exact hfirst
    · exact hrest entry hmem
  · intro key child hchild
    exact hchild

end Value

/-- `out[key] = value` in front of the entries assigned later. -/
def assign (key : String) (value : Value) (rest : List (String × Value)) : List (String × Value) :=
  if key = "__proto__" then rest else (key, value) :: rest

/-! ## GeoJSON -/

def VALID_GEOMETRY_TYPES : List String :=
  ["Point", "LineString", "Polygon", "MultiPoint", "MultiLineString", "MultiPolygon",
    "GeometryCollection", "Feature", "FeatureCollection"]

def GEOMETRY_COLUMNS : List String := ["location", "area"]

section Geo

variable (parse : String → Option Value)

/-- The value when it is an object with the type of a geometry. -/
def geometryOf : Value → Option Value
  | .obj entries =>
      match entries.lookup "type" with
      | some (.str type) =>
          if VALID_GEOMETRY_TYPES.contains type then some (.obj entries) else none
      | _ => none
  | _ => none

/-- `none` when it throws; the only caller drops the error. -/
def mapGeometryToGeoJson : Value → Option Value
  | .null => some .null
  | .str text => (parse text).bind geometryOf
  | value => geometryOf value

/-- The record with its geometry columns mapped; `none` when one of them throws. -/
def mapRecordToGeoJson : List (String × Value) → Option (List (String × Value))
  | [] => some []
  | (key, value) :: rest =>
      (if GEOMETRY_COLUMNS.contains key then mapGeometryToGeoJson parse value else some value).bind
        fun mapped => (mapRecordToGeoJson rest).map ((key, mapped) :: ·)

mutual

def mapGeoJsonRecursively : Value → Value
  | .arr items => .arr (mapGeoItems items)
  | .date _ => .obj []
  | .obj entries =>
      match mapRecordToGeoJson parse entries with
      | none => .obj entries
      | some mapped => .obj (mapGeoEntries entries mapped)
  | value => value

def mapGeoItems : List Value → List Value
  | [] => []
  | item :: rest => mapGeoJsonRecursively item :: mapGeoItems rest

/-- Geometry columns keep their mapped value, the other entries are walked. -/
def mapGeoEntries : List (String × Value) → List (String × Value) → List (String × Value)
  | (key, value) :: rest, (_, mapped) :: restMapped =>
      (key, if GEOMETRY_COLUMNS.contains key then mapped else mapGeoJsonRecursively value) ::
        mapGeoEntries rest restMapped
  | _, _ => []

end

end Geo

/-! ## Secrets -/

def SECRET_FIELD_NAMES : List String :=
  ["password", "passwordHash", "token", "apiKey", "secret", "authToken", "refreshToken",
    "sessionToken", "pinHash", "mfaSecret"]

section Walks

variable (toLowerCase : String → String)

/-- `key.toLowerCase().replaceAll("_", "")` -/
def normalizeKey (key : String) : String :=
  String.ofList ((toLowerCase key).toList.filter fun c => c ≠ '_')

/-- The key is one of the names up to case and underscores. -/
def named (fields : List String) (key : String) : Bool :=
  (fields.map (normalizeKey toLowerCase)).contains (normalizeKey toLowerCase key)

mutual

def removeSecrets (fields : List String) : Value → Value
  | .arr items => .arr (removeSecretItems fields items)
  | .date _ => .obj []
  | .obj entries => .obj (removeSecretEntries fields entries)
  | value => value

def removeSecretItems (fields : List String) : List Value → List Value
  | [] => []
  | item :: rest => removeSecrets fields item :: removeSecretItems fields rest

def removeSecretEntries (fields : List String) : List (String × Value) → List (String × Value)
  | [] => []
  | (key, child) :: rest =>
      if named toLowerCase fields key then removeSecretEntries fields rest
      else assign key (removeSecrets fields child) (removeSecretEntries fields rest)

end

/-! ## Safety net -/

inductive SafetyNetMode where
  | mask
  | throw
deriving DecidableEq, Repr

mutual

/-- The first key with a forbidden name. -/
def walkForFieldHit (fields : List String) : Value → Option String
  | .arr items => walkItemsForFieldHit fields items
  | .obj entries => walkEntriesForFieldHit fields entries
  | _ => none

def walkItemsForFieldHit (fields : List String) : List Value → Option String
  | [] => none
  | item :: rest => (walkForFieldHit fields item).or (walkItemsForFieldHit fields rest)

def walkEntriesForFieldHit (fields : List String) : List (String × Value) → Option String
  | [] => none
  | (key, child) :: rest =>
      if named toLowerCase fields key then some key
      else (walkForFieldHit fields child).or (walkEntriesForFieldHit fields rest)

end

mutual

/-- A text some pattern matches. -/
def walkForValueHit (patterns : List (String → Bool)) : Value → Bool
  | .str s => patterns.any fun pattern => pattern s
  | .arr items => walkItemsForValueHit patterns items
  | .obj entries => walkEntriesForValueHit patterns entries
  | _ => false

def walkItemsForValueHit (patterns : List (String → Bool)) : List Value → Bool
  | [] => false
  | item :: rest => walkForValueHit patterns item || walkItemsForValueHit patterns rest

def walkEntriesForValueHit (patterns : List (String → Bool)) : List (String × Value) → Bool
  | [] => false
  | (_, child) :: rest => walkForValueHit patterns child || walkEntriesForValueHit patterns rest

end

mutual

def walkAndMask (fields : List String) (patterns : List (String → Bool)) : Value → Value
  | .str s => if patterns.any fun pattern => pattern s then .str "[redacted]" else .str s
  | .arr items => .arr (maskItems fields patterns items)
  | .date _ => .obj []
  | .obj entries => .obj (maskEntries fields patterns entries)
  | value => value

def maskItems (fields : List String) (patterns : List (String → Bool)) : List Value → List Value
  | [] => []
  | item :: rest => walkAndMask fields patterns item :: maskItems fields patterns rest

def maskEntries (fields : List String) (patterns : List (String → Bool)) :
    List (String × Value) → List (String × Value)
  | [] => []
  | (key, child) :: rest =>
      assign key
        (if named toLowerCase fields key then .str "[redacted]"
          else walkAndMask fields patterns child)
        (maskEntries fields patterns rest)

end

structure SafetyNetOptions where
  mode : SafetyNetMode
  fields : List String := SECRET_FIELD_NAMES
  valuePatterns : List (String → Bool) := []

/-- The message of a `SafetyNetViolationError`. -/
def safetyNetViolation (field : String) : String :=
  "output-pipeline safety-net: secret-named field \"" ++ field ++ "\" leaked"

def applySafetyNet (value : Value) (options : SafetyNetOptions) : Except String Value :=
  match options.mode with
  | .throw =>
      match walkForFieldHit toLowerCase options.fields value with
      | some field => .error (safetyNetViolation field)
      | none =>
          if options.valuePatterns ≠ [] ∧ walkForValueHit options.valuePatterns value then
            .error (safetyNetViolation "<value-shape>")
          else .ok value
  | .mask => .ok (walkAndMask toLowerCase options.fields options.valuePatterns value)

/-! ## Field allowlist -/

section Pipeline

variable {Item : Type}
variable (casl : Casl Item)

/-- `ability.rulesFor(action, subject)`: rules of more weight first. -/
def rulesFor (ability : Ability) (action subject : String) : List AbilityRule :=
  ability.reverse.filter fun rule => rule.names action subject && rule.matchesField casl none

/-- The loop over the rules: the union of the field lists and whether a rule had none. -/
def unionFields : List AbilityRule → Option (List String) × Bool → Option (List String) × Bool
  | [], state => state
  | rule :: rest, (union, sawWithoutFields) =>
      if rule.inverted then unionFields rest (union, sawWithoutFields)
      else if rule.fields = [] then unionFields rest (union, true)
      else unionFields rest (some (union.getD [] ++ rule.fields), sawWithoutFields)

def allowedFields (ability : Ability) (subject : String) : Option (List String) :=
  match unionFields (rulesFor casl ability "read" subject) (none, false) with
  | (_, true) => none
  | (union, false) => union

def pickFields (fields : List String) : List (String × Value) → List (String × Value)
  | [] => []
  | (key, value) :: rest =>
      if fields.contains key then assign key value (pickFields fields rest)
      else pickFields fields rest

mutual

/-- `walk(value, (obj) => pickFields(obj, fields))` -/
def walkFields (fields : List String) : Value → Value
  | .arr items => .arr (walkFieldItems fields items)
  | .date _ => .obj []
  | .obj entries => .obj (pickFields fields entries)
  | value => value

def walkFieldItems (fields : List String) : List Value → List Value
  | [] => []
  | item :: rest => walkFields fields item :: walkFieldItems fields rest

end

def applyFieldAllowlist (ability : Ability) (subject : String) (value : Value) : Value :=
  match allowedFields casl ability subject with
  | none => value
  | some fields => walkFields fields value

structure OutputPipelineOptions where
  ability : Ability
  safetyNetMode : SafetyNetMode := .throw
  safetyNetExtraFields : List String := []

/-- The names the safety net looks for. -/
def OutputPipelineOptions.safetyFields (options : OutputPipelineOptions) : List String :=
  SECRET_FIELD_NAMES ++ options.safetyNetExtraFields

/-- `OutputPipeline.run` -/
def run (options : OutputPipelineOptions) (subject : String) (value : Value) :
    Except String Value :=
  let stage2 := applyFieldAllowlist casl options.ability subject value
  let stage3 := removeSecrets toLowerCase SECRET_FIELD_NAMES stage2
  applySafetyNet toLowerCase stage3
    { mode := options.safetyNetMode, fields := options.safetyFields }

/-! ## Every response -/

structure ProcessOutputResponseOptions where
  ability : Option Ability := none
  subject : Option String := none
  safetyNetMode : SafetyNetMode := .mask

def processOutputResponse (parse : String → Option Value) (value : Value)
    (options : ProcessOutputResponseOptions) : Except String Value :=
  match value with
  | .null => .ok .null
  | value =>
      match options.ability, options.subject.filter fun subject => subject ≠ "" with
      | some ability, some subject =>
          run toLowerCase casl { ability := ability, safetyNetMode := options.safetyNetMode }
            subject value
      | _, _ =>
          let geo := mapGeoJsonRecursively parse value
          let stripped := removeSecrets toLowerCase SECRET_FIELD_NAMES geo
          applySafetyNet toLowerCase stripped { mode := options.safetyNetMode }

end Pipeline

end Walks

end OutputPipeline
end NestBase
