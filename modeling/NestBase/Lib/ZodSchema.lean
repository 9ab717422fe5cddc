import NestBase.Lib.Json
import NestBase.Lib.OrderedMap
import NestBase.Lib.Unicode

/-!
# Object schemas

A validator reads the fields of a JSON object, each by a schema of its own, and
returns what it has read.  A schema may be wrapped: `optional` lets the value be
missing, `default_` puts a value in the place of a missing one.  `partialOf`
wraps every field of an object schema by `optional`.

A default below an `optional` still takes the place of a missing value: only a
schema that refuses a missing value is skipped (`parse_optional_none`).  So a
field of `partialOf` that the object does not have reads as the field's default
(`get_partialOf_of_absent`).
-/

namespace NestBase
namespace Lib

/-- A problem the validator reports. -/
structure ZodIssue where
  code : String
  path : List String
deriving DecidableEq, Repr

/-- The problem of a field, as a problem of the object. -/
def ZodIssue.within (name : String) (issue : ZodIssue) : ZodIssue :=
  { issue with path := name :: issue.path }

inductive ZodSchema where
  /-- A text whose length is between two bounds. -/
  | string (min max : Option Nat)
  | enum (options : List String)
  | optional (inner : ZodSchema)
  | default_ (value : Json) (inner : ZodSchema)

/-- The fields of an object schema; fields that are not named are dropped. -/
abbrev ZodShape := List (String × ZodSchema)

namespace ZodSchema

/-- The checks of a text; all of them are made. -/
def textIssues (min max : Option Nat) (text : String) : List ZodIssue :=
  let length := (Unicode.ofText text).length
  (if min.any fun bound => decide (length < bound) then [{ code := "too_small", path := [] }]
    else []) ++
  (if max.any fun bound => decide (bound < length) then [{ code := "too_big", path := [] }]
    else [])

def enumIssues (options : List String) (text : String) : List ZodIssue :=
  if text ∈ options then [] else [{ code := "invalid_value", path := [] }]

/-- Read a text that passes its checks; another value, or none, is refused with `code`. -/
def readText (issues : String → List ZodIssue) (code : String) :
    Option Json → Except (List ZodIssue) (Option Json)
  | some (.str text) => if issues text = [] then .ok (some (.str text)) else .error (issues text)
  | _ => .error [{ code := code, path := [] }]

/-- The schema says itself what a missing value reads as. -/
def optin : ZodSchema → Bool
  | string _ _ => false
  | enum _ => false
  | optional _ => true
  | default_ _ _ => true

/-- Read a value that may be missing. -/
def parse : ZodSchema → Option Json → Except (List ZodIssue) (Option Json)
  | string min max, input => readText (textIssues min max) "invalid_type" input
  | enum options, input => readText (enumIssues options) "invalid_value" input
  | optional inner, some value => inner.parse (some value)
  | optional inner, none =>
      if inner.optin then
        match inner.parse none with
        | .ok read => .ok read
        | .error _ => .ok none
      else .ok none
  | default_ _ inner, some value => inner.parse (some value)
  | default_ value _, none => .ok (some value)

/-- What a schema that takes a missing value reads in its place. -/
def missing : ZodSchema → Option Json
  | string _ _ => none
  | enum _ => none
  | optional inner => inner.missing
  | default_ value _ => some value

/-- An optional schema takes a missing value, and a default below it still applies. -/
theorem parse_optional_none (inner : ZodSchema) :
    (optional inner).parse none = .ok inner.missing := by
  induction inner with
  | string min max => rfl
  | enum options => rfl
  | optional inner ih =>
      rw [parse, optin, if_pos rfl, ih]
      rfl
  | default_ value inner ih => rfl

theorem readText_some
    {issues : String → List ZodIssue} {code : String} {value : Json} {read : Option Json}
    (h : readText issues code (some value) = .ok read) :
    read = some value ∧ ∃ text, value = .str text := by
  cases value with
  | str text =>
      rw [readText] at h
      split at h
      · exact ⟨(Except.ok.inj h).symm, text, rfl⟩
      · cases h
  | null => cases h
  | bool b => cases h
  | num text => cases h
  | arr items => cases h
  | obj entries => cases h

/-- A value that is there is read as it is, or refused. -/
theorem parse_some
    {schema : ZodSchema} {value : Json} {read : Option Json}
    (h : schema.parse (some value) = .ok read) :
    read = some value ∧ ∃ text, value = .str text := by
  induction schema with
  | string min max => exact readText_some h
  | enum options => exact readText_some h
  | optional inner ih =>
      rw [parse] at h
      exact ih h
  | default_ default inner ih =>
      rw [parse] at h
      exact ih h

end ZodSchema

/-! ## Objects -/

namespace ZodShape

open ZodSchema

/-- Read the fields in the order of the shape; the problems of all fields are reported. -/
def parseFields (input : Json) : ZodShape → Except (List ZodIssue) (List (String × Json))
  | [] => .ok []
  | (name, schema) :: rest =>
      match schema.parse (input.field? name), parseFields input rest with
      | .ok (some value), .ok fields => .ok ((name, value) :: fields)
      | .ok none, .ok fields => .ok fields
      | .ok _, .error issues => .error issues
      | .error issues, .ok _ => .error (issues.map (ZodIssue.within name))
      | .error issues, .error more => .error (issues.map (ZodIssue.within name) ++ more)

def parse (shape : ZodShape) : Option Json → Except (List ZodIssue) (List (String × Json))
  | some (.obj entries) => parseFields (.obj entries) shape
  | _ => .error [{ code := "invalid_type", path := [] }]

/-- Every field may be missing. -/
def partialOf (shape : ZodShape) : ZodShape :=
  shape.map fun field => (field.1, .optional field.2)

variable {fields : List (String × Json)}
variable {input : Json}

theorem parseFields_cons_eq_ok_iff {name : String} {schema : ZodSchema} {rest : ZodShape} :
    parseFields input ((name, schema) :: rest) = .ok fields ↔
      ∃ read fields',
        schema.parse (input.field? name) = .ok read ∧ parseFields input rest = .ok fields' ∧
          fields = (read.map fun value => (name, value)).toList ++ fields' := by
  rw [parseFields]
  cases hschema : schema.parse (input.field? name) with
  | error issues =>
      cases parseFields input rest with
      | error more => exact ⟨fun h => (by cases h), fun ⟨_, _, h, _⟩ => (by cases h)⟩
      | ok fields' => exact ⟨fun h => (by cases h), fun ⟨_, _, h, _⟩ => (by cases h)⟩
  | ok read =>
      cases hrest : parseFields input rest with
      | error issues =>
          constructor
          · intro h
            cases read <;> cases h
          · rintro ⟨_, _, -, h, -⟩
            cases h
      | ok fields' =>
          constructor
          · intro h
            refine ⟨read, fields', rfl, rfl, ?_⟩
            cases read <;> exact (Except.ok.inj h).symm
          · rintro ⟨_, _, ⟨rfl⟩, ⟨rfl⟩, rfl⟩
            cases read <;> rfl

/-- What is read has no field outside the shape. -/
theorem name_mem_of_parseFields {shape : ZodShape} (h : parseFields input shape = .ok fields) :
    ∀ field ∈ fields, field.1 ∈ shape.map Prod.fst := by
  induction shape generalizing fields with
  | nil =>
      cases h
      exact fun field hfield => absurd hfield List.not_mem_nil
  | cons head rest ih =>
      obtain ⟨read, fields', -, hrest, rfl⟩ := parseFields_cons_eq_ok_iff.mp h
      intro field hfield
      rcases List.mem_append.mp hfield with hhead | hmem
      · obtain ⟨value, -, rfl⟩ := Option.map_eq_some_iff.mp (Option.mem_toList.mp hhead)
        exact List.mem_cons_self
      · exact List.mem_cons_of_mem _ (ih hrest field hmem)

/-- A field of the shape is read by its schema. -/
theorem get_of_parseFields
    {shape : ZodShape} {name : String} {schema : ZodSchema}
    (hdistinct : (shape.map Prod.fst).Nodup)
    (hfield : (name, schema) ∈ shape)
    (h : parseFields input shape = .ok fields) :
    schema.parse (input.field? name) = .ok (OrderedMap.get name fields) := by
  induction shape generalizing fields with
  | nil => exact absurd hfield List.not_mem_nil
  | cons head rest ih =>
      obtain ⟨read, fields', hread, hrest, rfl⟩ := parseFields_cons_eq_ok_iff.mp h
      obtain ⟨hnew, hdistinct'⟩ := List.nodup_cons.mp hdistinct
      rw [OrderedMap.get_append]
      rcases List.mem_cons.mp hfield with rfl | hmem
      · have habsent : OrderedMap.get name fields' = none := by
          refine OrderedMap.get_eq_none_iff.mpr fun hname => hnew ?_
          obtain ⟨entry, hentry, hsame⟩ := List.mem_map.mp hname
          exact hsame ▸ name_mem_of_parseFields hrest entry hentry
        rw [habsent, Option.or_none, hread]
        cases read with
        | none => rfl
        | some value =>
            rw [Option.map_some, Option.toList_some, OrderedMap.get_cons, if_pos rfl]
      · have hne : head.1 ≠ name := fun hsame =>
          hnew (hsame ▸ List.mem_map_of_mem hmem)
        have hhead :
            OrderedMap.get name (read.map fun value => (head.1, value)).toList = none := by
          cases read with
          | none => rfl
          | some value =>
              rw [Option.map_some, Option.toList_some, OrderedMap.get_cons, if_neg hne]
              rfl
        rw [hhead, Option.none_or]
        exact ih hdistinct' hmem hrest

section PartialOf

variable {input : Json} {shape : ZodShape} {fields : List (String × Json)}
variable {name : String} {schema : ZodSchema}

theorem names_partialOf (shape : ZodShape) :
    (partialOf shape).map Prod.fst = shape.map Prod.fst := by
  rw [partialOf, List.map_map]
  rfl

theorem parse_of_partialOf
    (hdistinct : (shape.map Prod.fst).Nodup)
    (hfield : (name, schema) ∈ shape)
    (h : parseFields input (partialOf shape) = .ok fields) :
    (ZodSchema.optional schema).parse (input.field? name) = .ok (OrderedMap.get name fields) := by
  refine get_of_parseFields ?_ ?_ h
  · rw [names_partialOf]
    exact hdistinct
  · exact List.mem_map.mpr ⟨(name, schema), hfield, rfl⟩

/-- An absent field of `partialOf` reads as its default, where it has one. -/
theorem get_partialOf_of_absent
    (hdistinct : (shape.map Prod.fst).Nodup)
    (hfield : (name, schema) ∈ shape)
    (h : parseFields input (partialOf shape) = .ok fields)
    (habsent : input.field? name = none) :
    OrderedMap.get name fields = schema.missing := by
  have hparse := parse_of_partialOf hdistinct hfield h
  rw [habsent, parse_optional_none] at hparse
  exact (Except.ok.inj hparse).symm

/-- A field of `partialOf` that is there is a text, and read as it is. -/
theorem get_partialOf_of_present
    {value : Json}
    (hdistinct : (shape.map Prod.fst).Nodup)
    (hfield : (name, schema) ∈ shape)
    (h : parseFields input (partialOf shape) = .ok fields)
    (hpresent : input.field? name = some value) :
    OrderedMap.get name fields = some value ∧ ∃ text, value = .str text := by
  have hparse := parse_of_partialOf hdistinct hfield h
  rw [hpresent] at hparse
  exact parse_some hparse

end PartialOf

end ZodShape

end Lib
end NestBase
