import Mathlib.Data.List.Basic

/-!
# JSON values

Values as `JSON.parse` returns them.  A number is represented by the text
`JSON.stringify` prints for it, so two numbers are equal exactly when they
print alike.  The entries of an object stand in the order of
`Object.entries`.
-/

namespace NestBase
namespace Lib

/-- A JSON value. -/
inductive Json where
  | null
  | bool (b : Bool)
  | num (text : String)
  | str (s : String)
  | arr (items : List Json)
  | obj (entries : List (String × Json))

namespace Json

/-- The value under `name` of an object, `none` on every other value. -/
def field? (name : String) : Json → Option Json
  | obj entries =>
      (entries.find? fun entry => entry.1 == name).map Prod.snd
  | _ => none

/-- Truthiness of a JSON value. -/
def truthy : Json → Bool
  | null => false
  | bool b => b
  | num text => !(text == "0")
  | str s => !(s == "")
  | arr _ => true
  | obj _ => true

mutual

/-- `String(value)` -/
def toText : Json → String
  | null => "null"
  | bool b => if b then "true" else "false"
  | num text => text
  | str s => s
  | arr items => ",".intercalate (itemTexts items)
  | obj _ => "[object Object]"

/-- The texts an array joins; `null` counts as empty. -/
def itemTexts : List Json → List String
  | [] => []
  | null :: rest => "" :: itemTexts rest
  | item :: rest => toText item :: itemTexts rest

end

/-- One hexadecimal digit, in lower case. -/
def hexDigit (n : Nat) : Char :=
  "0123456789abcdef".toList.getD n '0'

/-- The escape `JSON.stringify` writes for one character of a string. -/
def escapeChar (c : Char) : List Char :=
  if c = '"' then ['\\', '"']
  else if c = '\\' then ['\\', '\\']
  else if c.toNat = 8 then ['\\', 'b']
  else if c.toNat = 9 then ['\\', 't']
  else if c.toNat = 10 then ['\\', 'n']
  else if c.toNat = 12 then ['\\', 'f']
  else if c.toNat = 13 then ['\\', 'r']
  else if c.toNat < 32 then
    ['\\', 'u', '0', '0', hexDigit (c.toNat / 16), hexDigit (c.toNat % 16)]
  else [c]

/-- `JSON.stringify` of a string. -/
def quote (s : String) : String :=
  String.ofList ('"' :: s.toList.flatMap escapeChar ++ ['"'])

end Json

end Lib
end NestBase
