import NestBase.Core.ExampleListing
import NestBase.Lib.JsonReader

/-!
# Decoding cursors

`decodeCursor` reads what `encodeCursor` has written, and throws on every text
that is not base64url of a JSON object with a sort value and an id.

A cursor whose sort value is a text or a whole number is decoded to the record it
was made of (`decodeCursor_encodeCursor`).
-/

namespace NestBase
namespace Examples

open Lib

structure CursorMalformedError where
  message : String
deriving DecidableEq

/-- `new CursorMalformedError(reason)` -/
def cursorMalformed (reason : String) : CursorMalformedError where
  message := s!"cursor: malformed ({reason})"

/-- A sort value is a string or a number; a number keeps its literal. -/
def CursorSortValue.ofJson : Json → Option CursorSortValue
  | .str value => some (.text value)
  | .num literal => some (.number literal)
  | _ => none

/-- `typeof parsed === "object"`, of a value that is not null -/
def isObject : Json → Bool
  | .obj _ => true
  | .arr _ => true
  | _ => false

def stringOf : Json → Option String
  | .str value => some value
  | _ => none

/-- The record of a payload; an array has neither field. -/
def CursorRecord.ofPayload (payload : Json) : Option CursorRecord := do
  let sortValue ← (payload.field? "s").bind CursorSortValue.ofJson
  let id ← (payload.field? "i").bind stringOf
  some { id := id, sortValue := sortValue }

/-- `syntaxError` is the message of the error that `JSON.parse` throws at a text. -/
def decodeCursor (syntaxError : List Char → String) (cursor : String) :
    Except CursorMalformedError CursorRecord :=
  if cursor = "" then .error (cursorMalformed "empty")
  else
    let decoded := Unicode.charsOfUtf8 (Base64.decode (Unicode.ofText cursor))
    match Json.parse decoded with
    | none => .error (cursorMalformed (syntaxError decoded))
    | some payload =>
        if !isObject payload then .error (cursorMalformed "payload is not an object")
        else
          match CursorRecord.ofPayload payload with
          | none => .error (cursorMalformed "missing sortValue or id")
          | some record => .ok record

/-! ## Round trip -/

/-- A string, or a whole number. -/
inductive CursorSortValue.Whole : CursorSortValue → Prop
  | text (value : String) : Whole (.text value)
  | number (n : Int) : Whole (.number (Text.ofInt n))

def CursorSortValue.asJson : CursorSortValue → Json
  | text value => .str value
  | number printed => .num printed

theorem CursorSortValue.ofJson_asJson (sortValue : CursorSortValue) :
    CursorSortValue.ofJson sortValue.asJson = some sortValue := by
  cases sortValue <;> rfl

theorem endsNumber_comma (rest : List Char) : Json.EndsNumber (',' :: rest) := by
  intro c hc
  cases hc
  decide

theorem readValue_sortValue
    {sortValue : CursorSortValue}
    (hwhole : sortValue.Whole)
    (fuel : Nat) (rest : List Char) :
    Json.readValue (fuel + 1) (sortValue.toJson.toList ++ ',' :: rest) =
      some (sortValue.asJson, ',' :: rest) := by
  cases hwhole with
  | text value => exact Json.readValue_quote fuel value (',' :: rest)
  | number n => exact Json.readValue_ofInt fuel n (endsNumber_comma rest)

theorem arrayIndex_s : Json.arrayIndex? "s" = none := by
  decide

theorem arrayIndex_i : Json.arrayIndex? "i" = none := by
  decide

/-- The payload of a cursor is read as the object it was printed from. -/
theorem parse_payload {record : CursorRecord} (hwhole : record.sortValue.Whole) :
    Json.parse
        ("\x7b\"s\":" ++ record.sortValue.toJson ++ ",\"i\":" ++ Json.quote record.id ++
          "\x7d").toList =
      some (.obj [("s", record.sortValue.asJson), ("i", .str record.id)]) := by
  let second : List Char := (Json.quote "i").toList ++ ':' :: ((Json.quote record.id).toList ++ ['\x7d'])
  let members : List Char :=
    (Json.quote "s").toList ++ ':' :: (record.sortValue.toJson.toList ++ ',' :: second)
  have htext :
      ("\x7b\"s\":" ++ record.sortValue.toJson ++ ",\"i\":" ++ Json.quote record.id ++
        "\x7d").toList = '\x7b' :: members := by
    have hs : (Json.quote "s").toList = ['"', 's', '"'] := by decide
    have hi : (Json.quote "i").toList = ['"', 'i', '"'] := by decide
    simp [members, second, hs, hi]
  have hread (fuel : Nat) :
      Json.readMembers (fuel + 4) members =
        some ([("s", record.sortValue.asJson), ("i", .str record.id)], []) := by
    have hvalue := Json.readValue_quote (fuel + 1) record.id ['\x7d']
    have hid := Json.readMembers_brace "i" hvalue
    rw [Json.readMembers_comma "s" (readValue_sortValue hwhole (fuel + 2) second), hid]
    rfl
  have hfuel : 2 * (members.length + 1) = 2 * (members.length - 1) + 4 := by
    have hpos : 0 < members.length := by simp [members]
    omega
  have hentries :
      Json.entriesOf [("s", record.sortValue.asJson), ("i", .str record.id)] =
        [("s", record.sortValue.asJson), ("i", .str record.id)] := by
    have hnames : ["s", "i"].Nodup := by decide
    refine Json.entriesOf_named hnames fun member hmember => ?_
    rcases List.mem_pair.mp hmember with rfl | rfl
    · exact arrayIndex_s
    · exact arrayIndex_i
  rw [htext, Json.parse_object rfl (hfuel ▸ hread _), hentries]

/-- A cursor is decoded to what it was made of. -/
theorem decodeCursor_encodeCursor
    (syntaxError : List Char → String)
    {record : CursorRecord}
    (hwhole : record.sortValue.Whole) :
    decodeCursor syntaxError (encodeCursor record) = .ok record := by
  have hparse := parse_payload hwhole
  unfold decodeCursor
  rw [if_neg (encodeCursor_ne_empty record)]
  unfold encodeCursor
  dsimp only
  rw [Base64.decode_encodeUrl, Unicode.charsOfUtf8_utf8, hparse]
  have hrecord :
      CursorRecord.ofPayload (.obj [("s", record.sortValue.asJson), ("i", .str record.id)]) =
        some record := by
    change (CursorSortValue.ofJson record.sortValue.asJson).bind _ = _
    rw [CursorSortValue.ofJson_asJson]
    rfl
  simp only [isObject, hrecord, Bool.not_true, Bool.false_eq_true, if_false]

end Examples
end NestBase
