import NestBase.Lib.JsonText
import NestBase.Lib.OrderedMap
import NestBase.Lib.Unicode
import NestBase.Lib.Text

/-!
# Reading JSON

`parse` reads a text by the grammar of JSON.  A number keeps its literal.  An
object has its members in the order of `Object.entries`: of two members of one
name the last one counts, in the place of the first, and names that are array
indices come first, by size.

What `quote` prints is read back (`readString_quote`), and so is a whole number
in decimal (`readNumber_ofInt`).
-/

namespace NestBase
namespace Lib
namespace Json

open Unicode

/-! ## Strings -/

/-- The value of a hexadecimal digit, in either case. -/
def hexDigit? (c : Char) : Option Nat :=
  if c.isDigit then some (c.toNat - 48)
  else if 'a' ≤ c ∧ c ≤ 'f' then some (c.toNat - 87)
  else if 'A' ≤ c ∧ c ≤ 'F' then some (c.toNat - 55)
  else none

/-- The code unit of four hexadecimal digits. -/
def readUnit (digits : List Char) : Option UInt16 :=
  (digits.mapM hexDigit?).map fun values => UInt16.ofNat (values.foldl (fun n d => n * 16 + d) 0)

/-- The code unit an escape of one letter stands for. -/
def readEscape (letter : Char) : Option UInt16 :=
  if letter = '"' ∨ letter = '\\' ∨ letter = '/' then some (UInt16.ofNat letter.toNat)
  else if letter = 'b' then some 8
  else if letter = 't' then some 9
  else if letter = 'n' then some 10
  else if letter = 'f' then some 12
  else if letter = 'r' then some 13
  else none

/-- The code units up to the closing quote, and the text behind it. -/
def readUnits : List Char → Option (JsString × List Char)
  | '"' :: rest => some ([], rest)
  | '\\' :: 'u' :: a :: b :: c :: d :: rest =>
      (readUnit [a, b, c, d]).bind fun unit =>
        (readUnits rest).map fun read => (unit :: read.1, read.2)
  | '\\' :: letter :: rest =>
      (readEscape letter).bind fun unit =>
        (readUnits rest).map fun read => (unit :: read.1, read.2)
  | c :: rest =>
      if c.toNat < 32 ∨ c = '\\' then none
      else (readUnits rest).map fun read => (utf16Char c ++ read.1, read.2)
  | [] => none

/-- A string behind its opening quote; an unpaired surrogate reads as U+FFFD. -/
def readString (chars : List Char) : Option (String × List Char) :=
  (readUnits chars).map fun read => (String.ofList (charsOf read.1), read.2)

/-! ## Numbers -/

/-- One digit at least. -/
def readDigits (chars : List Char) : Option (List Char × List Char) :=
  let digits := chars.takeWhile Char.isDigit
  if digits = [] then none else some (digits, chars.dropWhile Char.isDigit)

/-- The digits before the point; no digit follows a first zero. -/
def readWhole : List Char → Option (List Char × List Char)
  | '0' :: rest => some (['0'], rest)
  | chars => readDigits chars

def readFraction : List Char → Option (List Char × List Char)
  | '.' :: rest => (readDigits rest).map fun read => ('.' :: read.1, read.2)
  | chars => some ([], chars)

def readExponent (chars : List Char) : Option (List Char × List Char) :=
  match chars with
  | letter :: sign :: rest =>
      if letter = 'e' ∨ letter = 'E' then
        if sign = '-' ∨ sign = '+' then
          (readDigits rest).map fun read => (letter :: sign :: read.1, read.2)
        else (readDigits (sign :: rest)).map fun read => (letter :: read.1, read.2)
      else some ([], chars)
  | _ => some ([], chars)

def readSign : List Char → List Char × List Char
  | '-' :: rest => (['-'], rest)
  | chars => ([], chars)

/-- The literal of a number, and the text behind it. -/
def readNumber (chars : List Char) : Option (List Char × List Char) := do
  let sign := readSign chars
  let whole ← readWhole sign.2
  let fraction ← readFraction whole.2
  let exponent ← readExponent fraction.2
  some (sign.1 ++ whole.1 ++ fraction.1 ++ exponent.1, exponent.2)

/-! ## Members -/

/-- The number a name is, when it is an array index. -/
def arrayIndex? (name : String) : Option Nat :=
  (Text.toInt? name).bind fun n =>
    if Text.ofInt n = name ∧ 0 ≤ n ∧ n < 4294967295 then some n.toNat else none

/-- The entries of an object with the members. -/
def entriesOf (members : List (String × Json)) : List (String × Json) :=
  let kept := members.foldl (fun entries member => OrderedMap.set member.1 member.2 entries) []
  let indexed := kept.filter fun entry => (arrayIndex? entry.1).isSome
  let named := kept.filter fun entry => (arrayIndex? entry.1).isNone
  indexed.mergeSort
      (fun a b => decide ((arrayIndex? a.1).getD 0 ≤ (arrayIndex? b.1).getD 0)) ++ named

variable {members : List (String × Json)}

theorem foldl_set_of_nodup
    {entries : List (String × Json)}
    (hnodup : ((entries ++ members).map Prod.fst).Nodup) :
    members.foldl (fun entries member => OrderedMap.set member.1 member.2 entries) entries =
      entries ++ members := by
  induction members generalizing entries with
  | nil => rw [List.foldl_nil, List.append_nil]
  | cons member rest ih =>
      have hnew : OrderedMap.set member.1 member.2 entries = entries ++ [member] := by
        unfold OrderedMap.set
        refine if_neg fun hany => ?_
        obtain ⟨entry, hentry, hname⟩ := List.any_eq_true.mp hany
        rw [List.map_append, List.map_cons, List.nodup_append] at hnodup
        exact hnodup.2.2 _ (List.mem_map_of_mem hentry) _ List.mem_cons_self
          (of_decide_eq_true hname)
      rw [List.foldl_cons, hnew, ih (by simpa using hnodup), List.append_assoc,
        List.singleton_append]

/-- Members of different names that are no indices are the entries. -/
theorem entriesOf_named
    (hnodup : (members.map Prod.fst).Nodup)
    (hnamed : ∀ member ∈ members, arrayIndex? member.1 = none) :
    entriesOf members = members := by
  have hkept := foldl_set_of_nodup (by rw [List.nil_append]; exact hnodup)
  have hindexed : members.filter (fun entry => (arrayIndex? entry.1).isSome) = [] := by
    rw [List.filter_eq_nil_iff]
    intro member hmember
    simp [hnamed member hmember]
  have hall : members.filter (fun entry => (arrayIndex? entry.1).isNone) = members := by
    rw [List.filter_eq_self]
    intro member hmember
    simp [hnamed member hmember]
  unfold entriesOf
  dsimp only
  rw [hkept, List.nil_append, hindexed, hall, List.mergeSort_nil, List.nil_append]

/-! ## Values -/

def isJsonSpace (c : Char) : Bool :=
  c == ' ' || c == '\t' || c == '\n' || c == '\r'

def skipSpaces (chars : List Char) : List Char :=
  chars.dropWhile isJsonSpace

def readScalar : List Char → Option (Json × List Char)
  | 't' :: 'r' :: 'u' :: 'e' :: rest => some (bool true, rest)
  | 'f' :: 'a' :: 'l' :: 's' :: 'e' :: rest => some (bool false, rest)
  | 'n' :: 'u' :: 'l' :: 'l' :: rest => some (null, rest)
  | chars => (readNumber chars).map fun read => (num (String.ofList read.1), read.2)

mutual

/-- A value and the text behind it. -/
def readValue : Nat → List Char → Option (Json × List Char)
  | 0, _ => none
  | fuel + 1, chars =>
      match skipSpaces chars with
      | '"' :: rest => (readString rest).map fun read => (str read.1, read.2)
      | '[' :: rest =>
          match skipSpaces rest with
          | ']' :: rest => some (arr [], rest)
          | rest => (readItems fuel rest).map fun read => (arr read.1, read.2)
      | '\x7b' :: rest =>
          match skipSpaces rest with
          | '\x7d' :: rest => some (obj [], rest)
          | rest => (readMembers fuel rest).map fun read => (obj (entriesOf read.1), read.2)
      | rest => readScalar rest

/-- One item at least, up to the closing bracket. -/
def readItems : Nat → List Char → Option (List Json × List Char)
  | 0, _ => none
  | fuel + 1, chars =>
      match readValue fuel chars with
      | none => none
      | some (item, rest) =>
          match skipSpaces rest with
          | ',' :: rest => (readItems fuel rest).map fun read => (item :: read.1, read.2)
          | ']' :: rest => some ([item], rest)
          | _ => none

/-- One member at least, up to the closing brace. -/
def readMembers : Nat → List Char → Option (List (String × Json) × List Char)
  | 0, _ => none
  | fuel + 1, chars =>
      match skipSpaces chars with
      | '"' :: rest =>
          match readString rest with
          | none => none
          | some (name, rest) =>
              match skipSpaces rest with
              | ':' :: rest =>
                  match readValue fuel rest with
                  | none => none
                  | some (value, rest) =>
                      match skipSpaces rest with
                      | ',' :: rest =>
                          (readMembers fuel rest).map fun read => ((name, value) :: read.1, read.2)
                      | '\x7d' :: rest => some ([(name, value)], rest)
                      | _ => none
              | _ => none
      | _ => none

end

/-- `JSON.parse(text)`; a value and the items of it are read with two units of fuel a character. -/
def parse (text : List Char) : Option Json :=
  (readValue (2 * text.length + 1) text).bind fun read =>
    if skipSpaces read.2 = [] then some read.1 else none

/-! ## Reading what is printed -/

theorem hexDigit?_hexDigit {n : Nat} (h : n < 16) : hexDigit? (hexDigit n) = some n := by
  interval_cases n <;> decide

theorem utf16Char_of_lt {c : Char} (h : c.toNat < 0x10000) :
    utf16Char c = [UInt16.ofNat c.toNat] := by
  unfold utf16Char
  exact if_pos h

/-- The escape of a character is read as the character. -/
theorem readUnits_escapeChar (c : Char) (rest : List Char) :
    readUnits (escapeChar c ++ rest) =
      (readUnits rest).map fun read => (utf16Char c ++ read.1, read.2) := by
  unfold escapeChar
  by_cases hquote : c = '"'
  · subst hquote
    rfl
  by_cases hback : c = '\\'
  · subst hback
    rfl
  rw [if_neg hquote, if_neg hback]
  split
  · next h => rw [eq_ofNat_of_toNat h]; rfl
  split
  · next h => rw [eq_ofNat_of_toNat h]; rfl
  split
  · next h => rw [eq_ofNat_of_toNat h]; rfl
  split
  · next h => rw [eq_ofNat_of_toNat h]; rfl
  split
  · next h => rw [eq_ofNat_of_toNat h]; rfl
  split
  · next hlow =>
      have hhigh := hexDigit?_hexDigit (show c.toNat / 16 < 16 by omega)
      have hrest := hexDigit?_hexDigit (show c.toNat % 16 < 16 by omega)
      have hunit :
          readUnit ['0', '0', hexDigit (c.toNat / 16), hexDigit (c.toNat % 16)] =
            some (UInt16.ofNat c.toNat) := by
        have hzero : hexDigit? '0' = some 0 := by decide
        simp [readUnit, hzero, hhigh, hrest, Nat.div_add_mod']
      simp only [List.cons_append, List.nil_append, readUnits, hunit, Option.bind_some]
      rw [utf16Char_of_lt (by omega)]
      rfl
  · next hlow =>
      rw [List.singleton_append]
      have hnot : ¬ (c.toNat < 32 ∨ c = '\\') := by
        rintro (h | h)
        · exact hlow h
        · exact hback h
      conv_lhs => unfold readUnits
      split
      · next heq => exact absurd (List.cons.inj heq).1 hquote
      · next heq => exact absurd (List.cons.inj heq).1 hback
      · next heq => exact absurd (List.cons.inj heq).1 hback
      · next heq =>
          cases heq
          exact if_neg hnot
      · next heq => cases heq

theorem readUnits_quoted (chars rest : List Char) :
    readUnits (chars.flatMap escapeChar ++ '"' :: rest) = some (utf16 chars, rest) := by
  induction chars with
  | nil => rfl
  | cons c chars ih =>
      rw [List.flatMap_cons, List.append_assoc, readUnits_escapeChar, ih]
      rfl

/-- A printed string is read back. -/
theorem readString_quote (s : String) (rest : List Char) :
    ∃ body, (quote s).toList ++ rest = '"' :: body ∧ readString body = some (s, rest) := by
  refine ⟨s.toList.flatMap escapeChar ++ '"' :: rest, ?_, ?_⟩
  · rw [toList_quote]
    simp
  · unfold readString
    rw [readUnits_quoted, Option.map_some, charsOf_utf16, String.ofList_toList]

/-- The text behind a number does not go on with it. -/
def EndsNumber (rest : List Char) : Prop :=
  ∀ c, rest.head? = some c → c.isDigit = false ∧ c ≠ '.' ∧ c ≠ 'e' ∧ c ≠ 'E'

variable {rest : List Char}

theorem readDigits_append
    {digits : List Char}
    (hdigits : digits.all Char.isDigit = true)
    (hne : digits ≠ [])
    (hrest : EndsNumber rest) :
    readDigits (digits ++ rest) = some (digits, rest) := by
  rw [List.all_eq_true] at hdigits
  have hstop : rest.takeWhile Char.isDigit = [] ∧ rest.dropWhile Char.isDigit = rest := by
    cases rest with
    | nil => exact ⟨rfl, rfl⟩
    | cons c rest =>
        have hc : ¬ c.isDigit = true := by simp [(hrest c rfl).1]
        exact ⟨List.takeWhile_cons_of_neg hc, List.dropWhile_cons_of_neg hc⟩
  unfold readDigits
  rw [List.takeWhile_append_of_pos hdigits, hstop.1, List.append_nil]
  dsimp only
  rw [if_neg hne, List.dropWhile_append_of_pos hdigits, hstop.2]

theorem readFraction_end (hrest : EndsNumber rest) :
    readFraction rest = some ([], rest) := by
  unfold readFraction
  split
  · exact absurd rfl (hrest '.' rfl).2.1
  · rfl

theorem readExponent_end (hrest : EndsNumber rest) :
    readExponent rest = some ([], rest) := by
  unfold readExponent
  split
  · next letter sign more =>
      have hletter := (hrest letter rfl).2.2
      rw [if_neg (not_or.mpr hletter)]
  · rfl

theorem readWhole_toString (n : Nat) {rest : List Char} (hrest : EndsNumber rest) :
    readWhole ((toString n).toList ++ rest) = some ((toString n).toList, rest) := by
  by_cases hzero : n = 0
  · subst hzero
    rfl
  · have hhead := Text.head?_toString_ne_zero hzero
    have hdigits := readDigits_append (Text.all_isDigit_toString n) (Text.toString_ne_nil n) hrest
    cases hchars : (toString n).toList with
    | nil => exact absurd hchars (Text.toString_ne_nil n)
    | cons c more =>
        rw [hchars] at hhead hdigits
        rw [List.cons_append] at hdigits ⊢
        unfold readWhole
        split
        · next heq =>
            cases heq
            exact absurd rfl hhead
        · exact hdigits

theorem readNumber_whole
    {chars sign digits : List Char}
    (hrest : EndsNumber rest)
    (hsign : readSign chars = (sign, digits ++ rest))
    (hwhole : readWhole (digits ++ rest) = some (digits, rest)) :
    readNumber chars = some (sign ++ digits, rest) := by
  unfold readNumber
  simp only [hsign, hwhole, Option.bind_eq_bind, Option.bind_some, readFraction_end hrest,
    readExponent_end hrest, List.append_nil]

/-- A whole number in decimal is read as its literal. -/
theorem readNumber_ofInt (n : Int) {rest : List Char} (hrest : EndsNumber rest) :
    readNumber ((Text.ofInt n).toList ++ rest) = some ((Text.ofInt n).toList, rest) := by
  cases n with
  | ofNat n =>
      have hsign : readSign ((toString n).toList ++ rest) = ([], (toString n).toList ++ rest) := by
        cases hchars : (toString n).toList with
        | nil => exact absurd hchars (Text.toString_ne_nil n)
        | cons c more =>
            have hdigit : c.isDigit = true :=
              Text.isDigit_of_mem_toString (n := n) (by rw [hchars]; exact List.mem_cons_self)
            rw [List.cons_append]
            unfold readSign
            split
            · next heq =>
                cases heq
                cases hdigit
            · rfl
      exact readNumber_whole hrest hsign (readWhole_toString n hrest)
  | negSucc n =>
      have hchars : (Text.ofInt (.negSucc n)).toList = '-' :: (toString (n + 1)).toList := by
        rw [Text.ofInt, String.toList_append, String.toList_ofList, List.singleton_append]
      have hsign : readSign ('-' :: (toString (n + 1)).toList ++ rest) =
          (['-'], (toString (n + 1)).toList ++ rest) := rfl
      rw [hchars]
      exact readNumber_whole hrest hsign (readWhole_toString (n + 1) hrest)

theorem skipSpaces_cons {c : Char} (rest : List Char) (h : isJsonSpace c = false) :
    skipSpaces (c :: rest) = c :: rest :=
  List.dropWhile_cons_of_neg (by simp [h])

theorem readValue_quote (fuel : Nat) (s : String) (rest : List Char) :
    readValue (fuel + 1) ((quote s).toList ++ rest) = some (str s, rest) := by
  obtain ⟨body, hquoted, hread⟩ := readString_quote s rest
  rw [hquoted, readValue, skipSpaces_cons body rfl]
  change (readString body).map _ = _
  rw [hread]
  rfl

/-- A number begins with a digit or with its sign. -/
theorem readValue_number
    (fuel : Nat) {c : Char} (chars : List Char)
    (h : c.isDigit = true ∨ c = '-') :
    readValue (fuel + 1) (c :: chars) =
      (readNumber (c :: chars)).map fun read => (num (String.ofList read.1), read.2) := by
  have hother (d : Char) (hdigit : d.isDigit = false) (hd : d ≠ '-') : c ≠ d := by
    rintro rfl
    rcases h with h | h
    · rw [h] at hdigit
      cases hdigit
    · exact hd h
  have hspace : isJsonSpace c = false := by
    simp [isJsonSpace, hother]
  rw [readValue, skipSpaces_cons chars hspace]
  split
  · next heq => exact absurd (List.cons.inj heq).1 (hother _ rfl (by decide))
  · next heq => exact absurd (List.cons.inj heq).1 (hother _ rfl (by decide))
  · next heq => exact absurd (List.cons.inj heq).1 (hother _ rfl (by decide))
  · unfold readScalar
    split
    · next heq => exact absurd (List.cons.inj heq).1 (hother _ rfl (by decide))
    · next heq => exact absurd (List.cons.inj heq).1 (hother _ rfl (by decide))
    · next heq => exact absurd (List.cons.inj heq).1 (hother _ rfl (by decide))
    · rfl

theorem head_ofInt (n : Int) :
    ∃ c chars, (Text.ofInt n).toList = c :: chars ∧ (c.isDigit = true ∨ c = '-') := by
  cases n with
  | ofNat n =>
      cases hchars : (toString n).toList with
      | nil => exact absurd hchars (Text.toString_ne_nil n)
      | cons c chars =>
          have hmem : c ∈ (toString n).toList := by
            rw [hchars]
            exact List.mem_cons_self
          exact ⟨c, chars, hchars, Or.inl (Text.isDigit_of_mem_toString hmem)⟩
  | negSucc n =>
      refine ⟨'-', (toString (n + 1)).toList, ?_, Or.inr rfl⟩
      rw [Text.ofInt, String.toList_append, String.toList_ofList, List.singleton_append]

theorem readValue_ofInt (fuel : Nat) (n : Int) {rest : List Char} (hrest : EndsNumber rest) :
    readValue (fuel + 1) ((Text.ofInt n).toList ++ rest) = some (num (Text.ofInt n), rest) := by
  obtain ⟨c, chars, hchars, hfirst⟩ := head_ofInt n
  have hnumber := readNumber_ofInt n hrest
  have hvalue := readValue_number fuel (chars ++ rest) hfirst
  rw [hchars] at hnumber ⊢
  rw [List.cons_append] at hnumber ⊢
  rw [hvalue, hnumber, Option.map_some, ← hchars, String.ofList_toList]

/-- A member and the comma behind it. -/
theorem readMembers_comma
    {fuel : Nat} (name : String) {text rest : List Char} {value : Json}
    (hvalue : readValue fuel text = some (value, ',' :: rest)) :
    readMembers (fuel + 1) ((quote name).toList ++ ':' :: text) =
      (readMembers fuel rest).map fun read => ((name, value) :: read.1, read.2) := by
  obtain ⟨body, hquoted, hread⟩ := readString_quote name (':' :: text)
  have hbehind : skipSpaces (',' :: rest) = ',' :: rest := skipSpaces_cons rest rfl
  have hcolon : skipSpaces (':' :: text) = ':' :: text := skipSpaces_cons text rfl
  rw [hquoted, readMembers, skipSpaces_cons body rfl]
  simp only [hread, hcolon, hvalue, hbehind]

/-- The last member and the closing brace. -/
theorem readMembers_brace
    {fuel : Nat} (name : String) {text rest : List Char} {value : Json}
    (hvalue : readValue fuel text = some (value, '}' :: rest)) :
    readMembers (fuel + 1) ((quote name).toList ++ ':' :: text) = some ([(name, value)], rest) := by
  obtain ⟨body, hquoted, hread⟩ := readString_quote name (':' :: text)
  have hbehind : skipSpaces ('\x7d' :: rest) = '\x7d' :: rest := skipSpaces_cons rest rfl
  have hcolon : skipSpaces (':' :: text) = ':' :: text := skipSpaces_cons text rfl
  rw [hquoted, readMembers, skipSpaces_cons body rfl]
  simp only [hread, hcolon, hvalue, hbehind]

/-- An object whose members are read up to the end of the text. -/
theorem parse_object
    {text : List Char}
    (hquote : text.head? = some '"')
    (hmembers : readMembers (2 * (text.length + 1)) text = some (members, [])) :
    parse ('{' :: text) = some (obj (entriesOf members)) := by
  have hskip : skipSpaces text = text := by
    cases text with
    | nil => cases hquote
    | cons c rest =>
        cases hquote
        exact skipSpaces_cons rest rfl
  have hvalue :
      readValue (2 * (text.length + 1) + 1) ('{' :: text) =
        some (obj (entriesOf members), []) := by
    rw [readValue, skipSpaces_cons text rfl]
    simp only [hskip]
    split
    · cases hquote
    · rw [hmembers]
      rfl
  unfold parse
  rw [List.length_cons, hvalue]
  rfl

end Json
end Lib
end NestBase
