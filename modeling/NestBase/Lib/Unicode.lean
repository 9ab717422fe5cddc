import Mathlib.Tactic

/-!
# UTF-16 strings and UTF-8 bytes

A script string is a list of 16-bit code units; surrogates need not be
paired.  A text without unpaired surrogates is the UTF-16 form of a list of
characters (`utf16`).  Writing such a string as UTF-8 and reading the bytes
back is the identity (`stringOfUtf8_utf8OfString`).  Both directions are total
as in the runtime: an unpaired surrogate is written as U+FFFD, and on reading
each maximal invalid piece becomes one U+FFFD.
-/

namespace NestBase
namespace Lib

/-- A string as its UTF-16 code units. -/
abbrev JsString := List UInt16

abbrev Bytes := List UInt8

namespace Unicode

def replacement : Char := Char.ofNat 0xFFFD

/-! ## UTF-16 -/

def utf16Char (c : Char) : JsString :=
  if c.toNat < 0x10000 then [UInt16.ofNat c.toNat]
  else
    [UInt16.ofNat (0xD800 + (c.toNat - 0x10000) / 0x400),
      UInt16.ofNat (0xDC00 + (c.toNat - 0x10000) % 0x400)]

/-- The UTF-16 form of a text. -/
def utf16 (chars : List Char) : JsString :=
  chars.flatMap utf16Char

def isHighSurrogate (u : UInt16) : Bool :=
  decide (0xD800 ≤ u.toNat ∧ u.toNat < 0xDC00)

def isLowSurrogate (u : UInt16) : Bool :=
  decide (0xDC00 ≤ u.toNat ∧ u.toNat < 0xE000)

/-- The characters of a string; an unpaired surrogate reads as U+FFFD. -/
def charsOf : JsString → List Char
  | [] => []
  | [u] =>
      if isHighSurrogate u || isLowSurrogate u then [replacement] else [Char.ofNat u.toNat]
  | u :: v :: rest =>
      if isHighSurrogate u then
        if isLowSurrogate v then
          Char.ofNat (0x10000 + (u.toNat - 0xD800) * 0x400 + (v.toNat - 0xDC00)) ::
            charsOf rest
        else replacement :: charsOf (v :: rest)
      else if isLowSurrogate u then replacement :: charsOf (v :: rest)
      else Char.ofNat u.toNat :: charsOf (v :: rest)

/-- A character is no surrogate and at most U+10FFFF. -/
theorem toNat_char_range (c : Char) :
    c.toNat < 0xD800 ∨ (0xE000 ≤ c.toNat ∧ c.toNat < 0x110000) := by
  rcases c.valid with h | ⟨hlow, hhigh⟩
  · exact Or.inl h
  · refine Or.inr ⟨?_, hhigh⟩
    change 0xDFFF < c.toNat at hlow
    omega

theorem charsOf_single_cons
    {u : UInt16}
    (hhigh : isHighSurrogate u = false)
    (hlow : isLowSurrogate u = false)
    (rest : JsString) :
    charsOf (u :: rest) = Char.ofNat u.toNat :: charsOf rest := by
  cases rest with
  | nil => simp [charsOf, hhigh, hlow]
  | cons v rest => simp [charsOf, hhigh, hlow]

theorem charsOf_pair_cons
    {u v : UInt16}
    (hhigh : isHighSurrogate u = true)
    (hlow : isLowSurrogate v = true)
    (rest : JsString) :
    charsOf (u :: v :: rest) =
      Char.ofNat (0x10000 + (u.toNat - 0xD800) * 0x400 + (v.toNat - 0xDC00)) ::
        charsOf rest := by
  simp [charsOf, hhigh, hlow]

theorem toNat_uint16_ofNat {n : Nat} (h : n < 0x10000) : (UInt16.ofNat n).toNat = n := by
  rw [UInt16.toNat_ofNat']
  omega

theorem charsOf_utf16Char_append (c : Char) (rest : JsString) :
    charsOf (utf16Char c ++ rest) = c :: charsOf rest := by
  have hrange := toNat_char_range c
  unfold utf16Char
  split
  · next hsmall =>
    have hunit := toNat_uint16_ofNat hsmall
    have hhigh : isHighSurrogate (UInt16.ofNat c.toNat) = false := by
      simp only [isHighSurrogate, hunit, decide_eq_false_iff_not]
      omega
    have hlow : isLowSurrogate (UInt16.ofNat c.toNat) = false := by
      simp only [isLowSurrogate, hunit, decide_eq_false_iff_not]
      omega
    rw [List.singleton_append, charsOf_single_cons hhigh hlow, hunit, Char.ofNat_toNat]
  · next hlarge =>
    -- A supplementary character: both surrogates are in their ranges.
    have hu : (UInt16.ofNat (0xD800 + (c.toNat - 0x10000) / 0x400)).toNat =
        0xD800 + (c.toNat - 0x10000) / 0x400 := toNat_uint16_ofNat (by omega)
    have hv : (UInt16.ofNat (0xDC00 + (c.toNat - 0x10000) % 0x400)).toNat =
        0xDC00 + (c.toNat - 0x10000) % 0x400 := toNat_uint16_ofNat (by omega)
    have hhigh :
        isHighSurrogate (UInt16.ofNat (0xD800 + (c.toNat - 0x10000) / 0x400)) = true := by
      simp only [isHighSurrogate, hu, decide_eq_true_eq]
      omega
    have hlow :
        isLowSurrogate (UInt16.ofNat (0xDC00 + (c.toNat - 0x10000) % 0x400)) = true := by
      simp only [isLowSurrogate, hv, decide_eq_true_eq]
      omega
    have hvalue :
        0x10000 + (0xD800 + (c.toNat - 0x10000) / 0x400 - 0xD800) * 0x400 +
          (0xDC00 + (c.toNat - 0x10000) % 0x400 - 0xDC00) = c.toNat := by
      omega
    rw [List.cons_append, List.singleton_append, charsOf_pair_cons hhigh hlow, hu, hv, hvalue,
      Char.ofNat_toNat]

/-- A text is recovered from its UTF-16 form. -/
theorem charsOf_utf16 (chars : List Char) : charsOf (utf16 chars) = chars := by
  induction chars with
  | nil => rfl
  | cons c chars ih =>
      rw [utf16, List.flatMap_cons, charsOf_utf16Char_append]
      exact congrArg (c :: ·) ih

/-! ## UTF-8 -/

def utf8 (chars : List Char) : Bytes :=
  chars.flatMap String.utf8EncodeChar

/-- First byte `lead` takes `second` as its continuation. -/
def continues (lead second : Nat) : Bool :=
  decide (0x80 ≤ second ∧ second ≤ 0xBF) &&
    (decide (lead ≠ 0xE0) || decide (0xA0 ≤ second)) &&
    (decide (lead ≠ 0xED) || decide (second ≤ 0x9F)) &&
    (decide (lead ≠ 0xF0) || decide (0x90 ≤ second)) &&
    (decide (lead ≠ 0xF4) || decide (second ≤ 0x8F))

/-- Length of the piece one U+FFFD stands for, where no character can be read. -/
def invalidLength : Bytes → Nat
  | lead :: second :: third :: _ =>
      if 0xE0 ≤ lead.toNat ∧ lead.toNat ≤ 0xF4 ∧ continues lead.toNat second.toNat then
        if 0xF0 ≤ lead.toNat ∧ 0x80 ≤ third.toNat ∧ third.toNat ≤ 0xBF then 3 else 2
      else 1
  | [lead, second] =>
      if 0xE0 ≤ lead.toNat ∧ lead.toNat ≤ 0xF4 ∧ continues lead.toNat second.toNat then 2
      else 1
  | _ => 1

/-- The first `fuel` characters, or replacements, of a byte sequence. -/
def decodeUtf8 : Nat → Bytes → List Char
  | 0, _ => []
  | _ + 1, [] => []
  | fuel + 1, byte :: rest =>
      match (byte :: rest).toByteArray.utf8DecodeChar? 0 with
      | some c => c :: decodeUtf8 fuel ((byte :: rest).drop c.utf8Size)
      | none => replacement :: decodeUtf8 fuel ((byte :: rest).drop (invalidLength (byte :: rest)))

/-- `Buffer.toString("utf8")`; every character takes at least one byte. -/
def charsOfUtf8 (bytes : Bytes) : List Char :=
  decodeUtf8 bytes.length bytes

theorem decodeUtf8_utf8EncodeChar_append (fuel : Nat) (c : Char) (rest : Bytes) :
    decodeUtf8 (fuel + 1) (String.utf8EncodeChar c ++ rest) = c :: decodeUtf8 fuel rest := by
  have hlength := String.length_utf8EncodeChar c
  have hpos := Char.utf8Size_pos c
  have hdecode :
      (String.utf8EncodeChar c ++ rest).toByteArray.utf8DecodeChar? 0 = some c := by
    rw [List.toByteArray_append]
    exact ByteArray.utf8DecodeChar?_utf8EncodeChar_append
  have hdrop : (String.utf8EncodeChar c ++ rest).drop c.utf8Size = rest := by
    rw [← hlength, List.drop_left]
  cases hbytes : String.utf8EncodeChar c ++ rest with
  | nil =>
      have hzero : (String.utf8EncodeChar c ++ rest).length = 0 := by rw [hbytes]; rfl
      rw [List.length_append, hlength] at hzero
      omega
  | cons byte tail =>
      rw [hbytes] at hdecode hdrop
      simp only [decodeUtf8, hdecode, hdrop]

theorem decodeUtf8_utf8 (chars : List Char) {fuel : Nat} (hfuel : chars.length ≤ fuel) :
    decodeUtf8 fuel (utf8 chars) = chars := by
  induction chars generalizing fuel with
  | nil =>
      cases fuel with
      | zero => rfl
      | succ fuel => rfl
  | cons c chars ih =>
      cases fuel with
      | zero => simp at hfuel
      | succ fuel =>
          rw [utf8, List.flatMap_cons, decodeUtf8_utf8EncodeChar_append]
          have hrest : decodeUtf8 fuel (utf8 chars) = chars := ih (by simpa using hfuel)
          exact congrArg (c :: ·) hrest

theorem length_le_length_utf8 (chars : List Char) : chars.length ≤ (utf8 chars).length := by
  induction chars with
  | nil => simp
  | cons c chars ih =>
      have hpos := Char.utf8Size_pos c
      have hlength := String.length_utf8EncodeChar c
      simp only [utf8, List.flatMap_cons, List.length_append, List.length_cons] at ih ⊢
      omega

@[simp] theorem charsOfUtf8_utf8 (chars : List Char) : charsOfUtf8 (utf8 chars) = chars := by
  unfold charsOfUtf8
  exact decodeUtf8_utf8 chars (length_le_length_utf8 chars)

theorem utf8_injective : Function.Injective utf8 :=
  Function.LeftInverse.injective charsOfUtf8_utf8

theorem eq_of_utf8_eq {a b : String} (h : utf8 a.toList = utf8 b.toList) : a = b :=
  String.toList_inj.mp (utf8_injective h)

/-! ## Strings as UTF-8 -/

/-- The bytes a string is written as. -/
def utf8OfString (s : JsString) : Bytes :=
  utf8 (charsOf s)

/-- The string a byte sequence is read as. -/
def stringOfUtf8 (bytes : Bytes) : JsString :=
  utf16 (charsOfUtf8 bytes)

/-- The string of a text without unpaired surrogates. -/
def ofText (text : String) : JsString :=
  utf16 text.toList

/-- Every text survives the way through UTF-8. -/
theorem stringOfUtf8_utf8OfString (text : String) :
    stringOfUtf8 (utf8OfString (ofText text)) = ofText text := by
  unfold stringOfUtf8 utf8OfString ofText
  rw [charsOf_utf16, charsOfUtf8_utf8]

/-! ## The order of strings -/

/-- The code units of a text, which strings are compared by. -/
def codeUnits (text : String) : List Nat :=
  (ofText text).map UInt16.toNat

theorem codeUnits_injective {text text' : String} (h : codeUnits text = codeUnits text') :
    text = text' := by
  have hinjective : Function.Injective UInt16.toNat := fun _ _ => UInt16.toNat_inj.mp
  have hunits : utf16 text.toList = utf16 text'.toList := hinjective.list_map h
  have hchars := congrArg charsOf hunits
  rw [charsOf_utf16, charsOf_utf16] at hchars
  exact String.toList_inj.mp hchars

/-- `texts.sort()` -/
def sortTexts (texts : List String) : List String :=
  texts.mergeSort fun a b => decide (codeUnits a ≤ codeUnits b)

theorem sortTexts_perm (texts : List String) : (sortTexts texts).Perm texts :=
  List.mergeSort_perm texts _

theorem pairwise_sortTexts (texts : List String) :
    (sortTexts texts).Pairwise fun a b => codeUnits a ≤ codeUnits b := by
  have hsorted :
      (sortTexts texts).Pairwise fun a b => decide (codeUnits a ≤ codeUnits b) = true := by
    refine List.pairwise_mergeSort ?_ ?_ texts
    · intro a b c hab hbc
      exact decide_eq_true ((of_decide_eq_true hab).trans (of_decide_eq_true hbc))
    · intro a b
      rw [Bool.or_eq_true, decide_eq_true_eq, decide_eq_true_eq]
      exact le_total _ _
  exact hsorted.imp of_decide_eq_true

/-- Sorting forgets the order it is given. -/
theorem sortTexts_eq_of_perm {texts texts' : List String} (h : texts.Perm texts') :
    sortTexts texts = sortTexts texts' := by
  refine ((sortTexts_perm texts).trans (h.trans (sortTexts_perm texts').symm)).eq_of_pairwise ?_
    (pairwise_sortTexts texts) (pairwise_sortTexts texts')
  intro a b _ _ hab hba
  exact codeUnits_injective (le_antisymm hab hba)

/-- Different texts are sorted strictly. -/
theorem pairwise_lt_sortTexts {texts : List String} (h : texts.Nodup) :
    (sortTexts texts).Pairwise fun a b => codeUnits a < codeUnits b := by
  have hboth := (pairwise_sortTexts texts).and ((sortTexts_perm texts).nodup_iff.mpr h)
  exact hboth.imp fun ⟨hle, hne⟩ => lt_of_le_of_ne hle fun heq => hne (codeUnits_injective heq)

end Unicode

end Lib
end NestBase
