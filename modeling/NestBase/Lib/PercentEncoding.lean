import NestBase.Lib.Unicode

/-!
# Percent encoding

`encodeURIComponent` of a text: its UTF-8 bytes, each written as the ASCII
character it stands for when that is a letter, a digit or one of
`- _ . ! ~ * ' ( )`, and as `%XX` otherwise.  Different texts have different
encodings, and no encoding holds a character outside those and `%`.
-/

namespace NestBase
namespace Lib
namespace PercentEncoding

open Unicode

/-- The characters that stand for themselves. -/
def unescaped (n : Nat) : Bool :=
  (48 ≤ n && n ≤ 57) || (65 ≤ n && n ≤ 90) || (97 ≤ n && n ≤ 122) ||
    ("-_.!~*'()".toList.map Char.toNat).contains n

def upperHexDigit (n : Nat) : Char :=
  "0123456789ABCDEF".toList.getD n '0'

def upperHexValue (c : Char) : Nat :=
  "0123456789ABCDEF".toList.idxOf c

def encodeByte (b : UInt8) : List Char :=
  if unescaped b.toNat then [Char.ofNat b.toNat]
  else ['%', upperHexDigit (b.toNat / 16), upperHexDigit (b.toNat % 16)]

def encodeURIComponent (s : String) : String :=
  String.ofList ((utf8 s.toList).flatMap encodeByte)

/-- The bytes of an encoding. -/
def decodeBytes : List Char → Bytes
  | [] => []
  | [c] => [UInt8.ofNat c.toNat]
  | [c, d] => [UInt8.ofNat c.toNat, UInt8.ofNat d.toNat]
  | c :: high :: low :: rest =>
      if c = '%' then
        UInt8.ofNat (upperHexValue high * 16 + upperHexValue low) :: decodeBytes rest
      else UInt8.ofNat c.toNat :: decodeBytes (high :: low :: rest)

theorem upperHexValue_upperHexDigit :
    ∀ n : Fin 16, upperHexValue (upperHexDigit n.val) = n.val := by
  decide

theorem ascii_of_unescaped {n : Nat} (h : unescaped n = true) : n < 128 ∧ n ≠ 37 := by
  have hmarks : ∀ m ∈ "-_.!~*'()".toList.map Char.toNat, m < 128 ∧ m ≠ 37 := by decide
  simp only [unescaped, Bool.or_eq_true, Bool.and_eq_true, decide_eq_true_eq,
    List.contains_iff_mem] at h
  rcases h with ((h | h) | h) | h
  · omega
  · omega
  · omega
  · exact hmarks n h

theorem ne_percent_of_unescaped {n : Nat} (h : unescaped n = true) :
    Char.ofNat n ≠ '%' ∧ (Char.ofNat n).toNat = n := by
  obtain ⟨hascii, hne⟩ := ascii_of_unescaped h
  have hvalue : (Char.ofNat n).toNat = n := by
    have hvalid : n.isValidChar := Or.inl (by omega)
    rw [Char.ofNat, dif_pos hvalid]
    rfl
  refine ⟨?_, hvalue⟩
  intro hpercent
  rw [hpercent] at hvalue
  exact hne hvalue.symm

theorem decodeBytes_cons_of_ne {c : Char} (hne : c ≠ '%') (rest : List Char) :
    decodeBytes (c :: rest) = UInt8.ofNat c.toNat :: decodeBytes rest := by
  cases rest with
  | nil => rfl
  | cons high rest =>
      cases rest with
      | nil => rfl
      | cons low rest => rw [decodeBytes, if_neg hne]

theorem decodeBytes_encodeByte_append (b : UInt8) (rest : List Char) :
    decodeBytes (encodeByte b ++ rest) = b :: decodeBytes rest := by
  have hbyte : b.toNat < 256 := b.toNat_lt
  unfold encodeByte
  split
  · next hunescaped =>
      obtain ⟨hne, hvalue⟩ := ne_percent_of_unescaped hunescaped
      rw [List.singleton_append, decodeBytes_cons_of_ne hne, hvalue, UInt8.ofNat_toNat]
  · have hhigh := upperHexValue_upperHexDigit ⟨b.toNat / 16, by omega⟩
    have hlow := upperHexValue_upperHexDigit ⟨b.toNat % 16, by omega⟩
    have hsum : b.toNat / 16 * 16 + b.toNat % 16 = b.toNat := by omega
    rw [List.cons_append, List.cons_append, List.cons_append, List.nil_append, decodeBytes,
      if_pos rfl, hhigh, hlow, hsum, UInt8.ofNat_toNat]

theorem decodeBytes_flatMap_encodeByte (bytes : Bytes) :
    decodeBytes (bytes.flatMap encodeByte) = bytes := by
  induction bytes with
  | nil => rfl
  | cons b rest ih => rw [List.flatMap_cons, decodeBytes_encodeByte_append, ih]

theorem encodeURIComponent_injective : Function.Injective encodeURIComponent := by
  intro s t h
  have hchars : (utf8 s.toList).flatMap encodeByte = (utf8 t.toList).flatMap encodeByte :=
    String.ofList_inj.mp h
  have hbytes : utf8 s.toList = utf8 t.toList := by
    rw [← decodeBytes_flatMap_encodeByte (utf8 s.toList), hchars, decodeBytes_flatMap_encodeByte]
  exact eq_of_utf8_eq hbytes

theorem unescaped_or_percent_of_mem_encodeByte {b : UInt8} {c : Char} (h : c ∈ encodeByte b) :
    c = '%' ∨ unescaped c.toNat = true := by
  have hdigit : ∀ n : Fin 16, unescaped (upperHexDigit n.val).toNat = true := by decide
  have hbyte : b.toNat < 256 := b.toNat_lt
  unfold encodeByte at h
  split at h
  · next hunescaped =>
      rw [List.mem_singleton.mp h]
      obtain ⟨-, hvalue⟩ := ne_percent_of_unescaped hunescaped
      rw [hvalue]
      exact Or.inr hunescaped
  · simp only [List.mem_cons, List.not_mem_nil, or_false] at h
    rcases h with rfl | rfl | rfl
    · exact Or.inl rfl
    · exact Or.inr (hdigit ⟨b.toNat / 16, by omega⟩)
    · exact Or.inr (hdigit ⟨b.toNat % 16, by omega⟩)

/-- A character that is escaped does not occur in an encoding. -/
theorem not_mem_encodeURIComponent
    {c : Char}
    (hpercent : c ≠ '%')
    (hescaped : unescaped c.toNat = false)
    (s : String) :
    c ∉ (encodeURIComponent s).toList := by
  intro h
  rw [encodeURIComponent, String.toList_ofList] at h
  obtain ⟨b, -, hmem⟩ := List.mem_flatMap.mp h
  rcases unescaped_or_percent_of_mem_encodeByte hmem with rfl | hunescaped
  · exact hpercent rfl
  · rw [hescaped] at hunescaped
    cases hunescaped

/-! ## Decoding -/

/-- Value of a hexadecimal digit, in either case. -/
def hexValue? (c : Char) : Option Nat :=
  let n := c.toNat
  if 48 ≤ n ∧ n ≤ 57 then some (n - 48)
  else if 65 ≤ n ∧ n ≤ 70 then some (n - 55)
  else if 97 ≤ n ∧ n ≤ 102 then some (n - 87)
  else none

/-- The bytes of a text whose escapes are complete. -/
def percentDecode : List Char → Option Bytes
  | [] => some []
  | '%' :: high :: low :: rest => do
      let high ← hexValue? high
      let low ← hexValue? low
      let bytes ← percentDecode rest
      pure (UInt8.ofNat (high * 16 + low) :: bytes)
  | c :: rest =>
      if c = '%' then none else (percentDecode rest).map (String.utf8EncodeChar c ++ ·)

/-- `decodeURIComponent`; `none` where it throws. -/
def decodeURIComponent (s : String) : Option String := do
  let bytes ← percentDecode s.toList
  let chars := charsOfUtf8 bytes
  if utf8 chars = bytes then some (String.ofList chars) else none

theorem hexValue?_upperHexDigit :
    ∀ n : Fin 16, hexValue? (upperHexDigit n.val) = some n.val := by
  decide

theorem percentDecode_cons_of_ne {c : Char} (hne : c ≠ '%') (rest : List Char) :
    percentDecode (c :: rest) = (percentDecode rest).map (String.utf8EncodeChar c ++ ·) := by
  rw [percentDecode]
  · rw [if_neg hne]
  · exact fun high low rest' hc => absurd hc hne

theorem percentDecode_encodeByte_append (b : UInt8) (rest : List Char) :
    percentDecode (encodeByte b ++ rest) = (percentDecode rest).map (b :: ·) := by
  have hbyte : b.toNat < 256 := b.toNat_lt
  unfold encodeByte
  split
  · next hunescaped =>
      obtain ⟨hne, hvalue⟩ := ne_percent_of_unescaped hunescaped
      have hsize : (Char.ofNat b.toNat).utf8Size = 1 := by
        refine Char.utf8Size_eq_one_iff.mpr (UInt32.le_iff_toNat_le.mpr ?_)
        change (Char.ofNat b.toNat).toNat ≤ 127
        have hascii := (ascii_of_unescaped hunescaped).1
        omega
      have hencode : String.utf8EncodeChar (Char.ofNat b.toNat) = [b] := by
        rw [String.utf8EncodeChar_eq_singleton hsize]
        change [UInt8.ofNat (Char.ofNat b.toNat).toNat] = [b]
        rw [hvalue, UInt8.ofNat_toNat]
      rw [List.singleton_append, percentDecode_cons_of_ne hne, hencode]
      rfl
  · have hhigh := hexValue?_upperHexDigit ⟨b.toNat / 16, by omega⟩
    have hlow := hexValue?_upperHexDigit ⟨b.toNat % 16, by omega⟩
    have hsum : b.toNat / 16 * 16 + b.toNat % 16 = b.toNat := by omega
    rw [List.cons_append, List.cons_append, List.cons_append, List.nil_append, percentDecode,
      hhigh, hlow]
    simp only [Option.bind_eq_bind, Option.bind_some, hsum, UInt8.ofNat_toNat]
    cases percentDecode rest <;> rfl

theorem percentDecode_flatMap_encodeByte (bytes : Bytes) :
    percentDecode (bytes.flatMap encodeByte) = some bytes := by
  induction bytes with
  | nil => rfl
  | cons b rest ih =>
      rw [List.flatMap_cons, percentDecode_encodeByte_append, ih]
      rfl

theorem percentDecode_of_not_mem {chars : List Char} (h : '%' ∉ chars) :
    percentDecode chars = some (utf8 chars) := by
  induction chars with
  | nil => rfl
  | cons c rest ih =>
      obtain ⟨hne, hrest⟩ := not_or.mp (List.mem_cons.not.mp h)
      rw [percentDecode_cons_of_ne (Ne.symm hne), ih hrest]
      rfl

theorem decodeURIComponent_of_percentDecode
    {s t : String}
    (h : percentDecode s.toList = some (utf8 t.toList)) :
    decodeURIComponent s = some t := by
  unfold decodeURIComponent
  rw [h]
  simp only [Option.bind_eq_bind, Option.bind_some, charsOfUtf8_utf8, if_true, String.ofList_toList]

/-- Decoding undoes encoding. -/
theorem decodeURIComponent_encodeURIComponent (s : String) :
    decodeURIComponent (encodeURIComponent s) = some s := by
  refine decodeURIComponent_of_percentDecode ?_
  rw [encodeURIComponent, String.toList_ofList]
  exact percentDecode_flatMap_encodeByte _

/-- A text without escapes decodes to itself. -/
theorem decodeURIComponent_of_not_mem {s : String} (h : '%' ∉ s.toList) :
    decodeURIComponent s = some s :=
  decodeURIComponent_of_percentDecode (percentDecode_of_not_mem h)

end PercentEncoding

end Lib
end NestBase
