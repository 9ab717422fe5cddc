import NestBase.Lib.Unicode

/-!
# Base64

Encoding packs three bytes into four 6-bit values; two or one bytes at the end
give three or two values and padding.  Decoding takes both the standard and
the URL-safe alphabet, reads up to the first padding character and skips every
other character outside the alphabet.  `decode_map_symbol_append` is the round
trip, whatever follows the values as long as it starts with padding or is
empty.
-/

namespace NestBase
namespace Lib
namespace Base64

/-! ## Alphabet -/

/-- Code unit of `=`. -/
def pad : UInt16 := 0x3D

/-- Symbol of a value in the standard alphabet, `+` for 62 and `/` for 63. -/
def symbol (v : Fin 64) : UInt16 :=
  if v.val < 26 then UInt16.ofNat (0x41 + v.val)
  else if v.val < 52 then UInt16.ofNat (0x61 + (v.val - 26))
  else if v.val < 62 then UInt16.ofNat (0x30 + (v.val - 52))
  else if v.val = 62 then 0x2B
  else 0x2F

/-- Value of a symbol; `-` and `_` count as `+` and `/`. -/
def value? (u : UInt16) : Option (Fin 64) :=
  let n := u.toNat
  if 0x41 ≤ n ∧ n ≤ 0x5A then some (Fin.ofNat 64 (n - 0x41))
  else if 0x61 ≤ n ∧ n ≤ 0x7A then some (Fin.ofNat 64 (n - 0x61 + 26))
  else if 0x30 ≤ n ∧ n ≤ 0x39 then some (Fin.ofNat 64 (n - 0x30 + 52))
  else if n = 0x2B ∨ n = 0x2D then some 62
  else if n = 0x2F ∨ n = 0x5F then some 63
  else none

theorem value?_symbol : ∀ v : Fin 64, value? (symbol v) = some v := by
  decide

theorem symbol_ne_pad : ∀ v : Fin 64, symbol v ≠ pad := by
  decide

/-! ## Bytes and 6-bit values -/

/-- The 6-bit values of a byte sequence. -/
def sextets : Bytes → List (Fin 64)
  | x :: y :: z :: rest =>
      Fin.ofNat 64 (x.toNat / 4) ::
        Fin.ofNat 64 (x.toNat % 4 * 16 + y.toNat / 16) ::
        Fin.ofNat 64 (y.toNat % 16 * 4 + z.toNat / 64) ::
        Fin.ofNat 64 (z.toNat % 64) :: sextets rest
  | [x, y] =>
      [Fin.ofNat 64 (x.toNat / 4), Fin.ofNat 64 (x.toNat % 4 * 16 + y.toNat / 16),
        Fin.ofNat 64 (y.toNat % 16 * 4)]
  | [x] => [Fin.ofNat 64 (x.toNat / 4), Fin.ofNat 64 (x.toNat % 4 * 16)]
  | [] => []

/-- The bytes of a sequence of 6-bit values; a single left-over value is dropped. -/
def octets : List (Fin 64) → Bytes
  | a :: b :: c :: d :: rest =>
      UInt8.ofNat (a.val * 4 + b.val / 16) ::
        UInt8.ofNat (b.val % 16 * 16 + c.val / 4) ::
        UInt8.ofNat (c.val % 4 * 64 + d.val) :: octets rest
  | [a, b, c] =>
      [UInt8.ofNat (a.val * 4 + b.val / 16), UInt8.ofNat (b.val % 16 * 16 + c.val / 4)]
  | [a, b] => [UInt8.ofNat (a.val * 4 + b.val / 16)]
  | _ => []

theorem uint8_ofNat_eq {n : Nat} {x : UInt8} (h : n = x.toNat) : UInt8.ofNat n = x := by
  rw [h]
  exact UInt8.ofNat_toNat

theorem octets_sextets (bytes : Bytes) : octets (sextets bytes) = bytes := by
  induction bytes using sextets.induct with
  | case1 x y z rest ih =>
      have hx := x.toNat_lt
      have hy := y.toNat_lt
      have hz := z.toNat_lt
      rw [sextets, octets, ih]
      refine congrArg₂ List.cons (uint8_ofNat_eq ?_)
        (congrArg₂ List.cons (uint8_ofNat_eq ?_) (congrArg₂ List.cons (uint8_ofNat_eq ?_) rfl))
      all_goals
        simp only [Fin.ofNat_eq_cast, Fin.val_natCast]
        omega
  | case2 x y =>
      have hx := x.toNat_lt
      have hy := y.toNat_lt
      rw [sextets, octets]
      refine congrArg₂ List.cons (uint8_ofNat_eq ?_)
        (congrArg₂ List.cons (uint8_ofNat_eq ?_) rfl)
      all_goals
        simp only [Fin.ofNat_eq_cast, Fin.val_natCast]
        omega
  | case3 x =>
      have hx := x.toNat_lt
      rw [sextets, octets]
      refine congrArg₂ List.cons (uint8_ofNat_eq ?_) rfl
      simp only [Fin.ofNat_eq_cast, Fin.val_natCast]
      omega
  | case4 => rfl

/-- Four values for three bytes, rounded up. -/
theorem length_sextets (bytes : Bytes) :
    (sextets bytes).length = (4 * bytes.length + 2) / 3 := by
  induction bytes using sextets.induct with
  | case1 x y z rest ih =>
      simp only [sextets, List.length_cons, ih]
      omega
  | case2 x y => simp [sextets]
  | case3 x => simp [sextets]
  | case4 => simp [sextets]

/-! ## Text -/

def encode (bytes : Bytes) : JsString :=
  (sextets bytes).map symbol ++ List.replicate ((3 - bytes.length % 3) % 3) pad

def decode (text : JsString) : Bytes :=
  octets ((text.takeWhile (· ≠ pad)).filterMap value?)

/-- Symbols are read back up to the first padding character. -/
theorem decode_map_symbol_append
    {symbolOf : Fin 64 → UInt16}
    (hvalue : ∀ v, value? (symbolOf v) = some v)
    (hpad : ∀ v, symbolOf v ≠ pad)
    (bytes : Bytes) (n : Nat) :
    decode ((sextets bytes).map symbolOf ++ List.replicate n pad) = bytes := by
  have htake :
      ((sextets bytes).map symbolOf ++ List.replicate n pad).takeWhile (· ≠ pad) =
        (sextets bytes).map symbolOf := by
    rw [List.takeWhile_append_of_pos]
    · cases n with
      | zero => simp
      | succ n => simp [List.replicate_succ]
    · intro u hu
      obtain ⟨v, -, rfl⟩ := List.mem_map.mp hu
      simpa using hpad v
  have hvalues : ((sextets bytes).map symbolOf).filterMap value? = sextets bytes := by
    rw [List.filterMap_map]
    have hcomp : (value? ∘ symbolOf) = some := by
      funext v
      exact hvalue v
    rw [hcomp]
    exact List.filterMap_some
  rw [decode, htake, hvalues, octets_sextets]

/-- Round trip of the standard form. -/
theorem decode_encode (bytes : Bytes) : decode (encode bytes) = bytes :=
  decode_map_symbol_append value?_symbol symbol_ne_pad bytes _

/-! ## Text for a URL -/

/-- Symbol of a value in the alphabet for URLs, `-` for 62 and `_` for 63. -/
def urlChar (v : Fin 64) : Char :=
  "ABCDEFGHIJKLMNOPQRSTUVWXYZabcdefghijklmnopqrstuvwxyz0123456789-_".toList.getD v.val 'A'

/-- `base64url`, without padding. -/
def encodeUrl (bytes : Bytes) : String :=
  String.ofList ((sextets bytes).map urlChar)

theorem toNat_urlChar_lt : ∀ v : Fin 64, (urlChar v).toNat < 0x10000 := by
  intro v
  unfold urlChar
  rw [String.toList_ofList]
  revert v
  decide

theorem value?_urlChar : ∀ v : Fin 64, value? (UInt16.ofNat (urlChar v).toNat) = some v := by
  intro v
  unfold urlChar
  rw [String.toList_ofList]
  revert v
  decide

theorem urlChar_ne_pad : ∀ v : Fin 64, UInt16.ofNat (urlChar v).toNat ≠ pad := by
  intro v
  unfold urlChar
  rw [String.toList_ofList]
  revert v
  decide

/-- Round trip of the form for a URL. -/
theorem decode_encodeUrl (bytes : Bytes) : decode (Unicode.ofText (encodeUrl bytes)) = bytes := by
  have hunits : Unicode.ofText (encodeUrl bytes) =
      (sextets bytes).map fun v => UInt16.ofNat (urlChar v).toNat := by
    unfold Unicode.ofText encodeUrl Unicode.utf16
    rw [String.toList_ofList, List.flatMap_map, List.map_eq_flatMap]
    congr 1
    funext v
    exact if_pos (toNat_urlChar_lt v)
  have hdecode := decode_map_symbol_append value?_urlChar urlChar_ne_pad bytes 0
  rw [List.replicate_zero, List.append_nil] at hdecode
  rw [hunits]
  exact hdecode

end Base64
end Lib
end NestBase
