import NestBase.Lib.Text
import Mathlib.Data.List.TakeWhile
import Mathlib.Tactic

/-!
# Numbers of the script runtime

A number is a double.  Its value is a rational, and `-0` counts as 0.  `round`
gives the double nearest to a fraction, ties to the even one; it keeps every
whole number below 2^53 (`round_nat`).  A sum is rounded likewise, and not below
a whole number (`le_plus`).

`ofText` is the number a text is converted to; the decimal form of a whole number
below 2^53 is converted to that number (`ofText_ofInt`).
-/

namespace NestBase
namespace Lib

inductive Number where
  | nan
  | infinity (negative : Bool)
  | finite (value : ℚ)
deriving DecidableEq

namespace Number

/-! ## Rounding -/

/-- The whole number nearest to a fraction, ties to the even one. -/
def roundHalfEven (num den : Nat) : Nat :=
  if 2 * (num % den) < den then num / den
  else if den < 2 * (num % den) then num / den + 1
  else num / den + num / den % 2

/-- The greatest power of two not above a positive fraction. -/
def topBit (num den : Nat) : Int :=
  let guess : Int := (num.log2 : Int) - den.log2
  if num * 2 ^ (-guess).toNat < den * 2 ^ guess.toNat then guess - 1 else guess

/-- The last bit of the double nearest to a fraction; its first one is 52 bits above. -/
def lastBit (num den : Nat) : Int :=
  max (topBit num den - 52) (-1074)

/-- The value of the double nearest to a fraction, were there no greatest double. -/
def nearest (num den : Nat) : ℚ :=
  let bit := lastBit num den
  mkRat (roundHalfEven (num * 2 ^ (-bit).toNat) (den * 2 ^ bit.toNat) * 2 ^ bit.toNat)
    (2 ^ (-bit).toNat)

/-- The first power of two that is no double. -/
def overflow : Nat := 2 ^ 1024

/-- The double nearest to a fraction of the sign. -/
def round (negative : Bool) (num den : Nat) : Number :=
  if (overflow : ℚ) ≤ nearest num den then infinity negative
  else finite (if negative then -nearest num den else nearest num den)

theorem roundHalfEven_one (n : Nat) : roundHalfEven n 1 = n := by
  unfold roundHalfEven
  rw [Nat.mod_one, Nat.div_one]
  rfl

theorem div_le_roundHalfEven (num den : Nat) : num / den ≤ roundHalfEven num den := by
  unfold roundHalfEven
  split
  · exact le_rfl
  · split <;> omega

theorem roundHalfEven_le (num den : Nat) : roundHalfEven num den ≤ num / den + 1 := by
  unfold roundHalfEven
  split
  · omega
  · split <;> omega

variable {num den n : Nat}

/-- Below a power of two the last bit of a double is 53 bits lower. -/
theorem lastBit_le {bits : Nat} (hbits : bits ≤ 53) (h : num < 2 ^ bits * den) :
    lastBit num den ≤ bits - 53 := by
  have hguess : num.log2 ≤ den.log2 + bits := by
    by_cases hnum : num = 0
    · subst hnum
      exact Nat.zero_le _
    · have hbelow : num < 2 ^ (den.log2 + (bits + 1)) := by
        have hnext := Nat.lt_log2_self (n := den)
        have hpow : 2 ^ (den.log2 + (bits + 1)) = 2 ^ bits * 2 ^ (den.log2 + 1) := by
          rw [← pow_add]
          congr 1
          omega
        rw [hpow]
        exact h.trans (Nat.mul_lt_mul_of_pos_left hnext (by positivity))
      have hlog := (Nat.log2_lt hnum).mpr hbelow
      omega
  unfold lastBit topBit
  dsimp only
  split
  · omega
  · next hnot =>
      by_cases hfull : num.log2 = den.log2 + bits
      · have hzero : (-((num.log2 : Int) - den.log2)).toNat = 0 := by omega
        have hguessBits : ((num.log2 : Int) - den.log2).toNat = bits := by omega
        rw [hzero, hguessBits, pow_zero, mul_one, mul_comm den] at hnot
        exact absurd h hnot
      · omega

theorem nearest_of_bits {bits : Nat} (hbits : bits ≤ 53) (h : num < 2 ^ bits * den) :
    ∃ k, 53 - bits ≤ k ∧ nearest num den = (roundHalfEven (num * 2 ^ k) den : ℚ) / 2 ^ k := by
  have hlast := lastBit_le hbits h
  have hzero : (lastBit num den).toNat = 0 := Int.toNat_of_nonpos (by omega)
  refine ⟨(-lastBit num den).toNat, by omega, ?_⟩
  unfold nearest
  dsimp only
  rw [hzero, pow_zero, mul_one, pow_zero, mul_one, Rat.mkRat_eq_div]
  push_cast
  rfl

theorem nearest_of_lt (h : num < 2 ^ 53 * den) :
    ∃ k, nearest num den = (roundHalfEven (num * 2 ^ k) den : ℚ) / 2 ^ k := by
  obtain ⟨k, -, hk⟩ := nearest_of_bits le_rfl h
  exact ⟨k, hk⟩

theorem nearest_nat (h : n < 2 ^ 53) : nearest n 1 = n := by
  have hbelow : n < 2 ^ 53 * 1 := by omega
  obtain ⟨k, hk⟩ := nearest_of_lt hbelow
  have hpos : (2 : ℚ) ^ k ≠ 0 := by positivity
  rw [hk, roundHalfEven_one]
  push_cast
  exact mul_div_cancel_right₀ _ hpos

/-- Rounding does not go below a whole number. -/
theorem le_nearest (hden : 0 < den) (h : num < 2 ^ 53 * den) (hn : n * den ≤ num) :
    (n : ℚ) ≤ nearest num den := by
  obtain ⟨k, hk⟩ := nearest_of_lt h
  have hpos : (0 : ℚ) < 2 ^ k := by positivity
  have hscaled : n * 2 ^ k ≤ roundHalfEven (num * 2 ^ k) den := by
    refine le_trans ?_ (div_le_roundHalfEven _ _)
    rw [Nat.le_div_iff_mul_le hden]
    calc n * 2 ^ k * den = n * den * 2 ^ k := by ring
      _ ≤ num * 2 ^ k := Nat.mul_le_mul_right _ hn
  rw [hk, le_div_iff₀ hpos]
  exact_mod_cast hscaled

/-- Rounding goes up by less than one. -/
theorem nearest_le (h : num < 2 ^ 53 * den) (hn : num ≤ n * den) :
    nearest num den ≤ n + 1 := by
  obtain ⟨k, hk⟩ := nearest_of_lt h
  have hpos : (0 : ℚ) < 2 ^ k := by positivity
  have hone : 1 ≤ 2 ^ k := Nat.one_le_two_pow
  have hscaled : roundHalfEven (num * 2 ^ k) den ≤ (n + 1) * 2 ^ k := by
    have hquotient : num * 2 ^ k / den ≤ n * 2 ^ k := by
      refine Nat.div_le_of_le_mul ?_
      calc num * 2 ^ k ≤ n * den * 2 ^ k := Nat.mul_le_mul_right _ hn
        _ = den * (n * 2 ^ k) := by ring
    have hround := roundHalfEven_le (num * 2 ^ k) den
    rw [Nat.add_mul, Nat.one_mul]
    omega
  rw [hk, div_le_iff₀ hpos]
  exact_mod_cast hscaled

theorem mul_roundHalfEven_le (num den : Nat) :
    2 * (den * roundHalfEven num den) ≤ 2 * num + den := by
  have hparts := Nat.div_add_mod num den
  unfold roundHalfEven
  split
  · omega
  · split
    · rw [Nat.mul_add]
      omega
    · rw [Nat.mul_add]
      have hodd : num / den % 2 ≤ 1 := by omega
      have heven := Nat.mul_le_mul_left den hodd
      omega

/-- A quotient of few bits is not rounded up to a whole number. -/
theorem floor_nearest {bits denBits : Nat}
    (hden : 0 < den)
    (hdenBits : den < 2 ^ denBits)
    (h : num < 2 ^ bits * den)
    (hbits : bits + denBits ≤ 54)
    (hsmall : bits ≤ 53) :
    ⌊nearest num den⌋ = num / den := by
  obtain ⟨k, hk, hnearest⟩ := nearest_of_bits hsmall h
  have hpos : (0 : ℚ) < 2 ^ k := by positivity
  have hpow : den < 2 * 2 ^ k := by
    rw [← pow_succ']
    exact hdenBits.trans_le (Nat.pow_le_pow_right (by omega) (by omega))
  have hlow : num / den * 2 ^ k ≤ roundHalfEven (num * 2 ^ k) den := by
    refine le_trans ?_ (div_le_roundHalfEven _ _)
    rw [Nat.le_div_iff_mul_le hden]
    calc num / den * 2 ^ k * den = num / den * den * 2 ^ k := by ring
      _ ≤ num * 2 ^ k := Nat.mul_le_mul_right _ (Nat.div_mul_le_self num den)
  have hhigh : roundHalfEven (num * 2 ^ k) den < (num / den + 1) * 2 ^ k := by
    have hround := mul_roundHalfEven_le (num * 2 ^ k) den
    have hnum : num + 1 ≤ den * (num / den + 1) := by
      rw [Nat.mul_add, Nat.mul_one]
      have hparts := Nat.div_add_mod num den
      have hmod := Nat.mod_lt num hden
      omega
    have hscaled : (num + 1) * 2 ^ k ≤ den * ((num / den + 1) * 2 ^ k) := by
      rw [← Nat.mul_assoc]
      exact Nat.mul_le_mul_right _ hnum
    rw [Nat.add_mul, Nat.one_mul] at hscaled
    refine Nat.lt_of_mul_lt_mul_left (a := den) ?_
    omega
  rw [hnearest, Int.floor_eq_iff, le_div_iff₀ hpos, div_lt_iff₀ hpos]
  constructor
  · exact_mod_cast hlow
  · exact_mod_cast hhigh

/-- The sum of two doubles that are not negative. -/
def plus (a b : ℚ) : ℚ :=
  nearest (a + b).num.natAbs (a + b).den

theorem num_natAbs_eq {q : ℚ} (h : 0 ≤ q) : (q.num.natAbs : ℚ) = q * q.den := by
  have hnum : (q.num.natAbs : ℤ) = q.num := Int.natAbs_of_nonneg (Rat.num_nonneg.mpr h)
  rw [Rat.mul_den_eq_num, ← Int.cast_natCast, hnum]

theorem num_lt_of_lt {q : ℚ} (h : 0 ≤ q) (hsmall : q < 2 ^ 53) : q.num.natAbs < 2 ^ 53 * q.den := by
  have hden : (0 : ℚ) < q.den := by exact_mod_cast q.den_pos
  have hcast : (q.num.natAbs : ℚ) < 2 ^ 53 * q.den := by
    rw [num_natAbs_eq h]
    exact mul_lt_mul_of_pos_right hsmall hden
  exact_mod_cast hcast

variable {b a : ℚ}

/-- A sum that is a whole number is not rounded. -/
theorem plus_eq (h : a + b = n) (hsmall : n < 2 ^ 53) : plus a b = n := by
  rw [plus, h, Rat.num_natCast, Rat.den_natCast, Int.natAbs_natCast, nearest_nat hsmall]

/-- A sum is not rounded below a whole number. -/
theorem le_plus (hn : n ≤ a + b) (hsmall : a + b < 2 ^ 53) : n ≤ plus a b := by
  have hpos : 0 ≤ a + b := (Nat.cast_nonneg n).trans hn
  refine le_nearest (a + b).den_pos (num_lt_of_lt hpos hsmall) ?_
  have hden : (0 : ℚ) ≤ (a + b).den := Nat.cast_nonneg _
  have hcast : (n * (a + b).den : ℚ) ≤ (a + b).num.natAbs := by
    rw [num_natAbs_eq hpos]
    exact mul_le_mul_of_nonneg_right hn hden
  exact_mod_cast hcast

theorem plus_le (hpos : 0 ≤ a + b) (hn : a + b ≤ n) (hsmall : a + b < 2 ^ 53) :
    plus a b ≤ n + 1 := by
  refine nearest_le (num_lt_of_lt hpos hsmall) ?_
  have hden : (0 : ℚ) ≤ (a + b).den := Nat.cast_nonneg _
  have hcast : ((a + b).num.natAbs : ℚ) ≤ n * (a + b).den := by
    rw [num_natAbs_eq hpos]
    exact mul_le_mul_of_nonneg_right hn hden
  exact_mod_cast hcast

theorem lt_overflow : 2 ^ 53 < overflow := by
  decide +kernel

/-- Whole numbers below 2^53 are doubles. -/
theorem round_nat (negative : Bool) {n : Nat} (h : n < 2 ^ 53) :
    round negative n 1 = finite (if negative then -n else n) := by
  have hsmall : ¬ (overflow : ℚ) ≤ n :=
    not_le.mpr (Nat.cast_lt.mpr (h.trans lt_overflow))
  unfold round
  rw [nearest_nat h, if_neg hsmall]

/-! ## Numbers in decimal -/

/-- The exponent behind the digits of a number; without one it is 0. -/
def readExponent : List Char → Option Int
  | [] => some 0
  | letter :: rest =>
      if letter = 'e' ∨ letter = 'E' then
        let (negative, digits) :=
          match rest with
          | '-' :: digits => (true, digits)
          | '+' :: digits => (false, digits)
          | digits => (false, digits)
        if digits ≠ [] ∧ digits.all Char.isDigit then
          let value : Int := Nat.ofDigitChars 10 digits 0
          some (if negative then -value else value)
        else none
      else none

/-- The fraction a decimal number without sign stands for. -/
def readDecimal (chars : List Char) : Option (Nat × Nat) :=
  let whole := chars.takeWhile Char.isDigit
  let (fraction, rest) :=
    match chars.dropWhile Char.isDigit with
    | '.' :: rest => (rest.takeWhile Char.isDigit, rest.dropWhile Char.isDigit)
    | rest => ([], rest)
  if whole = [] ∧ fraction = [] then none
  else
    (readExponent rest).map fun written =>
      let exponent : Int := written - (fraction.length : Int)
      (Nat.ofDigitChars 10 (whole ++ fraction) 0 * 10 ^ exponent.toNat, 10 ^ (-exponent).toNat)

theorem readDecimal_digits
    {digits : List Char}
    (hdigits : digits.all Char.isDigit = true)
    (hne : digits ≠ []) :
    readDecimal digits = some (Nat.ofDigitChars 10 digits 0, 1) := by
  rw [List.all_eq_true] at hdigits
  have hwhole : digits.takeWhile Char.isDigit = digits := List.takeWhile_eq_self_iff.mpr hdigits
  have hrest : digits.dropWhile Char.isDigit = [] := List.dropWhile_eq_nil_iff.mpr hdigits
  unfold readDecimal
  rw [hwhole, hrest]
  dsimp only
  rw [if_neg (fun h => hne h.1), List.append_nil]
  simp [readExponent]

/-! ## Conversion of a text -/

/-- The value of a digit, a letter counting from 10. -/
def digitValue (c : Char) : Option Nat :=
  if c.isDigit then some (c.toNat - 48)
  else if 'a' ≤ c ∧ c ≤ 'z' then some (c.toNat - 87)
  else if 'A' ≤ c ∧ c ≤ 'Z' then some (c.toNat - 55)
  else none

def readRadix (radix : Nat) (digits : List Char) : Option Nat :=
  if digits = [] then none
  else
    digits.foldlM
      (fun value c =>
        (digitValue c).bind fun digit =>
          if digit < radix then some (value * radix + digit) else none)
      0

/-- The radix that `0x`, `0o` and `0b` announce. -/
def radixOf (letter : Char) : Option Nat :=
  if letter = 'x' ∨ letter = 'X' then some 16
  else if letter = 'o' ∨ letter = 'O' then some 8
  else if letter = 'b' ∨ letter = 'B' then some 2
  else none

/-- A number without radix, behind its sign. -/
def ofUnsigned (negative : Bool) (chars : List Char) : Number :=
  if chars = "Infinity".toList then infinity negative
  else
    match readDecimal chars with
    | none => nan
    | some (num, den) => round negative num den

/-- `Number(text)` -/
def ofText (text : String) : Number :=
  match (Text.trim text).toList with
  | [] => finite 0
  | '-' :: rest => ofUnsigned true rest
  | '+' :: rest => ofUnsigned false rest
  | '0' :: letter :: rest =>
      match radixOf letter with
      | some radix => (readRadix radix rest).elim nan fun n => round false n 1
      | none => ofUnsigned false ('0' :: letter :: rest)
  | chars => ofUnsigned false chars

theorem ofUnsigned_digits
    (negative : Bool)
    {digits : List Char}
    (hdigits : digits.all Char.isDigit = true)
    (hne : digits ≠ []) :
    ofUnsigned negative digits = round negative (Nat.ofDigitChars 10 digits 0) 1 := by
  have hword : digits ≠ "Infinity".toList := by
    rintro rfl
    exact absurd hdigits (by decide)
  unfold ofUnsigned
  rw [if_neg hword, readDecimal_digits hdigits hne]

/-- Nothing is trimmed from a text that begins and ends with other characters. -/
theorem trim_eq_self
    {text : String}
    (hfirst : ∀ c, text.toList.head? = some c → Text.isWhiteSpace c = false)
    (hlast : ∀ c, text.toList.getLast? = some c → Text.isWhiteSpace c = false) :
    Text.trim text = text := by
  have hdrop (chars : List Char)
      (hhead : ∀ c, chars.head? = some c → Text.isWhiteSpace c = false) :
      chars.dropWhile Text.isWhiteSpace = chars := by
    cases chars with
    | nil => rfl
    | cons c rest => rw [List.dropWhile_cons_of_neg (by simp [hhead c rfl])]
  unfold Text.trim
  rw [hdrop _ hfirst, hdrop _ (by simpa [List.head?_reverse] using hlast), List.reverse_reverse,
    String.ofList_toList]

theorem not_isWhiteSpace_of_isDigit {c : Char} (h : c.isDigit = true) :
    Text.isWhiteSpace c = false := by
  have hlow := Text.toNat_of_isDigit h
  exact Text.not_isWhiteSpace_of_visible (by omega) (by omega)

theorem trim_digits
    (front : List Char) {digits : List Char}
    (hdigits : digits.all Char.isDigit = true)
    (hne : digits ≠ [])
    (hfront : ∀ c, (front ++ digits).head? = some c → Text.isWhiteSpace c = false) :
    Text.trim (String.ofList (front ++ digits)) = String.ofList (front ++ digits) := by
  refine trim_eq_self (by simpa using hfront) fun c hlast => ?_
  rw [String.toList_ofList, List.getLast?_append_of_ne_nil front hne] at hlast
  exact not_isWhiteSpace_of_isDigit
    (List.all_eq_true.mp hdigits c (List.mem_of_getLast? hlast))

/-- The digits of a number are converted to it. -/
theorem ofText_digits
    {digits : List Char}
    (hdigits : digits.all Char.isDigit = true)
    (hne : digits ≠ []) :
    ofText (String.ofList digits) = round false (Nat.ofDigitChars 10 digits 0) 1 := by
  have hhead (c : Char) (hc : digits.head? = some c) : Text.isWhiteSpace c = false :=
    not_isWhiteSpace_of_isDigit (List.all_eq_true.mp hdigits c (List.mem_of_head? hc))
  have htrim : Text.trim (String.ofList digits) = String.ofList digits :=
    trim_digits [] hdigits hne hhead
  have hvalue := ofUnsigned_digits false hdigits hne
  unfold ofText
  rw [htrim, String.toList_ofList]
  split
  · exact absurd rfl hne
  · cases hdigits
  · cases hdigits
  · next letter rest =>
      have hletter : letter.isDigit = true := by
        simp only [List.all_cons, Bool.and_eq_true] at hdigits
        exact hdigits.2.1
      have hradix : radixOf letter = none := by
        unfold radixOf
        have hother (d : Char) (hd : d.isDigit = false) : letter ≠ d := by
          rintro rfl
          rw [hd] at hletter
          cases hletter
        simp [hother]
      rw [hradix]
      exact hvalue
  · exact hvalue

theorem ofText_minus_digits
    {digits : List Char}
    (hdigits : digits.all Char.isDigit = true)
    (hne : digits ≠ []) :
    ofText (String.ofList ('-' :: digits)) = round true (Nat.ofDigitChars 10 digits 0) 1 := by
  have hhead (c : Char) (hc : (['-'] ++ digits).head? = some c) : Text.isWhiteSpace c = false := by
    cases hc
    rfl
  have htrim : Text.trim (String.ofList ('-' :: digits)) = String.ofList ('-' :: digits) :=
    trim_digits ['-'] hdigits hne hhead
  unfold ofText
  rw [htrim, String.toList_ofList]
  exact ofUnsigned_digits true hdigits hne

/-- Whole numbers below 2^53 are converted back. -/
theorem ofText_ofInt {n : Int} (h : n.natAbs < 2 ^ 53) : ofText (Text.ofInt n) = finite n := by
  cases n with
  | ofNat n =>
      have hsmall : n < 2 ^ 53 := h
      have hdigits := ofText_digits (Text.all_isDigit_toString n) (Text.toString_ne_nil n)
      rw [String.ofList_toList, Text.ofDigitChars_toString, round_nat false hsmall] at hdigits
      exact hdigits
  | negSucc n =>
      have hsmall : n + 1 < 2 ^ 53 := h
      have hvalue := ofText_minus_digits (Text.all_isDigit_toString (n + 1))
        (Text.toString_ne_nil (n + 1))
      rw [Text.ofDigitChars_toString, round_nat true hsmall, if_pos rfl] at hvalue
      have htext : Text.ofInt (.negSucc n) = String.ofList ('-' :: (toString (n + 1)).toList) := by
        rw [← String.toList_inj, Text.ofInt, String.toList_append, String.toList_ofList,
          String.toList_ofList, List.singleton_append]
      rw [htext, hvalue, Int.cast_negSucc]

example : ofText " 0.1e1 " = finite 1 := by decide +kernel

end Number
end Lib
end NestBase
