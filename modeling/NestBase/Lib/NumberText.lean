import Mathlib.Data.Int.Log
import Mathlib.Data.List.DropRight
import Mathlib.Tactic
import NestBase.Lib.Number

/-!
# The text of a number

`text` writes a number with the fewest digits from which it is read back, as
`Number.prototype.toString` does.  Up to 21 places a whole number is written with its
digits alone; any other number has a point or an exponent in its text
(`text_of_whole`, `text_of_not_whole`).

`parseInt` reads the digits a text begins with.
-/

namespace NestBase
namespace Lib
namespace Number

/-- The double nearest to a value. -/
def ofRat (q : ℚ) : Number :=
  round (decide (q < 0)) q.num.natAbs q.den

/-- Finite numbers are doubles. -/
def IsDouble : Number → Prop
  | finite value => ofRat value = finite value
  | _ => True

def isFinite : Number → Bool
  | finite _ => true
  | _ => false

/-- `a >= b` -/
def atLeast : Number → Number → Bool
  | nan, _ => false
  | _, nan => false
  | infinity false, _ => true
  | _, infinity true => true
  | infinity true, _ => false
  | _, infinity false => false
  | finite a, finite b => decide (b ≤ a)

/-- `a < b` -/
def lessThan : Number → Number → Bool
  | nan, _ => false
  | _, nan => false
  | a, b => !atLeast a b

/-! ## The shortest digits -/

/-- The places in front of the point: `10 ^ (places x - 1) ≤ x < 10 ^ places x`. -/
def places (x : ℚ) : Int :=
  Int.log 10 x + 1

/-- The value with the point behind its first `count` digits. -/
def scaled (x : ℚ) (count : Nat) : ℚ :=
  x * 10 ^ ((count : Int) - places x)

/-- The whole number nearest to the value of the first `count` digits. -/
def nearestDigits (x : ℚ) (count : Nat) : Nat :=
  roundHalfEven (scaled x count).num.natAbs (scaled x count).den

/-- The first `count` digits, rounded to the nearest number or, where only this is read back, up:
at a power of two the doubles below are closer than those above. -/
def significand (x : ℚ) (count : Nat) : Nat :=
  if ofRat (nearestDigits x count * 10 ^ (places x - (count : Int))) = finite x then
    nearestDigits x count
  else ⌈scaled x count⌉₊

/-- The decimal number of `count` digits that stands for the value. -/
def decimal (x : ℚ) (count : Nat) : ℚ :=
  significand x count * 10 ^ (places x - (count : Int))

/-- The value is read back from so many digits. -/
def isEnough (x : ℚ) (count : Nat) : Bool :=
  decide (ofRat (decimal x count) = finite x)

def firstCount (x : ℚ) : Nat → Nat → Nat
  | 0, count => count
  | fuel + 1, count => if isEnough x count then count else firstCount x fuel (count + 1)

/-- The least number of digits; 1074 decimals write every double exactly. -/
def digitCount (x : ℚ) : Nat :=
  firstCount x (places x + 1074).toNat 1

/-- The digits of the shortest decimal number, and its places in front of the point. -/
def shortest (x : ℚ) : List Char × Int :=
  let count := digitCount x
  let written := (toString (significand x count)).toList
  (written.rdropWhile (· = '0'), (written.length : Int) + places x - (count : Int))

def exponentText (exponent : Int) : List Char :=
  'e' :: (if exponent < 0 then '-' else '+') :: (toString exponent.natAbs).toList

/-- The layout of digits with a number of places in front of the point. -/
def layout (digits : List Char) (places : Int) : List Char :=
  if digits.length ≤ places ∧ places ≤ 21 then
    digits ++ List.replicate (places.toNat - digits.length) '0'
  else if 0 < places ∧ places ≤ 21 then
    digits.take places.toNat ++ '.' :: digits.drop places.toNat
  else if -6 < places ∧ places ≤ 0 then
    '0' :: '.' :: (List.replicate (-places).toNat '0' ++ digits)
  else
    match digits with
    | [digit] => digit :: exponentText (places - 1)
    | digits => digits.take 1 ++ '.' :: (digits.drop 1 ++ exponentText (places - 1))

def positiveText (x : ℚ) : List Char :=
  layout (shortest x).1 (shortest x).2

/-- `Number.prototype.toString` -/
def text : Number → String
  | nan => "NaN"
  | infinity negative => if negative then "-Infinity" else "Infinity"
  | finite value =>
      if value = 0 then "0"
      else if value < 0 then String.ofList ('-' :: positiveText (-value))
      else String.ofList (positiveText value)

/-- `Number.parseInt(text, 10)` -/
def parseInt (text : String) : Number :=
  let (negative, unsigned) :=
    match text.toList.dropWhile Text.isWhiteSpace with
    | '-' :: unsigned => (true, unsigned)
    | '+' :: unsigned => (false, unsigned)
    | unsigned => (false, unsigned)
  let digits := unsigned.takeWhile Char.isDigit
  if digits = [] then nan else round negative (Nat.ofDigitChars 10 digits 0) 1

/-! ## Values and their rounding -/

theorem ofRat_natCast (n : Nat) : ofRat (n : ℚ) = round false n 1 := by
  have hneg : ¬(n : ℚ) < 0 := not_lt.mpr (Nat.cast_nonneg n)
  rw [ofRat, decide_eq_false hneg, Rat.num_natCast, Rat.den_natCast, Int.natAbs_natCast]

variable {x : ℚ}

theorem value_of_round {negative : Bool} {num den : Nat} (h : round negative num den = finite x) :
    x = if negative then -nearest num den else nearest num den := by
  rw [round] at h
  split at h
  · cases h
  · cases h
    rfl

theorem nearest_of_isDouble (hpos : 0 < x) (h : IsDouble (finite x)) :
    nearest x.num.natAbs x.den = x := by
  have hvalue := value_of_round (x := x) h
  rw [decide_eq_false (not_lt.mpr hpos.le)] at hvalue
  exact hvalue.symm

/-- Every double is written exactly with 1074 decimals. -/
theorem exists_nat_mul_pow (hpos : 0 < x) (h : IsDouble (finite x))
    {decimals : Nat} (hdecimals : 1074 ≤ decimals) :
    ∃ n : Nat, x * 10 ^ decimals = n := by
  have hnearest := nearest_of_isDouble hpos h
  rw [nearest] at hnearest
  set bit := lastBit x.num.natAbs x.den with hbit
  have hlow : -1074 ≤ bit := le_max_right _ _
  have hbits : (-bit).toNat ≤ decimals := by omega
  obtain ⟨rest, rfl⟩ := Nat.exists_eq_add_of_le hbits
  set units := roundHalfEven (x.num.natAbs * 2 ^ (-bit).toNat) (x.den * 2 ^ bit.toNat)
  refine ⟨units * 2 ^ bit.toNat * (5 ^ (-bit).toNat * 10 ^ rest), ?_⟩
  rw [← hnearest, Rat.mkRat_eq_div]
  have hten : (10 : ℚ) ^ ((-bit).toNat + rest) =
      2 ^ (-bit).toNat * (5 ^ (-bit).toNat * 10 ^ rest) := by
    rw [pow_add, ← mul_assoc, ← mul_pow]
    norm_num
  rw [hten]
  push_cast
  field_simp

variable {n : Nat}

theorem le_log2 (h : 2 ^ 53 ≤ n) : 53 ≤ n.log2 :=
  (Nat.le_log2 (by omega)).mpr h

theorem lastBit_of_le (h : 2 ^ 53 ≤ n) : lastBit n 1 = (n.log2 - 52 : Nat) := by
  have hlog := le_log2 h
  have hself : 2 ^ n.log2 ≤ n := Nat.log2_self_le (by omega)
  have htop : topBit n 1 = n.log2 := by
    have hone : Nat.log2 1 = 0 := by decide
    have hneg : (-(n.log2 : Int)).toNat = 0 := by omega
    rw [topBit, hone, Int.natCast_zero, Int.sub_zero, hneg, Int.toNat_natCast, if_neg (by omega)]
  rw [lastBit, htop]
  omega

theorem nearest_of_le (h : 2 ^ 53 ≤ n) :
    nearest n 1 =
      (roundHalfEven n (2 ^ (n.log2 - 52)) * 2 ^ (n.log2 - 52) : Nat) := by
  have hbit : (-((n.log2 - 52 : Nat) : Int)).toNat = 0 := by omega
  rw [nearest, lastBit_of_le h, hbit, pow_zero, Nat.mul_one, Nat.one_mul, Int.toNat_natCast,
    Rat.mkRat_one]
  push_cast
  rfl

/-- The double nearest to a whole number is whole. -/
theorem exists_nat_eq_nearest (n : Nat) : ∃ m : Nat, nearest n 1 = m := by
  by_cases hsmall : n < 2 ^ 53
  · exact ⟨n, nearest_nat hsmall⟩
  · exact ⟨_, nearest_of_le (not_lt.mp hsmall)⟩

/-- No number from 2^53 on is rounded to one below. -/
theorem lt_of_round {m : Nat} (h : round false n 1 = finite m) (hm : m < 2 ^ 53) :
    n < 2 ^ 53 := by
  by_contra hn
  have hlog := le_log2 (not_lt.mp hn)
  have hvalue := value_of_round h
  rw [if_neg Bool.false_ne_true, nearest_of_le (not_lt.mp hn), Nat.cast_inj] at hvalue
  have hsplit : 2 ^ n.log2 = 2 ^ 52 * 2 ^ (n.log2 - 52) := by
    rw [← pow_add]
    congr 1
    omega
  have hself : 2 ^ n.log2 ≤ n := Nat.log2_self_le (by omega)
  have hquotient : 2 ^ 52 ≤ n / 2 ^ (n.log2 - 52) := by
    rw [Nat.le_div_iff_mul_le (by positivity), ← hsplit]
    exact hself
  have hdouble : 2 ^ 1 ≤ 2 ^ (n.log2 - 52) := Nat.pow_le_pow_right (by omega) (by omega)
  have hlow := Nat.mul_le_mul (hquotient.trans (div_le_roundHalfEven n _)) hdouble
  omega

/-! ## The number of digits -/

section Digits

variable {x : ℚ}

theorem zpow_places_le (hpos : 0 < x) : (10 : ℚ) ^ (places x - 1) ≤ x := by
  have h := Int.zpow_log_le_self (b := 10) (by norm_num) hpos
  rw [places, add_sub_cancel_right]
  exact_mod_cast h

theorem lt_zpow_places (x : ℚ) : x < (10 : ℚ) ^ places x := by
  have h := Int.lt_zpow_succ_log_self (b := 10) (by norm_num) x
  rw [places]
  exact_mod_cast h

theorem scaled_pos (hpos : 0 < x) (count : Nat) : 0 < scaled x count := by
  unfold scaled
  positivity

variable {n : Nat}

theorem significand_of_scaled {count : Nat} (h : scaled x count = n) :
    significand x count = n := by
  have hnearest : nearestDigits x count = n := by
    rw [nearestDigits, h, Rat.num_natCast, Rat.den_natCast, Int.natAbs_natCast, roundHalfEven_one]
  rw [significand, hnearest, h, Nat.ceil_natCast, ite_self]

theorem decimal_of_scaled {count : Nat} (h : scaled x count = n) :
    decimal x count = x := by
  rw [decimal, significand_of_scaled h, ← h, scaled, mul_assoc, ← zpow_add₀ (by norm_num)]
  simp

theorem isEnough_of_scaled (hdouble : IsDouble (finite x)) {count n : Nat}
    (h : scaled x count = n) :
    isEnough x count = true := by
  rw [isEnough, decimal_of_scaled h]
  exact decide_eq_true hdouble

theorem le_significand (hpos : 0 < x) {count : Nat} (hcount : 1 ≤ count) :
    10 ^ (count - 1) ≤ significand x count := by
  have hscaled : ((10 ^ (count - 1) : Nat) : ℚ) ≤ scaled x count := by
    have hexponent : ((count - 1 : Nat) : Int) = (places x - 1) + ((count : Int) - places x) := by
      omega
    have hpow : (10 : ℚ) ^ (count - 1) =
        10 ^ (places x - 1) * 10 ^ ((count : Int) - places x) := by
      rw [← zpow_add₀ (by norm_num), ← hexponent, zpow_natCast]
    rw [Nat.cast_pow, Nat.cast_ofNat, scaled, hpow]
    exact mul_le_mul_of_nonneg_right (zpow_places_le hpos) (by positivity)
  unfold significand
  split
  swap
  · exact_mod_cast hscaled.trans (Nat.le_ceil _)
  refine le_trans ?_ (div_le_roundHalfEven _ _)
  rw [Nat.le_div_iff_mul_le (Rat.den_pos _)]
  have hnum := num_natAbs_eq (scaled_pos hpos count).le
  have hmul : ((10 ^ (count - 1) : Nat) : ℚ) * (scaled x count).den ≤
      (scaled x count).num.natAbs := by
    rw [hnum]
    exact mul_le_mul_of_nonneg_right hscaled (by positivity)
  exact_mod_cast hmul

theorem significand_le (hpos : 0 < x) (count : Nat) : significand x count ≤ 10 ^ count := by
  have hscaled : scaled x count < ((10 ^ count : Nat) : ℚ) := by
    have hshift : (0 : ℚ) < 10 ^ ((count : Int) - places x) := by positivity
    have hpow : (10 : ℚ) ^ count = 10 ^ places x * 10 ^ ((count : Int) - places x) := by
      rw [← zpow_add₀ (by norm_num), add_sub_cancel, zpow_natCast]
    rw [Nat.cast_pow, Nat.cast_ofNat, scaled, hpow]
    exact mul_lt_mul_of_pos_right (lt_zpow_places x) hshift
  unfold significand
  split
  swap
  · exact Nat.ceil_le.mpr hscaled.le
  have hdiv : (scaled x count).num.natAbs / (scaled x count).den < 10 ^ count := by
    rw [Nat.div_lt_iff_lt_mul (Rat.den_pos _)]
    have hnum := num_natAbs_eq (scaled_pos hpos count).le
    have hmul : ((scaled x count).num.natAbs : ℚ) <
        ((10 ^ count : Nat) : ℚ) * (scaled x count).den := by
      rw [hnum]
      exact mul_lt_mul_of_pos_right hscaled (by exact_mod_cast Rat.den_pos _)
    exact_mod_cast hmul
  exact (roundHalfEven_le _ _).trans hdiv

theorem firstCount_spec {fuel start more : Nat} (hmore : more ≤ fuel)
    (h : isEnough x (start + more) = true) :
    isEnough x (firstCount x fuel start) = true ∧
      start ≤ firstCount x fuel start ∧ firstCount x fuel start ≤ start + more := by
  induction fuel generalizing start more with
  | zero =>
      obtain rfl : more = 0 := by omega
      exact ⟨h, le_refl _, le_refl _⟩
  | succ fuel ih =>
      rw [firstCount]
      split
      · next henough => exact ⟨henough, le_refl _, Nat.le_add_right _ _⟩
      · next henough =>
          cases more with
          | zero => exact absurd h henough
          | succ more =>
              have hnext : isEnough x (start + 1 + more) = true := by
                rwa [Nat.add_right_comm, Nat.add_assoc start more 1]
              obtain ⟨hfound, hlow, hhigh⟩ := ih (by omega) hnext
              exact ⟨hfound, by omega, by omega⟩

theorem digitCount_le {count : Nat} (hlow : 1 ≤ count) (hhigh : count ≤ places x + 1074)
    (h : isEnough x count = true) :
    digitCount x ≤ count := by
  obtain ⟨more, rfl⟩ := Nat.exists_eq_add_of_le hlow
  exact (firstCount_spec (by omega) h).2.2

theorem scaled_of_decimals {count decimals : Nat} (h : (count : Int) = places x + decimals) :
    scaled x count = x * 10 ^ decimals := by
  rw [scaled, h, add_sub_cancel_left, zpow_natCast]

/-- Enough digits are found. -/
theorem digitCount_spec (hpos : 0 < x) (hdouble : IsDouble (finite x)) :
    isEnough x (digitCount x) = true ∧ 1 ≤ digitCount x := by
  have hexact : isEnough x (1 + (places x + 1074).toNat) = true := by
    obtain ⟨decimals, hdecimals⟩ : ∃ decimals : Nat,
        ((1 + (places x + 1074).toNat : Nat) : Int) = places x + decimals ∧ 1074 ≤ decimals :=
      ⟨(1 + (places x + 1074).toNat - places x : Int).toNat, by omega, by omega⟩
    obtain ⟨n, hn⟩ := exists_nat_mul_pow hpos hdouble hdecimals.2
    refine isEnough_of_scaled hdouble (n := n) ?_
    rw [scaled_of_decimals hdecimals.1, hn]
  obtain ⟨hfound, hlow, -⟩ := firstCount_spec (le_refl _) hexact
  exact ⟨hfound, hlow⟩

/-! ## Whole numbers and others -/

/-- The digits as they are written before zeros at the end are dropped. -/
def writtenDigits (x : ℚ) : List Char :=
  (toString (significand x (digitCount x))).toList

theorem exists_written (x : ℚ) :
    ∃ zeros, writtenDigits x = (shortest x).1 ++ List.replicate zeros '0' := by
  refine ⟨((writtenDigits x).rtakeWhile (· = '0')).length, ?_⟩
  have hzeros : (writtenDigits x).rtakeWhile (· = '0') =
      List.replicate ((writtenDigits x).rtakeWhile (· = '0')).length '0' :=
    List.eq_replicate_of_mem fun c hc => by
      simpa using @List.mem_rtakeWhile_imp Char (· = '0') (writtenDigits x) c hc
  rw [← hzeros]
  exact List.rdropWhile_append_rtakeWhile.symm

theorem shortest_snd (x : ℚ) :
    (shortest x).2 = (writtenDigits x).length + places x - (digitCount x : Int) :=
  rfl

theorem ofDigitChars_zeros (digits : List Char) (zeros : Nat) :
    Nat.ofDigitChars 10 (digits ++ List.replicate zeros '0') 0 =
      Nat.ofDigitChars 10 digits 0 * 10 ^ zeros := by
  rw [Nat.ofDigitChars_append, Nat.ofDigitChars_replicate_zero, Nat.mul_comm]

/-- The digits and the places stand for the decimal number. -/
theorem decimal_shortest (x : ℚ) :
    decimal x (digitCount x) =
      Nat.ofDigitChars 10 (shortest x).1 0 *
        10 ^ ((shortest x).2 - ((shortest x).1.length : Int)) := by
  obtain ⟨zeros, hwritten⟩ := exists_written x
  have hvalue : significand x (digitCount x) =
      Nat.ofDigitChars 10 (shortest x).1 0 * 10 ^ zeros := by
    rw [← ofDigitChars_zeros, ← hwritten, writtenDigits, Text.ofDigitChars_toString]
  have hexponent : (shortest x).2 - ((shortest x).1.length : Int) =
      zeros + (places x - (digitCount x : Int)) := by
    rw [shortest_snd, hwritten, List.length_append, List.length_replicate]
    omega
  rw [decimal, hvalue, hexponent, zpow_add₀ (by norm_num), zpow_natCast]
  push_cast
  ring

theorem isDigit_of_mem_shortest (x : ℚ) {c : Char} (h : c ∈ (shortest x).1) : c.isDigit = true :=
  Text.isDigit_of_mem_toString
    ((List.rdropWhile_prefix (fun c => decide (c = '0')) (writtenDigits x)).subset h)

theorem significand_ne_zero (hpos : 0 < x) (hdouble : IsDouble (finite x)) :
    significand x (digitCount x) ≠ 0 := by
  have hlow := le_significand hpos (digitCount_spec hpos hdouble).2
  have hpow := Nat.pow_pos (n := digitCount x - 1) (show 0 < 10 by norm_num)
  omega

theorem shortest_ne_nil (hpos : 0 < x) (hdouble : IsDouble (finite x)) : (shortest x).1 ≠ [] := by
  intro hnil
  obtain ⟨zeros, hwritten⟩ := exists_written x
  have hvalue : significand x (digitCount x) = 0 := by
    rw [← Text.ofDigitChars_toString (significand x (digitCount x)), ← writtenDigits, hwritten, hnil,
      ofDigitChars_zeros, Nat.ofDigitChars_nil, Nat.zero_mul]
  exact significand_ne_zero hpos hdouble hvalue

theorem head?_shortest_ne_zero (hpos : 0 < x) (hdouble : IsDouble (finite x)) :
    (shortest x).1.head? ≠ some '0' := by
  obtain ⟨zeros, hwritten⟩ := exists_written x
  have hhead := Text.head?_toString_ne_zero (significand_ne_zero hpos hdouble)
  rwa [← writtenDigits, hwritten,
    List.head?_append_of_ne_nil _ (shortest_ne_nil hpos hdouble)] at hhead

/-- The digits alone are the text. -/
def IsPlain (x : ℚ) : Prop :=
  ((shortest x).1.length : Int) ≤ (shortest x).2 ∧ (shortest x).2 ≤ 21

theorem positiveText_eq (h : IsPlain x) :
    positiveText x = (shortest x).1 ++
      List.replicate ((shortest x).2.toNat - (shortest x).1.length) '0' := by
  unfold positiveText layout
  exact if_pos h

/-- The text of digits alone is read back. -/
theorem positiveText_of_isPlain (hpos : 0 < x) (hdouble : IsDouble (finite x)) (h : IsPlain x) :
    (positiveText x).all Char.isDigit = true ∧ positiveText x ≠ [] ∧
      round false (Nat.ofDigitChars 10 (positiveText x) 0) 1 = finite x := by
  have htext := positiveText_eq h
  refine ⟨?_, ?_, ?_⟩
  · rw [htext, List.all_append, Bool.and_eq_true, List.all_eq_true, List.all_eq_true]
    refine ⟨fun c hc => isDigit_of_mem_shortest x hc, fun c hc => ?_⟩
    rw [List.eq_of_mem_replicate hc]
    decide
  · rw [htext]
    exact List.append_ne_nil_of_left_ne_nil (shortest_ne_nil hpos hdouble) _
  · have hvalue : ((Nat.ofDigitChars 10 (positiveText x) 0 : Nat) : ℚ) =
        decimal x (digitCount x) := by
      have hexponent : (shortest x).2 - ((shortest x).1.length : Int) =
          (((shortest x).2.toNat - (shortest x).1.length : Nat) : Int) := by
        have hlength := h.1
        omega
      rw [decimal_shortest, htext, ofDigitChars_zeros, hexponent, zpow_natCast]
      push_cast
      rfl
    rw [← ofRat_natCast, hvalue]
    exact of_decide_eq_true (digitCount_spec hpos hdouble).1

theorem length_toString_le {count : Nat} (hcount : 1 ≤ count) (h : n < 10 ^ count) :
    (toString n).toList.length ≤ count := by
  rw [Text.toList_toString]
  exact (Nat.length_toDigits_le_iff (by norm_num) hcount).mpr h

theorem le_length_toString {count : Nat} (h : 10 ^ (count - 1) ≤ n) :
    count ≤ (toString n).toList.length := by
  rw [Text.toList_toString]
  by_contra hshort
  have hlow : 0 < (Nat.toDigits 10 n).length := Nat.length_toDigits_pos
  have hlt := (Nat.length_toDigits_le_iff (n := n) (k := count - 1) (b := 10) (by norm_num)
    (by omega)).mp (by omega)
  omega

theorem ofRat_pow_21 : ofRat (10 ^ 21) = finite (10 ^ 21) := by
  decide +kernel

/-- Whole numbers below 10^21 are written with their digits alone. -/
theorem isPlain_of_whole (hdouble : IsDouble (finite x)) {n : Nat} (hx : x = n) (hn : 0 < n)
    (hsmall : n < 10 ^ 21) : IsPlain x := by
  have hpos : 0 < x := by
    rw [hx]
    exact_mod_cast hn
  have hplaces : 1 ≤ places x ∧ places x ≤ 21 := by
    have hone : (10 : ℚ) ^ (0 : Int) ≤ x := by
      rw [hx, zpow_zero]
      exact_mod_cast hn
    have hlarge : x < (10 : ℚ) ^ (21 : Int) := by
      rw [hx]
      exact_mod_cast hsmall
    have hlow : 0 ≤ Int.log 10 x :=
      (Int.zpow_le_iff_le_log (b := 10) (by norm_num) hpos).mp (by exact_mod_cast hone)
    have hhigh : Int.log 10 x < 21 :=
      (Int.lt_zpow_iff_log_lt (b := 10) (by norm_num) hpos).mp (by exact_mod_cast hlarge)
    unfold places
    omega
  have hexact : isEnough x (places x).toNat = true := by
    refine isEnough_of_scaled hdouble (n := n) ?_
    have hscaled : scaled x (places x).toNat = x * 10 ^ 0 := scaled_of_decimals (by omega)
    rw [hscaled, hx, pow_zero, mul_one]
  have hcount : (digitCount x : Int) ≤ places x := by
    have hle := digitCount_le (by omega) (by omega) hexact
    omega
  obtain ⟨henough, hone⟩ := digitCount_spec hpos hdouble
  obtain ⟨zeros, hwritten⟩ := exists_written x
  have hlength := congrArg List.length hwritten
  rw [List.length_append, List.length_replicate] at hlength
  refine ⟨by rw [shortest_snd]; omega, ?_⟩
  rw [shortest_snd]
  rcases Nat.lt_or_ge (significand x (digitCount x)) (10 ^ digitCount x) with hlt | hge
  · have hwidth := length_toString_le hone hlt
    rw [← writtenDigits] at hwidth
    omega
  · -- the digits carry into a new place, so the value is the power of ten
    have hcarry : significand x (digitCount x) = 10 ^ digitCount x :=
      Nat.le_antisymm (significand_le hpos _) hge
    have hwidth : (writtenDigits x).length ≤ digitCount x + 1 := by
      refine length_toString_le (by omega) ?_
      rw [hcarry]
      exact Nat.pow_lt_pow_right (by norm_num) (by omega)
    have hdecimal : decimal x (digitCount x) = 10 ^ places x := by
      rw [decimal, hcarry, Nat.cast_pow, Nat.cast_ofNat, ← zpow_natCast,
        ← zpow_add₀ (by norm_num), add_sub_cancel]
    have hplace : places x ≠ 21 := by
      intro hplace
      have hround : ofRat (10 ^ 21) = finite x := by
        have hdecide := of_decide_eq_true henough
        rw [hdecimal, hplace] at hdecide
        exact_mod_cast hdecide
      rw [ofRat_pow_21] at hround
      have hvalue : (10 : ℚ) ^ 21 = x := by
        injection hround
      rw [hx] at hvalue
      have hnat : 10 ^ 21 = n := by exact_mod_cast hvalue
      omega
    omega

/-- Only whole numbers below 10^21 are written with their digits alone. -/
theorem whole_of_isPlain (hpos : 0 < x) (hdouble : IsDouble (finite x)) (h : IsPlain x) :
    ∃ n : Nat, x = n ∧ 0 < n ∧ n < 10 ^ 21 := by
  obtain ⟨-, -, hround⟩ := positiveText_of_isPlain hpos hdouble h
  obtain ⟨n, hn⟩ := exists_nat_eq_nearest (Nat.ofDigitChars 10 (positiveText x) 0)
  have hx : x = n := by
    rw [← hn]
    exact value_of_round hround
  have hplaces : places x ≤ 21 := by
    have hwidth : digitCount x ≤ (writtenDigits x).length :=
      le_length_toString (le_significand hpos (digitCount_spec hpos hdouble).2)
    have hhigh := h.2
    rw [shortest_snd] at hhigh
    omega
  have hsmall : x < (10 : ℚ) ^ (21 : Int) :=
    (lt_zpow_places x).trans_le (zpow_le_zpow_right₀ (by norm_num) hplaces)
  refine ⟨n, hx, ?_, ?_⟩
  · rw [hx] at hpos
    exact_mod_cast hpos
  · rw [hx] at hsmall
    exact_mod_cast hsmall

/-- Any other layout has a point, or an exponent behind one digit. -/
theorem positiveText_of_not_isPlain (h : ¬IsPlain x) :
    '.' ∈ positiveText x ∨
      ∃ digit exponent, digit.isDigit = true ∧ positiveText x = digit :: 'e' :: exponent := by
  unfold positiveText layout
  rw [IsPlain] at h
  rw [if_neg h]
  split
  · left
    simp
  · split
    · left
      simp
    · split
      · next digit hdigits =>
          right
          refine ⟨digit, _, isDigit_of_mem_shortest x ?_, rfl⟩
          rw [hdigits]
          exact List.mem_singleton_self digit
      · left
        simp

end Digits

/-! ## Reading a text back -/

/-- Digits at the head of a text are read, up to the next other character. -/
theorem parseInt_digits
    {digits rest : List Char}
    (hdigits : digits.all Char.isDigit = true)
    (hne : digits ≠ [])
    (hrest : ∀ c, rest.head? = some c → c.isDigit = false) :
    parseInt (String.ofList (digits ++ rest)) =
      round false (Nat.ofDigitChars 10 digits 0) 1 := by
  have htake : (digits ++ rest).takeWhile Char.isDigit = digits := by
    rw [List.takeWhile_append_of_pos (List.all_eq_true.mp hdigits)]
    cases rest with
    | nil => simp
    | cons c rest => rw [List.takeWhile_cons_of_neg (by simp [hrest c rfl]), List.append_nil]
  obtain ⟨c, digits, rfl⟩ := List.exists_cons_of_ne_nil hne
  have hc : c.isDigit = true := by
    rw [List.all_cons, Bool.and_eq_true] at hdigits
    exact hdigits.1
  have hblank : (c :: digits ++ rest).dropWhile Text.isWhiteSpace = c :: digits ++ rest :=
    List.dropWhile_cons_of_neg (by simp [not_isWhiteSpace_of_isDigit hc])
  unfold parseInt
  rw [String.toList_ofList, hblank]
  split
  next negative unsigned hsplit =>
    split at hsplit
    · next heq =>
        cases heq
        exact absurd hc (by decide)
    · next heq =>
        cases heq
        exact absurd hc (by decide)
    · cases hsplit
      rw [htake]
      simp

theorem text_of_pos (hpos : 0 < x) :
    text (finite x) = String.ofList (positiveText x) := by
  rw [text, if_neg hpos.ne', if_neg (not_lt.mpr hpos.le)]

/-- A whole number below 10^21. -/
def IsShortWhole (x : ℚ) : Prop :=
  ∃ n : Nat, x = n ∧ 0 < n ∧ n < 10 ^ 21

theorem isPlain_iff (hpos : 0 < x) (hdouble : IsDouble (finite x)) :
    IsPlain x ↔ IsShortWhole x :=
  ⟨whole_of_isPlain hpos hdouble, fun ⟨_, hx, hn, hsmall⟩ => isPlain_of_whole hdouble hx hn hsmall⟩

theorem all_isDigit_text (hdouble : IsDouble (finite x)) (h : IsShortWhole x) :
    (text (finite x)).toList.all Char.isDigit = true := by
  have hpos : 0 < x := by
    obtain ⟨n, rfl, hn, -⟩ := h
    exact_mod_cast hn
  rw [text_of_pos hpos, String.toList_ofList]
  exact (positiveText_of_isPlain hpos hdouble ((isPlain_iff hpos hdouble).mpr h)).1

/-- A whole number below 10^21 is read back from its text. -/
theorem parseInt_text (hdouble : IsDouble (finite x)) (h : IsShortWhole x) :
    parseInt (text (finite x)) = finite x := by
  have hpos : 0 < x := by
    obtain ⟨n, rfl, hn, -⟩ := h
    exact_mod_cast hn
  obtain ⟨hdigits, hne, hround⟩ :=
    positiveText_of_isPlain hpos hdouble ((isPlain_iff hpos hdouble).mpr h)
  have hread := @parseInt_digits _ [] hdigits hne (by simp)
  rw [List.append_nil, hround] at hread
  rw [text_of_pos hpos, hread]

theorem isDouble_natCast (h : n < 2 ^ 53) : IsDouble (finite n) := by
  change ofRat n = finite n
  rw [ofRat_natCast, round_nat false h]
  simp

theorem ofRat_intCast {n : Int} (h : n.natAbs < 2 ^ 53) : ofRat n = finite n := by
  rw [ofRat, Rat.num_intCast, Rat.den_intCast, round_nat _ h]
  rcases lt_or_ge n 0 with hneg | hpos
  · have habs : (n.natAbs : ℚ) = -n := by
      rw [← Int.cast_natCast, Int.ofNat_natAbs_of_nonpos hneg.le, Int.cast_neg]
    rw [decide_eq_true (by exact_mod_cast hneg), if_pos rfl, habs, neg_neg]
  · have habs : (n.natAbs : ℚ) = n := by
      rw [← Int.cast_natCast, Int.natAbs_of_nonneg hpos]
    rw [decide_eq_false (by exact_mod_cast not_lt.mpr hpos), if_neg (by decide), habs]

/-- A whole number below 2^53 is written in decimal. -/
theorem positiveText_natCast (hpos : 0 < n) (h : n < 2 ^ 53) :
    positiveText n = (toString n).toList := by
  have hvalue : (0 : ℚ) < n := by exact_mod_cast hpos
  have hdouble := isDouble_natCast h
  have hplain := isPlain_of_whole hdouble rfl hpos (by omega)
  obtain ⟨hdigits, hne, hround⟩ := positiveText_of_isPlain hvalue hdouble hplain
  have hsmall := lt_of_round hround h
  rw [round_nat false hsmall, if_neg Bool.false_ne_true, finite.injEq, Nat.cast_inj] at hround
  have hhead : (positiveText n).head? ≠ some '0' := by
    rw [positiveText_eq hplain, List.head?_append_of_ne_nil _ (shortest_ne_nil hvalue hdouble)]
    exact head?_shortest_ne_zero hvalue hdouble
  rw [Text.toList_toString, ← hround, Text.toDigits_ofDigitChars hdigits hne hhead, hround]

theorem text_natCast (h : n < 2 ^ 53) : text (finite n) = toString n := by
  rcases Nat.eq_zero_or_pos n with rfl | hpos
  · decide
  · rw [text_of_pos (by exact_mod_cast hpos), positiveText_natCast hpos h, String.ofList_toList]

theorem text_intCast {n : Int} (h : n.natAbs < 2 ^ 53) : text (ofRat n) = Text.ofInt n := by
  rw [ofRat_intCast h]
  cases n with
  | ofNat n => exact text_natCast h
  | negSucc n =>
      have hvalue : ((Int.negSucc n : Int) : ℚ) = -((n + 1 : Nat) : ℚ) := Int.cast_negSucc n
      have hneg : -((n + 1 : Nat) : ℚ) < 0 := neg_lt_zero.mpr (by exact_mod_cast n.succ_pos)
      rw [hvalue, text, if_neg hneg.ne, if_pos hneg, neg_neg, positiveText_natCast n.succ_pos h,
        Text.ofInt, ← String.toList_inj, String.toList_ofList, String.toList_append]
      rfl

theorem not_mem_text_natCast (h : n < 10) : 'e' ∉ (text (finite n)).toList := by
  rw [text_natCast (by omega)]
  intro hmem
  exact absurd (Text.isDigit_of_mem_toString hmem) (by decide)

/-- Any other text has a point, or does not come out again for the number that is
read from it. -/
theorem text_of_not_isShortWhole (hpos : 0 < x) (hdouble : IsDouble (finite x))
    (h : ¬IsShortWhole x) :
    '.' ∈ (text (finite x)).toList ∨
      ∃ n : Nat, parseInt (text (finite x)) = finite n ∧ text (finite n) ≠ text (finite x) := by
  rw [text_of_pos hpos, String.toList_ofList]
  rcases positiveText_of_not_isPlain (mt (isPlain_iff hpos hdouble).mp h) with
    hpoint | ⟨digit, exponent, hdigit, htext⟩
  · exact .inl hpoint
  · right
    have hvalue : Nat.ofDigitChars 10 [digit] 0 < 10 := by
      have hrange := Text.toNat_of_isDigit hdigit
      simp [Nat.ofDigitChars_cons, Nat.ofDigitChars_nil]
      omega
    refine ⟨Nat.ofDigitChars 10 [digit] 0, ?_, ?_⟩
    · have hread := @parseInt_digits [digit] ('e' :: exponent) (by simpa using hdigit) (by simp)
        (by simp)
      rw [htext]
      rw [round_nat false (by omega)] at hread
      exact hread
    · intro heq
      refine not_mem_text_natCast hvalue ?_
      rw [heq, htext]
      simp

/-! ## The characters of a text -/

/-- A character that is printed: neither white space nor the end of a line. -/
def IsVisible (c : Char) : Prop :=
  33 ≤ c.toNat ∧ c.toNat ≤ 126

theorem isVisible_of_isDigit {c : Char} (h : c.isDigit = true) : IsVisible c := by
  have hrange := Text.toNat_of_isDigit h
  unfold IsVisible
  omega

theorem isVisible_exponentText {exponent : Int} : ∀ c ∈ exponentText exponent, IsVisible c := by
  unfold exponentText
  rw [List.forall_mem_cons, List.forall_mem_cons]
  refine ⟨by unfold IsVisible; decide, ?_, fun c hc => ?_⟩
  · split <;> (unfold IsVisible; decide)
  · exact isVisible_of_isDigit (Text.isDigit_of_mem_toString hc)

theorem isVisible_layout {digits : List Char} {places : Int}
    (hdigits : ∀ c ∈ digits, IsVisible c) : ∀ c ∈ layout digits places, IsVisible c := by
  have hzero : ∀ n, ∀ c ∈ List.replicate n '0', IsVisible c := by
    intro n c hc
    rw [List.eq_of_mem_replicate hc]
    unfold IsVisible
    decide
  have hpoint : IsVisible '.' := by
    unfold IsVisible
    decide
  have hfront : ∀ n, ∀ c ∈ digits.take n, IsVisible c :=
    fun n c hc => hdigits c (List.mem_of_mem_take hc)
  have hback : ∀ n, ∀ c ∈ digits.drop n, IsVisible c :=
    fun n c hc => hdigits c (List.mem_of_mem_drop hc)
  unfold layout
  split
  · rw [List.forall_mem_append]
    exact ⟨hdigits, hzero _⟩
  · split
    · rw [List.forall_mem_append, List.forall_mem_cons]
      exact ⟨hfront _, hpoint, hback _⟩
    · split
      · rw [List.forall_mem_cons, List.forall_mem_cons, List.forall_mem_append]
        exact ⟨hzero 1 '0' (by decide), hpoint, hzero _, hdigits⟩
      · split
        · next digit =>
            rw [List.forall_mem_cons]
            exact ⟨hdigits _ (List.mem_singleton.mpr rfl), isVisible_exponentText⟩
        · rw [List.forall_mem_append, List.forall_mem_cons, List.forall_mem_append]
          exact ⟨hfront _, hpoint, hback _, isVisible_exponentText⟩

theorem isVisible_text (x : Number) : ∀ c ∈ (text x).toList, IsVisible c := by
  have hpositive : ∀ value : ℚ, ∀ c ∈ positiveText value, IsVisible c := fun value =>
    isVisible_layout fun c hc => isVisible_of_isDigit (isDigit_of_mem_shortest value hc)
  have hword : ∀ word : String,
      (word.toList.all fun c => decide (33 ≤ c.toNat ∧ c.toNat ≤ 126)) = true →
        ∀ c ∈ word.toList, IsVisible c := by
    intro word hall c hc
    have hrange : 33 ≤ c.toNat ∧ c.toNat ≤ 126 := of_decide_eq_true (List.all_eq_true.mp hall c hc)
    exact hrange
  cases x with
  | nan => exact hword "NaN" (by decide)
  | infinity negative =>
      cases negative with
      | false => exact hword "Infinity" (by decide)
      | true => exact hword "-Infinity" (by decide)
  | finite value =>
      rw [text]
      split
      · exact hword "0" (by decide)
      · split
        · rw [String.toList_ofList, List.forall_mem_cons]
          refine ⟨?_, hpositive _⟩
          unfold IsVisible
          decide
        · rw [String.toList_ofList]
          exact hpositive _

end Number
end Lib
end NestBase
