import NestBase.Lib.IpAddress

/-!
# Texts of IP addresses

An IPv4 address is written as four decimal numbers.  An IPv6 address is written as groups of
up to four hexadecimal digits of either case, with leading zeros or without; one `::` may
stand for groups that are zero, and the last two groups may be written as an IPv4 address.

Whatever its spelling, a group without its leading zeros and in lower case is the
hexadecimal form of its value (`canonical_eq`).
-/

namespace NestBase
namespace Lib
namespace AddressText

open IpAddress (hexDigits)

/-! ## Groups of hexadecimal digits -/

section Groups

def hexValue (c : Char) : Option Nat :=
  hexDigits.findIdx? fun digit => digit == c.toLower

/-- The value of hexadecimal digits. -/
def valueOf (digits : List Char) : Nat :=
  digits.foldl (fun value c => 16 * value + (hexValue c).getD 0) 0

structure Group where
  text : List Char
  nonempty : text ≠ []
  length_le : text.length ≤ 4
  hex : ∀ c ∈ text, (hexValue c).isSome = true

def Group.value (group : Group) : Nat :=
  valueOf group.text

/-- Every zero in front of a text but its last character is dropped. -/
def stripZeros (text : List Char) : List Char :=
  text.dropLast.dropWhile (· == '0') ++ text.getLast?.toList

def canonical (text : List Char) : List Char :=
  stripZeros (text.map Char.toLower)

theorem hexValue_cases {c : Char} (h : (hexValue c).isSome = true) :
    ∃ d < 16, hexValue c = some d ∧ c.toLower = Nat.digitChar d := by
  obtain ⟨d, hd⟩ := Option.isSome_iff_exists.mp h
  obtain ⟨hlt, hget, -⟩ := List.findIdx?_eq_some_iff_getElem.mp hd
  have hall : ∀ d (hlt : d < hexDigits.length), hexDigits[d] = Nat.digitChar d := by decide
  refine ⟨d, hlt, hd, ?_⟩
  rw [← hall d hlt]
  exact (beq_iff_eq.mp hget).symm

theorem digitChar_eq_zero_iff {d : Nat} (h : d < 16) : Nat.digitChar d = '0' ↔ d = 0 := by
  have hall : ∀ d < 16, Nat.digitChar d = '0' ↔ d = 0 := by decide
  exact hall d h

theorem valueOf_concat (digits : List Char) (c : Char) :
    valueOf (digits ++ [c]) = 16 * valueOf digits + (hexValue c).getD 0 := by
  rw [valueOf, List.foldl_append]
  rfl

/-- One more digit behind the hexadecimal form of a number. -/
theorem toDigits_concat {n d : Nat} (hd : d < 16) :
    Nat.toDigits 16 (16 * n + d) =
      (if n = 0 then [] else Nat.toDigits 16 n) ++ [Nat.digitChar d] := by
  by_cases hn : n = 0
  · rw [if_pos hn, hn, Nat.mul_zero, Nat.zero_add, Nat.toDigits_of_lt_base hd]
    rfl
  · rw [if_neg hn, Nat.toDigits_of_base_le (by decide) (by omega)]
    congr 3 <;> omega

/-- Without its leading zeros a text is the form of its value, and nothing for 0. -/
theorem dropWhile_zero {digits : List Char} (h : ∀ c ∈ digits, (hexValue c).isSome = true) :
    (digits.map Char.toLower).dropWhile (· == '0') =
      if valueOf digits = 0 then [] else Nat.toDigits 16 (valueOf digits) := by
  induction digits using List.reverseRecOn with
  | nil => rfl
  | append_singleton digits c ih =>
      have hfront := ih fun x hx => h x (List.mem_append_left _ hx)
      obtain ⟨d, hd, hvalue, hlower⟩ := hexValue_cases (h c (by simp))
      have hconcat : valueOf (digits ++ [c]) = 16 * valueOf digits + d := by
        rw [valueOf_concat, hvalue, Option.getD_some]
      rw [List.map_append, List.map_singleton, List.dropWhile_append, hlower, hconcat]
      by_cases hzero : valueOf digits = 0
      · have hiff := digitChar_eq_zero_iff hd
        rw [if_pos hzero] at hfront
        rw [hfront, hzero, Nat.mul_zero, Nat.zero_add, List.isEmpty_nil, if_pos rfl]
        by_cases hdigit : d = 0
        · rw [if_pos hdigit, hiff.mpr hdigit]
          rfl
        · rw [if_neg hdigit, Nat.toDigits_of_lt_base hd,
            List.dropWhile_cons_of_neg (by simpa using fun heq => hdigit (hiff.mp heq))]
      · have hne : Nat.toDigits 16 (valueOf digits) ≠ [] := Nat.toDigits_ne_nil
        have hpositive : 16 * valueOf digits + d ≠ 0 := by omega
        rw [if_neg hzero] at hfront
        rw [hfront, if_neg (by simp [hne]), if_neg hpositive, toDigits_concat hd, if_neg hzero]

/-- The canonical spelling of digits is the hexadecimal form of their value. -/
theorem canonical_eq
    {digits : List Char}
    (hne : digits ≠ [])
    (h : ∀ c ∈ digits, (hexValue c).isSome = true) :
    canonical digits = Nat.toDigits 16 (valueOf digits) := by
  obtain ⟨front, c, rfl⟩ : ∃ front c, digits = front ++ [c] :=
    ⟨_, _, (List.dropLast_concat_getLast hne).symm⟩
  obtain ⟨d, hd, hvalue, hlower⟩ := hexValue_cases (h c (by simp))
  have hfront := dropWhile_zero fun x hx => h x (List.mem_append_left _ hx)
  rw [canonical, stripZeros, List.map_append, List.map_singleton, List.dropLast_concat,
    List.getLast?_concat, Option.toList_some, hfront, valueOf_concat, hvalue, Option.getD_some,
    hlower, toDigits_concat hd]

theorem valueOf_toDigits (n : Nat) : valueOf (Nat.toDigits 16 n) = n := by
  have hdigit : ∀ d < 16, hexValue (Nat.digitChar d) = some d := by decide
  induction n using Nat.strongRecOn with
  | ind n ih =>
      rw [Nat.toDigits_eq_if (by decide)]
      split
      · next hsmall =>
          have hone : valueOf [Nat.digitChar n] = 16 * 0 + (hexValue (Nat.digitChar n)).getD 0 := rfl
          rw [hone, hdigit n hsmall]
          exact Nat.zero_add n
      · next hlarge =>
          rw [valueOf_concat, ih (n / 16) (by omega), hdigit _ (Nat.mod_lt n (by decide))]
          exact Nat.div_add_mod n 16

theorem toDigits_inj {n n' : Nat} (h : Nat.toDigits 16 n = Nat.toDigits 16 n') : n = n' := by
  rw [← valueOf_toDigits n, h, valueOf_toDigits]

end Groups

/-! ## Addresses -/

/-- A number of an IPv4 address. -/
structure Octet where
  text : List Char
  nonempty : text ≠ []
  length_le : text.length ≤ 3
  digits : ∀ c ∈ text, c.isDigit = true
  value_le : Nat.ofDigitChars 10 text 0 ≤ 255

def Octet.value (octet : Octet) : Nat :=
  Nat.ofDigitChars 10 octet.text 0

structure Ipv4Text where
  first : Octet
  second : Octet
  third : Octet
  fourth : Octet

def Ipv4Text.octets (address : Ipv4Text) : List Octet :=
  [address.first, address.second, address.third, address.fourth]

def Ipv4Text.text (address : Ipv4Text) : List Char :=
  ['.'].intercalate (address.octets.map Octet.text)

/-- The groups of an IPv6 address in front of `::` and behind it, if it has one, and the IPv4
address at its end, if it has one. -/
structure Ipv6Text where
  front : List Group
  back : Option (List Group)
  embedded : Option Ipv4Text
  count : match back with
    | none => front.length + 2 * embedded.toList.length = 8
    | some back => front.length + back.length + 2 * embedded.toList.length ≤ 7

namespace Ipv6Text

/-- The parts at the end of the text. -/
def parts (groups : List Group) (embedded : Option Ipv4Text) : List (List Char) :=
  groups.map Group.text ++ embedded.toList.map Ipv4Text.text

def text (address : Ipv6Text) : List Char :=
  match address.back with
  | none => [':'].intercalate (parts address.front address.embedded)
  | some back =>
      [':'].intercalate (address.front.map Group.text) ++
        ':' :: ':' :: [':'].intercalate (parts back address.embedded)

/-- The two pieces of an IPv4 address. -/
def embeddedPieces (embedded : Ipv4Text) : List Nat :=
  [256 * embedded.first.value + embedded.second.value,
    256 * embedded.third.value + embedded.fourth.value]

/-- The eight pieces of 16 bits. -/
def pieces (address : Ipv6Text) : List Nat :=
  let front := address.front.map Group.value
  let back := (address.back.getD []).map Group.value ++ address.embedded.toList.flatMap embeddedPieces
  front ++ List.replicate (8 - front.length - back.length) 0 ++ back

/-- The address stands for an IPv4 address. -/
def isMapped (address : Ipv6Text) : Bool :=
  address.pieces.take 6 == [0, 0, 0, 0, 0, 0xFFFF]

end Ipv6Text

inductive Address where
  | ipv4 (address : Ipv4Text)
  | ipv6 (address : Ipv6Text)

def Address.text : Address → List Char
  | ipv4 address => address.text
  | ipv6 address => address.text

/-- The first 24 bits of an IPv4 address, and the first 64 bits of another one. -/
inductive Network where
  | ipv4 (octets : List Nat)
  | ipv6 (pieces : List Nat)
deriving DecidableEq

def Ipv6Text.network (address : Ipv6Text) : Network :=
  if address.isMapped then
    .ipv4 [address.pieces.getD 6 0 / 256, address.pieces.getD 6 0 % 256,
      address.pieces.getD 7 0 / 256]
  else .ipv6 (address.pieces.take 4)

def Address.network : Address → Network
  | ipv4 address => .ipv4 [address.first.value, address.second.value, address.third.value]
  | ipv6 address => address.network

/-- An IPv6 address whose last groups are written as an IPv4 address. -/
def Address.hasDottedEnd : Address → Bool
  | ipv4 _ => false
  | ipv6 address => address.embedded.isSome

/-- An IPv6 address in hexadecimal digits that stands for an IPv4 address. -/
def Address.isMappedHex : Address → Bool
  | ipv4 _ => false
  | ipv6 address => address.embedded.isNone && address.isMapped

/-! ## The characters of a text -/

section Characters

theorem map_intercalate (f : Char → Char) (sep : List Char) (parts : List (List Char)) :
    (sep.intercalate parts).map f = (sep.map f).intercalate (parts.map (List.map f)) := by
  induction parts with
  | nil => rfl
  | cons part parts ih =>
      cases parts with
      | nil => simp
      | cons next parts =>
          rw [List.intercalate_cons_cons, List.map_append, List.map_append, ih]
          simp only [List.map_cons, List.intercalate_cons_cons]

/-- A group in lower case. -/
def Group.lower (group : Group) : List Char :=
  group.text.map Char.toLower

theorem Group.mem_hexDigits {group : Group} {c : Char} (h : c ∈ group.lower) : c ∈ hexDigits := by
  obtain ⟨d, hd, rfl⟩ := List.mem_map.mp h
  obtain ⟨value, hvalue, -, hlower⟩ := hexValue_cases (group.hex d hd)
  rw [hlower]
  exact IpAddress.digitChar_mem_hexDigits hvalue

theorem Group.lower_ne_nil (group : Group) : group.lower ≠ [] := by
  simpa [Group.lower] using group.nonempty

theorem Group.not_mem_lower {c : Char} (hc : c ∉ hexDigits) (group : Group) : c ∉ group.lower :=
  fun hmem => hc (group.mem_hexDigits hmem)

theorem Group.stripZeros_lower (group : Group) :
    stripZeros group.lower = Nat.toDigits 16 group.value :=
  canonical_eq group.nonempty group.hex

theorem Ipv6Text.length_pieces (address : Ipv6Text) : address.pieces.length = 8 := by
  have hcount := address.count
  have hembedded : (address.embedded.toList.flatMap Ipv6Text.embeddedPieces).length =
      2 * address.embedded.toList.length := by
    cases address.embedded <;> rfl
  unfold Ipv6Text.pieces
  dsimp only
  simp only [List.length_append, List.length_replicate, List.length_map, hembedded]
  split at hcount
  · next hback =>
      rw [hback, Option.getD_none, List.length_nil]
      omega
  · next back hback =>
      rw [hback, Option.getD_some]
      omega

end Characters

end AddressText
end Lib
end NestBase
