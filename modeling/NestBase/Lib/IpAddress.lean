import NestBase.Lib.Text
import Mathlib.Data.List.Infix
import Mathlib.Tactic

/-!
# IP addresses and their printed forms

An address is a number below `2 ^ 32` or `2 ^ 128`, and a range is a network with
the length of its prefix.  The printed forms are those of the URL standard: an
IPv4 address as its four octets in decimal with dots between them, an IPv6
address as its eight pieces in hexadecimal with the first longest run of zero
pieces compressed.

A printed IPv4 address starts with some octets and a dot exactly when these are
its first octets (`prefix_dotted_iff`), so a range that ends at an octet is a
prefix of text.
-/

namespace NestBase
namespace Lib
namespace IpAddress

/-! ## Addresses and ranges -/

structure IPv4 where
  value : Nat
  bound : value < 2 ^ 32
  deriving DecidableEq

structure IPv6 where
  value : Nat
  bound : value < 2 ^ 128

/-- The addresses that agree with `network` in their first `length` bits. -/
structure Cidr where
  network : Nat
  length : Nat

def Cidr.Contains (bits : Nat) (range : Cidr) (value : Nat) : Prop :=
  value / 2 ^ (bits - range.length) = range.network / 2 ^ (bits - range.length)

instance (bits : Nat) (range : Cidr) (value : Nat) : Decidable (range.Contains bits value) :=
  inferInstanceAs (Decidable (_ = _))

def ofOctets (a b c d : Nat) : Nat :=
  ((a * 256 + b) * 256 + c) * 256 + d

def IPv4.octets (address : IPv4) : List Nat :=
  [address.value / 2 ^ 24, address.value / 2 ^ 16 % 256, address.value / 2 ^ 8 % 256,
    address.value % 256]

def IPv6.pieces (address : IPv6) : List Nat :=
  [address.value / 2 ^ 112, address.value / 2 ^ 96 % 65536, address.value / 2 ^ 80 % 65536,
    address.value / 2 ^ 64 % 65536, address.value / 2 ^ 48 % 65536,
    address.value / 2 ^ 32 % 65536, address.value / 2 ^ 16 % 65536, address.value % 65536]

/-- The IPv4 address of an IPv4-mapped address. -/
def IPv6.mapped (address : IPv6) : Option IPv4 :=
  if address.value / 2 ^ 32 = 0xFFFF then
    some ⟨address.value % 2 ^ 32, Nat.mod_lt _ (by decide)⟩
  else none

/-! ## Printed forms -/

/-- Numbers in decimal with dots between them. -/
def dotted : List Nat → List Char
  | [] => []
  | [n] => (toString n).toList
  | n :: rest => (toString n).toList ++ '.' :: dotted rest

def IPv4.serialise (address : IPv4) : String :=
  String.ofList (dotted address.octets)

/-- The length of the run of zeros at the front. -/
def zeroRun : List Nat → Nat
  | 0 :: rest => zeroRun rest + 1
  | _ => 0

/-- Where the first longest run of at least two zero pieces starts. -/
def compressAt (pieces : List Nat) : Option Nat :=
  let longest := (pieces.tails.map zeroRun).foldl max 0
  if longest ≤ 1 then none
  else pieces.tails.findIdx? fun rest => zeroRun rest = longest

/-- The pieces from one index on; `ignore0` says that a compressed run is being passed. -/
def printPieces (compress : Option Nat) : Bool → Nat → List Nat → List Char
  | _, _, [] => []
  | ignore0, index, piece :: rest =>
      if ignore0 && piece == 0 then printPieces compress true (index + 1) rest
      else if compress = some index then
        (if index = 0 then [':', ':'] else [':']) ++
          printPieces compress true (index + 1) rest
      else
        Nat.toDigits 16 piece ++ (if index = 7 then [] else [':']) ++
          printPieces compress false (index + 1) rest

def IPv6.serialise (address : IPv6) : String :=
  String.ofList (printPieces (compressAt address.pieces) false 0 address.pieces)

/-! ## The characters of printed forms -/

theorem mem_dotted {numbers : List Nat} {c : Char} (h : c ∈ dotted numbers) :
    c.isDigit = true ∨ c = '.' := by
  induction numbers using dotted.induct with
  | case1 => cases h
  | case2 n => exact Or.inl (Text.isDigit_of_mem_toString h)
  | case3 n rest hne ih =>
      rw [dotted] at h
      · rcases List.mem_append.mp h with hfirst | hrest
        · exact Or.inl (Text.isDigit_of_mem_toString hfirst)
        · rcases List.mem_cons.mp hrest with rfl | hmem
          · exact Or.inr rfl
          · exact ih hmem
      · exact hne

/-- The digits of a printed piece. -/
def hexDigits : List Char :=
  "0123456789abcdef".toList

theorem digitChar_mem_hexDigits {d : Nat} (h : d < 16) : Nat.digitChar d ∈ hexDigits := by
  have hall : ∀ d ∈ List.range 16, Nat.digitChar d ∈ hexDigits := by decide
  exact hall d (List.mem_range.mpr h)

theorem mem_hexDigits_of_mem_toDigits {n : Nat} {c : Char} (h : c ∈ Nat.toDigits 16 n) :
    c ∈ hexDigits := by
  induction n using Nat.strongRecOn with
  | ind n ih =>
      rw [Nat.toDigits_eq_if (by decide)] at h
      split at h
      · next hsmall =>
        rw [List.mem_singleton.mp h]
        exact digitChar_mem_hexDigits hsmall
      · next hlarge =>
        rcases List.mem_append.mp h with hfront | hlast
        · exact ih (n / 16) (by omega) hfront
        · rw [List.mem_singleton.mp hlast]
          exact digitChar_mem_hexDigits (Nat.mod_lt n (by decide))

theorem mem_printPieces
    {compress : Option Nat} {ignore0 : Bool} {index : Nat} {pieces : List Nat} {c : Char}
    (h : c ∈ printPieces compress ignore0 index pieces) :
    c ∈ hexDigits ∨ c = ':' := by
  induction pieces generalizing ignore0 index with
  | nil => cases h
  | cons piece rest ih =>
      rw [printPieces] at h
      split at h
      · exact ih h
      · split at h
        · rcases List.mem_append.mp h with hcolon | hrest
          · refine Or.inr ?_
            split at hcolon <;> simpa using hcolon
          · exact ih hrest
        · rcases List.mem_append.mp h with hfront | hrest
          · rcases List.mem_append.mp hfront with hpiece | hcolon
            · exact Or.inl (mem_hexDigits_of_mem_toDigits hpiece)
            · refine Or.inr ?_
              split at hcolon
              · cases hcolon
              · simpa using hcolon
          · exact ih hrest

/-! ## Prefixes of printed IPv4 addresses -/

theorem dot_not_mem_toString (n : Nat) : '.' ∉ (toString n).toList := by
  intro h
  have hdigit := Text.isDigit_of_mem_toString h
  exact absurd hdigit (by decide)

/-- Octets, each followed by a dot. -/
def dottedPrefix (numbers : List Nat) : List Char :=
  numbers.flatMap fun n => (toString n).toList ++ ['.']

/-- The text starts with some octets and a dot when the address starts with these octets. -/
theorem prefix_dotted_iff {first numbers : List Nat} (hshort : first.length < numbers.length) :
    dottedPrefix first <+: dotted numbers ↔ first <+: numbers := by
  induction first generalizing numbers with
  | nil => simp [dottedPrefix]
  | cons k first ih =>
      match numbers, hshort with
      | n :: m :: rest, hshort =>
          have hlong : first.length < (m :: rest).length := by
            simp only [List.length_cons] at hshort ⊢
            omega
          have hfront :
              dottedPrefix (k :: first) = (toString k).toList ++ '.' :: dottedPrefix first := by
            simp [dottedPrefix]
          have hdotted : dotted (n :: m :: rest) = (toString n).toList ++ '.' :: dotted (m :: rest) :=
            rfl
          rw [hfront, hdotted, List.cons_prefix_cons]
          constructor
          · rintro ⟨tail, htail⟩
            rw [List.append_assoc, List.cons_append] at htail
            obtain ⟨hn, hrest⟩ :=
              Text.append_cons_inj (dot_not_mem_toString k) (dot_not_mem_toString n) htail
            exact ⟨Text.toString_inj hn, (ih hlong).mp ⟨tail, hrest⟩⟩
          · rintro ⟨rfl, hrest⟩
            exact (List.prefix_append_right_inj _).mpr
              (List.cons_prefix_cons.mpr ⟨rfl, (ih hlong).mpr hrest⟩)

/-- Different lists of as many numbers print differently. -/
theorem dotted_inj {xs ys : List Nat} (hlength : xs.length = ys.length)
    (h : dotted xs = dotted ys) :
    xs = ys := by
  induction xs using dotted.induct generalizing ys with
  | case1 => exact (List.length_eq_zero_iff.mp hlength.symm).symm
  | case2 n =>
      obtain ⟨m, rfl⟩ := List.length_eq_one_iff.mp hlength.symm
      exact congrArg (fun k => [k]) (Text.toString_inj h)
  | case3 n rest hne ih =>
      match ys, hlength with
      | [m], hlength =>
          have hrest : rest = [] := by simpa using hlength
          exact absurd hrest hne
      | m :: k :: ys, hlength =>
          rw [dotted] at h
          · obtain ⟨hm, hys⟩ :=
              Text.append_cons_inj (dot_not_mem_toString n) (dot_not_mem_toString m) h
            have hrest : rest = k :: ys := ih (by simpa using hlength) hys
            rw [Text.toString_inj hm, hrest]
          · exact hne

/-! ## The front of printed IPv6 addresses -/

theorem toDigits_four {n : Nat} (hlow : 4096 ≤ n) (hhigh : n < 65536) :
    Nat.toDigits 16 n =
      [Nat.digitChar (n / 4096), Nat.digitChar (n / 256 % 16), Nat.digitChar (n / 16 % 16),
        Nat.digitChar (n % 16)] := by
  have hthird : n / 16 / 16 = n / 256 := by omega
  have hsecond : n / 256 / 16 = n / 4096 := by omega
  rw [Nat.toDigits_of_base_le (by decide) (by omega),
    Nat.toDigits_of_base_le (by decide) (by omega), hthird,
    Nat.toDigits_of_base_le (by decide) (by omega), hsecond,
    Nat.toDigits_of_lt_base (by omega)]
  rfl

/-- A first piece that is not zero is not compressed. -/
theorem compressAt_ne_zero {piece : Nat} {rest : List Nat} (hpiece : piece ≠ 0) :
    compressAt (piece :: rest) ≠ some 0 := by
  unfold compressAt
  dsimp only
  split
  · simp
  · next hlong =>
    have hrun : zeroRun (piece :: rest) = 0 := by
      unfold zeroRun
      split
      · next heq => exact absurd (List.cons.inj heq).1 hpiece
      · rfl
    rw [List.tails_cons, List.findIdx?_cons, hrun]
    split
    · next heq =>
      have hzero := of_decide_eq_true heq
      rw [List.tails_cons] at hlong
      omega
    · intro h
      obtain ⟨index, -, hindex⟩ := Option.map_eq_some_iff.mp h
      omega

/-- An address whose first piece is not zero is printed from this piece on. -/
theorem printPieces_cons_of_ne_zero {piece : Nat} (hpiece : piece ≠ 0) (rest : List Nat) :
    ∃ tail, printPieces (compressAt (piece :: rest)) false 0 (piece :: rest) =
      Nat.toDigits 16 piece ++ ':' :: tail := by
  refine ⟨printPieces (compressAt (piece :: rest)) false 1 rest, ?_⟩
  rw [printPieces, if_neg (by simp), if_neg (compressAt_ne_zero hpiece), if_neg (by decide),
    List.append_assoc]
  rfl

theorem zeroRun_le_length (pieces : List Nat) : zeroRun pieces ≤ pieces.length := by
  induction pieces with
  | nil => exact le_rfl
  | cons piece rest ih =>
      unfold zeroRun
      split
      · next heq =>
        obtain ⟨-, rfl⟩ := List.cons.inj heq
        simpa using ih
      · exact Nat.zero_le _

/-- The pieces of an IPv4-mapped address. -/
theorem pieces_of_mapped {address : IPv6} (h : address.value / 2 ^ 32 = 0xFFFF) :
    address.pieces =
      [0, 0, 0, 0, 0, 0xFFFF, address.value / 2 ^ 16 % 65536, address.value % 65536] := by
  unfold IPv6.pieces
  simp only [List.cons.injEq, and_true]
  omega

/-- Of an IPv4-mapped address the first five pieces are compressed. -/
theorem printPieces_of_mapped (a b : Nat) :
    ∃ tail, printPieces (compressAt [0, 0, 0, 0, 0, 0xFFFF, a, b]) false 0
        [0, 0, 0, 0, 0, 0xFFFF, a, b] =
      "::ffff:".toList ++ tail := by
  have ha : zeroRun [a, b] ≤ 2 := zeroRun_le_length [a, b]
  have hb : zeroRun [b] ≤ 1 := zeroRun_le_length [b]
  have hcompress : compressAt [0, 0, 0, 0, 0, 0xFFFF, a, b] = some 0 := by
    have hlongest :
        ([0, 0, 0, 0, 0, 0xFFFF, a, b].tails.map zeroRun).foldl max 0 = 5 := by
      change [5, 4, 3, 2, 1, 0, zeroRun [a, b], zeroRun [b], 0].foldl max 0 = 5
      simp only [List.foldl_cons, List.foldl_nil]
      omega
    unfold compressAt
    dsimp only
    rw [hlongest]
    rfl
  rw [hcompress]
  exact ⟨_, rfl⟩

end IpAddress
end Lib
end NestBase
