import NestBase.Lib.IpAddress
import Mathlib.Data.List.Sections

/-!
# The addresses a webhook may not target

`validateWebhookUrl` rejects a URL by the text of its host.  Ranges of addresses
are tested as prefixes of that text.

The text of an IPv4 host is its octets in decimal, so a pattern that ends at an
octet is a range of addresses.  One range does not end at an octet and is tested
as if it did: of 100.64.0.0/10 only 100.64.0.0/16 is rejected.  And an
IPv4-mapped host is printed in hexadecimal, which no pattern of an IPv4 range
matches.
-/

namespace NestBase
namespace WebhookUrlValidator

open Lib
open Lib.IpAddress

/-! ## The validator -/

structure InvalidWebhookUrlError where
  message : String
  deriving DecidableEq

/-- What the code reads of a parsed URL. -/
structure URL where
  protocol : String
  hostname : String
  deriving DecidableEq

/-- A pattern of one set of characters for each place, matched at the start of a text. -/
def matchesAt : List (List Char) → List Char → Bool
  | [], _ => true
  | _ :: _, [] => false
  | allowed :: pattern, c :: rest => allowed.contains c && matchesAt pattern rest

/-- A text as a pattern. -/
def literal (s : String) : List (List Char) :=
  s.toList.map fun c => [c]

def digit : List Char :=
  "0123456789".toList

/-- `[0-9a-f]` in a pattern that ignores case. -/
def hexDigit : List Char :=
  "0123456789abcdefABCDEF".toList

/-- `1[6-9]|2\d|3[01]` -/
def from16To31 : List (List (List Char)) :=
  [[['1'], ['6', '7', '8', '9']], [['2'], digit], [['3'], ['0', '1']]]

/-- A pattern that may stand after an opening bracket. -/
def bracketed (pattern : List (List Char)) (hostname : String) : Bool :=
  matchesAt pattern hostname.toList || matchesAt (['['] :: pattern) hostname.toList

def BLOCKED_HOSTNAME_PATTERNS : List (String → Bool) :=
  [ fun hostname => hostname == "localhost",
    fun hostname => Text.startsWith hostname "127.",
    fun hostname => hostname == "::1" || hostname == "[::1]",
    fun hostname => hostname == "0.0.0.0",
    fun hostname => Text.startsWith hostname "10.",
    fun hostname => from16To31.any fun second =>
      matchesAt (literal "172." ++ second ++ literal ".") hostname.toList,
    fun hostname => Text.startsWith hostname "192.168.",
    fun hostname => Text.startsWith hostname "169.254.",
    -- AWS / GCP / Azure instance-metadata endpoints
    fun hostname => Text.startsWith hostname "metadata.",
    -- Carrier-grade NAT (RFC 6598)
    fun hostname => Text.startsWith hostname "100.64.",
    -- IPv6 ULA (fc00::/7) and link-local (fe80::/10)
    bracketed [['f', 'F'], ['c', 'C'], hexDigit, hexDigit, [':']],
    bracketed [['f', 'F'], ['d', 'D'], hexDigit, hexDigit, [':']],
    bracketed [['f', 'F'], ['e', 'E'], ['8', '9', 'a', 'b', 'A', 'B'], hexDigit, [':']] ]

def blocked (hostname : String) : Bool :=
  BLOCKED_HOSTNAME_PATTERNS.any fun pattern => pattern hostname

/-- `parse` is `new URL`, `none` where it throws; it returns hosts in ASCII. -/
def validateWebhookUrl (parse : String → Option URL) (url : String) :
    Except InvalidWebhookUrlError Unit :=
  match parse url with
  | none => .error { message := "Invalid URL: " ++ url }
  | some parsed =>
      if parsed.protocol ∉ ["http:", "https:"] then
        .error
          { message :=
              "Only http/https allowed for webhook URLs (got \"" ++ parsed.protocol ++ "\")" }
      else
        let hostname := Text.asciiLowerCase parsed.hostname
        if blocked hostname then
          .error
            { message :=
                "Blocked hostname \"" ++ hostname ++
                  "\" — webhook URLs must not target internal/private networks" }
        else .ok ()

/-! ## The ranges it names -/

/-- The hosts that are addresses. -/
inductive IpHost where
  | ipv4 (address : IPv4)
  | ipv6 (address : IPv6)

/-- The host of a parsed URL: IPv6 addresses stand in brackets. -/
def IpHost.serialise : IpHost → String
  | ipv4 address => address.serialise
  | ipv6 address => "[" ++ address.serialise ++ "]"

def carrierGradeNat : Cidr := ⟨ofOctets 100 64 0 0, 10⟩

def namedRanges : List Cidr :=
  [ ⟨ofOctets 127 0 0 0, 8⟩, ⟨ofOctets 10 0 0 0, 8⟩, ⟨ofOctets 172 16 0 0, 12⟩,
    ⟨ofOctets 192 168 0 0, 16⟩, ⟨ofOctets 169 254 0 0, 16⟩, carrierGradeNat,
    ⟨ofOctets 0 0 0 0, 32⟩ ]

def NamedIPv4 (address : IPv4) : Prop :=
  ∃ range ∈ namedRanges, range.Contains 32 address.value

def uniqueLocal : Cidr := ⟨0xfc00 * 2 ^ 112, 7⟩

def linkLocal : Cidr := ⟨0xfe80 * 2 ^ 112, 10⟩

/-- The address is an IPv4-mapped form of one in the ranges. -/
def MapsNamed (address : IPv6) : Prop :=
  ∃ mapped, address.mapped = some mapped ∧ NamedIPv4 mapped

def Named : IpHost → Prop
  | .ipv4 address => NamedIPv4 address
  | .ipv6 address =>
      address.value = 1 ∨ uniqueLocal.Contains 128 address.value ∨
        linkLocal.Contains 128 address.value ∨ MapsNamed address

/-- Hosts in the ranges are rejected, and all other IPv4 hosts are accepted. -/
def Covered (parse : String → Option URL) (url : String) (protocol : String) (host : IpHost) :
    Prop :=
  (Named host → ∃ error, validateWebhookUrl parse url = .error error) ∧
  ∀ address, host = .ipv4 address → ¬ NamedIPv4 address →
    protocol ∈ ["http:", "https:"] → validateWebhookUrl parse url = .ok ()

/-- The hosts in the ranges that the patterns do not match. -/
def Missed : IpHost → Prop
  | .ipv4 address =>
      carrierGradeNat.Contains 32 address.value ∧
        ¬ (Cidr.mk (ofOctets 100 64 0 0) 16).Contains 32 address.value
  | .ipv6 address => MapsNamed address

/-! ## Patterns -/

variable {rest : List Char}
variable {c : Char}
variable {pattern : List (List Char)}

theorem matchesAt_cons_iff {allowed : List Char} :
    matchesAt (allowed :: pattern) (c :: rest) = true ↔
      c ∈ allowed ∧ matchesAt pattern rest = true := by
  simp [matchesAt]

/-- A pattern matches a text that starts with one of its words. -/
theorem matchesAt_iff {text : List Char} :
    matchesAt pattern text = true ↔ ∃ word ∈ pattern.sections, word <+: text := by
  induction pattern generalizing text with
  | nil => simp [matchesAt]
  | cons allowed pattern ih =>
      cases text with
      | nil =>
          simp only [matchesAt, Bool.false_eq_true, List.prefix_nil, List.mem_sections, false_iff,
            not_exists, not_and]
          rintro word hword rfl
          cases hword
      | cons c rest =>
          rw [matchesAt_cons_iff, ih]
          constructor
          · rintro ⟨hc, word, hword, hfront⟩
            refine ⟨c :: word, ?_, List.cons_prefix_cons.mpr ⟨rfl, hfront⟩⟩
            exact List.mem_sections.mpr (List.Forall₂.cons hc (List.mem_sections.mp hword))
          · rintro ⟨word, hword, hfront⟩
            cases List.mem_sections.mp hword with
            | cons hd hword =>
                obtain ⟨rfl, hrest⟩ := List.cons_prefix_cons.mp hfront
                exact ⟨hd, _, List.mem_sections.mpr hword, hrest⟩

/-- The words of the pattern for 172.16.0.0/12 are the second octets 16 to 31. -/
theorem words_from16To31 :
    from16To31.flatMap (fun second => (literal "172." ++ second ++ literal ".").sections) =
      (List.range' 16 16).map fun k => dottedPrefix [172, k] := by
  rfl

theorem matches_from16To31_iff {text : List Char} :
    (from16To31.any fun second => matchesAt (literal "172." ++ second ++ literal ".") text) =
        true ↔
      ∃ k, 16 ≤ k ∧ k < 32 ∧ dottedPrefix [172, k] <+: text := by
  have hwords : ∀ word,
      (∃ second ∈ from16To31, word ∈ (literal "172." ++ second ++ literal ".").sections) ↔
        ∃ k, (16 ≤ k ∧ k < 32) ∧ dottedPrefix [172, k] = word := by
    intro word
    have hmem : word ∈ from16To31.flatMap
        (fun second => (literal "172." ++ second ++ literal ".").sections) ↔
        word ∈ (List.range' 16 16).map fun k => dottedPrefix [172, k] := by
      rw [words_from16To31]
    simpa only [List.mem_flatMap, List.mem_map, List.mem_range'_1] using hmem
  rw [List.any_eq_true]
  simp only [matchesAt_iff]
  constructor
  · rintro ⟨second, hsecond, word, hword, hfront⟩
    obtain ⟨k, ⟨hlow, hhigh⟩, rfl⟩ := (hwords word).mp ⟨second, hsecond, hword⟩
    exact ⟨k, hlow, hhigh, hfront⟩
  · rintro ⟨k, hlow, hhigh, hfront⟩
    obtain ⟨second, hsecond, hword⟩ := (hwords _).mpr ⟨k, ⟨hlow, hhigh⟩, rfl⟩
    exact ⟨second, hsecond, _, hword, hfront⟩

/-! ## IPv4 hosts -/

theorem asciiLowerCase_eq_self {text : List Char} (h : ∀ c ∈ text, c.toLower = c) :
    Text.asciiLowerCase (String.ofList text) = String.ofList text := by
  unfold Text.asciiLowerCase
  rw [String.toList_ofList, List.map_congr_left h, List.map_id']

theorem toLower_of_isDigit (h : c.isDigit = true) : c.toLower = c := by
  simp only [Char.isDigit, Bool.and_eq_true, decide_eq_true_eq] at h
  unfold Char.toLower
  rw [dif_neg]
  rintro ⟨hlow, -⟩
  exact absurd (UInt32.le_trans hlow h.2) (by decide)

theorem asciiLowerCase_ipv4 (address : IPv4) :
    Text.asciiLowerCase address.serialise = address.serialise := by
  refine asciiLowerCase_eq_self ?_
  intro c hc
  rcases mem_dotted hc with hdigit | rfl
  · exact toLower_of_isDigit hdigit
  · rfl

/-- A printed IPv4 address starts with a digit. -/
theorem dotted_octets_eq_cons (address : IPv4) :
    ∃ c rest, dotted address.octets = c :: rest ∧ c.isDigit = true := by
  have hfirst : dotted address.octets =
      (toString (address.value / 2 ^ 24)).toList ++ '.' :: dotted (address.octets.tail) := rfl
  cases hdigits : (toString (address.value / 2 ^ 24)).toList with
  | nil => exact absurd hdigits (Text.toString_ne_nil _)
  | cons c rest =>
      rw [hdigits, List.cons_append] at hfirst
      refine ⟨c, _, hfirst, Text.isDigit_of_mem_toString (n := address.value / 2 ^ 24) ?_⟩
      rw [hdigits]
      exact List.mem_cons_self

theorem ne_of_isDigit {d : Char} (hc : c.isDigit = true) (hd : d.isDigit = false) : d ≠ c := by
  rintro rfl
  rw [hc] at hd
  cases hd

/-- A pattern whose first place has no digit does not match a text that starts with one. -/
theorem matchesAt_of_isDigit
    {allowed : List Char}
    (hc : c.isDigit = true)
    (hallowed : (allowed.all fun d => !d.isDigit) = true) :
    matchesAt (allowed :: pattern) (c :: rest) = false := by
  have hfree : c ∉ allowed := by
    intro hmem
    have hother := List.all_eq_true.mp hallowed c hmem
    rw [hc] at hother
    cases hother
  simp [matchesAt, hfree]

theorem bracketed_of_isDigit
    {allowed : List Char}
    (hc : c.isDigit = true)
    (hallowed : (allowed.all fun d => !d.isDigit) = true) :
    bracketed (allowed :: pattern) (String.ofList (c :: rest)) = false := by
  unfold bracketed
  rw [String.toList_ofList, matchesAt_of_isDigit hc hallowed, Bool.false_or]
  exact matchesAt_of_isDigit hc (by decide)

theorem startsWith_iff {text : List Char} {word : String} :
    Text.startsWith (String.ofList text) word = true ↔ word.toList <+: text := by
  unfold Text.startsWith
  rw [String.toList_ofList]
  exact List.isPrefixOf_iff_prefix

/-- The octets of the IPv4 hosts that the patterns match. -/
def MatchedOctets (octets : List Nat) : Prop :=
  [127] <+: octets ∨ octets = [0, 0, 0, 0] ∨ [10] <+: octets ∨
    (∃ k, 16 ≤ k ∧ k < 32 ∧ [172, k] <+: octets) ∨ [192, 168] <+: octets ∨
      [169, 254] <+: octets ∨ [100, 64] <+: octets

theorem blocked_ipv4_iff (address : IPv4) :
    blocked address.serialise = true ↔ MatchedOctets address.octets := by
  obtain ⟨c, rest, hcons, hc⟩ := dotted_octets_eq_cons address
  have hother : ∀ word : String, (∃ d tail, word.toList = d :: tail ∧ d.isDigit = false) →
      (address.serialise == word) = false := by
    rintro word ⟨d, tail, hword, hd⟩
    rw [beq_eq_false_iff_ne]
    intro heq
    have htext := congrArg String.toList heq
    rw [IPv4.serialise, String.toList_ofList, hcons, hword] at htext
    exact ne_of_isDigit hc hd (List.cons.inj htext).1.symm
  have hmetadata : Text.startsWith address.serialise "metadata." = false := by
    rw [Bool.eq_false_iff, IPv4.serialise, Ne, startsWith_iff, hcons]
    intro hfront
    exact ne_of_isDigit hc (by decide) (List.cons_prefix_cons.mp hfront).1
  have hzero : address.serialise == "0.0.0.0" ↔ address.octets = [0, 0, 0, 0] := by
    have hword : "0.0.0.0" = String.ofList (dotted [0, 0, 0, 0]) := by rfl
    rw [beq_iff_eq, hword, IPv4.serialise, String.ofList_inj]
    exact ⟨fun h => dotted_inj rfl h, fun h => congrArg dotted h⟩
  have hfront : ∀ (word : String) (first : List Nat), word.toList = dottedPrefix first →
      first.length < 4 → (Text.startsWith address.serialise word = true ↔ first <+: address.octets) := by
    intro word first hword hshort
    rw [IPv4.serialise, startsWith_iff, hword]
    exact prefix_dotted_iff hshort
  have hsecond : ∀ k, dottedPrefix [172, k] <+: dotted address.octets ↔
      [172, k] <+: address.octets := fun k => prefix_dotted_iff (by simp [IPv4.octets])
  have htext : address.serialise.toList = dotted address.octets := String.toList_ofList
  have hhex : ∀ pattern : List (List Char),
      bracketed (['f', 'F'] :: pattern) address.serialise = false := by
    intro pattern
    rw [IPv4.serialise, hcons]
    exact bracketed_of_isDigit hc (by decide)
  unfold blocked BLOCKED_HOSTNAME_PATTERNS MatchedOctets
  simp only [List.any_cons, List.any_nil, Bool.or_eq_true, Bool.or_false]
  rw [hother "localhost" ⟨'l', _, rfl, by decide⟩, hother "::1" ⟨':', _, rfl, by decide⟩,
    hother "[::1]" ⟨'[', _, rfl, by decide⟩, hzero, hmetadata, hhex, hhex, hhex, htext,
    matches_from16To31_iff, hfront "127." [127] (by rfl) (by decide),
    hfront "10." [10] (by rfl) (by decide),
    hfront "192.168." [192, 168] (by rfl) (by decide),
    hfront "169.254." [169, 254] (by rfl) (by decide),
    hfront "100.64." [100, 64] (by rfl) (by decide)]
  simp only [hsecond, Bool.false_eq_true, false_or, or_false]

theorem matchedOctets_iff_value (address : IPv4) :
    MatchedOctets address.octets ↔
      address.value / 2 ^ 24 = 127 ∨ address.value = 0 ∨ address.value / 2 ^ 24 = 10 ∨
        address.value / 2 ^ 20 = 2753 ∨ address.value / 2 ^ 16 = 49320 ∨
          address.value / 2 ^ 16 = 43518 ∨ address.value / 2 ^ 16 = 25664 := by
  have hbound := address.bound
  unfold MatchedOctets IPv4.octets
  simp only [List.cons_prefix_cons, List.nil_prefix, and_true, List.cons.injEq]
  have hsecond :
      (∃ k, 16 ≤ k ∧ k < 32 ∧ 172 = address.value / 2 ^ 24 ∧
          k = address.value / 2 ^ 16 % 256) ↔
        address.value / 2 ^ 20 = 2753 := by
    constructor
    · rintro ⟨k, hlow, hhigh, hfirst, rfl⟩
      omega
    · intro h
      refine ⟨_, ?_, ?_, ?_, rfl⟩ <;> omega
  rw [hsecond]
  omega

theorem namedIPv4_iff_value (address : IPv4) :
    NamedIPv4 address ↔
      address.value / 2 ^ 24 = 127 ∨ address.value / 2 ^ 24 = 10 ∨
        address.value / 2 ^ 20 = 2753 ∨ address.value / 2 ^ 16 = 49320 ∨
          address.value / 2 ^ 16 = 43518 ∨ address.value / 2 ^ 22 = 401 ∨ address.value = 0 := by
  simp [NamedIPv4, namedRanges, carrierGradeNat, Cidr.Contains, ofOctets]

theorem missed_ipv4_iff_value (address : IPv4) :
    Missed (.ipv4 address) ↔ address.value / 2 ^ 22 = 401 ∧ address.value / 2 ^ 16 ≠ 25664 := by
  simp [Missed, carrierGradeNat, Cidr.Contains, ofOctets]

/-- The patterns match the IPv4 hosts in the ranges that are not missed. -/
theorem blocked_ipv4_iff_named (address : IPv4) :
    blocked address.serialise = true ↔ NamedIPv4 address ∧ ¬ Missed (.ipv4 address) := by
  rw [blocked_ipv4_iff, matchedOctets_iff_value, namedIPv4_iff_value, missed_ipv4_iff_value]
  omega

/-! ## IPv6 hosts -/

theorem toLower_of_mem_hexDigits (h : c ∈ hexDigits) : c.toLower = c := by
  have hall : (hexDigits.all fun c => c.toLower == c) = true := by decide
  exact beq_iff_eq.mp (List.all_eq_true.mp hall c h)

theorem serialise_ipv6 (address : IPv6) :
    (IpHost.ipv6 address).serialise =
      String.ofList
        ('[' :: (printPieces (compressAt address.pieces) false 0 address.pieces ++ [']'])) := by
  rw [IpHost.serialise, IPv6.serialise, ← String.toList_inj]
  simp

theorem asciiLowerCase_serialise (host : IpHost) :
    Text.asciiLowerCase host.serialise = host.serialise := by
  cases host with
  | ipv4 address => exact asciiLowerCase_ipv4 address
  | ipv6 address =>
      rw [serialise_ipv6]
      refine asciiLowerCase_eq_self ?_
      intro c hc
      rcases List.mem_cons.mp hc with rfl | hrest
      · rfl
      · rcases List.mem_append.mp hrest with hmem | hlast
        · rcases mem_printPieces hmem with hhex | rfl
          · exact toLower_of_mem_hexDigits hhex
          · rfl
        · rw [List.mem_singleton.mp hlast]
          rfl

theorem blocked_of_mem
    {hostname : String}
    (pattern : String → Bool)
    (hmem : pattern ∈ BLOCKED_HOSTNAME_PATTERNS)
    (h : pattern hostname = true) :
    blocked hostname = true :=
  List.any_eq_true.mpr ⟨pattern, hmem, h⟩

theorem digitChar_mem_hexDigit {d : Nat} (h : d < 16) : Nat.digitChar d ∈ hexDigit := by
  have hall : ∀ d ∈ List.range 16, Nat.digitChar d ∈ hexDigit := by decide
  exact hall d (List.mem_range.mpr h)

variable {address : IPv6}

/-- A bracketed address whose first piece has the digits of the pattern is matched. -/
theorem bracketed_of_first_piece
    {first second third : List Char}
    (hlow : 4096 ≤ address.value / 2 ^ 112)
    (hfirst : Nat.digitChar (address.value / 2 ^ 112 / 4096) ∈ first)
    (hsecond : Nat.digitChar (address.value / 2 ^ 112 / 256 % 16) ∈ second)
    (hthird : Nat.digitChar (address.value / 2 ^ 112 / 16 % 16) ∈ third) :
    bracketed [first, second, third, hexDigit, [':']] (IpHost.ipv6 address).serialise = true := by
  have hbound := address.bound
  have hpiece : address.value / 2 ^ 112 ≠ 0 := by omega
  obtain ⟨tail, htail⟩ :=
    printPieces_cons_of_ne_zero hpiece address.pieces.tail
  have hpieces : address.value / 2 ^ 112 :: address.pieces.tail = address.pieces := rfl
  rw [hpieces, toDigits_four hlow (by omega)] at htail
  have hlast : Nat.digitChar (address.value / 2 ^ 112 % 16) ∈ hexDigit :=
    digitChar_mem_hexDigit (Nat.mod_lt _ (by decide))
  rw [serialise_ipv6, htail]
  unfold bracketed
  rw [Bool.or_eq_true, String.toList_ofList]
  right
  simp only [List.cons_append, List.nil_append, matchesAt_cons_iff]
  exact ⟨by decide, hfirst, hsecond, hthird, hlast, by decide, rfl⟩

theorem blocked_of_uniqueLocal (h : uniqueLocal.Contains 128 address.value) :
    blocked (IpHost.ipv6 address).serialise = true := by
  have hvalue : address.value / 2 ^ 112 / 512 = 126 := by
    simp only [uniqueLocal, Cidr.Contains] at h
    omega
  have hfirst : address.value / 2 ^ 112 / 4096 = 15 := by omega
  have hthird : Nat.digitChar (address.value / 2 ^ 112 / 16 % 16) ∈ hexDigit :=
    digitChar_mem_hexDigit (Nat.mod_lt _ (by decide))
  have hsecond :
      address.value / 2 ^ 112 / 256 % 16 = 12 ∨ address.value / 2 ^ 112 / 256 % 16 = 13 := by
    omega
  rcases hsecond with hsecond | hsecond
  · refine blocked_of_mem
      (bracketed [['f', 'F'], ['c', 'C'], hexDigit, hexDigit, [':']]) ?_ ?_
    · simp [BLOCKED_HOSTNAME_PATTERNS]
    · refine bracketed_of_first_piece (by omega) ?_ ?_ hthird
      · rw [hfirst]
        decide
      · rw [hsecond]
        decide
  · refine blocked_of_mem
      (bracketed [['f', 'F'], ['d', 'D'], hexDigit, hexDigit, [':']]) ?_ ?_
    · simp [BLOCKED_HOSTNAME_PATTERNS]
    · refine bracketed_of_first_piece (by omega) ?_ ?_ hthird
      · rw [hfirst]
        decide
      · rw [hsecond]
        decide

theorem blocked_of_linkLocal (h : linkLocal.Contains 128 address.value) :
    blocked (IpHost.ipv6 address).serialise = true := by
  have hvalue : address.value / 2 ^ 112 / 64 = 1018 := by
    simp only [linkLocal, Cidr.Contains] at h
    omega
  have hfirst : address.value / 2 ^ 112 / 4096 = 15 := by omega
  have hsecond : address.value / 2 ^ 112 / 256 % 16 = 14 := by omega
  have hthird : 8 ≤ address.value / 2 ^ 112 / 16 % 16 ∧
      address.value / 2 ^ 112 / 16 % 16 < 12 := by
    omega
  have hdigits : ∀ d ∈ List.range 12, 8 ≤ d →
      Nat.digitChar d ∈ ['8', '9', 'a', 'b', 'A', 'B'] := by
    decide
  refine blocked_of_mem
    (bracketed [['f', 'F'], ['e', 'E'], ['8', '9', 'a', 'b', 'A', 'B'], hexDigit, [':']]) ?_ ?_
  · simp [BLOCKED_HOSTNAME_PATTERNS]
  · refine bracketed_of_first_piece (by omega) ?_ ?_ ?_
    · rw [hfirst]
      decide
    · rw [hsecond]
      decide
    · exact hdigits _ (List.mem_range.mpr hthird.2) hthird.1

theorem blocked_loopback : blocked (IpHost.ipv6 ⟨1, by decide⟩).serialise = true := by
  rfl

theorem blocked_of_loopback (h : address.value = 1) :
    blocked (IpHost.ipv6 address).serialise = true := by
  obtain ⟨value, hbound⟩ := address
  change value = 1 at h
  subst h
  exact blocked_loopback

/-- No pattern matches a text that starts as an IPv4-mapped host does. -/
theorem not_blocked_text (rest : List Char) :
    blocked (String.ofList ('[' :: ':' :: ':' :: 'f' :: rest)) = false := by
  have hother : ∀ word : String, (∃ d tail, word.toList = d :: tail ∧ d ≠ '[') →
      (String.ofList ('[' :: ':' :: ':' :: 'f' :: rest) == word) = false := by
    rintro word ⟨d, tail, hword, hd⟩
    rw [beq_eq_false_iff_ne]
    rintro rfl
    rw [String.toList_ofList] at hword
    exact hd (List.cons.inj hword).1.symm
  have hloopback :
      (String.ofList ('[' :: ':' :: ':' :: 'f' :: rest) == "[::1]") = false := by
    rw [beq_eq_false_iff_ne]
    intro heq
    have htext := congrArg String.toList heq
    rw [String.toList_ofList] at htext
    have hfourth : some 'f' = some '1' := congrArg (fun text : List Char => text[3]?) htext
    exact absurd hfourth (by decide)
  have hfront : ∀ word : String, (∃ d tail, word.toList = d :: tail ∧ d ≠ '[') →
      Text.startsWith (String.ofList ('[' :: ':' :: ':' :: 'f' :: rest)) word = false := by
    rintro word ⟨d, tail, hword, hd⟩
    rw [Bool.eq_false_iff, Ne, startsWith_iff, hword]
    intro hfront
    exact hd (List.cons_prefix_cons.mp hfront).1
  have hsecond :
      (from16To31.any fun second => matchesAt (literal "172." ++ second ++ literal ".")
        ('[' :: ':' :: ':' :: 'f' :: rest)) = false := rfl
  have hhex : ∀ pattern : List (List Char),
      bracketed (['f', 'F'] :: pattern) (String.ofList ('[' :: ':' :: ':' :: 'f' :: rest)) =
        false := by
    intro pattern
    unfold bracketed
    rw [String.toList_ofList]
    simp [matchesAt]
  unfold blocked BLOCKED_HOSTNAME_PATTERNS
  simp only [List.any_cons, List.any_nil, String.toList_ofList, hhex, hloopback, hsecond]
  rw [hother "localhost" ⟨'l', _, rfl, by decide⟩, hother "::1" ⟨':', _, rfl, by decide⟩,
    hother "0.0.0.0" ⟨'0', _, rfl, by decide⟩, hfront "127." ⟨'1', _, rfl, by decide⟩,
    hfront "10." ⟨'1', _, rfl, by decide⟩, hfront "192.168." ⟨'1', _, rfl, by decide⟩,
    hfront "169.254." ⟨'1', _, rfl, by decide⟩, hfront "metadata." ⟨'m', _, rfl, by decide⟩,
    hfront "100.64." ⟨'1', _, rfl, by decide⟩]
  rfl

theorem mapped_value {mapped : IPv4} (h : address.mapped = some mapped) :
    address.value / 2 ^ 32 = 0xFFFF := by
  unfold IPv6.mapped at h
  split at h
  · assumption
  · cases h

/-- No pattern matches an IPv4-mapped host. -/
theorem not_blocked_of_mapped {mapped : IPv4} (h : address.mapped = some mapped) :
    blocked (IpHost.ipv6 address).serialise = false := by
  have hvalue := mapped_value h
  obtain ⟨tail, htail⟩ := printPieces_of_mapped (address.value / 2 ^ 16 % 65536)
    (address.value % 65536)
  rw [serialise_ipv6, pieces_of_mapped hvalue, htail]
  exact not_blocked_text _

theorem blocked_ipv6_of_named (hnamed : Named (.ipv6 address)) (hunmapped : ¬ MapsNamed address) :
    blocked (IpHost.ipv6 address).serialise = true := by
  rcases hnamed with hloopback | hlocal | hlink | hmaps
  · exact blocked_of_loopback hloopback
  · exact blocked_of_uniqueLocal hlocal
  · exact blocked_of_linkLocal hlink
  · exact absurd hmaps hunmapped

/-! ## What the validator covers -/

section Validator

variable {parse : String → Option URL}
variable {url protocol : String}
variable {host : IpHost}

/-- A URL is rejected for its protocol or for its host. -/
theorem validateWebhookUrl_rejects_iff
    (hparse : parse url = some { protocol := protocol, hostname := host.serialise }) :
    (∃ error, validateWebhookUrl parse url = .error error) ↔
      protocol ∉ ["http:", "https:"] ∨ blocked host.serialise = true := by
  unfold validateWebhookUrl
  rw [hparse]
  dsimp only
  rw [asciiLowerCase_serialise]
  split
  · next hprotocol => simp [hprotocol]
  · next hprotocol =>
    split
    · next hblocked => simp [hblocked]
    · next hfree => simpa [hfree] using hprotocol

theorem validateWebhookUrl_accepts
    (hparse : parse url = some { protocol := protocol, hostname := host.serialise })
    (hprotocol : protocol ∈ ["http:", "https:"])
    (hfree : blocked host.serialise = false) :
    validateWebhookUrl parse url = .ok () := by
  unfold validateWebhookUrl
  rw [hparse]
  dsimp only
  rw [asciiLowerCase_serialise, if_neg (not_not.mpr hprotocol), hfree]
  rfl

end Validator

/--
The validator covers a URL with an address for its host unless it is an http or
https URL whose host is missed: an address of 100.64.0.0/10 outside
100.64.0.0/16, or an IPv4-mapped form of an address in the ranges.
-/
theorem validateWebhookUrl_covers_iff
    (parse : String → Option URL)
    (url protocol : String)
    (host : IpHost)
    (hparse : parse url = some { protocol := protocol, hostname := host.serialise }) :
    Covered parse url protocol host ↔
      (protocol ∈ ["http:", "https:"] → ¬ Missed host) := by
  constructor
  · rintro ⟨hrejects, -⟩ hprotocol hmissed
    cases host with
    | ipv4 address =>
        have hnamed : Named (.ipv4 address) :=
          ⟨carrierGradeNat, by simp [namedRanges], hmissed.1⟩
        rcases (validateWebhookUrl_rejects_iff hparse).mp (hrejects hnamed) with hother | hblocked
        · exact hother hprotocol
        · exact ((blocked_ipv4_iff_named address).mp hblocked).2 hmissed
    | ipv6 address =>
        rcases (validateWebhookUrl_rejects_iff hparse).mp
          (hrejects (Or.inr (Or.inr (Or.inr hmissed)))) with hother | hblocked
        · exact hother hprotocol
        · obtain ⟨mapped, hmapped, -⟩ := hmissed
          rw [not_blocked_of_mapped hmapped] at hblocked
          cases hblocked
  · intro hseen
    constructor
    · intro hnamed
      rw [validateWebhookUrl_rejects_iff hparse]
      by_cases hprotocol : protocol ∈ ["http:", "https:"]
      · refine Or.inr ?_
        cases host with
        | ipv4 address => exact (blocked_ipv4_iff_named address).mpr ⟨hnamed, hseen hprotocol⟩
        | ipv6 address => exact blocked_ipv6_of_named hnamed (hseen hprotocol)
      · exact Or.inl hprotocol
    · rintro address rfl hfree hprotocol
      refine validateWebhookUrl_accepts hparse hprotocol ?_
      rw [Bool.eq_false_iff]
      intro hblocked
      exact hfree ((blocked_ipv4_iff_named address).mp hblocked).1

/-- `new URL` on a few URLs. -/
def parseSamples (url : String) : Option URL :=
  if url = "http://172.31.255.255/webhook" then
    some { protocol := "http:", hostname := "172.31.255.255" }
  else if url = "http://100.65.0.1/webhook" then
    some { protocol := "http:", hostname := "100.65.0.1" }
  else if url = "http://[::ffff:7f00:1]/webhook" then
    some { protocol := "http:", hostname := "[::ffff:7f00:1]" }
  else none

/-- The last address of 172.16.0.0/12. -/
def lastPrivate : IPv4 := ⟨ofOctets 172 31 255 255, by decide⟩

/-- An address of 100.64.0.0/10 outside 100.64.0.0/16. -/
def carrierAddress : IPv4 := ⟨ofOctets 100 65 0 1, by decide⟩

/-- The IPv4-mapped form of 127.0.0.1. -/
def mappedLoopback : IPv6 := ⟨0xFFFF * 2 ^ 32 + ofOctets 127 0 0 1, by decide⟩

theorem validateWebhookUrl_covers_lastPrivate :
    Covered parseSamples "http://172.31.255.255/webhook" "http:" (.ipv4 lastPrivate) := by
  refine (validateWebhookUrl_covers_iff parseSamples _ _ (.ipv4 lastPrivate)
    (by rfl)).mpr ?_
  intro _ hmissed
  rw [missed_ipv4_iff_value] at hmissed
  exact absurd hmissed.1 (by decide)

theorem validateWebhookUrl_accepts_samples :
    validateWebhookUrl parseSamples "http://100.65.0.1/webhook" = .ok () ∧
      validateWebhookUrl parseSamples "http://[::ffff:7f00:1]/webhook" = .ok () := by
  decide

/-- Two addresses in the ranges are accepted: 100.65.0.1 and the mapped form of 127.0.0.1. -/
theorem not_covered_samples :
    parseSamples "http://100.65.0.1/webhook" =
        some { protocol := "http:", hostname := (IpHost.ipv4 carrierAddress).serialise } ∧
      ¬ Covered parseSamples "http://100.65.0.1/webhook" "http:" (.ipv4 carrierAddress) ∧
    parseSamples "http://[::ffff:7f00:1]/webhook" =
        some { protocol := "http:", hostname := (IpHost.ipv6 mappedLoopback).serialise } ∧
      ¬ Covered parseSamples "http://[::ffff:7f00:1]/webhook" "http:" (.ipv6 mappedLoopback) := by
  obtain ⟨hcarrier, hmapped⟩ := validateWebhookUrl_accepts_samples
  refine ⟨by rfl, ?_, by rfl, ?_⟩
  · rintro ⟨hrejects, -⟩
    obtain ⟨error, herror⟩ := hrejects ⟨carrierGradeNat, by simp [namedRanges], by decide⟩
    rw [hcarrier] at herror
    cases herror
  · rintro ⟨hrejects, -⟩
    have hnamed : MapsNamed mappedLoopback :=
      ⟨⟨ofOctets 127 0 0 1, by decide⟩, by rfl, ⟨_, List.mem_cons_self, by decide⟩⟩
    obtain ⟨error, herror⟩ := hrejects (Or.inr (Or.inr (Or.inr hnamed)))
    rw [hmapped] at herror
    cases herror

end WebhookUrlValidator
end NestBase
