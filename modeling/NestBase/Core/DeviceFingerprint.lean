import NestBase.Lib.AddressText
import NestBase.Lib.Number

/-!
# Device fingerprints

`fingerprintSession` digests the user agent of a sign-in and the network of its address, and
`maskIp` gives the network: the first 24 bits of an IPv4 address, the first 64 of an
IPv6 address, the same for every spelling of its groups (`maskIp_eq_iff`).

An IPv6 address with a dotted end passes the gate for neither kind and counts as invalid, so
all of these share one mask, and an IPv4-mapped address in hexadecimal digits is masked as
any other IPv6 address.  `seesNetworks_iff` says which sign-ins this confuses.
-/

namespace NestBase
namespace Core
namespace DeviceFingerprint

open Lib
open Lib.AddressText

inductive FingerprintMode where
  | userAgentAndIpSubnet
  | userAgent
deriving DecidableEq, Repr

def FingerprintMode.text : FingerprintMode → String
  | userAgentAndIpSubnet => "userAgent+ipSubnet"
  | userAgent => "userAgent"

structure FingerprintInput where
  userAgent : Option String
  ip : Option String
  mode : FingerprintMode

def IPV4_PREFIX_OCTETS : Nat := 3

def IPV6_PREFIX_GROUPS : Nat := 4

/-- `IPV4_RE` -/
def isIpv4Shape (text : List Char) : Bool :=
  let segments := text.splitOn '.'
  segments.length == 4 && segments.all fun segment =>
    segment ≠ [] && decide (segment.length ≤ 3) && segment.all Char.isDigit

/-- `text.split("::")` -/
def splitDoubleColon : List Char → List (List Char)
  | [] => [[]]
  | ':' :: ':' :: rest => [] :: splitDoubleColon rest
  | c :: rest => (splitDoubleColon rest).modifyHead (c :: ·)

/-- `part ? part.split(":") : []` -/
def groupsOf (part : Option (List Char)) : List (List Char) :=
  match part with
  | none => []
  | some part => if part = [] then [] else part.splitOn ':'

def isIpv6Char (c : Char) : Bool :=
  IpAddress.hexDigits.contains c || c == ':'

def expandIpv6 (ip : List Char) : Option (List (List Char)) :=
  let lower := ip.map Char.toLower
  if lower = [] ∨ lower.all isIpv6Char = false then none
  else
    let parts := splitDoubleColon lower
    if 2 < parts.length then none
    else
      let head := groupsOf parts[0]?
      let tail := groupsOf parts[1]?
      if 8 < head.length + tail.length then none
      else
        let filled := 8 - head.length - tail.length
        let middle := if parts.length = 2 then List.replicate filled ['0'] else []
        let groups := head ++ middle ++ tail
        if groups.length ≠ 8 then none else some (groups.map stripZeros)

def maskIp (ip : Option String) (mode : FingerprintMode) : List Char :=
  if mode = .userAgent then []
  else
    let trimmed := (Text.trim (ip.getD "")).toList
    if trimmed = [] then "invalid".toList
    else if isIpv4Shape trimmed then
      let octets := (trimmed.splitOn '.').map fun segment => Nat.ofDigitChars 10 segment 0
      if octets.any fun octet => 255 < octet then "invalid".toList
      else IpAddress.dotted (octets.take IPV4_PREFIX_OCTETS) ++ ".0/24".toList
    else
      match expandIpv6 trimmed with
      | none => "invalid".toList
      | some expanded =>
          [':'].intercalate (expanded.take IPV6_PREFIX_GROUPS) ++ "::/64".toList

/-- What is digested: the mode, the user agent and the mask, with bars between them. -/
def composite (input : FingerprintInput) : String :=
  String.ofList (input.mode.text.toList ++ '|' ::
    ((Text.trim (input.userAgent.getD "")).toList ++ '|' :: maskIp input.ip input.mode))

/-- `digest` is SHA-256 in hexadecimal digits. -/
def fingerprintSession (digest : String → String) (input : FingerprintInput) : String :=
  digest (composite input)

/-! ## Splitting at two colons -/

section Splitting

variable {rest : List Char}

theorem splitDoubleColon_cons {c : Char} (h : c ≠ ':' ∨ rest.head? ≠ some ':') :
    splitDoubleColon (c :: rest) = (splitDoubleColon rest).modifyHead (c :: ·) := by
  rw [splitDoubleColon]
  rintro rest' rfl rfl
  simp at h

theorem splitDoubleColon_append {part : List Char} (h : ':' ∉ part) :
    splitDoubleColon (part ++ rest) = (splitDoubleColon rest).modifyHead (part ++ ·) := by
  induction part with
  | nil => cases hsplit : splitDoubleColon rest <;> simp [hsplit]
  | cons c part ih =>
      rw [List.mem_cons, not_or] at h
      rw [List.cons_append, splitDoubleColon_cons (.inl (Ne.symm h.1)), ih h.2,
        List.modifyHead_modifyHead]
      rfl

/-- Groups with single colons between them have no double colon. -/
theorem splitDoubleColon_intercalate
    {parts : List (List Char)}
    (hparts : ∀ part ∈ parts, part ≠ [] ∧ ':' ∉ part) :
    splitDoubleColon ([':'].intercalate parts ++ rest) =
      (splitDoubleColon rest).modifyHead ([':'].intercalate parts ++ ·) := by
  induction parts with
  | nil => cases hsplit : splitDoubleColon rest <;> simp [hsplit]
  | cons part parts ih =>
      obtain ⟨⟨hne, hcolon⟩, hrest⟩ := List.forall_mem_cons.mp hparts
      cases parts with
      | nil => rw [List.intercalate_singleton, splitDoubleColon_append hcolon]
      | cons next parts =>
          obtain ⟨⟨hnext, hnextColon⟩, -⟩ := List.forall_mem_cons.mp hrest
          have hhead : ([':'].intercalate (next :: parts) ++ rest).head? ≠ some ':' := by
            obtain ⟨c, next, rfl⟩ := List.exists_cons_of_ne_nil hnext
            rw [List.mem_cons, not_or] at hnextColon
            cases parts <;> simpa [List.intercalate_cons_cons] using Ne.symm hnextColon.1
          rw [List.intercalate_cons_cons, List.append_assoc, List.append_assoc,
            splitDoubleColon_append hcolon, List.singleton_append, splitDoubleColon_cons (.inr hhead),
            ih hrest, List.modifyHead_modifyHead, List.modifyHead_modifyHead]
          congr 1
          funext front
          simp

end Splitting

/-! ## Masks of addresses -/

section Masks

variable {c : Char}

theorem isIpv6Char_of_mem (h : c ∈ IpAddress.hexDigits) : isIpv6Char c = true := by
  rw [isIpv6Char, List.contains_iff_mem.mpr h, Bool.true_or]

theorem isIpv6Char_colon : ∀ c ∈ [':'], isIpv6Char c = true := by
  simp [isIpv6Char]

/-- Groups joined by colons are split again; no groups make the empty part. -/
theorem groupsOf_intercalate
    {parts : List (List Char)}
    (hparts : ∀ part ∈ parts, part ≠ [] ∧ ':' ∉ part) :
    groupsOf (some ([':'].intercalate parts)) = parts := by
  cases parts with
  | nil => rfl
  | cons part parts =>
      have hne : [':'].intercalate (part :: parts) ≠ [] := by
        have hpart := (hparts part List.mem_cons_self).1
        cases parts <;> simp [List.intercalate_cons_cons, hpart]
      rw [groupsOf, if_neg hne,
        List.splitOn_intercalate _ (fun part hpart => (hparts part hpart).2) (List.cons_ne_nil _ _)]

theorem lower_parts {groups : List Group} :
    ∀ part ∈ groups.map Group.lower, part ≠ [] ∧ ':' ∉ part := by
  intro part hpart
  obtain ⟨group, -, rfl⟩ := List.mem_map.mp hpart
  exact ⟨group.lower_ne_nil, group.not_mem_lower (by decide)⟩

theorem isIpv6Char_intercalate {groups : List Group} :
    ∀ c ∈ [':'].intercalate (groups.map Group.lower), isIpv6Char c = true := by
  refine Text.forall_mem_intercalate isIpv6Char_colon fun part hpart c hc => ?_
  obtain ⟨group, -, rfl⟩ := List.mem_map.mp hpart
  exact isIpv6Char_of_mem (group.mem_hexDigits hc)

variable {address : Ipv6Text}

/-- The lower case of an address in hexadecimal digits, and its parts around `::`. -/
theorem lower_text (hplain : address.embedded = none) :
    (∀ c ∈ address.text.map Char.toLower, isIpv6Char c = true) ∧
      address.text.map Char.toLower ≠ [] ∧
        splitDoubleColon (address.text.map Char.toLower) =
          [':'].intercalate (address.front.map Group.lower) ::
            (address.back.map fun back => [':'].intercalate (back.map Group.lower)).toList := by
  have hjoin (groups : List Group) :
      ([':'].intercalate (groups.map Group.text)).map Char.toLower =
        [':'].intercalate (groups.map Group.lower) := by
    rw [map_intercalate, List.map_map]
    rfl
  have hwhole (groups : List Group) :
      splitDoubleColon ([':'].intercalate (groups.map Group.lower)) =
        [[':'].intercalate (groups.map Group.lower)] := by
    have happend := @splitDoubleColon_intercalate [] _ (@lower_parts groups)
    simpa [splitDoubleColon] using happend
  have hparts (groups : List Group) : Ipv6Text.parts groups none = groups.map Group.text :=
    List.append_nil _
  have hcount := address.count
  unfold Ipv6Text.text
  rw [hplain] at hcount ⊢
  cases hback : address.back with
  | none =>
      rw [hback] at hcount
      have hlength : address.front.length = 8 := hcount
      dsimp only
      rw [hparts, hjoin, hwhole]
      refine ⟨isIpv6Char_intercalate, fun hnil => ?_, rfl⟩
      have hsame := groupsOf_intercalate (@lower_parts address.front)
      rw [hnil] at hsame
      have hzero := congrArg List.length hsame
      rw [List.length_map, hlength] at hzero
      cases hzero
  | some back =>
      dsimp only
      rw [hparts, List.map_append, hjoin, List.map_cons, List.map_cons, hjoin]
      refine ⟨fun c hc => ?_, by simp, ?_⟩
      · rcases List.mem_append.mp hc with hfront | hrest
        · exact isIpv6Char_intercalate c hfront
        · rcases List.mem_cons.mp hrest with rfl | hrest
          · decide
          · rcases List.mem_cons.mp hrest with rfl | hback
            · decide
            · exact isIpv6Char_intercalate c hback
      · have hcolon : Char.toLower ':' = ':' := by decide
        rw [hcolon, splitDoubleColon_intercalate lower_parts, splitDoubleColon, hwhole]
        simp

/-- An address in hexadecimal digits is expanded to its pieces. -/
theorem expandIpv6_text (hplain : address.embedded = none) :
    expandIpv6 address.text = some (address.pieces.map (Nat.toDigits 16)) := by
  obtain ⟨hchars, hne, hsplit⟩ := lower_text hplain
  have hstrip (groups : List Group) :
      (groups.map Group.lower).map stripZeros = (groups.map Group.value).map (Nat.toDigits 16) := by
    rw [List.map_map, List.map_map]
    exact List.map_congr_left fun group _ => group.stripZeros_lower
  have hzeros (n : Nat) : (List.replicate n ['0']).map stripZeros =
      (List.replicate n 0).map (Nat.toDigits 16) := by
    rw [List.map_replicate, List.map_replicate]
    rfl
  have hcount := address.count
  have hgate : ¬(address.text.map Char.toLower = [] ∨
      (address.text.map Char.toLower).all isIpv6Char = false) := by
    rintro (hnil | hbad)
    · exact hne hnil
    · rw [List.all_eq_true.mpr hchars] at hbad
      cases hbad
  unfold expandIpv6 Ipv6Text.pieces
  dsimp only
  rw [if_neg hgate, hsplit, hplain]
  rw [hplain] at hcount
  cases hback : address.back with
  | none =>
      rw [hback] at hcount
      have hlength : address.front.length = 8 := hcount
      have hhead := groupsOf_intercalate (@lower_parts address.front)
      have htail : groupsOf none = [] := rfl
      simp only [Option.map_none, Option.toList_none, List.getElem?_cons_zero,
        List.getElem?_cons_succ, List.getElem?_nil, hhead, htail, List.length_singleton,
        List.length_nil, List.length_map, hlength]
      simpa [hlength] using hstrip address.front
  | some back =>
      rw [hback] at hcount
      have hlength : address.front.length + back.length ≤ 7 := hcount
      have hhead := groupsOf_intercalate (@lower_parts address.front)
      have htail := groupsOf_intercalate (@lower_parts back)
      have hsum : ¬8 < address.front.length + back.length := by omega
      simp only [Option.map_some, Option.toList_some, List.getElem?_cons_zero,
        List.getElem?_cons_succ, hhead, htail, List.length_cons, List.length_nil, List.length_map,
        Option.getD_some, if_neg hsum]
      simp [hstrip, hzeros]
      omega

theorem not_isWhiteSpace_of_hex (h : (hexValue c).isSome = true) :
    Text.isWhiteSpace c = false := by
  obtain ⟨d, hd, -, hlower⟩ := hexValue_cases h
  by_cases hupper : c.val ≥ 'A'.val ∧ c.val ≤ 'Z'.val
  · have hrange : 65 ≤ c.toNat ∧ c.toNat ≤ 90 :=
      ⟨UInt32.le_iff_toNat_le.mp hupper.1, UInt32.le_iff_toNat_le.mp hupper.2⟩
    exact Text.not_isWhiteSpace_of_visible (by omega) (by omega)
  · have hsame : c.toLower = c := dif_neg hupper
    have hall : ∀ d < 16, Text.isWhiteSpace (Nat.digitChar d) = false := by decide
    rw [← hsame, hlower]
    exact hall d hd

theorem mem_ipv4_text {address : Ipv4Text} : ∀ c ∈ address.text, c.isDigit = true ∨ c = '.' := by
  refine Text.forall_mem_intercalate (fun c hc => .inr (List.mem_singleton.mp hc)) ?_
  intro part hpart c hc
  obtain ⟨octet, -, rfl⟩ := List.mem_map.mp hpart
  exact .inl (octet.digits c hc)

theorem mem_ipv6_text (hc : c ∈ address.text) :
    c = ':' ∨ (hexValue c).isSome = true ∨
      ∃ embedded, address.embedded = some embedded ∧ c ∈ embedded.text := by
  have hparts (groups : List Group) (dotted : Option Ipv4Text) :
      ∀ c ∈ [':'].intercalate (Ipv6Text.parts groups dotted),
        c = ':' ∨ (hexValue c).isSome = true ∨ ∃ embedded, dotted = some embedded ∧ c ∈ embedded.text := by
    refine Text.forall_mem_intercalate (fun c hc => .inl (List.mem_singleton.mp hc)) ?_
    intro part hpart c hc
    rcases List.mem_append.mp hpart with hgroup | hdotted
    · obtain ⟨group, -, rfl⟩ := List.mem_map.mp hgroup
      exact .inr (.inl (group.hex c hc))
    · obtain ⟨embedded, hembedded, rfl⟩ := List.mem_map.mp hdotted
      exact .inr (.inr ⟨embedded, Option.mem_toList.mp hembedded, hc⟩)
  unfold Ipv6Text.text at hc
  split at hc
  · exact hparts _ _ c hc
  · rcases List.mem_append.mp hc with hfront | hrest
    · rcases hparts address.front none c (by
        rwa [Ipv6Text.parts, Option.toList_none, List.map_nil, List.append_nil]) with h | h | ⟨_, h, -⟩
      · exact .inl h
      · exact .inr (.inl h)
      · cases h
    · rcases List.mem_cons.mp hrest with rfl | hrest
      · exact .inl rfl
      · rcases List.mem_cons.mp hrest with rfl | hback
        · exact .inl rfl
        · exact hparts _ _ c hback

theorem trim_of_forall {text : List Char} (h : ∀ c ∈ text, Text.isWhiteSpace c = false) :
    (Text.trim (String.ofList text)).toList = text := by
  rw [Number.trim_eq_self, String.toList_ofList]
  · intro c hc
    rw [String.toList_ofList] at hc
    exact h c (List.mem_of_mem_head? hc)
  · intro c hc
    rw [String.toList_ofList] at hc
    exact h c (List.mem_of_getLast? hc)

theorem not_isWhiteSpace_dotted (h : c.isDigit = true ∨ c = '.') :
    Text.isWhiteSpace c = false := by
  rcases h with hdigit | rfl
  · exact Number.not_isWhiteSpace_of_isDigit hdigit
  · decide

theorem not_isWhiteSpace_ipv6 (hc : c ∈ address.text) :
    Text.isWhiteSpace c = false := by
  rcases mem_ipv6_text hc with rfl | hhex | ⟨_, -, hdotted⟩
  · decide
  · exact not_isWhiteSpace_of_hex hhex
  · exact not_isWhiteSpace_dotted (mem_ipv4_text c hdotted)

/-- The mask of an address in hexadecimal digits. -/
theorem maskIp_ipv6 (hplain : address.embedded = none) :
    maskIp (some (String.ofList address.text)) .userAgentAndIpSubnet =
      [':'].intercalate ((address.pieces.take 4).map (Nat.toDigits 16)) ++ "::/64".toList := by
  obtain ⟨-, hne, -⟩ := lower_text hplain
  have htrim : (Text.trim (String.ofList address.text)).toList = address.text := by
    exact trim_of_forall fun c => not_isWhiteSpace_ipv6
  have hdot : '.' ∉ address.text := by
    intro hmem
    rcases mem_ipv6_text hmem with hcolon | hhex | ⟨_, hembedded, -⟩
    · cases hcolon
    · exact absurd hhex (by decide)
    · rw [hplain] at hembedded
      cases hembedded
  have hshape : isIpv4Shape address.text = false := by
    have hsplit := Text.splitOn_append_of_not_mem hdot []
    rw [List.append_nil] at hsplit
    rw [isIpv4Shape, hsplit]
    rfl
  unfold maskIp
  dsimp only
  rw [if_neg (by decide), Option.getD_some, htrim, if_neg (fun hnil => hne (by rw [hnil]; rfl)),
    if_neg (by rw [hshape]; exact Bool.false_ne_true), expandIpv6_text hplain]
  dsimp only
  rw [← List.map_take]
  rfl

/-- A masked IPv4 address has digits and points in front of its fixed end. -/
theorem not_mem_subnet
    (hplain : ¬(c.isDigit = true ∨ c = '.'))
    (hend : c ∉ ".0/24".toList)
    (octets : List Nat) :
    c ∉ IpAddress.dotted octets ++ ".0/24".toList := by
  rw [List.mem_append, not_or]
  exact ⟨fun hdotted => hplain (IpAddress.mem_dotted hdotted), hend⟩

/-- The mask of an IPv4 address. -/
theorem maskIp_ipv4 (address : Ipv4Text) :
    maskIp (some (String.ofList address.text)) .userAgentAndIpSubnet =
      IpAddress.dotted [address.first.value, address.second.value, address.third.value] ++
        ".0/24".toList := by
  have hoctets : ∀ part ∈ address.octets.map Octet.text, '.' ∉ part := by
    intro part hpart hmem
    obtain ⟨octet, -, rfl⟩ := List.mem_map.mp hpart
    exact absurd (octet.digits _ hmem) (by decide)
  have hsplit : address.text.splitOn '.' = address.octets.map Octet.text :=
    List.splitOn_intercalate _ hoctets (by simp [Ipv4Text.octets])
  have htrim : (Text.trim (String.ofList address.text)).toList = address.text := by
    exact trim_of_forall fun c hc => not_isWhiteSpace_dotted (mem_ipv4_text c hc)
  have hne : address.text ≠ [] := by
    intro hnil
    rw [hnil] at hsplit
    exact absurd (congrArg List.length hsplit) (by simp [Ipv4Text.octets])
  have hshape : isIpv4Shape address.text = true := by
    rw [isIpv4Shape, hsplit, Bool.and_eq_true, List.all_map]
    refine ⟨by simp [Ipv4Text.octets], List.all_eq_true.mpr fun octet _ => ?_⟩
    simp only [Function.comp_apply, Bool.and_eq_true, decide_eq_true_eq, List.all_eq_true]
    exact ⟨⟨octet.nonempty, octet.length_le⟩, octet.digits⟩
  have hsmall : ((address.octets.map Octet.value).any fun octet => decide (255 < octet)) = false := by
    rw [List.any_map, List.any_eq_false]
    intro octet _ hlarge
    exact absurd octet.value_le (Nat.not_le.mpr (of_decide_eq_true hlarge))
  have hvalues : (address.text.splitOn '.').map (fun segment => Nat.ofDigitChars 10 segment 0) =
      address.octets.map Octet.value := by
    rw [hsplit, List.map_map]
    rfl
  unfold maskIp
  dsimp only
  rw [if_neg (by decide), Option.getD_some, htrim, if_neg hne, if_pos hshape, hvalues,
    if_neg (by rw [hsmall]; exact Bool.false_ne_true)]
  rfl

/-- A dotted end brings colons and points into the text. -/
theorem mem_text_of_embedded {embedded : Ipv4Text} (h : address.embedded = some embedded) :
    ':' ∈ address.text ∧ '.' ∈ address.text := by
  have hdot : '.' ∈ embedded.text := by
    simp [Ipv4Text.text, Ipv4Text.octets, List.intercalate_cons_cons]
  have hend (groups : List Group) :
      ∃ front, [':'].intercalate (Ipv6Text.parts groups (some embedded)) = front ++ embedded.text ∧
        (groups ≠ [] → ':' ∈ front) := by
    induction groups with
    | nil => exact ⟨[], List.intercalate_singleton, fun hne => absurd rfl hne⟩
    | cons group groups ih =>
        obtain ⟨front, hfront, -⟩ := ih
        refine ⟨group.text ++ ':' :: front, ?_, fun _ => by simp⟩
        have hne : Ipv6Text.parts groups (some embedded) ≠ [] := by simp [Ipv6Text.parts]
        have hcons : Ipv6Text.parts (group :: groups) (some embedded) =
            group.text :: Ipv6Text.parts groups (some embedded) := rfl
        rw [hcons, List.intercalate_cons_of_ne_nil hne, hfront]
        simp
  have hcount := address.count
  unfold Ipv6Text.text
  rw [h] at hcount ⊢
  cases hback : address.back with
  | none =>
      rw [hback] at hcount
      obtain ⟨front, hfront, hcolon⟩ := hend address.front
      dsimp only
      rw [hfront]
      refine ⟨List.mem_append_left _ (hcolon ?_), List.mem_append_right _ hdot⟩
      intro hnil
      rw [hnil] at hcount
      cases hcount
  | some back =>
      obtain ⟨front, hfront, -⟩ := hend back
      dsimp only
      rw [hfront]
      simp [hdot]

/-- The mask of an IPv6 address with a dotted end. -/
theorem maskIp_dotted {embedded : Ipv4Text} (h : address.embedded = some embedded) :
    maskIp (some (String.ofList address.text)) .userAgentAndIpSubnet = "invalid".toList := by
  obtain ⟨hcolon, hdot⟩ := mem_text_of_embedded h
  have htrim : (Text.trim (String.ofList address.text)).toList = address.text :=
    trim_of_forall fun c => not_isWhiteSpace_ipv6
  have hshape : isIpv4Shape address.text = false := by
    by_contra hcontra
    rw [Bool.not_eq_false, isIpv4Shape, Bool.and_eq_true, List.all_eq_true] at hcontra
    have hall : ∀ c ∈ ['.'].intercalate (address.text.splitOn '.'), c ≠ ':' := by
      refine Text.forall_mem_intercalate (by simp) fun segment hsegment c hc => ?_
      have hdigits := hcontra.2 segment hsegment
      simp only [Bool.and_eq_true, List.all_eq_true] at hdigits
      rintro rfl
      exact absurd (hdigits.2 ':' hc) (by decide)
    rw [List.intercalate_splitOn] at hall
    exact hall ':' hcolon rfl
  have hgate : (address.text.map Char.toLower).all isIpv6Char = false := by
    rw [List.all_eq_false]
    exact ⟨'.', List.mem_map.mpr ⟨'.', hdot, by decide⟩, by decide⟩
  unfold maskIp
  dsimp only
  rw [if_neg (by decide), Option.getD_some, htrim, if_neg (List.ne_nil_of_mem hdot),
    if_neg (by rw [hshape]; exact Bool.false_ne_true), expandIpv6]
  dsimp only
  rw [if_pos (.inr hgate)]

/-- The network that a mask names; a dotted end names none. -/
def seenNetwork : Address → Option Network
  | .ipv4 address => some (Address.ipv4 address).network
  | .ipv6 address =>
      if address.embedded.isSome then none else some (.ipv6 (address.pieces.take IPV6_PREFIX_GROUPS))

theorem maskIp_eq_iff {x y : Address} :
    maskIp (some (String.ofList x.text)) .userAgentAndIpSubnet =
        maskIp (some (String.ofList y.text)) .userAgentAndIpSubnet ↔
      seenNetwork x = seenNetwork y := by
  -- only masks of IPv6 addresses have a colon, and only invalid ones no slash
  have happart (octets : List Nat) (front : List Char) :
      IpAddress.dotted octets ++ ".0/24".toList ≠ front ++ "::/64".toList := by
    intro heq
    have hmem : ':' ∈ IpAddress.dotted octets ++ ".0/24".toList := by
      rw [heq]
      exact List.mem_append_right _ (by decide)
    exact not_mem_subnet (by decide) (by decide) octets hmem
  have hinvalid (front : List Char) {end_ : List Char} (hslash : '/' ∈ end_) :
      "invalid".toList ≠ front ++ end_ := by
    intro heq
    have hmem : '/' ∈ "invalid".toList := heq ▸ List.mem_append_right _ hslash
    exact absurd hmem (by decide)
  have hsplit (address : Ipv6Text) :
      ([':'].intercalate ((address.pieces.take 4).map (Nat.toDigits 16))).splitOn ':' =
        (address.pieces.take 4).map (Nat.toDigits 16) := by
    refine List.splitOn_intercalate _ (fun part hpart hmem => ?_) ?_
    · obtain ⟨n, -, rfl⟩ := List.mem_map.mp hpart
      exact absurd (IpAddress.mem_hexDigits_of_mem_toDigits hmem) (by decide)
    · intro hnil
      have hzero := congrArg List.length hnil
      rw [List.length_map, List.length_take, address.length_pieces] at hzero
      cases hzero
  have hseen (address : Ipv6Text) :
      seenNetwork (.ipv6 address) = none ∧
          maskIp (some (String.ofList address.text)) .userAgentAndIpSubnet = "invalid".toList ∨
        seenNetwork (.ipv6 address) = some (.ipv6 (address.pieces.take 4)) ∧
          maskIp (some (String.ofList address.text)) .userAgentAndIpSubnet =
            [':'].intercalate ((address.pieces.take 4).map (Nat.toDigits 16)) ++ "::/64".toList := by
    cases h : address.embedded with
    | none => exact .inr ⟨by simp [seenNetwork, h, IPV6_PREFIX_GROUPS], maskIp_ipv6 h⟩
    | some embedded => exact .inl ⟨by simp [seenNetwork, h], maskIp_dotted h⟩
  cases x with
  | ipv4 x =>
      cases y with
      | ipv4 y =>
          rw [Address.text, Address.text, maskIp_ipv4, maskIp_ipv4, List.append_left_inj, seenNetwork,
            seenNetwork, Option.some_inj, Address.network, Address.network, Network.ipv4.injEq]
          exact ⟨IpAddress.dotted_inj rfl, congrArg _⟩
      | ipv6 y =>
          rw [Address.text, Address.text, maskIp_ipv4, seenNetwork]
          rcases hseen y with ⟨hy, hmask⟩ | ⟨hy, hmask⟩ <;> rw [hy, hmask]
          · exact iff_of_false (hinvalid _ (by decide)).symm (Option.some_ne_none _)
          · exact iff_of_false (happart _ _) (by simp [Address.network])
  | ipv6 x =>
      cases y with
      | ipv4 y =>
          rw [Address.text, Address.text, maskIp_ipv4, seenNetwork.eq_1 y]
          rcases hseen x with ⟨hx, hmask⟩ | ⟨hx, hmask⟩ <;> rw [hx, hmask]
          · exact iff_of_false (hinvalid _ (by decide)) (Option.some_ne_none _).symm
          · exact iff_of_false (happart _ _).symm (by simp [Address.network])
      | ipv6 y =>
          rw [Address.text, Address.text]
          rcases hseen x with ⟨hx, hmask⟩ | ⟨hx, hmask⟩ <;>
            rcases hseen y with ⟨hy, hmask'⟩ | ⟨hy, hmask'⟩ <;> rw [hx, hy, hmask, hmask']
          · exact iff_of_true rfl rfl
          · exact iff_of_false (hinvalid _ (by decide)) (Option.some_ne_none _).symm
          · exact iff_of_false (hinvalid _ (by decide)).symm (Option.some_ne_none _)
          · rw [List.append_left_inj, Option.some_inj, Network.ipv6.injEq]
            refine ⟨fun heq => ?_, fun heq => by rw [heq]⟩
            have hdigits := congrArg (List.splitOn ':') heq
            rw [hsplit, hsplit] at hdigits
            exact List.map_injective_iff.mpr (fun _ _ => toDigits_inj) hdigits

end Masks

/-! ## Fingerprints -/

section Fingerprints

variable {c : Char}

theorem mem_of_mem_splitDoubleColon
    {text part : List Char}
    (hpart : part ∈ splitDoubleColon text)
    (hc : c ∈ part) :
    c ∈ text := by
  induction text using splitDoubleColon.induct generalizing part with
  | case1 =>
      rw [List.mem_singleton.mp hpart] at hc
      exact hc
  | case2 rest ih =>
      rw [splitDoubleColon] at hpart
      rcases List.mem_cons.mp hpart with rfl | hrest
      · cases hc
      · exact List.mem_cons_of_mem _ (List.mem_cons_of_mem _ (ih hrest hc))
  | case3 d rest hapart ih =>
      have hstep : splitDoubleColon (d :: rest) = (splitDoubleColon rest).modifyHead (d :: ·) := by
        rw [splitDoubleColon]
        exact hapart
      rw [hstep] at hpart
      cases hsplit : splitDoubleColon rest with
      | nil =>
          rw [hsplit] at hpart
          cases hpart
      | cons first others =>
          rw [hsplit] at ih hpart
          rcases List.mem_cons.mp hpart with rfl | hothers
          · rcases List.mem_cons.mp hc with rfl | hfirst
            · exact List.mem_cons_self
            · exact List.mem_cons_of_mem _ (ih List.mem_cons_self hfirst)
          · exact List.mem_cons_of_mem _ (ih (List.mem_cons_of_mem _ hothers) hc)

theorem mem_of_mem_groupsOf
    {text group : List Char} {index : Nat}
    (hgroup : group ∈ groupsOf (splitDoubleColon text)[index]?)
    (hc : c ∈ group) :
    c ∈ text := by
  cases hpart : (splitDoubleColon text)[index]? with
  | none =>
      rw [hpart] at hgroup
      cases hgroup
  | some part =>
      rw [hpart, groupsOf] at hgroup
      split at hgroup
      · cases hgroup
      · exact mem_of_mem_splitDoubleColon (List.mem_of_getElem? hpart)
          (Text.mem_of_mem_splitOn hgroup hc)

theorem mem_of_mem_stripZeros {text : List Char} (h : c ∈ stripZeros text) : c ∈ text := by
  rcases List.mem_append.mp h with hfront | hlast
  · exact List.mem_of_mem_dropLast ((List.dropWhile_sublist _).mem hfront)
  · exact List.mem_of_getLast? (Option.mem_toList.mp hlast)

/-- The groups of an expanded text are made of its characters and zeros. -/
theorem isIpv6Char_of_mem_expandIpv6
    {ip group : List Char} {groups : List (List Char)}
    (h : expandIpv6 ip = some groups)
    (hgroup : group ∈ groups) :
    ∀ c ∈ group, isIpv6Char c = true := by
  unfold expandIpv6 at h
  dsimp only at h
  split at h
  · cases h
  · next hgate =>
      rw [not_or, Bool.not_eq_false, List.all_eq_true] at hgate
      split at h
      · cases h
      · split at h
        · cases h
        · have hzeros (n : Nat) : ∀ part ∈ (if (splitDoubleColon (ip.map Char.toLower)).length = 2 then
              List.replicate n ['0'] else []), part = ['0'] := by
            split
            · exact fun _ hpart => List.eq_of_mem_replicate hpart
            · simp
          have hmiddle := hzeros (8 - (groupsOf (splitDoubleColon (ip.map Char.toLower))[0]?).length -
            (groupsOf (splitDoubleColon (ip.map Char.toLower))[1]?).length)
          generalize (if (splitDoubleColon (ip.map Char.toLower)).length = 2 then _ else []) = middle
            at h hmiddle
          split at h
          · cases h
          · obtain rfl := Option.some.inj h
            obtain ⟨raw, hraw, rfl⟩ := List.mem_map.mp hgroup
            intro c hc
            have hchar := mem_of_mem_stripZeros hc
            rcases List.mem_append.mp hraw with hfront | htail
            · rcases List.mem_append.mp hfront with hhead | hinside
              · exact hgate.2 c (mem_of_mem_groupsOf hhead hchar)
              · rw [hmiddle raw hinside, List.mem_singleton] at hchar
                rw [hchar]
                decide
            · exact hgate.2 c (mem_of_mem_groupsOf htail hchar)

/-- No mask has a bar. -/
theorem bar_not_mem_maskIp (ip : Option String) (mode : FingerprintMode) : '|' ∉ maskIp ip mode := by
  unfold maskIp
  dsimp only
  split
  · exact List.not_mem_nil
  · split
    · decide
    · split
      · split
        · decide
        · exact not_mem_subnet (by decide) (by decide) _
      · split
        · decide
        · next expanded hexpanded =>
            intro hmem
            rcases List.mem_append.mp hmem with hgroups | htail
            · have hall : ∀ c ∈ [':'].intercalate (expanded.take IPV6_PREFIX_GROUPS),
                  isIpv6Char c = true :=
                Text.forall_mem_intercalate isIpv6Char_colon fun group hgroup =>
                  isIpv6Char_of_mem_expandIpv6 hexpanded (List.mem_of_mem_take hgroup)
              exact absurd (hall _ hgroups) (by decide)
            · exact absurd htail (by decide)

/-- The trimmed user agent and the mask can be read off what is digested. -/
theorem composite_inj
    {mode : FingerprintMode} {userAgent userAgent' ip ip' : Option String}
    (h : composite { userAgent := userAgent, ip := ip, mode := mode } =
      composite { userAgent := userAgent', ip := ip', mode := mode }) :
    Text.trim (userAgent.getD "") = Text.trim (userAgent'.getD "") ∧ maskIp ip mode = maskIp ip' mode := by
  have hchars := List.append_cancel_left (String.ofList_injective h)
  obtain ⟨hagent, hmask⟩ := Text.append_cons_inj_last (bar_not_mem_maskIp ip mode)
    (bar_not_mem_maskIp ip' mode) (List.cons.inj hchars).2
  exact ⟨String.toList_injective hagent, hmask⟩

/-- The masks of two addresses agree when these are of one network, and only then, and sign-ins
from them with other user agents or masks have other fingerprints. -/
structure SeesNetworks
    (digest : String → String) (x y : Address) (userAgent userAgent' : Option String) : Prop where
  mask : maskIp (some (String.ofList x.text)) .userAgentAndIpSubnet =
      maskIp (some (String.ofList y.text)) .userAgentAndIpSubnet ↔ x.network = y.network
  fingerprint :
    userAgent ≠ userAgent' ∨
        maskIp (some (String.ofList x.text)) .userAgentAndIpSubnet ≠
          maskIp (some (String.ofList y.text)) .userAgentAndIpSubnet →
      fingerprintSession digest
          { userAgent := userAgent
            ip := some (String.ofList x.text)
            mode := .userAgentAndIpSubnet } ≠
        fingerprintSession digest
          { userAgent := userAgent'
            ip := some (String.ofList y.text)
            mode := .userAgentAndIpSubnet }

/-- `::/64`, where the IPv4-mapped addresses are. -/
def zeroNetwork : Network :=
  .ipv6 [0, 0, 0, 0]

/-- Addresses with dotted ends, or mapped ones, are told apart by nothing, and from all others. -/
def ToldApart (x y : Address) : Prop :=
  if x.hasDottedEnd ∧ y.hasDottedEnd ∨ x.isMappedHex ∧ y.isMappedHex then x.network = y.network
  else if x.hasDottedEnd ∨ y.hasDottedEnd then x.network ≠ y.network
  else if x.isMappedHex ∨ y.isMappedHex then
    x.network ≠ y.network ∧ x.network ≠ zeroNetwork ∧ y.network ≠ zeroNetwork
  else True

/-- What is seen of an address without a dotted end. -/
theorem seenNetwork_cases (x : Address) :
    x.hasDottedEnd = true ∧ x.isMappedHex = false ∧ seenNetwork x = none ∨
      x.hasDottedEnd = false ∧
        (x.isMappedHex = false ∧ seenNetwork x = some x.network ∨
          x.isMappedHex = true ∧ seenNetwork x = some zeroNetwork ∧ x.network ≠ zeroNetwork) := by
  cases x with
  | ipv4 address => exact .inr ⟨rfl, .inl ⟨rfl, rfl⟩⟩
  | ipv6 address =>
      rw [Address.hasDottedEnd, Address.isMappedHex, seenNetwork, Address.network, Ipv6Text.network]
      cases address.embedded with
      | some embedded => exact .inl ⟨rfl, rfl, rfl⟩
      | none =>
          refine .inr ⟨rfl, ?_⟩
          cases hmapped : address.isMapped with
          | false => exact .inl ⟨rfl, rfl⟩
          | true =>
              refine .inr ⟨rfl, ?_, fun heq => by cases heq⟩
              have hzeros := congrArg (List.take 4) (beq_iff_eq.mp hmapped)
              rw [List.take_take] at hzeros
              simpa [zeroNetwork, IPV6_PREFIX_GROUPS] using hzeros

theorem mask_iff_toldApart {x y : Address} :
    (seenNetwork x = seenNetwork y ↔ x.network = y.network) ↔ ToldApart x y := by
  unfold ToldApart
  rcases seenNetwork_cases x with ⟨hdx, hmx, hx⟩ | ⟨hdx, ⟨hmx, hx⟩ | ⟨hmx, hx, hzx⟩⟩ <;>
    rcases seenNetwork_cases y with ⟨hdy, hmy, hy⟩ | ⟨hdy, ⟨hmy, hy⟩ | ⟨hmy, hy, hzy⟩⟩ <;>
      simp only [hdx, hdy, hmx, hmy, hx, hy, Bool.false_eq_true, and_true, and_false, or_false,
        or_true, if_true, if_false, Option.some_inj, reduceCtorEq, true_iff, false_iff, ne_eq]
  · exact ⟨fun h => ⟨fun heq => hzy (heq ▸ h.mpr heq), fun heq => hzy (h.mp heq ▸ heq), hzy⟩,
      fun h => iff_of_false h.2.1 h.1⟩
  · exact ⟨fun h => ⟨fun heq => hzx (heq.trans (h.mpr heq).symm), hzx,
      fun heq => hzx ((h.mp heq.symm).trans heq)⟩, fun h => iff_of_false (Ne.symm h.2.2) h.1⟩

/-- What is wanted holds exactly when the addresses can be told apart, and user agents behind one
network still differ without the white space around them. -/
theorem seesNetworks_iff
    {digest : String → String}
    (hdigest : Function.Injective digest)
    (x y : Address)
    (userAgent userAgent' : Option String) :
    SeesNetworks digest x y userAgent userAgent' ↔
      ToldApart x y ∧
        (x.network = y.network → userAgent ≠ userAgent' →
          Text.trim (userAgent.getD "") ≠ Text.trim (userAgent'.getD "")) := by
  rw [← mask_iff_toldApart, ← maskIp_eq_iff]
  constructor
  · rintro ⟨hmask, hfingerprint⟩
    refine ⟨hmask, fun hnetwork hagent htrim => hfingerprint (.inl hagent) (congrArg digest ?_)⟩
    simp only [composite, htrim, hmask.mpr hnetwork]
  · rintro ⟨hmask, hagents⟩
    refine ⟨hmask, fun hdiffer hsame => ?_⟩
    obtain ⟨htrim, hsameMask⟩ := composite_inj (hdigest hsame)
    rcases hdiffer with hagent | hother
    · exact hagents (hmask.mp hsameMask) hagent htrim
    · exact hother hsameMask

/-- The number 1 of an address. -/
def octetOne : Octet where
  text := ['1']
  nonempty := by decide
  length_le := by decide
  digits := by simp
  value_le := by decide

/-- `1.1.1.1` -/
def ones : Ipv4Text where
  first := octetOne
  second := octetOne
  third := octetOne
  fourth := octetOne

/-- `::` -/
def unspecified : Ipv6Text where
  front := []
  back := some []
  embedded := none
  count := by decide

theorem seesNetworks_ones :
    SeesNetworks id (.ipv4 ones) (.ipv6 unspecified) (some "a") (some "b") := by
  refine (seesNetworks_iff Function.injective_id _ _ _ _).mpr ⟨?_, fun hnetwork => ?_⟩
  · rw [ToldApart, if_neg (by decide), if_neg (by decide), if_neg (by decide)]
    trivial
  · exact absurd hnetwork (by decide)

def groupFfff : Group where
  text := List.replicate 4 'f'
  nonempty := by decide
  length_le := by decide
  hex := fun c hc => by rw [List.eq_of_mem_replicate hc]; decide

/-- `::ffff:1.1.1.1` -/
def mappedOnes : Ipv6Text where
  front := []
  back := some [groupFfff]
  embedded := some ones
  count := by decide

/-- The IPv4-mapped spelling with a dotted end counts as invalid. -/
theorem not_seesNetworks_mappedOnes :
    maskIp (some (String.ofList (Address.ipv6 mappedOnes).text)) .userAgentAndIpSubnet =
        "invalid".toList ∧
      ¬ SeesNetworks id (.ipv6 mappedOnes) (.ipv4 ones) (some "a") (some "a") := by
  refine ⟨by decide, fun h => absurd (h.mask.mpr (by rfl)) (by decide)⟩

end Fingerprints

end DeviceFingerprint
end Core
end NestBase
