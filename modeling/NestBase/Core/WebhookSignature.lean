import NestBase.Lib.Base64
import NestBase.Lib.NumberText

/-!
# Signatures of webhook deliveries

`buildHmacSignatureHeader` signs `<timestamp>.<body>` and
`verifyHmacSignatureHeader` checks such a header.  The receiver that
`docs/webhook-spec.md` publishes checks the signature over
`<id>.<timestamp>.<body>`.

HMAC-SHA256 is the parameter `hmac` of key and message bytes.  The verifier of
the code accepts what the code signs (`verifyHmacSignatureHeader_build`); the
published receiver accepts no delivery (`verifyReference_ne_true`).
-/

namespace NestBase
namespace Webhooks

open Lib
open Lib.Unicode

/-! ## Text of bytes -/

/-- `digest("base64")` -/
def base64Text (bytes : Bytes) : List Char :=
  (Base64.encode bytes).map fun u => Char.ofNat u.toNat

/-- `Buffer.from(text, "base64")` -/
def fromBase64 (text : List Char) : Bytes :=
  Base64.decode (utf16 text)

section Signatures

variable (hmac : Bytes → Bytes → Bytes)

/-- `createHmac("sha256", secret).update(message).digest("base64")` -/
def hmacBase64 (secret message : String) : List Char :=
  base64Text (hmac (utf8 secret.toList) (utf8 message.toList))

/-! ## Signing and verifying -/

def SCHEME_VERSION : String := "v1"

def signWebhookBody (secret timestamp body : String) : String :=
  String.ofList (hmacBase64 hmac secret (timestamp ++ "." ++ body))

def buildHmacSignatureHeader (secret timestamp body : String) : String :=
  "t=" ++ timestamp ++ "," ++ SCHEME_VERSION ++ "=" ++ signWebhookBody hmac secret timestamp body

/-- The digits of the first match of `/t=(\d+)/`. -/
def matchTimestamp : List Char → Option (List Char)
  | [] => none
  | c :: rest =>
      let digits := (rest.drop 1).takeWhile Char.isDigit
      if "t=".toList.isPrefixOf (c :: rest) ∧ digits ≠ [] then some digits
      else matchTimestamp rest

def isBase64Char (c : Char) : Bool :=
  c.isAlphanum || c == '+' || c == '/'

/-- The groups of all matches of `/v1=([A-Za-z0-9+/]+=*)/g`; the first characters are skipped. -/
def v1TokensFrom : Nat → List Char → List (List Char)
  | _, [] => []
  | skip + 1, _ :: rest => v1TokensFrom skip rest
  | 0, c :: rest =>
      let run := (rest.drop 2).takeWhile isBase64Char
      if "v1=".toList.isPrefixOf (c :: rest) ∧ run ≠ [] then
        let token := run ++ (rest.drop (2 + run.length)).takeWhile (· = '=')
        token :: v1TokensFrom (2 + token.length) rest
      else v1TokensFrom 0 rest

/-- Whole seconds; their difference with a timestamp is exact up to 2^53. -/
structure VerifyOptions where
  now : Int
  toleranceSeconds : Int

/-- `Math.abs(ts - now) > limit` -/
def isBeyond (ts : Number) (now limit : Int) : Bool :=
  match ts with
  | .finite ts => decide (|ts - now| > limit)
  | .infinity _ => true
  | .nan => false

def verifyHmacSignatureHeader (secret body header : String) (options : VerifyOptions) : Bool :=
  match matchTimestamp header.toList with
  | none => false
  | some digits =>
      let ts := Number.ofText (String.ofList digits)
      if !ts.isFinite then false
      else if isBeyond ts options.now options.toleranceSeconds then false
      else
        let expected := signWebhookBody hmac secret ts.text body
        (v1TokensFrom 0 header.toList).any fun sig =>
          fromBase64 expected.toList == fromBase64 sig

/-! ## The request and its published receiver -/

/-- The headers of a delivery, besides the content type, and its body. -/
structure DeliveryRequest where
  webhookId : String
  webhookTimestamp : String
  webhookSignature : String
  body : String

/-- What `WebhookDispatcher.dispatch` posts; `now` is its clock in seconds. -/
def deliveryRequest (secret eventId : String) (now : Nat) (body : String) : DeliveryRequest :=
  let ts := toString now
  { webhookId := eventId
    webhookTimestamp := ts
    webhookSignature := buildHmacSignatureHeader hmac secret ts body
    body := body }

/-- `part.trim()` -/
def trimmed (part : List Char) : List Char :=
  (Text.trim (String.ofList part)).toList

/-- `some` with `timingSafeEqual`, which throws on different lengths. -/
def someEqual (expected : Bytes) : List Bytes → Except String Bool
  | [] => .ok false
  | sig :: rest =>
      if sig.length ≠ expected.length then
        .error "Input buffers must have the same byte length"
      else if sig = expected then .ok true
      else someEqual expected rest

/-- The receiver of `docs/webhook-spec.md`; `now` is its clock in seconds. -/
def verifyReference (request : DeliveryRequest) (secret : String) (now : Int) :
    Except String Bool :=
  if request.webhookId = "" ∨ request.webhookTimestamp = "" ∨ request.webhookSignature = "" then
    .ok false
  else if isBeyond (Number.ofText request.webhookTimestamp) now 300 then .ok false
  else
    let signedString :=
      request.webhookId ++ "." ++ request.webhookTimestamp ++ "." ++ request.body
    let expected := hmacBase64 hmac secret signedString
    let parts := ((request.webhookSignature.toList.splitOn ',').map trimmed).filter
      fun part => "v1=".toList.isPrefixOf part
    someEqual (fromBase64 expected) (parts.map fun part => fromBase64 (part.drop 3))

/-- Both verifiers accept the delivery whenever their clock is within 300 seconds. -/
def VerifiersAgree (secret eventId : String) (timestamp : Nat) (body : String) : Prop :=
  ∀ now : Int, |now - (timestamp : Int)| ≤ 300 →
    let request := deliveryRequest hmac secret eventId timestamp body
    verifyReference hmac request secret now = .ok true ∧
      verifyHmacSignatureHeader hmac secret body request.webhookSignature
        { now := now, toleranceSeconds := 300 } = true

end Signatures

/-! ## Base64 text -/

theorem isBase64Char_symbol :
    ∀ v : Fin 64, isBase64Char (Char.ofNat (Base64.symbol v).toNat) = true := by
  decide

/-- Characters of base64 text are neither separators nor white space. -/
theorem plain_of_mem_base64Text {bytes : Bytes} {c : Char} (h : c ∈ base64Text bytes) :
    c ≠ ',' ∧ Text.isWhiteSpace c = false := by
  have hsymbol :
      ∀ v : Fin 64,
        Char.ofNat (Base64.symbol v).toNat ≠ ',' ∧
          Text.isWhiteSpace (Char.ofNat (Base64.symbol v).toNat) = false := by
    decide
  obtain ⟨u, hu, rfl⟩ := List.mem_map.mp h
  rcases List.mem_append.mp hu with hsym | hpad
  · obtain ⟨v, -, rfl⟩ := List.mem_map.mp hsym
    exact hsymbol v
  · rw [(List.mem_replicate.mp hpad).2]
    decide

theorem utf16_base64Text (bytes : Bytes) : utf16 (base64Text bytes) = Base64.encode bytes := by
  have hunit :
      ∀ u ∈ Base64.encode bytes, utf16Char (Char.ofNat u.toNat) = [u] := by
    have hsymbol :
        ∀ v : Fin 64, utf16Char (Char.ofNat (Base64.symbol v).toNat) = [Base64.symbol v] := by
      decide
    intro u hu
    rcases List.mem_append.mp hu with hsym | hpad
    · obtain ⟨v, -, rfl⟩ := List.mem_map.mp hsym
      exact hsymbol v
    · rw [(List.mem_replicate.mp hpad).2]
      decide
  unfold utf16 base64Text
  rw [List.flatMap_map]
  generalize Base64.encode bytes = units at hunit ⊢
  induction units with
  | nil => rfl
  | cons u rest ih =>
      rw [List.flatMap_cons, hunit u List.mem_cons_self,
        ih fun other hother => hunit other (List.mem_cons_of_mem _ hother)]
      rfl

@[simp] theorem fromBase64_base64Text (bytes : Bytes) : fromBase64 (base64Text bytes) = bytes := by
  rw [fromBase64, utf16_base64Text, Base64.decode_encode]

/-! ## The header -/

/-- A digit is none of the characters the header is made of. -/
theorem plain_of_isDigit {c : Char} (h : c.isDigit = true) :
    c ≠ ',' ∧ c ≠ 'v' ∧ Text.isWhiteSpace c = false := by
  refine ⟨?_, ?_, ?_⟩
  · rintro rfl
    exact absurd h (by decide)
  · rintro rfl
    exact absurd h (by decide)
  · exact Number.not_isWhiteSpace_of_isDigit h

section Signatures

variable {hmac : Bytes → Bytes → Bytes}

theorem toList_buildHmacSignatureHeader (secret timestamp body : String) :
    (buildHmacSignatureHeader hmac secret timestamp body).toList =
      't' :: '=' :: timestamp.toList ++
        ',' :: ('v' :: '1' :: '=' :: hmacBase64 hmac secret (timestamp ++ "." ++ body)) := by
  simp [buildHmacSignatureHeader, signWebhookBody, SCHEME_VERSION, String.toList_append]

/-! ## The verifier of the code -/

theorem matchTimestamp_header
    {digits : List Char}
    (hdigits : ∀ c ∈ digits, c.isDigit = true)
    (hne : digits ≠ [])
    (rest : List Char) :
    matchTimestamp ('t' :: '=' :: digits ++ ',' :: rest) = some digits := by
  have htake : (digits ++ ',' :: rest).takeWhile Char.isDigit = digits := by
    rw [List.takeWhile_append_of_pos hdigits]
    simp
  simp [matchTimestamp, htake, hne]

/-- No token starts before the first `v`. -/
theorem v1TokensFrom_append {before : List Char} (hbefore : 'v' ∉ before) (rest : List Char) :
    v1TokensFrom 0 (before ++ rest) = v1TokensFrom 0 rest := by
  induction before with
  | nil => rfl
  | cons c before ih =>
      have hprefix : "v1=".toList.isPrefixOf (c :: (before ++ rest)) = false := by
        have hc : ('v' == c) = false := by
          simpa using fun h : 'v' = c => hbefore (h ▸ List.mem_cons_self)
        simp [List.isPrefixOf, hc]
      rw [List.cons_append, v1TokensFrom, hprefix,
        if_neg fun h => Bool.false_ne_true h.1]
      exact ih fun h => hbefore (List.mem_cons_of_mem _ h)

/-- A token of base64 text with its padding at the end of the header. -/
theorem v1TokensFrom_token
    {run : List Char} {n : Nat}
    (hrun : ∀ c ∈ run, isBase64Char c = true)
    (hne : run ≠ []) :
    v1TokensFrom 0 ('v' :: '1' :: '=' :: (run ++ List.replicate n '=')) =
      [run ++ List.replicate n '='] := by
  have htake : (run ++ List.replicate n '=').takeWhile isBase64Char = run := by
    rw [List.takeWhile_append_of_pos hrun]
    cases n with
    | zero => simp
    | succ n => simp [List.replicate_succ, isBase64Char]
  have hpads : (List.replicate n '=').takeWhile (· = '=') = List.replicate n '=' := by
    simp
  have hskip :
      ∀ (skip : Nat) (chars : List Char), chars.length ≤ skip → v1TokensFrom skip chars = [] := by
    intro skip chars
    induction chars generalizing skip with
    | nil => intro _; cases skip <;> rfl
    | cons c chars ih =>
        intro hlength
        cases skip with
        | zero => simp at hlength
        | succ skip => exact ih skip (by simpa using hlength)
  have hhit :
      "v1=".toList.isPrefixOf ('v' :: '1' :: '=' :: (run ++ List.replicate n '=')) = true ∧
        run ≠ [] :=
    ⟨by simp [List.isPrefixOf], hne⟩
  have hrest :
      ('1' :: '=' :: (run ++ List.replicate n '=')).drop (2 + run.length) =
        List.replicate n '=' := by
    rw [Nat.add_comm]
    simp
  rw [v1TokensFrom]
  simp only [List.drop_succ_cons, List.drop_zero, htake]
  rw [if_pos hhit, hrest, hpads, hskip _ _ (by simp; omega)]

theorem base64Text_eq (bytes : Bytes) :
    base64Text bytes =
      ((Base64.sextets bytes).map fun v => Char.ofNat (Base64.symbol v).toNat) ++
        List.replicate ((3 - bytes.length % 3) % 3) '=' := by
  have hpad : Char.ofNat Base64.pad.toNat = '=' := by decide
  simp [base64Text, Base64.encode, List.map_map, Function.comp_def, hpad]

/-- The verifier of the code accepts what the code signs, within its tolerance. -/
theorem verifyHmacSignatureHeader_build
    {secret body : String} {timestamp : Nat} {options : VerifyOptions}
    (hdigest : ∀ key message, hmac key message ≠ [])
    (hexact : timestamp < 2 ^ 53)
    (hclock : |(timestamp : Int) - options.now| ≤ options.toleranceSeconds) :
    verifyHmacSignatureHeader hmac secret body
      (buildHmacSignatureHeader hmac secret (toString timestamp) body) options = true := by
  have htimestamp :
      matchTimestamp (buildHmacSignatureHeader hmac secret (toString timestamp) body).toList =
        some (toString timestamp).toList := by
    rw [toList_buildHmacSignatureHeader]
    exact matchTimestamp_header (fun _ => Text.isDigit_of_mem_toString) (Text.toString_ne_nil timestamp) _
  have hnumber : Number.ofText (String.ofList (toString timestamp).toList) = .finite timestamp := by
    rw [String.ofList_toList]
    exact Number.ofText_ofInt (n := timestamp) hexact
  have hwithin : isBeyond (.finite timestamp) options.now options.toleranceSeconds = false := by
    refine decide_eq_false (not_lt.mpr ?_)
    exact_mod_cast hclock
  have htokens :
      v1TokensFrom 0 (buildHmacSignatureHeader hmac secret (toString timestamp) body).toList =
        [hmacBase64 hmac secret (toString timestamp ++ "." ++ body)] := by
    have hbefore : 'v' ∉ 't' :: '=' :: (toString timestamp).toList ++ [','] := by
      simp only [List.cons_append, List.mem_cons, List.mem_append, List.not_mem_nil, or_false]
      rintro (h | h | h | h)
      · exact absurd h (by decide)
      · exact absurd h (by decide)
      · exact (plain_of_isDigit (Text.isDigit_of_mem_toString h)).2.1 rfl
      · exact absurd h (by decide)
    have hsplit :
        't' :: '=' :: (toString timestamp).toList ++
            ',' :: ('v' :: '1' :: '=' :: hmacBase64 hmac secret (toString timestamp ++ "." ++ body)) =
          ('t' :: '=' :: (toString timestamp).toList ++ [',']) ++
            ('v' :: '1' :: '=' :: hmacBase64 hmac secret (toString timestamp ++ "." ++ body)) := by
      simp
    rw [toList_buildHmacSignatureHeader, hsplit, v1TokensFrom_append hbefore, hmacBase64,
      base64Text_eq, v1TokensFrom_token]
    · intro c hc
      obtain ⟨v, -, rfl⟩ := List.mem_map.mp hc
      exact isBase64Char_symbol v
    · have hlength := Base64.length_sextets
        (hmac (utf8 secret.toList) (utf8 (toString timestamp ++ "." ++ body).toList))
      have hpos := List.length_pos_iff.mpr
        (hdigest (utf8 secret.toList) (utf8 (toString timestamp ++ "." ++ body).toList))
      intro hnil
      rw [List.map_eq_nil_iff] at hnil
      rw [hnil, List.length_nil] at hlength
      omega
  unfold verifyHmacSignatureHeader
  rw [htimestamp]
  simp only [hnumber, htokens, Number.isFinite, hwithin, Number.text_natCast hexact]
  simp [signWebhookBody]

/-! ## The published receiver -/

theorem eq_of_someEqual
    {expected : Bytes} {sigs : List Bytes}
    (h : someEqual expected sigs = .ok true) :
    expected ∈ sigs := by
  induction sigs with
  | nil => cases h
  | cons sig rest ih =>
      rw [someEqual] at h
      split at h
      · cases h
      · split at h
        · next heq =>
            rw [heq]
            exact List.mem_cons_self
        · exact List.mem_cons_of_mem _ (ih h)

theorem trimmed_eq_self {part : List Char} (h : ∀ c ∈ part, Text.isWhiteSpace c = false) :
    trimmed part = part := by
  rw [trimmed, Number.trim_eq_self, String.toList_ofList]
  · intro c hc
    rw [String.toList_ofList] at hc
    exact h c (List.mem_of_head? hc)
  · intro c hc
    rw [String.toList_ofList] at hc
    exact h c (List.mem_of_getLast? hc)

/-- The receiver finds one signature in the header. -/
theorem parts_header (secret body : String) (timestamp : Nat) :
    (((buildHmacSignatureHeader hmac secret (toString timestamp) body).toList.splitOn ',').map
        trimmed).filter (fun part => "v1=".toList.isPrefixOf part) =
      ['v' :: '1' :: '=' :: hmacBase64 hmac secret (toString timestamp ++ "." ++ body)] := by
  have hfirst : ',' ∉ 't' :: '=' :: (toString timestamp).toList := by
    simp only [List.mem_cons]
    rintro (h | h | h)
    · exact absurd h (by decide)
    · exact absurd h (by decide)
    · exact (plain_of_isDigit (Text.isDigit_of_mem_toString h)).1 rfl
  have hsecond :
      ∀ c ∈ 'v' :: '1' :: '=' :: hmacBase64 hmac secret (toString timestamp ++ "." ++ body),
        c ≠ ',' ∧ Text.isWhiteSpace c = false := by
    simp only [List.mem_cons]
    rintro c (rfl | rfl | rfl | h)
    · decide
    · decide
    · decide
    · exact plain_of_mem_base64Text h
  have hfirstTrim : trimmed ('t' :: '=' :: (toString timestamp).toList) =
      't' :: '=' :: (toString timestamp).toList := by
    refine trimmed_eq_self ?_
    simp only [List.mem_cons]
    rintro c (rfl | rfl | h)
    · decide
    · decide
    · exact (plain_of_isDigit (Text.isDigit_of_mem_toString h)).2.2
  rw [toList_buildHmacSignatureHeader, List.splitOn_append_cons_self,
    List.splitOn_eq_singleton hfirst,
    List.splitOn_eq_singleton fun h => (hsecond ',' h).1 rfl, List.singleton_append,
    List.map_cons, List.map_singleton, hfirstTrim, trimmed_eq_self fun c hc => (hsecond c hc).2]
  rfl

theorem utf8_append (xs ys : List Char) : utf8 (xs ++ ys) = utf8 xs ++ utf8 ys :=
  List.flatMap_append

/-- The published receiver signs a longer text, and so accepts no delivery. -/
theorem verifyReference_ne_true
    (hinjective : ∀ key, Function.Injective (hmac key))
    (secret eventId body : String)
    (timestamp : Nat)
    (now : Int) :
    verifyReference hmac (deliveryRequest hmac secret eventId timestamp body) secret now ≠
      .ok true := by
  intro haccepts
  have hmem :
      hmac (utf8 secret.toList)
          (utf8 (eventId ++ "." ++ toString timestamp ++ "." ++ body).toList) =
        hmac (utf8 secret.toList) (utf8 (toString timestamp ++ "." ++ body).toList) := by
    unfold verifyReference at haccepts
    split at haccepts
    · cases haccepts
    · split at haccepts
      · cases haccepts
      · have hequal := eq_of_someEqual haccepts
        simpa only [deliveryRequest, parts_header, List.map_singleton, List.drop_succ_cons,
          List.drop_zero, List.mem_singleton, hmacBase64, fromBase64_base64Text] using hequal
  have hlength := congrArg List.length (hinjective _ hmem)
  have hdot : (utf8 ".".toList).length = 1 := by decide
  simp only [String.toList_append, utf8_append, List.length_append, hdot] at hlength
  omega

/-- No delivery is accepted by both verifiers. -/
theorem not_verifiersAgree
    (hmac : Bytes → Bytes → Bytes)
    (hinjective : ∀ key, Function.Injective (hmac key))
    (secret eventId : String)
    (timestamp : Nat)
    (body : String) :
    ¬ VerifiersAgree hmac secret eventId timestamp body := by
  intro hagree
  have hclock : |(timestamp : Int) - (timestamp : Int)| ≤ 300 := by simp
  exact verifyReference_ne_true hinjective secret eventId body timestamp timestamp
    (hagree timestamp hclock).1

end Signatures

/-! ## One delivery -/

/-- HMAC-SHA256 with key `whsec_test` of `1716998400.{}`. -/
def shortDigest : Bytes :=
  [0x56, 0xEC, 0x4B, 0xBC, 0x56, 0xC4, 0xC7, 0x14, 0xFF, 0x1F, 0x16, 0x54,
    0x63, 0x86, 0x22, 0x41, 0xFF, 0x7A, 0x24, 0x67, 0x1C, 0xD4, 0xE9, 0x84,
    0x57, 0x59, 0xA6, 0xE2, 0x56, 0x4D, 0x1F, 0x55]

/-- HMAC-SHA256 with key `whsec_test` of `evt_1.1716998400.{}`. -/
def longDigest : Bytes :=
  [0x56, 0x76, 0xFF, 0x8B, 0xE9, 0x89, 0xA0, 0x67, 0xEF, 0xBD, 0x48, 0xD4,
    0x01, 0x6F, 0x8F, 0xCA, 0xC8, 0x0D, 0x96, 0x1A, 0xA1, 0xF9, 0xC4, 0xCE,
    0x05, 0x7B, 0x26, 0x4F, 0x43, 0x75, 0x3F, 0xC6]

/-- The two recorded digests; other messages follow a longer prefix. -/
def recordedHmac (key message : Bytes) : Bytes :=
  if key = utf8 "whsec_test".toList ∧ message = utf8 "1716998400.\x7b\x7d".toList then shortDigest
  else if key = utf8 "whsec_test".toList ∧ message = utf8 "evt_1.1716998400.\x7b\x7d".toList then
    longDigest
  else List.replicate 33 0 ++ message

theorem recordedHmac_injective (key : Bytes) : Function.Injective (recordedHmac key) := by
  have hdigests : shortDigest ≠ longDigest := by decide
  have hshort : ∀ message : Bytes, shortDigest ≠ List.replicate 33 0 ++ message := by
    intro message h
    have hlength := congrArg List.length h
    rw [List.length_append, List.length_replicate] at hlength
    have hsize : shortDigest.length = 32 := rfl
    omega
  have hlong : ∀ message : Bytes, longDigest ≠ List.replicate 33 0 ++ message := by
    intro message h
    have hlength := congrArg List.length h
    rw [List.length_append, List.length_replicate] at hlength
    have hsize : longDigest.length = 32 := rfl
    omega
  intro m m' h
  unfold recordedHmac at h
  split_ifs at h with hm hm' hm' hm hm' hm' hm' hm'
  · exact hm.2.trans hm'.2.symm
  · exact absurd h hdigests
  · exact absurd h (hshort m')
  · exact absurd h.symm hdigests
  · exact hm.2.trans hm'.2.symm
  · exact absurd h (hlong m')
  · exact absurd h.symm (hshort m)
  · exact absurd h.symm (hlong m)
  · exact List.append_cancel_left h

theorem recordedHmac_ne_nil (key message : Bytes) : recordedHmac key message ≠ [] := by
  unfold recordedHmac
  split_ifs
  · decide
  · decide
  · simp

/-- The header of the delivery, read 300 seconds later. -/
theorem verifyHmacSignatureHeader_build_evt_1 :
    (∀ key message, recordedHmac key message ≠ []) ∧
      verifyHmacSignatureHeader recordedHmac "whsec_test" "\x7b\x7d"
        (buildHmacSignatureHeader recordedHmac "whsec_test" (toString 1716998400) "\x7b\x7d")
        { now := 1716998700, toleranceSeconds := 300 } = true :=
  ⟨recordedHmac_ne_nil, verifyHmacSignatureHeader_build recordedHmac_ne_nil (by decide) (by decide)⟩

/-- No clock makes both verifiers accept the delivery. -/
theorem not_verifiersAgree_evt_1 :
    (∀ key, Function.Injective (recordedHmac key)) ∧
      ¬ VerifiersAgree recordedHmac "whsec_test" "evt_1" 1716998400 "\x7b\x7d" :=
  ⟨recordedHmac_injective,
    not_verifiersAgree recordedHmac recordedHmac_injective "whsec_test" "evt_1" 1716998400 "\x7b\x7d"⟩

/-- The receiver refuses the delivery at the sender's own clock. -/
theorem verifyReference_evt_1 :
    (∀ key, Function.Injective (recordedHmac key)) ∧
      verifyReference recordedHmac
          (deliveryRequest recordedHmac "whsec_test" "evt_1" 1716998400 "\x7b\x7d") "whsec_test"
          1716998400 = .ok false ∧
        ¬ VerifiersAgree recordedHmac "whsec_test" "evt_1" 1716998400 "\x7b\x7d" := by
  have hrefused :
      verifyReference recordedHmac
          (deliveryRequest recordedHmac "whsec_test" "evt_1" 1716998400 "\x7b\x7d") "whsec_test"
          1716998400 = .ok false := by
    decide +kernel
  refine ⟨recordedHmac_injective, hrefused, ?_⟩
  intro hagree
  have haccepts := (hagree 1716998400 (by decide)).1
  rw [hrefused] at haccepts
  cases haccepts

end Webhooks
end NestBase
