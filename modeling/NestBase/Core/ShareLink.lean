import NestBase.Lib.Base64
import NestBase.Lib.NumberText

/-!
# Share links

A share link is a token of file id, tenant id, expiry and signature, joined by dots.
`signShareLink` writes the expiry as the text of a number; `verifyShareLink` splits at
the dots and reads the expiry with `parseInt`.  Both sign the text of the number they
have.

A token is verified until it expires exactly when the expiry is a whole number below
10^21, for then its text has neither a point nor an exponent.  What is verified is
signed alike, where it can be signed at all (`share_iff`).
-/

namespace NestBase
namespace Files
namespace ShareLink

open Lib
open Lib.Number

/-- A keyed hash whose values are not empty and never collide. -/
structure Hmac where
  digest : String → String → Bytes
  nonempty : ∀ secret payload, digest secret payload ≠ []
  injective : ∀ secret, Function.Injective (digest secret)

structure SignShareLinkInput where
  fileId : String
  tenantId : String
  expiresAtMs : Number
  secret : String
deriving DecidableEq

structure VerifyShareLinkInput where
  token : String
  secret : String
  nowMs : Number
deriving DecidableEq

structure VerifiedShareLink where
  fileId : String
  tenantId : String
  expiresAtMs : Number
deriving DecidableEq

inductive ShareLinkError where
  | invalid (message : String)
  | expired (message : String)
deriving DecidableEq

section ShareLink

variable (hmac : Hmac)

def computeSignature (payload secret : String) : String :=
  Base64.encodeUrl (hmac.digest secret payload)

/-- `${fileId}.${tenantId}.${expiresAtMs}` -/
def payloadOf (fileId tenantId : String) (expiresAtMs : Number) : String :=
  fileId ++ "." ++ tenantId ++ "." ++ text expiresAtMs

def signShareLink (input : SignShareLinkInput) : Except ShareLinkError String :=
  if input.fileId = "" then .error (.invalid "fileId is required")
  else if input.tenantId = "" then .error (.invalid "tenantId is required")
  else if input.secret = "" then .error (.invalid "secret is required")
  else if !isFinite input.expiresAtMs || (finite 0).atLeast input.expiresAtMs then
    .error (.invalid "expiresAtMs must be a positive number")
  else
    let payload := payloadOf input.fileId input.tenantId input.expiresAtMs
    .ok (payload ++ "." ++ computeSignature hmac payload input.secret)

/-- `timingSafeEqual` of two texts, behind the check of their lengths. -/
def sameBytes (a b : String) : Bool :=
  let a := Unicode.utf8 a.toList
  let b := Unicode.utf8 b.toList
  decide (a.length = b.length) && decide (a = b)

/-- The checks of the four segments of a token. -/
def verifySegments (fileId tenantId expiresAtRaw sig secret : String) (nowMs : Number) :
    Except ShareLinkError VerifiedShareLink :=
  if fileId = "" ∨ tenantId = "" ∨ expiresAtRaw = "" ∨ sig = "" then
    .error (.invalid "token has empty segment(s)")
  else
    let expiresAtMs := parseInt expiresAtRaw
    if !isFinite expiresAtMs then .error (.invalid "expiresAt segment is not numeric")
    else
      let expectedSig := computeSignature hmac (payloadOf fileId tenantId expiresAtMs) secret
      if !sameBytes sig expectedSig then .error (.invalid "signature mismatch")
      else if nowMs.atLeast expiresAtMs then .error (.expired "token expired")
      else .ok { fileId := fileId, tenantId := tenantId, expiresAtMs := expiresAtMs }

/-- `token.split(".")` -/
def segments (token : String) : List String :=
  (token.toList.splitOn '.').map String.ofList

def verifyShareLink (input : VerifyShareLinkInput) : Except ShareLinkError VerifiedShareLink :=
  match segments input.token with
  | [fileId, tenantId, expiresAtRaw, sig] =>
      verifySegments hmac fileId tenantId expiresAtRaw sig input.secret input.nowMs
  | _ => .error (.invalid "token must have 4 dot-separated segments")

/-! ## Round trips -/

/-- The token is verified before the expiry and expired from then on. -/
structure RoundTrips (input : SignShareLinkInput) (token : String) : Prop where
  verified : ∀ nowMs, nowMs.lessThan input.expiresAtMs = true →
    verifyShareLink hmac { token := token, secret := input.secret, nowMs := nowMs } =
      .ok { fileId := input.fileId, tenantId := input.tenantId, expiresAtMs := input.expiresAtMs }
  expired : ∀ nowMs, nowMs.atLeast input.expiresAtMs = true →
    ∃ message,
      verifyShareLink hmac { token := token, secret := input.secret, nowMs := nowMs } =
        .error (.expired message)

/-- The last segment of a token. -/
def signatureSegment (token : String) : Option String :=
  (segments token).getLast?

/-- Signing a verified link with the secret gives the signature of its token. -/
def Resigns (input : VerifyShareLinkInput) (link : VerifiedShareLink) : Prop :=
  ∃ token,
    signShareLink hmac
        { fileId := link.fileId, tenantId := link.tenantId, expiresAtMs := link.expiresAtMs,
          secret := input.secret } = .ok token ∧
      signatureSegment token = signatureSegment input.token

/-- The number that the expiry of a token is read as. -/
def writtenExpiry (token : String) : Number :=
  parseInt ((segments token).getD 2 "")

end ShareLink

/-! ## Signatures -/

section Signatures

variable {hmac : Hmac}

theorem point_not_mem_computeSignature (payload secret : String) :
    '.' ∉ (computeSignature hmac payload secret).toList := by
  have hchars : ∀ v : Fin 64, Base64.urlChar v ≠ '.' := by
    intro v
    unfold Base64.urlChar
    rw [String.toList_ofList]
    revert v
    decide
  rw [computeSignature, Base64.encodeUrl, String.toList_ofList, List.mem_map]
  rintro ⟨v, -, hv⟩
  exact hchars v hv

theorem computeSignature_ne_empty (payload secret : String) :
    computeSignature hmac payload secret ≠ "" := by
  intro hempty
  have hlength := Base64.length_sextets (hmac.digest secret payload)
  have hnil : (Base64.sextets (hmac.digest secret payload)).map Base64.urlChar = [] := by
    rw [← String.toList_ofList (l := List.map _ _)]
    exact congrArg String.toList hempty
  rw [List.map_eq_nil_iff.mp hnil, List.length_nil] at hlength
  have hbytes := List.length_pos_iff.mpr (hmac.nonempty secret payload)
  omega

theorem computeSignature_injective {payload payload' secret : String}
    (h : computeSignature hmac payload secret = computeSignature hmac payload' secret) :
    payload = payload' := by
  refine hmac.injective secret ?_
  have hdecoded := congrArg (fun sig => Base64.decode (Unicode.ofText sig)) h
  simp only [computeSignature, Base64.decode_encodeUrl] at hdecoded
  exact hdecoded

theorem sameBytes_iff {a b : String} : sameBytes a b = true ↔ a = b := by
  unfold sameBytes
  rw [Bool.and_eq_true, decide_eq_true_eq, decide_eq_true_eq]
  constructor
  · rintro ⟨-, hbytes⟩
    exact Unicode.eq_of_utf8_eq hbytes
  · rintro rfl
    exact ⟨rfl, rfl⟩

/-- What signing returns. -/
theorem signShareLink_eq_ok {input : SignShareLinkInput} {token : String} :
    signShareLink hmac input = .ok token ↔
      input.fileId ≠ "" ∧ input.tenantId ≠ "" ∧ input.secret ≠ "" ∧
        (∃ x, input.expiresAtMs = finite x ∧ 0 < x) ∧
          token = payloadOf input.fileId input.tenantId input.expiresAtMs ++ "." ++
            computeSignature hmac (payloadOf input.fileId input.tenantId input.expiresAtMs)
              input.secret := by
  have hpositive : (!isFinite input.expiresAtMs || (finite 0).atLeast input.expiresAtMs) = false ↔
      ∃ x, input.expiresAtMs = finite x ∧ 0 < x := by
    cases input.expiresAtMs <;> simp [isFinite, atLeast]
  unfold signShareLink
  split
  · next hfile => simp [hfile]
  · next hfile =>
      split
      · next htenant => simp [htenant]
      · next htenant =>
          split
          · next hsecret => simp [hsecret]
          · next hsecret =>
              rw [← hpositive]
              split
              · next hnumber => simp [hnumber]
              · next hnumber =>
                  rw [Bool.not_eq_true] at hnumber
                  simp only [hfile, htenant, hsecret, hnumber, Except.ok.injEq, ne_eq,
                    not_false_eq_true, true_and]
                  exact eq_comm

end Signatures

/-! ## Segments -/

section Segments

variable {hmac : Hmac}

theorem segments_append (first rest : String) :
    segments (first ++ "." ++ rest) = segments first ++ segments rest := by
  have hpoint : ".".toList = ['.'] := by decide
  rw [segments, String.toList_append, String.toList_append, hpoint, List.append_assoc,
    List.singleton_append, List.splitOn_append_cons_self, List.map_append]
  rfl

example : segments "file.tenant" = ["file", "tenant"] := by decide +kernel

theorem segments_of_not_mem {part : String} (h : '.' ∉ part.toList) : segments part = [part] := by
  rw [segments, List.splitOn_eq_singleton h]
  simp

theorem two_le_length_segments {part : String} (h : '.' ∈ part.toList) :
    2 ≤ (segments part).length := by
  obtain ⟨front, back, hsplit⟩ := List.append_of_mem h
  have hfront := List.length_pos_iff.mpr (List.splitOn_ne_nil '.' front)
  have hback := List.length_pos_iff.mpr (List.splitOn_ne_nil '.' back)
  rw [segments, hsplit, List.splitOn_append_cons_self, List.length_map, List.length_append]
  omega

/-- The segments of a signed token. -/
theorem segments_token {input : SignShareLinkInput} {token : String}
    (hfile : '.' ∉ input.fileId.toList) (htenant : '.' ∉ input.tenantId.toList)
    (hsign : signShareLink hmac input = .ok token) :
    segments token =
      input.fileId :: input.tenantId :: (segments (text input.expiresAtMs) ++
        [computeSignature hmac (payloadOf input.fileId input.tenantId input.expiresAtMs)
          input.secret]) := by
  obtain ⟨-, -, -, -, rfl⟩ := signShareLink_eq_ok.mp hsign
  rw [segments_append, payloadOf, segments_append, segments_append, segments_of_not_mem hfile,
    segments_of_not_mem htenant, segments_of_not_mem (point_not_mem_computeSignature _ _)]
  rfl

/-- What verifying returns. -/
theorem verifyShareLink_eq_ok {input : VerifyShareLinkInput} {link : VerifiedShareLink} :
    verifyShareLink hmac input = .ok link →
      ∃ raw,
        segments input.token =
            [link.fileId, link.tenantId, raw,
              computeSignature hmac (payloadOf link.fileId link.tenantId link.expiresAtMs)
                input.secret] ∧
          link.fileId ≠ "" ∧ link.tenantId ≠ "" ∧ link.expiresAtMs = parseInt raw := by
  intro hverify
  unfold verifyShareLink at hverify
  split at hverify
  · next fileId tenantId raw sig hsegments =>
      unfold verifySegments at hverify
      split at hverify
      · cases hverify
      · next hempty =>
          dsimp only at hverify
          split at hverify
          · cases hverify
          · split at hverify
            · cases hverify
            · next hsame =>
                split at hverify
                · cases hverify
                · cases hverify
                  rw [Bool.not_eq_true, Bool.not_eq_false', sameBytes_iff] at hsame
                  simp only [not_or] at hempty
                  exact ⟨raw, by rw [hsegments, ← hsame], hempty.1, hempty.2.1, rfl⟩
  · cases hverify

end Segments

/-! ## Tokens that were signed -/

section Signed

variable {hmac : Hmac} {input : SignShareLinkInput} {token : String}

/-- A token whose expiry is read back is verified until it expires. -/
theorem verify_of_read
    (hfile : '.' ∉ input.fileId.toList) (htenant : '.' ∉ input.tenantId.toList)
    (hsign : signShareLink hmac input = .ok token)
    (hpoint : '.' ∉ (text input.expiresAtMs).toList)
    (hread : parseInt (text input.expiresAtMs) = input.expiresAtMs)
    (nowMs : Number) :
    verifyShareLink hmac { token := token, secret := input.secret, nowMs := nowMs } =
      if nowMs.atLeast input.expiresAtMs then .error (.expired "token expired")
      else .ok { fileId := input.fileId, tenantId := input.tenantId,
                 expiresAtMs := input.expiresAtMs } := by
  have hsegments := segments_token hfile htenant hsign
  rw [segments_of_not_mem hpoint] at hsegments
  obtain ⟨hf, ht, -, ⟨x, hx, -⟩, -⟩ := signShareLink_eq_ok.mp hsign
  have htext : text input.expiresAtMs ≠ "" := by
    intro hempty
    have hnan : parseInt "" = nan := by simp [parseInt]
    rw [hempty, hx, hnan] at hread
    cases hread
  have hsig := @computeSignature_ne_empty hmac
    (payloadOf input.fileId input.tenantId input.expiresAtMs) input.secret
  have hfinite : isFinite input.expiresAtMs = true := by
    rw [hx]
    rfl
  unfold verifyShareLink
  simp only [hsegments, List.singleton_append]
  unfold verifySegments
  rw [if_neg (by simp [hf, ht, htext, hsig])]
  simp only [hread, hfinite, sameBytes_iff.mpr, Bool.not_true, Bool.false_eq_true, if_false]

/-- A token whose expiry is read as another number is not verified. -/
theorem verify_of_unread
    (hfile : '.' ∉ input.fileId.toList) (htenant : '.' ∉ input.tenantId.toList)
    (hsign : signShareLink hmac input = .ok token)
    (hunread : '.' ∈ (text input.expiresAtMs).toList ∨
      text (parseInt (text input.expiresAtMs)) ≠ text input.expiresAtMs)
    (nowMs : Number) (link : VerifiedShareLink) :
    verifyShareLink hmac { token := token, secret := input.secret, nowMs := nowMs } ≠ .ok link := by
  have hsegments := segments_token hfile htenant hsign
  intro hverify
  obtain ⟨raw, hfour, -, -, hraw⟩ := verifyShareLink_eq_ok hverify
  rw [hsegments] at hfour
  by_cases hpoint : '.' ∈ (text input.expiresAtMs).toList
  · have hlength := congrArg List.length hfour
    have htwo := two_le_length_segments hpoint
    simp only [List.length_cons, List.length_append, List.length_nil] at hlength
    omega
  · rw [segments_of_not_mem hpoint, List.singleton_append] at hfour
    simp only [List.cons.injEq, and_true] at hfour
    obtain ⟨hf, ht, rfl, hsig⟩ := hfour
    have hpayload := computeSignature_injective hsig
    rw [← hf, ← ht, payloadOf, payloadOf] at hpayload
    have htext := (String.append_right_inj _).mp hpayload
    rw [hraw] at htext
    exact hunread.resolve_left hpoint htext.symm

theorem atLeast_of_lessThan {a b : Number} (h : a.lessThan b = true) : a.atLeast b = false := by
  cases a <;> cases b <;> simp_all [lessThan, atLeast]

/-- A signed token makes the round trip exactly when its expiry is a whole number below 10^21. -/
theorem roundTrips_iff_isShortWhole
    (hdouble : input.expiresAtMs.IsDouble)
    (hfile : '.' ∉ input.fileId.toList) (htenant : '.' ∉ input.tenantId.toList)
    (hsign : signShareLink hmac input = .ok token) :
    RoundTrips hmac input token ↔ ∃ n : Nat, input.expiresAtMs = finite n ∧ n < 10 ^ 21 := by
  obtain ⟨-, -, -, ⟨x, hx, hpos⟩, -⟩ := signShareLink_eq_ok.mp hsign
  rw [hx] at hdouble
  have hwhole : IsShortWhole x ↔ ∃ n : Nat, input.expiresAtMs = finite n ∧ n < 10 ^ 21 := by
    rw [hx]
    constructor
    · rintro ⟨n, rfl, -, hsmall⟩
      exact ⟨n, rfl, hsmall⟩
    · rintro ⟨n, hn, hsmall⟩
      cases hn
      exact ⟨n, rfl, by exact_mod_cast hpos, hsmall⟩
  rw [← hwhole]
  constructor
  · intro h
    by_contra hother
    refine verify_of_unread hfile htenant hsign ?_ (infinity true) _ (h.verified (infinity true) ?_)
    · rw [hx]
      rcases text_of_not_isShortWhole hpos hdouble hother with hpoint | ⟨n, hread, htext⟩
      · exact .inl hpoint
      · exact .inr (by rwa [hread])
    · rw [hx]
      rfl
  · intro h
    have hpoint : '.' ∉ (text input.expiresAtMs).toList := by
      rw [hx]
      intro hmem
      exact absurd (List.all_eq_true.mp (all_isDigit_text hdouble h) '.' hmem) (by decide)
    have hread : parseInt (text input.expiresAtMs) = input.expiresAtMs := by
      rw [hx]
      exact parseInt_text hdouble h
    have hverify := verify_of_read hfile htenant hsign hpoint hread
    refine ⟨fun nowMs hnow => ?_, fun nowMs hnow => ⟨"token expired", ?_⟩⟩
    · rw [hverify, atLeast_of_lessThan hnow]
      rfl
    · rw [hverify, hnow]
      rfl

end Signed

section Verified

variable {hmac : Hmac}

theorem signatureSegment_append {payload sig : String} (h : '.' ∉ sig.toList) :
    signatureSegment (payload ++ "." ++ sig) = some sig := by
  rw [signatureSegment, segments_append, segments_of_not_mem h, List.getLast?_concat]

theorem writtenExpiry_of_verify {input : VerifyShareLinkInput} {link : VerifiedShareLink}
    (hverify : verifyShareLink hmac input = .ok link) :
    writtenExpiry input.token = link.expiresAtMs := by
  obtain ⟨raw, hsegments, -, -, hraw⟩ := verifyShareLink_eq_ok hverify
  rw [writtenExpiry, hsegments, hraw]
  rfl

/-- A verified link is signed alike exactly when it can be signed. -/
theorem resigns_iff_signable {input : VerifyShareLinkInput} {link : VerifiedShareLink}
    (hverify : verifyShareLink hmac input = .ok link) :
    Resigns hmac input link ↔
      input.secret ≠ "" ∧ ∃ x, writtenExpiry input.token = finite x ∧ 0 < x := by
  obtain ⟨raw, hsegments, hfile, htenant, -⟩ := verifyShareLink_eq_ok hverify
  have hlast : signatureSegment input.token =
      some (computeSignature hmac (payloadOf link.fileId link.tenantId link.expiresAtMs)
        input.secret) := by
    rw [signatureSegment, hsegments]
    rfl
  rw [writtenExpiry_of_verify hverify]
  constructor
  · rintro ⟨token, hsign, -⟩
    obtain ⟨-, -, hsecret, hpositive, -⟩ := signShareLink_eq_ok.mp hsign
    exact ⟨hsecret, hpositive⟩
  · rintro ⟨hsecret, hpositive⟩
    refine ⟨_, signShareLink_eq_ok.mpr ⟨hfile, htenant, hsecret, hpositive, rfl⟩, ?_⟩
    rw [hlast]
    exact signatureSegment_append (point_not_mem_computeSignature _ _)

end Verified

/-! ## A link -/

section Link

def linkPayload : String :=
  "00000000-0000-7000-8000-000000000001.00000000-0000-7000-8000-00000000000a.1700000000000"

def linkDigest : Bytes :=
  [182, 218, 85, 170, 223, 235, 161, 133, 191, 114, 204, 13, 99, 150, 83, 108, 96, 213, 109, 154,
    192, 51, 254, 74, 183, 247, 54, 109, 236, 124, 233, 220]

/-- The digest of the payload of the link; other payloads are written out. -/
def linkHmac : Hmac where
  digest _ payload :=
    if payload = linkPayload then linkDigest else 0 :: Unicode.utf8 payload.toList
  nonempty secret payload := by
    split <;> simp [linkDigest]
  injective secret payload payload' h := by
    dsimp only at h
    split at h
    · next hfirst =>
        split at h
        · next hsecond => rw [hfirst, hsecond]
        · simp [linkDigest] at h
    · split at h
      · simp [linkDigest] at h
      · exact Unicode.eq_of_utf8_eq (List.cons.inj h).2

def linkInput (expiresAtMs : Number) : SignShareLinkInput where
  fileId := "00000000-0000-7000-8000-000000000001"
  tenantId := "00000000-0000-7000-8000-00000000000a"
  expiresAtMs := expiresAtMs
  secret := "share-link-secret"

theorem sign_linkInput {x : ℚ} (hpos : 0 < x) :
    ∃ token, signShareLink linkHmac (linkInput (finite x)) = .ok token :=
  ⟨_, signShareLink_eq_ok.mpr ⟨by simp [linkInput], by simp [linkInput],
    by simp [linkInput], ⟨x, rfl, hpos⟩, rfl⟩⟩

theorem point_not_mem_linkInput (expiresAtMs : Number) :
    '.' ∉ (linkInput expiresAtMs).fileId.toList ∧
      '.' ∉ (linkInput expiresAtMs).tenantId.toList := by
  simp [linkInput]

/-- An expiry between two milliseconds is written with a point, which splits the token. -/
theorem not_roundTrips_halfMillisecond :
    (finite (3400000000001 / 2)).IsDouble ∧
      ∃ token,
        signShareLink linkHmac (linkInput (finite (3400000000001 / 2))) = .ok token ∧
          ¬RoundTrips linkHmac (linkInput (finite (3400000000001 / 2))) token := by
  have hdouble : (finite (3400000000001 / 2)).IsDouble := by
    change ofRat (3400000000001 / 2) = finite (3400000000001 / 2)
    decide +kernel
  obtain ⟨token, hsign⟩ := sign_linkInput (x := 3400000000001 / 2) (by norm_num)
  obtain ⟨hfile, htenant⟩ := point_not_mem_linkInput (finite (3400000000001 / 2))
  refine ⟨hdouble, token, hsign, fun h => ?_⟩
  obtain ⟨n, hn, -⟩ := (roundTrips_iff_isShortWhole hdouble hfile htenant hsign).mp h
  have hvalue : (3400000000001 : ℚ) / 2 = n := by
    injection hn
  have htwice : 3400000000001 = 2 * n := by
    field_simp at hvalue
    exact_mod_cast hvalue
  omega

end Link

/-- Which signed tokens make the round trip, and which verified links are signed alike. -/
theorem share_iff (hmac : Hmac) :
    (∀ input token, input.expiresAtMs.IsDouble →
      '.' ∉ input.fileId.toList → '.' ∉ input.tenantId.toList →
        signShareLink hmac input = .ok token →
          (RoundTrips hmac input token ↔
            ∃ n : Nat, input.expiresAtMs = finite n ∧ n < 10 ^ 21)) ∧
      ∀ input link, verifyShareLink hmac input = .ok link →
        (Resigns hmac input link ↔
          input.secret ≠ "" ∧ ∃ x, writtenExpiry input.token = finite x ∧ 0 < x) :=
  ⟨fun _ _ hdouble hfile htenant hsign =>
      roundTrips_iff_isShortWhole hdouble hfile htenant hsign,
    fun _ _ hverify => resigns_iff_signable hverify⟩

theorem share_wholeMillisecond :
    ∃ token link,
      signShareLink linkHmac (linkInput (finite (1700000000000 : Nat))) = .ok token ∧
        RoundTrips linkHmac (linkInput (finite (1700000000000 : Nat))) token ∧
          verifyShareLink linkHmac
              { token := token, secret := "share-link-secret", nowMs := finite 0 } = .ok link ∧
            Resigns linkHmac
              { token := token, secret := "share-link-secret", nowMs := finite 0 } link := by
  obtain ⟨token, hsign⟩ := sign_linkInput (x := (1700000000000 : Nat)) (by norm_num)
  obtain ⟨hfile, htenant⟩ := point_not_mem_linkInput (finite (1700000000000 : Nat))
  have hround := ((share_iff linkHmac).1 _ token (isDouble_natCast (by norm_num)) hfile htenant
    hsign).mpr ⟨1700000000000, rfl, by norm_num⟩
  have hnow : (finite 0).lessThan (finite (1700000000000 : Nat)) = true := by
    simp [lessThan, atLeast]
  have hverify := hround.verified (finite 0) hnow
  refine ⟨token, _, hsign, hround, hverify, ((share_iff linkHmac).2 _ _ hverify).mpr ⟨?_, ?_⟩⟩
  · simp [linkInput]
  · exact ⟨(1700000000000 : Nat), writtenExpiry_of_verify hverify, by norm_num⟩

end ShareLink
end Files
end NestBase
