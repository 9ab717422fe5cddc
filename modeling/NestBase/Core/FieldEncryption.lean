import NestBase.Lib.Base64
import NestBase.Lib.Transition
import Mathlib.Data.List.DropRight

/-!
# Field encryption with key rotation

`FieldEncryptionService` writes a ciphertext as `v1:` followed by the
URL-safe base64 of IV, tag and body.  `MultiKekFieldEncryption` encrypts under
the primary key and tries the primary and then each legacy key on decryption.
The legacy keys come from the environment as a comma-separated list of base64
texts (`parseLegacyKeks`).

AES-256-GCM is a parameter.  A run is any sequence of encryptions and
rotations; its history lists what the encryptions produced.
-/

namespace NestBase
namespace FieldEncryption

open Lib
open Lib.Unicode

/-- A string literal of the source. -/
abbrev text (s : String) : JsString := ofText s

def IV_BYTES : Nat := 12
def TAG_BYTES : Nat := 16
def KEK_BYTES : Nat := 32
def VERSION : JsString := text "v1"

/-- Code unit of `:`. -/
def colon : UInt16 := 0x3A

/-- Code unit of `,`. -/
def comma : UInt16 := 0x2C

/-- What the services throw. -/
inductive Thrown where
  | error (message : JsString)
  | ciphertextMalformed (message : JsString)
  | multiKekDecrypt (message : JsString)
deriving DecidableEq, Repr

/-- AES-256-GCM with a 16-byte tag; `decrypt` is `none` on an authentication failure. -/
structure Aes256Gcm where
  encrypt : Bytes → Bytes → Bytes → Bytes × Bytes
  decrypt : Bytes → Bytes → Bytes → Bytes → Option Bytes
  tag_length : ∀ key iv plaintext, (encrypt key iv plaintext).1.length = TAG_BYTES

/-- The result of `getKek()`. -/
structure KekProvider where
  getKek : Except JsString Bytes

/-- A result of `randomBytes(IV_BYTES)`. -/
abbrev Iv : Type := { iv : Bytes // iv.length = IV_BYTES }

/-! ## `base64url` -/

def base64UrlEncode (buf : Bytes) : JsString :=
  let standard := Base64.encode buf
  let swapped := standard.map fun u => if u = 0x2B then 0x2D else if u = 0x2F then 0x5F else u
  swapped.rdropWhile (· = Base64.pad)

def base64UrlDecode (value : JsString) : Bytes :=
  let restored := value.map fun u => if u = 0x2D then 0x2B else if u = 0x5F then 0x2F else u
  let pad :=
    if restored.length % 4 = 0 then []
    else List.replicate (4 - restored.length % 4) Base64.pad
  Base64.decode (restored ++ pad)

/-! ## One key -/

def assertKey (kek : KekProvider) : Except Thrown Bytes :=
  match kek.getKek with
  | .error message => .error (.error message)
  | .ok key =>
      if key.length = KEK_BYTES then .ok key
      else
        .error (.error (text ("KEK must be exactly " ++ toString KEK_BYTES ++
          " bytes (received " ++ toString key.length ++ ")")))

section Services

variable (aes : Aes256Gcm)

namespace FieldEncryptionService

def encrypt (kek : KekProvider) (plaintext : JsString) (iv : Iv) : Except Thrown JsString :=
  match assertKey kek with
  | .error thrown => .error thrown
  | .ok key =>
      let (tag, ct) := aes.encrypt key iv.val (utf8OfString plaintext)
      let payload := iv.val ++ tag ++ ct
      .ok (VERSION ++ [colon] ++ base64UrlEncode payload)

/-- IV, tag and body of a ciphertext. -/
def envelope (input : JsString) : Except Thrown (Bytes × Bytes × Bytes) :=
  match input.idxOf? colon with
  | none => .error (.error (text "field-encryption: malformed ciphertext"))
  | some at_ =>
      let version := input.take at_
      if version ≠ VERSION then
        .error (.error (text "field-encryption: unsupported version \"" ++ version ++ text "\""))
      else
        let payload := base64UrlDecode (input.drop (at_ + 1))
        if payload.length < IV_BYTES + TAG_BYTES then
          .error (.error (text "field-encryption: ciphertext too short"))
        else
          .ok (payload.take IV_BYTES, (payload.drop IV_BYTES).take TAG_BYTES,
            payload.drop (IV_BYTES + TAG_BYTES))

def decrypt (kek : KekProvider) (input : JsString) : Except Thrown JsString :=
  match envelope input with
  | .error thrown => .error thrown
  | .ok (iv, tag, ct) =>
      match assertKey kek with
      | .error thrown => .error thrown
      | .ok key =>
          match aes.decrypt key iv tag ct with
          | none =>
              .error (.error (text "Unsupported state or unable to authenticate data"))
          | some plaintext => .ok (stringOfUtf8 plaintext)

end FieldEncryptionService

/-! ## Several keys -/

structure MultiKekConfig where
  primary : KekProvider
  legacy : List KekProvider

/-- Version prefix and a lower bound on the length of the payload. -/
def isWellFormedCiphertext (value : JsString) : Bool :=
  match value.idxOf? colon with
  | none => false
  | some at_ =>
      if value.take at_ ≠ VERSION then false
      else decide (20 < (value.drop (at_ + 1)).length)

namespace MultiKekFieldEncryption

def encrypt (config : MultiKekConfig) (plaintext : JsString) (iv : Iv) :
    Except Thrown JsString :=
  FieldEncryptionService.encrypt aes config.primary plaintext iv

/-- The loop over the legacy keys. -/
def decryptLegacy (ciphertext : JsString) : List KekProvider → Except Thrown JsString
  | [] =>
      .error (.multiKekDecrypt
        (text "no KEK in the configured chain could decrypt the ciphertext"))
  | provider :: rest =>
      match FieldEncryptionService.decrypt aes provider ciphertext with
      | .ok plaintext => .ok plaintext
      | .error (.ciphertextMalformed message) => .error (.ciphertextMalformed message)
      | .error _ => decryptLegacy ciphertext rest

def decrypt (config : MultiKekConfig) (ciphertext : JsString) : Except Thrown JsString :=
  if isWellFormedCiphertext ciphertext then
    match FieldEncryptionService.decrypt aes config.primary ciphertext with
    | .ok plaintext => .ok plaintext
    | .error (.ciphertextMalformed message) => .error (.ciphertextMalformed message)
    | .error _ => decryptLegacy aes ciphertext config.legacy
  else
    .error (.ciphertextMalformed
      (text "multi-kek: ciphertext does not match expected v1:<base64url> format"))

end MultiKekFieldEncryption

end Services

/-! ## Legacy keys in the environment -/

/-- White space and line terminators that `trim` removes. -/
def isTrimmed (u : UInt16) : Bool :=
  let n := u.toNat
  decide (9 ≤ n ∧ n ≤ 13) || decide (n = 0x20) || decide (n = 0xA0) || decide (n = 0x1680) ||
    decide (0x2000 ≤ n ∧ n ≤ 0x200A) || decide (n = 0x2028) || decide (n = 0x2029) ||
    decide (n = 0x202F) || decide (n = 0x205F) || decide (n = 0x3000) || decide (n = 0xFEFF)

def trim (s : JsString) : JsString :=
  (s.dropWhile isTrimmed).rdropWhile isTrimmed

def parseLegacyEntries : List JsString → Except JsString (List Bytes)
  | [] => .ok []
  | raw :: rest =>
      let trimmed := trim raw
      if trimmed = [] then parseLegacyEntries rest
      else
        let buf := Base64.decode trimmed
        if buf.length ≠ KEK_BYTES then
          .error (text ("FIELD_ENCRYPTION_LEGACY_KEKS entries must decode to " ++
              toString KEK_BYTES ++ " bytes (received " ++ toString buf.length ++ " for \"") ++
            trimmed.take 8 ++ text "…\")")
        else (parseLegacyEntries rest).map (buf :: ·)

def parseLegacyKeks (input : Option JsString) : Except JsString (List Bytes) :=
  match input with
  | none => .ok []
  | some list => if list = [] then .ok [] else parseLegacyEntries (list.splitOn comma)

/-! ## Runs -/

/-- A 32-byte key. -/
abbrev Kek : Type := { key : Bytes // key.length = KEK_BYTES }

def Kek.provider (kek : Kek) : KekProvider where
  getKek := .ok kek.val

/-- One encryption of the run: what went in, what the cipher produced, what came out. -/
structure Encryption where
  key : Bytes
  iv : Bytes
  tag : Bytes
  body : Bytes
  plaintext : JsString
  ciphertext : JsString

/-- The deployed keys and the history of encryptions. -/
structure World where
  primary : Kek
  legacyKeks : JsString
  log : List Encryption

def initialWorld (primary : Kek) : World where
  primary := primary
  legacyKeks := []
  log := []

/-- The configuration the deployment boots with. -/
def World.config (w : World) : Except JsString MultiKekConfig :=
  (parseLegacyKeks (some w.legacyKeks)).map fun keys =>
    { primary := w.primary.provider
      legacy := keys.map fun key => { getKek := .ok key } }

inductive Event where
  /-- The given key becomes the primary; the previous one heads the legacy list. -/
  | rotate (primary : Kek)
  | encrypt (plaintext : JsString) (iv : Iv)

def prependLegacy (key : Kek) (legacyKeks : JsString) : JsString :=
  if legacyKeks = [] then Base64.encode key.val
  else Base64.encode key.val ++ [comma] ++ legacyKeks

def step (aes : Aes256Gcm) (w : World) : Event → Option World
  | .rotate primary =>
      some { w with primary := primary, legacyKeks := prependLegacy w.primary w.legacyKeks }
  | .encrypt plaintext iv =>
      match w.config with
      | .error _ => none
      | .ok config =>
          match MultiKekFieldEncryption.encrypt aes config plaintext iv with
          | .error _ => none
          | .ok ciphertext =>
              let (tag, body) := aes.encrypt w.primary.val iv.val (utf8OfString plaintext)
              some { w with
                log :=
                  { key := w.primary.val
                    iv := iv.val
                    tag := tag
                    body := body
                    plaintext := plaintext
                    ciphertext := ciphertext } :: w.log }

end FieldEncryption
end NestBase
