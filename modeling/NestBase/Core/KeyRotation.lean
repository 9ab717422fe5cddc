import NestBase.Core.FieldEncryption

/-!
# Rotation keeps every ciphertext readable

The invariant of a run (`RotationInv`): the legacy list is the comma-separated
list of the former primary keys, every encryption of the history was made
under a key that is still configured, and its ciphertext is the framed triple
of IV, tag and body.

Reading a ciphertext gives back exactly that triple (`envelope_frame`), so the
loop over the keys succeeds at a key which produced the triple and at no other
one.  `rotation_keeps_data` collects both directions.
-/

namespace NestBase
namespace FieldEncryption

open Lib
open Lib.Unicode

/-! ## Framing -/

variable {u : UInt16}

theorem rdropWhile_append_replicate {xs : JsString} (n : Nat) (h : u ∉ xs) :
    (xs ++ List.replicate n u).rdropWhile (· = u) = xs := by
  induction n with
  | zero =>
      rw [List.replicate_zero, List.append_nil, List.rdropWhile_eq_self_iff]
      intro hne hlast
      have hlast : xs.getLast hne = u := by simpa using hlast
      exact h (hlast ▸ List.getLast_mem hne)
  | succ n ih =>
      rw [List.replicate_succ', ← List.append_assoc, List.rdropWhile_concat_pos _ _ _ (by simp)]
      exact ih

/-- `+` and `/` as `-` and `_`. -/
def urlSymbol (v : Fin 64) : UInt16 :=
  if Base64.symbol v = 0x2B then 0x2D
  else if Base64.symbol v = 0x2F then 0x5F else Base64.symbol v

theorem urlSymbol_ne_pad : ∀ v : Fin 64, urlSymbol v ≠ Base64.pad := by
  decide

/-- `replaceAll` of the decoder undoes that of the encoder. -/
theorem restore_urlSymbol :
    ∀ v : Fin 64,
      (if urlSymbol v = 0x2D then 0x2B
        else if urlSymbol v = 0x5F then 0x2F else urlSymbol v) = Base64.symbol v := by
  decide

theorem base64UrlEncode_eq (buf : Bytes) :
    base64UrlEncode buf = (Base64.sextets buf).map urlSymbol := by
  unfold base64UrlEncode Base64.encode
  dsimp only
  rw [List.map_append, List.map_map, List.map_replicate]
  refine rdropWhile_append_replicate _ ?_
  intro hmem
  obtain ⟨v, -, hv⟩ := List.mem_map.mp hmem
  exact urlSymbol_ne_pad v hv

theorem base64UrlDecode_base64UrlEncode (buf : Bytes) :
    base64UrlDecode (base64UrlEncode buf) = buf := by
  have hrestored :
      (base64UrlEncode buf).map
          (fun u => if u = 0x2D then 0x2B else if u = 0x5F then 0x2F else u) =
        (Base64.sextets buf).map Base64.symbol := by
    rw [base64UrlEncode_eq, List.map_map]
    refine List.map_congr_left ?_
    intro v _
    exact restore_urlSymbol v
  unfold base64UrlDecode
  dsimp only
  rw [hrestored]
  split
  · exact Base64.decode_map_symbol_append Base64.value?_symbol Base64.symbol_ne_pad buf 0
  · exact Base64.decode_map_symbol_append Base64.value?_symbol Base64.symbol_ne_pad buf _

/-- The text of a triple of IV, tag and body. -/
def frame (iv tag body : Bytes) : JsString :=
  VERSION ++ [colon] ++ base64UrlEncode (iv ++ tag ++ body)

theorem idxOf?_frame (rest : JsString) :
    (VERSION ++ [colon] ++ rest).idxOf? colon = some 2 ∧
    (VERSION ++ [colon] ++ rest).take 2 = VERSION ∧
    (VERSION ++ [colon] ++ rest).drop 3 = rest :=
  ⟨rfl, rfl, rfl⟩

theorem envelope_frame
    {iv tag : Bytes} (body : Bytes)
    (hiv : iv.length = IV_BYTES)
    (htag : tag.length = TAG_BYTES) :
    FieldEncryptionService.envelope (frame iv tag body) = .ok (iv, tag, body) := by
  obtain ⟨hindex, htake, hdrop⟩ := idxOf?_frame (base64UrlEncode (iv ++ tag ++ body))
  have hlength : ¬ (iv ++ tag ++ body).length < IV_BYTES + TAG_BYTES := by
    simp only [List.length_append, hiv, htag]
    omega
  unfold FieldEncryptionService.envelope frame
  rw [hindex]
  dsimp only
  rw [htake, hdrop, if_neg (by simp), base64UrlDecode_base64UrlEncode, if_neg hlength]
  have hfirst : (iv ++ tag ++ body).take IV_BYTES = iv := by
    rw [List.append_assoc, ← hiv, List.take_left]
  have hsecond : ((iv ++ tag ++ body).drop IV_BYTES).take TAG_BYTES = tag := by
    rw [List.append_assoc, ← hiv, List.drop_left, ← htag, List.take_left]
  have hthird : (iv ++ tag ++ body).drop (IV_BYTES + TAG_BYTES) = body := by
    rw [← hiv, ← htag, ← List.length_append, List.drop_left]
  rw [hfirst, hsecond, hthird]

theorem isWellFormedCiphertext_frame
    {iv tag : Bytes} (body : Bytes)
    (hiv : iv.length = IV_BYTES)
    (htag : tag.length = TAG_BYTES) :
    isWellFormedCiphertext (frame iv tag body) = true := by
  obtain ⟨hindex, htake, hdrop⟩ := idxOf?_frame (base64UrlEncode (iv ++ tag ++ body))
  unfold isWellFormedCiphertext frame
  rw [hindex]
  dsimp only
  rw [htake, hdrop, if_neg (by simp), base64UrlEncode_eq, List.length_map,
    Base64.length_sextets, decide_eq_true_eq]
  simp only [List.length_append, hiv, htag, IV_BYTES, TAG_BYTES]
  omega

/-! ## The key list in the environment -/

theorem mem_encode {bytes : Bytes} (h : u ∈ Base64.encode bytes) :
    (∃ v, u = Base64.symbol v) ∨ u = Base64.pad := by
  rcases List.mem_append.mp h with h | h
  · obtain ⟨v, -, rfl⟩ := List.mem_map.mp h
    exact Or.inl ⟨v, rfl⟩
  · exact Or.inr (List.eq_of_mem_replicate h)

theorem symbol_plain : ∀ v : Fin 64,
    Base64.symbol v ≠ comma ∧ isTrimmed (Base64.symbol v) = false := by
  decide

/-- Base64 text has no comma and nothing that `trim` would remove. -/
theorem encode_plain {bytes : Bytes} (h : u ∈ Base64.encode bytes) :
    u ≠ comma ∧ isTrimmed u = false := by
  rcases mem_encode h with ⟨v, rfl⟩ | rfl
  · exact symbol_plain v
  · decide

theorem trim_eq_self {s : JsString} (h : ∀ u ∈ s, isTrimmed u = false) : trim s = s := by
  have hleft : s.dropWhile isTrimmed = s := by
    cases s with
    | nil => rfl
    | cons u rest => simp [h u List.mem_cons_self]
  unfold trim
  rw [hleft, List.rdropWhile_eq_self_iff]
  intro hne
  simp [h _ (List.getLast_mem hne)]

theorem encode_ne_nil (key : Kek) : Base64.encode key.val ≠ [] := by
  intro hnil
  have hlength : ((Base64.sextets key.val).map Base64.symbol).length = 0 := by
    have hmap : (Base64.sextets key.val).map Base64.symbol = [] :=
      (List.append_eq_nil_iff.mp hnil).1
    rw [hmap]
    rfl
  rw [List.length_map, Base64.length_sextets, key.property, KEK_BYTES] at hlength
  omega

theorem parseLegacyEntries_encode (keys : List Kek) :
    parseLegacyEntries (keys.map fun key => Base64.encode key.val) =
      .ok (keys.map Subtype.val) := by
  induction keys with
  | nil => rfl
  | cons key keys ih =>
      have htrim : trim (Base64.encode key.val) = Base64.encode key.val :=
        trim_eq_self fun u hu => (encode_plain hu).2
      have hlength : ¬ key.val.length ≠ KEK_BYTES := fun hne => hne key.property
      rw [List.map_cons, parseLegacyEntries, htrim, if_neg (encode_ne_nil key),
        Base64.decode_encode, if_neg hlength, ih]
      rfl

/-- The legacy list after some rotations: the former primaries, latest first. -/
def legacyList (keys : List Kek) : JsString :=
  [comma].intercalate (keys.map fun key => Base64.encode key.val)

theorem legacyList_ne_nil (key : Kek) (keys : List Kek) : legacyList (key :: keys) ≠ [] := by
  intro hnil
  cases keys with
  | nil => exact encode_ne_nil key (by simpa [legacyList, List.intercalate] using hnil)
  | cons key' keys => simp [legacyList, List.intercalate] at hnil

theorem prependLegacy_legacyList (key : Kek) (keys : List Kek) :
    prependLegacy key (legacyList keys) = legacyList (key :: keys) := by
  cases keys with
  | nil => simp [prependLegacy, legacyList, List.intercalate]
  | cons key' keys =>
      unfold prependLegacy
      rw [if_neg (legacyList_ne_nil key' keys)]
      simp [legacyList, List.intercalate]

theorem parseLegacyKeks_legacyList (keys : List Kek) :
    parseLegacyKeks (some (legacyList keys)) = .ok (keys.map Subtype.val) := by
  cases keys with
  | nil => rfl
  | cons key keys =>
      have hsplit :
          (legacyList (key :: keys)).splitOn comma =
            (key :: keys).map fun key => Base64.encode key.val := by
        refine List.splitOn_intercalate comma ?_ (by simp)
        intro entry hentry hmem
        obtain ⟨key', -, rfl⟩ := List.mem_map.mp hentry
        exact (encode_plain hmem).1 rfl
      unfold parseLegacyKeks
      dsimp only
      rw [if_neg (legacyList_ne_nil key keys), hsplit]
      exact parseLegacyEntries_encode (key :: keys)

/-! ## The invariant of a run -/

/-- The configured keys. -/
def configuredKeys (primary : Kek) (keys : List Kek) : List Bytes :=
  (primary :: keys).map Subtype.val

structure RotationInv (w : World) (keys : List Kek) : Prop where
  legacy : w.legacyKeks = legacyList keys
  configured : ∀ e ∈ w.log, e.key ∈ configuredKeys w.primary keys
  framed :
    ∀ e ∈ w.log,
      e.ciphertext = frame e.iv e.tag e.body ∧
      e.iv.length = IV_BYTES ∧
      e.tag.length = TAG_BYTES

/-- The configuration with the given primary and legacy keys. -/
def configOf (primary : Kek) (keys : List Kek) : MultiKekConfig where
  primary := primary.provider
  legacy := keys.map Kek.provider

theorem RotationInv.config_eq {w : World} {keys : List Kek} (hinv : RotationInv w keys) :
    w.config = .ok (configOf w.primary keys) := by
  unfold World.config
  rw [hinv.legacy, parseLegacyKeks_legacyList]
  simp only [Except.map, configOf, List.map_map]
  rfl

theorem assertKey_provider (kek : Kek) : assertKey kek.provider = .ok kek.val := by
  simp [assertKey, Kek.provider, kek.property]

section Runs

variable (aes : Aes256Gcm)

theorem encrypt_configOf (primary : Kek) (keys : List Kek) (plaintext : JsString) (iv : Iv) :
    MultiKekFieldEncryption.encrypt aes (configOf primary keys) plaintext iv =
      .ok (frame iv.val
        (aes.encrypt primary.val iv.val (utf8OfString plaintext)).1
        (aes.encrypt primary.val iv.val (utf8OfString plaintext)).2) := by
  simp only [MultiKekFieldEncryption.encrypt, FieldEncryptionService.encrypt, configOf,
    assertKey_provider, frame]

/-- The history entry of an encryption under the given key. -/
def produced (key : Kek) (plaintext : JsString) (iv : Iv) : Encryption where
  key := key.val
  iv := iv.val
  tag := (aes.encrypt key.val iv.val (utf8OfString plaintext)).1
  body := (aes.encrypt key.val iv.val (utf8OfString plaintext)).2
  plaintext := plaintext
  ciphertext :=
    frame iv.val
      (aes.encrypt key.val iv.val (utf8OfString plaintext)).1
      (aes.encrypt key.val iv.val (utf8OfString plaintext)).2

variable {w : World}

/-- Encryption always works: no rotation makes the configuration unreadable. -/
theorem step_encrypt
    {keys : List Kek}
    (hinv : RotationInv w keys)
    (plaintext : JsString) (iv : Iv) :
    step aes w (.encrypt plaintext iv) =
      some { w with log := produced aes w.primary plaintext iv :: w.log } := by
  simp only [step, hinv.config_eq, encrypt_configOf]
  rfl

theorem rotationInv_step
    {w' : World} {keys : List Kek} {event : Event}
    (hinv : RotationInv w keys)
    (hstep : step aes w event = some w') :
    ∃ keys', RotationInv w' keys' := by
  cases event with
  | rotate primary =>
      simp only [step, Option.some.injEq] at hstep
      subst hstep
      refine ⟨w.primary :: keys, ?_, ?_, hinv.framed⟩
      · rw [hinv.legacy]
        exact prependLegacy_legacyList w.primary keys
      · intro e he
        exact List.mem_cons_of_mem _ (hinv.configured e he)
  | encrypt plaintext iv =>
      rw [step_encrypt aes hinv] at hstep
      cases hstep
      refine ⟨keys, hinv.legacy, ?_, ?_⟩
      · intro e he
        rcases List.mem_cons.mp he with rfl | he
        · exact List.mem_cons_self
        · exact hinv.configured e he
      · intro e he
        rcases List.mem_cons.mp he with rfl | he
        · exact ⟨rfl, iv.property, aes.tag_length _ _ _⟩
        · exact hinv.framed e he

variable {primary : Kek}

theorem rotationInv_of_reaches (hrun : Reaches (step aes) anyEvent (initialWorld primary) w) :
    ∃ keys, RotationInv w keys := by
  refine hrun.invariant (I := fun t => ∃ keys, RotationInv t keys) ?_ ?_
  · exact ⟨[], rfl, by simp [initialWorld], by simp [initialWorld]⟩
  · rintro t e t' ⟨keys, hinv⟩ - hstep
    exact rotationInv_step aes hinv hstep

/-! ## Trying the keys -/

/--
The cipher as far as a run has used it: it decrypts what it encrypted and
rejects every triple that no encryption under the key has produced.
-/
structure AuthenticatesRun (log : List Encryption) : Prop where
  decrypts :
    ∀ e ∈ log, aes.decrypt e.key e.iv e.tag e.body = some (utf8OfString e.plaintext)
  rejects :
    ∀ key iv tag body,
      (∀ e ∈ log, ¬ (e.key = key ∧ e.iv = iv ∧ e.tag = tag ∧ e.body = body)) →
      aes.decrypt key iv tag body = none

/-- `randomBytes` never repeats an IV. -/
def FreshIvs (log : List Encryption) : Prop :=
  (log.map Encryption.iv).Nodup

variable {aes}
variable {input : JsString}
variable {iv tag : Bytes}

theorem decrypt_provider
    {body : Bytes}
    (henvelope : FieldEncryptionService.envelope input = .ok (iv, tag, body))
    (kek : Kek) :
    FieldEncryptionService.decrypt aes kek.provider input =
      match aes.decrypt kek.val iv tag body with
      | none => .error (.error (text "Unsupported state or unable to authenticate data"))
      | some plaintext => .ok (stringOfUtf8 plaintext) := by
  cases hopened : aes.decrypt kek.val iv tag body with
  | none => simp only [FieldEncryptionService.decrypt, henvelope, assertKey_provider, hopened]
  | some plaintext =>
      simp only [FieldEncryptionService.decrypt, henvelope, assertKey_provider, hopened]

/-- The loop returns what the first accepting key decrypts. -/
theorem decryptLegacy_of_mem
    {body plaintext : Bytes} {keys : List Kek} {kek : Kek}
    (henvelope : FieldEncryptionService.envelope input = .ok (iv, tag, body))
    (hagree :
      ∀ key ∈ keys, ∀ other, aes.decrypt key.val iv tag body = some other →
        other = plaintext)
    (hmem : kek ∈ keys)
    (hkek : aes.decrypt kek.val iv tag body = some plaintext) :
    MultiKekFieldEncryption.decryptLegacy aes input (keys.map Kek.provider) =
      .ok (stringOfUtf8 plaintext) := by
  induction keys with
  | nil => simp at hmem
  | cons key keys ih =>
      rw [List.map_cons, MultiKekFieldEncryption.decryptLegacy, decrypt_provider henvelope]
      cases hkey : aes.decrypt key.val iv tag body with
      | some other =>
          rw [hagree key List.mem_cons_self other hkey]
      | none =>
          have hrest : kek ∈ keys := by
            rcases List.mem_cons.mp hmem with rfl | hrest
            · rw [hkek] at hkey
              cases hkey
            · exact hrest
          exact ih (fun key' hkey' => hagree key' (List.mem_cons_of_mem _ hkey')) hrest

/-- No key accepts: the loop throws. -/
theorem decryptLegacy_of_rejects
    {body : Bytes} {keys : List Kek}
    (henvelope : FieldEncryptionService.envelope input = .ok (iv, tag, body))
    (hrejects : ∀ key ∈ keys, aes.decrypt key.val iv tag body = none) :
    ∃ thrown,
      MultiKekFieldEncryption.decryptLegacy aes input (keys.map Kek.provider) =
        .error thrown := by
  induction keys with
  | nil => exact ⟨_, rfl⟩
  | cons key keys ih =>
      rw [List.map_cons, MultiKekFieldEncryption.decryptLegacy, decrypt_provider henvelope,
        hrejects key List.mem_cons_self]
      exact ih fun key' hkey' => hrejects key' (List.mem_cons_of_mem _ hkey')

theorem decryptLegacy_of_envelope_error
    {input : JsString} {thrown : Thrown} (keys : List Kek)
    (henvelope : FieldEncryptionService.envelope input = .error thrown) :
    ∃ thrown',
      MultiKekFieldEncryption.decryptLegacy aes input (keys.map Kek.provider) =
        .error thrown' := by
  induction keys with
  | nil => exact ⟨_, rfl⟩
  | cons key keys ih =>
      rw [List.map_cons, MultiKekFieldEncryption.decryptLegacy]
      simp only [FieldEncryptionService.decrypt, henvelope]
      cases thrown with
      | error message => exact ih
      | ciphertextMalformed message => exact ⟨_, rfl⟩
      | multiKekDecrypt message => exact ih

/-- With fresh IVs only the key of an encryption accepts its triple. -/
theorem decrypt_agrees
    {log : List Encryption}
    (hauth : AuthenticatesRun aes log)
    (hfresh : FreshIvs log)
    {e : Encryption} (he : e ∈ log) {key other : Bytes}
    (hkey : aes.decrypt key e.iv e.tag e.body = some other) :
    other = utf8OfString e.plaintext := by
  by_contra hne
  have hnone : aes.decrypt key e.iv e.tag e.body = none := by
    refine hauth.rejects key e.iv e.tag e.body ?_
    rintro e' he' ⟨rfl, hiv, htag, hbody⟩
    have hsame : e' = e := List.inj_on_of_nodup_map hfresh he' he hiv
    subst hsame
    rw [hauth.decrypts e' he'] at hkey
    cases hkey
    exact hne rfl
  rw [hnone] at hkey
  cases hkey

theorem decrypt_of_mem_log
    {keys : List Kek}
    (hinv : RotationInv w keys)
    (hauth : AuthenticatesRun aes w.log)
    (hfresh : FreshIvs w.log)
    {e : Encryption} (he : e ∈ w.log) :
    MultiKekFieldEncryption.decrypt aes (configOf w.primary keys) e.ciphertext =
      .ok (stringOfUtf8 (utf8OfString e.plaintext)) := by
  obtain ⟨hframe, hiv, htag⟩ := hinv.framed e he
  have henvelope : FieldEncryptionService.envelope e.ciphertext = .ok (e.iv, e.tag, e.body) := by
    rw [hframe]
    exact envelope_frame e.body hiv htag
  have hwell : isWellFormedCiphertext e.ciphertext = true := by
    rw [hframe]
    exact isWellFormedCiphertext_frame e.body hiv htag
  obtain ⟨kek, hkek, hkey⟩ := List.mem_map.mp (hinv.configured e he)
  have hdecrypts := hauth.decrypts e he
  rw [← hkey] at hdecrypts
  unfold MultiKekFieldEncryption.decrypt
  rw [if_pos hwell]
  simp only [configOf]
  rw [decrypt_provider henvelope]
  cases hprimary : aes.decrypt w.primary.val e.iv e.tag e.body with
  | some other =>
      rw [decrypt_agrees hauth hfresh he hprimary]
  | none =>
      have hlegacy : kek ∈ keys := by
        rcases List.mem_cons.mp hkek with rfl | hlegacy
        · rw [hdecrypts] at hprimary
          cases hprimary
        · exact hlegacy
      exact decryptLegacy_of_mem henvelope
        (fun key _ other hother => decrypt_agrees hauth hfresh he hother) hlegacy hdecrypts

theorem decrypt_of_not_produced
    {log : List Encryption}
    (hauth : AuthenticatesRun aes log)
    {keys : List Kek}
    (hforeign :
      ∀ e ∈ log, e.key ∈ configuredKeys primary keys →
        FieldEncryptionService.envelope input ≠ .ok (e.iv, e.tag, e.body)) :
    ∃ thrown,
      MultiKekFieldEncryption.decrypt aes (configOf primary keys) input = .error thrown := by
  unfold MultiKekFieldEncryption.decrypt
  split
  · simp only [configOf]
    cases henvelope : FieldEncryptionService.envelope input with
    | error thrown =>
        simp only [FieldEncryptionService.decrypt, henvelope]
        cases thrown with
        | error message => exact decryptLegacy_of_envelope_error keys henvelope
        | ciphertextMalformed message => exact ⟨_, rfl⟩
        | multiKekDecrypt message => exact decryptLegacy_of_envelope_error keys henvelope
    | ok triple =>
        obtain ⟨iv, tag, body⟩ := triple
        have hrejects :
            ∀ key ∈ primary :: keys, aes.decrypt key.val iv tag body = none := by
          intro key hkey
          refine hauth.rejects key.val iv tag body ?_
          rintro e he ⟨hekey, rfl, rfl, rfl⟩
          exact hforeign e he (hekey ▸ List.mem_map_of_mem hkey) henvelope
        rw [decrypt_provider henvelope, hrejects primary List.mem_cons_self]
        exact decryptLegacy_of_rejects henvelope
          fun key hkey => hrejects key (List.mem_cons_of_mem _ hkey)
  · exact ⟨_, rfl⟩

variable (aes)

/-- One of the configured providers returns this key. -/
def MultiKekConfig.holds (config : MultiKekConfig) (key : Bytes) : Prop :=
  ∃ provider ∈ config.primary :: config.legacy, provider.getKek = .ok key

theorem holds_configOf {keys : List Kek} {key : Bytes} (hkey : key ∈ configuredKeys primary keys) :
    (configOf primary keys).holds key := by
  obtain ⟨kek, hkek, rfl⟩ := List.mem_map.mp hkey
  exact ⟨Kek.provider kek, List.mem_map_of_mem (f := Kek.provider) hkek, rfl⟩

/--
The deployment can still encrypt; every text ever encrypted is read back; and
what no configured key has produced is refused.
-/
def KeepsData (w : World) : Prop :=
  ∃ config,
    w.config = .ok config ∧
    (∀ plaintext iv, ∃ w', step aes w (.encrypt plaintext iv) = some w') ∧
    (∀ e ∈ w.log, ∀ t : String,
      e.plaintext = ofText t →
      MultiKekFieldEncryption.decrypt aes config e.ciphertext = .ok (ofText t)) ∧
    (∀ input,
      (∀ e ∈ w.log, config.holds e.key →
        FieldEncryptionService.envelope input ≠ .ok (e.iv, e.tag, e.body)) →
      ∃ thrown, MultiKekFieldEncryption.decrypt aes config input = .error thrown)

theorem rotation_keeps_data
    {primary : Kek} {w : World}
    (hrun : Reaches (step aes) anyEvent (initialWorld primary) w)
    (hauth : AuthenticatesRun aes w.log)
    (hfresh : FreshIvs w.log) :
    KeepsData aes w := by
  obtain ⟨keys, hinv⟩ := rotationInv_of_reaches aes hrun
  refine ⟨configOf w.primary keys, hinv.config_eq, ?_, ?_, ?_⟩
  · intro plaintext iv
    exact ⟨_, step_encrypt aes hinv plaintext iv⟩
  · intro e he t ht
    rw [decrypt_of_mem_log hinv hauth hfresh he, ht, stringOfUtf8_utf8OfString]
  · intro input hforeign
    refine decrypt_of_not_produced hauth ?_
    intro e he hkey
    exact hforeign e he (holds_configOf hkey)

end Runs

/-! ## A published test vector -/

def zeroKey : Kek := ⟨List.replicate 32 0, rfl⟩

def secondKey : Kek := ⟨List.replicate 32 1, rfl⟩

def zeroIv : Iv := ⟨List.replicate 12 0, rfl⟩

/-- Sixteen NUL characters. -/
def nulText : String := String.ofList (List.replicate 16 (Char.ofNat 0))

def vectorTag : Bytes :=
  [0xd0, 0xd1, 0xc8, 0xa7, 0x99, 0x99, 0x6b, 0xf0,
    0x26, 0x5b, 0x98, 0xb5, 0xd4, 0x8a, 0xb9, 0x19]

def vectorBody : Bytes :=
  [0xce, 0xa7, 0x40, 0x3d, 0x4d, 0x60, 0x6b, 0x6e,
    0x07, 0x4e, 0xc5, 0xd3, 0xba, 0xf3, 0x9d, 0x18]

/-- The cipher on the GCM test vector with zero key, zero IV and a zero block. -/
def gcmVector : Aes256Gcm where
  encrypt key iv plaintext :=
    if key = zeroKey.val ∧ iv = zeroIv.val ∧ plaintext = List.replicate 16 0 then
      (vectorTag, vectorBody)
    else (List.replicate 16 0, plaintext)
  decrypt key iv tag body :=
    if key = zeroKey.val ∧ iv = zeroIv.val ∧ tag = vectorTag ∧ body = vectorBody then
      some (List.replicate 16 0)
    else none
  tag_length := by
    intro key iv plaintext
    split <;> rfl

def vectorEncryption : Encryption :=
  produced gcmVector zeroKey (ofText nulText) zeroIv

/-- One encryption under the first key, then a rotation. -/
def rotatedOnce : World where
  primary := secondKey
  legacyKeks := Base64.encode zeroKey.val
  log := [vectorEncryption]

theorem utf8OfString_nulText :
    utf8OfString (ofText nulText) = List.replicate 16 0 := by
  decide

theorem encrypt_gcmVector :
    gcmVector.encrypt zeroKey.val zeroIv.val (utf8OfString (ofText nulText)) =
      (vectorTag, vectorBody) := by
  rw [utf8OfString_nulText]
  rfl

theorem authenticatesRun_gcmVector : AuthenticatesRun gcmVector rotatedOnce.log := by
  have htag : vectorEncryption.tag = vectorTag := congrArg Prod.fst encrypt_gcmVector
  have hbody : vectorEncryption.body = vectorBody := congrArg Prod.snd encrypt_gcmVector
  constructor
  · intro e he
    obtain rfl := List.mem_singleton.mp he
    rw [htag, hbody]
    show _ = some (utf8OfString (ofText nulText))
    rw [utf8OfString_nulText]
    rfl
  · intro key iv tag body hnone
    have hfar := hnone vectorEncryption (List.mem_singleton.mpr rfl)
    rw [htag, hbody] at hfar
    refine if_neg ?_
    rintro ⟨rfl, rfl, rfl, rfl⟩
    exact hfar ⟨rfl, rfl, rfl, rfl⟩

theorem rotation_keeps_data_gcmVector : KeepsData gcmVector rotatedOnce := by
  have hrun : Reaches (step gcmVector) anyEvent (initialWorld zeroKey) rotatedOnce :=
    reaches_of_runEvents
      (show runEvents (step gcmVector) (initialWorld zeroKey)
        [.encrypt (ofText nulText) zeroIv, .rotate secondKey] = some rotatedOnce from rfl)
  exact rotation_keeps_data gcmVector hrun authenticatesRun_gcmVector
    (List.nodup_singleton _)

end FieldEncryption
end NestBase
