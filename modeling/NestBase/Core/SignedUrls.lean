import NestBase.Core.StorageKeys
import NestBase.Lib.NumberText
import NestBase.Lib.PercentEncoding
import Mathlib.Data.List.DropRight

/-!
# Signed URLs

`signUrl` of the local and the Postgres adapter writes a URL for a key: the
base URL, the key with each of its segments percent-encoded, the expiry and a
signature over both.  `AssetController.get` reads such URLs under the route
`/api/assets/:key`, whose parameter is one segment of the path.

A key of one segment would be served until it expires (`served_of_segment`).
But `resolveStoragePath` gives every key three segments, so no URL that is
signed for it is routed to the controller (`not_reached`).
-/

namespace NestBase
namespace Files
namespace SignedUrls

open Lib
open Lib.PercentEncoding

/-! ## Signing -/

/-- The adapters that sign with a secret of the application. -/
inductive SigningAdapter where
  | localFs
  | postgres
deriving DecidableEq, Repr

def SigningAdapter.driver : SigningAdapter → Driver
  | localFs => .localFs
  | postgres => .postgres

/-- `baseUrl.replace(/\/+$/, "")` -/
def trimBaseUrl (baseUrl : String) : String :=
  String.ofList (baseUrl.toList.rdropWhile (· = '/'))

/-- The segments of a key, percent-encoded. -/
def encodedSegments (key : String) : List (List Char) :=
  (key.toList.splitOn '/').map fun segment =>
    (encodeURIComponent (String.ofList segment)).toList

def encodePathKey (key : String) : String :=
  String.ofList (['/'].intercalate (encodedSegments key))

section Signing

variable (hmac : String → String → String)

/-- The first 32 digits of the HMAC of key and expiry. -/
def signUrlToken (key : String) (expires : ℚ) (secret : String) : String :=
  String.ofList
    ((hmac secret (key ++ "." ++ Number.text (Number.ofRat expires))).toList.take 32)

/-- Path and query of a URL below a base. -/
def urlTail (key : String) (expires : ℚ) (sigParam : String) : String :=
  "/" ++ encodePathKey key ++ "?expires=" ++ Number.text (Number.ofRat expires) ++ sigParam

/-- `Math.floor(Date.now() / 1000)` -/
def unixSeconds (now : Nat) : Int :=
  (now / 1000 : Nat)

def signUrl
    (adapter : SigningAdapter) (store : Store) (baseUrl : String) (secret : Option String)
    (key : String) (ttlSeconds : Int) (now : Nat) :
    Except StorageError String :=
  if ttlSeconds ≤ 0 then
    .error
      (.failed
        ("storage: ttlSeconds must be positive (received: " ++ Text.ofInt ttlSeconds ++ ")"))
  else
    match slotOf adapter.driver key with
    | .error error => .error error
    | .ok slot =>
        if (store slot).isNone then .error .notFound
        else
          let expires := unixSeconds now + ttlSeconds
          let sigParam :=
            match Text.truthy secret with
            | none => ""
            | some secret => "&sig=" ++ signUrlToken hmac key expires secret
          .ok (trimBaseUrl baseUrl ++ urlTail key expires sigParam)

def verifySignUrlToken (key : String) (expires : ℚ) (sig secret : Option String) : Bool :=
  match Text.truthy secret with
  | none => true
  | some secret =>
      match Text.truthy sig with
      | none => false
      | some sig =>
          let a := Unicode.utf8 sig.toList
          let b := Unicode.utf8 (signUrlToken hmac key expires secret).toList
          decide (a.length = b.length) && decide (a = b)

end Signing

/-! ## Serving -/

inductive Response where
  /-- The controller goes on to deliver the asset. -/
  | served (key : String)
  | badRequest (message : String)
  | forbidden (message : String)
  | notFound (message : String)
  | gone (message : String)
deriving DecidableEq, Repr

def Response.status : Response → Nat
  | served _ => 200
  | badRequest _ => 400
  | forbidden _ => 403
  | notFound _ => 404
  | gone _ => 410

/-- A part of a query; an escape that is not complete stays as it is. -/
def unescapePart (part : List Char) : String :=
  let spaced := String.ofList (part.map fun c => if c = '+' then ' ' else c)
  (decodeURIComponent spaced).getD spaced

def parseField (field : List Char) : String × String :=
  (unescapePart (field.takeWhile (· ≠ '=')), unescapePart ((field.dropWhile (· ≠ '=')).drop 1))

/-- The fields of a query string. -/
def parseQuery (query : List Char) : List (String × String) :=
  (query.splitOn '&').map parseField

def queryField (name : String) (query : List (String × String)) : Option String :=
  (query.find? fun field => field.1 = name).map Prod.snd

/-- The last of the segments `/api/assets/:key` is matched against, which is not empty. -/
def routeSegments (root api assets key : List Char) : Option (List Char) :=
  if root = [] ∧ api = "api".toList ∧ assets = "assets".toList ∧ key ≠ [] then some key else none

/-- The parameter of `/api/assets/:key`; the path may end in a slash. -/
def routeKey (path : List Char) : Option (List Char) :=
  match path.splitOn '/' with
  | [root, api, assets, key] => routeSegments root api assets key
  | [root, api, assets, key, []] => routeSegments root api assets key
  | _ => none

section Serving

variable (hmac : String → String → String) (secret : Option String)

/-- The checks of `AssetController.get`, before the asset is delivered. -/
def AssetController.get (key : String) (query : List (String × String)) (now : Nat) : Response :=
  if key = "" then .badRequest "key required"
  else
    match queryField "expires" query with
    | none => .served key
    | some expires =>
        match Number.ofText expires with
        | .finite expiresAt =>
            if !verifySignUrlToken hmac key expiresAt (queryField "sig" query) secret then
              .forbidden "invalid signed URL signature"
            else if (unixSeconds now : ℚ) > expiresAt then .gone "signed URL has expired"
            else .served key
        | _ => .badRequest "invalid expires parameter"

/-- A GET of a path and query that the guards let pass. -/
def handle (target : String) (now : Nat) : Response :=
  let path := target.toList.takeWhile (· ≠ '?')
  let query := (target.toList.dropWhile (· ≠ '?')).drop 1
  match routeKey path with
  | none => .notFound ("Cannot GET " ++ target)
  | some parameter =>
      match decodeURIComponent (String.ofList parameter) with
      | none => .badRequest "Failed to decode param"
      | some key => AssetController.get hmac secret key (parseQuery query) now

end Serving

/-! ## What a URL reaches -/

section Reached

variable (hmac : String → String → String) (secret : Option String)

/-- The request for a key with an expiry and a signature. -/
def target (key : String) (expires : Int) (token : String) : String :=
  "/api/assets" ++ urlTail key expires ("&sig=" ++ token)

/-- Until it expires, the URL is routed with its key and passes. -/
def ServedBefore (key : String) (expires : Int) (token : String) : Prop :=
  ∀ now, unixSeconds now ≤ expires →
    handle hmac secret (target key expires token) now = .served key

def GoneAfter (key : String) (expires : Int) (token : String) : Prop :=
  ∀ now, expires < unixSeconds now →
    (handle hmac secret (target key expires token) now).status = 410

def ForbiddenWithExpires (key : String) (expires : Int) (token : String) : Prop :=
  ∀ other, other ≠ expires → ∀ now,
    (handle hmac secret (target key other token) now).status = 403

def ForbiddenWithKey (key : String) (expires : Int) (token : String) : Prop :=
  ∀ other, other ≠ key → ∀ now,
    (handle hmac secret (target other expires token) now).status = 403

/-- The URL reaches the object, and nothing but it. -/
structure Reaches (key : String) (expires : Int) (token : String) : Prop where
  served : ServedBefore hmac secret key expires token
  gone : GoneAfter hmac secret key expires token
  forbiddenExpires : ForbiddenWithExpires hmac secret key expires token
  forbiddenKey : ForbiddenWithKey hmac secret key expires token

end Reached

/-! ## The path -/

section Path

theorem encodedSegments_ne_nil (key : String) : encodedSegments key ≠ [] := by
  unfold encodedSegments
  rw [Ne, List.map_eq_nil_iff]
  exact List.splitOn_ne_nil _ _

/-- An encoded segment has neither a slash nor a question mark. -/
theorem not_mem_encodedSegment
    {key : String} {segment : List Char}
    (h : segment ∈ encodedSegments key) :
    '/' ∉ segment ∧ '?' ∉ segment := by
  obtain ⟨plain, -, rfl⟩ := List.mem_map.mp h
  exact ⟨not_mem_encodeURIComponent (by decide) (by decide) _,
    not_mem_encodeURIComponent (by decide) (by decide) _⟩

/-- The segments of the path of a target. -/
def pathSegments (key : String) : List (List Char) :=
  [] :: "api".toList :: "assets".toList :: encodedSegments key

theorem not_mem_pathSegments {key : String} {segment : List Char} (h : segment ∈ pathSegments key) :
    '/' ∉ segment ∧ '?' ∉ segment := by
  simp only [pathSegments, List.mem_cons] at h
  rcases h with rfl | rfl | rfl | h
  · decide
  · decide
  · decide
  · exact not_mem_encodedSegment h

/-- The query of a target. -/
def queryText (expires : Int) (token : String) : String :=
  "expires=" ++ Number.text (Number.ofRat expires) ++ "&sig=" ++ token

theorem toList_target (key : String) (expires : Int) (token : String) :
    (target key expires token).toList =
      ['/'].intercalate (pathSegments key) ++ '?' :: (queryText expires token).toList := by
  have hmount : "/api/assets".toList = '/' :: "api".toList ++ '/' :: "assets".toList := by decide
  have hslash : "/".toList = ['/'] := by decide
  have hmark : "?expires=".toList = '?' :: "expires=".toList := by decide
  rw [pathSegments, List.intercalate_cons_cons, List.intercalate_cons_cons,
    List.intercalate_cons_of_ne_nil (encodedSegments_ne_nil key)]
  simp only [target, urlTail, encodePathKey, queryText, String.toList_append, String.toList_ofList,
    List.append_assoc, hmount, hslash, hmark, List.cons_append, List.nil_append]

theorem not_mem_path (key : String) :
    ∀ c ∈ ['/'].intercalate (pathSegments key), decide (c ≠ '?') = true := by
  intro c hc
  rcases @mem_splitOn_or Char _ '/' c _ hc with rfl | ⟨segment, hsegment, hmem⟩
  · decide
  · rw [List.splitOn_intercalate _ (fun _ h => (not_mem_pathSegments h).1) (List.cons_ne_nil _ _)]
      at hsegment
    refine decide_eq_true fun hmark => ?_
    exact (not_mem_pathSegments hsegment).2 (hmark ▸ hmem)

theorem path_target (key : String) (expires : Int) (token : String) :
    ((target key expires token).toList.takeWhile (· ≠ '?')).splitOn '/' = pathSegments key := by
  rw [toList_target, List.takeWhile_append_of_pos (not_mem_path key),
    List.takeWhile_cons_of_neg (by decide), List.append_nil]
  exact List.splitOn_intercalate _ (fun _ h => (not_mem_pathSegments h).1) (List.cons_ne_nil _ _)

theorem query_target (key : String) (expires : Int) (token : String) :
    ((target key expires token).toList.dropWhile (· ≠ '?')).drop 1 =
      (queryText expires token).toList := by
  rw [toList_target, List.dropWhile_append_of_pos (not_mem_path key),
    List.dropWhile_cons_of_neg (by decide)]
  rfl

end Path

/-! ## Keys of several segments -/

section Unreached

variable {hmac : String → String → String} {secret : Option String}

/-- A key of several segments is not routed: its request ends in 404. -/
theorem status_of_segments
    {key : String}
    (hsegments : 3 ≤ (key.toList.splitOn '/').length)
    (expires : Int) (token : String) (now : Nat) :
    (handle hmac secret (target key expires token) now).status = 404 := by
  have hlength : (pathSegments key).length = (key.toList.splitOn '/').length + 3 := by
    simp only [pathSegments, encodedSegments, List.length_cons, List.length_map]
  have hroute : routeKey ((target key expires token).toList.takeWhile (· ≠ '?')) = none := by
    unfold routeKey
    rw [path_target]
    split
    · next heq =>
        rw [heq] at hlength
        simp only [List.length_cons, List.length_nil] at hlength
        omega
    · next heq =>
        rw [heq] at hlength
        simp only [List.length_cons, List.length_nil] at hlength
        omega
    · rfl
  unfold handle
  dsimp only
  rw [hroute]
  rfl

/-- A key of the storage path has three segments or more. -/
theorem segments_of_resolveStoragePath
    {unicode : UnicodeClasses} {tenantId filename key : String} {folderId : Option String}
    {fileId : Uuid}
    (hkey : resolveStoragePath unicode tenantId folderId fileId.value filename = .ok key) :
    3 ≤ (key.toList.splitOn '/').length := by
  obtain ⟨name, -, htext⟩ := resolveStoragePath_eq_ok hkey
  rw [htext, List.splitOn_append_cons_self, List.splitOn_append_cons_self, List.length_append,
    List.length_append]
  have hpositive (chars : List Char) : 0 < (chars.splitOn '/').length :=
    List.length_pos_iff.mpr (List.splitOn_ne_nil _ _)
  have htenant := hpositive tenantId.toList
  have hfolder := hpositive (folderId.getD ROOT_SEGMENT).toList
  have hname := hpositive name
  omega

/-- What `signUrl` returns, below the mount of the controller. -/
theorem signUrl_eq_ok
    {adapter : SigningAdapter} {store : Store} {origin baseUrl secret key url : String}
    {ttlSeconds : Int} {now : Nat}
    (hbase : trimBaseUrl baseUrl = origin ++ "/api/assets")
    (hsecret : secret ≠ "")
    (hsign : signUrl hmac adapter store baseUrl (some secret) key ttlSeconds now = .ok url) :
    0 < ttlSeconds ∧
      ∃ expires : Int,
        expires = unixSeconds now + ttlSeconds ∧
          url = origin ++ target key expires (signUrlToken hmac key expires secret) := by
  unfold signUrl at hsign
  rw [Text.truthy_eq_some_iff.mpr ⟨rfl, hsecret⟩, hbase] at hsign
  split at hsign
  · cases hsign
  · next hpositive =>
      split at hsign
      · cases hsign
      · split at hsign
        · cases hsign
        · cases hsign
          refine ⟨not_le.mp hpositive, _, rfl, ?_⟩
          rw [target, String.append_assoc]

/-- A stored object gets a URL. -/
theorem exists_signUrl
    {adapter : SigningAdapter} {store : Store} {key : String} {slot : Slot} {ttlSeconds : Int}
    (hpositive : 0 < ttlSeconds)
    (hslot : slotOf adapter.driver key = .ok slot)
    (hstored : (store slot).isSome)
    (baseUrl : String) (secret : Option String) (now : Nat) :
    ∃ url, signUrl hmac adapter store baseUrl secret key ttlSeconds now = .ok url := by
  obtain ⟨object, hobject⟩ := Option.isSome_iff_exists.mp hstored
  unfold signUrl
  rw [if_neg (not_le.mpr hpositive), hslot]
  dsimp only
  rw [hobject]
  exact ⟨_, rfl⟩

theorem unixSeconds_mul (n : Nat) : unixSeconds (n * 1000) = n := by
  rw [unixSeconds, Nat.mul_div_cancel _ (by decide)]

/-- None of the parts of `Reaches` holds of a key of several segments. -/
theorem not_reached_of_segments
    {key : String} {expires : Int}
    (hsegments : 3 ≤ (key.toList.splitOn '/').length)
    (hexpires : 0 ≤ expires)
    (token : String) :
    ¬ ServedBefore hmac secret key expires token ∧
      ¬ GoneAfter hmac secret key expires token ∧
        ¬ ForbiddenWithExpires hmac secret key expires token ∧
          ¬ ForbiddenWithKey hmac secret key expires token := by
  have hstatus (other : Int) (now : Nat) :
      (handle hmac secret (target key other token) now).status = 404 :=
    status_of_segments hsegments other token now
  refine ⟨fun hserved => ?_, fun hgone => ?_, fun hforbidden => ?_, fun hforbidden => ?_⟩
  · have hnow := hstatus expires 0
    rw [hserved 0 hexpires] at hnow
    cases hnow
  · have hlater : expires < unixSeconds ((expires.toNat + 1) * 1000) := by
      rw [unixSeconds_mul]
      omega
    have hnow := hgone _ hlater
    rw [hstatus] at hnow
    cases hnow
  · have hnow := hforbidden (expires + 1) (by omega) 0
    rw [hstatus] at hnow
    cases hnow
  · have hother : 3 ≤ ((key ++ "/x").toList.splitOn '/').length := by
      have hlast : "/x".toList = '/' :: ['x'] := by decide
      rw [String.toList_append, hlast, List.splitOn_append_cons_self, List.length_append]
      omega
    have hne : key ++ "/x" ≠ key := fun hsame => by
      have hlength := congrArg String.length hsame
      rw [String.length_append] at hlength
      have hlast : "/x".length = 2 := by decide
      omega
    have hnow := hforbidden (key ++ "/x") hne 0
    rw [status_of_segments hother] at hnow
    cases hnow

end Unreached

/-! ## Keys of one segment -/

section OneSegment

variable {hmac : String → String → String}

/-- A key of one segment is routed with the key. -/
theorem handle_of_segment
    {key : String} {secret : Option String}
    (hslash : '/' ∉ key.toList)
    (hkey : key ≠ "")
    (expires : Int) (token : String) (now : Nat) :
    handle hmac secret (target key expires token) now =
      AssetController.get hmac secret key (parseQuery (queryText expires token).toList) now := by
  have hsegments : encodedSegments key = [(encodeURIComponent key).toList] := by
    rw [encodedSegments, List.splitOn_eq_singleton hslash, List.map_singleton,
      String.ofList_toList]
  have hroute :
      routeKey ((target key expires token).toList.takeWhile (· ≠ '?')) =
        some (encodeURIComponent key).toList := by
    have hnonempty : (encodeURIComponent key).toList ≠ [] := fun hnil => hkey <| by
      have hdecode := decodeURIComponent_encodeURIComponent key
      rw [decodeURIComponent_of_not_mem (by rw [hnil]; exact List.not_mem_nil)] at hdecode
      rw [← Option.some.inj hdecode]
      exact String.toList_eq_nil_iff.mp hnil
    unfold routeKey
    rw [path_target, pathSegments, hsegments]
    exact if_pos ⟨rfl, rfl, rfl, hnonempty⟩
  unfold handle
  dsimp only
  rw [hroute, query_target]
  dsimp only
  rw [String.ofList_toList, decodeURIComponent_encodeURIComponent]

theorem unescapePart_eq {part : List Char} (hplus : '+' ∉ part) (hpercent : '%' ∉ part) :
    unescapePart part = String.ofList part := by
  have hspaced : (part.map fun c => if c = '+' then ' ' else c) = part := by
    refine (List.map_congr_left fun c hc => if_neg ?_).trans (List.map_id part)
    rintro rfl
    exact hplus hc
  have hescape : '%' ∉ (String.ofList part).toList := by
    rw [String.toList_ofList]
    exact hpercent
  simp only [unescapePart, hspaced, decodeURIComponent_of_not_mem hescape, Option.getD_some]

theorem parseField_eq
    {name value : List Char}
    (hequals : '=' ∉ name)
    (hname : '+' ∉ name ∧ '%' ∉ name)
    (hvalue : '+' ∉ value ∧ '%' ∉ value) :
    parseField (name ++ '=' :: value) = (String.ofList name, String.ofList value) := by
  have hne : ∀ c ∈ name, decide (c ≠ '=') = true := fun c hc =>
    decide_eq_true fun hsame => hequals (hsame ▸ hc)
  unfold parseField
  rw [List.takeWhile_append_of_pos hne, List.dropWhile_append_of_pos hne,
    List.takeWhile_cons_of_neg (by decide), List.dropWhile_cons_of_neg (by decide),
    List.append_nil, List.drop_one, List.tail_cons, unescapePart_eq hvalue.1 hvalue.2,
    unescapePart_eq hname.1 hname.2]

/-- A text without the marks of a query string. -/
def NoMarks (text : String) : Prop :=
  '&' ∉ text.toList ∧ '+' ∉ text.toList ∧ '%' ∉ text.toList

theorem mem_ofInt {n : Int} {c : Char} (h : c ∈ (Text.ofInt n).toList) :
    c = '-' ∨ c.isDigit = true := by
  cases n with
  | ofNat n => exact .inr (Text.isDigit_of_mem_toString h)
  | negSucc n =>
      rw [Text.ofInt, String.toList_append, List.mem_append] at h
      rcases h with hsign | hdigit
      · exact .inl (by simpa using hsign)
      · exact .inr (Text.isDigit_of_mem_toString hdigit)

theorem noMarks_ofInt (n : Int) : NoMarks (Text.ofInt n) :=
  ⟨fun hc => absurd (mem_ofInt hc) (by decide), fun hc => absurd (mem_ofInt hc) (by decide),
    fun hc => absurd (mem_ofInt hc) (by decide)⟩

theorem noMarks_of_isHexDigit {text : String} (h : ∀ c ∈ text.toList, isHexDigit c = true) :
    NoMarks text :=
  ⟨fun hmem => absurd (h _ hmem) (by decide), fun hmem => absurd (h _ hmem) (by decide),
    fun hmem => absurd (h _ hmem) (by decide)⟩

theorem not_mem_field {name value : List Char} (hname : '&' ∉ name) (hvalue : '&' ∉ value) :
    '&' ∉ name ++ '=' :: value := by
  intro hmem
  rcases List.mem_append.mp hmem with hmem | hmem
  · exact hname hmem
  · rcases List.mem_cons.mp hmem with hmem | hmem
    · cases hmem
    · exact hvalue hmem

/-- The fields of the query are read as they were written. -/
theorem parseQuery_queryText
    {token : String} {expires : Int}
    (htoken : NoMarks token)
    (hexpires : NoMarks (Number.text (Number.ofRat expires))) :
    parseQuery (queryText expires token).toList =
      [("expires", Number.text (Number.ofRat expires)), ("sig", token)] := by
  have htext :
      (queryText expires token).toList =
        ("expires".toList ++ '=' :: (Number.text (Number.ofRat expires)).toList) ++
          '&' :: ("sig".toList ++ '=' :: token.toList) := by
    have hfirst : "expires=".toList = "expires".toList ++ ['='] := by decide
    have hsecond : "&sig=".toList = '&' :: "sig".toList ++ ['='] := by decide
    simp only [queryText, String.toList_append, hfirst, hsecond, List.append_assoc,
      List.cons_append, List.nil_append]
  rw [parseQuery, htext,
    List.splitOn_append_cons_self_of_not_mem (not_mem_field (by decide) hexpires.1),
    List.splitOn_eq_singleton (not_mem_field (by decide) htoken.1), List.map_cons,
    List.map_singleton, parseField_eq (by decide) (by decide) hexpires.2,
    parseField_eq (by decide) (by decide) htoken.2]
  simp only [String.ofList_toList]

/-- A signature is accepted when it is the one of the key and the expiry. -/
theorem verifySignUrlToken_iff
    {key secret sig : String} {expires : ℚ}
    (hsecret : secret ≠ "")
    (hsig : sig ≠ "") :
    verifySignUrlToken hmac key expires (some sig) (some secret) = true ↔
      sig = signUrlToken hmac key expires secret := by
  unfold verifySignUrlToken
  rw [Text.truthy_eq_some_iff.mpr ⟨rfl, hsecret⟩]
  dsimp only
  rw [Text.truthy_eq_some_iff.mpr ⟨rfl, hsig⟩]
  simp only [Bool.and_eq_true, decide_eq_true_eq]
  constructor
  · rintro ⟨-, hbytes⟩
    exact Unicode.eq_of_utf8_eq hbytes
  · rintro rfl
    exact ⟨rfl, rfl⟩

/-- The controller's checks on the URL of a key of one segment. -/
theorem handle_of_token
    {key secret token : String} {expires : Int}
    (hslash : '/' ∉ key.toList)
    (hkey : key ≠ "")
    (hsecret : secret ≠ "")
    (htoken : ∀ c ∈ token.toList, isHexDigit c = true)
    (hnonempty : token ≠ "")
    (hexpires : expires.natAbs < 2 ^ 53)
    (now : Nat) :
    handle hmac (some secret) (target key expires token) now =
      if token ≠ signUrlToken hmac key expires secret then
        .forbidden "invalid signed URL signature"
      else if unixSeconds now > expires then .gone "signed URL has expired"
      else .served key := by
  rw [handle_of_segment hslash hkey,
    parseQuery_queryText (noMarks_of_isHexDigit htoken)
      (Number.text_intCast hexpires ▸ noMarks_ofInt expires)]
  unfold AssetController.get
  have hfield :
      queryField "expires" [("expires", Number.text (Number.ofRat expires)), ("sig", token)] =
        some (Number.text (Number.ofRat expires)) := rfl
  have hsig :
      queryField "sig" [("expires", Number.text (Number.ofRat expires)), ("sig", token)] =
        some token := rfl
  rw [if_neg hkey, hfield, hsig]
  dsimp only
  rw [Number.text_intCast hexpires, Number.ofText_ofInt hexpires]
  simp only [gt_iff_lt, Int.cast_lt]
  by_cases hsame : token = signUrlToken hmac key expires secret
  · rw [(verifySignUrlToken_iff hsecret hnonempty).mpr hsame, if_neg (not_not.mpr hsame)]
    rfl
  · have hrefused : verifySignUrlToken hmac key expires (some token) (some secret) = false :=
      Bool.eq_false_iff.mpr (mt (verifySignUrlToken_iff hsecret hnonempty).mp hsame)
    rw [hrefused, if_pos hsame]
    rfl

/--
A key of one segment is served until its URL expires, and gone afterwards; with
another expiry the URL is forbidden, as far as the signatures differ.  Expiries
are whole numbers below 2^53.
-/
theorem served_of_segment
    {key secret : String} {expires : Int}
    (hslash : '/' ∉ key.toList)
    (hkey : key ≠ "")
    (hsecret : secret ≠ "")
    (htoken : ∀ c ∈ (signUrlToken hmac key expires secret).toList, isHexDigit c = true)
    (hnonempty : signUrlToken hmac key expires secret ≠ "")
    (hexpires : expires.natAbs < 2 ^ 53) :
    ServedBefore hmac (some secret) key expires (signUrlToken hmac key expires secret) ∧
      GoneAfter hmac (some secret) key expires (signUrlToken hmac key expires secret) ∧
        ∀ other : Int, other.natAbs < 2 ^ 53 →
          signUrlToken hmac key expires secret ≠ signUrlToken hmac key other secret →
            ∀ now,
              (handle hmac (some secret)
                (target key other (signUrlToken hmac key expires secret)) now).status = 403 := by
  refine ⟨fun now hnow => ?_, fun now hnow => ?_, fun other hrange hother now => ?_⟩
  · rw [handle_of_token hslash hkey hsecret htoken hnonempty hexpires, if_neg (not_not.mpr rfl),
      if_neg (not_lt.mpr hnow)]
  · rw [handle_of_token hslash hkey hsecret htoken hnonempty hexpires, if_neg (not_not.mpr rfl),
      if_pos hnow]
    rfl
  · rw [handle_of_token hslash hkey hsecret htoken hnonempty hrange, if_pos hother]
    rfl

end OneSegment

/-- The digest for `photo.jpg`, the expiry and the secret. -/
def plainHmac (_secret _message : String) : String :=
  "6122147033e7001809d91915f610c6a1258aefe1d7a8e8589ca573d71f8d028f"

theorem served_of_segment_photo :
    let expires : Int := 1700000060
    let token := signUrlToken plainHmac "photo.jpg" expires "share-link-secret"
    handle plainHmac (some "share-link-secret") (target "photo.jpg" expires token)
      1700000059000 = .served "photo.jpg" := by
  intro expires token
  have htoken : ∀ c ∈ token.toList, isHexDigit c = true := List.all_eq_true.mp (by decide)
  have hserved :=
    (served_of_segment (by decide : '/' ∉ "photo.jpg".toList) (by decide) (by decide) htoken
      (by decide) (by decide)).1
  exact hserved 1700000059000 (by decide)

/-! ## Keys of the storage path -/

section StoragePath

variable {hmac : String → String → String}

/--
The URL that is signed for a key of the storage path is not served before it
expires and not gone afterwards, and neither another expiry nor another key in
its place makes it forbidden.
-/
theorem not_reached
    {unicode : UnicodeClasses} {tenantId filename key : String} {folderId : Option String}
    {fileId : Uuid} {adapter : SigningAdapter} {store : Store} {origin baseUrl secret url : String}
    {ttlSeconds : Int} {now : Nat}
    (hkey : resolveStoragePath unicode tenantId folderId fileId.value filename = .ok key)
    (hbase : trimBaseUrl baseUrl = origin ++ "/api/assets")
    (hsecret : secret ≠ "")
    (hsign : signUrl hmac adapter store baseUrl (some secret) key ttlSeconds now = .ok url) :
    ∃ expires token,
      expires = unixSeconds now + ttlSeconds ∧
        token = signUrlToken hmac key expires secret ∧
          url = origin ++ target key expires token ∧
            ¬ ServedBefore hmac (some secret) key expires token ∧
              ¬ GoneAfter hmac (some secret) key expires token ∧
                ¬ ForbiddenWithExpires hmac (some secret) key expires token ∧
                  ¬ ForbiddenWithKey hmac (some secret) key expires token := by
  obtain ⟨hpositive, expires, hsum, hurl⟩ := signUrl_eq_ok hbase hsecret hsign
  have hnow : 0 ≤ unixSeconds now := Int.natCast_nonneg _
  have hexpires : 0 ≤ expires := by omega
  exact ⟨expires, _, hsum, rfl, hurl,
    not_reached_of_segments (segments_of_resolveStoragePath hkey) hexpires _⟩

end StoragePath

/-! ## A photo -/

section Photo

def tenantA : String :=
  "00000000-0000-7000-8000-00000000000a"

def photoId : Uuid where
  value := "00000000-0000-7000-8000-000000000001"
  valid := by decide +kernel

def photoKey : String :=
  "00000000-0000-7000-8000-00000000000a/_root/00000000-0000-7000-8000-000000000001-photo.jpg"

theorem photoKey_eq :
    resolveStoragePath asciiClasses tenantA none photoId.value "photo.jpg" = .ok photoKey := by
  rfl

/-- The digest for the photo, its expiry and the secret. -/
def photoHmac (_secret _message : String) : String :=
  "11a7a74d6b3dd193e29794e8c122c23dd493cae59c2f8c6a00d7103ffb189574"

def photoStore : Store :=
  Function.update (fun _ => none) (.key photoKey) (some (.file [0xFF, 0xD8]))

theorem not_reached_photo :
    ∃ url,
      signUrl photoHmac .postgres photoStore "http://localhost:3000/api/assets/"
          (some "share-link-secret") photoKey 60 1700000000000 = .ok url ∧
        ∃ expires token,
          url = "http://localhost:3000" ++ target photoKey expires token ∧
            ¬ ServedBefore photoHmac (some "share-link-secret") photoKey expires token := by
  have hbase :
      trimBaseUrl "http://localhost:3000/api/assets/" =
        "http://localhost:3000" ++ "/api/assets" := by
    rfl
  have hsecret : "share-link-secret" ≠ "" := by decide
  have hstored : (photoStore (.key photoKey)).isSome = true := by
    rw [photoStore, Function.update_self]
    rfl
  have hslot : slotOf SigningAdapter.postgres.driver photoKey = .ok (.key photoKey) := rfl
  obtain ⟨url, hsign⟩ :=
    exists_signUrl (by decide : (0 : Int) < 60) hslot hstored "http://localhost:3000/api/assets/"
      (some "share-link-secret") 1700000000000
  obtain ⟨expires, token, -, -, hurl, hserved, -⟩ :=
    not_reached photoKey_eq hbase hsecret hsign
  exact ⟨url, hsign, expires, token, hurl, hserved⟩

/-- A photo in the root folder, with its signed URL. -/
theorem not_reaches_photo :
    resolveStoragePath asciiClasses tenantA none photoId.value "photo.jpg" = .ok photoKey ∧
      ¬ Reaches photoHmac (some "share-link-secret") photoKey 1700000060
        (signUrlToken photoHmac photoKey (1700000060 : Int) "share-link-secret") := by
  refine ⟨photoKey_eq, fun hreaches => ?_⟩
  exact (not_reached_of_segments (segments_of_resolveStoragePath photoKey_eq) (by decide) _).1
    hreaches.served

end Photo

end SignedUrls
end Files
end NestBase
