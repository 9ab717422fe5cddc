import NestBase.Core.AssetService
import NestBase.Lib.Memo
import NestBase.Lib.NumberText

/-!
# Runs of asset requests

`AssetController.get` builds the options of `AssetService.deliver` from a query
string.  Without options the bytes of the origin are returned as they are.  With
options the first request has them transformed, and later ones find the result
in the cache, under the JSON of the key and the options; there a number that is
not finite is `null`, and the MIME type of a hit is read off the options.

The cache keeps what was first stored under a name, so over an origin that stays
the same a request is answered what the transformer made of the bytes for the
first options that were written as its own, under the type its own name.
-/

namespace NestBase
namespace Files
namespace AssetRequests

open Lib
open AssetService

/-! ## Options of a query -/

section Queries

/-- A parameter of a query string; one that is repeated is a list. -/
inductive QueryValue where
  | text (value : String)
  | list (values : List String)
deriving DecidableEq, Repr

/-- `if (query.width)` -/
def QueryValue.isSet : QueryValue → Bool
  | text value => value ≠ ""
  | list _ => true

/-- `Number(query.width)` -/
def QueryValue.toNumber : QueryValue → Number
  | text value => Number.ofText value
  | list values => Number.ofText (",".intercalate values)

structure AssetQuery where
  width : Option QueryValue
  height : Option QueryValue
  format : Option QueryValue
  quality : Option QueryValue
  fit : Option QueryValue

def numberOption {ν : Type} (toNumber : QueryValue → ν) (value : Option QueryValue) : Option ν :=
  value.bind fun value => if value.isSet then some (toNumber value) else none

/-- The choice whose text is the parameter; a list is the text of none. -/
def choiceOption {α : Type} (choices : List α) (text : α → String) :
    Option QueryValue → Option α
  | some (.text value) => choices.find? fun choice => text choice == value
  | _ => none

/-- The options that `AssetController.get` builds. -/
def transformsOf {ν : Type} (toNumber : QueryValue → ν) (query : AssetQuery) :
    TransformOptions ν where
  width := numberOption toNumber query.width
  height := numberOption toNumber query.height
  format := choiceOption [.webp, .avif, .jpeg, .png] ImageFormat.text query.format
  quality := numberOption toNumber query.quality
  fit := choiceOption [.cover, .contain, .inside, .outside] ImageFit.text query.fit

/-- `JSON.stringify` of a number -/
def numberJson : Number → String
  | .finite value => Number.text (.finite value)
  | _ => "null"

end Queries

/-! ## Requests -/

section Requests

/-- `fault` is how storing what the request makes may fail. -/
structure AssetRequest where
  key : String
  query : AssetQuery
  fault : WriteFault
  now : Int

/-- `toNumber` is the conversion of a parameter; a transformer may tell numbers apart that are
written alike. -/
structure AssetRoutes (ν : Type) extends AssetServices ν where
  toNumber : QueryValue → ν

variable {ν : Type} (services : AssetRoutes ν)

def AssetRequest.options (request : AssetRequest) : TransformOptions ν :=
  transformsOf services.toNumber request.query

def cacheKeyOf (request : AssetRequest) : String :=
  computeCacheKey services.toAssetServices request.key (request.options services)

def answer (state : AssetState) (request : AssetRequest) : Except AssetError AssetDelivery :=
  (deliver services.toAssetServices request.key (request.options services) request.fault
    request.now state).1

def next (state : AssetState) (request : AssetRequest) : AssetState :=
  (deliver services.toAssetServices request.key (request.options services) request.fault
    request.now state).2

def run (state : AssetState) (requests : List AssetRequest) : AssetState :=
  requests.foldl (next services) state

/-- `origin.get(key)`, without a transform -/
def untouched (origin : String → Option Bytes) (key : String) : Except AssetError AssetDelivery :=
  match origin key with
  | none => .error .notFound
  | some bytes => .ok { bytes := bytes, mimeType := "application/octet-stream" }

/-- `transform(origin.get(key), options)` -/
def uncached (origin : String → Option Bytes) (request : AssetRequest) :
    Except AssetError AssetDelivery :=
  match origin request.key with
  | none => .error .notFound
  | some original =>
      match services.transform original (request.options services) with
      | none => .error .failed
      | some made => .ok made

/-- The text whose digest names the result of a request. -/
def requestText (request : AssetRequest) : String :=
  cacheKeyText services.number request.key (request.options services)

/-- The digest of the request's text is that of no other text before. -/
def Uncollided (earlier : List AssetRequest) (request : AssetRequest) : Prop :=
  ∀ other ∈ earlier,
    services.digest (requestText services other) =
        services.digest (requestText services request) →
      requestText services other = requestText services request

/-- The keys of a run are answered by the origin as at its start. -/
def Unchanged (state : AssetState) (earlier : List AssetRequest) (request : AssetRequest) : Prop :=
  ∀ passed, passed <+: earlier → ∀ asked ∈ earlier ++ [request],
    (run services state passed).origin asked.key = state.origin asked.key

/-- Every request of a run that starts without its result is answered as the transformer would,
where nothing fails. -/
def Transparent : Prop :=
  ∀ (state : AssetState) (earlier : List AssetRequest) (request : AssetRequest),
    Unchanged services state earlier request →
      state.cacheGet services.toAssetServices (cacheKeyOf services request) = none →
        Uncollided services earlier request →
          (∀ asked ∈ earlier ++ [request], asked.fault = .none) →
            answer services (run services state earlier) request =
              uncached services state.origin request

/-- What a request leaves in the cache, if its name is free there. -/
def stored (origin : String → Option Bytes) (request : AssetRequest) : Option Bytes :=
  if isPassthrough (request.options services) = true ∨ request.fault = .unwritten then none
  else (uncached services origin request).toOption.map AssetDelivery.bytes

/-- What the first of the earlier requests with the request's text left in the cache. -/
def firstStored
    (origin : String → Option Bytes)
    (earlier : List AssetRequest)
    (request : AssetRequest) : Option Bytes :=
  Memo.first (requestText services) (stored services origin) earlier (requestText services request)

/-- Without options the transformer leaves the bytes of the origin, and names no type of its own.
With options that were written so before, it makes of them what it made the first time, and the type
is the one the options name.  With others, nothing fails in storing what it makes. -/
def MakesAlike
    (origin : String → Option Bytes)
    (earlier : List AssetRequest)
    (request : AssetRequest) : Prop :=
  if isPassthrough (request.options services) then
    uncached services origin request = untouched origin request.key
  else
    match firstStored services origin earlier request with
    | some bytes =>
        uncached services origin request =
          .ok { bytes := bytes, mimeType := mimeTypeForOptions (request.options services) }
    | none => ∀ made, uncached services origin request = .ok made → request.fault = .none

end Requests

/-! ## The cache of a run -/

section Cache

variable {ν : Type} {services : AssetRoutes ν} {state : AssetState} {request : AssetRequest}

theorem answer_of_passthrough (h : isPassthrough (request.options services) = true) :
    answer services state request = untouched state.origin request.key := by
  unfold answer deliver untouched
  rw [if_pos h]
  cases state.origin request.key <;> rfl

/-- The MIME type of a hit is that of the options. -/
theorem answer_of_hit
    {bytes : Bytes}
    (h : isPassthrough (request.options services) = false)
    (hhit : state.cacheGet services.toAssetServices (cacheKeyOf services request) =
      some bytes) :
    answer services state request =
      .ok { bytes := bytes, mimeType := mimeTypeForOptions (request.options services) } := by
  rw [cacheKeyOf] at hhit
  unfold answer deliver
  rw [if_neg (by simp [h])]
  simp only [hhit]

theorem answer_of_miss
    (h : isPassthrough (request.options services) = false)
    (hmiss : state.cacheGet services.toAssetServices (cacheKeyOf services request) = none) :
    answer services state request =
      match uncached services state.origin request with
      | .error error => .error error
      | .ok made => if request.fault = .none then .ok made else .error .failed := by
  rw [cacheKeyOf] at hmiss
  unfold answer deliver uncached
  rw [if_neg (by simp [h])]
  simp only [hmiss]
  cases state.origin request.key with
  | none => rfl
  | some original =>
      dsimp only
      cases services.transform original (request.options services) with
      | none => rfl
      | some made => cases request.fault <;> rfl

theorem cacheGet_setCache
    (state : AssetState) (cacheKey : String) (bytes : Option Bytes) (k : String) :
    (state.setCache services.toAssetServices cacheKey bytes).cacheGet services.toAssetServices k =
      if cacheKey = k then bytes else state.cacheGet services.toAssetServices k := by
  unfold AssetState.setCache AssetState.cacheGet
  cases services.shared <;> simp [Function.update_apply, eq_comm]

/-- A request stores what the transformer makes, whether or not it is answered with it. -/
theorem cacheGet_next (state : AssetState) (request : AssetRequest) (k : String) :
    (next services state request).cacheGet services.toAssetServices k =
      (state.cacheGet services.toAssetServices k).or
        (Memo.entered (cacheKeyOf services) (stored services state.origin) k request) := by
  have hunchanged : ∀ cached : Option Bytes, cached = cached.or none :=
    fun cached => (Option.or_none).symm
  unfold next deliver Memo.entered
  by_cases hpass : isPassthrough (request.options services) = true
  · have hstored : stored services state.origin request = none := if_pos (Or.inl hpass)
    rw [if_pos hpass, hstored, ite_self]
    cases state.origin request.key <;> exact hunchanged _
  · rw [if_neg hpass]
    dsimp only
    rw [← cacheKeyOf]
    cases hcached : state.cacheGet services.toAssetServices (cacheKeyOf services request) with
    | some bytes =>
        by_cases hk : cacheKeyOf services request = k
        · rw [← hk, hcached]
          rfl
        · rw [if_neg hk]
          exact hunchanged _
    | none =>
        -- A free name takes what is made of the bytes, and the others stay.
        have hstored : stored services state.origin request =
            if request.fault = .unwritten then none
            else (uncached services state.origin request).toOption.map AssetDelivery.bytes := by
          simp [stored, hpass]
        have hset : ∀ made : AssetDelivery,
            (state.setCache services.toAssetServices (cacheKeyOf services request)
                (some made.bytes)).cacheGet services.toAssetServices k =
              (state.cacheGet services.toAssetServices k).or
                (if cacheKeyOf services request = k then some made.bytes else none) := by
          intro made
          rw [cacheGet_setCache]
          by_cases hk : cacheKeyOf services request = k
          · rw [if_pos hk, if_pos hk, ← hk, hcached]
            rfl
          · rw [if_neg hk, if_neg hk]
            exact hunchanged _
        rw [hstored, uncached]
        cases state.origin request.key with
        | none => simp [Except.toOption]
        | some original =>
            dsimp only
            cases services.transform original (request.options services) with
            | none => simp [Except.toOption]
            | some made =>
                cases request.fault with
                | unwritten => simp
                | written => exact hset made
                | none => exact hset made

variable {earlier : List AssetRequest}

/-- The cache answers a name with what was first stored under it. -/
theorem cacheGet_run
    {k : String}
    (hunchanged : Unchanged services state earlier request)
    (hempty : state.cacheGet services.toAssetServices k = none) :
    (run services state earlier).cacheGet services.toAssetServices k =
      Memo.first (cacheKeyOf services) (stored services state.origin) earlier k := by
  have hstep : ∀ passed asked, passed ++ [asked] <+: earlier →
      (next services (run services state passed) asked).cacheGet services.toAssetServices k =
        ((run services state passed).cacheGet services.toAssetServices k).or
          (Memo.entered (cacheKeyOf services) (stored services state.origin) k asked) := ?_
  · exact Memo.held_foldl (AssetState.cacheGet services.toAssetServices · k) hempty hstep
  intro passed asked hpassed
  have hin : asked ∈ earlier ++ [request] :=
    List.mem_append_left _ (hpassed.subset (by simp))
  have horigin : (run services state passed).origin asked.key = state.origin asked.key :=
    hunchanged passed ((List.prefix_append passed [asked]).trans hpassed) asked hin
  have hstored : stored services (run services state passed).origin asked =
      stored services state.origin asked := by
    unfold stored uncached
    rw [horigin]
  rw [cacheGet_next, Memo.entered, Memo.entered, hstored]

/-- Names of the cache are shared as the texts are. -/
theorem cacheKeyOf_eq_iff
    {other : AssetRequest}
    (huncollided : Uncollided services earlier request)
    (hother : other ∈ earlier) :
    cacheKeyOf services other = cacheKeyOf services request ↔
      requestText services other = requestText services request := by
  unfold cacheKeyOf computeCacheKey
  rw [String.append_right_inj]
  exact ⟨huncollided other hother, fun htext => congrArg services.digest htext⟩

theorem origin_next {k : String} (h : services.shared = true → k ≠ cacheKeyOf services request) :
    (next services state request).origin k = state.origin k := by
  have hset : ∀ bytes,
      (state.setCache services.toAssetServices (cacheKeyOf services request) bytes).origin k =
        state.origin k := by
    intro bytes
    unfold AssetState.setCache
    by_cases hshared : services.shared = true
    · rw [if_pos hshared]
      exact Function.update_of_ne (h hshared) _ _
    · rw [if_neg hshared]
  unfold next deliver
  by_cases hpass : isPassthrough (request.options services) = true
  · rw [if_pos hpass]
    cases state.origin request.key <;> rfl
  · rw [if_neg hpass]
    dsimp only
    rw [← cacheKeyOf]
    cases state.cacheGet services.toAssetServices (cacheKeyOf services request) with
    | some bytes => rfl
    | none =>
        cases state.origin request.key with
        | none => rfl
        | some original =>
            dsimp only
            cases services.transform original (request.options services) with
            | none => rfl
            | some made =>
                cases request.fault with
                | unwritten => rfl
                | written => exact hset _
                | none => exact hset _

/-- A run changes nothing at keys that are not names of the cache. -/
theorem unchanged_of_apart
    (h : services.shared = true →
      ∀ asked ∈ earlier ++ [request], ∀ other ∈ earlier, asked.key ≠ cacheKeyOf services other) :
    Unchanged services state earlier request := by
  intro passed hpassed asked hasked
  induction passed using List.reverseRecOn with
  | nil => rfl
  | append_singleton passed other ih =>
      have hother : other ∈ earlier := hpassed.subset (by simp)
      have hbefore := ih ((List.prefix_append passed [other]).trans hpassed)
      unfold run at hbefore ⊢
      rw [List.foldl_append, List.foldl_cons, List.foldl_nil, ← hbefore]
      exact origin_next fun hshared => h hshared asked hasked other hother

end Cache

/-! ## What a request is answered -/

section Answers

/-- A request of a run is answered as the transformer would exactly when the transformer makes of
the same text the same result, of the type that the options name. -/
theorem answer_eq_uncached_iff
    {ν : Type} {services : AssetRoutes ν} {state : AssetState} {earlier : List AssetRequest}
    {request : AssetRequest}
    (hunchanged : Unchanged services state earlier request)
    (hempty : state.cacheGet services.toAssetServices (cacheKeyOf services request) = none)
    (huncollided : Uncollided services earlier request) :
    answer services (run services state earlier) request =
        uncached services state.origin request ↔
      MakesAlike services state.origin earlier request := by
  have horigin : (run services state earlier).origin request.key = state.origin request.key :=
    hunchanged earlier (List.prefix_refl _) request (by simp)
  have huncached : uncached services (run services state earlier).origin request =
      uncached services state.origin request := by
    unfold uncached
    rw [horigin]
  have hcached : (run services state earlier).cacheGet services.toAssetServices
        (cacheKeyOf services request) =
      firstStored services state.origin earlier request :=
    (cacheGet_run hunchanged hempty).trans
      (Memo.first_congr fun other hother => cacheKeyOf_eq_iff huncollided hother)
  unfold MakesAlike
  by_cases hpass : isPassthrough (request.options services) = true
  · rw [if_pos hpass, answer_of_passthrough hpass, untouched, horigin, ← untouched]
    exact eq_comm
  · rw [if_neg hpass]
    rw [Bool.not_eq_true] at hpass
    cases hfirst : firstStored services state.origin earlier request with
    | some bytes =>
        rw [answer_of_hit hpass (hcached.trans hfirst)]
        exact eq_comm
    | none =>
        rw [answer_of_miss hpass (hcached.trans hfirst), huncached]
        cases uncached services state.origin request with
        | error error => simp
        | ok made => by_cases hfault : request.fault = .none <;> simp [hfault]

/-- The types of the results are those of `IpxAssetTransformer`, and the digest is that of the
one text that is digested. -/
def imageServices (shared : Bool) (digest : String) : AssetRoutes Number where
  toNumber := QueryValue.toNumber
  number := numberJson
  digest _ := digest
  transform bytes options :=
    some { bytes := bytes, mimeType := "image/" ++ (options.format.getD .png).text }
  shared := shared
  index := .inMemory

def imageState : AssetState where
  origin := fun key => if key = "k" then some [1] else none
  cache := fun _ => none
  rows := Record.empty

def imageRequest (format : Option QueryValue) : AssetRequest where
  key := "k"
  query :=
    { width := some (.text "100"), height := none, format := format, quality := none, fit := none }
  fault := .none
  now := 0

def webpServices : AssetRoutes Number :=
  imageServices true "37734b537100635203c4166c71ac1592"

def webpRequest : AssetRequest :=
  imageRequest (some (.text "webp"))

theorem uncollided_self {ν : Type} (services : AssetRoutes ν) (request : AssetRequest) :
    Uncollided services [request] request := by
  intro other hother _
  rw [List.mem_singleton.mp hother]

/-- Where the cache is the origin, a second request of the same is answered as the first one. -/
theorem answer_webpRequest_again :
    answer webpServices (run webpServices imageState [webpRequest]) webpRequest =
      .ok { bytes := [1], mimeType := "image/webp" } := by
  have hunchanged : Unchanged webpServices imageState [webpRequest] webpRequest := by
    refine unchanged_of_apart fun _ asked hasked other hother => ?_
    have hkey : asked = webpRequest := by
      simpa using hasked
    rw [hkey, List.mem_singleton.mp hother]
    change "k" ≠ "assets/37734b537100635203c4166c71ac1592"
    decide
  have hempty : imageState.cacheGet webpServices.toAssetServices
      (cacheKeyOf webpServices webpRequest) = none :=
    rfl
  have hfirst : firstStored webpServices imageState.origin [webpRequest] webpRequest =
      some [1] := by
    simp only [firstStored, Memo.first, List.findSome?_cons, Memo.entered, if_true]
    rfl
  have huncached : uncached webpServices imageState.origin webpRequest =
      .ok { bytes := [1], mimeType := "image/webp" } :=
    rfl
  refine ((answer_eq_uncached_iff hunchanged hempty (uncollided_self _ _)).mpr ?_).trans huncached
  unfold MakesAlike
  rw [if_neg (by decide), hfirst]
  exact huncached

def plainServices : AssetRoutes Number :=
  imageServices false "f46e7c97e8e41f78fa6be8d1c11acce9"

def plainRequest : AssetRequest :=
  imageRequest none

/-- A result that is cached loses the type the transformer gave it. -/
theorem not_transparent_plainRequest : ¬ Transparent plainServices := by
  intro h
  have hunchanged : Unchanged plainServices imageState [plainRequest] plainRequest :=
    unchanged_of_apart fun hshared => nomatch hshared
  have hanswer := h imageState [plainRequest] plainRequest hunchanged rfl (uncollided_self _ _)
    (by decide)
  have hleft : answer plainServices (run plainServices imageState [plainRequest]) plainRequest =
      .ok { bytes := [1], mimeType := "application/octet-stream" } :=
    answer_of_hit (by decide) rfl
  have hright : uncached plainServices imageState.origin plainRequest =
      .ok { bytes := [1], mimeType := "image/png" } :=
    rfl
  rw [hleft, hright] at hanswer
  exact absurd (congrArg AssetDelivery.mimeType (Except.ok.inj hanswer)) (by decide)

end Answers

end AssetRequests
end Files
end NestBase
