import NestBase.Core.FileStorage
import NestBase.Lib.JsonText
import NestBase.Lib.OrderedMap

/-!
# Transformed assets

`AssetService.deliver` transforms the bytes of a key and keeps the result in a
cache, under a digest of the key and the options.  An index has a row for each
cached result, with the key it was made from: `invalidateSource` reads the
index and drops what the rows of the key name.  A cron removes index rows of
more than 90 days.

The digest, the transformer and the printing of numbers are parameters.
-/

namespace NestBase
namespace Files

open Lib

/-! ## Keys of the cache -/

inductive ImageFormat where
  | webp
  | jpeg
  | png
  | avif
deriving DecidableEq, Repr

inductive ImageFit where
  | cover
  | contain
  | inside
  | outside
deriving DecidableEq, Repr

/-- `ν` are the numbers of the script. -/
structure TransformOptions (ν : Type) where
  width : Option ν
  height : Option ν
  format : Option ImageFormat
  quality : Option ν
  fit : Option ImageFit

def ImageFormat.text : ImageFormat → String
  | webp => "webp"
  | jpeg => "jpeg"
  | png => "png"
  | avif => "avif"

def ImageFit.text : ImageFit → String
  | cover => "cover"
  | contain => "contain"
  | inside => "inside"
  | outside => "outside"

section Keys

variable {ν : Type}

def isPassthrough (options : TransformOptions ν) : Bool :=
  options.width.isNone && options.height.isNone && options.format.isNone &&
    options.quality.isNone && options.fit.isNone

/-- The options that are set, by name. -/
def TransformOptions.entries (number : ν → String) (options : TransformOptions ν) :
    List (String × String) :=
  (options.fit.map fun fit => ("fit", Json.quote fit.text)).toList ++
    (options.format.map fun format => ("format", Json.quote format.text)).toList ++
      (options.height.map fun height => ("height", number height)).toList ++
        (options.quality.map fun quality => ("quality", number quality)).toList ++
          (options.width.map fun width => ("width", number width)).toList

/-- `stableStringify` of an object whose values are printed. -/
def stableObject (entries : List (String × String)) : String :=
  "\x7b" ++ ",".intercalate (entries.map fun entry => Json.quote entry.1 ++ ":" ++ entry.2) ++
    "\x7d"

/-- `stableStringify({ key, options })` -/
def cacheKeyText (number : ν → String) (key : String) (options : TransformOptions ν) : String :=
  stableObject
    [("key", Json.quote key), ("options", stableObject (options.entries number))]

def CACHE_PREFIX : String := "assets/"

def mimeTypeForOptions (options : TransformOptions ν) : String :=
  match options.format with
  | some .webp => "image/webp"
  | some .jpeg => "image/jpeg"
  | some .png => "image/png"
  | some .avif => "image/avif"
  | none => "application/octet-stream"

/-- The key can be read off the text. -/
theorem cacheKeyText_inj
    {number : ν → String} {key key' : String} {options options' : TransformOptions ν}
    (h : cacheKeyText number key options = cacheKeyText number key' options') :
    key = key' := by
  have hchars := congrArg String.toList h
  have hshape :
      ∀ (key : String) (options : TransformOptions ν),
        ∃ rest,
          (cacheKeyText number key options).toList =
            ("\x7b" ++ Json.quote "key" ++ ":").toList ++ ((Json.quote key).toList ++ rest) := by
    intro key options
    refine
      ⟨("," ++ (Json.quote "options" ++ ":" ++ stableObject (options.entries number)) ++
        "\x7d").toList, ?_⟩
    simp [cacheKeyText, stableObject, String.intercalate_cons_cons]
  obtain ⟨rest, hleft⟩ := hshape key options
  obtain ⟨rest', hright⟩ := hshape key' options'
  rw [hleft, hright] at hchars
  exact (Json.quote_append_inj (List.append_cancel_left hchars)).1

end Keys

/-! ## Services and state -/

structure AssetDelivery where
  bytes : Bytes
  mimeType : String
deriving DecidableEq

/-- Which index is bound. -/
inductive IndexKind where
  | inMemory
  | prisma
deriving DecidableEq, Repr

structure AssetServices (ν : Type) where
  number : ν → String
  /-- The first 32 hexadecimal digits of SHA-256. -/
  digest : String → String
  /-- `none` where the transformer throws. -/
  transform : Bytes → TransformOptions ν → Option AssetDelivery
  /-- Without a local driver the cache is the origin. -/
  shared : Bool
  index : IndexKind

def computeCacheKey {ν : Type} (services : AssetServices ν) (key : String)
    (options : TransformOptions ν) : String :=
  CACHE_PREFIX ++ services.digest (cacheKeyText services.number key options)

/-- A row of the index. -/
structure VariantCacheEntry where
  sourceKey : String
  createdAt : Int
deriving DecidableEq

structure AssetState where
  origin : String → Option Bytes
  /-- The cache's own store, unused where it is shared. -/
  cache : String → Option Bytes
  /-- The index, by cache key. -/
  rows : Record String VariantCacheEntry

section Service

variable {ν : Type}

def AssetState.cacheGet (services : AssetServices ν) (state : AssetState) (cacheKey : String) :
    Option Bytes :=
  if services.shared then state.origin cacheKey else state.cache cacheKey

/-- `cache.put` and `cache.delete` -/
def AssetState.setCache
    (services : AssetServices ν)
    (state : AssetState)
    (cacheKey : String)
    (bytes : Option Bytes) : AssetState :=
  if services.shared then { state with origin := Function.update state.origin cacheKey bytes }
  else { state with cache := Function.update state.cache cacheKey bytes }

/-- `VariantCacheIndex.record`; the upsert of a row leaves its `createdAt`. -/
def recordVariant
    (services : AssetServices ν)
    (rows : Record String VariantCacheEntry)
    (cacheKey : String)
    (entry : VariantCacheEntry) : Record String VariantCacheEntry :=
  match services.index, rows.get cacheKey with
  | .prisma, some old => rows.set cacheKey { entry with createdAt := old.createdAt }
  | _, _ => rows.set cacheKey entry

inductive AssetError where
  | notFound
  | failed
deriving DecidableEq, Repr

namespace AssetService

/-- `fault` is how storing the result or its row may fail. -/
def deliver
    (services : AssetServices ν)
    (key : String)
    (options : TransformOptions ν)
    (fault : WriteFault)
    (now : Int)
    (state : AssetState) : Except AssetError AssetDelivery × AssetState :=
  if isPassthrough options then
    match state.origin key with
    | none => (.error .notFound, state)
    | some bytes => (.ok { bytes := bytes, mimeType := "application/octet-stream" }, state)
  else
    let cacheKey := computeCacheKey services key options
    match state.cacheGet services cacheKey with
    | some bytes => (.ok { bytes := bytes, mimeType := mimeTypeForOptions options }, state)
    | none =>
        match state.origin key with
        | none => (.error .notFound, state)
        | some original =>
            match services.transform original options with
            | none => (.error .failed, state)
            | some result =>
                let stored := state.setCache services cacheKey (some result.bytes)
                match fault with
                | .unwritten => (.error .failed, state)
                | .written => (.error .failed, stored)
                | .none =>
                    let entry := { sourceKey := key, createdAt := now : VariantCacheEntry }
                    (.ok result,
                      { stored with rows := recordVariant services stored.rows cacheKey entry })

/-- The cache keys of the rows of a source. -/
def variantsOf (rows : Record String VariantCacheEntry) (sourceKey : String) : List String :=
  (rows.entries.filter fun entry => decide (entry.2.sourceKey = sourceKey)).map Prod.fst

/-- Delete what the cache holds under each key; a delete that throws is passed over. -/
def dropVariants (services : AssetServices ν) (fails : String → Bool) (state : AssetState) :
    List String → AssetState
  | [] => state
  | cacheKey :: rest =>
      dropVariants services fails
        (if fails cacheKey then state else state.setCache services cacheKey none) rest

/-- The index drops its rows first. -/
def invalidateSource
    (services : AssetServices ν)
    (sourceKey : String)
    (fails : String → Bool)
    (state : AssetState) : Nat × AssetState :=
  let cacheKeys := variantsOf state.rows sourceKey
  (cacheKeys.length,
    dropVariants services fails { state with rows := state.rows.removeAll cacheKeys } cacheKeys)

end AssetService

/-- Drop every entry under the prefix of the cache. -/
def sweepCache (services : AssetServices ν) (state : AssetState) : AssetState :=
  let sweep (store : String → Option Bytes) (key : String) : Option Bytes :=
    if Text.startsWith key CACHE_PREFIX then none else store key
  if services.shared then { state with origin := sweep state.origin }
  else { state with cache := sweep state.cache }

/-- `IpxCacheController.invalidate`, with its sweep where the index names nothing. -/
def invalidate
    (services : AssetServices ν)
    (sourceKey : String)
    (fails : String → Bool)
    (state : AssetState) : AssetState :=
  let cascaded := AssetService.invalidateSource services sourceKey fails state
  if 0 < cascaded.1 then cascaded.2 else sweepCache services cascaded.2

def DEFAULT_VARIANT_CACHE_RETENTION_DAYS : Int := 90

def cutoffMs (now : Int) : Int :=
  now - DEFAULT_VARIANT_CACHE_RETENTION_DAYS * 24 * 60 * 60 * 1000

/-- `VariantCacheCleanupCron.runOnce` -/
def runCleanup (now : Int) (state : AssetState) : AssetState :=
  let old := state.rows.entries.filter fun entry => decide (entry.2.createdAt < cutoffMs now)
  { state with rows := state.rows.removeAll (old.map Prod.fst) }

end Service

end Files
end NestBase
