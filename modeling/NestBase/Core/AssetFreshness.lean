import NestBase.Core.AssetService
import NestBase.Lib.Transition

/-!
# Assets after an invalidation

The bytes a key has held since its last invalidation are kept beside the
state.  What is delivered for a key is made from them (`Fresh`), in every run
in which the index keeps a row for whatever is cached: the cron removes no row
whose result is still there, and no write of a row and no delete fails.
-/

namespace NestBase
namespace Files
namespace AssetRuns

open Lib
open AssetService

section AssetRuns

variable {ν : Type}

inductive Event (ν : Type) where
  /-- `origin.put` -/
  | put (key : String) (bytes : Bytes)
  | deliver (key : String) (options : TransformOptions ν) (fault : WriteFault) (now : Int)
  | invalidateSource (key : String) (fails : String → Bool)
  /-- `IpxCacheController.invalidate` -/
  | invalidate (key : String) (fails : String → Bool)
  | cleanup (now : Int)

structure World where
  state : AssetState
  /-- The bytes a key has held since its last invalidation. -/
  held : String → Bytes → Prop
  /-- The texts whose digests name cache entries. -/
  delivered : List String

def initialWorld : World where
  state := { origin := fun _ => none, cache := fun _ => none, rows := Record.empty }
  held := fun _ _ => False
  delivered := []

/-- What the keys hold now is held as well. -/
def noteHeld (held : String → Bytes → Prop) (state : AssetState) (key : String) (bytes : Bytes) :
    Prop :=
  held key bytes ∨ state.origin key = some bytes

/-- Nothing is held for the key but what it holds now. -/
def resetHeld
    (held : String → Bytes → Prop) (source : String) (state : AssetState)
    (key : String) (bytes : Bytes) : Prop :=
  (key ≠ source ∧ held key bytes) ∨ state.origin key = some bytes

def step (services : AssetServices ν) (w : World) : Event ν → Option World
  | .put key bytes =>
      let state := { w.state with origin := Function.update w.state.origin key (some bytes) }
      some { w with state := state, held := noteHeld w.held state }
  | .deliver key options fault now =>
      let state := (deliver services key options fault now w.state).2
      some
        { state := state
          held := noteHeld w.held state
          delivered := cacheKeyText services.number key options :: w.delivered }
  | .invalidateSource key fails =>
      let state := (invalidateSource services key fails w.state).2
      some { w with state := state, held := resetHeld w.held key state }
  | .invalidate key fails =>
      let state := invalidate services key fails w.state
      some { w with state := state, held := resetHeld w.held key state }
  | .cleanup now =>
      let state := runCleanup now w.state
      some { w with state := state, held := noteHeld w.held state }

/-- The digest tells the text from those used before. -/
def Uncollided
    (services : AssetServices ν) (w : World) (key : String) (options : TransformOptions ν) : Prop :=
  ∀ text ∈ w.delivered,
    services.digest text = services.digest (cacheKeyText services.number key options) →
      text = cacheKeyText services.number key options

/-- What is cached keeps its row, and goes where its row goes. -/
def Indexed (services : AssetServices ν) (w : World) : Event ν → Prop
  | .put key _ => services.shared = true → ∀ text, key ≠ CACHE_PREFIX ++ services.digest text
  | .deliver key options fault _ => fault ≠ .written ∧ Uncollided services w key options
  | .invalidateSource key fails =>
      ∀ cacheKey ∈ variantsOf w.state.rows key, fails cacheKey = true →
        w.state.cacheGet services cacheKey = none
  | .invalidate key fails =>
      ∀ cacheKey ∈ variantsOf w.state.rows key, fails cacheKey = true →
        w.state.cacheGet services cacheKey = none
  | .cleanup now =>
      ∀ cacheKey row, w.state.rows.get cacheKey = some row → row.createdAt < cutoffMs now →
        w.state.cacheGet services cacheKey = none

/-- The bytes are a transform of bytes the key has held. -/
def Made
    (services : AssetServices ν) (held : String → Bytes → Prop) (key : String) (bytes : Bytes) :
    Prop :=
  ∃ original options result,
    held key original ∧ services.transform original options = some result ∧
      bytes = result.bytes

/-- The answer is made from bytes the key has held since its last invalidation. -/
def Fresh
    (services : AssetServices ν) (w : World) (key : String) (options : TransformOptions ν)
    (delivery : AssetDelivery) : Prop :=
  if isPassthrough options then w.held key delivery.bytes
  else Made services w.held key delivery.bytes

/-- The cached bytes have a row with the key they are made from. -/
structure Cached
    (services : AssetServices ν) (w : World) (text : String) (bytes : Bytes)
    (key : String) (options : TransformOptions ν) : Prop where
  used : cacheKeyText services.number key options ∈ w.delivered
  digest : services.digest (cacheKeyText services.number key options) = services.digest text
  row :
    ∃ row, w.state.rows.get (CACHE_PREFIX ++ services.digest text) = some row ∧
      row.sourceKey = key
  made : Made services w.held key bytes

structure Inv (services : AssetServices ν) (w : World) : Prop where
  origin : ∀ key bytes, w.state.origin key = some bytes → w.held key bytes
  cached :
    ∀ text bytes, w.state.cacheGet services (CACHE_PREFIX ++ services.digest text) = some bytes →
      ∃ key options, Cached services w text bytes key options

/-! ## The stores -/

variable {services : AssetServices ν}
variable {state : AssetState}
variable {key source : String}
variable {bytes : Bytes}

theorem Made.mono
    {held held' : String → Bytes → Prop}
    (h : Made services held key bytes)
    (hheld : ∀ bytes, held key bytes → held' key bytes) :
    Made services held' key bytes := by
  obtain ⟨original, options, result, horiginal, htransform, hbytes⟩ := h
  exact ⟨original, options, result, hheld original horiginal, htransform, hbytes⟩

theorem cacheGet_setCache (state : AssetState) (cacheKey other : String) (bytes : Option Bytes) :
    (state.setCache services cacheKey bytes).cacheGet services other =
      if other = cacheKey then bytes else state.cacheGet services other := by
  unfold AssetState.setCache AssetState.cacheGet
  cases services.shared with
  | true => simp only [if_true, Function.update_apply]
  | false => simp only [Bool.false_eq_true, if_false, Function.update_apply]

theorem rows_setCache (state : AssetState) (cacheKey : String) (bytes : Option Bytes) :
    (state.setCache services cacheKey bytes).rows = state.rows := by
  unfold AssetState.setCache
  split <;> rfl

theorem mem_variantsOf_iff {rows : Record String VariantCacheEntry} {sourceKey cacheKey : String} :
    cacheKey ∈ variantsOf rows sourceKey ↔
      ∃ row, rows.get cacheKey = some row ∧ row.sourceKey = sourceKey := by
  simp only [variantsOf, List.mem_map, List.mem_filter, decide_eq_true_eq,
    Record.get_eq_some_iff_mem]
  constructor
  · rintro ⟨⟨found, row⟩, ⟨hmem, hsource⟩, rfl⟩
    exact ⟨row, hmem, hsource⟩
  · rintro ⟨row, hmem, hsource⟩
    exact ⟨(cacheKey, row), ⟨hmem, hsource⟩, rfl⟩

theorem rows_dropVariants (fails : String → Bool) (state : AssetState) (cacheKeys : List String) :
    (dropVariants services fails state cacheKeys).rows = state.rows := by
  induction cacheKeys generalizing state with
  | nil => rfl
  | cons cacheKey rest ih =>
      rw [dropVariants, ih]
      split
      · rfl
      · exact rows_setCache state cacheKey none

/-- A key whose delete does not fail is dropped; the others stay. -/
theorem cacheGet_dropVariants
    (fails : String → Bool) (state : AssetState) (cacheKeys : List String) (other : String) :
    (dropVariants services fails state cacheKeys).cacheGet services other =
      if other ∈ cacheKeys ∧ fails other = false then none else state.cacheGet services other := by
  induction cacheKeys generalizing state with
  | nil => simp [dropVariants]
  | cons cacheKey rest ih =>
      rw [dropVariants, ih]
      by_cases hrest : other ∈ rest ∧ fails other = false
      · rw [if_pos hrest, if_pos ⟨List.mem_cons_of_mem _ hrest.1, hrest.2⟩]
      · rw [if_neg hrest]
        by_cases hsame : other = cacheKey
        · subst hsame
          cases hfails : fails other with
          | true => simp
          | false => simp [cacheGet_setCache]
        · have hno : ¬ (other ∈ cacheKey :: rest ∧ fails other = false) := fun hboth =>
            hrest ⟨(List.mem_cons.mp hboth.1).resolve_left hsame, hboth.2⟩
          rw [if_neg hno]
          split
          · rfl
          · rw [cacheGet_setCache, if_neg hsame]

theorem cacheGet_sweepCache (state : AssetState) (name : String) :
    (sweepCache services state).cacheGet services (CACHE_PREFIX ++ name) = none := by
  have hstarts : Text.startsWith (CACHE_PREFIX ++ name) CACHE_PREFIX = true :=
    Text.startsWith_append _ _
  unfold sweepCache AssetState.cacheGet
  cases services.shared with
  | true => simp [hstarts]
  | false => simp [hstarts]

/-- What `deliver` does, by what it finds. -/
theorem deliver_cases
    (key : String) (options : TransformOptions ν) (fault : WriteFault) (now : Int)
    (state : AssetState) :
    (∃ bytes, isPassthrough options = true ∧ state.origin key = some bytes ∧
      deliver services key options fault now state =
        (.ok { bytes := bytes, mimeType := "application/octet-stream" }, state)) ∨
    (∃ bytes, isPassthrough options = false ∧
      state.cacheGet services (computeCacheKey services key options) = some bytes ∧
        deliver services key options fault now state =
          (.ok { bytes := bytes, mimeType := mimeTypeForOptions options }, state)) ∨
    (∃ error, deliver services key options fault now state = (.error error, state)) ∨
    (∃ original result, isPassthrough options = false ∧
      state.origin key = some original ∧ services.transform original options = some result ∧
        ((fault = .written ∧
          (deliver services key options fault now state).1 = .error .failed) ∨
          deliver services key options fault now state =
            (.ok result,
              { state.setCache services (computeCacheKey services key options)
                  (some result.bytes) with
                rows :=
                  recordVariant services state.rows (computeCacheKey services key options)
                    { sourceKey := key, createdAt := now } }))) := by
  unfold deliver
  cases hpass : isPassthrough options with
  | true =>
      cases horigin : state.origin key with
      | none => exact Or.inr (Or.inr (Or.inl ⟨.notFound, rfl⟩))
      | some bytes => exact Or.inl ⟨bytes, rfl, rfl, rfl⟩
  | false =>
      dsimp only
      rw [if_neg Bool.false_ne_true]
      cases hcached : state.cacheGet services (computeCacheKey services key options) with
      | some bytes => exact Or.inr (Or.inl ⟨bytes, rfl, rfl, rfl⟩)
      | none =>
          cases horigin : state.origin key with
          | none => exact Or.inr (Or.inr (Or.inl ⟨.notFound, rfl⟩))
          | some original =>
              dsimp only
              cases htransform : services.transform original options with
              | none => exact Or.inr (Or.inr (Or.inl ⟨.failed, rfl⟩))
              | some result =>
                  cases fault with
                  | unwritten => exact Or.inr (Or.inr (Or.inl ⟨.failed, rfl⟩))
                  | written =>
                      exact
                        Or.inr
                          (Or.inr
                            (Or.inr ⟨original, result, rfl, rfl, htransform, Or.inl ⟨rfl, rfl⟩⟩))
                  | none =>
                      refine
                        Or.inr (Or.inr (Or.inr ⟨original, result, rfl, rfl, htransform, Or.inr ?_⟩))
                      dsimp only
                      rw [rows_setCache]

theorem get_recordVariant
    (services : AssetServices ν)
    (rows : Record String VariantCacheEntry)
    (cacheKey other : String)
    (entry : VariantCacheEntry) :
    ∃ createdAt,
      (recordVariant services rows cacheKey entry).get other =
        if cacheKey = other then some { entry with createdAt := createdAt } else rows.get other := by
  unfold recordVariant
  split
  · next old _ _ => exact ⟨old.createdAt, Record.get_set _ _ _ _⟩
  · exact ⟨entry.createdAt, Record.get_set _ _ _ _⟩

/-! ## The invariant -/

variable {w w' : World}

theorem inv_initialWorld : Inv services initialWorld where
  origin := by
    intro key bytes horigin
    cases horigin
  cached := by
    intro text bytes hcached
    unfold AssetState.cacheGet at hcached
    split at hcached <;> cases hcached

/-- A step that changes neither what is cached nor its rows, and forgets nothing of its keys. -/
theorem Inv.unchanged
    (h : Inv services w)
    {state : AssetState} {held : String → Bytes → Prop} {delivered : List String}
    (horigin : ∀ key bytes, state.origin key = some bytes → held key bytes)
    (hcache :
      ∀ text bytes,
        state.cacheGet services (CACHE_PREFIX ++ services.digest text) = some bytes →
          w.state.cacheGet services (CACHE_PREFIX ++ services.digest text) = some bytes)
    (hrows :
      ∀ text bytes row,
        state.cacheGet services (CACHE_PREFIX ++ services.digest text) = some bytes →
          w.state.rows.get (CACHE_PREFIX ++ services.digest text) = some row →
            state.rows.get (CACHE_PREFIX ++ services.digest text) = some row ∧
              ∀ bytes, w.held row.sourceKey bytes → held row.sourceKey bytes)
    (hdelivered : ∀ text ∈ w.delivered, text ∈ delivered) :
    Inv services { state := state, held := held, delivered := delivered } where
  origin := horigin
  cached := by
    intro text bytes hcached
    obtain ⟨key, options, hentry⟩ := h.cached text bytes (hcache text bytes hcached)
    obtain ⟨row, hrow, rfl⟩ := hentry.row
    obtain ⟨hkept, hheld⟩ := hrows text bytes row hcached hrow
    exact
      ⟨row.sourceKey, options, hdelivered _ hentry.used, hentry.digest, ⟨row, hkept, rfl⟩,
        hentry.made.mono hheld⟩

theorem Inv.put
    (h : Inv services w)
    {key : String} (bytes : Bytes)
    (hguard : Indexed services w (.put key bytes)) :
    Inv services
      { w with
        state := { w.state with origin := Function.update w.state.origin key (some bytes) }
        held :=
          noteHeld w.held
            { w.state with origin := Function.update w.state.origin key (some bytes) } } := by
  refine h.unchanged (fun _ _ => Or.inr) ?_ ?_ fun _ => id
  · intro text bytes' hcached
    unfold AssetState.cacheGet at hcached ⊢
    by_cases hshared : services.shared = true
    · rw [if_pos hshared] at hcached ⊢
      change Function.update w.state.origin key (some bytes) _ = some bytes' at hcached
      rw [Function.update_of_ne (hguard hshared text).symm] at hcached
      exact hcached
    · rw [if_neg hshared] at hcached ⊢
      exact hcached
  · intro text bytes' row _ hrow
    exact ⟨hrow, fun _ => Or.inl⟩

/-- What is found in the cache for a key is made from its bytes. -/
theorem Inv.made
    (h : Inv services w)
    {options : TransformOptions ν}
    (huncollided : Uncollided services w key options)
    (hcached : w.state.cacheGet services (computeCacheKey services key options) = some bytes) :
    Made services w.held key bytes := by
  obtain ⟨key', options', hentry⟩ :=
    h.cached (cacheKeyText services.number key options) bytes hcached
  have htext := huncollided _ hentry.used hentry.digest
  obtain rfl := cacheKeyText_inj htext
  exact hentry.made

theorem Inv.deliver
    (h : Inv services w)
    {options : TransformOptions ν} {fault : WriteFault}
    (now : Int)
    (hguard : Indexed services w (.deliver key options fault now)) :
    Inv services
      { state := (deliver services key options fault now w.state).2
        held := noteHeld w.held (deliver services key options fault now w.state).2
        delivered := cacheKeyText services.number key options :: w.delivered } := by
  have hsame :
      Inv services
        { state := w.state
          held := noteHeld w.held w.state
          delivered := cacheKeyText services.number key options :: w.delivered } :=
    h.unchanged (fun _ _ => Or.inr) (fun _ _ => id) (fun _ _ _ _ hrow => ⟨hrow, fun _ => Or.inl⟩)
      fun _ => List.mem_cons_of_mem _
  rcases deliver_cases key options fault now w.state with
    ⟨bytes, -, -, hdeliver⟩ | ⟨bytes, -, -, hdeliver⟩ | ⟨error, hdeliver⟩ |
      ⟨original, result, -, horigin, htransform, hwritten | hdeliver⟩
  · rw [hdeliver]
    exact hsame
  · rw [hdeliver]
    exact hsame
  · rw [hdeliver]
    exact hsame
  · exact absurd hwritten.1 hguard.1
  · rw [hdeliver]
    refine ⟨fun _ _ => Or.inr, fun text bytes hcached => ?_⟩
    change (w.state.setCache services _ _).cacheGet services _ = _ at hcached
    rw [cacheGet_setCache] at hcached
    obtain ⟨createdAt, hrow⟩ :=
      get_recordVariant services w.state.rows (computeCacheKey services key options)
        (CACHE_PREFIX ++ services.digest text)
        { sourceKey := key, createdAt := now }
    by_cases hkey :
        CACHE_PREFIX ++ services.digest text = computeCacheKey services key options
    · -- The entry that was just stored.
      rw [if_pos hkey] at hcached
      rw [if_pos hkey.symm] at hrow
      cases hcached
      refine ⟨key, options, List.mem_cons_self, ?_, ⟨_, hrow, rfl⟩, ?_⟩
      · exact ((String.append_right_inj CACHE_PREFIX).mp hkey).symm
      · exact ⟨original, options, result, Or.inl (h.origin key original horigin), htransform, rfl⟩
    · rw [if_neg hkey] at hcached
      rw [if_neg fun hsym => hkey hsym.symm] at hrow
      obtain ⟨key', options', hentry⟩ := h.cached text bytes hcached
      obtain ⟨row, hold, hsource⟩ := hentry.row
      exact
        ⟨key', options', List.mem_cons_of_mem _ hentry.used, hentry.digest,
          ⟨row, hrow.trans hold, hsource⟩, hentry.made.mono fun _ => Or.inl⟩

variable {fails : String → Bool}

/-- The cascade leaves no entry of the source. -/
theorem cascade_spec {text : String}
    (hguard :
      ∀ cacheKey ∈ variantsOf w.state.rows source, fails cacheKey = true →
        w.state.cacheGet services cacheKey = none)
    (hcached :
      (invalidateSource services source fails w.state).2.cacheGet services
        (CACHE_PREFIX ++ services.digest text) = some bytes) :
    w.state.cacheGet services (CACHE_PREFIX ++ services.digest text) = some bytes ∧
      CACHE_PREFIX ++ services.digest text ∉ variantsOf w.state.rows source := by
  change (dropVariants services fails _ _).cacheGet services _ = _ at hcached
  rw [cacheGet_dropVariants] at hcached
  split at hcached
  · cases hcached
  · next hkept =>
    refine ⟨hcached, fun hmem => hkept ⟨hmem, ?_⟩⟩
    cases hfails : fails (CACHE_PREFIX ++ services.digest text) with
    | false => rfl
    | true =>
        have hnone := hguard _ hmem hfails
        change w.state.cacheGet services _ = some bytes at hcached
        rw [hnone] at hcached
        cases hcached

theorem Inv.invalidateSource
    (h : Inv services w)
    (hguard : Indexed services w (.invalidateSource source fails)) :
    Inv services
      { w with
        state := (invalidateSource services source fails w.state).2
        held :=
          resetHeld w.held source (AssetService.invalidateSource services source fails w.state).2 } := by
  refine h.unchanged (fun _ _ => Or.inr) ?_ ?_ fun _ => id
  · intro text bytes hcached
    exact (cascade_spec hguard hcached).1
  · intro text bytes row hcached hrow
    obtain ⟨-, hother⟩ := cascade_spec hguard hcached
    refine ⟨?_, fun _ hheld => Or.inl ⟨fun hsource => ?_, hheld⟩⟩
    · change (dropVariants services fails _ _).rows.get _ = _
      rw [rows_dropVariants, Record.get_removeAll, if_neg hother]
      exact hrow
    · exact hother (mem_variantsOf_iff.mpr ⟨row, hrow, hsource⟩)

theorem Inv.invalidate
    (h : Inv services w)
    (hguard : Indexed services w (.invalidate source fails)) :
    Inv services
      { w with
        state := invalidate services source fails w.state
        held := resetHeld w.held source (Files.invalidate services source fails w.state) } := by
  unfold Files.invalidate
  dsimp only
  split
  · exact h.invalidateSource hguard
  · refine ⟨fun _ _ => Or.inr, fun text bytes hcached => ?_⟩
    rw [cacheGet_sweepCache] at hcached
    cases hcached

theorem Inv.cleanup (h : Inv services w) {now : Int} (hguard : Indexed services w (.cleanup now)) :
    Inv services
      { w with
        state := runCleanup now w.state
        held := noteHeld w.held (runCleanup now w.state) } := by
  refine h.unchanged (fun _ _ => Or.inr) (fun _ _ => id) ?_ fun _ => id
  intro text bytes row hcached hrow
  refine ⟨?_, fun _ => Or.inl⟩
  change (w.state.rows.removeAll _).get _ = _
  rw [Record.get_removeAll, if_neg]
  · exact hrow
  · intro hmem
    obtain ⟨⟨cacheKey, old⟩, hold, rfl⟩ := List.mem_map.mp hmem
    obtain ⟨hentry, hage⟩ := List.mem_filter.mp hold
    have hnone :=
      hguard _ old (Record.get_eq_some_iff_mem.mpr hentry) (of_decide_eq_true hage)
    change w.state.cacheGet services _ = some bytes at hcached
    rw [hnone] at hcached
    cases hcached

theorem inv_step
    {event : Event ν}
    (h : Inv services w)
    (hguard : Indexed services w event)
    (hstep : step services w event = some w') :
    Inv services w' := by
  cases event with
  | put key bytes =>
      cases hstep
      exact h.put bytes hguard
  | deliver key options fault now =>
      cases hstep
      exact h.deliver now hguard
  | invalidateSource key fails =>
      cases hstep
      exact h.invalidateSource hguard
  | invalidate key fails =>
      cases hstep
      exact h.invalidate hguard
  | cleanup now =>
      cases hstep
      exact h.cleanup hguard

/-- Whatever is delivered is made from bytes of the time since the last invalidation. -/
theorem fresh_of_reaches
    {key : String} {options : TransformOptions ν} {fault : WriteFault} {now : Int}
    {delivery : AssetDelivery}
    (hrun : Reaches (step services) (Indexed services) initialWorld w)
    (huncollided : Uncollided services w key options)
    (hdelivery : (deliver services key options fault now w.state).1 = .ok delivery) :
    Fresh services w key options delivery := by
  have h : Inv services w :=
    hrun.invariant inv_initialWorld fun _ _ _ hinv hguard hstep => inv_step hinv hguard hstep
  unfold Fresh
  rcases deliver_cases key options fault now w.state with
    ⟨bytes, hpass, horigin, hdeliver⟩ | ⟨bytes, hpass, hcached, hdeliver⟩ | ⟨error, hdeliver⟩ |
      ⟨original, result, hpass, horigin, htransform, hwritten | hdeliver⟩
  · rw [hdeliver] at hdelivery
    cases hdelivery
    rw [if_pos hpass]
    exact h.origin key bytes horigin
  · rw [hdeliver] at hdelivery
    cases hdelivery
    rw [if_neg (by rw [hpass]; exact Bool.false_ne_true)]
    exact h.made huncollided hcached
  · rw [hdeliver] at hdelivery
    cases hdelivery
  · rw [hwritten.2] at hdelivery
    cases hdelivery
  · rw [hdeliver] at hdelivery
    cases hdelivery
    rw [if_neg (by rw [hpass]; exact Bool.false_ne_true)]
    exact ⟨original, options, delivery, h.origin key original horigin, htransform, rfl⟩

end AssetRuns

/-! ## One image -/

def thumbnail : TransformOptions Nat where
  width := some 100
  height := none
  format := none
  quality := none
  fit := none

/-- The digest is that of the one text that is digested here. -/
def thumbnailServices : AssetServices Nat where
  number := toString
  digest _ := "ef1003aab8dc5dce0e091fcde2b15ee9"
  transform bytes _ := some { bytes := bytes, mimeType := "image/png" }
  shared := false
  index := .prisma

/-- The digests do not collide; anything may fail. -/
def Sequential (w : World) : Event Nat → Prop
  | .deliver key options _ _ => Uncollided thumbnailServices w key options
  | _ => True

variable {w : World}

theorem uncollided_thumbnail
    (h : ∀ text ∈ w.delivered, text = cacheKeyText thumbnailServices.number "a.png" thumbnail) :
    Uncollided thumbnailServices w "a.png" thumbnail :=
  fun text hmem _ => h text hmem

def day : Int := 24 * 60 * 60 * 1000

/-- After the image is replaced and its key invalidated the new bytes are delivered. -/
theorem fresh_thumbnail :
    ∃ w delivery, Reaches (step thumbnailServices) (Indexed thumbnailServices) initialWorld w ∧
      (deliver thumbnailServices "a.png" thumbnail .none 1 w.state).1 = .ok delivery ∧
        delivery.bytes = [2] ∧ Fresh thumbnailServices w "a.png" thumbnail delivery := by
  obtain ⟨w₁, h₁⟩ : ∃ w₁, step thumbnailServices initialWorld (.put "a.png" [1]) = some w₁ :=
    ⟨_, rfl⟩
  obtain ⟨w₂, h₂⟩ :
      ∃ w₂, step thumbnailServices w₁ (.deliver "a.png" thumbnail .none 0) = some w₂ :=
    ⟨_, rfl⟩
  obtain ⟨w₃, h₃⟩ : ∃ w₃, step thumbnailServices w₂ (.put "a.png" [2]) = some w₃ := ⟨_, rfl⟩
  obtain ⟨w₄, h₄⟩ :
      ∃ w₄, step thumbnailServices w₃ (.invalidateSource "a.png" fun _ => false) = some w₄ :=
    ⟨_, rfl⟩
  have hdelivered :
      ∀ text ∈ w₄.delivered, text = cacheKeyText thumbnailServices.number "a.png" thumbnail := by
    cases h₁
    cases h₂
    cases h₃
    cases h₄
    exact fun text => List.mem_singleton.mp
  have hrun :
      Reaches (step thumbnailServices) (Indexed thumbnailServices) initialWorld w₄ := by
    refine ((((Reaches.refl _).tail ?_ h₁).tail ?_ h₂).tail ?_ h₃).tail ?_ h₄
    · exact fun hshared => absurd hshared Bool.false_ne_true
    · cases h₁
      exact ⟨nofun, nofun⟩
    · exact fun hshared => absurd hshared Bool.false_ne_true
    · exact fun _ _ hfails => absurd hfails Bool.false_ne_true
  have hdelivery :
      (deliver thumbnailServices "a.png" thumbnail .none 1 w₄.state).1 =
        .ok { bytes := [2], mimeType := "image/png" } := by
    cases h₁
    cases h₂
    cases h₃
    cases h₄
    rfl
  exact
    ⟨w₄, _, hrun, hdelivery, rfl,
      fresh_of_reaches hrun (uncollided_thumbnail hdelivered) hdelivery⟩

/-- Bytes that are held no more are no longer delivered as fresh ones. -/
theorem not_fresh_of_held
    {delivery : AssetDelivery}
    (hheld : ∀ bytes, w.held "a.png" bytes → bytes = [2])
    (hdelivery : delivery.bytes = [1]) :
    ¬ Fresh thumbnailServices w "a.png" thumbnail delivery := by
  rintro ⟨original, options, result, horiginal, htransform, hbytes⟩
  cases htransform
  rw [hheld original horiginal, hdelivery] at hbytes
  cases hbytes

def isDelivery : Event Nat → Bool
  | .deliver _ _ _ _ => true
  | _ => false

/-- One delivery of the image, and any other steps after it. -/
theorem sequential_of_run {w₂ : World} (fault : WriteFault) (rest : List (Event Nat))
    (hfirst :
      runEvents (step thumbnailServices) initialWorld
        [.put "a.png" [1], .deliver "a.png" thumbnail fault 0] = some w₂)
    (hrest :
      runEvents (checked (fun _ event => !isDelivery event) (step thumbnailServices)) w₂ rest =
        some w) :
    Reaches (step thumbnailServices) Sequential initialWorld w := by
  have hput :
      Reaches (step thumbnailServices) Sequential initialWorld
        { initialWorld with
          state :=
            { initialWorld.state with
              origin := Function.update initialWorld.state.origin "a.png" (some [1]) }
          held :=
            noteHeld initialWorld.held
              { initialWorld.state with
                origin := Function.update initialWorld.state.origin "a.png" (some [1]) } } :=
    Reaches.tail (e := .put "a.png" [1]) (Reaches.refl _) trivial rfl
  have hdeliver : Reaches (step thumbnailServices) Sequential initialWorld w₂ :=
    Reaches.tail (e := .deliver "a.png" thumbnail fault 0) hput
      (uncollided_thumbnail fun _ hmem => absurd hmem List.not_mem_nil) hfirst
  refine hdeliver.trans (reaches_of_runEvents_checked ?_ hrest)
  intro _ event hcheck
  cases event with
  | deliver => cases hcheck
  | put => trivial
  | invalidateSource => trivial
  | invalidate => trivial
  | cleanup => trivial

/-- A delivery of the image, the steps after it, and then a delivery that is not fresh. -/
def Stale (fault : WriteFault) (rest : List (Event Nat)) : Prop :=
  ∃ w₂ w delivery,
    runEvents (step thumbnailServices) initialWorld
        [.put "a.png" [1], .deliver "a.png" thumbnail fault 0] = some w₂ ∧
      runEvents (step thumbnailServices) w₂ rest = some w ∧
        Reaches (step thumbnailServices) Sequential initialWorld w ∧
          (deliver thumbnailServices "a.png" thumbnail .none 1 w.state).1 = .ok delivery ∧
            ¬ Fresh thumbnailServices w "a.png" thumbnail delivery

theorem stale_of_run
    {fault : WriteFault} {rest : List (Event Nat)} {w₂ : World} {mimeType : String}
    (hfirst :
      runEvents (step thumbnailServices) initialWorld
        [.put "a.png" [1], .deliver "a.png" thumbnail fault 0] = some w₂)
    (hrest : runEvents (step thumbnailServices) w₂ rest = some w)
    (hchecked :
      runEvents (checked (fun _ event => !isDelivery event) (step thumbnailServices)) w₂ rest =
        some w)
    (hdelivery :
      (deliver thumbnailServices "a.png" thumbnail .none 1 w.state).1 =
        .ok { bytes := [1], mimeType := mimeType })
    (hheld : ∀ bytes, w.held "a.png" bytes → bytes = [2]) :
    Stale fault rest :=
  ⟨w₂, w, _, hfirst, hrest, sequential_of_run fault rest hfirst hchecked, hdelivery,
    not_fresh_of_held hheld rfl⟩

/--
The old image is delivered after an invalidation: when the cron has removed its
row, when its row was never written, and when its delete fails.
-/
theorem not_fresh_thumbnail :
    Stale .none
        [.cleanup (91 * day), .put "a.png" [2], .invalidateSource "a.png" fun _ => false] ∧
      Stale .written [.put "a.png" [2], .invalidateSource "a.png" fun _ => false] ∧
        Stale .none [.put "a.png" [2], .invalidateSource "a.png" fun _ => true] := by
  have hheld :
      ∀ (held : String → Bytes → Prop) (state : AssetState),
        state.origin "a.png" = some [2] →
          ∀ bytes, resetHeld held "a.png" state "a.png" bytes → bytes = [2] := by
    rintro held state horigin bytes (⟨hne, -⟩ | hbytes)
    · exact absurd rfl hne
    · rw [horigin] at hbytes
      exact (Option.some.inj hbytes).symm
  refine ⟨?_, ?_, ?_⟩
  · exact stale_of_run rfl rfl rfl rfl (hheld _ _ rfl)
  · exact stale_of_run rfl rfl rfl rfl (hheld _ _ rfl)
  · exact stale_of_run rfl rfl rfl rfl (hheld _ _ rfl)

end AssetRuns
end Files
end NestBase
