import NestBase.Core.OutputPipeline

/-!
# What the pipeline changes

Without an ability and a subject a response should come out as it went in,
except for the entries with secret names, at any depth.  What a client sees of
a value is the JSON document it is serialised to, so the comparison is of
documents: `serialise` with the secrets taken out of it (`strip`).

Rebuilding an object drops more than secrets: a `Date` and an entry named
`__proto__`.  The pipeline changes nothing else exactly when the response has
neither outside its secret entries (`transparent_iff_plain`).
-/

namespace NestBase
namespace OutputPipeline

open Lib
open Permissions

/-! ## Documents -/

mutual

/-- The document `JSON.stringify` writes. -/
def serialise : Value → Json
  | .null => .null
  | .bool b => .bool b
  | .num text => .num text
  | .str s => .str s
  | .date none => .null
  | .date (some iso) => .str iso
  | .arr items => .arr (serialiseItems items)
  | .obj entries => .obj (serialiseEntries entries)

def serialiseItems : List Value → List Json
  | [] => []
  | item :: rest => serialise item :: serialiseItems rest

def serialiseEntries : List (String × Value) → List (String × Json)
  | [] => []
  | (key, child) :: rest => (key, serialise child) :: serialiseEntries rest

end

section Secrets

variable (toLowerCase : String → String)

mutual

/-- The document without the entries that have a secret name. -/
def strip : Json → Json
  | .arr items => .arr (stripItems items)
  | .obj entries => .obj (stripEntries entries)
  | document => document

def stripItems : List Json → List Json
  | [] => []
  | item :: rest => strip item :: stripItems rest

def stripEntries : List (String × Json) → List (String × Json)
  | [] => []
  | (key, child) :: rest =>
      if named toLowerCase SECRET_FIELD_NAMES key then stripEntries rest
      else (key, strip child) :: stripEntries rest

end

mutual

/-- Outside its secret entries the value has no `Date` and no entry named `__proto__`. -/
def plain : Value → Bool
  | .date _ => false
  | .arr items => plainItems items
  | .obj entries => plainEntries entries
  | _ => true

def plainItems : List Value → Bool
  | [] => true
  | item :: rest => plain item && plainItems rest

def plainEntries : List (String × Value) → Bool
  | [] => true
  | (key, child) :: rest =>
      (named toLowerCase SECRET_FIELD_NAMES key || (key ≠ "__proto__" && plain child)) &&
        plainEntries rest

end

end Secrets

mutual

/-- No object in the value has a geometry column. -/
def noGeometry : Value → Bool
  | .arr items => noGeometryItems items
  | .obj entries => noGeometryEntries entries
  | _ => true

def noGeometryItems : List Value → Bool
  | [] => true
  | item :: rest => noGeometry item && noGeometryItems rest

def noGeometryEntries : List (String × Value) → Bool
  | [] => true
  | (key, child) :: rest =>
      !GEOMETRY_COLUMNS.contains key && noGeometry child && noGeometryEntries rest

end

/-- The response is changed in its secret entries only. -/
def Transparent
    {Item : Type}
    (toLowerCase : String → String)
    (casl : Casl Item)
    (parse : String → Option Value)
    (mode : SafetyNetMode)
    (value : Value) : Prop :=
  ∃ output,
    processOutputResponse toLowerCase casl parse value { safetyNetMode := mode } = .ok output ∧
      serialise output = strip toLowerCase (serialise value)

/-! ## The geometry walk -/

theorem mapRecordToGeoJson_eq_self
    {parse : String → Option Value} {entries : List (String × Value)}
    (h : noGeometryEntries entries = true) :
    mapRecordToGeoJson parse entries = some entries := by
  induction entries with
  | nil => rfl
  | cons entry rest ih =>
      obtain ⟨key, value⟩ := entry
      simp only [noGeometryEntries, Bool.and_eq_true, Bool.not_eq_true'] at h
      rw [mapRecordToGeoJson, h.1.1, if_neg Bool.false_ne_true, ih h.2]
      rfl

section Secrets

variable {toLowerCase : String → String}
variable {parse : String → Option Value}
variable {fields : List String}

theorem removeSecretItems_eq_map (items : List Value) :
    removeSecretItems toLowerCase fields items = items.map (removeSecrets toLowerCase fields) := by
  induction items with
  | nil => rfl
  | cons item rest ih => rw [removeSecretItems, ih, List.map_cons]

theorem mapGeoItems_eq_map (items : List Value) :
    mapGeoItems parse items = items.map (mapGeoJsonRecursively parse) := by
  induction items with
  | nil => rfl
  | cons item rest ih => rw [mapGeoItems, ih, List.map_cons]

theorem noGeometry_of_mem {items : List Value} (h : noGeometryItems items = true) :
    ∀ item ∈ items, noGeometry item = true := by
  induction items with
  | nil =>
      intro item hitem
      cases hitem
  | cons first rest ih =>
      rw [noGeometryItems, Bool.and_eq_true] at h
      intro item hitem
      rcases List.mem_cons.mp hitem with rfl | hrest
      · exact h.1
      · exact ih h.2 item hrest

/-- Without geometry columns the first walk changes nothing the second does not. -/
theorem removeSecrets_mapGeoJsonRecursively (value : Value) (h : noGeometry value = true) :
    removeSecrets toLowerCase fields (mapGeoJsonRecursively parse value) =
      removeSecrets toLowerCase fields value := by
  induction value using Value.induction with
  | null => rfl
  | bool b => rfl
  | num text => rfl
  | str s => rfl
  | date iso => rfl
  | arr items ih =>
      rw [mapGeoJsonRecursively, removeSecrets, removeSecrets, removeSecretItems_eq_map,
        removeSecretItems_eq_map, mapGeoItems_eq_map, List.map_map]
      congr 1
      refine List.map_congr_left fun item hitem => ?_
      exact ih item hitem (noGeometry_of_mem h item hitem)
  | obj entries ih =>
      rw [mapGeoJsonRecursively, mapRecordToGeoJson_eq_self h]
      simp only [removeSecrets]
      congr 1
      rw [noGeometry] at h
      induction entries with
      | nil => rfl
      | cons entry rest ihRest =>
          obtain ⟨key, child⟩ := entry
          simp only [noGeometryEntries, Bool.and_eq_true, Bool.not_eq_true'] at h
          have hchild := ih (key, child) List.mem_cons_self h.1.2
          have hrest :=
            ihRest (fun other hother => ih other (List.mem_cons_of_mem _ hother)) h.2
          simp only [mapGeoEntries, h.1.1, Bool.false_eq_true, if_false, removeSecretEntries, hchild,
            hrest]

/-! ## The safety net after the secrets are removed -/

theorem walkItemsForFieldHit_eq_none_iff {items : List Value} :
    walkItemsForFieldHit toLowerCase fields items = none ↔
      ∀ item ∈ items, walkForFieldHit toLowerCase fields item = none := by
  induction items with
  | nil => simp [walkItemsForFieldHit]
  | cons item rest ih => simp [walkItemsForFieldHit, ih]

/-- What holds of the kept entries: none bears a removed name or `__proto__`. -/
theorem removeSecretEntries_induction
    {P : List (String × Value) → Prop} {entries : List (String × Value)}
    (nil : P [])
    (cons : ∀ key child rest, (key, child) ∈ entries →
      ¬named toLowerCase fields key = true → key ≠ "__proto__" → P rest →
        P ((key, removeSecrets toLowerCase fields child) :: rest)) :
    P (removeSecretEntries toLowerCase fields entries) := by
  induction entries with
  | nil => exact nil
  | cons entry rest ih =>
      obtain ⟨key, child⟩ := entry
      have hrest := ih fun other value kept hmem => cons other value kept (List.mem_cons_of_mem _ hmem)
      rw [removeSecretEntries]
      split
      · exact hrest
      · next hsecret =>
          unfold assign
          split
          · exact hrest
          · next hproto => exact cons key child _ List.mem_cons_self hsecret hproto hrest

/-- No removed name is left. -/
theorem walkForFieldHit_removeSecrets (value : Value) :
    walkForFieldHit toLowerCase fields (removeSecrets toLowerCase fields value) = none := by
  induction value using Value.induction with
  | null => rfl
  | bool b => rfl
  | num text => rfl
  | str s => rfl
  | date iso => rfl
  | arr items ih =>
      rw [removeSecrets, walkForFieldHit, walkItemsForFieldHit_eq_none_iff, removeSecretItems_eq_map]
      intro item hitem
      obtain ⟨original, horiginal, rfl⟩ := List.mem_map.mp hitem
      exact ih original horiginal
  | obj entries ih =>
      rw [removeSecrets, walkForFieldHit]
      refine removeSecretEntries_induction
        (P := fun kept => walkEntriesForFieldHit toLowerCase fields kept = none) rfl ?_
      intro key child rest hmem hsecret _ hrest
      rw [walkEntriesForFieldHit, if_neg hsecret, ih (key, child) hmem, hrest]
      rfl

theorem maskItems_eq_map {patterns : List (String → Bool)} (items : List Value) :
    maskItems toLowerCase fields patterns items =
      items.map (walkAndMask toLowerCase fields patterns) := by
  induction items with
  | nil => rfl
  | cons item rest ih => rw [maskItems, ih, List.map_cons]

/-- The mask finds nothing to redact and nothing more to drop. -/
theorem walkAndMask_removeSecrets (value : Value) :
    walkAndMask toLowerCase fields [] (removeSecrets toLowerCase fields value) =
      removeSecrets toLowerCase fields value := by
  induction value using Value.induction with
  | null => rfl
  | bool b => rfl
  | num text => rfl
  | str s => rfl
  | date iso => rfl
  | arr items ih =>
      rw [removeSecrets, walkAndMask, maskItems_eq_map, removeSecretItems_eq_map, List.map_map]
      congr 1
      exact List.map_congr_left ih
  | obj entries ih =>
      rw [removeSecrets, walkAndMask]
      congr 1
      refine removeSecretEntries_induction
        (P := fun kept => maskEntries toLowerCase fields [] kept = kept) rfl ?_
      intro key child rest hmem hsecret hproto hrest
      rw [maskEntries, if_neg hsecret, ih (key, child) hmem, hrest, assign, if_neg hproto]

/-- After the secrets are removed the safety net lets everything pass. -/
theorem applySafetyNet_removeSecrets (mode : SafetyNetMode) (value : Value) :
    applySafetyNet toLowerCase (removeSecrets toLowerCase SECRET_FIELD_NAMES value)
        { mode := mode } =
      .ok (removeSecrets toLowerCase SECRET_FIELD_NAMES value) := by
  cases mode with
  | mask => rw [applySafetyNet, walkAndMask_removeSecrets]
  | throw =>
      simp only [applySafetyNet, walkForFieldHit_removeSecrets]
      rfl

/-- Without geometry columns the response comes out without its secrets. -/
theorem processOutputResponse_eq
    {Item : Type}
    (casl : Casl Item)
    (mode : SafetyNetMode)
    {value : Value}
    (h : noGeometry value = true) :
    processOutputResponse toLowerCase casl parse value { safetyNetMode := mode } =
      .ok (removeSecrets toLowerCase SECRET_FIELD_NAMES value) := by
  have hpipeline :
      applySafetyNet toLowerCase
          (removeSecrets toLowerCase SECRET_FIELD_NAMES (mapGeoJsonRecursively parse value))
          { mode := mode } =
        .ok (removeSecrets toLowerCase SECRET_FIELD_NAMES value) := by
    rw [removeSecrets_mapGeoJsonRecursively value h, applySafetyNet_removeSecrets]
  cases value with
  | null => rfl
  | _ => exact hpipeline

/-! ## Plain responses -/

theorem serialiseItems_eq_map (items : List Value) :
    serialiseItems items = items.map serialise := by
  induction items with
  | nil => rfl
  | cons item rest ih => rw [serialiseItems, ih, List.map_cons]

theorem stripItems_eq_map (items : List Json) :
    stripItems toLowerCase items = items.map (strip toLowerCase) := by
  induction items with
  | nil => rfl
  | cons item rest ih => rw [stripItems, ih, List.map_cons]

theorem plainItems_iff {items : List Value} :
    plainItems toLowerCase items = true ↔ ∀ item ∈ items, plain toLowerCase item = true := by
  induction items with
  | nil => simp [plainItems]
  | cons item rest ih => simp [plainItems, ih]

/-- Removing secrets leaves at most the entries that are not secret. -/
theorem length_removeSecretEntries_le (entries : List (String × Value)) :
    (serialiseEntries (removeSecretEntries toLowerCase SECRET_FIELD_NAMES entries)).length ≤
      (stripEntries toLowerCase (serialiseEntries entries)).length := by
  induction entries with
  | nil => exact Nat.le_refl _
  | cons entry rest ih =>
      obtain ⟨key, child⟩ := entry
      rw [removeSecretEntries, serialiseEntries, stripEntries]
      split
      · exact ih
      · unfold assign
        split
        · exact Nat.le_succ_of_le ih
        · exact Nat.succ_le_succ ih

/-- Removing secrets is stripping them exactly on plain values. -/
theorem serialise_removeSecrets_iff (value : Value) :
    serialise (removeSecrets toLowerCase SECRET_FIELD_NAMES value) =
        strip toLowerCase (serialise value) ↔
      plain toLowerCase value = true := by
  induction value using Value.induction with
  | null => exact iff_of_true rfl rfl
  | bool b => exact iff_of_true rfl rfl
  | num text => exact iff_of_true rfl rfl
  | str s => exact iff_of_true rfl rfl
  | date iso =>
      refine iff_of_false ?_ Bool.false_ne_true
      cases iso with
      | none => intro h; cases h
      | some iso => intro h; cases h
  | arr items ih =>
      rw [removeSecrets, serialise, serialise, strip, plain, removeSecretItems_eq_map,
        serialiseItems_eq_map, serialiseItems_eq_map, stripItems_eq_map, List.map_map, List.map_map,
        Json.arr.injEq, List.map_inj_left, plainItems_iff]
      exact forall₂_congr ih
  | obj entries ih =>
      rw [removeSecrets, serialise, serialise, strip, plain, Json.obj.injEq]
      induction entries with
      | nil => exact iff_of_true rfl rfl
      | cons entry rest ihRest =>
          obtain ⟨key, child⟩ := entry
          have hchild := ih (key, child) List.mem_cons_self
          have hrest := ihRest fun other hother => ih other (List.mem_cons_of_mem _ hother)
          rw [removeSecretEntries, serialiseEntries, stripEntries, plainEntries]
          cases hsecret : named toLowerCase SECRET_FIELD_NAMES key with
          | true => simpa using hrest
          | false =>
              by_cases hproto : key = "__proto__"
              · -- the entry is lost, so the documents differ in length
                have hle :
                    (serialiseEntries
                        (removeSecretEntries toLowerCase SECRET_FIELD_NAMES rest)).length ≤
                      (stripEntries toLowerCase (serialiseEntries rest)).length :=
                  length_removeSecretEntries_le rest
                refine iff_of_false ?_ (by simp [hproto])
                intro heq
                have hlength := congrArg List.length heq
                simp only [Bool.false_eq_true, if_false, assign, if_pos hproto,
                  List.length_cons] at hlength
                omega
              · simp only [Bool.false_eq_true, if_false, assign, if_neg hproto, serialiseEntries,
                  List.cons.injEq, Prod.mk.injEq, true_and, hchild, hrest]
                simp [hproto]

/-- A response without geometry columns is changed in its secrets only, exactly when it is plain. -/
theorem transparent_iff_plain
    {Item : Type}
    (toLowerCase : String → String)
    (casl : Casl Item)
    (parse : String → Option Value)
    (mode : SafetyNetMode)
    (value : Value)
    (hgeometry : noGeometry value = true) :
    Transparent toLowerCase casl parse mode value ↔ plain toLowerCase value = true := by
  unfold Transparent
  rw [processOutputResponse_eq casl mode hgeometry]
  constructor
  · rintro ⟨output, houtput, hsame⟩
    cases houtput
    exact (serialise_removeSecrets_iff value).mp hsame
  · intro hplain
    exact ⟨_, rfl, (serialise_removeSecrets_iff value).mpr hplain⟩

end Secrets

/-! ## Two responses -/

/-- `toLowerCase` on ASCII. -/
def asciiLower (s : String) : String :=
  String.ofList (s.toList.map Char.toLower)

/-- A user with a token, and a profile with a password in another spelling. -/
def userResponse : Value :=
  .obj [("id", .str "u1"), ("auth_token", .str "t"),
    ("profile", .obj [("name", .str "Ada"), ("PASSWORD", .str "p")])]

/-- A response without dates loses its secrets and nothing else. -/
theorem transparent_userResponse :
    noGeometry userResponse = true ∧
      plain asciiLower userResponse = true ∧
        Transparent asciiLower textCasl (fun _ => none) .mask userResponse := by
  have hgeometry : noGeometry userResponse = true := by decide
  have hplain : plain asciiLower userResponse = true := by decide +kernel
  refine ⟨hgeometry, hplain, ?_⟩
  exact (transparent_iff_plain asciiLower textCasl (fun _ => none) .mask userResponse
    hgeometry).mpr hplain

/-- A record with the time it was created. -/
def datedResponse : Value :=
  .obj [("id", .str "u1"), ("createdAt", .date (some "2026-01-01T00:00:00.000Z"))]

/-- The time comes out as an empty object. -/
theorem not_transparent_datedResponse :
    noGeometry datedResponse = true ∧
      ¬ Transparent asciiLower textCasl (fun _ => none) .mask datedResponse := by
  refine ⟨by decide, ?_⟩
  rintro ⟨output, houtput, hsame⟩
  have hempty : output = .obj [("id", .str "u1"), ("createdAt", .obj [])] := by
    have hrun :
        processOutputResponse asciiLower textCasl (fun _ => none) datedResponse
            { safetyNetMode := .mask } =
          .ok (.obj [("id", .str "u1"), ("createdAt", .obj [])]) := by
      rfl
    rw [hrun] at houtput
    cases houtput
    rfl
  rw [hempty] at hsame
  cases hsame

end OutputPipeline
end NestBase
