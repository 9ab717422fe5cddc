import NestBase.Core.Cursors
import NestBase.Lib.Number
import NestBase.Lib.StableSort

/-!
# The catalogue of error codes

`ErrorCodeController.listData` sorts the codes by `localeCompare` and looks for
the place to go on by the order of code units: at the first code that is greater
than the one of the cursor.  The two orders differ where an underscore meets a
digit or a letter.

A client that follows the cursors gets every code once exactly when the orders
agree at the end of each full page, and no limit is between 0 and 1, which
`buildCursorPage` refuses (`visitsEachCode_iff`).
-/

namespace NestBase
namespace ErrorCatalogue

open Lib
open Examples (CursorSortValue CursorRecord CursorMalformedError encodeCursor decodeCursor)

/-! ## The registry -/

structure ErrorCodeMessage where
  title : String
  detail : Option String

/-- `messages` has an entry for each locale. -/
structure ErrorCodeDefinition where
  code : String
  status : Nat
  messages : List (String × ErrorCodeMessage)

def isCodeChar (c : Char) : Bool :=
  ('A' ≤ c && c ≤ 'Z') || c.isDigit || c == '_'

/-- `CODE_RE` -/
def matchesCodeRe (code : String) : Bool :=
  match code.toList with
  | first :: second :: rest =>
      ('A' ≤ first && first ≤ 'Z') && isCodeChar second && rest.all isCodeChar
  | _ => false

/-- What `register` lets in; `list` gives it out as an array, which has less than 2^32 items. -/
structure ErrorCodeRegistry where
  codes : List ErrorCodeDefinition
  codes_nodup : (codes.map ErrorCodeDefinition.code).Nodup
  codes_match : ∀ definition ∈ codes, matchesCodeRe definition.code = true
  messages_en : ∀ definition ∈ codes, "en" ∈ definition.messages.map Prod.fst
  codes_length : codes.length < 4294967296

section Catalogue

variable (localeCompare : String → String → Ordering)

/-- `registry.list()` -/
def ErrorCodeRegistry.list (registry : ErrorCodeRegistry) : List ErrorCodeDefinition :=
  StableSort.sortBy localeCompare ErrorCodeDefinition.code registry.codes

/-! ## Pages -/

/-- A row of a page; `id` and `sortValue` are the code. -/
structure ErrorCodeCursorRow extends ErrorCodeDefinition where
  id : String
  sortValue : String

def toRow (definition : ErrorCodeDefinition) : ErrorCodeCursorRow where
  toErrorCodeDefinition := definition
  id := definition.code
  sortValue := definition.code

inductive ListError where
  | malformedCursor (error : CursorMalformedError)
  /-- `cursor: limit must be a positive integer`, with the limit got -/
  | limit (got : ℚ)

/-- All definitions, or a page of them. -/
inductive ListData where
  | all (definitions : List ErrorCodeDefinition)
  | page (rows : CursorPage ErrorCodeCursorRow String)

def DEFAULT_LIMIT : ℚ := 50

def MAX_LIMIT : ℚ := 200

/-- `value || DEFAULT_LIMIT` -/
def orDefault : Number → Number
  | .nan => .finite DEFAULT_LIMIT
  | .finite value => if value = 0 then .finite DEFAULT_LIMIT else .finite value
  | .infinity negative => .infinity negative

/-- `Math.min(value, MAX_LIMIT)` -/
def capped : Number → Number
  | .nan => .nan
  | .infinity true => .infinity true
  | .infinity false => .finite MAX_LIMIT
  | .finite value => .finite (min value MAX_LIMIT)

def parsedLimit (limit : Option String) : Number :=
  match Text.truthy limit with
  | none => .finite DEFAULT_LIMIT
  | some limit => capped (orDefault (Number.ofText limit))

/-- `rows.slice(first, last)`, of numbers that are not negative -/
def slice {α : Type} (rows : List α) (first : Nat) (last : ℚ) : List α :=
  (rows.take ⌊last⌋₊).drop first

def buildCursorPage (rows : List ErrorCodeCursorRow) (limit : ℚ) :
    Except ListError (CursorPage ErrorCodeCursorRow String) :=
  if limit < 1 then .error (.limit limit)
  else if rows = [] then .ok { items := [], nextCursor := none }
  else
    let hasMore := decide (limit < rows.length)
    let items := if hasMore then slice rows 0 limit else rows
    if !hasMore then .ok { items := items, nextCursor := none }
    else
      .ok
        { items := items
          nextCursor :=
            items.getLast?.map fun last =>
              encodeCursor { id := last.id, sortValue := .text last.sortValue } }

/-- The id of the cursor, when one is given. -/
def startCode (syntaxError : List Char → String) (cursor : Option String) :
    Except ListError (Option String) :=
  match Text.truthy cursor with
  | none => .ok none
  | some cursor =>
      match decodeCursor syntaxError cursor with
      | .error error => .error (.malformedCursor error)
      | .ok decoded => .ok (some decoded.id)

/-- Where the rows of a page start; `none` is the index -1. -/
def startIndexOf (sorted : List ErrorCodeDefinition) (start : Option String) : Option Nat :=
  match Text.truthy start with
  | none => some 0
  | some start =>
      sorted.findIdx? fun definition =>
        decide (Unicode.codeUnits start < Unicode.codeUnits definition.code)

def rowsFrom (sorted : List ErrorCodeDefinition) (startIndex : Option Nat) (limit : ℚ) :
    List ErrorCodeDefinition :=
  match startIndex with
  | none => []
  | some index => slice sorted index (Number.plus (Number.plus index limit) 1)

variable (syntaxError : List Char → String)

def listData (registry : ErrorCodeRegistry) (cursor limit : Option String) :
    Except ListError ListData :=
  let all := registry.list localeCompare
  if Text.truthy cursor = none ∧ Text.truthy limit = none then .ok (.all all)
  else
    match parsedLimit limit with
    | .finite limit =>
        if limit ≤ 0 then .ok (.all all)
        else do
          let start ← startCode syntaxError cursor
          let sorted := StableSort.sortBy localeCompare ErrorCodeDefinition.code all
          let rows := rowsFrom sorted (startIndexOf sorted start) limit
          let page ← buildCursorPage (rows.map toRow) limit
          .ok (.page page)
    | _ => .ok (.all all)

/-! ## Following the cursors -/

/-- What a client reads of a response: its codes, and the cursor of the next page. -/
def ListData.codes : ListData → CursorPage String String
  | .all definitions =>
      { items := definitions.map ErrorCodeDefinition.code, nextCursor := none }
  | .page rows =>
      { items := rows.items.map fun row => row.code, nextCursor := rows.nextCursor }

/-- The calls of a client with a limit. -/
def pages (registry : ErrorCodeRegistry) (limit : Option String) :
    CursorPage.Lists String String ListError :=
  fun _ cursor => (listData localeCompare syntaxError registry cursor limit).map ListData.codes

/-- The pages end, and together they have every code once. -/
def VisitsEachCode (registry : ErrorCodeRegistry) (limit : Option String) : Prop :=
  ∃ fuel codes,
    CursorPage.visit (pages localeCompare syntaxError registry limit) fuel 0 none = some codes ∧
      codes.Perm (registry.codes.map ErrorCodeDefinition.code)

/-! ## The condition -/

/-- The codes as the pages have them. -/
def sortedCodes (registry : ErrorCodeRegistry) : List String :=
  (StableSort.sortBy localeCompare ErrorCodeDefinition.code
    (registry.list localeCompare)).map ErrorCodeDefinition.code

/--
At the end of each full page the code units of the last code are the greatest so
far, and those of the next code are greater.
-/
def AgreesAtPageEnds (codes : List String) (size : Nat) : Prop :=
  ∀ k last next, 0 < k → codes[k * size - 1]? = some last → codes[k * size]? = some next →
    Unicode.codeUnits last < Unicode.codeUnits next ∧
      ∀ code ∈ codes.take (k * size), Unicode.codeUnits code ≤ Unicode.codeUnits last

/-- The whole catalogue is given out, or pages of one code at least whose ends the orders agree at. -/
def Pageable (registry : ErrorCodeRegistry) (limit : Option String) : Prop :=
  ∀ size, Text.truthy limit ≠ none → parsedLimit limit = .finite size → 0 < size →
    1 ≤ size ∧ AgreesAtPageEnds (sortedCodes localeCompare registry) ⌊size⌋₊

/-! ## Pages are cut from the codes -/

/-- The cursor of a code. -/
def cursorOf (code : String) : String :=
  encodeCursor { id := code, sortValue := .text code }

theorem map_code_toRow (definitions : List ErrorCodeDefinition) :
    (definitions.map toRow).map (fun row => row.code) =
      definitions.map ErrorCodeDefinition.code := by
  rw [List.map_map]
  rfl

/-- What a client reads of a page of definitions is cut from their codes. -/
theorem buildCursorPage_eq {size : ℚ} (hsize : 1 ≤ size) (definitions : List ErrorCodeDefinition) :
    ∃ rows,
      buildCursorPage (definitions.map toRow) size = .ok rows ∧
        (ListData.page rows).codes =
          CursorPage.cut cursorOf ⌊size⌋₊ (definitions.map ErrorCodeDefinition.code) := by
  have hmore : size < ((definitions.map toRow).length : ℚ) ↔
      ⌊size⌋₊ < (definitions.map ErrorCodeDefinition.code).length := by
    rw [List.length_map, List.length_map, Nat.floor_lt (zero_le_one.trans hsize)]
  unfold buildCursorPage
  rw [if_neg (not_lt.mpr hsize)]
  by_cases hempty : definitions.map toRow = []
  · have hnil : definitions = [] := List.map_eq_nil_iff.mp hempty
    subst hnil
    refine ⟨_, if_pos hempty, ?_⟩
    rw [List.map_nil, CursorPage.cut_of_le (Nat.zero_le _)]
    rfl
  rw [if_neg hempty]
  by_cases hlt : size < ((definitions.map toRow).length : ℚ)
  · have hcut : ⌊size⌋₊ < (definitions.map ErrorCodeDefinition.code).length := hmore.mp hlt
    simp only [hlt, decide_true, if_true, Bool.not_true, Bool.false_eq_true, if_false]
    refine ⟨_, rfl, ?_⟩
    unfold CursorPage.cut slice
    rw [if_pos hcut, List.drop_zero, ← List.map_take, ← List.map_take, List.getLast?_map,
      List.getLast?_map, Option.map_map, Option.map_map]
    exact congrArg₂ CursorPage.mk (map_code_toRow _) rfl
  · have hall := Nat.not_lt.mp (mt hmore.mpr hlt)
    simp only [hlt, decide_false, Bool.not_false, if_true, Bool.false_eq_true, if_false]
    refine ⟨_, rfl, ?_⟩
    rw [CursorPage.cut_of_le hall]
    exact congrArg₂ CursorPage.mk (map_code_toRow _) rfl

/-- The sums that give the end of a slice reach one row behind the page. -/
theorem floor_end
    {size : ℚ} {index : Nat}
    (hpos : 0 < size)
    (hmax : size ≤ 200)
    (hindex : index ≤ 4294967296) :
    index + ⌊size⌋₊ + 1 ≤ ⌊Number.plus (Number.plus index size) 1⌋₊ := by
  have hfloor : (⌊size⌋₊ : ℚ) ≤ size := Nat.floor_le hpos.le
  have hindex' : (index : ℚ) ≤ 4294967296 := by exact_mod_cast hindex
  have hfirst : ((index + ⌊size⌋₊ : Nat) : ℚ) ≤ Number.plus index size := by
    refine Number.le_plus ?_ ?_
    · push_cast
      linarith
    · linarith
  have hbound : Number.plus index size ≤ ((index + 200 : Nat) : ℚ) + 1 := by
    refine Number.plus_le ?_ ?_ ?_
    · positivity
    · push_cast
      linarith
    · linarith
  refine Nat.le_floor (Number.le_plus ?_ ?_)
  · push_cast at hfirst ⊢
    linarith
  · push_cast at hbound
    linarith

/-- The slice has one row more than the page, when that many are left. -/
theorem cut_slice
    {size : ℚ} {index : Nat}
    (hpos : 0 < size)
    (hmax : size ≤ 200)
    (hindex : index ≤ 4294967296)
    (definitions : List ErrorCodeDefinition) :
    CursorPage.cut cursorOf ⌊size⌋₊
        ((slice definitions index (Number.plus (Number.plus index size) 1)).map
          ErrorCodeDefinition.code) =
      CursorPage.cut cursorOf ⌊size⌋₊
        ((definitions.map ErrorCodeDefinition.code).drop index) := by
  have hend := floor_end hpos hmax hindex
  unfold slice
  rw [List.drop_take, List.map_take, CursorPage.cut_take (by omega), List.map_drop]

/-- From a code on, the page is cut at the first code with greater code units. -/
theorem cut_rowsFrom
    {size : ℚ} {definitions : List ErrorCodeDefinition} {start : Option String}
    (hpos : 0 < size)
    (hmax : size ≤ 200)
    (hlength : definitions.length ≤ 4294967296) :
    CursorPage.cut cursorOf ⌊size⌋₊
        ((rowsFrom definitions (startIndexOf definitions start) size).map
          ErrorCodeDefinition.code) =
      CursorPage.cut cursorOf ⌊size⌋₊
        ((definitions.map ErrorCodeDefinition.code).drop
          ((Text.truthy start).elim 0 (CursorPage.firstGreater Unicode.codeUnits
            (definitions.map ErrorCodeDefinition.code)))) := by
  unfold startIndexOf
  cases Text.truthy start with
  | none => exact cut_slice hpos hmax (Nat.zero_le _) definitions
  | some code =>
      have hfirst :
          CursorPage.firstGreater Unicode.codeUnits (definitions.map ErrorCodeDefinition.code) code =
            definitions.findIdx fun definition =>
              decide (Unicode.codeUnits code < Unicode.codeUnits definition.code) := by
        unfold CursorPage.firstGreater
        rw [List.findIdx_map]
        congr 1
        funext definition
        exact decide_eq_decide.mpr Iff.rfl
      simp only [Option.elim_some]
      rw [hfirst, List.findIdx?_eq_guard_findIdx_lt]
      unfold Option.guard
      generalize (definitions.findIdx fun definition =>
        decide (Unicode.codeUnits code < Unicode.codeUnits definition.code)) = index
      by_cases hindex : index < definitions.length
      · rw [if_pos (decide_eq_true hindex)]
        exact cut_slice hpos hmax (hindex.le.trans hlength) definitions
      · have hnone : (definitions.map ErrorCodeDefinition.code).drop index = [] := by
          rw [List.drop_eq_nil_iff, List.length_map]
          omega
        rw [if_neg (by simpa using hindex), hnone]
        rfl

variable {localeCompare syntaxError}
variable {registry : ErrorCodeRegistry} {limit : Option String} {size : ℚ}

theorem sortedCodes_perm :
    (sortedCodes localeCompare registry).Perm (registry.codes.map ErrorCodeDefinition.code) := by
  unfold sortedCodes ErrorCodeRegistry.list
  exact ((StableSort.sortBy_perm _ _ _).trans (StableSort.sortBy_perm _ _ _)).map _

theorem sortedCodes_nodup : (sortedCodes localeCompare registry).Nodup :=
  sortedCodes_perm.nodup_iff.mpr registry.codes_nodup

/-- A code of the registry is not empty. -/
theorem code_ne_empty {code : String} (hcode : code ∈ sortedCodes localeCompare registry) :
    code ≠ "" := by
  rintro rfl
  obtain ⟨definition, hmem, hempty⟩ := List.mem_map.mp (sortedCodes_perm.mem_iff.mp hcode)
  have hmatch := registry.codes_match definition hmem
  rw [hempty] at hmatch
  cases hmatch

theorem parsedLimit_le (hparsed : parsedLimit limit = .finite size) : size ≤ 200 := by
  unfold parsedLimit at hparsed
  split at hparsed
  · cases hparsed
    decide
  · next text _ =>
      cases hvalue : orDefault (Number.ofText text) with
      | nan =>
          rw [hvalue] at hparsed
          cases hparsed
      | infinity negative =>
          rw [hvalue] at hparsed
          cases negative with
          | true => cases hparsed
          | false =>
              cases hparsed
              exact le_rfl
      | finite value =>
          rw [hvalue] at hparsed
          cases hparsed
          exact min_le_right _ _

/-- A page is cut from the codes, at the start its cursor gives. -/
theorem pages_of_start
    {cursor start : Option String}
    (hlimit : Text.truthy limit ≠ none)
    (hparsed : parsedLimit limit = .finite size)
    (hsize : 1 ≤ size)
    (hstart : startCode syntaxError cursor = .ok start)
    (call : Nat) :
    pages localeCompare syntaxError registry limit call cursor =
      .ok (CursorPage.cut cursorOf ⌊size⌋₊
        ((sortedCodes localeCompare registry).drop
          ((Text.truthy start).elim 0 (CursorPage.firstGreater Unicode.codeUnits
            (sortedCodes localeCompare registry))))) := by
  have hpos : 0 < size := zero_lt_one.trans_le hsize
  let sorted :=
    StableSort.sortBy localeCompare ErrorCodeDefinition.code (registry.list localeCompare)
  have hperm : sorted.Perm registry.codes :=
    (StableSort.sortBy_perm _ _ _).trans (StableSort.sortBy_perm _ _ _)
  have hlength : sorted.length ≤ 4294967296 :=
    hperm.length_eq.le.trans (registry.codes_length.le.trans (by omega))
  obtain ⟨rows, hrows, hcodes⟩ :=
    buildCursorPage_eq hsize (rowsFrom sorted (startIndexOf sorted start) size)
  have hdata : listData localeCompare syntaxError registry cursor limit = .ok (.page rows) := by
    unfold listData
    rw [if_neg (fun hnone => hlimit hnone.2), hparsed]
    dsimp only
    rw [if_neg (not_le.mpr hpos), hstart]
    change (buildCursorPage _ size).bind _ = _
    rw [hrows]
    rfl
  unfold pages
  rw [hdata]
  change Except.ok (ListData.page rows).codes = _
  rw [hcodes, cut_rowsFrom hpos (parsedLimit_le hparsed) hlength]
  rfl

theorem startCode_cursorOf {code : String} :
    startCode syntaxError (some (cursorOf code)) = .ok (some code) := by
  have htruthy : Text.truthy (some (cursorOf code)) = some (cursorOf code) :=
    Text.truthy_eq_some_iff.mpr ⟨rfl, Examples.encodeCursor_ne_empty _⟩
  have hwhole : CursorSortValue.Whole (.text code) := .text code
  have hdecode : decodeCursor syntaxError (cursorOf code) =
      .ok { id := code, sortValue := .text code } := by
    unfold cursorOf
    rw [Examples.decodeCursor_encodeCursor syntaxError hwhole]
  unfold startCode
  rw [htruthy]
  dsimp only
  rw [hdecode]

/-- The pages of a limit of one at least go on at the first code with greater code units. -/
theorem pages_cutBehind
    (hlimit : Text.truthy limit ≠ none)
    (hparsed : parsedLimit limit = .finite size)
    (hsize : 1 ≤ size) :
    CursorPage.CutBehind (pages localeCompare syntaxError registry limit) cursorOf ⌊size⌋₊
      Unicode.codeUnits (sortedCodes localeCompare registry) := by
  constructor
  case first =>
    intro call
    rw [pages_of_start hlimit hparsed hsize rfl call]
    rfl
  case next =>
    intro call code hcode
    have htruthy : Text.truthy (some code) = some code :=
      Text.truthy_eq_some_iff.mpr ⟨rfl, code_ne_empty hcode⟩
    rw [pages_of_start hlimit hparsed hsize startCode_cursorOf call, htruthy]
    rfl

/-- A limit between 0 and 1 fails. -/
theorem pages_of_lt_one
    (hlimit : Text.truthy limit ≠ none)
    (hparsed : parsedLimit limit = .finite size)
    (hpos : 0 < size)
    (hsize : size < 1)
    (call : Nat) :
    pages localeCompare syntaxError registry limit call none = .error (.limit size) := by
  unfold pages listData
  rw [if_neg (fun hnone => hlimit hnone.2), hparsed]
  dsimp only
  rw [if_neg (not_le.mpr hpos)]
  change Except.map _ ((buildCursorPage _ size).bind _) = _
  unfold buildCursorPage
  rw [if_pos hsize]
  rfl

/-- Without a positive limit the whole catalogue is given out. -/
theorem pages_of_all
    (hall : ∀ size, Text.truthy limit ≠ none → parsedLimit limit = .finite size → size ≤ 0)
    (call : Nat) :
    pages localeCompare syntaxError registry limit call none =
      .ok
        { items := (registry.list localeCompare).map ErrorCodeDefinition.code
          nextCursor := none } := by
  unfold pages listData
  by_cases hlimit : Text.truthy limit = none
  · rw [if_pos ⟨rfl, hlimit⟩]
    rfl
  · rw [if_neg (fun hnone => hlimit hnone.2)]
    cases hparsed : parsedLimit limit with
    | nan => rfl
    | infinity negative => rfl
    | finite size =>
        dsimp only
        rw [if_pos (hall size hlimit hparsed)]
        rfl

theorem agreesAtPageEnds_iff (codes : List String) (count : Nat) :
    AgreesAtPageEnds codes count ↔ CursorPage.GoesOn Unicode.codeUnits count codes := by
  constructor
  · intro h k row hk hmore hrow
    exact (CursorPage.firstGreater_eq_iff hmore).mpr
      (h k row _ hk hrow (List.getElem?_eq_getElem hmore))
  · intro h k last next hk hlast hnext
    obtain ⟨hmore, rfl⟩ := List.getElem?_eq_some_iff.mp hnext
    exact (CursorPage.firstGreater_eq_iff hmore).mp (h k last hk hmore hlast)

theorem visitsEachCode_iff_agrees
    (hlimit : Text.truthy limit ≠ none)
    (hparsed : parsedLimit limit = .finite size)
    (hsize : 1 ≤ size) :
    VisitsEachCode localeCompare syntaxError registry limit ↔
      AgreesAtPageEnds (sortedCodes localeCompare registry) ⌊size⌋₊ := by
  have hcut : CursorPage.CutBehind (pages localeCompare syntaxError registry limit) cursorOf
      ⌊size⌋₊ Unicode.codeUnits (sortedCodes localeCompare registry) :=
    pages_cutBehind hlimit hparsed hsize
  have hcount : 1 ≤ ⌊size⌋₊ := (Nat.one_le_floor_iff size).mpr hsize
  rw [agreesAtPageEnds_iff, ← hcut.visits_iff hcount sortedCodes_nodup]
  constructor
  · rintro ⟨fuel, codes, hvisit, hperm⟩
    exact ⟨fuel, codes, hvisit, hperm.trans sortedCodes_perm.symm⟩
  · rintro ⟨fuel, codes, hvisit, hperm⟩
    exact ⟨fuel, codes, hvisit, hperm.trans sortedCodes_perm⟩

theorem not_visitsEachCode_of_lt_one
    (hlimit : Text.truthy limit ≠ none)
    (hparsed : parsedLimit limit = .finite size)
    (hpos : 0 < size)
    (hsize : size < 1) :
    ¬ VisitsEachCode localeCompare syntaxError registry limit := by
  rintro ⟨fuel, codes, hvisit, -⟩
  have herror : pages localeCompare syntaxError registry limit 0 none = .error (.limit size) :=
    pages_of_lt_one hlimit hparsed hpos hsize 0
  cases fuel with
  | zero => cases hvisit
  | succ fuel =>
      rw [CursorPage.visit, herror] at hvisit
      cases hvisit

end Catalogue

/--
A client that follows the cursors gets every code once exactly when the whole
catalogue is given out, or the pages have one code at least and the order of code
units agrees with the one they are sorted by at their ends.
-/
theorem visitsEachCode_iff
    (localeCompare : String → String → Ordering)
    (syntaxError : List Char → String)
    (registry : ErrorCodeRegistry)
    (limit : Option String) :
    VisitsEachCode localeCompare syntaxError registry limit ↔
      Pageable localeCompare registry limit := by
  by_cases hall : ∀ size, Text.truthy limit ≠ none → parsedLimit limit = .finite size → size ≤ 0
  · have hpage := @pages_of_all localeCompare syntaxError registry limit hall 0
    refine iff_of_true ⟨1, _, CursorPage.visit_of_last hpage rfl, ?_⟩ ?_
    · exact (StableSort.sortBy_perm _ _ _).map _
    · intro size hlimit hparsed hpos
      exact absurd (hall size hlimit hparsed) (not_le.mpr hpos)
  · push Not at hall
    obtain ⟨size, hlimit, hparsed, hpos⟩ := hall
    have hpageable : Pageable localeCompare registry limit ↔
        1 ≤ size ∧ AgreesAtPageEnds (sortedCodes localeCompare registry) ⌊size⌋₊ := by
      constructor
      · exact fun h => h size hlimit hparsed hpos
      · intro h other _ hother _
        rw [hparsed, Number.finite.injEq] at hother
        subst hother
        exact h
    rw [hpageable]
    by_cases hsize : 1 ≤ size
    · rw [visitsEachCode_iff_agrees hlimit hparsed hsize, and_iff_right hsize]
    · exact iff_of_false (not_visitsEachCode_of_lt_one hlimit hparsed hpos (not_le.mp hsize))
        fun h => hsize h.1

/-! ## Two codes -/

/-- A total order of the codes, with underscores before digits and letters. -/
structure UnderscoreFirst (localeCompare : String → String → Ordering) : Prop where
  trans : Std.TransCmp localeCompare
  eq_of_tie :
    ∀ a b, matchesCodeRe a = true → matchesCodeRe b = true → localeCompare a b = .eq → a = b
  underscore :
    ∀ (front a b : List Char) (c : Char), isCodeChar c = true → c ≠ '_' →
      localeCompare (String.ofList (front ++ '_' :: a)) (String.ofList (front ++ c :: b)) = .lt

section TwoCodes

/-- The weight of a character: underscores before digits before letters. -/
def weight (c : Char) : Nat :=
  if c = '_' then 0 else c.toNat

def weights (code : String) : List Nat :=
  code.toList.map weight

def compareWeights : String → String → Ordering :=
  compareOn weights

theorem isCodeChar_of_matches {code : String} (h : matchesCodeRe code = true) :
    ∀ c ∈ code.toList, isCodeChar c = true := by
  unfold matchesCodeRe at h
  split at h
  · next first second rest hchars =>
      rw [Bool.and_eq_true, Bool.and_eq_true] at h
      intro c hc
      rw [hchars] at hc
      rcases List.mem_cons.mp hc with rfl | hc
      · unfold isCodeChar
        rw [h.1.1, Bool.true_or, Bool.true_or]
      · rcases List.mem_cons.mp hc with rfl | hc
        · exact h.1.2
        · exact List.all_eq_true.mp h.2 c hc
  · cases h

theorem weight_inj {c d : Char} (hc : isCodeChar c = true) (hd : isCodeChar d = true)
    (h : weight c = weight d) : c = d := by
  have hzero (e : Char) (he : isCodeChar e = true) (hweight : e.toNat = 0) : False := by
    rw [Json.eq_ofNat_of_toNat hweight] at he
    exact absurd he (by decide)
  unfold weight at h
  split at h
  · next hunder =>
      split at h
      · next hunder' => rw [hunder, hunder']
      · exact (hzero d hd h.symm).elim
  · split at h
    · exact (hzero c hc h).elim
    · exact Char.toNat_inj.mp h

theorem map_weight_inj
    {cs ds : List Char}
    (hcs : ∀ c ∈ cs, isCodeChar c = true)
    (hds : ∀ d ∈ ds, isCodeChar d = true)
    (h : cs.map weight = ds.map weight) :
    cs = ds := by
  induction cs generalizing ds with
  | nil => exact (List.map_eq_nil_iff.mp h.symm).symm
  | cons c cs ih =>
      cases ds with
      | nil => cases h
      | cons d ds =>
          obtain ⟨hhead, htail⟩ := List.cons.inj h
          rw [weight_inj (hcs c List.mem_cons_self) (hds d List.mem_cons_self) hhead,
            ih (fun c hc => hcs c (List.mem_cons_of_mem _ hc))
              (fun d hd => hds d (List.mem_cons_of_mem _ hd)) htail]

theorem compare_append_left (front a b : List Nat) :
    compare (front ++ a) (front ++ b) = compare a b := by
  induction front with
  | nil => rfl
  | cons n front ih =>
      have hself : compare n n = .eq := Std.ReflCmp.compare_self
      change List.compareLex compare (n :: (front ++ a)) (n :: (front ++ b)) = _
      rw [List.compareLex_cons_cons, hself]
      exact ih

theorem underscoreFirst_compareWeights : UnderscoreFirst compareWeights where
  trans := by
    unfold compareWeights
    infer_instance
  eq_of_tie a b ha hb htie := by
    have hweights : weights a = weights b := Std.compare_eq_iff_eq.mp htie
    exact String.toList_inj.mp
      (map_weight_inj (isCodeChar_of_matches ha) (isCodeChar_of_matches hb) hweights)
  underscore front a b c hc hother := by
    change compare (weights _) (weights _) = .lt
    have hpos : 0 < c.toNat := by
      refine Nat.pos_of_ne_zero fun hzero => ?_
      rw [Json.eq_ofNat_of_toNat hzero] at hc
      exact absurd hc (by decide)
    have hless : compare 0 c.toNat = .lt := compare_lt_iff_lt.mpr hpos
    simp only [weights, String.toList_ofList, List.map_append, List.map_cons]
    rw [compare_append_left]
    change List.compareLex compare (weight '_' :: a.map weight) (weight c :: b.map weight) = _
    rw [List.compareLex_cons_cons, weight, weight, if_pos rfl, if_neg hother, hless]
    rfl

def definitionOf (code : String) : ErrorCodeDefinition where
  code := code
  status := 404
  messages := [("en", { title := "Not found", detail := none })]

theorem codes_nodup_two :
    (([definitionOf "AB", definitionOf "A_B"]).map ErrorCodeDefinition.code).Nodup := by
  decide

theorem codes_match_two :
    ∀ definition ∈ [definitionOf "AB", definitionOf "A_B"],
      matchesCodeRe definition.code = true := by
  intro definition hmem
  rcases List.mem_pair.mp hmem with rfl | rfl <;> decide

theorem messages_en_two :
    ∀ definition ∈ [definitionOf "AB", definitionOf "A_B"],
      "en" ∈ definition.messages.map Prod.fst := by
  intro definition hmem
  rcases List.mem_pair.mp hmem with rfl | rfl <;> exact List.mem_cons_self

theorem codes_length_two : [definitionOf "AB", definitionOf "A_B"].length < 4294967296 := by
  decide

def twoCodes : ErrorCodeRegistry where
  codes := [definitionOf "AB", definitionOf "A_B"]
  codes_nodup := codes_nodup_two
  codes_match := codes_match_two
  messages_en := messages_en_two
  codes_length := codes_length_two

theorem sortedCodes_two : sortedCodes compareWeights twoCodes = ["A_B", "AB"] := by
  have hlt : compareWeights "A_B" "AB" = .lt := by decide
  have hgt : compareWeights "AB" "A_B" = .gt := by decide
  simp [sortedCodes, ErrorCodeRegistry.list, StableSort.sortBy, StableSort.notAfter, twoCodes,
    definitionOf, List.mergeSort, List.MergeSort.Internal.splitInTwo, hlt, hgt]

theorem parsedLimit_one : parsedLimit (some "1") = .finite 1 := by
  decide +kernel

/-- With one code a page, the code behind the first underscore is left out. -/
theorem not_visitsEachCode_two :
    UnderscoreFirst compareWeights ∧
      ¬ VisitsEachCode compareWeights (fun _ => "") twoCodes (some "1") := by
  refine ⟨underscoreFirst_compareWeights, fun hvisits => ?_⟩
  have hlimit : Text.truthy (some "1") ≠ none := by decide
  rw [visitsEachCode_iff_agrees hlimit parsedLimit_one le_rfl, sortedCodes_two, Nat.floor_one]
    at hvisits
  have hless := (hvisits 1 "A_B" "AB" Nat.one_pos rfl rfl).1
  exact absurd hless (by decide)

end TwoCodes

end ErrorCatalogue
end NestBase
