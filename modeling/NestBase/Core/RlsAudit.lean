import Mathlib.Data.List.DropRight
import NestBase.Lib.CommentPasses
import NestBase.Lib.Text

/-!
# The audit of row level security

The planner reads the models of a Prisma schema source, lists those with a
`tenantId` field, and reports each one whose table no migration puts under row
level security.  Comments are blanked before the models are read, by the two
passes of `CommentPasses`; the rest of the reading is by regular expressions and
by counting braces.
-/

namespace NestBase
namespace Core
namespace RlsAudit

open Lib.CommentPasses
open Lib.Text (isWhiteSpace)

structure Migration where
  sql : List Char

structure RlsAuditPlannerInput where
  /-- Full text of the Prisma schema. -/
  schemaSource : List Char
  migrations : List Migration

structure RlsAuditFinding where
  model : List Char
  table : List Char
  /-- Number of migrations the planner scanned for this finding. -/
  migrationsScanned : Nat
deriving DecidableEq

/-- A model with a `tenantId` field, and its table. -/
structure TenantScopedModel where
  model : List Char
  table : List Char
deriving DecidableEq

structure ParsedModel where
  name : List Char
  /-- Resolved Postgres table name. -/
  table : List Char
  hasTenantIdField : Bool
deriving DecidableEq

/-! ## Schema parsing -/

/-- `\w` -/
def isWord (c : Char) : Bool :=
  c.isAlphanum || c == '_'

/-- `[A-Za-z_]` -/
def isWordStart (c : Char) : Bool :=
  c.isAlpha || c == '_'

/-- `["']` -/
def isQuote (c : Char) : Bool :=
  c == '"' || c == '\''

/-- The text behind a given one. -/
def readText : List Char → List Char → Option (List Char)
  | [], source => some source
  | _ :: _, [] => none
  | t :: text, c :: source => if c = t then readText text source else none

def stripCommentsForFieldScan (source : List Char) : List Char :=
  blankLines false (blankBlocks false source)

/-- `/\bmodel\s+(\w+)\s*\{/` at one place: the name, and the text behind the brace. -/
def modelRegex (previous : Option Char) (source : List Char) :
    Option (List Char × List Char) :=
  if previous.any isWord then none
  else
    (readText "model".toList source).bind fun rest =>
      let header := rest.dropWhile isWhiteSpace
      let name := header.takeWhile isWord
      if rest.takeWhile isWhiteSpace = [] ∨ name = [] then none
      else
        (readText ['\x7b'] ((header.dropWhile isWord).dropWhile isWhiteSpace)).map fun after =>
          (name, after)

/-- The text up to the brace that closes the open ones, and the text behind it. -/
def matchClosingBrace (depth : Nat) : List Char → Option (List Char × List Char)
  | [] => none
  | c :: rest =>
      if c = '\x7b' then
        (matchClosingBrace (depth + 1) rest).map fun found => (c :: found.1, found.2)
      else if c = '\x7d' then
        if depth = 1 then some ([], rest)
        else (matchClosingBrace (depth - 1) rest).map fun found => (c :: found.1, found.2)
      else (matchClosingBrace depth rest).map fun found => (c :: found.1, found.2)

/-- `["']([^"']+)["']` -/
def quotedText : List Char → Option (List Char × List Char)
  | [] => none
  | quote :: rest =>
      let text := rest.takeWhile fun c => !isQuote c
      if isQuote quote = true ∧ text ≠ [] ∧ text.length < rest.length then
        some (text, rest.drop (text.length + 1))
      else none

/-- `/@@map\s*\(\s*["']([^"']+)["']\s*\)/` at one place. -/
def mapMatchAt (body : List Char) : Option (List Char) :=
  (readText "@@map".toList body).bind fun rest =>
    (readText ['('] (rest.dropWhile isWhiteSpace)).bind fun rest =>
      (quotedText (rest.dropWhile isWhiteSpace)).bind fun quoted =>
        (readText [')'] (quoted.2.dropWhile isWhiteSpace)).map fun _ => quoted.1

def mapMatch : List Char → Option (List Char)
  | [] => none
  | c :: rest => (mapMatchAt (c :: rest)).or (mapMatch rest)

/-- An underscore between a lower case letter or a digit and an upper case letter. -/
def separateCapitals : List Char → List Char
  | a :: b :: rest =>
      if (a.isLower || a.isDigit) && b.isUpper then a :: '_' :: separateCapitals (b :: rest)
      else a :: separateCapitals (b :: rest)
  | name => name

def pascalToSnake (name : List Char) : List Char :=
  (separateCapitals name).map Char.toLower

def resolveTableName (modelName body : List Char) : List Char :=
  (mapMatch body).getD (pascalToSnake modelName)

def trim (raw : List Char) : List Char :=
  (raw.dropWhile isWhiteSpace).rdropWhile isWhiteSpace

/-- `/^([A-Za-z_][A-Za-z0-9_]*)/` -/
def tokenMatch : List Char → Option (List Char)
  | [] => none
  | c :: rest => if isWordStart c then some (c :: rest.takeWhile isWord) else none

/-- One line of the field scan. -/
def declaresTenantId (raw : List Char) : Bool :=
  let line := trim raw
  if line = [] then false
  else if "@@".toList.isPrefixOf line then false
  else tokenMatch line == some "tenantId".toList

def hasTenantIdFieldDeclaration (body : List Char) : Bool :=
  (body.splitOn '\n').any declaresTenantId

/-- The models from a place of the stripped source on; the search goes on
behind `lastIndex` more characters. -/
def parseModelsFrom : Nat → Option Char → List Char → List ParsedModel
  | _, _, [] => []
  | lastIndex + 1, _, c :: rest => parseModelsFrom lastIndex (some c) rest
  | 0, previous, c :: rest =>
      match modelRegex previous (c :: rest) with
      | none => parseModelsFrom 0 (some c) rest
      | some (name, behind) =>
          match matchClosingBrace 1 behind with
          | none => parseModelsFrom (rest.length - behind.length) (some c) rest
          | some (body, after) =>
              { name := name
                table := resolveTableName name body
                hasTenantIdField := hasTenantIdFieldDeclaration body } ::
                parseModelsFrom (rest.length - after.length) (some c) rest

def parseModels (source : List Char) : List ParsedModel :=
  parseModelsFrom 0 none (stripCommentsForFieldScan source)

def listTenantScopedModels (schemaSource : List Char) : List TenantScopedModel :=
  ((parseModels schemaSource).filter ParsedModel.hasTenantIdField).map fun m =>
    { model := m.name, table := m.table }

/-! ## Reading from known places -/

variable {c : Char}

theorem not_isWhiteSpace_of_isWord (h : isWord c = true) : isWhiteSpace c = false := by
  have hrange : (48 ≤ c.toNat ∧ c.toNat ≤ 57) ∨ (65 ≤ c.toNat ∧ c.toNat ≤ 90) ∨
      c.toNat = 95 ∨ (97 ≤ c.toNat ∧ c.toNat ≤ 122) := by
    rcases Bool.or_eq_true_iff.mp h with hletter | hunderscore
    · have hletters := Lib.Text.range_of_isAlphanum hletter
      omega
    · rw [beq_iff_eq.mp hunderscore]
      decide
  exact Lib.Text.not_isWhiteSpace_of_visible (by omega) (by omega)

theorem takeWhile_append_of_head
    {p : Char → Bool} {text rest : List Char}
    (htext : text.all p = true)
    (hrest : ∀ c ∈ rest.head?, p c = false) :
    (text ++ rest).takeWhile p = text ∧ (text ++ rest).dropWhile p = rest := by
  have hall := List.all_eq_true.mp htext
  rw [List.takeWhile_append_of_pos hall, List.dropWhile_append_of_pos hall]
  cases rest with
  | nil => simp
  | cons c rest =>
      have hc := hrest c rfl
      rw [List.takeWhile_cons_of_neg (by simp [hc]), List.dropWhile_cons_of_neg (by simp [hc])]
      exact ⟨List.append_nil text, rfl⟩

theorem readText_append (text rest : List Char) : readText text (text ++ rest) = some rest := by
  induction text with
  | nil => rfl
  | cons c text ih =>
      rw [List.cons_append, readText, if_pos rfl]
      exact ih

variable {previous : Option Char}

theorem modelRegex_of_header
    (hprevious : previous.any isWord = false)
    {gap name space : List Char}
    (hgap : gap.all isWhiteSpace = true)
    (hgap_ne : gap ≠ [])
    (hname : name.all isWord = true)
    (hname_ne : name ≠ [])
    (hspace : space.all isWhiteSpace = true)
    (rest : List Char) :
    modelRegex previous ("model".toList ++ (gap ++ (name ++ (space ++ '\x7b' :: rest)))) =
      some (name, rest) := by
  have hbehind_gap : ∀ c ∈ (name ++ (space ++ '\x7b' :: rest)).head?, isWhiteSpace c = false := by
    intro c hc
    obtain ⟨first, name, rfl⟩ := List.exists_cons_of_ne_nil hname_ne
    obtain rfl : first = c := by simpa using hc
    exact not_isWhiteSpace_of_isWord (List.all_eq_true.mp hname _ List.mem_cons_self)
  have hbehind_name : ∀ c ∈ (space ++ '\x7b' :: rest).head?, isWord c = false := by
    intro c hc
    cases space with
    | nil =>
        obtain rfl : '\x7b' = c := by simpa using hc
        rfl
    | cons first space =>
        obtain rfl : first = c := by simpa using hc
        have hfirst := List.all_eq_true.mp hspace _ List.mem_cons_self
        by_contra hword
        have := not_isWhiteSpace_of_isWord (by simpa using hword)
        simp [hfirst] at this
  have hbehind_space : ∀ c ∈ ('\x7b' :: rest).head?, isWhiteSpace c = false := by
    intro c hc
    obtain rfl : '\x7b' = c := by simpa using hc
    decide
  obtain ⟨htake_gap, hdrop_gap⟩ := takeWhile_append_of_head hgap hbehind_gap
  obtain ⟨htake_name, hdrop_name⟩ := takeWhile_append_of_head hname hbehind_name
  obtain ⟨-, hdrop_space⟩ := takeWhile_append_of_head hspace hbehind_space
  have hheader : ¬ (gap = [] ∨ name = []) := by simp [hgap_ne, hname_ne]
  have hbrace : readText ['\x7b'] ('\x7b' :: rest) = some rest := readText_append ['\x7b'] rest
  rw [modelRegex, hprevious, readText_append]
  simp only [Bool.false_eq_true, if_false, Option.bind_some, htake_gap, hdrop_gap, htake_name,
    hdrop_name, hdrop_space, hbrace, if_neg hheader, Option.map_some]

theorem modelRegex_of_ne (h : c ≠ 'm') (previous : Option Char) (rest : List Char) :
    modelRegex previous (c :: rest) = none := by
  have hread : readText "model".toList (c :: rest) = none := if_neg h
  rw [modelRegex, hread]
  split <;> rfl

/-- White space is passed over. -/
theorem parseModelsFrom_gap
    (hprevious : previous.any isWord = false)
    {gap : List Char}
    (hgap : gap.all isWhiteSpace = true)
    (rest : List Char) :
    ∃ behind : Option Char, behind.any isWord = false ∧
      parseModelsFrom 0 previous (gap ++ rest) = parseModelsFrom 0 behind rest := by
  induction gap generalizing previous with
  | nil => exact ⟨previous, hprevious, rfl⟩
  | cons c gap ih =>
      rw [List.all_cons, Bool.and_eq_true] at hgap
      have hword : isWord c = false := by
        by_contra htrue
        have := not_isWhiteSpace_of_isWord (by simpa using htrue)
        simp [hgap.1] at this
      have hm : c ≠ 'm' := by
        rintro rfl
        cases hword
      have hsome : (some c).any isWord = false := hword
      obtain ⟨behind, hbehind, heq⟩ := ih hsome hgap.2
      refine ⟨behind, hbehind, ?_⟩
      rw [List.cons_append, parseModelsFrom, modelRegex_of_ne hm]
      exact heq

/-- The search passes over what stands before `lastIndex`. -/
theorem parseModelsFrom_skip (previous : Option Char) (text rest : List Char) :
    parseModelsFrom text.length previous (text ++ rest) =
      parseModelsFrom 0 (text.getLast?.or previous) rest := by
  induction text generalizing previous with
  | nil => rfl
  | cons c text ih =>
      rw [List.length_cons, List.cons_append, parseModelsFrom, ih]
      cases text with
      | nil => rfl
      | cons d text => simp [List.getLast?_cons]

/-- The search goes on behind the block it has found. -/
theorem parseModelsFrom_of_match
    {text rest behind name body : List Char}
    (hmatch : modelRegex previous (c :: (text ++ rest)) = some (name, behind))
    (hclose : matchClosingBrace 1 behind = some (body, rest)) :
    parseModelsFrom 0 previous (c :: (text ++ rest)) =
      { name := name
        table := resolveTableName name body
        hasTenantIdField := hasTenantIdFieldDeclaration body } ::
        parseModelsFrom 0 (text.getLast?.or (some c)) rest := by
  rw [parseModelsFrom, hmatch]
  simp only [hclose, List.length_append, Nat.add_sub_cancel]
  rw [parseModelsFrom_skip]

/-- The depth behind the text; none when the open braces are closed in it. -/
def braceDepth : Nat → List Char → Option Nat
  | depth, [] => some depth
  | depth, c :: rest =>
      if c = '\x7b' then braceDepth (depth + 1) rest
      else if c = '\x7d' then if depth = 1 then none else braceDepth (depth - 1) rest
      else braceDepth depth rest

theorem braceDepth_append (depth : Nat) (first second : List Char) :
    braceDepth depth (first ++ second) =
      (braceDepth depth first).bind fun depth => braceDepth depth second := by
  induction first generalizing depth with
  | nil => rfl
  | cons c first ih =>
      simp only [List.cons_append, braceDepth]
      split
      · exact ih _
      · split
        · split
          · rfl
          · exact ih _
        · exact ih _

/-- Balanced text does not close the brace before it. -/
theorem matchClosingBrace_of_braceDepth
    {depth : Nat} {text : List Char}
    (h : braceDepth depth text = some 1)
    (rest : List Char) :
    matchClosingBrace depth (text ++ '\x7d' :: rest) = some (text, rest) := by
  induction text generalizing depth with
  | nil =>
      obtain rfl : depth = 1 := by simpa [braceDepth] using h
      rfl
  | cons c text ih =>
      simp only [braceDepth] at h
      simp only [List.cons_append, matchClosingBrace]
      by_cases hopen : c = '\x7b'
      · rw [if_pos hopen] at h ⊢
        rw [ih h]
        rfl
      · rw [if_neg hopen] at h ⊢
        by_cases hclose : c = '\x7d'
        · rw [if_pos hclose] at h ⊢
          by_cases hdepth : depth = 1
          · simp [hdepth] at h
          · rw [if_neg hdepth] at h ⊢
            rw [ih h]
            rfl
        · rw [if_neg hclose] at h ⊢
          rw [ih h]
          rfl

theorem takeWhile_rdropWhile
    {keep drop : Char → Bool}
    (h : ∀ c, keep c = true → drop c = false)
    (text : List Char) :
    (text.rdropWhile drop).takeWhile keep = text.takeWhile keep := by
  induction text using List.reverseRecOn with
  | nil => rfl
  | append_singleton text c ih =>
      cases hdrop : drop c with
      | false => rw [List.rdropWhile_concat_neg _ _ _ (by simp [hdrop])]
      | true =>
          have hkeep : keep c = false := by
            by_contra htrue
            have := h c (by simpa using htrue)
            simp [hdrop] at this
          rw [List.rdropWhile_concat_pos _ _ _ hdrop, ih, List.takeWhile_append]
          split
          · rename_i hall
            rw [List.takeWhile_cons_of_neg (by simp [hkeep]), List.append_nil]
            exact (List.takeWhile_prefix keep).eq_of_length hall
          · rfl

theorem tokenMatch_eq_some_iff (line : List Char) :
    tokenMatch line = some "tenantId".toList ↔ line.takeWhile isWord = "tenantId".toList := by
  cases line with
  | nil => simp [tokenMatch]
  | cons c rest =>
      rw [tokenMatch]
      by_cases hstart : isWordStart c = true
      · have hword : isWord c = true := by
          simp only [isWordStart, Bool.or_eq_true] at hstart
          simp only [isWord, Char.isAlphanum, Bool.or_eq_true]
          tauto
        rw [if_pos hstart, List.takeWhile_cons_of_pos hword, Option.some_inj]
      · rw [if_neg hstart]
        constructor
        · intro h
          cases h
        · intro h
          have hhead : ((c :: rest).takeWhile isWord).head? = some 't' := by
            rw [h]
            rfl
          by_cases hword : isWord c = true
          · rw [List.takeWhile_cons_of_pos hword] at hhead
            obtain rfl : c = 't' := by simpa using hhead
            exact absurd rfl hstart
          · rw [List.takeWhile_cons_of_neg hword] at hhead
            cases hhead

/-- A line declares the field when the first thing on it is the word. -/
theorem declaresTenantId_eq (raw : List Char) :
    declaresTenantId raw =
      decide ((raw.dropWhile isWhiteSpace).takeWhile isWord = "tenantId".toList) := by
  have hword : (trim raw).takeWhile isWord = (raw.dropWhile isWhiteSpace).takeWhile isWord :=
    takeWhile_rdropWhile (fun _ => not_isWhiteSpace_of_isWord) _
  have htoken := tokenMatch_eq_some_iff (trim raw)
  rw [hword] at htoken
  by_cases hmatch : tokenMatch (trim raw) = some "tenantId".toList
  · have hline : trim raw ≠ [] := by
      intro hnil
      simp [hnil, tokenMatch] at hmatch
    have hattribute : "@@".toList.isPrefixOf (trim raw) = false := by
      cases hprefix : "@@".toList.isPrefixOf (trim raw) with
      | false => rfl
      | true =>
          obtain ⟨rest, hrest⟩ := List.isPrefixOf_iff_prefix.mp hprefix
          rw [← hrest] at hmatch
          simp [tokenMatch, isWordStart] at hmatch
    rw [decide_eq_true (htoken.mp hmatch), declaresTenantId, if_neg hline, hattribute, hmatch]
    rfl
  · rw [decide_eq_false (fun h => hmatch (htoken.mpr h)), declaresTenantId]
    split
    · rfl
    · split
      · rfl
      · exact beq_eq_false_iff_ne.mpr hmatch

/-! ## Migration scanning -/

section MigrationScanning

-- How the `i` flag of a regular expression compares characters.
variable (canonical : Char → Char)

/-- A pattern gives the texts that can stand behind it. -/
abbrev Pattern : Type :=
  List Char → List (List Char)

namespace Pattern

def chars (p : Char → Bool) : Pattern
  | [] => []
  | c :: rest => if p c then [rest] else []

def text (t : List Char) : Pattern := fun source =>
  if (source.take t.length).map canonical = t.map canonical then [source.drop t.length] else []

/-- Any number of characters of a class, the most first. -/
def many (p : Char → Bool) : Pattern
  | [] => [[]]
  | c :: rest => if p c then many p rest ++ [c :: rest] else [c :: rest]

def optional (pattern : Pattern) : Pattern := fun source =>
  pattern source ++ [source]

def sequence (patterns : List Pattern) : Pattern := fun source =>
  patterns.foldl (fun rests pattern => rests.flatMap pattern) [source]

end Pattern

open Pattern

def spaces : Pattern :=
  sequence [chars isWhiteSpace, many isWhiteSpace]

def quoteMark : Pattern :=
  optional (chars (· == '"'))

/-- The regular expression of `migrationEnablesRls` at one place, without its
word boundary at the end. -/
def enablesRls (table : List Char) : Pattern :=
  sequence
    [text canonical "alter".toList, spaces, text canonical "table".toList, spaces,
      optional (sequence
        [quoteMark, chars isWordStart, many isWord, quoteMark, many isWhiteSpace,
          chars (· == '.'), many isWhiteSpace]),
      quoteMark, text canonical table, quoteMark, spaces,
      text canonical "enable".toList, spaces, text canonical "row".toList, spaces,
      text canonical "level".toList, spaces, text canonical "security".toList]

/-- `--` to the end of its line. -/
def dropLineComments : Bool → List Char → List Char
  | false, '-' :: '-' :: rest => dropLineComments true rest
  | false, c :: rest => c :: dropLineComments false rest
  | true, c :: rest =>
      if c = '\n' then c :: dropLineComments false rest else dropLineComments true rest
  | _, [] => []

/-- A block comment that is never closed is none. -/
def dropBlockComments : Bool → List Char → List Char
  | false, '/' :: '*' :: rest =>
      if closes rest then dropBlockComments true rest
      else '/' :: '*' :: dropBlockComments false rest
  | true, '*' :: '/' :: rest => dropBlockComments false rest
  | false, c :: rest => c :: dropBlockComments false rest
  | true, _ :: rest => dropBlockComments true rest
  | _, [] => []

def stripSqlComments (sql : List Char) : List Char :=
  dropBlockComments false (dropLineComments false sql)

def migrationEnablesRls (sql table : List Char) : Bool :=
  (stripSqlComments sql).tails.any fun source =>
    (enablesRls canonical table source).any fun rest => !rest.head?.any isWord

def auditRlsCoverage (input : RlsAuditPlannerInput) : List RlsAuditFinding :=
  let uncovered := (listTenantScopedModels input.schemaSource).filter fun m =>
    !input.migrations.any fun mig => migrationEnablesRls canonical mig.sql m.table
  uncovered.map fun m =>
    { model := m.model, table := m.table, migrationsScanned := input.migrations.length }

end MigrationScanning

end RlsAudit
end Core
end NestBase
