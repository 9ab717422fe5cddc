import NestBase.Core.RlsAudit

/-!
# Schema texts and their tenant-scoped models

A schema is a list of model blocks, each with string literals and `//` comments
among its characters.  Its tenant-scoped models are read off the tokens: a
comment is white space, and a literal is one token whatever it spells.

The planner lists these models for a schema it reads as written
(`Schema.ReadAsWritten`).  A comment hides a model when a slash and a star in it
open a block comment that another comment closes.
-/

namespace NestBase
namespace Core
namespace RlsAudit

open Lib.CommentPasses
open Lib.CommentPasses.Token
open Lib.Text (isWhiteSpace)

/-! ## Schemas -/

def tokensOf (text : List Char) : List Token :=
  text.map Token.char

/-- White space and comments. -/
def isGap : Token → Bool
  | .char c => isWhiteSpace c
  | .literal _ => false
  | .comment _ => true

def isBrace : Token → Bool
  | .char c => c == '\x7b' || c == '\x7d'
  | _ => false

structure ModelBlock where
  /-- What stands before the block. -/
  before : List Token
  /-- What stands between `model` and the name. -/
  gap : List Token
  name : List Char
  /-- What stands between the name and the brace. -/
  space : List Token
  /-- What stands between the braces. -/
  body : List Token
  lexed_before : Lexed before
  lexed_gap : Lexed gap
  lexed_space : Lexed space
  lexed_body : Lexed body
  gap_before : before.all isGap = true
  gap_gap : gap.all isGap = true
  gap_space : space.all isGap = true
  ends_before : EndsVisibly before
  ends_gap : EndsVisibly gap
  ends_space : EndsVisibly space
  ends_body : EndsVisibly body
  gap_ne_nil : gap ≠ []
  name_ne_nil : name ≠ []
  word_name : name.all isWord = true
  /-- Braces stand in literals and comments only. -/
  no_brace : body.all (fun token => !isBrace token) = true

def ModelBlock.tokens (block : ModelBlock) : List Token :=
  block.before ++ (tokensOf "model".toList ++ (block.gap ++ (tokensOf block.name ++
    (block.space ++ (.char '\x7b' :: (block.body ++ [.char '\x7d']))))))

structure Schema where
  blocks : List ModelBlock
  /-- What stands behind the last block. -/
  after : List Token
  lexed_after : Lexed after
  gap_after : after.all isGap = true

def Schema.tokens (schema : Schema) : List Token :=
  schema.blocks.flatMap ModelBlock.tokens ++ schema.after

/-- The source text. -/
def Schema.text (schema : Schema) : List Char :=
  textOf schema.tokens

/-! ## The models of a schema -/

def skipGaps (tokens : List Token) : List Token :=
  tokens.dropWhile isGap

/-- The tokens behind a text that is spelled by characters. -/
def readTokens : List Char → List Token → Option (List Token)
  | [], tokens => some tokens
  | t :: text, .char c :: tokens => if c = t then readTokens text tokens else none
  | _ :: _, _ => none

/-- The argument of `@@map`. -/
structure MapArgument where
  /-- It is written `name: "…"`. -/
  named : Bool
  text : List Char
  behind : List Token

def literalArgument (named : Bool) : List Token → Option MapArgument
  | .literal s :: behind => some { named := named, text := s, behind := behind }
  | _ => none

/-- The tokens behind `@@map(`. -/
def mapTokens (tokens : List Token) : Option (List Token) :=
  (readTokens "@@map".toList tokens).bind fun rest =>
    (readTokens ['('] (skipGaps rest)).map skipGaps

/-- `name:` and a literal. -/
def namedArgument (tokens : List Token) : Option MapArgument :=
  (readTokens "name".toList tokens).bind fun rest =>
    (readTokens [':'] (skipGaps rest)).bind fun rest =>
      literalArgument true (skipGaps rest)

/-- `@@map("…")` or `@@map(name: "…")` stands at the head of the tokens. -/
def mapArgument (tokens : List Token) : Option MapArgument :=
  (mapTokens tokens).bind fun rest => (literalArgument false rest).or (namedArgument rest)

/-- The `@@map` name of a block. -/
def mapName : List Token → Option (List Char)
  | [] => none
  | token :: rest => ((mapArgument (token :: rest)).map MapArgument.text).or (mapName rest)

/-- The word at the head of the tokens. -/
def wordAt : List Token → List Char
  | .char c :: rest => if isWord c then c :: wordAt rest else []
  | _ => []

/-- The first thing on a line is the word `tenantId`. -/
def startsWithTenantId : List Token → Bool
  | .char c :: rest =>
      if isWhiteSpace c then startsWithTenantId rest
      else decide (wordAt (.char c :: rest) = "tenantId".toList)
  | _ => false

def ModelBlock.tenantScoped (block : ModelBlock) : Bool :=
  (block.body.splitOn (.char '\n')).any startsWithTenantId

def ModelBlock.table (block : ModelBlock) : List Char :=
  (mapName block.body).getD (pascalToSnake block.name)

def Schema.tenantModels (schema : Schema) : List TenantScopedModel :=
  (schema.blocks.filter ModelBlock.tenantScoped).map fun block =>
    { model := block.name, table := block.table }

/-- The planner lists the tenant-scoped models of the schema, and the audit
reports those without a migration that enables row level security. -/
def Schema.Audited (schema : Schema) : Prop :=
  listTenantScopedModels schema.text = schema.tenantModels ∧
    ∀ (canonical : Char → Char) (migrations : List Migration),
      auditRlsCoverage canonical { schemaSource := schema.text, migrations := migrations } =
        (schema.tenantModels.filter fun m =>
          !migrations.any fun mig => migrationEnablesRls canonical mig.sql m.table).map fun m =>
            { model := m.model, table := m.table, migrationsScanned := migrations.length }

/-! ## Schemas that are read as written -/

/-- What the second pass leaves of the literals. -/
def literalsLeft : Bool → List Token → List Char
  | _, [] => []
  | inside, .literal s :: rest =>
      blankLines inside (literal s).text ++
        literalsLeft (commented inside (literal s).text) rest
  | inside, token :: rest => literalsLeft (commented inside token.text) rest

/-- No `@@map` is matched from a place inside of the text. -/
def noMapIn : List Char → List Char → Bool
  | [], _ => true
  | c :: text, rest => (mapMatchAt (c :: text ++ rest)).isNone && noMapIn text rest

/-- The regular expression reads the argument. -/
def MapArgument.Readable (argument : MapArgument) : Prop :=
  argument.named = false ∧ argument.text ≠ [] ∧ argument.text.any isQuote = false ∧
    blankLines false argument.text = argument.text ∧
    (readTokens [')'] (skipGaps argument.behind)).isSome = true

instance (argument : MapArgument) : Decidable argument.Readable :=
  inferInstanceAs (Decidable (argument.named = false ∧ argument.text ≠ [] ∧
    argument.text.any isQuote = false ∧ blankLines false argument.text = argument.text ∧
    (readTokens [')'] (skipGaps argument.behind)).isSome = true))

/-- The first `@@map` of a block is readable and not behind two slashes of a
literal, and none is spelled by a literal before it. -/
def MapReadable : Bool → List Token → Prop
  | _, [] => True
  | inside, token :: rest =>
      match mapArgument (token :: rest) with
      | some argument => inside = false ∧ argument.Readable
      | none =>
          (token.isLiteral = true →
            noMapIn (blankLines inside token.text)
              (left (commented inside token.text) rest) = true) ∧
            MapReadable (commented inside token.text) rest

instance decidableMapReadable :
    (inside : Bool) → (tokens : List Token) → Decidable (MapReadable inside tokens)
  | _, [] => .isTrue trivial
  | inside, token :: rest =>
      match hargument : mapArgument (token :: rest) with
      | some argument =>
          decidable_of_iff (inside = false ∧ argument.Readable)
            (by simp only [MapReadable, hargument])
      | none =>
          have := decidableMapReadable (commented inside token.text) rest
          decidable_of_iff
            ((token.isLiteral = true →
              noMapIn (blankLines inside token.text)
                (left (commented inside token.text) rest) = true) ∧
              MapReadable (commented inside token.text) rest)
            (by simp only [MapReadable, hargument])

/-! ## Gaps -/

variable {c : Char}

theorem isWhiteSpace_of_eq (h : c = ' ') : isWhiteSpace c = true := by
  rw [h]
  decide

theorem all_left_of_gap
    {tokens : List Token}
    (hlexed : Lexed tokens)
    (hgap : tokens.all isGap = true) :
    (left false tokens).all isWhiteSpace = true := by
  induction tokens with
  | nil => rfl
  | cons token rest ih =>
      rw [List.all_cons, Bool.and_eq_true] at hgap
      have hrest := ih hlexed.2.2 hgap.2
      cases token with
      | char c =>
          rw [left_char, List.all_cons, Bool.and_eq_true]
          exact ⟨hgap.1, hrest⟩
      | literal s => cases hgap.1
      | comment t =>
          obtain ⟨spaces, hspaces, -, hleft⟩ := left_comment hlexed false
          rw [hleft, List.all_append, Bool.and_eq_true]
          refine ⟨List.all_eq_true.mpr fun c hc => ?_, hrest⟩
          exact isWhiteSpace_of_eq (hspaces c hc)

variable {rest line : List Token}
variable {token : Token}

theorem endsVisibly_of_cons (h : EndsVisibly (token :: rest)) :
    EndsVisibly rest := by
  cases rest with
  | nil =>
      intro token htoken
      cases htoken
  | cons next rest => simpa [EndsVisibly] using h

theorem leftCommented_of_gap
    {tokens : List Token}
    (hlexed : Lexed tokens)
    (hgap : tokens.all isGap = true)
    (hends : EndsVisibly tokens) :
    leftCommented false tokens = false := by
  induction tokens with
  | nil => rfl
  | cons token rest ih =>
      rw [List.all_cons, Bool.and_eq_true] at hgap
      have hrest := ih hlexed.2.2 hgap.2 (endsVisibly_of_cons hends)
      cases token with
      | char c =>
          rw [leftCommented, Token.text, commented_char]
          exact hrest
      | literal s => cases hgap.1
      | comment t =>
          rcases hlexed.2.1 rfl with rfl | hhead
          · have hcomment := hends _ rfl
            cases hcomment
          · obtain ⟨after, rfl⟩ := List.head?_eq_some_iff.mp hhead
            rw [leftCommented, Token.text, commented, commented_of_not_mem hlexed.1]
            exact hrest

@[simp] theorem left_tokensOf (text : List Char) (rest : List Token) :
    left false (tokensOf text ++ rest) = text ++ left false rest := by
  induction text with
  | nil => rfl
  | cons c text ih =>
      change left false (.char c :: (tokensOf text ++ rest)) = _
      rw [left_char, ih]
      rfl

/-! ## The field scan -/

theorem not_mem_text (hwell : token.WellFormed) (hbreak : token ≠ .char '\n') :
    '\n' ∉ token.text := by
  cases token with
  | char c =>
      simp only [Token.text, List.mem_singleton]
      rintro rfl
      exact hbreak rfl
  | literal s => simpa [Token.text] using hwell.1
  | comment t =>
      have ht : '\n' ∉ t := hwell
      simpa [Token.text] using ht

/-- The second pass keeps the lines. -/
theorem splitOn_left
    {tokens : List Token}
    (h : Lexed tokens)
    (inside : Bool)
    {first : List Token} {others : List (List Token)}
    (hlines : tokens.splitOn (.char '\n') = first :: others) :
    (left inside tokens).splitOn '\n' = left inside first :: others.map (left false) := by
  induction tokens generalizing inside first others with
  | nil =>
      obtain ⟨rfl, rfl⟩ : first = [] ∧ others = [] := by simpa using hlines
      simp [left]
  | cons token rest ih =>
      obtain ⟨first', others', hrest⟩ :=
        List.exists_cons_of_ne_nil (List.splitOn_ne_nil (.char '\n') rest)
      rw [List.splitOn_cons_eq_if_modifyHead, hrest] at hlines
      by_cases hbreak : token = .char '\n'
      · subst hbreak
        obtain ⟨rfl, rfl⟩ : [] = first ∧ first' :: others' = others := by simpa using hlines
        have hleft : left inside (.char '\n' :: rest) = '\n' :: left false rest := by
          cases inside
          · rw [left_char]
          · rw [left_inside_char]
            rfl
        rw [hleft, List.splitOn_cons_eq_if_modifyHead, if_pos (by decide),
          ih h.2.2 false hrest]
        rfl
      · rw [if_neg (by simpa using hbreak), List.modifyHead_cons] at hlines
        obtain ⟨rfl, rfl⟩ := List.cons.inj hlines
        have htext := not_mem_text h.1 hbreak
        rw [left, Lib.Text.splitOn_append_of_not_mem (not_mem_blankLines inside htext),
          ih h.2.2 _ hrest, List.modifyHead_cons, left]

/-- The tokens of one line. -/
def IsLine (line : List Token) : Prop :=
  ∀ token ∈ line, token.WellFormed ∧ '\n' ∉ token.text

theorem isLine_of_cons (h : IsLine (token :: rest)) :
    IsLine rest :=
  fun next hmem => h next (List.mem_cons_of_mem _ hmem)

theorem isLine_of_mem_splitOn
    {tokens : List Token}
    (h : Lexed tokens)
    (hline : line ∈ tokens.splitOn (.char '\n')) :
    IsLine line := by
  intro token hmem
  have hwell := wellFormed_of_mem h (Lib.Text.mem_of_mem_splitOn hline hmem)
  have hbreak : token ≠ .char '\n' := by
    rintro rfl
    exact Lib.Text.not_mem_of_mem_splitOn hline hmem
  exact ⟨hwell, not_mem_text hwell hbreak⟩

/-- Behind two slashes only spaces are left of a line. -/
theorem eq_space_of_mem_left (h : IsLine line) (hc : c ∈ left true line) :
    c = ' ' := by
  induction line with
  | nil => simp [left] at hc
  | cons token rest ih =>
      have htext := (h token List.mem_cons_self).2
      rw [left, commented_of_not_mem htext, List.mem_append] at hc
      rcases hc with hc | hc
      · exact eq_space_of_mem_blankLines htext hc
      · exact ih (isLine_of_cons h) hc

variable {t : List Char}

theorem eq_space_of_mem_left_comment
    (h : IsLine (.comment t :: rest))
    (hc : c ∈ left false (.comment t :: rest)) :
    c = ' ' := by
  have ht : '\n' ∉ t := (h _ List.mem_cons_self).1
  have hleft : left false (.comment t :: rest) =
      ' ' :: ' ' :: (blankLines true t ++ left true rest) := by
    rw [left, Token.text, blankLines, commented, commented_of_not_mem ht]
    rfl
  rw [hleft, List.mem_cons, List.mem_cons, List.mem_append] at hc
  rcases hc with rfl | rfl | hc | hc
  · rfl
  · rfl
  · exact eq_space_of_mem_blankLines ht hc
  · exact eq_space_of_mem_left (isLine_of_cons h) hc

theorem takeWhile_eq_nil_of_space {text : List Char} (h : ∀ c ∈ text, c = ' ') :
    text.takeWhile isWord = [] := by
  cases text with
  | nil => rfl
  | cons c rest =>
      rw [h c List.mem_cons_self, List.takeWhile_cons_of_neg (by decide)]

/-- The word at the head of a line. -/
theorem takeWhile_left (h : IsLine line) :
    (left false line).takeWhile isWord = wordAt line := by
  induction line with
  | nil => rfl
  | cons token rest ih =>
      cases token with
      | char c =>
          rw [left_char, wordAt]
          by_cases hword : isWord c = true
          · rw [List.takeWhile_cons_of_pos hword, if_pos hword, ih (isLine_of_cons h)]
          · rw [List.takeWhile_cons_of_neg hword, if_neg hword]
      | literal s =>
          obtain ⟨behind, hleft⟩ := left_literal s rest
          rw [hleft, List.takeWhile_cons_of_neg (by decide)]
          rfl
      | comment t =>
          exact takeWhile_eq_nil_of_space fun _ hc => eq_space_of_mem_left_comment h hc

/-- The field scan of a line. -/
theorem declaresTenantId_left (h : IsLine line) :
    declaresTenantId (left false line) = startsWithTenantId line := by
  rw [declaresTenantId_eq]
  induction line with
  | nil => rfl
  | cons token rest ih =>
      cases token with
      | char c =>
          by_cases hspace : isWhiteSpace c = true
          · rw [left_char, List.dropWhile_cons_of_pos hspace, startsWithTenantId, if_pos hspace]
            exact ih (isLine_of_cons h)
          · have hword := takeWhile_left h
            rw [left_char] at hword ⊢
            rw [List.dropWhile_cons_of_neg hspace, hword, startsWithTenantId, if_neg hspace]
      | literal s =>
          obtain ⟨behind, hleft⟩ := left_literal s rest
          rw [hleft, List.dropWhile_cons_of_neg (by decide),
            List.takeWhile_cons_of_neg (by decide)]
          rfl
      | comment t =>
          have hdrop : (left false (.comment t :: rest)).dropWhile isWhiteSpace = [] := by
            rw [List.dropWhile_eq_nil_iff]
            intro c hc
            exact isWhiteSpace_of_eq (eq_space_of_mem_left_comment h hc)
          rw [hdrop]
          rfl

theorem hasTenantIdFieldDeclaration_left {body : List Token} (h : Lexed body) :
    hasTenantIdFieldDeclaration (left false body) =
      (body.splitOn (.char '\n')).any startsWithTenantId := by
  obtain ⟨first, others, hlines⟩ :=
    List.exists_cons_of_ne_nil (List.splitOn_ne_nil (.char '\n') body)
  have hline : ∀ line ∈ first :: others,
      declaresTenantId (left false line) = startsWithTenantId line := by
    intro line hmem
    rw [← hlines] at hmem
    exact declaresTenantId_left (isLine_of_mem_splitOn h hmem)
  rw [hasTenantIdFieldDeclaration, splitOn_left h false hlines, hlines, ← List.map_cons,
    List.any_map]
  rw [Bool.eq_iff_iff, List.any_eq_true, List.any_eq_true]
  constructor
  · rintro ⟨line, hmem, hdeclares⟩
    exact ⟨line, hmem, (hline line hmem) ▸ hdeclares⟩
  · rintro ⟨line, hmem, hstarts⟩
    exact ⟨line, hmem, (hline line hmem).trans hstarts⟩

/-! ## The table name -/

theorem mapMatchAt_cons_of_ne (h : c ≠ '@') (rest : List Char) :
    mapMatchAt (c :: rest) = none := by
  change (if c = '@' then readText "@map".toList rest else none).bind _ = none
  rw [if_neg h]
  rfl

theorem mapMatch_append {text rest : List Char} (h : noMapIn text rest = true) :
    mapMatch (text ++ rest) = mapMatch rest := by
  induction text with
  | nil => rfl
  | cons c text ih =>
      rw [noMapIn, Bool.and_eq_true, Option.isNone_iff_eq_none] at h
      rw [List.cons_append, mapMatch]
      rw [List.cons_append] at h
      rw [h.1, ih h.2]
      rfl

theorem noMapIn_of_forall_ne {text : List Char} (h : ∀ c ∈ text, c ≠ '@') (rest : List Char) :
    noMapIn text rest = true := by
  induction text with
  | nil => rfl
  | cons c text ih =>
      rw [noMapIn, Bool.and_eq_true, List.cons_append,
        mapMatchAt_cons_of_ne (h c List.mem_cons_self)]
      exact ⟨rfl, ih fun d hd => h d (List.mem_cons_of_mem _ hd)⟩

/-- A text without quotes and spaces is read off the tokens. -/
theorem readText_left
    {text : List Char}
    (htext : ∀ c ∈ text, c ≠ '"' ∧ c ≠ ' ')
    {tokens : List Token}
    (h : Lexed tokens) :
    readText text (left false tokens) = (readTokens text tokens).map (left false) := by
  induction text generalizing tokens with
  | nil => rfl
  | cons t text ih =>
      obtain ⟨hquote, hspace⟩ := htext t List.mem_cons_self
      cases tokens with
      | nil => rfl
      | cons token rest =>
          cases token with
          | char c =>
              rw [left_char, readText, readTokens]
              split
              · exact ih (fun c hc => htext c (List.mem_cons_of_mem _ hc)) h.2.2
              · rfl
          | literal s =>
              obtain ⟨behind, hleft⟩ := left_literal s rest
              rw [hleft, readText, if_neg (Ne.symm hquote)]
              rfl
          | comment t' =>
              obtain ⟨spaces, hspaces, hne, hleft⟩ := left_comment h false
              obtain ⟨c, spaces, rfl⟩ := List.exists_cons_of_ne_nil hne
              obtain rfl : c = ' ' := hspaces c List.mem_cons_self
              rw [hleft, List.cons_append, readText, if_neg (Ne.symm hspace)]
              rfl

theorem dropWhile_left {tokens : List Token} (h : Lexed tokens) :
    (left false tokens).dropWhile isWhiteSpace = left false (skipGaps tokens) := by
  induction tokens with
  | nil => rfl
  | cons token rest ih =>
      cases token with
      | char c =>
          rw [left_char, skipGaps]
          by_cases hspace : isWhiteSpace c = true
          · rw [List.dropWhile_cons_of_pos hspace, List.dropWhile_cons_of_pos (by exact hspace)]
            exact ih h.2.2
          · rw [List.dropWhile_cons_of_neg hspace, List.dropWhile_cons_of_neg (by exact hspace),
              left_char]
      | literal s =>
          obtain ⟨behind, hleft⟩ := left_literal s rest
          rw [hleft, List.dropWhile_cons_of_neg (by decide), skipGaps,
            List.dropWhile_cons_of_neg (by simp [isGap]), hleft]
      | comment t =>
          obtain ⟨spaces, hspaces, -, hleft⟩ := left_comment h false
          have hall : ∀ c ∈ spaces, isWhiteSpace c = true := fun c hc =>
            isWhiteSpace_of_eq (hspaces c hc)
          rw [hleft, List.dropWhile_append_of_pos hall, ih h.2.2, skipGaps, skipGaps,
            List.dropWhile_cons_of_pos rfl]

theorem suffix_readTokens
    {text : List Char} {tokens : List Token}
    (h : readTokens text tokens = some rest) :
    rest <:+ tokens := by
  induction text generalizing tokens with
  | nil =>
      obtain rfl : tokens = rest := by simpa [readTokens] using h
      exact List.suffix_rfl
  | cons t text ih =>
      cases tokens with
      | nil => cases h
      | cons token tokens =>
          cases token with
          | char c =>
              rw [readTokens] at h
              split at h
              · exact (ih h).trans (List.suffix_cons _ _)
              · cases h
          | literal s => cases h
          | comment t' => cases h

theorem lexed_readTokens
    {text : List Char} {tokens : List Token}
    (h : Lexed tokens)
    (hread : readTokens text tokens = some rest) :
    Lexed rest :=
  lexed_of_suffix h (suffix_readTokens hread)

theorem lexed_skipGaps {tokens : List Token} (h : Lexed tokens) : Lexed (skipGaps tokens) :=
  lexed_of_suffix h (List.dropWhile_suffix _)

theorem lexed_mapTokens
    {tokens : List Token}
    (h : Lexed tokens)
    (hmap : mapTokens tokens = some rest) :
    Lexed rest := by
  simp only [mapTokens, Option.bind_eq_some_iff, Option.map_eq_some_iff] at hmap
  obtain ⟨first, hfirst, second, hsecond, rfl⟩ := hmap
  exact lexed_skipGaps (lexed_readTokens (lexed_skipGaps (lexed_readTokens h hfirst)) hsecond)

theorem mapMatchAt_left {tokens : List Token} (h : Lexed tokens) :
    mapMatchAt (left false tokens) =
      (mapTokens tokens).bind fun rest =>
        (quotedText (left false rest)).bind fun quoted =>
          (readText [')'] (quoted.2.dropWhile isWhiteSpace)).map fun _ => quoted.1 := by
  have hmap : ∀ c ∈ "@@map".toList, c ≠ '"' ∧ c ≠ ' ' := by simp
  have hparen : ∀ c ∈ ['('], c ≠ '"' ∧ c ≠ ' ' := by simp
  rw [mapMatchAt, readText_left hmap h, mapTokens]
  cases hfirst : readTokens "@@map".toList tokens with
  | none => rfl
  | some first =>
      have hlexed := lexed_skipGaps (lexed_readTokens h hfirst)
      simp only [Option.map_some, Option.bind_some]
      rw [dropWhile_left (lexed_readTokens h hfirst), readText_left hparen hlexed]
      cases hsecond : readTokens ['('] (skipGaps first) with
      | none => rfl
      | some second =>
          simp only [Option.map_some, Option.bind_some]
          rw [dropWhile_left (lexed_readTokens hlexed hsecond)]

/-- Where no literal stands the regular expression finds no quote. -/
theorem quotedText_left_eq_none
    {tokens : List Token}
    (h : Lexed tokens)
    (hnone : literalArgument false tokens = none) :
    quotedText (left false tokens) = none := by
  cases tokens with
  | nil => rfl
  | cons token rest =>
      cases token with
      | char c =>
          have hquote : isQuote c = false := by simp [isQuote, h.1.1, h.1.2.1]
          rw [left_char, quotedText, hquote]
          simp
      | literal s => cases hnone
      | comment t =>
          obtain ⟨spaces, hspaces, hne, hleft⟩ := left_comment h false
          obtain ⟨c, spaces, rfl⟩ := List.exists_cons_of_ne_nil hne
          obtain rfl : c = ' ' := hspaces c List.mem_cons_self
          rw [hleft, List.cons_append, quotedText]
          simp [isQuote]

theorem quotedText_left_literal
    {s : List Char}
    (hne : s ≠ [])
    (hquote : s.any isQuote = false)
    (hleft : blankLines false s = s)
    (rest : List Token) :
    quotedText (left false (.literal s :: rest)) = some (s, left false rest) := by
  have hall : ∀ c ∈ s, (!isQuote c) = true := by
    intro c hc
    have hc := List.any_eq_false.mp hquote c hc
    simpa using hc
  have htext : (s ++ '"' :: left false rest).takeWhile (fun c => !isQuote c) = s := by
    rw [List.takeWhile_append_of_pos hall, List.takeWhile_cons_of_neg (by decide),
      List.append_nil]
  rw [left_literal_of_blankLines_eq hleft, List.cons_append, quotedText, htext]
  simp [isQuote, hne]

variable {argument : MapArgument}

theorem eq_of_literalArgument
    {named : Bool} {tokens : List Token}
    (h : literalArgument named tokens = some argument) :
    tokens = .literal argument.text :: argument.behind := by
  cases tokens with
  | nil => cases h
  | cons token rest =>
      cases token with
      | char c => cases h
      | literal s =>
          obtain rfl := Option.some.inj h
          rfl
      | comment t => cases h

theorem named_of_literalArgument
    {named : Bool} {tokens : List Token}
    (h : literalArgument named tokens = some argument) :
    argument.named = named := by
  obtain rfl := eq_of_literalArgument h
  exact congrArg MapArgument.named (Option.some.inj h).symm

theorem named_of_namedArgument {tokens : List Token} (h : namedArgument tokens = some argument) :
    argument.named = true := by
  simp only [namedArgument, Option.bind_eq_some_iff] at h
  obtain ⟨first, -, second, -, hliteral⟩ := h
  exact named_of_literalArgument hliteral

theorem mapMatchAt_of_mapArgument_none
    {tokens : List Token}
    (h : Lexed tokens)
    (hnone : mapArgument tokens = none) :
    mapMatchAt (left false tokens) = none := by
  rw [mapMatchAt_left h]
  rw [mapArgument] at hnone
  cases htokens : mapTokens tokens with
  | none => rfl
  | some rest =>
      rw [htokens, Option.bind_some, Option.or_eq_none_iff] at hnone
      rw [Option.bind_some, quotedText_left_eq_none (lexed_mapTokens h htokens) hnone.1]
      rfl

theorem mapMatchAt_of_readable
    {tokens : List Token}
    (h : Lexed tokens)
    (hsome : mapArgument tokens = some argument)
    (hreadable : argument.Readable) :
    mapMatchAt (left false tokens) = some argument.text := by
  obtain ⟨hnamed, hne, hquote, hleft, hbehind⟩ := hreadable
  rw [mapMatchAt_left h]
  rw [mapArgument] at hsome
  cases htokens : mapTokens tokens with
  | none => simp [htokens] at hsome
  | some rest =>
      rw [htokens, Option.bind_some] at hsome
      have hlexed := lexed_mapTokens h htokens
      cases hliteral : literalArgument false rest with
      | none =>
          rw [hliteral, Option.none_or] at hsome
          simp [named_of_namedArgument hsome] at hnamed
      | some literal =>
          rw [hliteral, Option.some_or, Option.some_inj] at hsome
          subst hsome
          obtain rfl := eq_of_literalArgument hliteral
          have hparen : ∀ c ∈ [')'], c ≠ '"' ∧ c ≠ ' ' := by simp
          have hread := readText_left hparen (lexed_skipGaps hlexed.2.2)
          obtain ⟨after, hafter⟩ := Option.isSome_iff_exists.mp hbehind
          rw [hafter] at hread
          rw [Option.bind_some, quotedText_left_literal hne hquote hleft, Option.bind_some,
            dropWhile_left hlexed.2.2, hread]
          rfl

theorem eq_space_of_mem_comment
    (h : '\n' ∉ t)
    (inside : Bool)
    (hc : c ∈ blankLines inside (comment t).text) :
    c = ' ' := by
  cases inside with
  | true =>
      have htext : '\n' ∉ (comment t).text := by simpa [Token.text] using h
      exact eq_space_of_mem_blankLines htext hc
  | false =>
      rw [Token.text, blankLines, List.mem_cons, List.mem_cons] at hc
      rcases hc with rfl | rfl | hc
      · rfl
      · rfl
      · exact eq_space_of_mem_blankLines h hc

theorem ne_at_of_mem_comment
    (h : '\n' ∉ t)
    (inside : Bool)
    (hc : c ∈ blankLines inside (comment t).text) :
    c ≠ '@' := by
  rw [eq_space_of_mem_comment h inside hc]
  decide

theorem ne_at_of_mem_blank {d : Char} (h : d ∈ blank c) : d ≠ '@' := by
  rcases eq_of_mem_blank h with rfl | rfl <;> decide

theorem mapMatch_left
    {tokens : List Token}
    (h : Lexed tokens)
    {inside : Bool}
    (hreadable : MapReadable inside tokens) :
    mapMatch (left inside tokens) = mapName tokens := by
  induction tokens generalizing inside with
  | nil => rfl
  | cons token rest ih =>
      rw [mapName]
      cases hargument : mapArgument (token :: rest) with
      | some argument =>
          simp only [MapReadable, hargument] at hreadable
          obtain ⟨rfl, hreadable⟩ := hreadable
          have hmatch := mapMatchAt_of_readable h hargument hreadable
          obtain ⟨c, behind, hleft⟩ : ∃ c behind, left false (token :: rest) = c :: behind := by
            cases hleft : left false (token :: rest) with
            | nil => simp [hleft, mapMatchAt, readText] at hmatch
            | cons c behind => exact ⟨c, behind, rfl⟩
          rw [hleft] at hmatch ⊢
          rw [mapMatch, hmatch]
          rfl
      | none =>
          simp only [MapReadable, hargument] at hreadable
          have hrest := ih h.2.2 hreadable.2
          simp only [Option.map_none, Option.none_or]
          cases token with
          | char c =>
              cases inside with
              | true =>
                  rw [← hrest, left_inside_char]
                  have hnone := noMapIn_of_forall_ne fun d hd => ne_at_of_mem_blank (c := c) hd
                  simpa [Token.text, commented] using mapMatch_append (hnone _)
              | false =>
                  have hnone := mapMatchAt_of_mapArgument_none h hargument
                  rw [left_char] at hnone ⊢
                  rw [mapMatch, hnone, Option.none_or, ← hrest, Token.text, commented_char]
          | literal s =>
              rw [left, mapMatch_append (hreadable.1 rfl), hrest]
          | comment t =>
              have hne := fun c => ne_at_of_mem_comment h.1 inside (c := c)
              rw [left, mapMatch_append (noMapIn_of_forall_ne hne _), hrest]

end RlsAudit
end Core
end NestBase
