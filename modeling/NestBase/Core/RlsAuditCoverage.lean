import NestBase.Core.RlsAuditSchemas

/-!
# What the audit covers

In a schema that is read as written every model block is parsed with its name,
its table and its `tenantId` field, so the planner lists the tenant-scoped models.
Otherwise a model can be missed: two comments with file patterns hide the model
between them.
-/

namespace NestBase
namespace Core
namespace RlsAudit

open Lib.CommentPasses
open Lib.CommentPasses.Token
open Lib.Text (isWhiteSpace)

/-! ## Braces -/

theorem braceDepth_of_no_brace
    {text : List Char}
    (h : ∀ c ∈ text, c ≠ '\x7b' ∧ c ≠ '\x7d')
    (depth : Nat) :
    braceDepth depth text = some depth := by
  induction text with
  | nil => rfl
  | cons c text ih =>
      obtain ⟨hopen, hclose⟩ := h c List.mem_cons_self
      rw [braceDepth, if_neg hopen, if_neg hclose]
      exact ih fun d hd => h d (List.mem_cons_of_mem _ hd)

theorem no_brace_of_char
    {token : Token}
    (hwell : token.WellFormed)
    (hliteral : token.isLiteral = false)
    (hbrace : isBrace token = false)
    (inside : Bool) :
    ∀ c ∈ blankLines inside token.text, c ≠ '\x7b' ∧ c ≠ '\x7d' := by
  intro d hd
  cases token with
  | char c =>
      cases inside with
      | true =>
          rw [Token.text, blankLines, blankLines, List.append_nil] at hd
          rcases eq_of_mem_blank hd with rfl | rfl <;> decide
      | false =>
          rw [Token.text, blankLines_char, List.mem_singleton] at hd
          simpa [hd, isBrace] using hbrace
  | literal s => cases hliteral
  | comment t =>
      rw [eq_space_of_mem_comment hwell inside hd]
      decide

/-- Only literals bring braces into a block. -/
theorem braceDepth_left
    {tokens : List Token}
    (h : Lexed tokens)
    (hbrace : tokens.all (fun token => !isBrace token) = true)
    (inside : Bool)
    (depth : Nat) :
    braceDepth depth (left inside tokens) = braceDepth depth (literalsLeft inside tokens) := by
  induction tokens generalizing inside depth with
  | nil => rfl
  | cons token rest ih =>
      rw [List.all_cons, Bool.and_eq_true, Bool.not_eq_true'] at hbrace
      have hrest := ih h.2.2 hbrace.2
      rw [left, braceDepth_append]
      cases hliteral : token.isLiteral with
      | true =>
          cases token with
          | char c => cases hliteral
          | literal s =>
              rw [literalsLeft, braceDepth_append]
              simp only [hrest]
          | comment t => cases hliteral
      | false =>
          rw [braceDepth_of_no_brace (no_brace_of_char h.1 hliteral hbrace.1 inside),
            Option.bind_some, hrest]
          cases token with
          | char c => rfl
          | literal s => cases hliteral
          | comment t => rfl

/-! ## Blocks -/

/-- The block is read as written: its last line goes on behind its literals, the
braces of its literals are balanced, and its `@@map` is found. -/
structure ModelBlock.ReadAsWritten (block : ModelBlock) : Prop where
  visible : leftCommented false block.body = false
  balanced : braceDepth 1 (literalsLeft false block.body) = some 1
  mapped : MapReadable false block.body

structure Schema.ReadAsWritten (schema : Schema) : Prop where
  inert : BlocksInert schema.tokens
  blocks : ∀ block ∈ schema.blocks, block.ReadAsWritten

/-- The block as the planner should parse it. -/
def ModelBlock.parsed (block : ModelBlock) : ParsedModel where
  name := block.name
  table := block.table
  hasTenantIdField := block.tenantScoped

theorem left_ne_nil {tokens : List Token} (h : Lexed tokens) (hne : tokens ≠ []) :
    left false tokens ≠ [] := by
  obtain ⟨token, rest, rfl⟩ := List.exists_cons_of_ne_nil hne
  cases token with
  | char c => simp
  | literal s =>
      obtain ⟨behind, hleft⟩ := left_literal s rest
      simp [hleft]
  | comment t =>
      obtain ⟨spaces, -, hspaces, hleft⟩ := left_comment h false
      simp [hleft, hspaces]

/-- What the passes leave of a block. -/
theorem left_block (block : ModelBlock) (h : block.ReadAsWritten) (rest : List Token) :
    left false (block.tokens ++ rest) =
      left false block.before ++ ("model".toList ++ (left false block.gap ++ (block.name ++
        (left false block.space ++ '\x7b' :: (left false block.body ++
          '\x7d' :: left false rest))))) := by
  have hbefore := leftCommented_of_gap block.lexed_before block.gap_before block.ends_before
  have hgap := leftCommented_of_gap block.lexed_gap block.gap_gap block.ends_gap
  have hspace := leftCommented_of_gap block.lexed_space block.gap_space block.ends_space
  simp only [ModelBlock.tokens, List.append_assoc, List.cons_append, List.nil_append]
  rw [left_append, hbefore, left_tokensOf, left_append, hgap, left_tokensOf, left_append, hspace,
    left_char, left_append, h.visible, left_char]

theorem parseModelsFrom_block
    {block : ModelBlock}
    (h : block.ReadAsWritten)
    {previous : Option Char}
    (hprevious : previous.any isWord = false)
    (rest : List Token) :
    ∃ behind : Option Char, behind.any isWord = false ∧
      parseModelsFrom 0 previous (left false (block.tokens ++ rest)) =
        block.parsed :: parseModelsFrom 0 behind (left false rest) := by
  have hgap := all_left_of_gap block.lexed_gap block.gap_gap
  have hspace := all_left_of_gap block.lexed_space block.gap_space
  have hgap_ne := left_ne_nil block.lexed_gap block.gap_ne_nil
  obtain ⟨first, hfirst, hbefore⟩ := parseModelsFrom_gap hprevious
    (all_left_of_gap block.lexed_before block.gap_before)
    ("model".toList ++ (left false block.gap ++ (block.name ++
      (left false block.space ++ '\x7b' :: (left false block.body ++
        '\x7d' :: left false rest)))))
  have hmatch := modelRegex_of_header hfirst hgap hgap_ne block.word_name block.name_ne_nil hspace
    (left false block.body ++ '\x7d' :: left false rest)
  have hclose := matchClosingBrace_of_braceDepth
    ((braceDepth_left block.lexed_body block.no_brace false 1).trans h.balanced) (left false rest)
  refine ⟨some '\x7d', rfl, ?_⟩
  rw [left_block block h, hbefore]
  have htext : "model".toList ++ (left false block.gap ++ (block.name ++
      (left false block.space ++ '\x7b' :: (left false block.body ++
        '\x7d' :: left false rest)))) =
      'm' :: (("odel".toList ++ (left false block.gap ++ (block.name ++
        (left false block.space ++ '\x7b' :: (left false block.body ++ ['\x7d']))))) ++
          left false rest) := by
    simp
  rw [htext] at hmatch ⊢
  have hlast : ("odel".toList ++ (left false block.gap ++ (block.name ++
      (left false block.space ++ '\x7b' :: (left false block.body ++
        ['\x7d']))))).getLast?.or (some 'm') = some '\x7d' := by
    simp [List.getLast?_append, List.getLast?_cons]
  rw [parseModelsFrom_of_match hmatch hclose, hlast, resolveTableName,
    mapMatch_left block.lexed_body h.mapped, hasTenantIdFieldDeclaration_left block.lexed_body]
  rfl

/-! ## Schemas -/

theorem endsVisibly_append
    {first second : List Token}
    (hne : second ≠ [])
    (h : EndsVisibly second) :
    EndsVisibly (first ++ second) := by
  intro token htoken
  rw [List.getLast?_append_of_ne_nil _ hne] at htoken
  exact h token htoken

theorem lexed_tokensOf {text : List Char} (h : ∀ c ∈ text, c ≠ '"' ∧ c ≠ '\'' ∧ c ≠ '/') :
    Lexed (tokensOf text) := by
  induction text with
  | nil => trivial
  | cons c text ih =>
      refine ⟨h c List.mem_cons_self, ?_, ih fun d hd => h d (List.mem_cons_of_mem _ hd)⟩
      intro hcomment
      cases hcomment

theorem lexed_single {c : Char} (h : c ≠ '"' ∧ c ≠ '\'' ∧ c ≠ '/') : Lexed [.char c] := by
  refine ⟨h, fun hcomment => ?_, trivial⟩
  cases hcomment

theorem endsVisibly_tokensOf (text : List Char) : EndsVisibly (tokensOf text) := by
  intro token htoken
  obtain ⟨c, -, rfl⟩ := List.mem_map.mp (List.mem_of_getLast? htoken)
  rfl

theorem endsVisibly_block (block : ModelBlock) : EndsVisibly block.tokens := by
  intro token htoken
  have hlast : block.tokens.getLast? = some (.char '\x7d') := by
    simp [ModelBlock.tokens, List.getLast?_append, List.getLast?_cons]
  obtain rfl := Option.some.inj (hlast.symm.trans htoken)
  rfl

theorem lexed_block (block : ModelBlock) : Lexed block.tokens := by
  have hname : ∀ c ∈ block.name, c ≠ '"' ∧ c ≠ '\'' ∧ c ≠ '/' := by
    intro c hc
    have hword := List.all_eq_true.mp block.word_name c hc
    refine ⟨?_, ?_, ?_⟩ <;> rintro rfl <;> cases hword
  have hclose : Lexed (block.body ++ [.char '\x7d']) :=
    lexed_append block.lexed_body block.ends_body (lexed_single (by simp))
  have hbraces : Lexed (.char '\x7b' :: (block.body ++ [.char '\x7d'])) := by
    refine ⟨by decide, fun hcomment => ?_, hclose⟩
    cases hcomment
  have hmodel : Lexed (tokensOf "model".toList) := lexed_tokensOf (by simp)
  apply lexed_append block.lexed_before block.ends_before
  apply lexed_append hmodel (endsVisibly_tokensOf _)
  apply lexed_append block.lexed_gap block.ends_gap
  apply lexed_append (lexed_tokensOf hname) (endsVisibly_tokensOf _)
  exact lexed_append block.lexed_space block.ends_space hbraces

theorem lexed_blocks (blocks : List ModelBlock) {after : List Token} (h : Lexed after) :
    Lexed (blocks.flatMap ModelBlock.tokens ++ after) := by
  induction blocks with
  | nil => exact h
  | cons block blocks ih =>
      rw [List.flatMap_cons, List.append_assoc]
      exact lexed_append (lexed_block block) (endsVisibly_block block) ih

theorem parseModelsFrom_blocks
    {blocks : List ModelBlock}
    (h : ∀ block ∈ blocks, block.ReadAsWritten)
    {after : List Token}
    (hlexed : Lexed after)
    (hgap : after.all isGap = true)
    {previous : Option Char}
    (hprevious : previous.any isWord = false) :
    parseModelsFrom 0 previous (left false (blocks.flatMap ModelBlock.tokens ++ after)) =
      blocks.map ModelBlock.parsed := by
  induction blocks generalizing previous with
  | nil =>
      obtain ⟨behind, -, hpassed⟩ :=
        parseModelsFrom_gap hprevious (all_left_of_gap hlexed hgap) []
      rw [List.append_nil] at hpassed
      exact hpassed
  | cons block blocks ih =>
      rw [List.forall_mem_cons] at h
      obtain ⟨behind, hbehind, hparsed⟩ :=
        parseModelsFrom_block h.1 hprevious (blocks.flatMap ModelBlock.tokens ++ after)
      rw [List.flatMap_cons, List.append_assoc, hparsed, ih h.2 hbehind, List.map_cons]

theorem parseModels_text {schema : Schema} (h : schema.ReadAsWritten) :
    parseModels schema.text = schema.blocks.map ModelBlock.parsed := by
  have hlexed : Lexed schema.tokens := lexed_blocks schema.blocks schema.lexed_after
  rw [parseModels, stripCommentsForFieldScan, Schema.text, blankLines_blankBlocks hlexed h.inert]
  exact parseModelsFrom_blocks h.blocks schema.lexed_after schema.gap_after rfl

/-! ## A schema that hides a model -/

/-- A block with its name between two spaces. -/
def spacedBlock
    (name : List Char)
    (body : List Token)
    (hne : name ≠ [])
    (hname : name.all isWord = true)
    (hlexed : Lexed body)
    (hends : EndsVisibly body)
    (hbrace : body.all (fun token => !isBrace token) = true) :
    ModelBlock where
  before := tokensOf ['\n']
  gap := tokensOf [' ']
  name := name
  space := tokensOf [' ']
  body := body
  lexed_before := lexed_single (by simp)
  lexed_gap := lexed_single (by simp)
  lexed_space := lexed_single (by simp)
  lexed_body := hlexed
  gap_before := rfl
  gap_gap := rfl
  gap_space := rfl
  ends_before := endsVisibly_tokensOf _
  ends_gap := endsVisibly_tokensOf _
  ends_space := endsVisibly_tokensOf _
  ends_body := hends
  gap_ne_nil := List.cons_ne_nil _ _
  name_ne_nil := hne
  word_name := hname
  no_brace := hbrace

/-- A field line and a comment line. -/
def commentedBody (field comment : List Char) : List Token :=
  tokensOf ('\n' :: field ++ ['\n']) ++ [.comment comment, .char '\n']

theorem lexed_commentedBody
    {field comment : List Char}
    (hfield : ∀ c ∈ '\n' :: field ++ ['\n'], c ≠ '"' ∧ c ≠ '\'' ∧ c ≠ '/')
    (hcomment : '\n' ∉ comment) :
    Lexed (commentedBody field comment) := by
  have hend : Lexed [.comment comment, .char '\n'] :=
    ⟨hcomment, fun _ => .inr rfl, lexed_single (by simp)⟩
  exact lexed_append (lexed_tokensOf hfield) (endsVisibly_tokensOf _) hend

theorem endsVisibly_commentedBody (field comment : List Char) :
    EndsVisibly (commentedBody field comment) := by
  apply endsVisibly_append (List.cons_ne_nil _ _)
  intro token htoken
  obtain rfl := Option.some.inj htoken
  rfl

def exampleBody : List Token :=
  commentedBody "id String".toList " matches src/*.ts".toList

def secretBody : List Token :=
  commentedBody "tenantId String".toList " matches **/x".toList

theorem lexed_exampleBody : Lexed exampleBody :=
  lexed_commentedBody (by simp) (by simp)

theorem lexed_secretBody : Lexed secretBody :=
  lexed_commentedBody (by simp) (by simp)

theorem no_brace_exampleBody : exampleBody.all (fun token => !isBrace token) = true := by
  decide

theorem no_brace_secretBody : secretBody.all (fun token => !isBrace token) = true := by
  decide

/-- Each model has a comment with a file pattern. -/
def patternSchema : Schema where
  blocks :=
    [spacedBlock "A".toList exampleBody (List.cons_ne_nil _ _) rfl lexed_exampleBody
        (endsVisibly_commentedBody _ _) no_brace_exampleBody,
      spacedBlock "Secret".toList secretBody (List.cons_ne_nil _ _) rfl lexed_secretBody
        (endsVisibly_commentedBody _ _) no_brace_secretBody]
  after := []
  lexed_after := trivial
  gap_after := rfl

theorem listTenantScopedModels_patternSchema :
    listTenantScopedModels patternSchema.text = [] := by
  decide +kernel

theorem tenantModels_patternSchema :
    patternSchema.tenantModels = [{ model := "Secret".toList, table := "secret".toList }] := by
  decide +kernel

/-- The second model is not listed. -/
theorem not_audited_patternSchema : ¬ patternSchema.Audited := by
  intro h
  have hlist := h.1
  rw [listTenantScopedModels_patternSchema, tenantModels_patternSchema] at hlist
  cases hlist

/-- The planner lists the tenant-scoped models of every schema that is read as
written. -/
theorem audited_of_readAsWritten {schema : Schema} (h : schema.ReadAsWritten) :
    schema.Audited := by
  have hlist : listTenantScopedModels schema.text = schema.tenantModels := by
    rw [listTenantScopedModels, parseModels_text h, List.filter_map, List.map_map]
    rfl
  refine ⟨hlist, fun canonical migrations => ?_⟩
  rw [auditRlsCoverage, hlist]

def settingsBody : List Token :=
  tokensOf "\n  tenantId String ".toList ++ [.comment " /* of */ the row".toList] ++
    tokensOf "\n  note String @default(".toList ++ [.literal "a \x7b b \x7d".toList] ++
    tokensOf ")\n  @@map(".toList ++ [.literal "settings".toList] ++ tokensOf ")\n".toList

theorem lexed_settingsBody : Lexed settingsBody := by
  decide +kernel

theorem endsVisibly_settingsBody : EndsVisibly settingsBody :=
  endsVisibly_append (List.cons_ne_nil _ _) (endsVisibly_tokensOf ")\n".toList)

theorem no_brace_settingsBody : settingsBody.all (fun token => !isBrace token) = true := by
  decide

/-- A literal with balanced braces, and a block comment inside of a line comment. -/
def settingsSchema : Schema where
  blocks :=
    [spacedBlock "TenantSetting".toList settingsBody (List.cons_ne_nil _ _) rfl
      lexed_settingsBody endsVisibly_settingsBody no_brace_settingsBody]
  after := []
  lexed_after := trivial
  gap_after := rfl

theorem audited_settingsSchema :
    settingsSchema.tenantModels =
        [{ model := "TenantSetting".toList, table := "settings".toList }] ∧
      settingsSchema.Audited := by
  have hinert : BlocksInert settingsSchema.tokens := by decide +kernel
  have hblocks : ∀ block ∈ settingsSchema.blocks, block.ReadAsWritten := by
    intro block hblock
    obtain rfl := List.mem_singleton.mp hblock
    exact ⟨by decide +kernel, by decide +kernel, by decide +kernel⟩
  exact ⟨by decide +kernel, audited_of_readAsWritten ⟨hinert, hblocks⟩⟩

end RlsAudit
end Core
end NestBase
