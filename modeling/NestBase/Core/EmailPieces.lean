import NestBase.Core.EmailPlaceholders

/-!
# Where the parts of a generated template come from

The source of a template is cut into pieces: what the composer writes by
itself, what it writes for a stretch of a user's text between two
placeholders, and the names of placeholders.  `sourcePieces` follows
`composeEmailTemplateSource` line by line; the pieces joined are the source
(`written_sourcePieces`).

The lines of the children are indented: the spaces at the head of a line
belong to the piece that begins it.
-/

namespace NestBase
namespace EmailBuilder

open Lib

/-- A part of a generated source. -/
inductive Piece where
  /-- What the composer writes by itself. -/
  | fixed (chars : List Char)
  /-- What is written for a stretch of a user's text. -/
  | user (text written : List Char)
  /-- A reference to the variable of a placeholder. -/
  | reference (ref : String) (name : List Char)
  /-- The variable of a placeholder in the interface. -/
  | member (name : List Char)

def Piece.written : Piece → List Char
  | fixed chars => chars
  | user _ written => written
  | reference ref name => ref.toList ++ '.' :: name
  | member name => name

/-- The pieces joined. -/
def written (pieces : List Piece) : List Char :=
  pieces.flatMap Piece.written

@[simp] theorem written_nil : written [] = [] := rfl

@[simp] theorem written_cons (piece : Piece) (rest : List Piece) :
    written (piece :: rest) = piece.written ++ written rest :=
  List.flatMap_cons

@[simp] theorem written_append (front back : List Piece) :
    written (front ++ back) = written front ++ written back :=
  List.flatMap_append

/-! ## Literals -/

/-- The first character of the text the segments are cut from. -/
def firstChar : List Segment → Option Char
  | [] => none
  | .text chars :: rest => chars.head?.or (firstChar rest)
  | .var _ :: _ => some '\x7b'

theorem firstChar_segments (s : List Char) : firstChar (segments s) = s.head? := by
  induction s using scan_induction with
  | nil => rfl
  | var s name rest hmatch ih =>
      rw [segments_of_match hmatch, head_of_matchPlaceholder hmatch]
      rfl
  | char c rest hmatch ih =>
      rw [segments_of_char hmatch]
      unfold consText
      split <;> rfl

/-- The text of a template literal. -/
def templatePieces (ref : String) : List Segment → List Piece
  | [] => []
  | .text chars :: rest =>
      .user chars (escapeTemplateFrom (firstChar rest) chars) :: templatePieces ref rest
  | .var name :: rest =>
      .fixed ['$', '\x7b'] :: .reference ref name :: .fixed ['\x7d'] :: templatePieces ref rest

def quotedPieces (text : List Char) : List Piece :=
  [.fixed ['"'], .user text (text.flatMap Json.escapeChar), .fixed ['"']]

def literalPieces (value : String) (ref : String) : List Piece :=
  if hasPlaceholder value.toList then
    .fixed ['\x60'] :: (templatePieces ref (segments value.toList) ++ [.fixed ['\x60']])
  else quotedPieces value.toList

def partPieces : Segment → List Piece
  | .text chars => quotedPieces chars
  | .var name => [.reference "props" name]

/-- The parts of a joined expression. -/
def joinedPieces : List Segment → List Piece
  | [] => []
  | [part] => partPieces part
  | part :: rest => partPieces part ++ .fixed " + ".toList :: joinedPieces rest

def expressionPieces (value : String) : List Piece :=
  match segments value.toList with
  | [] => quotedPieces value.toList
  | parts => joinedPieces parts

theorem written_quotedPieces (text : List Char) :
    written (quotedPieces text) = (Json.quote (String.ofList text)).toList := by
  simp [quotedPieces, Piece.written, Json.quote]

/-- A character in front of segments is escaped with the first of them in view. -/
theorem written_templatePieces_consText (ref : String) (c : Char) (parts : List Segment) :
    written (templatePieces ref (consText c parts)) =
      escapeTemplateChar (firstChar parts) c ++ written (templatePieces ref parts) := by
  unfold consText
  split
  · next chars rest =>
      simp [templatePieces, Piece.written, escapeTemplateFrom, firstChar]
  · simp [templatePieces, Piece.written, escapeTemplateFrom]

/-- Replacing the placeholders of the escaped text is escaping between the placeholders. -/
theorem written_templatePieces (ref : String) (s : List Char) :
    written (templatePieces ref (segments s)) =
      replacePlaceholders (templateReference ref) (escapeTemplate s) := by
  unfold escapeTemplate
  induction s using scan_induction with
  | nil => rfl
  | var s name rest hmatch ih =>
      have hescaped : matchPlaceholder (escapeTemplateFrom none s) =
          some (name, escapeTemplateFrom none rest) := by
        rw [matchPlaceholder_escapeTemplateFrom, hmatch]
        rfl
      rw [segments_of_match hmatch, replacePlaceholders_of_match hescaped, ← ih]
      simp [templatePieces, Piece.written, templateReference]
  | char c rest hmatch ih =>
      have hescaped : matchPlaceholder (escapeTemplateFrom none (c :: rest)) = none := by
        rw [matchPlaceholder_escapeTemplateFrom, hmatch]
        rfl
      rw [segments_of_char hmatch, written_templatePieces_consText, firstChar_segments, ih]
      rw [escapeTemplateFrom, Option.or_none] at hescaped ⊢
      rcases escapeTemplateChar_cases rest.head? c with ⟨hsame, -⟩ | ⟨hback, hspecial⟩
      · rw [hsame] at hescaped ⊢
        exact (replacePlaceholders_of_char hescaped).symm
      · have hbrace : c ≠ '\x7b' := by
          rcases hspecial with rfl | rfl | rfl <;> decide
        have hfirst : '\\' ≠ '\x7b' := by decide
        rw [hback]
        change _ = replacePlaceholders _ ('\\' :: c :: escapeTemplateFrom none rest)
        rw [replacePlaceholders_of_char (matchPlaceholder_of_head hfirst),
          replacePlaceholders_of_char (matchPlaceholder_of_head hbrace)]
        rfl

theorem written_literalPieces (value ref : String) :
    written (literalPieces value ref) = renderInterpolatedTemplateLiteral value ref := by
  unfold literalPieces renderInterpolatedTemplateLiteral
  split
  · simp only [replacements_eq_escapeTemplate, ← written_templatePieces]
    simp [Piece.written]
  · rw [written_quotedPieces, String.ofList_toList]

theorem written_partPieces (part : Segment) :
    written (partPieces part) = expressionPart part := by
  cases part with
  | text chars => exact written_quotedPieces chars
  | var name =>
      have hdot : "props.".toList = "props".toList ++ ['.'] := rfl
      change "props".toList ++ '.' :: name ++ [] = "props.".toList ++ name
      rw [hdot, List.append_nil, List.append_assoc]
      rfl

theorem written_joinedPieces (parts : List Segment) :
    written (joinedPieces parts) = " + ".toList.intercalate (parts.map expressionPart) := by
  induction parts with
  | nil => rfl
  | cons part rest ih =>
      cases rest with
      | nil => simp [joinedPieces, written_partPieces]
      | cons next rest =>
          rw [joinedPieces, written_append, written_cons, ih, written_partPieces, List.map_cons,
            List.map_cons, List.map_cons, List.intercalate_cons_cons, List.append_assoc]
          · rfl
          · simp

theorem written_expressionPieces (value : String) :
    written (expressionPieces value) = renderInterpolatedJsxChildren value := by
  unfold expressionPieces renderInterpolatedJsxChildren
  cases segments value.toList with
  | nil =>
      change written (quotedPieces value.toList) = (Json.quote value).toList
      rw [written_quotedPieces, String.ofList_toList]
  | cons part rest => exact written_joinedPieces (part :: rest)

/-! ## Blocks -/

/-- A part of a block text. -/
def childPieces : Segment → List Piece
  | .text chars => [.user chars (escapeJsxText chars)]
  | .var name => [.fixed ['\x7b'], .reference "props" name, .fixed ['\x7d']]

def textPieces : Option PropValue → List Piece
  | none => []
  | some value =>
      let str := value.toText.toList
      if hasPlaceholder str then (segments str).flatMap childPieces else [.user str str]

def wrapPieces (component : List Char) (attrs child : List Piece) : List Piece :=
  if written child = [] then
    .fixed ('<' :: (component ++ [' '])) :: (attrs ++ [.fixed " />".toList])
  else
    .fixed ('<' :: (component ++ [' '])) ::
      (attrs ++ .fixed ['>'] :: (child ++ [.fixed ("</".toList ++ component ++ ['>'])]))

def hrefPieces : Option PropValue → List Piece
  | some (.str href) => .fixed " href=\x7b".toList :: (expressionPieces href ++ [.fixed ['\x7d']])
  | _ => []

def blockPieces (block : EmailBlockSpec) : List Piece :=
  match block.type with
  | "greeting" => wrapPieces "Greeting".toList [.fixed brandAttr] (textPieces (block.prop "text"))
  | "paragraph" =>
      wrapPieces "Paragraph".toList [.fixed brandAttr] (textPieces (block.prop "text"))
  | "cta" =>
      wrapPieces "CTA".toList (.fixed brandAttr :: hrefPieces (block.prop "href"))
        (textPieces (block.prop "text"))
  | "footer" => wrapPieces "Footer".toList [.fixed brandAttr] (textPieces (block.prop "text"))
  | "code" => wrapPieces "Code".toList [.fixed brandAttr] (textPieces (block.prop "text"))
  | "divider" => [.fixed "<Divider />".toList]
  | other => [.fixed ("\x7b/* unknown block: ".toList ++ other.toList ++ " */\x7d".toList)]

/-- The blocks on lines of their own. -/
def childrenPieces : List EmailBlockSpec → List Piece
  | [] => []
  | [block] => blockPieces block
  | block :: rest => blockPieces block ++ .fixed ['\n'] :: childrenPieces rest

theorem written_textPieces (value : Option PropValue) :
    written (textPieces value) = textChild value := by
  cases value with
  | none => rfl
  | some value =>
      have hparts : ∀ parts : List Segment,
          written (parts.flatMap childPieces) = parts.flatMap childPart := by
        intro parts
        induction parts with
        | nil => rfl
        | cons part rest ih =>
            rw [List.flatMap_cons, List.flatMap_cons, written_append, ih]
            cases part <;> simp [childPieces, childPart, Piece.written]
      simp only [textPieces, textChild]
      split
      · exact hparts _
      · simp [Piece.written]

theorem written_wrapPieces (component : List Char) (attrs child : List Piece) :
    written (wrapPieces component attrs child) =
      wrapJsx component (written attrs) (written child) := by
  unfold wrapPieces wrapJsx
  split <;> simp [Piece.written]

theorem written_hrefPieces (href : Option PropValue) :
    written (hrefPieces href) = hrefAttr href := by
  have hstr : ∀ text : String, written (hrefPieces (some (.str text))) =
      " href=\x7b".toList ++ renderInterpolatedJsxChildren text ++ ['\x7d'] := by
    intro text
    change written (.fixed " href=\x7b".toList :: (expressionPieces text ++ [.fixed ['\x7d']])) = _
    rw [written_cons, written_append, written_expressionPieces, List.append_assoc]
    rfl
  cases href with
  | none => rfl
  | some value =>
      cases value with
      | str text => exact hstr text
      | num text => rfl
      | bool b => rfl

theorem written_blockPieces (block : EmailBlockSpec) :
    written (blockPieces block) = renderBlockJsx block := by
  have hbrand : written [.fixed brandAttr] = brandAttr := by
    simp [Piece.written]
  have htext := written_textPieces (block.prop "text")
  have hcta : written (.fixed brandAttr :: hrefPieces (block.prop "href")) =
      brandAttr ++ hrefAttr (block.prop "href") := by
    rw [written_cons, written_hrefPieces]
    rfl
  unfold blockPieces renderBlockJsx
  generalize block.type = type
  split
  · simp only [written_wrapPieces, hbrand, htext]
  · simp only [written_wrapPieces, hbrand, htext]
  · simp only [written_wrapPieces, hcta, htext]
  · simp only [written_wrapPieces, hbrand, htext]
  · simp only [written_wrapPieces, hbrand, htext]
  · simp only [written_cons, written_nil, Piece.written, List.append_nil]
  · simp only [written_cons, written_nil, Piece.written, List.append_nil]

theorem written_childrenPieces (children : List EmailBlockSpec) :
    written (childrenPieces children) = joinLines (children.map renderBlockJsx) := by
  induction children with
  | nil => rfl
  | cons block rest ih =>
      cases rest with
      | nil => simp [childrenPieces, joinLines, written_blockPieces]
      | cons next rest =>
          unfold joinLines at ih ⊢
          rw [childrenPieces, written_append, written_cons, ih, written_blockPieces, List.map_cons,
            List.map_cons, List.map_cons, List.intercalate_cons_cons, List.append_assoc]
          · rfl
          · simp

/-! ## Indentation -/

/-- A text indented, from the head of a line or from within one. -/
def indentFrom (spaces : Nat) : Bool → List Char → List Char
  | _, [] => []
  | atStart, c :: rest =>
      if c = '\n' then '\n' :: indentFrom spaces true rest
      else if atStart then List.replicate spaces ' ' ++ c :: indentFrom spaces false rest
      else c :: indentFrom spaces false rest

/-- Whether a text ends at the head of a line. -/
def endsLine (atStart : Bool) : List Char → Bool
  | [] => atStart
  | c :: rest => endsLine (c == '\n') rest

def Piece.indent (spaces : Nat) (atStart : Bool) : Piece → List Piece
  | fixed chars => [fixed (indentFrom spaces atStart chars)]
  | user text written => [user text (indentFrom spaces atStart written)]
  | name => if atStart then [fixed (List.replicate spaces ' '), name] else [name]

def indentPieces (spaces : Nat) : Bool → List Piece → List Piece
  | _, [] => []
  | atStart, piece :: rest =>
      piece.indent spaces atStart ++ indentPieces spaces (endsLine atStart piece.written) rest

/-- The references and members of the pieces have names of placeholders. -/
def Piece.Named : Piece → Prop
  | fixed _ => True
  | user _ _ => True
  | reference ref name => (ref = "vars" ∨ ref = "props") ∧ IsName name
  | member name => IsName name

section Indentation

variable {spaces : Nat}

theorem indentFrom_append (atStart : Bool) (front back : List Char) :
    indentFrom spaces atStart (front ++ back) =
      indentFrom spaces atStart front ++ indentFrom spaces (endsLine atStart front) back := by
  induction front generalizing atStart with
  | nil => rfl
  | cons c front ih =>
      by_cases hbreak : c = '\n'
      · subst hbreak
        simp [indentFrom, endsLine, ih]
      · have hfalse : (c == '\n') = false := beq_eq_false_iff_ne.mpr hbreak
        cases atStart <;> simp [indentFrom, endsLine, hbreak, hfalse, ih]

theorem endsLine_append (atStart : Bool) (front back : List Char) :
    endsLine atStart (front ++ back) = endsLine (endsLine atStart front) back := by
  induction front generalizing atStart with
  | nil => rfl
  | cons c front ih => exact ih _

/-- Within a line nothing is indented. -/
theorem indentFrom_of_line {chars : List Char} (h : '\n' ∉ chars) :
    indentFrom spaces false chars = chars := by
  induction chars with
  | nil => rfl
  | cons c rest ih =>
      have hc : c ≠ '\n' := fun hc => h (List.mem_cons.mpr (Or.inl hc.symm))
      simp [indentFrom, hc, ih (List.not_mem_of_not_mem_cons h)]

theorem indentFrom_of_line_cons {c : Char} {rest : List Char} (h : '\n' ∉ c :: rest) :
    indentFrom spaces true (c :: rest) = List.replicate spaces ' ' ++ c :: rest := by
  have hc : c ≠ '\n' := fun hc => h (List.mem_cons.mpr (Or.inl hc.symm))
  simp [indentFrom, hc, indentFrom_of_line (List.not_mem_of_not_mem_cons h)]

theorem endsLine_of_line {chars : List Char} (h : '\n' ∉ chars) :
    endsLine false chars = false := by
  induction chars with
  | nil => rfl
  | cons c rest ih =>
      have hc : c ≠ '\n' := fun hc => h (List.mem_cons.mpr (Or.inl hc.symm))
      rw [endsLine, beq_eq_false_iff_ne.mpr hc]
      exact ih (List.not_mem_of_not_mem_cons h)

theorem endsLine_cons {c : Char} {rest : List Char} (atStart : Bool) (h : '\n' ∉ c :: rest) :
    endsLine atStart (c :: rest) = false := by
  have hc : c ≠ '\n' := fun hc => h (List.mem_cons.mpr (Or.inl hc.symm))
  rw [endsLine, beq_eq_false_iff_ne.mpr hc]
  exact endsLine_of_line (List.not_mem_of_not_mem_cons h)

theorem newline_not_mem_of_isName {name : List Char} (h : IsName name) : '\n' ∉ name := by
  intro hmem
  exact absurd (h.2 _ hmem) (by decide)

theorem indentPieces_append (atStart : Bool) (front back : List Piece) :
    indentPieces spaces atStart (front ++ back) =
      indentPieces spaces atStart front ++
        indentPieces spaces (endsLine atStart (written front)) back := by
  induction front generalizing atStart with
  | nil => rfl
  | cons piece front ih =>
      rw [List.cons_append, indentPieces, indentPieces, ih, written_cons, endsLine_append,
        List.append_assoc]

theorem written_indent {piece : Piece} (hnamed : piece.Named) (atStart : Bool) :
    written (piece.indent spaces atStart) = indentFrom spaces atStart piece.written := by
  have hname : ∀ chars : List Char, chars ≠ [] → '\n' ∉ chars →
      (if atStart then List.replicate spaces ' ' ++ chars else chars) =
        indentFrom spaces atStart chars := by
    intro chars hchars hline
    obtain ⟨c, rest, rfl⟩ := List.exists_cons_of_ne_nil hchars
    cases atStart with
    | false => exact (indentFrom_of_line hline).symm
    | true => exact (indentFrom_of_line_cons hline).symm
  cases piece with
  | fixed chars => simp [Piece.indent, Piece.written]
  | user text chars => simp [Piece.indent, Piece.written]
  | reference ref name =>
      obtain ⟨href, hisName⟩ := hnamed
      have hline : '\n' ∉ ref.toList ++ '.' :: name := by
        rw [List.mem_append, List.mem_cons, not_or, not_or]
        refine ⟨?_, by decide, newline_not_mem_of_isName hisName⟩
        rcases href with rfl | rfl
        · decide
        · decide
      rw [Piece.written, ← hname _ (by simp) hline]
      cases atStart <;> simp [Piece.indent, Piece.written]
  | member name =>
      have hnil : name ≠ [] := by
        rintro rfl
        exact absurd hnamed.1 (by simp)
      rw [Piece.written, ← hname name hnil (newline_not_mem_of_isName hnamed)]
      cases atStart <;> simp [Piece.indent, Piece.written]

theorem written_indentPieces
    {pieces : List Piece}
    (hnamed : ∀ piece ∈ pieces, piece.Named)
    (atStart : Bool) :
    written (indentPieces spaces atStart pieces) =
      indentFrom spaces atStart (written pieces) := by
  induction pieces generalizing atStart with
  | nil => rfl
  | cons piece rest ih =>
      rw [indentPieces, written_append, written_cons, indentFrom_append,
        written_indent (hnamed piece List.mem_cons_self),
        ih fun other hother => hnamed other (List.mem_cons_of_mem _ hother)]

/-- Indenting line by line is indenting from the head of a line. -/
theorem indentLines_eq_indentFrom (value : List Char) :
    indentLines value spaces = indentFrom spaces true value := by
  have hlines : ∀ first others, value.splitOn '\n' = first :: others →
      indentFrom spaces false value =
          joinLines (first :: others.map fun line =>
            if line = [] then line else List.replicate spaces ' ' ++ line) ∧
        indentFrom spaces true value =
          joinLines ((first :: others).map fun line =>
            if line = [] then line else List.replicate spaces ' ' ++ line) := by
    induction value with
    | nil =>
        intro first others hsplit
        rw [List.splitOn_nil] at hsplit
        cases hsplit
        exact ⟨rfl, rfl⟩
    | cons c rest ih =>
        intro first others hsplit
        obtain ⟨next, behind, hrest⟩ := List.exists_cons_of_ne_nil (List.splitOn_ne_nil '\n' rest)
        obtain ⟨hwithin, hstart⟩ := ih next behind hrest
        rw [List.splitOn_cons_eq_if_modifyHead, hrest] at hsplit
        by_cases hbreak : c = '\n'
        · subst hbreak
          rw [if_pos (beq_self_eq_true _)] at hsplit
          cases hsplit
          simp only [indentFrom, if_true, hstart, List.map_cons]
          simp [joinLines, List.intercalate_cons_cons]
        · rw [if_neg (by simpa using hbreak)] at hsplit
          cases hsplit
          simp only [indentFrom, if_neg hbreak, hwithin, List.map_cons]
          cases others with
          | nil => simp [joinLines]
          | cons line others => simp [joinLines, List.intercalate_cons_cons]
  obtain ⟨first, others, hsplit⟩ := List.exists_cons_of_ne_nil (List.splitOn_ne_nil '\n' value)
  rw [(hlines first others hsplit).2, ← hsplit]
  rfl

end Indentation

/-! ## The source -/

/-- A line of fixed text. -/
def fixedLine (parts : List (List Char)) : List Piece :=
  [.fixed parts.flatten]

def importLines (corePrefix : List Char) (blockImports : List String) : List (List Piece) :=
  [fixedLine ["/**".toList],
    fixedLine [" * AUTO-GENERATED by `/hub/email-builder` — do not edit by hand.".toList],
    fixedLine [" * Hand-edits will be overwritten on the next save from the builder UI.".toList],
    fixedLine [" */".toList],
    fixedLine ["import * as React from \"react\";".toList],
    [],
    fixedLine ["import \x7b Barebone \x7d from \"".toList, corePrefix,
      "/layouts/Barebone.js\";".toList]] ++
  ((if blockImports = [] then []
    else
      [fixedLine ["import \x7b ".toList, ", ".toList.intercalate (blockImports.map String.toList),
        " \x7d from \"".toList, corePrefix, "/blocks/index.js\";".toList]]) ++
  [fixedLine ["import type \x7b BrandConfig \x7d from \"".toList, corePrefix,
      "/brand.js\";".toList],
    []])

def interfaceLines (pascalName : List Char) (vars : List String) : List (List Piece) :=
  fixedLine ["export interface ".toList, pascalName, "Vars \x7b".toList] ::
    ((vars.map fun v => [.fixed "  ".toList, .member v.toList, .fixed ": string;".toList]) ++
      [fixedLine ["\x7d".toList], []])

def metaLines (slug : String) (vars : List String) (subject : String) : List (List Piece) :=
  [fixedLine ["export const ".toList, kebabToCamel slug, "Meta = \x7b".toList],
    fixedLine ["  name: \"".toList, slug.toList, "\",".toList],
    fixedLine [if vars = [] then "  subject: (_vars: ".toList else "  subject: (vars: ".toList,
        kebabToPascal slug, "Vars): string => ".toList] ++
      (literalPieces subject "vars" ++ [.fixed [',']]),
    fixedLine ["\x7d;".toList],
    []]

def propsLines (pascalName : List Char) : List (List Piece) :=
  [fixedLine ["export interface ".toList, pascalName, "Props extends ".toList, pascalName,
      "Vars \x7b".toList],
    fixedLine ["  brand?: BrandConfig;".toList],
    fixedLine ["\x7d".toList],
    []]

def preheaderPieces : Option String → List Piece
  | none => []
  | some preheader =>
      .fixed " preheader=\x7b".toList :: (literalPieces preheader "props" ++ [.fixed ['\x7d']])

def componentLines
    (pascalName : List Char)
    (preheader : Option String)
    (children : List EmailBlockSpec) : List (List Piece) :=
  [fixedLine ["export default function ".toList, pascalName, "(props: ".toList, pascalName,
      "Props): React.ReactElement \x7b".toList],
    fixedLine ["  return (".toList],
    fixedLine ["    <Barebone brand=\x7bprops.brand\x7d".toList] ++
      (preheaderPieces preheader ++ [.fixed ['>']])] ++
  ((if children = [] then [] else [indentPieces 6 true (childrenPieces children)]) ++
  [fixedLine ["    </Barebone>".toList], fixedLine ["  );".toList], fixedLine ["\x7d".toList]])

/-- The lines of the source, each of them ended by a line break. -/
def sourceLines (input : ComposeEmailTemplateSourceInput) : List (List Piece) :=
  let composition := input.composition
  let vars := collectVariables composition
  let pascalName := kebabToPascal input.slug
  importLines (input.coreImportPrefix.getD MODULE_TEMPLATE_CORE_IMPORT_PREFIX).toList
      ((collectBlockTypes composition).filterMap blockTypeToComponentName).mergeSort ++
    (interfaceLines pascalName vars ++ (metaLines input.slug vars composition.subject ++
      (propsLines pascalName ++
        componentLines pascalName composition.preheader composition.children)))

def sourcePieces (input : ComposeEmailTemplateSourceInput) : List Piece :=
  (sourceLines input).flatMap fun line => line ++ [.fixed ['\n']]

theorem joinLines_terminated (lines : List (List Char)) :
    joinLines (lines ++ [[]]) = lines.flatMap fun line => line ++ ['\n'] := by
  induction lines with
  | nil => rfl
  | cons line rest ih =>
      unfold joinLines at ih ⊢
      rw [List.cons_append, List.flatMap_cons, ← ih, List.intercalate_cons_of_ne_nil (by simp)]

theorem joinLines_eq_nil_iff {lines : List (List Char)} (hline : ∀ line ∈ lines, line ≠ []) :
    joinLines lines = [] ↔ lines = [] := by
  cases lines with
  | nil => simp [joinLines]
  | cons line rest =>
      have hfirst := hline line List.mem_cons_self
      cases rest with
      | nil => simpa [joinLines] using hfirst
      | cons next rest => simp [joinLines, List.intercalate_cons_cons, hfirst]

/-- A line joined from lines may be ended line by line. -/
theorem terminated_joinLines {lines : List (List Char)} (hline : ∀ line ∈ lines, line ≠ []) :
    ((if joinLines lines = [] then [] else [joinLines lines]).flatMap fun line => line ++ ['\n']) =
      lines.flatMap fun line => line ++ ['\n'] := by
  split
  · next hnil =>
      rw [(joinLines_eq_nil_iff hline).mp hnil]
  · next hne =>
      have hlines : lines ≠ [] := fun h => hne ((joinLines_eq_nil_iff hline).mpr h)
      rw [← joinLines_terminated lines, List.flatMap_singleton]
      clear hne hline
      induction lines with
      | nil => exact absurd rfl hlines
      | cons line rest ih =>
          unfold joinLines at ih ⊢
          cases rest with
          | nil => simp [List.intercalate_cons_cons]
          | cons next rest =>
              rw [List.cons_append, List.cons_append, List.intercalate_cons_cons,
                List.intercalate_cons_cons, List.append_assoc, List.append_assoc]
              rw [ih (List.cons_ne_nil _ _)]
              simp

theorem renderBlockJsx_ne_nil (block : EmailBlockSpec) : renderBlockJsx block ≠ [] := by
  have hwrap : ∀ component attrs child, wrapJsx component attrs child ≠ [] := by
    intro component attrs child
    unfold wrapJsx
    split <;> simp
  unfold renderBlockJsx
  split
  · exact hwrap _ _ _
  · exact hwrap _ _ _
  · exact hwrap _ _ _
  · exact hwrap _ _ _
  · exact hwrap _ _ _
  · decide
  · exact List.append_ne_nil_of_left_ne_nil
      (List.append_ne_nil_of_left_ne_nil (by decide) _) _

theorem written_terminated (lines : List (List Piece)) :
    written (lines.flatMap fun line => line ++ [.fixed ['\n']]) =
      (lines.map written).flatMap fun line => line ++ ['\n'] := by
  induction lines with
  | nil => rfl
  | cons line rest ih =>
      rw [List.flatMap_cons, List.map_cons, List.flatMap_cons, written_append, written_append, ih]
      rfl

theorem named_quotedPieces (text : List Char) :
    ∀ piece ∈ quotedPieces text, piece.Named := by
  simp [quotedPieces, Piece.Named]

theorem named_joinedPieces
    {parts : List Segment}
    (hnames : ∀ name, .var name ∈ parts → IsName name) :
    ∀ piece ∈ joinedPieces parts, piece.Named := by
  have hpart : ∀ part ∈ parts, ∀ piece ∈ partPieces part, piece.Named := by
    intro part hmem
    cases part with
    | text chars => exact named_quotedPieces chars
    | var name =>
        have hname := hnames name hmem
        simp [partPieces, Piece.Named, hname]
  clear hnames
  induction parts with
  | nil => simp [joinedPieces]
  | cons part rest ih =>
      have hfirst := hpart part List.mem_cons_self
      cases rest with
      | nil => exact hfirst
      | cons next rest =>
          rw [joinedPieces, List.forall_mem_append, List.forall_mem_cons]
          · exact ⟨hfirst, trivial,
              ih fun other hother => hpart other (List.mem_cons_of_mem _ hother)⟩
          · simp

theorem named_hrefPieces (href : Option PropValue) :
    ∀ piece ∈ hrefPieces href, piece.Named := by
  unfold hrefPieces
  split
  · next href =>
      rw [List.forall_mem_cons, List.forall_mem_append, List.forall_mem_singleton]
      refine ⟨trivial, ?_, trivial⟩
      unfold expressionPieces
      split
      · exact named_quotedPieces _
      · exact named_joinedPieces fun name hmem => isName_of_mem_segments hmem
  · simp

theorem named_textPieces (value : Option PropValue) :
    ∀ piece ∈ textPieces value, piece.Named := by
  cases value with
  | none => simp [textPieces]
  | some value =>
      simp only [textPieces]
      split
      · intro piece hpiece
        obtain ⟨part, hpart, hmem⟩ := List.mem_flatMap.mp hpiece
        cases part with
        | text chars =>
            rw [childPieces, List.mem_singleton] at hmem
            rw [hmem]
            trivial
        | var name =>
            simp only [childPieces, List.mem_cons, List.not_mem_nil, or_false] at hmem
            rcases hmem with rfl | rfl | rfl
            · trivial
            · exact ⟨Or.inr rfl, isName_of_mem_segments hpart⟩
            · trivial
      · simp [Piece.Named]

theorem named_wrapPieces
    {component : List Char} {attrs child : List Piece}
    (hattrs : ∀ piece ∈ attrs, piece.Named)
    (hchild : ∀ piece ∈ child, piece.Named) :
    ∀ piece ∈ wrapPieces component attrs child, piece.Named := by
  unfold wrapPieces
  split
  · rw [List.forall_mem_cons, List.forall_mem_append, List.forall_mem_singleton]
    exact ⟨trivial, hattrs, trivial⟩
  · rw [List.forall_mem_cons, List.forall_mem_append, List.forall_mem_cons, List.forall_mem_append,
      List.forall_mem_singleton]
    exact ⟨trivial, hattrs, trivial, hchild, trivial⟩

theorem named_blockPieces (block : EmailBlockSpec) :
    ∀ piece ∈ blockPieces block, piece.Named := by
  have hbrand : ∀ piece ∈ [Piece.fixed brandAttr], piece.Named :=
    List.forall_mem_singleton.mpr trivial
  have hcta : ∀ piece ∈ Piece.fixed brandAttr :: hrefPieces (block.prop "href"), piece.Named :=
    List.forall_mem_cons.mpr ⟨trivial, named_hrefPieces _⟩
  have htext := named_textPieces (block.prop "text")
  unfold blockPieces
  split
  · exact named_wrapPieces hbrand htext
  · exact named_wrapPieces hbrand htext
  · exact named_wrapPieces hcta htext
  · exact named_wrapPieces hbrand htext
  · exact named_wrapPieces hbrand htext
  · exact List.forall_mem_singleton.mpr trivial
  · exact List.forall_mem_singleton.mpr trivial

theorem named_childrenPieces (children : List EmailBlockSpec) :
    ∀ piece ∈ childrenPieces children, piece.Named := by
  induction children with
  | nil => simp [childrenPieces]
  | cons block rest ih =>
      cases rest with
      | nil => exact named_blockPieces block
      | cons next rest =>
          rw [childrenPieces, List.forall_mem_append, List.forall_mem_cons]
          · exact ⟨named_blockPieces block, trivial, ih⟩
          · simp

theorem written_fixedLine (parts : List (List Char)) :
    written (fixedLine parts) = parts.flatten := by
  simp [fixedLine, Piece.written]

theorem map_written_importLines (corePrefix : List Char) (blockImports : List String) :
    (importLines corePrefix blockImports).map written =
      ["/**".toList,
          " * AUTO-GENERATED by `/hub/email-builder` — do not edit by hand.".toList,
          " * Hand-edits will be overwritten on the next save from the builder UI.".toList,
          " */".toList,
          "import * as React from \"react\";".toList,
          [],
          "import \x7b Barebone \x7d from \"".toList ++ corePrefix ++
            "/layouts/Barebone.js\";".toList] ++
        ((if blockImports = [] then []
          else
            ["import \x7b ".toList ++ ", ".toList.intercalate (blockImports.map String.toList) ++
              " \x7d from \"".toList ++ corePrefix ++ "/blocks/index.js\";".toList]) ++
        ["import type \x7b BrandConfig \x7d from \"".toList ++ corePrefix ++
          "/brand.js\";".toList,
          []]) := by
  unfold importLines
  split
  · simp only [List.map_append, List.map_cons, List.map_nil, written_fixedLine, written_nil,
      List.flatten_cons, List.flatten_nil, List.append_nil, List.append_assoc]
  · simp only [List.map_append, List.map_cons, List.map_nil, written_fixedLine, written_nil,
      List.flatten_cons, List.flatten_nil, List.append_nil, List.append_assoc]

theorem map_written_interfaceLines (pascalName : List Char) (vars : List String) :
    (interfaceLines pascalName vars).map written =
      ("export interface ".toList ++ pascalName ++ "Vars \x7b".toList) ::
        ((vars.map fun v => "  ".toList ++ v.toList ++ ": string;".toList) ++
          ["\x7d".toList, []]) := by
  have hmembers : (vars.map fun v => [.fixed "  ".toList, .member v.toList,
        .fixed ": string;".toList]).map written =
      vars.map fun v => "  ".toList ++ v.toList ++ ": string;".toList := by
    rw [List.map_map]
    refine List.map_congr_left fun v _ => ?_
    simp only [Function.comp, written_cons, written_nil, Piece.written, List.append_nil,
      List.append_assoc]
  unfold interfaceLines
  rw [List.map_cons, List.map_append, hmembers]
  simp only [List.map_cons, List.map_nil, written_fixedLine, written_nil, List.flatten_cons,
    List.flatten_nil, List.append_nil, List.append_assoc]

theorem written_preheaderPieces (preheader : Option String) :
    written (preheaderPieces preheader) =
      match preheader with
      | some preheader =>
          " preheader=\x7b".toList ++ renderInterpolatedTemplateLiteral preheader "props" ++
            ['\x7d']
      | none => [] := by
  cases preheader with
  | none => rfl
  | some preheader =>
      simp only [preheaderPieces, written_cons, written_append, written_literalPieces,
        Piece.written, written_nil, List.append_nil, List.append_assoc]

/-- The children are indented as one text. -/
theorem map_written_children (children : List EmailBlockSpec) :
    (if children = [] then [] else [indentPieces 6 true (childrenPieces children)]).map written =
      if joinLines (children.map renderBlockJsx) = [] then []
      else [indentLines (joinLines (children.map renderBlockJsx)) 6] := by
  have hnil : joinLines (children.map renderBlockJsx) = [] ↔ children = [] := by
    rw [joinLines_eq_nil_iff, List.map_eq_nil_iff]
    intro line hline
    obtain ⟨block, -, rfl⟩ := List.mem_map.mp hline
    exact renderBlockJsx_ne_nil block
  by_cases hchildren : children = []
  · rw [if_pos hchildren, if_pos (hnil.mpr hchildren), List.map_nil]
  · rw [if_neg hchildren, if_neg fun h => hchildren (hnil.mp h), List.map_cons, List.map_nil,
      written_indentPieces (named_childrenPieces children), written_childrenPieces,
      indentLines_eq_indentFrom]

/-- The pieces joined are the source. -/
theorem written_sourcePieces (input : ComposeEmailTemplateSourceInput) :
    written (sourcePieces input) = (composeEmailTemplateSource input).toList := by
  have hmember : ∀ line ∈ (collectVariables input.composition).map fun v =>
      "  ".toList ++ (v.toList ++ ": string;".toList), line ≠ [] := by
    intro line hline
    obtain ⟨v, -, rfl⟩ := List.mem_map.mp hline
    exact List.append_ne_nil_of_left_ne_nil (by decide) _
  have hvars := terminated_joinLines hmember
  unfold composeEmailTemplateSource
  rw [String.toList_ofList]
  change _ = joinLines (_ ++ ([_, _, _] ++ [[]]))
  rw [← List.append_assoc, joinLines_terminated, sourcePieces, written_terminated]
  simp only [sourceLines, List.map_append, map_written_importLines, map_written_interfaceLines,
    metaLines, propsLines, componentLines, map_written_children, List.map_cons, List.map_nil,
    written_append, written_cons, written_preheaderPieces, written_literalPieces, written_fixedLine,
    written_nil, Piece.written,
    List.flatten_cons, List.flatten_nil, List.flatMap_append, List.flatMap_cons, List.flatMap_nil,
    List.append_nil, List.nil_append, List.append_assoc]
  cases input.composition.preheader with
  | none => simp only [List.nil_append, hvars]
  | some preheader => simp only [List.append_assoc, hvars]

end EmailBuilder
end NestBase
