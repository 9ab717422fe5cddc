import NestBase.Lib.Json
import NestBase.Lib.Text
import Mathlib.Tactic

/-!
# The email builder

`composeEmailTemplateSource` writes a composition as the source of a React
component.  Texts of a composition may hold placeholders `{{name}}`, which
become references `vars.name` or `props.name`.  A text is written in one of
four ways:

* as a string literal or a template literal (subject and preheader);
* as string literals joined by `+` (the `href` of a button);
* as JSX text with references in braces (a block text with a placeholder);
* as it is (a block text without one).

`segments` cuts a text at its placeholders, as `matchAll` with `VAR_PATTERN`
does.
-/

namespace NestBase
namespace EmailBuilder

open Lib

/-! ## Compositions -/

def KNOWN_EMAIL_LAYOUTS : List String := ["Barebone"]

def MODULE_TEMPLATE_CORE_IMPORT_PREFIX : String := "../../../core/email"

def KNOWN_EMAIL_BLOCKS : List String :=
  ["greeting", "paragraph", "cta", "footer", "code", "divider"]

/-- The value of a prop; an undefined prop is an absent entry. -/
inductive PropValue where
  | str (s : String)
  /-- A number, by the text `String(value)` gives. -/
  | num (text : String)
  | bool (b : Bool)

structure EmailBlockSpec where
  type : String
  /-- `none` when the block has no props. -/
  props : Option (List (String × PropValue))

structure EmailComposition where
  layout : String
  subject : String
  preheader : Option String
  children : List EmailBlockSpec

/-- `block.props?.[name]` -/
def EmailBlockSpec.prop (block : EmailBlockSpec) (name : String) : Option PropValue :=
  block.props.bind fun props => props.lookup name

/-- `String(value)` -/
def PropValue.toText : PropValue → String
  | str s => s
  | num text => text
  | bool b => if b then "true" else "false"

/-! ## Validation -/

def isLowerOrDigit (c : Char) : Bool :=
  c.isLower || c.isDigit

/-- `SLUG_PATTERN` and the bound on the length. -/
def isValidEmailTemplateSlug (slug : String) : Bool :=
  decide (slug.toList.length ≤ 64) &&
    match slug.toList with
    | [] => false
    | [c] => c.isLower
    | c :: rest =>
        c.isLower && rest.dropLast.all (fun d => isLowerOrDigit d || d == '-') &&
          rest.getLast?.any isLowerOrDigit

structure ValidateCompositionOptions where
  knownBlocks : List String
  knownLayouts : List String

/-- The lists that are used when none are given. -/
def defaultOptions : ValidateCompositionOptions where
  knownBlocks := KNOWN_EMAIL_BLOCKS
  knownLayouts := KNOWN_EMAIL_LAYOUTS

/-- `value.trim() === ""` -/
def isBlank (value : String) : Bool :=
  value.toList.all Text.isWhiteSpace

/-- The loop over the children from index `i` on. -/
def validateChildren (options : ValidateCompositionOptions) (i : Nat) :
    List EmailBlockSpec → Except String Unit
  | [] => .ok ()
  | block :: rest =>
      if ¬ options.knownBlocks.contains block.type then
        .error ("unknown block type at children[" ++ toString i ++ "]: " ++ block.type)
      else if block.type = "cta" then
        match block.prop "href" with
        | some (.str href) =>
            if isBlank href then
              .error
                ("cta block at children[" ++ toString i ++ "] is missing required prop \"href\"")
            else validateChildren options (i + 1) rest
        | _ =>
            .error ("cta block at children[" ++ toString i ++ "] is missing required prop \"href\"")
      else validateChildren options (i + 1) rest

def validateEmailComposition
    (options : ValidateCompositionOptions)
    (composition : EmailComposition) : Except String Unit :=
  if ¬ options.knownLayouts.contains composition.layout then
    .error ("unknown layout: " ++ composition.layout)
  else if isBlank composition.subject then .error "subject must be a non-empty string"
  else validateChildren options 0 composition.children

/-! ## Placeholders -/

def isIdentStart (c : Char) : Bool :=
  c.isAlpha || c == '_'

def isIdentChar (c : Char) : Bool :=
  c.isAlphanum || c == '_'

/-- `VAR_PATTERN` at the head of a text: the name, and what follows the placeholder. -/
def matchPlaceholder : List Char → Option (List Char × List Char)
  | '\x7b' :: '\x7b' :: inner =>
      let named := inner.dropWhile Text.isWhiteSpace
      let name := named.takeWhile isIdentChar
      if name.head?.any isIdentStart then
        match (named.dropWhile isIdentChar).dropWhile Text.isWhiteSpace with
        | '\x7d' :: '\x7d' :: rest => some (name, rest)
        | _ => none
      else none
  | _ => none

/-- A piece of a text: what stands between placeholders, or the name of one. -/
inductive Segment where
  | text (chars : List Char)
  | var (name : List Char)
deriving DecidableEq

def consText (c : Char) : List Segment → List Segment
  | .text chars :: rest => .text (c :: chars) :: rest
  | segs => .text [c] :: segs

/-- The scan of the first `fuel` steps. -/
def scanSegments : Nat → List Char → List Segment
  | 0, _ => []
  | _, [] => []
  | fuel + 1, c :: rest =>
      match matchPlaceholder (c :: rest) with
      | some (name, behind) => .var name :: scanSegments fuel behind
      | none => consText c (scanSegments fuel rest)

/-- The text cut at its placeholders. -/
def segments (value : List Char) : List Segment :=
  scanSegments value.length value

def Segment.name? : Segment → Option (List Char)
  | text _ => none
  | var name => some name

/-- The names of the placeholders. -/
def placeholders (value : List Char) : List (List Char) :=
  (segments value).filterMap Segment.name?

/-- `VAR_PATTERN.test(value)` -/
def hasPlaceholder (value : List Char) : Bool :=
  !(placeholders value).isEmpty

/-- `value.replace(VAR_PATTERN, …)` in the first `fuel` steps. -/
def scanReplace (write : List Char → List Char) : Nat → List Char → List Char
  | 0, _ => []
  | _, [] => []
  | fuel + 1, c :: rest =>
      match matchPlaceholder (c :: rest) with
      | some (name, behind) => write name ++ scanReplace write fuel behind
      | none => c :: scanReplace write fuel rest

def replacePlaceholders (write : List Char → List Char) (value : List Char) : List Char :=
  scanReplace write value.length value

/-! ## Names and imports -/

def capitalise : List Char → List Char
  | [] => []
  | c :: rest => c.toUpper :: rest

def kebabToPascal (slug : String) : List Char :=
  (((slug.toList.splitOn '-').filter fun part => !part.isEmpty).map capitalise).flatten

def kebabToCamel (slug : String) : List Char :=
  match kebabToPascal slug with
  | [] => []
  | c :: rest => c.toLower :: rest

/-- The first of equal values is kept, and the rest sorted. -/
def sortedSet (values : List String) : List String :=
  values.eraseDups.mergeSort

def collectVariables (composition : EmailComposition) : List String :=
  let ofText := fun value : String => (placeholders value.toList).map String.ofList
  let ofBlock := fun block : EmailBlockSpec =>
    (block.props.getD []).flatMap fun prop =>
      match prop.2 with
      | .str value => ofText value
      | _ => []
  sortedSet
    (ofText composition.subject ++ ((composition.preheader.map ofText).getD []) ++
      composition.children.flatMap ofBlock)

def collectBlockTypes (composition : EmailComposition) : List String :=
  sortedSet (composition.children.map EmailBlockSpec.type)

def blockTypeToComponentName (blockType : String) : Option String :=
  match blockType with
  | "greeting" => some "Greeting"
  | "paragraph" => some "Paragraph"
  | "cta" => some "CTA"
  | "footer" => some "Footer"
  | "code" => some "Code"
  | "divider" => some "Divider"
  | _ => none

/-! ## Literals -/

def escapeBackslash (c : Char) : List Char :=
  if c = '\\' then ['\\', '\\'] else [c]

def escapeBacktick (c : Char) : List Char :=
  if c = '\x60' then ['\\', '\x60'] else [c]

/-- `replace(/\$\{/g, "\\${")` -/
def escapeDollarBrace : List Char → List Char
  | '$' :: '\x7b' :: rest => '\\' :: '$' :: '\x7b' :: escapeDollarBrace rest
  | c :: rest => c :: escapeDollarBrace rest
  | [] => []

/-- `${ref.name}` -/
def templateReference (ref : String) (name : List Char) : List Char :=
  '$' :: '\x7b' :: (ref.toList ++ '.' :: (name ++ ['\x7d']))

def renderInterpolatedTemplateLiteral (value : String) (ref : String) : List Char :=
  if hasPlaceholder value.toList then
    let escaped :=
      escapeDollarBrace ((value.toList.flatMap escapeBackslash).flatMap escapeBacktick)
    '\x60' :: (replacePlaceholders (templateReference ref) escaped ++ ['\x60'])
  else (Json.quote value).toList

/-- A part of the joined expression. -/
def expressionPart : Segment → List Char
  | .text chars => (Json.quote (String.ofList chars)).toList
  | .var name => "props.".toList ++ name

def renderInterpolatedJsxChildren (value : String) : List Char :=
  match segments value.toList with
  | [] => (Json.quote value).toList
  | parts => " + ".toList.intercalate (parts.map expressionPart)

/-! ## Blocks -/

def escapeJsxChar (c : Char) : List Char :=
  if c = '\x7b' then "&#123;".toList
  else if c = '\x7d' then "&#125;".toList
  else if c = '<' then "&lt;".toList
  else if c = '>' then "&gt;".toList
  else [c]

def escapeJsxText (value : List Char) : List Char :=
  value.flatMap escapeJsxChar

def childPart : Segment → List Char
  | .text chars => escapeJsxText chars
  | .var name => '\x7b' :: ("props.".toList ++ name ++ ['\x7d'])

def textChild : Option PropValue → List Char
  | none => []
  | some value =>
      let str := value.toText.toList
      if hasPlaceholder str then (segments str).flatMap childPart else str

def wrapJsx (component attrs child : List Char) : List Char :=
  if child = [] then '<' :: (component ++ ' ' :: (attrs ++ " />".toList))
  else '<' :: (component ++ ' ' :: (attrs ++ '>' :: (child ++ "</".toList ++ component ++ ['>'])))

def brandAttr : List Char := "brand=\x7bprops.brand\x7d".toList

def hrefAttr : Option PropValue → List Char
  | some (.str href) => " href=\x7b".toList ++ renderInterpolatedJsxChildren href ++ ['\x7d']
  | _ => []

def renderBlockJsx (block : EmailBlockSpec) : List Char :=
  match block.type with
  | "greeting" => wrapJsx "Greeting".toList brandAttr (textChild (block.prop "text"))
  | "paragraph" => wrapJsx "Paragraph".toList brandAttr (textChild (block.prop "text"))
  | "cta" =>
      wrapJsx "CTA".toList (brandAttr ++ hrefAttr (block.prop "href"))
        (textChild (block.prop "text"))
  | "footer" => wrapJsx "Footer".toList brandAttr (textChild (block.prop "text"))
  | "code" => wrapJsx "Code".toList brandAttr (textChild (block.prop "text"))
  | "divider" => "<Divider />".toList
  | other => "\x7b/* unknown block: ".toList ++ other.toList ++ " */\x7d".toList

def joinLines (lines : List (List Char)) : List Char :=
  ['\n'].intercalate lines

def indentLines (value : List Char) (spaces : Nat) : List Char :=
  joinLines
    ((value.splitOn '\n').map fun line =>
      if line = [] then line else List.replicate spaces ' ' ++ line)

/-! ## The source -/

structure ComposeEmailTemplateSourceInput where
  slug : String
  composition : EmailComposition
  coreImportPrefix : Option String := none

def composeEmailTemplateSource (input : ComposeEmailTemplateSourceInput) : String :=
  let composition := input.composition
  let corePrefix := (input.coreImportPrefix.getD MODULE_TEMPLATE_CORE_IMPORT_PREFIX).toList
  let camelName := kebabToCamel input.slug
  let pascalName := kebabToPascal input.slug
  let vars := collectVariables composition
  let blockImports :=
    ((collectBlockTypes composition).filterMap blockTypeToComponentName).mergeSort
  let varsInterface := joinLines (vars.map fun v => "  ".toList ++ v.toList ++ ": string;".toList)
  let blockImportLine :=
    if blockImports = [] then []
    else
      ["import \x7b ".toList ++ ", ".toList.intercalate (blockImports.map String.toList) ++
        " \x7d from \"".toList ++ corePrefix ++ "/blocks/index.js\";".toList]
  let subjectExpression := renderInterpolatedTemplateLiteral composition.subject "vars"
  let preheaderAttr :=
    match composition.preheader with
    | some preheader =>
        " preheader=\x7b".toList ++ renderInterpolatedTemplateLiteral preheader "props" ++ ['\x7d']
    | none => []
  let childrenJsx := joinLines (composition.children.map renderBlockJsx)
  String.ofList
    (joinLines
      (["/**".toList,
          " * AUTO-GENERATED by `/hub/email-builder` — do not edit by hand.".toList,
          " * Hand-edits will be overwritten on the next save from the builder UI.".toList,
          " */".toList,
          "import * as React from \"react\";".toList,
          [],
          "import \x7b Barebone \x7d from \"".toList ++ corePrefix ++
            "/layouts/Barebone.js\";".toList] ++
        blockImportLine ++
        ["import type \x7b BrandConfig \x7d from \"".toList ++ corePrefix ++
            "/brand.js\";".toList,
          [],
          "export interface ".toList ++ pascalName ++ "Vars \x7b".toList] ++
        (if varsInterface = [] then [] else [varsInterface]) ++
        ["\x7d".toList,
          [],
          "export const ".toList ++ camelName ++ "Meta = \x7b".toList,
          "  name: \"".toList ++ input.slug.toList ++ "\",".toList,
          (if vars = [] then "  subject: (_vars: ".toList else "  subject: (vars: ".toList) ++
            pascalName ++ "Vars): string => ".toList ++ subjectExpression ++ [','],
          "\x7d;".toList,
          [],
          "export interface ".toList ++ pascalName ++ "Props extends ".toList ++ pascalName ++
            "Vars \x7b".toList,
          "  brand?: BrandConfig;".toList,
          "\x7d".toList,
          [],
          "export default function ".toList ++ pascalName ++ "(props: ".toList ++ pascalName ++
            "Props): React.ReactElement \x7b".toList,
          "  return (".toList,
          "    <Barebone brand=\x7bprops.brand\x7d".toList ++ preheaderAttr ++ ['>']] ++
        (if childrenJsx = [] then [] else [indentLines childrenJsx 6]) ++
        ["    </Barebone>".toList, "  );".toList, "\x7d".toList, []]))

end EmailBuilder
end NestBase
