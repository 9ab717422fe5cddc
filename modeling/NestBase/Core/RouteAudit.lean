import Mathlib.Data.List.DropRight
import NestBase.Lib.MarkedText
import NestBase.Lib.Text

/-!
# The route audit

The planner reads a controller source by regular expressions and by hand-written scans:
it finds the controller classes, in each class body the HTTP decorators, and for each of
these the handler and the decorators above and below it.  A route is gated by `@Can`,
public by `@Public` or by the allowlist of its path, or else reported as ungated.

An index of the source is the number of characters before it.  The scans forwards work on
the text behind an index and return how far they went; the walk backwards works on the
text in front of an index, last character first.  A scan that goes on at a later index
carries the number of characters it has still to pass over.
-/

namespace NestBase
namespace Core
namespace RouteAudit

open Lib.MarkedText (isQuote isLineTerminator)
open Lib.Text (isWhiteSpace)

/-! ## Findings -/

def HTTP_METHOD_DECORATORS : List (List Char) :=
  ["Get".toList, "Post".toList, "Put".toList, "Patch".toList, "Delete".toList, "All".toList]

def DEFAULT_PUBLIC_PREFIXES : List (List Char) :=
  ["/health/".toList, "/auth/".toList, "/docs/".toList, "/hub/".toList, "/admin/".toList,
    "/errors/".toList, "/openapi".toList]

def DEFAULT_PUBLIC_EXACT : List (List Char) :=
  ["/".toList, "/errors".toList, "/openapi".toList]

inductive RouteClassification where
  | gated
  | publicByDesign
  | ungatedBug
deriving DecidableEq

structure RouteCanDecorator where
  action : List Char
  subject : List Char
deriving DecidableEq

structure RoutePublicDecorator where
  reason : List Char
deriving DecidableEq

structure RouteDecorators where
  can : Option RouteCanDecorator
  public_ : Option RoutePublicDecorator
  /-- Allowlist prefix that matched, if any. -/
  allowlistMatch : Option (List Char)
deriving DecidableEq

structure RouteAuditFinding where
  file : List Char
  /-- 1-based source line number of the HTTP-method decorator. -/
  line : Nat
  controllerClass : List Char
  handler : List Char
  /-- HTTP verb (uppercase). -/
  method : List Char
  path : List Char
  classification : RouteClassification
  decorators : RouteDecorators
deriving DecidableEq

structure ParseControllerSourceInput where
  file : List Char
  source : List Char
  publicPrefixes : Option (List (List Char)) := none
  publicExact : Option (List (List Char)) := none

/-! ## Characters -/

/-- `\w` -/
def isWord (c : Char) : Bool :=
  c.isAlphanum || c == '_'

/-- `[A-Za-z0-9_$]` -/
def isNameChar (c : Char) : Bool :=
  isWord c || c == '$'

def isGap (c : Char) : Bool :=
  c == ' ' || c == '\t'

def isBlank (c : Char) : Bool :=
  isGap c || c == '\n' || c == '\r'

/-- `[^'"\x60]` -/
def isUnquoted (c : Char) : Bool :=
  !isQuote c

/-- `[^)]` -/
def isArgsChar (c : Char) : Bool :=
  c != ')'

/-- `text.indexOf("*/")` -/
def indexOfClose : List Char → Option Nat
  | '*' :: '/' :: _ => some 0
  | _ :: rest => (indexOfClose rest).map (· + 1)
  | [] => none

/-! ## Arguments -/

/-- The match of `/^['"\x60]([^'"\x60]*)['"\x60]/`, without its quotes. -/
def quotedAtStart : List Char → Option (List Char)
  | [] => none
  | c :: rest =>
      if isQuote c && rest.dropWhile isUnquoted != [] then some (rest.takeWhile isUnquoted)
      else none

def extractStringArg (args : List Char) : List Char :=
  (quotedAtStart ((args.dropWhile isWhiteSpace).rdropWhile isWhiteSpace)).getD []

/-- The match of `((?:\\.|(?!\1).)*)\1` behind an opening quote; a backslash is read
together with the next character first, and alone when that leads nowhere. -/
def quotedBody (quote : Char) : List Char → Option (List Char)
  | [] => none
  | '\\' :: c :: rest =>
      ((if isLineTerminator c then none else quotedBody quote rest).map ('\\' :: c :: ·)).or
        ((quotedBody quote (c :: rest)).map ('\\' :: ·))
  | c :: rest =>
      if c = quote then some []
      else if isLineTerminator c then none
      else (quotedBody quote rest).map (c :: ·)

def parseDecoratorArgsFrom : Nat → List Char → List (List Char)
  | _, [] => []
  | skip + 1, _ :: rest => parseDecoratorArgsFrom skip rest
  | 0, c :: rest =>
      if isQuote c then
        match quotedBody c rest with
        | some body => body :: parseDecoratorArgsFrom (body.length + 1) rest
        | none => parseDecoratorArgsFrom 0 rest
      else parseDecoratorArgsFrom 0 rest

def parseDecoratorArgs (args : List Char) : List (List Char) :=
  parseDecoratorArgsFrom 0 args

/-! ## Scans forwards -/

/-- The index behind the literal that opens here. -/
def skipString : List Char → Nat
  | [] => 0
  | quote :: rest => 1 + behind quote rest
where
  behind (quote : Char) : List Char → Nat
    | '\\' :: _ :: rest => 2 + behind quote rest
    | c :: rest => if c = quote then 1 else 1 + behind quote rest
    | [] => 0

/-- `eol + 1`, or the end of the text. -/
def skipLine (text : List Char) : Nat :=
  match text.findIdx? (· == '\n') with
  | some eol => eol + 1
  | none => text.length

/-- `end + 2`, or the end of the text. -/
def skipBlock (text : List Char) : Nat :=
  match indexOfClose text with
  | some close => close + 2
  | none => text.length

/-- The loop of `matchClosingParen` and `matchClosingBrace`. -/
def matchClosing (opener closer : Char) : Nat → Int → List Char → Option Nat
  | _, _, [] => none
  | skip + 1, depth, _ :: rest => (matchClosing opener closer skip depth rest).map (· + 1)
  | 0, depth, c :: rest =>
      if c = '/' ∧ rest.head? = some '/' then
        (matchClosing opener closer (skipLine (c :: rest) - 1) depth rest).map (· + 1)
      else if c = '/' ∧ rest.head? = some '*' then
        (matchClosing opener closer (skipBlock (c :: rest) - 1) depth rest).map (· + 1)
      else if isQuote c then
        (matchClosing opener closer (skipString (c :: rest) - 1) depth rest).map (· + 1)
      else if c = opener then (matchClosing opener closer 0 (depth + 1) rest).map (· + 1)
      else if c = closer then
        if depth - 1 = 0 then some 0
        else (matchClosing opener closer 0 (depth - 1) rest).map (· + 1)
      else (matchClosing opener closer 0 depth rest).map (· + 1)

def matchClosingParen (text : List Char) : Option Nat :=
  matchClosing '(' ')' 0 0 text

def matchClosingBrace (text : List Char) : Option Nat :=
  matchClosing '\x7b' '\x7d' 0 0 text

/-- `[A-Za-z_$][A-Za-z0-9_$]*` at the start of the text. -/
def readIdentifier : List Char → Option (List Char)
  | [] => none
  | c :: rest =>
      if c.isAlpha || c == '_' || c == '$' then some (c :: rest.takeWhile isNameChar) else none

structure Decorator where
  name : List Char
  args : List Char
deriving DecidableEq

structure ForwardWalk where
  handlerName : Option (List Char)
  decorators : List Decorator
deriving DecidableEq

def ForwardWalk.push (walk : ForwardWalk) (decorator : Decorator) : ForwardWalk :=
  { walk with decorators := decorator :: walk.decorators }

def MODIFIERS : List (List Char) :=
  ["async".toList, "public".toList, "private".toList, "protected".toList]

/-- The loop of `walkForwardCollectDecorators`. -/
def walkForward : Nat → List Char → ForwardWalk
  | _, [] => { handlerName := none, decorators := [] }
  | skip + 1, _ :: rest => walkForward skip rest
  | 0, c :: rest =>
      if isBlank c then walkForward 0 rest
      else if c = '@' then
        let name := rest.takeWhile isNameChar
        let gap := (rest.dropWhile isNameChar).takeWhile isGap
        let behind := (rest.dropWhile isNameChar).dropWhile isGap
        if behind.head? = some '(' then
          match matchClosingParen behind with
          | none => { handlerName := none, decorators := [] }
          | some close =>
              (walkForward (name.length + gap.length + close + 1) rest).push
                { name := name, args := (behind.take close).drop 1 }
        else (walkForward (name.length + gap.length) rest).push { name := name, args := [] }
      else if c = '/' ∧ rest.head? = some '/' then
        match (c :: rest).findIdx? (· == '\n') with
        | none => { handlerName := none, decorators := [] }
        | some eol => walkForward eol rest
      else if c = '/' ∧ rest.head? = some '*' then
        match indexOfClose (c :: rest) with
        | none => { handlerName := none, decorators := [] }
        | some close => walkForward (close + 1) rest
      else
        match readIdentifier (c :: rest) with
        | none => { handlerName := none, decorators := [] }
        | some word =>
            if word ∈ MODIFIERS then walkForward (word.length - 1) rest
            else { handlerName := some word, decorators := [] }

def walkForwardCollectDecorators (text : List Char) : ForwardWalk :=
  walkForward 0 text

/-! ## The walk backwards -/

/-- The index of the matching parenthesis, counted backwards. -/
def matchOpening : Int → List Char → Option Nat
  | _, [] => none
  | depth, c :: rest =>
      if c = ')' then (matchOpening (depth + 1) rest).map (· + 1)
      else if c = '(' then
        if depth - 1 = 0 then some 0 else (matchOpening (depth - 1) rest).map (· + 1)
      else (matchOpening depth rest).map (· + 1)

def matchOpeningParen (before : List Char) : Option Nat :=
  matchOpening 0 before

/-- The decorator that ends in front of the cursor, and how far its `@` is away. -/
def decoratorAbove (before : List Char) : Option (Decorator × Nat) :=
  let gap := before.takeWhile isBlank
  let closed := before.dropWhile isBlank
  if closed.head? = some ')' then
    (matchOpeningParen closed).bind fun openParen =>
      let name := (closed.drop (openParen + 1)).takeWhile isNameChar
      if ((closed.drop (openParen + 1)).dropWhile isNameChar).head? = some '@' then
        some ({ name := name.reverse, args := ((closed.take openParen).drop 1).reverse },
          gap.length + openParen + 1 + name.length + 1)
      else none
  else none

def collectStacked : Nat → List Char → List Decorator
  | _, [] => []
  | skip + 1, _ :: rest => collectStacked skip rest
  | 0, c :: rest =>
      match decoratorAbove (c :: rest) with
      | none => []
      | some (decorator, length) => collectStacked (length - 1) rest ++ [decorator]

def collectStackedDecorators (before : List Char) : List Decorator :=
  collectStacked 0 before

/-! ## Paths -/

def trimSlashes (path : List Char) : List Char :=
  (path.dropWhile (· == '/')).rdropWhile (· == '/')

def joinControllerPath (basePath handlerPath : List Char) : List Char :=
  let base := trimSlashes basePath
  let handler := trimSlashes handlerPath
  if base = [] ∧ handler = [] then ['/']
  else if base = [] then '/' :: handler
  else if handler = [] then '/' :: base
  else '/' :: base ++ '/' :: handler

def matchAllowlist (path : List Char) (prefixes exact : List (List Char)) : Option (List Char) :=
  if path ∈ exact then some path
  else
    prefixes.find? fun allowed =>
      allowed.isPrefixOf path || (['/'].isSuffixOf allowed && path == allowed.dropLast)

def lineNumberFromIndex (source : List Char) (index : Nat) : Nat :=
  1 + (source.take index).count '\n'

/-! ## Controllers -/

/-- `@Controller\s*\(([^)]*)\)`: the arguments, and the length of the match. -/
def controllerHead (text : List Char) : Option (List Char × Nat) :=
  let word := "@Controller".toList
  let space := (text.drop word.length).takeWhile isWhiteSpace
  let behind := (text.drop word.length).dropWhile isWhiteSpace
  let args := (behind.drop 1).takeWhile isArgsChar
  if word.isPrefixOf text ∧ behind.head? = some '(' ∧
      (behind.drop 1).dropWhile isArgsChar ≠ [] then
    some (args, word.length + space.length + 1 + args.length + 1)
  else none

/-- `class\s+(\w+)`: the name, and the length of the match. -/
def classToken (text : List Char) : Option (List Char × Nat) :=
  let word := "class".toList
  let space := (text.drop word.length).takeWhile isWhiteSpace
  let name := ((text.drop word.length).dropWhile isWhiteSpace).takeWhile isWord
  if word.isPrefixOf text ∧ space ≠ [] ∧ name ≠ [] then
    some (name, word.length + space.length + name.length)
  else none

/-- `[\s\S]*?(?:export\s+)?(?:abstract\s+)?class\s+(\w+)` ends with the first class token. -/
def findClass : List Char → Option (List Char × Nat)
  | [] => none
  | c :: rest =>
      match classToken (c :: rest) with
      | some (name, length) => some (name, length)
      | none => (findClass rest).map fun found => (found.1, found.2 + 1)

structure ControllerMatch where
  argsRaw : List Char
  className : List Char
  length : Nat
deriving DecidableEq

/-- `controllerPattern` at the start of the text. -/
def controllerPattern (text : List Char) : Option ControllerMatch :=
  (controllerHead text).bind fun head =>
    (findClass (text.drop head.2)).map fun found =>
      { argsRaw := head.1, className := found.1, length := head.2 + found.2 }

structure Controller where
  name : List Char
  basePath : List Char
  classStart : Nat
  classEnd : Nat
deriving DecidableEq

/-- Where the class body begins and ends behind the match. -/
def classBody (behind : List Char) : Option (Nat × Nat) :=
  (behind.findIdx? (· == '\x7b')).bind fun braceOpen =>
    (matchClosingBrace (behind.drop braceOpen)).map fun braceClose =>
      (braceOpen, braceOpen + braceClose)

def controllersFrom : Nat → Nat → List Char → List Controller
  | _, _, [] => []
  | index, skip + 1, _ :: rest => controllersFrom (index + 1) skip rest
  | index, 0, c :: rest =>
      match controllerPattern (c :: rest) with
      | none => controllersFrom (index + 1) 0 rest
      | some found =>
          let later := controllersFrom (index + 1) (found.length - 1) rest
          match classBody ((c :: rest).drop found.length) with
          | none => later
          | some (braceOpen, braceClose) =>
              { name := found.className
                basePath := extractStringArg found.argsRaw
                classStart := index + found.length + braceOpen
                classEnd := index + found.length + braceClose } :: later

def controllers (source : List Char) : List Controller :=
  controllersFrom 0 0 source

/-! ## Routes -/

/-- `@(Get|Post|Put|Patch|Delete|All)\b` at the start of the text. -/
def httpDecorator (text : List Char) : Option (List Char) :=
  HTTP_METHOD_DECORATORS.find? fun name =>
    ('@' :: name).isPrefixOf text && !((text.drop (1 + name.length)).head?.any isWord)

/-- What is read from an HTTP decorator on. -/
structure RouteAhead where
  decName : List Char
  argsRaw : List Char
  endOfDecorator : Nat
  handlerName : List Char
  decorators : List Decorator
deriving DecidableEq

/-- The argument list behind the token and the end of the decorator; a list that is never
closed is none. -/
def decoratorEnd (behind : List Char) : Option (List Char × Nat) :=
  let gap := behind.takeWhile isGap
  let list := behind.dropWhile isGap
  if list.head? = some '(' then
    (matchClosingParen list).map fun close => ((list.take close).drop 1, gap.length + close + 1)
  else some ([], 0)

/-- A decorator without a handler is passed over. -/
def routeAhead (text : List Char) : Option RouteAhead :=
  (httpDecorator text).bind fun decName =>
    (decoratorEnd (text.drop (1 + decName.length))).bind fun (argsRaw, length) =>
      let endOfDecorator := 1 + decName.length + length
      let forwardWalk := walkForwardCollectDecorators (text.drop endOfDecorator)
      forwardWalk.handlerName.map fun handlerName =>
        { decName := decName
          argsRaw := argsRaw
          endOfDecorator := endOfDecorator
          handlerName := handlerName
          decorators := forwardWalk.decorators }

structure RouteMeta where
  canMeta : Option RouteCanDecorator
  publicMeta : Option RoutePublicDecorator
deriving DecidableEq

/-- One turn of the loop over the decorators of a route. -/
def readDecorator (meta_ : RouteMeta) (dec : Decorator) : RouteMeta :=
  if dec.name = "Can".toList then
    match parseDecoratorArgs dec.args with
    | action :: subject :: _ =>
        if action ≠ [] ∧ subject ≠ [] then
          { meta_ with canMeta := some { action := action, subject := subject } }
        else meta_
    | _ => meta_
  else if dec.name = "Public".toList then
    match parseDecoratorArgs dec.args with
    | reason :: _ =>
        if reason ≠ [] ∧ (reason.dropWhile isWhiteSpace).rdropWhile isWhiteSpace ≠ [] then
          { meta_ with publicMeta := some { reason := reason } }
        else meta_
    | [] => meta_
  else meta_

def readDecorators (allDecorators : List Decorator) : RouteMeta :=
  allDecorators.foldl readDecorator { canMeta := none, publicMeta := none }

def classify (meta_ : RouteMeta) (allowlistMatch : Option (List Char)) : RouteClassification :=
  if meta_.canMeta.isSome then .gated
  else if meta_.publicMeta.isSome then .publicByDesign
  else if allowlistMatch.isSome then .publicByDesign
  else .ungatedBug

/-- The finding of a route; an empty prefix counts as no match. -/
def finding (input : ParseControllerSourceInput) (ctrl : Controller) (line : Nat)
    (route : RouteAhead) (stackedDecorators : List Decorator) : RouteAuditFinding :=
  let meta_ := readDecorators (stackedDecorators ++ route.decorators)
  let path := joinControllerPath ctrl.basePath (extractStringArg route.argsRaw)
  let allowlistMatch :=
    (matchAllowlist path (input.publicPrefixes.getD DEFAULT_PUBLIC_PREFIXES)
      (input.publicExact.getD DEFAULT_PUBLIC_EXACT)).filter (· != [])
  { file := input.file
    line := line
    controllerClass := ctrl.name
    handler := route.handlerName
    method := route.decName.map Char.toUpper
    path := path
    classification := classify meta_ allowlistMatch
    decorators :=
      { can := meta_.canMeta, public_ := meta_.publicMeta, allowlistMatch := allowlistMatch } }

/-- A route of a class body: the index of its decorator, and what is read around it. -/
structure Route where
  index : Nat
  ahead : RouteAhead
  stacked : List Decorator
deriving DecidableEq

/-- The loop over a class body; the text in front has its last character first. -/
def routesFrom : Nat → List Char → List Char → List Route
  | _, _, [] => []
  | skip + 1, before, c :: rest => routesFrom skip (c :: before) rest
  | 0, before, c :: rest =>
      match routeAhead (c :: rest) with
      | none => routesFrom 0 (c :: before) rest
      | some route =>
          { index := before.length
            ahead := route
            stacked := collectStackedDecorators before } ::
            routesFrom (route.endOfDecorator - 1) (c :: before) rest

def classText (source : List Char) (ctrl : Controller) : List Char :=
  (source.take ctrl.classEnd).drop ctrl.classStart

/-- The finding of a route with the index of its HTTP decorator in the source. -/
def locatedFinding (input : ParseControllerSourceInput) (ctrl : Controller) (route : Route) :
    Nat × RouteAuditFinding :=
  let decAbsoluteIndex := ctrl.classStart + route.index
  (decAbsoluteIndex,
    finding input ctrl (lineNumberFromIndex input.source decAbsoluteIndex) route.ahead route.stacked)

def controllerFindings (input : ParseControllerSourceInput) (ctrl : Controller) :
    List (Nat × RouteAuditFinding) :=
  (routesFrom 0 [] (classText input.source ctrl)).map (locatedFinding input ctrl)

def locatedFindings (input : ParseControllerSourceInput) : List (Nat × RouteAuditFinding) :=
  (controllers input.source).flatMap (controllerFindings input)

def parseControllerSource (input : ParseControllerSourceInput) : List RouteAuditFinding :=
  (locatedFindings input).map Prod.snd

end RouteAudit
end Core
end NestBase
