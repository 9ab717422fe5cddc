import Mathlib.Data.List.Basic
import Mathlib.Tactic

/-!
# Lexical modes of TypeScript with JSX

A scanner reads a source character by character and keeps track of what the
next character belongs to: code, a comment, a string literal, the text of a
template literal, a JSX tag or JSX text.  A stack remembers where to go on
when a brace, a substitution or an element is closed.

`<` opens an element where an operand is expected.  The braces and `>` do not
stand in JSX text, and a line break not in a string literal: the scanner then
stops in `invalid`.  Regular expression literals are not recognised.

A literal keeps a text when every prefix of it is read as part of that
literal (`Keeps`).
-/

namespace NestBase
namespace Lib
namespace Tsx

/-- What the next character belongs to. -/
inductive Mode where
  /-- Code; `operand` when an operand has just ended. -/
  | code (operand : Bool)
  /-- A slash has been read in code. -/
  | slash (operand : Bool)
  | lineComment (operand : Bool)
  | blockComment (operand : Bool)
  /-- A star has been read in a block comment. -/
  | blockStar (operand : Bool)
  | string (quote : Char)
  | stringEscape (quote : Char)
  | template
  | templateEscape
  /-- A dollar sign has been read in a template literal. -/
  | templateDollar
  | tag
  /-- A slash has been read in an opening tag. -/
  | tagSlash
  | tagString (quote : Char)
  | text
  /-- `<` has been read in JSX text. -/
  | textLess
  | closingTag
  | invalid
deriving DecidableEq

/-- The mode, and the modes to go back to. -/
structure State where
  mode : Mode
  stack : List Mode
deriving DecidableEq

def start : State where
  mode := .code false
  stack := []

/-- Back to where the brace, substitution or element was opened. -/
def close (stack : List Mode) : State :=
  match stack with
  | [] => { mode := .invalid, stack := [] }
  | mode :: rest => { mode := mode, stack := rest }

def isWordChar (c : Char) : Bool :=
  c.isAlphanum || c == '_' || c == '$'

def isQuote (c : Char) : Bool :=
  c == '"' || c == '\''

def isLineBreak (c : Char) : Bool :=
  c == '\n' || c == '\r'

def stepCode (operand : Bool) (stack : List Mode) (c : Char) : State :=
  if isQuote c then { mode := .string c, stack := stack }
  else if c = '\x60' then { mode := .template, stack := stack }
  else if c = '/' then { mode := .slash operand, stack := stack }
  else if c = '\x7b' then { mode := .code false, stack := .code false :: stack }
  else if c = '\x7d' then close stack
  else if c = '<' ∧ operand = false then { mode := .tag, stack := .code true :: stack }
  else if isWordChar c || c == ')' || c == ']' then { mode := .code true, stack := stack }
  else if c = ' ' ∨ c = '\t' ∨ isLineBreak c then { mode := .code operand, stack := stack }
  else { mode := .code false, stack := stack }

def stepTag (stack : List Mode) (c : Char) : State :=
  if isQuote c then { mode := .tagString c, stack := stack }
  else if c = '\x7b' then { mode := .code false, stack := .tag :: stack }
  else if c = '>' then { mode := .text, stack := stack }
  else if c = '/' then { mode := .tagSlash, stack := stack }
  else { mode := .tag, stack := stack }

def stepText (stack : List Mode) (c : Char) : State :=
  if c = '\x7b' then { mode := .code false, stack := .text :: stack }
  else if c = '<' then { mode := .textLess, stack := stack }
  else if c = '\x7d' ∨ c = '>' then { mode := .invalid, stack := stack }
  else { mode := .text, stack := stack }

def stepTemplate (stack : List Mode) (c : Char) : State :=
  if c = '\\' then { mode := .templateEscape, stack := stack }
  else if c = '\x60' then { mode := .code true, stack := stack }
  else if c = '$' then { mode := .templateDollar, stack := stack }
  else { mode := .template, stack := stack }

/-- One character. -/
def step (s : State) (c : Char) : State :=
  match s.mode with
  | .code operand => stepCode operand s.stack c
  | .slash operand =>
      if c = '/' then { mode := .lineComment operand, stack := s.stack }
      else if c = '*' then { mode := .blockComment operand, stack := s.stack }
      else stepCode false s.stack c
  | .lineComment operand =>
      if isLineBreak c then { mode := .code operand, stack := s.stack } else s
  | .blockComment operand =>
      if c = '*' then { mode := .blockStar operand, stack := s.stack } else s
  | .blockStar operand =>
      if c = '/' then { mode := .code operand, stack := s.stack }
      else if c = '*' then s
      else { mode := .blockComment operand, stack := s.stack }
  | .string quote =>
      if c = '\\' then { mode := .stringEscape quote, stack := s.stack }
      else if c = quote then { mode := .code true, stack := s.stack }
      else if isLineBreak c then { mode := .invalid, stack := s.stack }
      else s
  | .stringEscape quote => { mode := .string quote, stack := s.stack }
  | .template => stepTemplate s.stack c
  | .templateEscape => { mode := .template, stack := s.stack }
  | .templateDollar =>
      if c = '\x7b' then { mode := .code false, stack := .template :: s.stack }
      else stepTemplate s.stack c
  | .tag => stepTag s.stack c
  | .tagSlash => if c = '>' then close s.stack else stepTag s.stack c
  | .tagString quote => if c = quote then { mode := .tag, stack := s.stack } else s
  | .text => stepText s.stack c
  | .textLess =>
      if c = '/' then { mode := .closingTag, stack := s.stack }
      else stepTag (.text :: s.stack) c
  | .closingTag => if c = '>' then close s.stack else s
  | .invalid => s

def run (s : State) (chars : List Char) : State :=
  chars.foldl step s

@[simp] theorem run_nil (s : State) : run s [] = s := rfl

@[simp] theorem run_cons (s : State) (c : Char) (rest : List Char) :
    run s (c :: rest) = run (step s c) rest := rfl

@[simp] theorem run_append (s : State) (chars rest : List Char) :
    run s (chars ++ rest) = run (run s chars) rest :=
  List.foldl_append

/-! ## Literals -/

/-- The literals whose content is not code. -/
inductive Literal where
  | string (quote : Char)
  | template
  | text
deriving DecidableEq

/-- The literal whose content is being read. -/
def Mode.literal? : Mode → Option Literal
  | string quote => some (.string quote)
  | stringEscape quote => some (.string quote)
  | template => some .template
  | templateEscape => some .template
  | templateDollar => some .template
  | text => some .text
  | _ => none

/-- The scanner is inside the literal, at this depth. -/
def Inside (literal : Literal) (stack : List Mode) (s : State) : Prop :=
  s.mode.literal? = some literal ∧ s.stack = stack

/-- Every prefix of the text is read inside the one literal. -/
def Keeps (literal : Literal) (stack : List Mode) (s : State) (chars : List Char) : Prop :=
  ∀ front back, chars = front ++ back → Inside literal stack (run s front)

variable {literal : Literal}
variable {stack : List Mode}
variable {s : State}

theorem Keeps.inside {chars : List Char} (h : Keeps literal stack s chars) :
    Inside literal stack s :=
  h [] chars rfl

theorem keeps_nil (h : Inside literal stack s) : Keeps literal stack s [] := by
  intro front back hsplit
  obtain ⟨rfl, rfl⟩ := List.append_eq_nil_iff.mp hsplit.symm
  exact h

theorem keeps_cons_iff {c : Char} {chars : List Char} :
    Keeps literal stack s (c :: chars) ↔
      Inside literal stack s ∧ Keeps literal stack (step s c) chars := by
  constructor
  · intro h
    refine ⟨h.inside, fun front back hsplit => ?_⟩
    exact h (c :: front) back (by rw [hsplit, List.cons_append])
  · rintro ⟨hinside, hrest⟩ front back hsplit
    cases front with
    | nil => exact hinside
    | cons d front =>
        rw [List.cons_append, List.cons.injEq] at hsplit
        rw [← hsplit.1]
        exact hrest front back hsplit.2

theorem keeps_append_iff {chars rest : List Char} :
    Keeps literal stack s (chars ++ rest) ↔
      Keeps literal stack s chars ∧ Keeps literal stack (Tsx.run s chars) rest := by
  induction chars generalizing s with
  | nil =>
      constructor
      · intro h
        exact ⟨keeps_nil h.inside, h⟩
      · intro h
        exact h.2
  | cons c chars ih =>
      rw [List.cons_append, keeps_cons_iff, keeps_cons_iff, ih, run_cons, and_assoc]

/-! ## String literals -/

/-- A character that stands for itself in a string literal. -/
def isStringChar (quote c : Char) : Bool :=
  !(c == quote || c == '\\' || isLineBreak c)

theorem step_string_of_isStringChar {quote c : Char} (h : isStringChar quote c = true) :
    step { mode := .string quote, stack := stack } c =
      { mode := .string quote, stack := stack } := by
  simp only [isStringChar, Bool.not_eq_true', Bool.or_eq_false_iff, beq_eq_false_iff_ne] at h
  obtain ⟨⟨hquote, hback⟩, hbreak⟩ := h
  simp [step, hquote, hback, hbreak]

theorem keeps_string
    {quote : Char} {chars : List Char}
    (h : ∀ c ∈ chars, isStringChar quote c = true) :
    Keeps (.string quote) stack { mode := .string quote, stack := stack } chars ∧
      run { mode := .string quote, stack := stack } chars =
        { mode := .string quote, stack := stack } := by
  induction chars with
  | nil => exact ⟨keeps_nil ⟨rfl, rfl⟩, rfl⟩
  | cons c chars ih =>
      obtain ⟨hkeeps, hrun⟩ := ih fun d hd => h d (List.mem_cons_of_mem _ hd)
      rw [keeps_cons_iff, run_cons, step_string_of_isStringChar (h c List.mem_cons_self)]
      exact ⟨⟨⟨rfl, rfl⟩, hkeeps⟩, hrun⟩

/-- An escape sequence whose letters after the first stand for themselves. -/
theorem keeps_escapeSequence
    {quote letter : Char} {rest : List Char}
    (h : ∀ c ∈ rest, isStringChar quote c = true) :
    Keeps (.string quote) stack { mode := .string quote, stack := stack }
        ('\\' :: letter :: rest) ∧
      run { mode := .string quote, stack := stack } ('\\' :: letter :: rest) =
        { mode := .string quote, stack := stack } := by
  obtain ⟨hkeeps, hrun⟩ := @keeps_string stack quote rest h
  have hback : step { mode := .string quote, stack := stack } '\\' =
      { mode := .stringEscape quote, stack := stack } := by
    simp [step]
  rw [keeps_cons_iff, keeps_cons_iff, run_cons, run_cons, hback]
  exact ⟨⟨⟨rfl, rfl⟩, ⟨rfl, rfl⟩, hkeeps⟩, hrun⟩

/-! ## JSX text -/

/-- A character of JSX text. -/
def isTextChar (c : Char) : Bool :=
  !(c == '\x7b' || c == '\x7d' || c == '<' || c == '>')

theorem step_text_of_isTextChar {c : Char} (h : isTextChar c = true) :
    step { mode := .text, stack := stack } c = { mode := .text, stack := stack } := by
  simp only [isTextChar, Bool.not_eq_true', Bool.or_eq_false_iff, beq_eq_false_iff_ne] at h
  obtain ⟨⟨⟨hopen, hclose⟩, hless⟩, hgreater⟩ := h
  simp [step, stepText, hopen, hclose, hless, hgreater]

theorem run_text {chars : List Char} (h : ∀ c ∈ chars, isTextChar c = true) :
    run { mode := .text, stack := stack } chars = { mode := .text, stack := stack } := by
  induction chars with
  | nil => rfl
  | cons c chars ih =>
      rw [run_cons, step_text_of_isTextChar (h c List.mem_cons_self)]
      exact ih fun d hd => h d (List.mem_cons_of_mem _ hd)

/-- JSX text is exactly what has no brace and no angle bracket. -/
theorem keeps_text_iff {chars : List Char} :
    Keeps .text stack { mode := .text, stack := stack } chars ↔
      ∀ c ∈ chars, isTextChar c = true := by
  induction chars with
  | nil =>
      constructor
      · intro _ c hc
        cases hc
      · intro _
        exact keeps_nil ⟨rfl, rfl⟩
  | cons c chars ih =>
      rw [keeps_cons_iff]
      constructor
      · rintro ⟨-, hrest⟩
        have hchar : isTextChar c = true := by
          by_contra hspecial
          have hinside := hrest.inside
          simp only [isTextChar, Bool.not_eq_true, Bool.not_eq_false', Bool.or_eq_true,
            beq_iff_eq] at hspecial
          have hnone : (none : Option Literal) = some .text := by
            rcases hspecial with ((rfl | rfl) | rfl) | rfl
            · exact hinside.1
            · exact hinside.1
            · exact hinside.1
            · exact hinside.1
          cases hnone
        rw [step_text_of_isTextChar hchar, ih] at hrest
        intro d hd
        rcases List.mem_cons.mp hd with rfl | hmem
        · exact hchar
        · exact hrest d hmem
      · intro hall
        refine ⟨⟨rfl, rfl⟩, ?_⟩
        rw [step_text_of_isTextChar (hall c List.mem_cons_self), ih]
        exact fun d hd => hall d (List.mem_cons_of_mem _ hd)

/-! ## Code -/

/-- The scanner reads code at this depth. -/
def InCode (stack : List Mode) (s : State) : Prop :=
  ∃ operand, s = { mode := .code operand, stack := stack }

/-- A character that opens and closes nothing in code. -/
def isPlainCode (c : Char) : Bool :=
  isWordChar c || c == ' ' || c == '\n' || c == ',' || c == ':' || c == ';' || c == '.' ||
    c == '(' || c == ')' || c == '+' || c == '=' || c == '?' || c == '>' || c == '*'

theorem inCode_step {c : Char} (hs : InCode stack s) (hc : isPlainCode c = true) :
    InCode stack (step s c) := by
  obtain ⟨operand, rfl⟩ := hs
  have hother : ∀ d : Char, isPlainCode d = false → c ≠ d := by
    rintro d hd rfl
    rw [hc] at hd
    cases hd
  have hquote : isQuote c = false := by
    simp [isQuote, hother '"' (by decide), hother '\'' (by decide)]
  have hless : c ≠ '<' := hother '<' (by decide)
  simp only [step, stepCode, hquote, hother '\x60' (by decide), hother '/' (by decide),
    hother '\x7b' (by decide), hother '\x7d' (by decide), hless, if_false, false_and,
    Bool.false_eq_true]
  split
  · exact ⟨_, rfl⟩
  · split
    · exact ⟨_, rfl⟩
    · exact ⟨_, rfl⟩

theorem inCode_run
    {chars : List Char}
    (hs : InCode stack s)
    (hchars : ∀ c ∈ chars, isPlainCode c = true) :
    InCode stack (run s chars) := by
  induction chars generalizing s with
  | nil => exact hs
  | cons c chars ih =>
      exact ih (inCode_step hs (hchars c List.mem_cons_self))
        fun d hd => hchars d (List.mem_cons_of_mem _ hd)

/-- The quote that opens a string literal. -/
theorem run_openQuote {quote : Char} (hquote : isQuote quote = true) (hs : InCode stack s) :
    run s [quote] = { mode := .string quote, stack := stack } := by
  obtain ⟨operand, rfl⟩ := hs
  simp [step, stepCode, hquote]

/-- The quote that closes a string literal. -/
theorem run_closeQuote {quote : Char} (hquote : isQuote quote = true) :
    InCode stack (run { mode := .string quote, stack := stack } [quote]) := by
  have hback : quote ≠ '\\' := by
    rintro rfl
    exact absurd hquote (by decide)
  exact ⟨true, by simp [step, hback]⟩

/-- The brace that was opened in `mode` is closed. -/
theorem run_closeBrace {mode : Mode} (hs : InCode (mode :: stack) s) :
    run s ['\x7d'] = { mode := mode, stack := stack } := by
  obtain ⟨operand, rfl⟩ := hs
  cases operand <;> rfl

end Tsx
end Lib
end NestBase
