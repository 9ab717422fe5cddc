import NestBase.Core.EmailPieces
import NestBase.Lib.JsonText
import NestBase.Lib.TsxScanner

/-!
# User text in a generated template

The source of a template is scanned as TypeScript with JSX.  A piece of it is
contained when what is written for a user's text is read inside one literal,
and a name of a placeholder is read in code.

Literals and the texts with placeholders are contained whatever the text is.
A block text without a placeholder is written as it is, and is contained
exactly when it has no brace and no angle bracket.
-/

namespace NestBase
namespace EmailBuilder

open Lib
open Lib.Tsx (InCode Keeps Mode State run step)

/-! ## Contained pieces -/

/-- What is written for a user's text lies in one literal, and a name in code. -/
def Piece.Contained (s : State) : Piece → Prop
  | fixed _ => True
  | user _ written => ∃ literal stack, Keeps literal stack s written
  | reference ref name => (ref = "vars" ∨ ref = "props") ∧ IsName name ∧ ∃ stack, InCode stack s
  | member name => IsName name ∧ ∃ stack, InCode stack s

/-- Every piece is contained where the scanner reads it. -/
def Contained : State → List Piece → Prop
  | _, [] => True
  | s, piece :: rest => piece.Contained s ∧ Contained (run s piece.written) rest

theorem contained_append_iff {s : State} {front back : List Piece} :
    Contained s (front ++ back) ↔
      Contained s front ∧ Contained (run s (written front)) back := by
  induction front generalizing s with
  | nil => simp [Contained]
  | cons piece front ih =>
      rw [List.cons_append, Contained, Contained, ih, written_cons, Tsx.run_append, and_assoc]

/-- From a state in `P` the pieces are contained and lead to a state in `Q`. -/
def Passes (P : State → Prop) (pieces : List Piece) (Q : State → Prop) : Prop :=
  ∀ s, P s → Contained s pieces ∧ Q (run s (written pieces))

variable {P Q : State → Prop}

theorem passes_nil : Passes P [] P :=
  fun _ hs => ⟨trivial, hs⟩

theorem Passes.append
    {R : State → Prop} {front back : List Piece}
    (hfront : Passes P front Q)
    (hback : Passes Q back R) :
    Passes P (front ++ back) R := by
  intro s hs
  obtain ⟨hcontained, hmid⟩ := hfront s hs
  obtain ⟨hrest, hend⟩ := hback _ hmid
  rw [contained_append_iff, written_append, Tsx.run_append]
  exact ⟨⟨hcontained, hrest⟩, hend⟩

theorem Passes.cons
    {R : State → Prop} {piece : Piece} {rest : List Piece}
    (hpiece : Passes P [piece] Q)
    (hrest : Passes Q rest R) :
    Passes P (piece :: rest) R :=
  hpiece.append hrest

theorem passes_fixed {chars : List Char} (h : ∀ s, P s → Q (run s chars)) :
    Passes P [.fixed chars] Q := by
  intro s hs
  refine ⟨⟨trivial, trivial⟩, ?_⟩
  rw [written_cons, written_nil, List.append_nil]
  exact h s hs

theorem passes_user
    {text chars : List Char}
    (h : ∀ s, P s → (∃ literal stack, Keeps literal stack s chars) ∧ Q (run s chars)) :
    Passes P [.user text chars] Q := by
  intro s hs
  obtain ⟨hkeeps, hend⟩ := h s hs
  refine ⟨⟨hkeeps, trivial⟩, ?_⟩
  rw [written_cons, written_nil, List.append_nil]
  exact hend

section Literals

variable {stack : List Mode}

/-! ## Names -/

variable {c : Char}

theorem isPlainCode_of_isIdentChar (h : isIdentChar c = true) :
    Tsx.isPlainCode c = true := by
  simp only [isIdentChar, Bool.or_eq_true] at h
  simp only [Tsx.isPlainCode, Tsx.isWordChar, Bool.or_eq_true]
  tauto

variable {ref : String}

theorem passes_reference
    {name : List Char}
    (href : ref = "vars" ∨ ref = "props")
    (hname : IsName name) :
    Passes (InCode stack) [.reference ref name] (InCode stack) := by
  intro s hs
  refine ⟨⟨⟨href, hname, stack, hs⟩, trivial⟩, ?_⟩
  rw [written_cons, written_nil, List.append_nil]
  refine Tsx.inCode_run hs fun c hc => ?_
  rcases List.mem_append.mp hc with hmem | hmem
  · have hplain : ∀ c ∈ "vars".toList ++ "props".toList, Tsx.isPlainCode c = true :=
      List.all_eq_true.mp rfl
    rcases href with rfl | rfl
    · exact hplain c (List.mem_append_left _ hmem)
    · exact hplain c (List.mem_append_right _ hmem)
  · rcases List.mem_cons.mp hmem with rfl | hmem
    · decide
    · exact isPlainCode_of_isIdentChar (hname.2 c hmem)

/-! ## String literals -/

theorem hexDigit_isStringChar (n : Nat) : Tsx.isStringChar '"' (Json.hexDigit n) = true := by
  unfold Json.hexDigit
  rw [List.getD_eq_getElem?_getD]
  cases hget : "0123456789abcdef".toList[n]? with
  | none => decide
  | some c =>
      have hall : ∀ c ∈ "0123456789abcdef".toList, Tsx.isStringChar '"' c = true :=
        List.all_eq_true.mp rfl
      exact hall c (List.mem_of_getElem? hget)

/-- An escaped character is one escape sequence or stands for itself. -/
theorem keeps_escapeChar (c : Char) :
    Keeps (.string '"') stack { mode := .string '"', stack := stack } (Json.escapeChar c) ∧
      run { mode := .string '"', stack := stack } (Json.escapeChar c) =
        { mode := .string '"', stack := stack } := by
  have hshort : ∀ letter : Char,
      Keeps (.string '"') stack { mode := .string '"', stack := stack } ['\\', letter] ∧
        run { mode := .string '"', stack := stack } ['\\', letter] =
          { mode := .string '"', stack := stack } :=
    fun letter => Tsx.keeps_escapeSequence (by simp)
  unfold Json.escapeChar
  split
  · exact hshort '"'
  split
  · exact hshort '\\'
  split
  · exact hshort 'b'
  split
  · exact hshort 't'
  split
  · exact hshort 'n'
  split
  · exact hshort 'f'
  split
  · exact hshort 'r'
  split
  · refine Tsx.keeps_escapeSequence fun d hd => ?_
    simp only [List.mem_cons, List.not_mem_nil, or_false] at hd
    rcases hd with rfl | rfl | rfl | rfl
    · decide
    · decide
    · exact hexDigit_isStringChar _
    · exact hexDigit_isStringChar _
  · next hquote hback _ _ hbreak _ hreturn _ =>
      refine Tsx.keeps_string fun d hd => ?_
      rw [List.mem_singleton] at hd
      subst hd
      have hline : Tsx.isLineBreak d = false := by
        rw [Tsx.isLineBreak, Bool.or_eq_false_iff, beq_eq_false_iff_ne, beq_eq_false_iff_ne]
        constructor
        · rintro rfl
          exact hbreak rfl
        · rintro rfl
          exact hreturn rfl
      simp [Tsx.isStringChar, hquote, hback, hline]

theorem keeps_escaped (text : List Char) :
    Keeps (.string '"') stack { mode := .string '"', stack := stack }
        (text.flatMap Json.escapeChar) ∧
      run { mode := .string '"', stack := stack } (text.flatMap Json.escapeChar) =
        { mode := .string '"', stack := stack } := by
  induction text with
  | nil => exact ⟨Tsx.keeps_nil ⟨rfl, rfl⟩, rfl⟩
  | cons c text ih =>
      obtain ⟨hkeeps, hrun⟩ := @keeps_escapeChar stack c
      rw [List.flatMap_cons, Tsx.keeps_append_iff, Tsx.run_append, hrun]
      exact ⟨⟨hkeeps, ih.1⟩, ih.2⟩

theorem passes_quotedPieces (text : List Char) :
    Passes (InCode stack) (quotedPieces text) (InCode stack) := by
  have hopen : Passes (InCode stack) [.fixed ['"']]
      (fun s => s = { mode := .string '"', stack := stack }) :=
    passes_fixed fun s hs => Tsx.run_openQuote rfl hs
  have htext : Passes (fun s => s = { mode := .string '"', stack := stack })
      [.user text (text.flatMap Json.escapeChar)]
      (fun s => s = { mode := .string '"', stack := stack }) := by
    refine passes_user fun s hs => ?_
    subst hs
    obtain ⟨hkeeps, hrun⟩ := @keeps_escaped stack text
    exact ⟨⟨_, _, hkeeps⟩, hrun⟩
  have hclose : Passes (fun s => s = { mode := .string '"', stack := stack }) [.fixed ['"']]
      (InCode stack) := by
    refine passes_fixed fun s hs => ?_
    subst hs
    exact Tsx.run_closeQuote rfl
  exact hopen.cons (htext.cons hclose)

/-! ## Template literals -/

/-- In the text of a template literal; a dollar sign just read opens nothing with `next`. -/
def InTemplate (stack : List Mode) (next : Option Char) (s : State) : Prop :=
  s = { mode := .template, stack := stack } ∨
    s = { mode := .templateDollar, stack := stack } ∧ next ≠ some '\x7b'

variable {s : State}

theorem InTemplate.inside {next : Option Char} (hs : InTemplate stack next s) :
    Tsx.Inside .template stack s := by
  rcases hs with rfl | ⟨rfl, -⟩
  · exact ⟨rfl, rfl⟩
  · exact ⟨rfl, rfl⟩

/-- A character in a template literal that does not open a substitution. -/
theorem InTemplate.step (hs : InTemplate stack (some c) s) :
    Tsx.step s c = Tsx.stepTemplate stack c := by
  rcases hs with rfl | ⟨rfl, hbrace⟩
  · rfl
  · have hc : c ≠ '\x7b' := fun hc => hbrace (congrArg some hc)
    simp [Tsx.step, hc]

theorem keeps_escapeTemplateChar {next : Option Char} (hs : InTemplate stack (some c) s) :
    Keeps .template stack s (escapeTemplateChar next c) ∧
      InTemplate stack next (run s (escapeTemplateChar next c)) := by
  rcases escapeTemplateChar_cases next c with ⟨hsame, hback, htick, hdollar⟩ | ⟨hescaped, -⟩
  · have hstep : InTemplate stack next (step s c) := by
      rw [hs.step, Tsx.stepTemplate, if_neg hback, if_neg htick]
      split
      · next hc => exact Or.inr ⟨rfl, hdollar hc⟩
      · exact Or.inl rfl
    rw [hsame, Tsx.keeps_cons_iff]
    exact ⟨⟨hs.inside, Tsx.keeps_nil hstep.inside⟩, hstep⟩
  · have hback : step s '\\' = { mode := .templateEscape, stack := stack } := by
      rcases hs with rfl | ⟨rfl, -⟩
      · rfl
      · rfl
    rw [hescaped, Tsx.keeps_cons_iff, Tsx.keeps_cons_iff, Tsx.run_cons, Tsx.run_cons, hback]
    exact ⟨⟨hs.inside, ⟨rfl, rfl⟩, Tsx.keeps_nil ⟨rfl, rfl⟩⟩, Or.inl rfl⟩

theorem keeps_escapeTemplateFrom
    {next : Option Char}
    (chars : List Char)
    (hs : InTemplate stack (chars.head?.or next) s) :
    Keeps .template stack s (escapeTemplateFrom next chars) ∧
      InTemplate stack next (run s (escapeTemplateFrom next chars)) := by
  induction chars generalizing s with
  | nil => exact ⟨Tsx.keeps_nil hs.inside, hs⟩
  | cons c rest ih =>
      obtain ⟨hkeeps, hnext⟩ := @keeps_escapeTemplateChar stack c s (rest.head?.or next) hs
      obtain ⟨hrest, hend⟩ := ih hnext
      rw [escapeTemplateFrom, Tsx.keeps_append_iff, Tsx.run_append]
      exact ⟨⟨hkeeps, hrest⟩, hend⟩

theorem passes_substitution
    {name : List Char} {next : Option Char}
    (href : ref = "vars" ∨ ref = "props")
    (hname : IsName name) :
    Passes (InTemplate stack (some '\x7b'))
      [.fixed ['$', '\x7b'], .reference ref name, .fixed ['\x7d']] (InTemplate stack next) := by
  have hopen : Passes (InTemplate stack (some '\x7b')) [.fixed ['$', '\x7b']]
      (InCode (.template :: stack)) := by
    refine passes_fixed fun s hs => ?_
    rcases hs with rfl | ⟨-, hbrace⟩
    · exact ⟨false, rfl⟩
    · exact absurd rfl hbrace
  have hclose : Passes (InCode (.template :: stack)) [.fixed ['\x7d']] (InTemplate stack next) :=
    passes_fixed fun s hs => Or.inl (Tsx.run_closeBrace hs)
  exact hopen.cons ((passes_reference href hname).cons hclose)

theorem passes_templatePieces
    (href : ref = "vars" ∨ ref = "props")
    {parts : List Segment}
    (hnames : ∀ name, .var name ∈ parts → IsName name) :
    Passes (InTemplate stack (firstChar parts)) (templatePieces ref parts)
      (InTemplate stack none) := by
  induction parts with
  | nil => exact passes_nil
  | cons part rest ih =>
      have hrest := ih fun name hmem => hnames name (List.mem_cons_of_mem _ hmem)
      cases part with
      | text chars =>
          have htext : Passes (InTemplate stack (firstChar (.text chars :: rest)))
              [.user chars (escapeTemplateFrom (firstChar rest) chars)]
              (InTemplate stack (firstChar rest)) := by
            refine passes_user fun s hs => ?_
            obtain ⟨hkeeps, hend⟩ := keeps_escapeTemplateFrom chars hs
            exact ⟨⟨_, _, hkeeps⟩, hend⟩
          exact htext.cons hrest
      | var name =>
          exact (passes_substitution href (hnames name List.mem_cons_self)).append hrest

theorem passes_literalPieces (href : ref = "vars" ∨ ref = "props") (value : String) :
    Passes (InCode stack) (literalPieces value ref) (InCode stack) := by
  unfold literalPieces
  split
  · have hopen : Passes (InCode stack) [.fixed ['\x60']]
        (InTemplate stack (firstChar (segments value.toList))) := by
      refine passes_fixed fun s hs => ?_
      obtain ⟨operand, rfl⟩ := hs
      exact Or.inl (by cases operand <;> rfl)
    have hclose : Passes (InTemplate stack none) [.fixed ['\x60']] (InCode stack) := by
      refine passes_fixed fun s hs => ?_
      rcases hs with rfl | ⟨rfl, -⟩
      · exact ⟨true, rfl⟩
      · exact ⟨true, rfl⟩
    exact hopen.cons
      ((passes_templatePieces href fun name hmem => isName_of_mem_segments hmem).append hclose)
  · exact passes_quotedPieces _

/-! ## Joined expressions -/

theorem passes_joinedPieces
    {parts : List Segment}
    (hnames : ∀ name, .var name ∈ parts → IsName name) :
    Passes (InCode stack) (joinedPieces parts) (InCode stack) := by
  have hpart : ∀ part ∈ parts, Passes (InCode stack) (partPieces part) (InCode stack) := by
    intro part hmem
    cases part with
    | text chars => exact passes_quotedPieces chars
    | var name => exact passes_reference (Or.inr rfl) (hnames name hmem)
  have hplus : Passes (InCode stack) [.fixed " + ".toList] (InCode stack) :=
    passes_fixed fun s hs => Tsx.inCode_run hs (List.all_eq_true.mp rfl)
  clear hnames
  induction parts with
  | nil => exact passes_nil
  | cons part rest ih =>
      have hfirst := hpart part List.mem_cons_self
      have hrest := ih fun other hother => hpart other (List.mem_cons_of_mem _ hother)
      cases rest with
      | nil => exact hfirst
      | cons next rest => exact hfirst.append (hplus.cons hrest)

theorem passes_expressionPieces (value : String) :
    Passes (InCode stack) (expressionPieces value) (InCode stack) := by
  unfold expressionPieces
  split
  · exact passes_quotedPieces _
  · exact passes_joinedPieces fun name hmem => isName_of_mem_segments hmem

/-! ## Indented text -/

def InText (stack : List Mode) (s : State) : Prop :=
  s = { mode := .text, stack := stack }

def InTag (stack : List Mode) (s : State) : Prop :=
  s = { mode := .tag, stack := stack }

/-- The indentation of a line is text. -/
theorem run_indentFrom_text
    {spaces : Nat} {chars : List Char}
    (hline : '\n' ∉ chars)
    (atStart : Bool) :
    run { mode := .text, stack := stack } (indentFrom spaces atStart chars) =
      run { mode := .text, stack := stack } chars := by
  have hspaces : run { mode := .text, stack := stack } (List.replicate spaces ' ') =
      { mode := .text, stack := stack } := by
    refine Tsx.run_text fun c hc => ?_
    rw [List.eq_of_mem_replicate hc]
    decide
  cases atStart with
  | false => rw [indentFrom_of_line hline]
  | true =>
      cases chars with
      | nil => rfl
      | cons c rest => rw [indentFrom_of_line_cons hline, Tsx.run_append, hspaces]

/-- Indenting a text adds spaces only. -/
theorem isTextChar_indentFrom_iff {spaces : Nat} {chars : List Char} (atStart : Bool) :
    (∀ c ∈ indentFrom spaces atStart chars, Tsx.isTextChar c = true) ↔
      ∀ c ∈ chars, Tsx.isTextChar c = true := by
  have hspaces : ∀ c ∈ List.replicate spaces ' ', Tsx.isTextChar c = true := by
    intro c hc
    rw [List.eq_of_mem_replicate hc]
    decide
  induction chars generalizing atStart with
  | nil => rfl
  | cons d rest ih =>
      rw [indentFrom]
      split
      · next hbreak =>
          rw [hbreak, List.forall_mem_cons, List.forall_mem_cons]
          exact and_congr_right fun _ => ih true
      · split
        · rw [List.forall_mem_append, List.forall_mem_cons, List.forall_mem_cons]
          exact ⟨fun h => ⟨h.2.1, (ih false).mp h.2.2⟩,
            fun h => ⟨hspaces, h.1, (ih false).mpr h.2⟩⟩
        · rw [List.forall_mem_cons, List.forall_mem_cons]
          exact and_congr_right fun _ => ih false

theorem passes_indent_fixed
    {P : State → Prop} {spaces : Nat} {chars : List Char}
    (hline : '\n' ∉ chars)
    (hrun : P (run { mode := .text, stack := stack } chars))
    (atStart : Bool) :
    Passes (InText stack) [.fixed (indentFrom spaces atStart chars)] P := by
  refine passes_fixed fun s hs => ?_
  rw [InText] at hs
  rw [hs, run_indentFrom_text hline]
  exact hrun

/-- Within a line the pieces stay as they are. -/
theorem indentPieces_of_line {spaces : Nat} {pieces : List Piece} (hline : '\n' ∉ written pieces) :
    indentPieces spaces false pieces = pieces := by
  induction pieces with
  | nil => rfl
  | cons piece rest ih =>
      rw [written_cons, List.mem_append, not_or] at hline
      have hpiece : piece.indent spaces false = [piece] := by
        cases piece with
        | fixed chars => exact congrArg (fun chars => [Piece.fixed chars]) (indentFrom_of_line hline.1)
        | user text chars =>
            exact congrArg (fun chars => [Piece.user text chars]) (indentFrom_of_line hline.1)
        | reference ref name => rfl
        | member name => rfl
      rw [indentPieces, hpiece, endsLine_of_line hline.1, ih hline.2]
      rfl

/-! ## Block texts -/

theorem isTextChar_escapeJsxText (chars : List Char) :
    ∀ c ∈ escapeJsxText chars, Tsx.isTextChar c = true := by
  have hentities : ∀ c ∈ "&#123;".toList ++ "&#125;".toList ++ "&lt;".toList ++ "&gt;".toList,
      Tsx.isTextChar c = true := List.all_eq_true.mp rfl
  simp only [List.forall_mem_append] at hentities
  obtain ⟨⟨⟨hopen, hclose⟩, hless⟩, hgreater⟩ := hentities
  intro c hc
  obtain ⟨d, -, hmem⟩ := List.mem_flatMap.mp hc
  unfold escapeJsxChar at hmem
  split at hmem
  · exact hopen c hmem
  split at hmem
  · exact hclose c hmem
  split at hmem
  · exact hless c hmem
  split at hmem
  · exact hgreater c hmem
  · next h₁ h₂ h₃ h₄ =>
      rw [List.mem_singleton] at hmem
      subst hmem
      simp [Tsx.isTextChar, h₁, h₂, h₃, h₄]

/-- A text with text characters only, indented, is one JSX text. -/
theorem passes_indent_text
    {spaces : Nat} {text chars : List Char}
    (hchars : ∀ c ∈ chars, Tsx.isTextChar c = true)
    (atStart : Bool) :
    Passes (InText stack) [.user text (indentFrom spaces atStart chars)] (InText stack) := by
  have hindented := (@isTextChar_indentFrom_iff spaces chars atStart).mpr hchars
  refine passes_user fun s hs => ?_
  rw [InText] at hs
  rw [hs]
  exact ⟨⟨.text, stack, Tsx.keeps_text_iff.mpr hindented⟩, Tsx.run_text hindented⟩

theorem newline_not_mem_reference {name : List Char} (hname : IsName name) :
    '\n' ∉ (Piece.reference "props" name).written := by
  have hrest := newline_not_mem_of_isName hname
  rw [Piece.written, List.mem_append, List.mem_cons, not_or, not_or]
  exact ⟨by decide, by decide, hrest⟩

/-- The texts between placeholders are escaped, so they are JSX text. -/
theorem passes_childPieces
    {spaces : Nat} {parts : List Segment}
    (hnames : ∀ name, .var name ∈ parts → IsName name)
    (atStart : Bool) :
    Passes (InText stack) (indentPieces spaces atStart (parts.flatMap childPieces))
      (InText stack) := by
  induction parts generalizing atStart with
  | nil => exact passes_nil
  | cons part rest ih =>
      have hrest := fun atStart => ih (fun name hmem => hnames name (List.mem_cons_of_mem _ hmem))
        atStart
      rw [List.flatMap_cons, indentPieces_append]
      refine Passes.append ?_ (hrest _)
      cases part with
      | text chars => exact passes_indent_text (isTextChar_escapeJsxText chars) atStart
      | var name =>
          have hname := hnames name List.mem_cons_self
          have hline : '\n' ∉ written [.reference "props" name, .fixed ['\x7d']] := by
            rw [written_cons, List.mem_append, not_or]
            exact ⟨newline_not_mem_reference hname, by decide⟩
          have hbraces : indentPieces spaces atStart (childPieces (.var name)) =
              [.fixed (indentFrom spaces atStart ['\x7b']), .reference "props" name,
                .fixed ['\x7d']] :=
            congrArg (Piece.fixed (indentFrom spaces atStart ['\x7b']) :: ·)
              (indentPieces_of_line hline)
          have hopen : Passes (InText stack) [.fixed (indentFrom spaces atStart ['\x7b'])]
              (InCode (.text :: stack)) :=
            passes_indent_fixed (by decide) ⟨false, rfl⟩ atStart
          have hclose : Passes (InCode (.text :: stack)) [.fixed ['\x7d']] (InText stack) :=
            passes_fixed fun s hs => Tsx.run_closeBrace hs
          rw [hbraces]
          exact hopen.cons ((passes_reference (Or.inr rfl) hname).cons hclose)

/-- A text that is written as it is has no brace and no angle bracket. -/
def PlainText (value : Option PropValue) : Prop :=
  ∀ v ∈ value, hasPlaceholder v.toText.toList = false →
    ∀ c ∈ v.toText.toList, Tsx.isTextChar c = true

variable {value : Option PropValue}

theorem passes_textPieces {spaces : Nat} (hplain : PlainText value) (atStart : Bool) :
    Passes (InText stack) (indentPieces spaces atStart (textPieces value)) (InText stack) := by
  cases value with
  | none => exact passes_nil
  | some v =>
      simp only [textPieces]
      split
      · exact passes_childPieces (fun name hmem => isName_of_mem_segments hmem) atStart
      · next hplaceholder =>
          rw [Bool.not_eq_true] at hplaceholder
          exact passes_indent_text (hplain v rfl hplaceholder) atStart

/-- A text that is written as it is must be plain to be contained. -/
theorem plainText_of_contained
    {spaces : Nat} {atStart : Bool}
    (hs : InText stack s)
    (h : Contained s (indentPieces spaces atStart (textPieces value))) :
    PlainText value := by
  rintro v rfl hplaceholder
  simp only [textPieces, hplaceholder, Bool.false_eq_true, if_false] at h
  obtain ⟨⟨literal, stack', hkeeps⟩, -⟩ := h
  rw [InText] at hs
  obtain ⟨hliteral, hstack⟩ := hkeeps.inside
  rw [hs] at hliteral hstack hkeeps
  cases hliteral
  cases hstack
  exact (isTextChar_indentFrom_iff atStart).mp (Tsx.keeps_text_iff.mp hkeeps)

/-! ## Blocks -/

/-- How the tags of a component are read. -/
structure IsComponent (component : List Char) : Prop where
  line : '\n' ∉ component
  opens : ∀ stack, run { mode := .text, stack := stack } ('<' :: (component ++ [' '])) =
    { mode := .tag, stack := .text :: stack }
  closes : ∀ stack,
    run { mode := .text, stack := .text :: stack } ("</".toList ++ component ++ ['>']) =
      { mode := .text, stack := stack }

theorem newline_not_mem_expressionPieces (href : String) :
    '\n' ∉ written (expressionPieces href) := by
  have hquoted : ∀ text, '\n' ∉ written (quotedPieces text) := by
    intro text
    rw [written_quotedPieces]
    exact Json.newline_not_mem_quote _
  have hjoined : ∀ parts : List Segment, (∀ name, .var name ∈ parts → IsName name) →
      '\n' ∉ written (joinedPieces parts) := by
    intro parts hnames
    have hpart : ∀ part ∈ parts, '\n' ∉ written (partPieces part) := by
      intro part hmem
      cases part with
      | text chars => exact hquoted chars
      | var name =>
          rw [partPieces, written_cons, written_nil, List.append_nil]
          exact newline_not_mem_reference (hnames name hmem)
    clear hnames
    induction parts with
    | nil => exact List.not_mem_nil
    | cons part rest ih =>
        have hfirst := hpart part List.mem_cons_self
        have hrest := ih fun other hother => hpart other (List.mem_cons_of_mem _ hother)
        cases rest with
        | nil => exact hfirst
        | cons next rest =>
            have hplus : '\n' ∉ (Piece.fixed " + ".toList).written := by decide
            rw [joinedPieces, written_append, written_cons, List.mem_append, List.mem_append,
              not_or, not_or]
            · exact ⟨hfirst, hplus, hrest⟩
            · simp
  unfold expressionPieces
  split
  · exact hquoted _
  · exact hjoined _ fun name hmem => isName_of_mem_segments hmem

/-- Attributes stand on one line and leave the tag open. -/
def IsAttrs (attrs : List Piece) : Prop :=
  '\n' ∉ written attrs ∧ ∀ stack, Passes (InTag stack) attrs (InTag stack)

theorem isAttrs_brand : IsAttrs [.fixed brandAttr] := by
  refine ⟨by decide, fun stack => passes_fixed fun s hs => ?_⟩
  rw [InTag] at hs
  rw [hs]
  rfl

theorem passes_tagExpression
    {name : List Char} {value : List Piece}
    (hname : ∀ stack, run { mode := .tag, stack := stack } name =
      { mode := .code false, stack := .tag :: stack })
    (hvalue : ∀ stack, Passes (InCode stack) value (InCode stack)) :
    Passes (InTag stack) (.fixed name :: (value ++ [.fixed ['\x7d']])) (InTag stack) := by
  have hopen : Passes (InTag stack) [.fixed name] (InCode (.tag :: stack)) := by
    refine passes_fixed fun s hs => ?_
    rw [InTag] at hs
    rw [hs]
    exact ⟨false, hname stack⟩
  have hclose : Passes (InCode (.tag :: stack)) [.fixed ['\x7d']] (InTag stack) :=
    passes_fixed fun s hs => Tsx.run_closeBrace hs
  exact hopen.cons ((hvalue _).append hclose)

theorem isAttrs_href (href : Option PropValue) :
    IsAttrs (.fixed brandAttr :: hrefPieces href) := by
  have hhref : IsAttrs (hrefPieces href) := by
    unfold hrefPieces
    split
    · next href =>
        refine ⟨?_, fun stack => ?_⟩
        · rw [written_cons, written_append, List.mem_append, List.mem_append, not_or, not_or]
          exact ⟨by decide, newline_not_mem_expressionPieces href, by decide⟩
        · exact passes_tagExpression (fun _ => rfl) fun _ => passes_expressionPieces href
    · exact ⟨List.not_mem_nil, fun stack => passes_nil⟩
  obtain ⟨hline, hpasses⟩ := isAttrs_brand
  rw [written_cons, written_nil, List.append_nil] at hline
  refine ⟨?_, fun stack => (hpasses stack).cons (hhref.2 stack)⟩
  rw [written_cons, List.mem_append, not_or]
  exact ⟨hline, hhref.1⟩

theorem plainText_of_written_eq_nil (h : written (textPieces value) = []) :
    PlainText value := by
  rintro v rfl hplaceholder
  simp only [textPieces, hplaceholder, Bool.false_eq_true, if_false, written_cons, written_nil,
    Piece.written, List.append_nil] at h
  rw [h]
  simp

section Wrap

variable {component : List Char}
variable {attrs : List Piece}
variable {value : Option PropValue}
variable {spaces : Nat}

theorem newline_not_mem_opening (hcomponent : IsComponent component) :
    '\n' ∉ '<' :: (component ++ [' ']) := by
  simp [hcomponent.line]

theorem newline_not_mem_closing (hcomponent : IsComponent component) :
    '\n' ∉ "</".toList ++ component ++ ['>'] := by
  rw [List.mem_append, List.mem_append, not_or, not_or]
  exact ⟨⟨by decide, hcomponent.line⟩, by decide⟩

/-- The opening tag begins the line; behind it the attributes stay as they are. -/
theorem indent_opening
    (hcomponent : IsComponent component)
    (hattrs : IsAttrs attrs)
    (rest : List Piece) :
    indentPieces spaces true (.fixed ('<' :: (component ++ [' '])) :: (attrs ++ rest)) =
      .fixed (indentFrom spaces true ('<' :: (component ++ [' ']))) ::
        (attrs ++ indentPieces spaces false rest) := by
  have hopen : endsLine true (Piece.fixed ('<' :: (component ++ [' ']))).written = false :=
    endsLine_cons true (newline_not_mem_opening hcomponent)
  rw [indentPieces, hopen, indentPieces_append, endsLine_of_line hattrs.1,
    indentPieces_of_line hattrs.1]
  rfl

theorem passes_opening (hcomponent : IsComponent component) :
    Passes (InText stack) [.fixed (indentFrom spaces true ('<' :: (component ++ [' '])))]
      (InTag (.text :: stack)) :=
  passes_indent_fixed (newline_not_mem_opening hcomponent) (hcomponent.opens stack) true

theorem passes_wrapPieces
    (hcomponent : IsComponent component)
    (hattrs : IsAttrs attrs)
    (hplain : PlainText value) :
    Passes (InText stack)
      (indentPieces spaces true (wrapPieces component attrs (textPieces value)))
      (InText stack) := by
  unfold wrapPieces
  split
  · have hend : Passes (InTag (.text :: stack)) (indentPieces spaces false [.fixed " />".toList])
        (InText stack) := by
      rw [indentPieces_of_line (by decide)]
      refine passes_fixed fun s hs => ?_
      rw [InTag] at hs
      rw [hs]
      rfl
    rw [indent_opening hcomponent hattrs]
    exact (passes_opening hcomponent).cons ((hattrs.2 _).append hend)
  · have hend : Passes (InTag (.text :: stack)) [.fixed ['>']] (InText (.text :: stack)) := by
      refine passes_fixed fun s hs => ?_
      rw [InTag] at hs
      rw [hs]
      rfl
    have hclose : ∀ atStart, Passes (InText (.text :: stack))
        [.fixed (indentFrom spaces atStart ("</".toList ++ component ++ ['>']))]
        (InText stack) := fun atStart =>
      passes_indent_fixed (newline_not_mem_closing hcomponent) (hcomponent.closes stack) atStart
    rw [indent_opening hcomponent hattrs, indentPieces, indentPieces_append]
    exact (passes_opening hcomponent).cons
      ((hattrs.2 _).append
        (hend.cons ((passes_textPieces hplain _).append (hclose _))))

theorem plainText_of_contained_wrapPieces
    (hcomponent : IsComponent component)
    (hattrs : IsAttrs attrs)
    {s : State}
    (hs : InText stack s)
    (h : Contained s
      (indentPieces spaces true (wrapPieces component attrs (textPieces value)))) :
    PlainText value := by
  unfold wrapPieces at h
  split at h
  · next hempty => exact plainText_of_written_eq_nil hempty
  · rw [indent_opening hcomponent hattrs] at h
    obtain ⟨-, htag⟩ := @passes_opening stack component spaces hcomponent s hs
    rw [written_cons, written_nil, List.append_nil] at htag
    obtain ⟨-, hattrsEnd⟩ := hattrs.2 _ _ htag
    have hrest := (contained_append_iff.mp h.2).2
    have htext : InText (.text :: stack) (step (run (run s
        (Piece.fixed (indentFrom spaces true ('<' :: (component ++ [' '])))).written)
          (written attrs)) '>') := by
      rw [InTag] at hattrsEnd
      rw [hattrsEnd]
      rfl
    rw [indentPieces, indentPieces_append] at hrest
    have hchild := (contained_append_iff.mp (contained_append_iff.mp hrest).2).1
    exact plainText_of_contained htext hchild

end Wrap

/-- A known block without a divider is an element around its text. -/
theorem blockPieces_eq
    {block : EmailBlockSpec}
    (hknown : KNOWN_EMAIL_BLOCKS.contains block.type = true)
    (hdivider : block.type ≠ "divider") :
    ∃ component attrs, IsComponent component ∧ IsAttrs attrs ∧
      blockPieces block = wrapPieces component attrs (textPieces (block.prop "text")) := by
  have htypes : block.type = "greeting" ∨ block.type = "paragraph" ∨ block.type = "cta" ∨
      block.type = "footer" ∨ block.type = "code" := by
    simpa [KNOWN_EMAIL_BLOCKS, hdivider] using hknown
  unfold blockPieces
  rcases htypes with htype | htype | htype | htype | htype
  · refine ⟨"Greeting".toList, _, ⟨by decide, fun _ => rfl, fun _ => rfl⟩, isAttrs_brand, ?_⟩
    simp only [htype]
  · refine ⟨"Paragraph".toList, _, ⟨by decide, fun _ => rfl, fun _ => rfl⟩, isAttrs_brand, ?_⟩
    simp only [htype]
  · refine ⟨"CTA".toList, _, ⟨by decide, fun _ => rfl, fun _ => rfl⟩,
      isAttrs_href (block.prop "href"), ?_⟩
    simp only [htype]
  · refine ⟨"Footer".toList, _, ⟨by decide, fun _ => rfl, fun _ => rfl⟩, isAttrs_brand, ?_⟩
    simp only [htype]
  · refine ⟨"Code".toList, _, ⟨by decide, fun _ => rfl, fun _ => rfl⟩, isAttrs_brand, ?_⟩
    simp only [htype]

/-- The text of a block, when it is written as it is, has no brace and no angle bracket. -/
def PlainBlock (block : EmailBlockSpec) : Prop :=
  block.type ≠ "divider" → PlainText (block.prop "text")

theorem passes_blockPieces
    {block : EmailBlockSpec}
    (hknown : KNOWN_EMAIL_BLOCKS.contains block.type = true)
    (hplain : PlainBlock block) :
    Passes (InText stack) (indentPieces 6 true (blockPieces block)) (InText stack) := by
  by_cases hdivider : block.type = "divider"
  · have hpieces : blockPieces block = [.fixed "<Divider />".toList] := by
      unfold blockPieces
      simp only [hdivider]
    have hline : '\n' ∉ "<Divider />".toList := by decide
    have hrun : InText stack (run { mode := .text, stack := stack } "<Divider />".toList) := rfl
    rw [hpieces]
    exact passes_indent_fixed hline hrun true
  · obtain ⟨component, attrs, hcomponent, hattrs, hpieces⟩ := blockPieces_eq hknown hdivider
    rw [hpieces]
    exact passes_wrapPieces hcomponent hattrs (hplain hdivider)

theorem contained_blockPieces_iff
    {block : EmailBlockSpec}
    (hknown : KNOWN_EMAIL_BLOCKS.contains block.type = true)
    (hs : InText stack s) :
    Contained s (indentPieces 6 true (blockPieces block)) ↔ PlainBlock block := by
  constructor
  · intro h hdivider
    obtain ⟨component, attrs, hcomponent, hattrs, hpieces⟩ := blockPieces_eq hknown hdivider
    rw [hpieces] at h
    exact plainText_of_contained_wrapPieces hcomponent hattrs hs h
  · intro hplain
    exact (passes_blockPieces hknown hplain s hs).1

/-- The scanner is in the text of the root element at each block. -/
theorem contained_childrenPieces_iff
    {children : List EmailBlockSpec}
    (hknown : ∀ block ∈ children, KNOWN_EMAIL_BLOCKS.contains block.type = true)
    (hs : InText stack s) :
    Contained s (indentPieces 6 true (childrenPieces children)) ↔
      ∀ block ∈ children, PlainBlock block := by
  induction children generalizing s with
  | nil => simp [childrenPieces, indentPieces, Contained]
  | cons block rest ih =>
      have hfirst := hknown block List.mem_cons_self
      have hothers := fun other hother => hknown other (List.mem_cons_of_mem _ hother)
      cases rest with
      | nil =>
          rw [childrenPieces, contained_blockPieces_iff hfirst hs, List.forall_mem_singleton]
      | cons next rest =>
          rw [childrenPieces, indentPieces_append, contained_append_iff,
            contained_blockPieces_iff hfirst hs, List.forall_mem_cons]
          · refine and_congr_right fun hplain => ?_
            have hbreak : InText stack
                (step (run s (written (indentPieces 6 true (blockPieces block)))) '\n') := by
              have hend := (passes_blockPieces hfirst hplain s hs).2
              rw [InText] at hend
              rw [hend]
              rfl
            rw [← ih hothers hbreak, indentPieces, contained_append_iff]
            exact ⟨And.right, fun h => ⟨⟨trivial, trivial⟩, h⟩⟩
          · simp

end Literals

end EmailBuilder
end NestBase
