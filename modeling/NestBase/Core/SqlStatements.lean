import NestBase.Lib.Text
import Mathlib.Data.List.Infix

/-!
# The statements of a migration

`splitSqlStatements` scans the text with two flags, one for literals and one for bodies
between `$$`.  It knows neither comments nor quoted identifiers, and takes a quote behind
a backslash for part of a literal.

A text is described by its tokens.  When every quote and every `$$` in a comment or an
identifier is closed in it, no semicolon in one stands outside of such a pair, and no
literal has a backslash before one of its quotes, each token leaves the flags as it found
them, and the pieces are the ones between the semicolons (`splitSqlStatements_render`).
-/

namespace NestBase
namespace Migrations

open Lib

/-! ## The splitter -/

/-- A piece that is not only white space. -/
def piece (current : List Char) : List (List Char) :=
  if current.all Text.isWhiteSpace then [] else [current]

/-- The loop: `previous` is `sql[i - 1]`, and `skip` says that the index was moved on. -/
def scan (previous : Option Char) (skip : Bool) (current : List Char)
    (inString inDollar : Bool) : List Char → List (List Char)
  | [] => piece current
  | ch :: rest =>
      if skip then scan (some ch) false current inString inDollar rest
      else
        let inString :=
          if !inDollar && ch == '\'' && previous != some '\\' then !inString else inString
        if !inString && ch == '$' && rest.head? == some '$' then
          scan (some ch) true (current ++ ['$', '$']) inString (!inDollar) rest
        else if !inString && !inDollar && ch == ';' then
          piece current ++ scan (some ch) false [] inString inDollar rest
        else scan (some ch) false (current ++ [ch]) inString inDollar rest

def splitSqlStatements (sql : String) : List String :=
  (scan none false [] false false sql.toList).map String.ofList

/-! ## Tokens -/

inductive SqlToken where
  /-- A character of the statements themselves. -/
  | plain (c : Char)
  | literal (content : List Char)
  | identifier (name : List Char)
  | body (text : List Char)
  /-- The newline that ends the comment is not part of it. -/
  | lineComment (text : List Char)
  | blockComment (text : List Char)
  | separator
deriving DecidableEq

/-- A quote inside is doubled. -/
def escape (quote : Char) (content : List Char) : List Char :=
  content.flatMap fun c => if c = quote then [quote, quote] else [c]

def SqlToken.render : SqlToken → List Char
  | plain c => [c]
  | literal content => '\'' :: escape '\'' content ++ ['\'']
  | identifier name => '"' :: escape '"' name ++ ['"']
  | body text => ['$', '$'] ++ text ++ ['$', '$']
  | lineComment text => ['-', '-'] ++ text
  | blockComment text => ['/', '*'] ++ text ++ ['*', '/']
  | separator => [';']

def render (tokens : List SqlToken) : List Char :=
  tokens.flatMap SqlToken.render

/-- The token is read as such in front of the character. -/
def SqlToken.Fits (next : Option Char) : SqlToken → Prop
  | plain c =>
      c ∉ ['\'', '"', ';', '\\'] ∧
        next.map (c, ·) ∉ [some ('-', '-'), some ('/', '*'), some ('$', '$')]
  | literal _ => next ≠ some '\''
  | identifier _ => next ≠ some '"'
  | body text => ¬ ['$', '$'] <:+: text ++ ['$']
  | lineComment text => '\n' ∉ text ∧ (next = none ∨ next = some '\n')
  | blockComment text => ¬ ['*', '/'] <:+: text ++ ['*'] ∧ ¬ ['/', '*'] <:+: text ++ ['*']
  | separator => True

/-- The tokens are those of the text. -/
def WellFormed : List SqlToken → Prop
  | [] => True
  | token :: rest => token.Fits (render rest).head? ∧ WellFormed rest

instance (next : Option Char) (token : SqlToken) : Decidable (token.Fits next) :=
  match token with
  | .plain _ => inferInstanceAs (Decidable (_ ∧ _))
  | .literal _ => inferInstanceAs (Decidable (_ ≠ _))
  | .identifier _ => inferInstanceAs (Decidable (_ ≠ _))
  | .body _ => inferInstanceAs (Decidable (¬ _))
  | .lineComment _ => inferInstanceAs (Decidable (_ ∧ _))
  | .blockComment _ => inferInstanceAs (Decidable (_ ∧ _))
  | .separator => inferInstanceAs (Decidable True)

def decideWellFormed : (tokens : List SqlToken) → Decidable (WellFormed tokens)
  | [] => inferInstanceAs (Decidable True)
  | token :: rest =>
      have := decideWellFormed rest
      inferInstanceAs (Decidable (token.Fits (render rest).head? ∧ WellFormed rest))

instance (tokens : List SqlToken) : Decidable (WellFormed tokens) :=
  decideWellFormed tokens

def SqlToken.isSeparator : SqlToken → Bool
  | separator => true
  | _ => false

/-- What stands between the semicolons of the statements. -/
def pieces (tokens : List SqlToken) : List (List Char) :=
  (tokens.splitOnP SqlToken.isSeparator).map render

/-- The pieces that are not only white space. -/
def statements (tokens : List SqlToken) : List String :=
  ((pieces tokens).filter fun text => !text.all Text.isWhiteSpace).map String.ofList

/-- Quotes and `$$` in the text are closed in it, and semicolons stand between such only. -/
inductive Balanced : List Char → Prop where
  | nil : Balanced []
  | char {c : Char} {rest : List Char} :
      c ≠ '\'' → c ≠ ';' →
      rest.head?.map (c, ·) ∉ [some ('$', '$'), some ('\\', '\'')] →
      Balanced rest → Balanced (c :: rest)
  | quoted {content rest : List Char} :
      ¬ ['\\', '\''] <:+: escape '\'' content ++ ['\''] →
      Balanced rest → Balanced ('\'' :: escape '\'' content ++ '\'' :: rest)
  | dollars {inner rest : List Char} :
      ¬ ['$', '$'] <:+: inner ++ ['$'] →
      Balanced rest → Balanced ('$' :: '$' :: inner ++ '$' :: '$' :: rest)

/-- What the splitter makes of the token is right. -/
def SqlToken.Regular : SqlToken → Prop
  | literal content => ¬ ['\\', '\''] <:+: escape '\'' content ++ ['\'']
  | identifier name => Balanced (escape '"' name)
  | lineComment text => Balanced text
  | blockComment text => Balanced text
  | _ => True

/-! ## Steps of the scan -/

section Scan

variable {previous : Option Char} {current rest : List Char} {c : Char}

theorem scan_plain {inString inDollar : Bool}
    (hquote : inDollar = false → c ≠ '\'')
    (hdollar : inString = false → c = '$' → rest.head? ≠ some '$')
    (hsemicolon : inString = false → inDollar = false → c ≠ ';') :
    scan previous false current inString inDollar (c :: rest) =
      scan (some c) false (current ++ [c]) inString inDollar rest := by
  have hflag : (!inDollar && c == '\'' && previous != some '\\') = false := by
    cases inDollar with
    | false => rw [beq_eq_false_iff_ne.mpr (hquote rfl), Bool.and_false, Bool.false_and]
    | true => rfl
  rw [scan, if_neg Bool.false_ne_true]
  dsimp only
  rw [hflag, if_neg Bool.false_ne_true, if_neg, if_neg]
  · simpa [and_assoc] using hsemicolon
  · simpa [and_assoc] using hdollar

/-- With both flags down most characters mean nothing. -/
theorem scan_other (h : c ∉ ['\'', '$', ';']) :
    scan previous false current false false (c :: rest) =
      scan (some c) false (current ++ [c]) false false rest := by
  simp only [List.mem_cons, List.not_mem_nil, or_false, not_or] at h
  exact scan_plain (fun _ => h.1) (fun _ hc => absurd hc h.2.1) (fun _ _ => h.2.2)

theorem scan_semicolon :
    scan previous false current false false (';' :: rest) =
      piece current ++ scan (some ';') false [] false false rest := by
  rw [scan, if_neg Bool.false_ne_true]
  rfl

/-- A quote opens or closes a literal. -/
theorem scan_quote {inString : Bool} (hprevious : previous ≠ some '\\') :
    scan previous false current inString false ('\'' :: rest) =
      scan (some '\'') false (current ++ ['\'']) (!inString) false rest := by
  have hflag : (!false && '\'' == '\'' && previous != some '\\') = true := by
    simpa using hprevious
  rw [scan, if_neg Bool.false_ne_true]
  dsimp only
  rw [hflag, if_pos rfl, if_neg (by simp), if_neg (by simp)]

/-- Two dollars open or close a body. -/
theorem scan_dollars {inDollar : Bool} :
    scan previous false current false inDollar ('$' :: '$' :: rest) =
      scan (some '$') false (current ++ ['$', '$']) false (!inDollar) rest := by
  have hflag : (!inDollar && '$' == '\'' && previous != some '\\') = false := by
    simp
  rw [scan, if_neg Bool.false_ne_true]
  dsimp only
  rw [hflag, if_neg Bool.false_ne_true, if_pos (by simp), scan, if_pos rfl]

/-- The rest of a literal, from behind its first quote on. -/
theorem scan_literal {content : List Char}
    (h : ¬ ['\\', '\''] <:+: previous.toList ++ (escape '\'' content ++ ['\''])) :
    scan previous false current true false (escape '\'' content ++ '\'' :: rest) =
      scan (some '\'') false (current ++ (escape '\'' content ++ ['\''])) false false rest := by
  induction content generalizing previous current with
  | nil =>
      have hprevious : previous ≠ some '\\' := by
        rintro rfl
        exact h (List.infix_refl _)
      exact scan_quote hprevious
  | cons c content ih =>
      by_cases hc : c = '\''
      · subst hc
        have hescape : escape '\'' ('\'' :: content) = '\'' :: '\'' :: escape '\'' content := rfl
        rw [hescape] at h ⊢
        have hprevious : previous ≠ some '\\' := by
          rintro rfl
          exact h (List.prefix_append ['\\', '\''] _).isInfix
        have hrest : ¬ ['\\', '\''] <:+: (some '\'').toList ++ (escape '\'' content ++ ['\'']) := by
          intro hpart
          refine h (hpart.trans (List.IsSuffix.isInfix ?_))
          exact ⟨previous.toList ++ ['\''], by simp⟩
        rw [List.cons_append, scan_quote hprevious, List.cons_append, scan_quote (by decide),
          Bool.not_not, ih hrest]
        simp
      · have hescape : escape '\'' (c :: content) = c :: escape '\'' content := by
          unfold escape
          rw [List.flatMap_cons, if_neg hc]
          rfl
        rw [hescape] at h ⊢
        have hrest : ¬ ['\\', '\''] <:+: (some c).toList ++ (escape '\'' content ++ ['\'']) := by
          intro hpart
          refine h (hpart.trans (List.IsSuffix.isInfix ?_))
          exact ⟨previous.toList, by simp⟩
        rw [List.cons_append, scan_plain (fun _ => hc) (fun h => absurd h (by decide))
          (fun h => absurd h (by decide)), ih hrest]
        simp

/-- The rest of a body, from behind its first dollars on. -/
theorem scan_body {text : List Char} (h : ¬ ['$', '$'] <:+: text ++ ['$']) :
    scan previous false current false true (text ++ '$' :: '$' :: rest) =
      scan (some '$') false (current ++ (text ++ ['$', '$'])) false false rest := by
  induction text generalizing previous current with
  | nil => exact scan_dollars
  | cons c text ih =>
      have hrest : ¬ ['$', '$'] <:+: text ++ ['$'] :=
        fun hpart => h (hpart.trans (List.suffix_cons c _).isInfix)
      have hdollar : c = '$' → (text ++ '$' :: '$' :: rest).head? ≠ some '$' := by
        rintro rfl hhead
        refine h (List.IsPrefix.isInfix ?_)
        cases text with
        | nil => exact List.prefix_refl _
        | cons d text =>
            rw [List.cons_append, List.head?_cons, Option.some.injEq] at hhead
            subst hhead
            exact List.prefix_append ['$', '$'] _
      rw [List.cons_append, scan_plain (fun h => absurd h (by decide)) (fun _ => hdollar)
        (fun _ h => absurd h (by decide)), ih hrest]
      simp

/-- The quote that opens a literal is no backslash. -/
theorem not_infix_quote_cons {text : List Char} (h : ¬ ['\\', '\''] <:+: text) :
    ¬ ['\\', '\''] <:+: (some '\'').toList ++ text := by
  intro hpart
  rcases List.infix_cons_iff.mp hpart with hfront | htail
  · exact absurd (List.cons_prefix_cons.mp hfront).1 (by decide)
  · exact h htail

/-- A quote that follows is read as one. -/
def Ready (previous : Option Char) (rest : List Char) : Prop :=
  previous ≠ some '\\' ∨ rest.head? ≠ some '\''

/-- Balanced text leaves the flags down. -/
theorem scan_balanced {text : List Char} (h : Balanced text)
    (hready : Ready previous text)
    (hrest : rest.head? ≠ some '$' ∧ rest.head? ≠ some '\'') :
    ∃ last, scan previous false current false false (text ++ rest) =
      scan last false (current ++ text) false false rest := by
  induction h generalizing previous current with
  | nil => exact ⟨previous, by simp⟩
  | @char c text hquote hsemicolon hpair _ ih =>
      have hdollar : c = '$' → (text ++ rest).head? ≠ some '$' := by
        rintro rfl hhead
        cases text with
        | nil => exact hrest.1 hhead
        | cons d text =>
            rw [List.cons_append, List.head?_cons] at hhead
            rw [List.head?_cons, hhead] at hpair
            exact hpair (by decide)
      have hready : Ready (some c) text := by
        by_cases hbackslash : c = '\\'
        · subst hbackslash
          refine .inr fun hhead => ?_
          rw [hhead] at hpair
          exact hpair (by decide)
        · exact .inl (fun hc => hbackslash (Option.some.inj hc))
      obtain ⟨last, hlast⟩ := @ih (some c) (current ++ [c]) hready
      refine ⟨last, ?_⟩
      rw [List.cons_append, scan_plain (fun _ => hquote) (fun _ => hdollar)
        (fun _ _ => hsemicolon), hlast, List.append_assoc]
      rfl
  | @quoted content text hquotes _ ih =>
      have hprevious : previous ≠ some '\\' := hready.resolve_right (not_not.mpr rfl)
      have hinner := not_infix_quote_cons hquotes
      obtain ⟨last, hlast⟩ :=
        @ih (some '\'') (current ++ ['\''] ++ (escape '\'' content ++ ['\''])) (.inl (by decide))
      refine ⟨last, ?_⟩
      have htext :
          ('\'' :: escape '\'' content ++ '\'' :: text) ++ rest =
            '\'' :: (escape '\'' content ++ '\'' :: (text ++ rest)) := by
        simp
      rw [htext, scan_quote hprevious, Bool.not_false, scan_literal hinner, hlast]
      simp
  | @dollars inner text hdollars _ ih =>
      obtain ⟨last, hlast⟩ :=
        @ih (some '$') (current ++ ['$', '$'] ++ (inner ++ ['$', '$'])) (.inl (by decide))
      refine ⟨last, ?_⟩
      have htext :
          ('$' :: '$' :: inner ++ '$' :: '$' :: text) ++ rest =
            '$' :: '$' :: (inner ++ '$' :: '$' :: (text ++ rest)) := by
        simp
      rw [htext, scan_dollars, Bool.not_false, scan_body hdollars, hlast]
      simp

/-- A token leaves the flags down. -/
theorem scan_token {token : SqlToken}
    (hsep : token.isSeparator = false)
    (hfits : token.Fits rest.head?)
    (hregular : token.Regular)
    (hready : Ready previous (token.render ++ rest)) :
    ∃ last, scan previous false current false false (token.render ++ rest) =
        scan last false (current ++ token.render) false false rest ∧
      Ready last rest := by
  cases token with
  | plain c =>
      obtain ⟨hplain, hnext⟩ := hfits
      simp only [List.mem_cons, List.not_mem_nil, or_false, not_or] at hplain
      obtain ⟨hquote, -, hsemicolon, hbackslash⟩ := hplain
      have hdollar : c = '$' → rest.head? ≠ some '$' := by
        rintro rfl hhead
        rw [hhead] at hnext
        exact hnext (by decide)
      refine ⟨some c, ?_, .inl fun hc => hbackslash (Option.some.inj hc)⟩
      exact scan_plain (fun _ => hquote) (fun _ => hdollar) (fun _ _ => hsemicolon)
  | literal content =>
      have hprevious : previous ≠ some '\\' := hready.resolve_right (not_not.mpr rfl)
      have hinner := not_infix_quote_cons hregular
      have htext : (SqlToken.literal content).render ++ rest =
          '\'' :: (escape '\'' content ++ '\'' :: rest) := by
        simp [SqlToken.render]
      refine ⟨some '\'', ?_, .inl (by decide)⟩
      rw [htext, scan_quote hprevious, Bool.not_false, scan_literal hinner]
      simp [SqlToken.render]
  | identifier name =>
      have htext : (SqlToken.identifier name).render ++ rest =
          '"' :: (escape '"' name ++ '"' :: rest) := by
        simp [SqlToken.render]
      obtain ⟨last, hlast⟩ :=
        @scan_balanced (some '"') (current ++ ['"']) ('"' :: rest) _ hregular
          (.inl (by decide)) (by simp)
      refine ⟨some '"', ?_, .inl (by decide)⟩
      rw [htext, scan_other (by decide), hlast, scan_other (by decide)]
      simp [SqlToken.render]
  | body text =>
      have htext : (SqlToken.body text).render ++ rest =
          '$' :: '$' :: (text ++ '$' :: '$' :: rest) := by
        simp [SqlToken.render]
      refine ⟨some '$', ?_, .inl (by decide)⟩
      rw [htext, scan_dollars, Bool.not_false, scan_body hfits]
      simp [SqlToken.render]
  | lineComment text =>
      have htext : (SqlToken.lineComment text).render ++ rest = '-' :: '-' :: (text ++ rest) := by
        simp [SqlToken.render]
      have hend : rest.head? ≠ some '$' ∧ rest.head? ≠ some '\'' := by
        rcases hfits.2 with hnone | hnewline
        · rw [hnone]
          exact ⟨nofun, nofun⟩
        · rw [hnewline]
          decide
      obtain ⟨last, hlast⟩ :=
        @scan_balanced (some '-') (current ++ ['-'] ++ ['-']) rest _ hregular
          (.inl (by decide)) hend
      refine ⟨last, ?_, .inr hend.2⟩
      rw [htext, scan_other (by decide), scan_other (by decide), hlast]
      simp [SqlToken.render]
  | blockComment text =>
      have htext : (SqlToken.blockComment text).render ++ rest =
          '/' :: '*' :: (text ++ '*' :: '/' :: rest) := by
        simp [SqlToken.render]
      obtain ⟨last, hlast⟩ :=
        @scan_balanced (some '*') (current ++ ['/'] ++ ['*']) ('*' :: '/' :: rest) _ hregular
          (.inl (by decide)) (by simp)
      refine ⟨some '/', ?_, .inl (by decide)⟩
      rw [htext, scan_other (by decide), scan_other (by decide), hlast, scan_other (by decide),
        scan_other (by decide)]
      simp [SqlToken.render]
  | separator => cases hsep

end Scan

/-! ## Texts -/

theorem pieces_separator (tokens : List SqlToken) :
    pieces (.separator :: tokens) = [] :: pieces tokens := by
  unfold pieces
  rw [List.splitOnP_cons_eq_if_modifyHead]
  rfl

theorem pieces_token {token : SqlToken} (h : token.isSeparator = false) (tokens : List SqlToken) :
    pieces (token :: tokens) = (pieces tokens).modifyHead (token.render ++ ·) := by
  unfold pieces
  rw [List.splitOnP_cons_eq_if_modifyHead, if_neg (by rw [h]; exact Bool.false_ne_true)]
  obtain ⟨first, others, hsplit⟩ :=
    List.exists_cons_of_ne_nil (List.splitOnP_ne_nil SqlToken.isSeparator tokens)
  rw [hsplit]
  rfl

/-- The scan of a text whose tokens are regular gives its pieces. -/
theorem scan_render {tokens : List SqlToken} {previous : Option Char} {current : List Char}
    (hwell : WellFormed tokens)
    (hregular : ∀ token ∈ tokens, token.Regular)
    (hready : Ready previous (render tokens)) :
    scan previous false current false false (render tokens) =
      ((pieces tokens).modifyHead (current ++ ·)).flatMap piece := by
  induction tokens generalizing previous current with
  | nil =>
      rw [← List.append_nil current]
      simp [render, pieces, scan]
  | cons token tokens ih =>
      obtain ⟨hfits, hrest⟩ := hwell
      rw [List.forall_mem_cons] at hregular
      have hrender : render (token :: tokens) = token.render ++ render tokens := rfl
      rw [hrender] at hready ⊢
      cases hsep : token.isSeparator with
      | true =>
          obtain rfl : token = .separator := by
            cases token with
            | separator => rfl
            | _ => cases hsep
          have hsame : (pieces tokens).modifyHead ([] ++ ·) = pieces tokens := by
            cases pieces tokens <;> rfl
          have htail := @ih (some ';') [] hrest hregular.2 (.inl (by decide))
          rw [hsame] at htail
          rw [pieces_separator, List.modifyHead_cons, List.flatMap_cons, List.append_nil, ← htail]
          exact scan_semicolon
      | false =>
          obtain ⟨last, hlast, hnext⟩ :=
            @scan_token previous current (render tokens) token hsep hfits hregular.1 hready
          rw [hlast, ih hrest hregular.2 hnext, pieces_token hsep, List.modifyHead_modifyHead]
          congr 2
          funext text
          simp

/-- Texts of regular tokens are cut between their statements. -/
theorem splitSqlStatements_render {tokens : List SqlToken}
    (hwell : WellFormed tokens)
    (hregular : ∀ token ∈ tokens, token.Regular) :
    splitSqlStatements (String.ofList (render tokens)) = statements tokens := by
  have hpieces : ∀ texts : List (List Char),
      texts.flatMap piece = texts.filter fun text => !text.all Text.isWhiteSpace := by
    intro texts
    induction texts with
    | nil => rfl
    | cons text texts ih =>
        rw [List.flatMap_cons, ih, List.filter_cons]
        unfold piece
        cases text.all Text.isWhiteSpace <;> rfl
  have hsame : (pieces tokens).modifyHead ([] ++ ·) = pieces tokens := by
    cases pieces tokens <;> rfl
  unfold splitSqlStatements statements
  rw [String.toList_ofList, scan_render hwell hregular (.inl (by decide)), hsame, hpieces]

/-! ## An apostrophe in a comment -/

/-- `-- don't⏎a;b` -/
def apostropheTokens : List SqlToken :=
  [.lineComment " don't".toList, .plain '\n', .plain 'a', .separator, .plain 'b']

/-- `-- it's John's⏎a;'x;y'` -/
def closedTokens : List SqlToken :=
  [.lineComment " it's John's".toList, .plain '\n', .plain 'a', .separator,
    .literal "x;y".toList]

theorem regular_closedTokens : ∀ token ∈ closedTokens, token.Regular := by
  have hquoted : Balanced ('\'' :: escape '\'' ['s', ' ', 'J', 'o', 'h', 'n'] ++ '\'' :: ['s']) :=
    .quoted (by decide) (.char (by decide) (by decide) (by decide) .nil)
  have hcomment : Balanced " it's John's".toList := by
    rw [String.toList_ofList]
    exact .char (by decide) (by decide) (by decide) (.char (by decide) (by decide) (by decide)
      (.char (by decide) (by decide) (by decide) hquoted))
  have hliteral : ¬ ['\\', '\''] <:+: escape '\'' "x;y".toList ++ ['\''] := by
    rw [String.toList_ofList]
    decide
  unfold closedTokens
  simp only [List.forall_mem_cons]
  exact ⟨hcomment, trivial, trivial, trivial, hliteral, List.forall_mem_nil _⟩

theorem splitSqlStatements_render_closed :
    splitSqlStatements (String.ofList (render closedTokens)) = statements closedTokens :=
  splitSqlStatements_render (by decide) regular_closedTokens

/-- A comment with one apostrophe hides the semicolon behind it. -/
theorem not_splitSqlStatements_render :
    ¬ ∀ tokens, WellFormed tokens →
      splitSqlStatements (String.ofList (render tokens)) = statements tokens := by
  intro h
  have hwell : WellFormed apostropheTokens := by decide
  have hlength := congrArg List.length (h apostropheTokens hwell)
  exact absurd hlength (by decide)

end Migrations
end NestBase
