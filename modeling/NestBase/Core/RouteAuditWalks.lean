import Mathlib.Data.List.Find
import NestBase.Core.RouteAuditScans

/-!
# The walk to the handler over comments

From an HTTP decorator in code the planner walks on to the handler.  It skips the comments
between decorators, but not one between the name of a decorator and its parenthesis: there
it gives up.  So where it finds a handler it finds the same one when the comments are
blanked, below the same decorators, each with the same arguments up to their own comments
(`routeAhead_blankComments`).
-/

namespace NestBase
namespace Core
namespace RouteAudit

open Lib.MarkedText

/-! ## Characters that show as they are -/

section Shown

variable {p : Char → Bool}

/-- The characters are part of no comment and of no literal. -/
def Bare (p : Char → Bool) : Prop :=
  ∀ c, p c = true → c ≠ '/' ∧ isQuote c = false

variable {c : Char}

theorem isWord_cases (h : isWord c = true) : c.isAlphanum = true ∨ c = '_' := by
  simpa [isWord] using h

theorem bare_isNameChar : Bare isNameChar := by
  intro c hc
  constructor
  · rintro rfl
    exact absurd hc (by decide)
  · by_contra hcontra
    rw [Bool.not_eq_false] at hcontra
    simp only [isQuote, Bool.or_eq_true, beq_iff_eq] at hcontra
    obtain (rfl | rfl) | rfl := hcontra <;> exact absurd hc (by decide)

theorem isNameChar_of_isBlank (h : isBlank c = true) : isNameChar c = false := by
  obtain rfl | rfl | rfl | rfl := isBlank_cases h <;> decide

theorem bare_isGap : Bare isGap := by
  intro c hc
  obtain rfl | rfl : c = ' ' ∨ c = '\t' := by simpa [isGap] using hc
  · decide
  · decide

theorem passesTo_bare
    {rest : List Char}
    (hslash : c ≠ '/')
    (hquote : isQuote c = false)
    (hplain : plainComments .code (c :: rest) = true) :
    PassesTo (c :: rest) 1 [c] :=
  passesTo_char (opensComment_cons_of_ne hslash rest) hquote hplain

theorem blankComments_cons
    {rest : List Char}
    (hslash : c ≠ '/')
    (hquote : isQuote c = false)
    (hplain : plainComments .code (c :: rest) = true) :
    blankComments (c :: rest) = c :: blankComments rest ∧ plainComments .code rest = true :=
  have hpass := passesTo_bare hslash hquote hplain
  ⟨hpass.blankComments_eq, hpass.plain⟩

/-- A run of such characters is the same when the comments are blanked. -/
theorem takeWhile_blankComments
    {source : List Char}
    (hbare : Bare p)
    (hblank : ∀ c, isBlank c = true → p c = false)
    (hplain : plainComments .code source = true) :
    (blankComments source).takeWhile p = source.takeWhile p ∧
      (blankComments source).dropWhile p = blankComments (source.dropWhile p) ∧
        plainComments .code (source.dropWhile p) = true := by
  induction source with
  | nil => exact ⟨rfl, rfl, rfl⟩
  | cons c rest ih =>
      cases hc : p c with
      | true =>
          obtain ⟨hslash, hquote⟩ := hbare c hc
          obtain ⟨hshown, hrest⟩ := blankComments_cons hslash hquote hplain
          obtain ⟨htake, hdrop, hafter⟩ := ih hrest
          rw [hshown, List.takeWhile_cons_of_pos hc, List.takeWhile_cons_of_pos hc,
            List.dropWhile_cons_of_pos hc, List.dropWhile_cons_of_pos hc, htake]
          exact ⟨rfl, hdrop, hafter⟩
      | false =>
          have hfirst : ∃ shown tail, blankComments (c :: rest) = shown :: tail ∧ p shown = false := by
            refine ⟨_, _, rfl, ?_⟩
            cases hcomment : Marked.isComment ⟨c, (step .code c rest.head?).1⟩ with
            | true => exact hblank _ (isBlank_blank hcomment)
            | false =>
                rw [blank_of_not_isComment hcomment]
                exact hc
          have hnot : ¬p c = true := by simp [hc]
          obtain ⟨shown, tail, hshown, hstop⟩ := hfirst
          have hstop' : ¬p shown = true := by simp [hstop]
          rw [List.takeWhile_cons_of_neg hnot, List.dropWhile_cons_of_neg hnot, hshown,
            List.takeWhile_cons_of_neg hstop', List.dropWhile_cons_of_neg hstop']
          exact ⟨rfl, rfl, hplain⟩

/-- Blanks in front stay in front. -/
theorem blankComments_dropWhile_isGap
    {source : List Char}
    (hplain : plainComments .code source = true) :
    blankComments source = source.takeWhile isGap ++ blankComments (source.dropWhile isGap) ∧
      plainComments .code (source.dropWhile isGap) = true := by
  induction source with
  | nil => exact ⟨rfl, rfl⟩
  | cons c rest ih =>
      cases hc : isGap c with
      | true =>
          obtain ⟨hslash, hquote⟩ := bare_isGap c hc
          obtain ⟨hshown, hrest⟩ := blankComments_cons hslash hquote hplain
          obtain ⟨hgap, hafter⟩ := ih hrest
          rw [List.takeWhile_cons_of_pos hc, List.dropWhile_cons_of_pos hc, hshown,
            List.cons_append, ← hgap]
          exact ⟨rfl, hafter⟩
      | false =>
          have hnot : ¬isGap c = true := by simp [hc]
          rw [List.takeWhile_cons_of_neg hnot, List.dropWhile_cons_of_neg hnot]
          exact ⟨rfl, hplain⟩

end Shown

/-! ## The loop of the walk -/

section Walk

attribute [local simp] walkForward

theorem walkForward_skip (skip : Nat) (text : List Char) :
    walkForward skip text = walkForward 0 (text.drop skip) := by
  induction skip generalizing text with
  | zero => rw [List.drop_zero]
  | succ skip ih =>
      cases text with
      | nil => rfl
      | cons c rest => rw [walkForward, ih, List.drop_succ_cons]

variable {c : Char}

theorem walkForward_blank (hc : isBlank c = true) (rest : List Char) :
    walkForward 0 (c :: rest) = walkForward 0 rest := by
  simp [hc]

variable {rest source : List Char}

theorem walkForward_blanks {shown : List Char} (hblank : ∀ c ∈ shown, isBlank c = true) :
    walkForward 0 (shown ++ rest) = walkForward 0 rest := by
  induction shown with
  | nil => rfl
  | cons c shown ih =>
      obtain ⟨hc, hshown⟩ := List.forall_mem_cons.mp hblank
      rw [List.cons_append, walkForward_blank hc, ih hshown]

theorem walkForward_dropWhile_isGap (text : List Char) :
    walkForward 0 (text.dropWhile isGap) = walkForward 0 text := by
  conv_rhs => rw [← List.takeWhile_append_dropWhile (p := isGap) (l := text)]
  rw [walkForward_blanks]
  intro c hc
  exact isBlank_of_isGap (List.mem_takeWhile_imp hc)

/-- A decorator below: its name, its arguments when a list follows, and the walk behind it. -/
theorem walkForward_at (rest : List Char) :
    walkForward 0 ('@' :: rest) =
      let name := rest.takeWhile isNameChar
      let behind := (rest.dropWhile isNameChar).dropWhile isGap
      if behind.head? = some '(' then
        match matchClosingParen behind with
        | none => { handlerName := none, decorators := [] }
        | some close =>
            (walkForward 0 (behind.drop (close + 1))).push
              { name := name, args := (behind.take close).drop 1 }
      else (walkForward 0 behind).push { name := name, args := [] } := by
  have hsplit : rest =
      rest.takeWhile isNameChar ++ (rest.dropWhile isNameChar).takeWhile isGap ++
        (rest.dropWhile isNameChar).dropWhile isGap := by
    rw [List.append_assoc, List.takeWhile_append_dropWhile, List.takeWhile_append_dropWhile]
  have hdrop (n : Nat) :
      rest.drop ((rest.takeWhile isNameChar).length +
          ((rest.dropWhile isNameChar).takeWhile isGap).length + n) =
        ((rest.dropWhile isNameChar).dropWhile isGap).drop n := by
    conv_lhs => arg 2; rw [hsplit]
    rw [← List.length_append, ← List.drop_drop, List.drop_left]
  rw [walkForward, if_neg (by decide), if_pos rfl]
  dsimp only
  split
  · cases matchClosingParen ((rest.dropWhile isNameChar).dropWhile isGap) with
    | none => rfl
    | some close =>
        dsimp only
        rw [walkForward_skip, Nat.add_assoc, hdrop]
  · rw [walkForward_skip]
    have hzero := hdrop 0
    rw [Nat.add_zero, List.drop_zero] at hzero
    rw [hzero]

/-- A modifier is passed over, and another word is the handler. -/
theorem walkForward_word
    (hblank : isBlank c = false)
    (hat : c ≠ '@')
    (hopen : opensComment (c :: rest) = false) :
    walkForward 0 (c :: rest) =
      if c.isAlpha || c == '_' || c == '$' then
        if c :: rest.takeWhile isNameChar ∈ MODIFIERS then
          walkForward 0 (rest.dropWhile isNameChar)
        else { handlerName := some (c :: rest.takeWhile isNameChar), decorators := [] }
      else { handlerName := none, decorators := [] } := by
  obtain ⟨hline, hblock⟩ := not_comment_of_opensComment hopen
  have hbehind : rest.drop (rest.takeWhile isNameChar).length = rest.dropWhile isNameChar := by
    conv_lhs => arg 2; rw [← List.takeWhile_append_dropWhile (p := isNameChar) (l := rest)]
    exact List.drop_left
  rw [walkForward, if_neg (by simp [hblank]), if_neg hat, if_neg hline, if_neg hblock, readIdentifier]
  by_cases hstart : (c.isAlpha || c == '_' || c == '$') = true
  · rw [if_pos hstart, if_pos hstart]
    dsimp only
    rw [walkForward_skip, List.length_cons, Nat.add_sub_cancel, hbehind]
  · rw [if_neg hstart, if_neg hstart]

/-- A walk that finds a handler has passed over the comment in front of it. -/
theorem walkForward_comment
    (hopen : opensComment source = true)
    (hfound : (walkForward 0 source).handlerName ≠ none) :
    walkForward 0 source = walkForward 0 (source.drop (skipComment source)) := by
  have hopen' := hopen
  simp only [opensComment, Bool.and_eq_true, Bool.or_eq_true, beq_iff_eq] at hopen'
  obtain ⟨hslash, hsecond⟩ := hopen'
  obtain ⟨tail, rfl⟩ := List.head?_eq_some_iff.mp hslash
  rw [List.tail_cons] at hsecond
  by_cases hline : tail.head? = some '/'
  · have hskip : skipComment ('/' :: tail) = skipLine ('/' :: tail) := if_pos hline
    rw [walkForward, if_neg (by decide), if_neg (by decide), if_pos ⟨rfl, hline⟩] at hfound ⊢
    rw [hskip, skipLine]
    cases heol : ('/' :: tail).findIdx? (· == '\n') with
    | none =>
        rw [heol] at hfound
        exact absurd rfl hfound
    | some eol =>
        dsimp only
        rw [walkForward_skip, List.drop_succ_cons]
  · have hstar : tail.head? = some '*' := hsecond.resolve_left hline
    have hskip : skipComment ('/' :: tail) = skipBlock ('/' :: tail) := if_neg hline
    rw [walkForward, if_neg (by decide), if_neg (by decide), if_neg (fun h => hline h.2),
      if_pos ⟨rfl, hstar⟩] at hfound ⊢
    rw [hskip, skipBlock]
    cases hclose : indexOfClose ('/' :: tail) with
    | none =>
        rw [hclose] at hfound
        exact absurd rfl hfound
    | some close =>
        dsimp only
        rw [walkForward_skip, List.drop_succ_cons]

theorem head?_dropWhile_isGap
    {shown : List Char}
    (hblank : ∀ c ∈ shown, isBlank c = true)
    (h : ((shown ++ rest).dropWhile isGap).head? = some '(') :
    (rest.dropWhile isGap).head? = some '(' := by
  induction shown with
  | nil => exact h
  | cons c shown ih =>
      obtain ⟨hc, hshown⟩ := List.forall_mem_cons.mp hblank
      cases hgap : isGap c with
      | true =>
          rw [List.cons_append, List.dropWhile_cons_of_pos hgap] at h
          exact ih hshown h
      | false =>
          rw [List.cons_append, List.dropWhile_cons_of_neg (by simp [hgap])] at h
          obtain rfl := Option.some.inj h
          cases hc

/-- Where the walk finds a handler, no parenthesis shows when the comments are blanked. -/
theorem not_paren_of_handler
    (hplain : plainComments .code source = true)
    (hfound : (walkForward 0 source).handlerName ≠ none) :
    ((blankComments source).dropWhile isGap).head? ≠ some '(' := by
  refine code_induction (P := fun source =>
    (walkForward 0 source).handlerName ≠ none →
      ((blankComments source).dropWhile isGap).head? ≠ some '(') ?_ ?_ ?_ ?_ hplain hfound
  · intro _ h
    cases h
  · intro c rest hopen hquote hpass ih hfound
    rw [hpass.blankComments_eq, List.singleton_append, List.drop_one, List.tail_cons]
    cases hgap : isGap c with
    | true =>
        rw [List.dropWhile_cons_of_pos hgap]
        rw [walkForward_blank (isBlank_of_isGap hgap)] at hfound
        exact ih hfound
    | false =>
        rw [List.dropWhile_cons_of_neg (by simp [hgap]), List.head?_cons]
        intro hparen
        obtain rfl := Option.some.inj hparen
        rw [walkForward_word (by decide) (by decide) hopen, if_neg (by decide)] at hfound
        exact hfound rfl
  · intro quote rest hquote hpass ih hfound h
    have hskip : skipString (quote :: rest) = skipString.behind quote rest + 1 := Nat.add_comm 1 _
    have hgap : isGap quote = false := by
      by_contra hcontra
      rw [Bool.not_eq_false] at hcontra
      rw [(bare_isGap quote hcontra).2] at hquote
      cases hquote
    rw [hpass.blankComments_eq, hskip, List.take_succ_cons, List.cons_append,
      List.dropWhile_cons_of_neg (by simp [hgap])] at h
    obtain rfl := Option.some.inj h
    cases hquote
  · intro source shown hopen hblank hpass ih hfound h
    rw [hpass.blankComments_eq] at h
    rw [walkForward_comment hopen hfound] at hfound
    exact ih hfound (head?_dropWhile_isGap hblank h)

def Decorator.blank (decorator : Decorator) : Decorator :=
  { decorator with args := blankComments decorator.args }

def ForwardWalk.blank (walk : ForwardWalk) : ForwardWalk :=
  { walk with decorators := walk.decorators.map Decorator.blank }

/-- An argument list is blanked on its own. -/
theorem list_blankComments
    {close : Nat}
    (hplain : plainComments .code ('(' :: source) = true)
    (hclose : matchClosingParen ('(' :: source) = some close) :
    matchClosingParen ('(' :: blankComments source) = some close ∧
      (('(' :: blankComments source).take close).drop 1 =
          blankComments ((('(' :: source).take close).drop 1) ∧
        ('(' :: blankComments source).drop (close + 1) =
            blankComments (('(' :: source).drop (close + 1)) ∧
          plainComments .code (('(' :: source).drop (close + 1)) = true := by
  have hcons := blankComments_cons (by decide) (by decide) hplain
  have hsame : matchClosingParen (blankComments ('(' :: source)) = some close := by
    rw [← hclose]
    exact matchClosing_blankComments (by decide) (by decide) hplain 0
  obtain ⟨hdrop, -, hfront, hpass⟩ :=
    cut_of_code hplain (getElem?_matchClosing hplain hclose) (by decide) (by decide) (by decide)
  have hshown := hpass.blankComments_eq
  have hlength := hpass.length
  obtain ⟨hbehind, hafter⟩ : blankComments (('(' :: source).drop close) =
        ')' :: blankComments (('(' :: source).drop (close + 1)) ∧
      plainComments .code (('(' :: source).drop (close + 1)) = true := by
    have hplain' := hpass.plain
    rw [hdrop] at hplain' ⊢
    exact blankComments_cons (by decide) (by decide) hplain'
  rw [hcons.1] at hsame hshown
  refine ⟨hsame, ?_, ?_, hafter⟩
  · rw [hshown, List.take_left' hlength]
    cases close with
    | zero =>
        -- an opening parenthesis does not close
        rw [List.drop_zero] at hdrop
        cases hdrop
    | succ close =>
        rw [List.take_succ_cons] at hfront ⊢
        rw [(blankComments_cons (by decide) (by decide) hfront).1]
        rfl
  · rw [hshown, hbehind, ← List.drop_drop, List.drop_left' hlength]
    rfl

/-- The walks over what is left of a text go the same way when the comments are blanked. -/
def WalksBlanked (n : Nat) : Prop :=
  ∀ source : List Char, source.length < n → plainComments .code source = true →
    (walkForward 0 source).handlerName ≠ none →
      walkForward 0 (blankComments source) = (walkForward 0 source).blank

/-- One decorator below, before the walk behind it. -/
theorem walkForward_at_blankComments
    (ih : WalksBlanked (rest.length + 1))
    (hrest : plainComments .code rest = true)
    (hfound : (walkForward 0 ('@' :: rest)).handlerName ≠ none) :
    walkForward 0 ('@' :: blankComments rest) = (walkForward 0 ('@' :: rest)).blank := by
  obtain ⟨hname, hbehind, hafter⟩ :=
    takeWhile_blankComments bare_isNameChar (fun _ => isNameChar_of_isBlank) hrest
  have hnameLength := List.length_dropWhile_le isNameChar rest
  have hgapLength := List.length_dropWhile_le isGap (rest.dropWhile isNameChar)
  rw [walkForward_at] at hfound ⊢
  rw [walkForward_at, hname, hbehind]
  dsimp only at hfound ⊢
  by_cases hparen : ((rest.dropWhile isNameChar).dropWhile isGap).head? = some '('
  · obtain ⟨hgap, hlist⟩ := blankComments_dropWhile_isGap hafter
    rw [if_pos hparen] at hfound ⊢
    obtain ⟨inside, hinside⟩ := List.head?_eq_some_iff.mp hparen
    rw [hinside] at hfound hgap hlist hgapLength ⊢
    have hstart : (blankComments (rest.dropWhile isNameChar)).dropWhile isGap =
        '(' :: blankComments inside := by
      rw [hgap, (blankComments_cons (by decide) (by decide) hlist).1,
        List.dropWhile_append_of_pos fun c hc => List.mem_takeWhile_imp hc]
      rfl
    rw [hstart, List.head?_cons, if_pos rfl]
    cases hclose : matchClosingParen ('(' :: inside) with
    | none =>
        rw [hclose] at hfound
        exact absurd rfl hfound
    | some close =>
        rw [hclose] at hfound
        obtain ⟨hsame, hargs, hdrop, hlater⟩ := list_blankComments hlist hclose
        have hshorter : (('(' :: inside).drop (close + 1)).length < rest.length + 1 := by
          rw [List.length_drop]
          omega
        rw [hsame]
        dsimp only
        rw [hargs, hdrop, ih _ hshorter hlater hfound]
        rfl
  · rw [if_neg hparen] at hfound ⊢
    have hfound' : (walkForward 0 (rest.dropWhile isNameChar)).handlerName ≠ none := by
      rw [← walkForward_dropWhile_isGap]
      exact hfound
    have hshorter : (rest.dropWhile isNameChar).length < rest.length + 1 := by omega
    rw [if_neg (not_paren_of_handler hafter hfound'), walkForward_dropWhile_isGap,
      walkForward_dropWhile_isGap, ih _ hshorter hafter hfound']
    rfl

/-- A modifier before the walk behind it, or the handler. -/
theorem walkForward_word_blankComments
    (ih : WalksBlanked (rest.length + 1))
    (hrest : plainComments .code rest = true)
    (hblank : isBlank c = false)
    (hat : c ≠ '@')
    (hopen : opensComment (c :: rest) = false)
    (hfound : (walkForward 0 (c :: rest)).handlerName ≠ none) :
    walkForward 0 (c :: blankComments rest) = (walkForward 0 (c :: rest)).blank := by
  obtain ⟨hname, hbehind, hafter⟩ :=
    takeWhile_blankComments bare_isNameChar (fun _ => isNameChar_of_isBlank) hrest
  have hshorter : (rest.dropWhile isNameChar).length < rest.length + 1 :=
    Nat.lt_succ_of_le (List.length_dropWhile_le _ _)
  rw [walkForward_word hblank hat hopen] at hfound ⊢
  rw [walkForward_word hblank hat (opensComment_blankComments hopen), hname, hbehind]
  split
  · next hstart =>
      rw [if_pos hstart] at hfound
      split
      · next hmodifier =>
          rw [if_pos hmodifier] at hfound
          exact ih _ hshorter hafter hfound
      · rfl
  · rfl

/-- A walk that finds a handler goes the same way when the comments are blanked. -/
theorem walkForward_blankComments
    (hplain : plainComments .code source = true)
    (hfound : (walkForward 0 source).handlerName ≠ none) :
    walkForward 0 (blankComments source) = (walkForward 0 source).blank := by
  induction hn : source.length using Nat.strong_induction_on generalizing source with
  | _ n ih =>
  subst hn
  have hlater : WalksBlanked source.length := fun later hlt hplain' hfound' =>
    ih _ hlt hplain' hfound' rfl
  cases codeView hplain with
  | nil => exact absurd rfl hfound
  | @literal quote rest hquote hpass =>
      -- no handler starts with a quote
      simp only [isQuote, Bool.or_eq_true, beq_iff_eq] at hquote
      obtain (rfl | rfl) | rfl := hquote <;>
        exact absurd (congrArg ForwardWalk.handlerName
          (walkForward_word (by decide) (by decide) (opensComment_cons_of_ne (by decide) rest)))
          hfound
  | @comment source shown hopen hblank hpass =>
      have hpos := skipComment_pos hopen
      have hle := hpass.le
      have hsame := walkForward_comment hopen hfound
      rw [hsame] at hfound
      rw [hpass.blankComments_eq, walkForward_blanks hblank, hsame]
      refine hlater _ ?_ hpass.plain hfound
      rw [List.length_drop]
      omega
  | @char c rest hopen hquote hpass =>
      have hrest : plainComments .code rest = true := hpass.plain
      have hshown : blankComments (c :: rest) = c :: blankComments rest := hpass.blankComments_eq
      rw [hshown]
      by_cases hblank : isBlank c = true
      · rw [walkForward_blank hblank] at hfound ⊢
        rw [walkForward_blank hblank]
        exact hlater _ (Nat.lt_succ_self _) hrest hfound
      by_cases hat : c = '@'
      · subst hat
        exact walkForward_at_blankComments hlater hrest hfound
      · rw [Bool.not_eq_true] at hblank
        exact walkForward_word_blankComments hlater hrest hblank hat hopen hfound

end Walk

/-! ## What is read from an HTTP decorator on -/

section Ahead

def RouteAhead.blank (route : RouteAhead) : RouteAhead :=
  { route with
    argsRaw := blankComments route.argsRaw
    decorators := route.decorators.map Decorator.blank }

variable {source : List Char}

/-- A word without slashes, quotes and blanks is there before the comments are blanked. -/
theorem isPrefixOf_blankComments
    {word : List Char}
    (hword : ∀ c ∈ word, c ≠ '/' ∧ isQuote c = false ∧ isBlank c = false)
    (hplain : plainComments .code source = true) :
    word.isPrefixOf (blankComments source) = word.isPrefixOf source ∧
      (word.isPrefixOf source = true →
        (blankComments source).drop word.length = blankComments (source.drop word.length) ∧
          plainComments .code (source.drop word.length) = true) := by
  induction word generalizing source with
  | nil => exact ⟨by simp, fun _ => ⟨rfl, hplain⟩⟩
  | cons w word ih =>
      obtain ⟨⟨hslash, hquote, hblank⟩, hrest⟩ := List.forall_mem_cons.mp hword
      cases source with
      | nil => exact ⟨rfl, fun h => by cases h⟩
      | cons c source =>
          by_cases hsame : w = c
          · subst hsame
            obtain ⟨hshown, hlater⟩ := blankComments_cons hslash hquote hplain
            obtain ⟨hword, hdrop⟩ := ih hrest hlater
            rw [hshown, List.isPrefixOf_cons_cons, List.isPrefixOf_cons_cons, hword, beq_self_eq_true,
              Bool.true_and, List.length_cons, List.drop_succ_cons, List.drop_succ_cons]
            exact ⟨rfl, hdrop⟩
          · have hnot : (w :: word).isPrefixOf (c :: source) = false := by
              simp [List.isPrefixOf_cons_cons, hsame]
            refine ⟨?_, fun h => by rw [hnot] at h; cases h⟩
            rw [hnot]
            by_contra hcontra
            rw [Bool.not_eq_false, List.isPrefixOf_iff_prefix] at hcontra
            obtain ⟨tail, htail⟩ := hcontra
            have hhead : (blankComments (c :: source)).head? = some w := by
              rw [← htail]
              rfl
            exact hsame (Option.some.inj (head?_blankComments hhead hblank)).symm

theorem any_isWord_blankComments (hplain : plainComments .code source = true) :
    (blankComments source).head?.any isWord = source.head?.any isWord := by
  cases source with
  | nil => rfl
  | cons c rest =>
      cases hc : isWord c with
      | true =>
          have hname : isNameChar c = true := by simp [isNameChar, hc]
          obtain ⟨hslash, hquote⟩ := bare_isNameChar c hname
          rw [(blankComments_cons hslash hquote hplain).1]
          rfl
      | false =>
          rw [List.head?_cons, Option.any_some, hc]
          by_contra hcontra
          rw [Bool.not_eq_false, Option.any_eq_true] at hcontra
          obtain ⟨d, hd, hword⟩ := hcontra
          have hblank : isBlank d = false := by
            by_contra hcontra
            rw [Bool.not_eq_false] at hcontra
            have hnot := isNameChar_of_isBlank hcontra
            simp [isNameChar, hword] at hnot
          have hsame := head?_blankComments hd hblank
          obtain rfl := Option.some.inj hsame
          rw [hc] at hword
          cases hword

theorem of_mem_methodName {name : List Char} (hname : name ∈ HTTP_METHOD_DECORATORS) :
    ∀ c ∈ '@' :: name, c ≠ '/' ∧ isQuote c = false ∧ isBlank c = false := by
  have hall : (HTTP_METHOD_DECORATORS.all fun name =>
      ('@' :: name).all fun c => c != '/' && !isQuote c && !isBlank c) = true := by decide
  intro c hc
  have hchar := List.all_eq_true.mp (List.all_eq_true.mp hall name hname) c hc
  simpa [and_assoc] using hchar

theorem httpDecorator_blankComments (hplain : plainComments .code source = true) :
    httpDecorator (blankComments source) = httpDecorator source := by
  unfold httpDecorator
  have hsame : ∀ name ∈ HTTP_METHOD_DECORATORS,
      (('@' :: name).isPrefixOf (blankComments source) &&
          !(((blankComments source).drop (1 + name.length)).head?.any isWord)) =
        (('@' :: name).isPrefixOf source &&
          !((source.drop (1 + name.length)).head?.any isWord)) := by
    intro name hname
    obtain ⟨hword, hdrop⟩ := isPrefixOf_blankComments (of_mem_methodName hname) hplain
    rw [hword]
    cases hstarts : ('@' :: name).isPrefixOf source with
    | false => rfl
    | true =>
        obtain ⟨hbehind, hlater⟩ := hdrop hstarts
        rw [List.length_cons, Nat.add_comm] at hbehind hlater
        rw [hbehind, any_isWord_blankComments hlater]
  exact List.find?_congr hsame

/-- The text behind the name of an HTTP decorator. -/
theorem drop_of_httpDecorator
    {name : List Char}
    (hplain : plainComments .code source = true)
    (hname : httpDecorator source = some name) :
    (blankComments source).drop (1 + name.length) =
        blankComments (source.drop (1 + name.length)) ∧
      plainComments .code (source.drop (1 + name.length)) = true := by
  unfold httpDecorator at hname
  have hfound := List.find?_some hname
  have hstarts : ('@' :: name).isPrefixOf source = true := (Bool.and_eq_true_iff.mp hfound).1
  have hdrop :=
    (isPrefixOf_blankComments
      (of_mem_methodName (List.mem_of_find?_eq_some hname)) hplain).2 hstarts
  rw [List.length_cons, Nat.add_comm] at hdrop
  exact hdrop

/-- The end of a decorator with a handler behind it, when the comments are blanked. -/
theorem decoratorEnd_blankComments
    {behind args : List Char} {length : Nat}
    (hplain : plainComments .code behind = true)
    (hend : decoratorEnd behind = some (args, length))
    (hfound : (walkForward 0 (behind.drop length)).handlerName ≠ none) :
    decoratorEnd (blankComments behind) = some (blankComments args, length) ∧
      (blankComments behind).drop length = blankComments (behind.drop length) ∧
        plainComments .code (behind.drop length) = true := by
  obtain ⟨hgap, hlist⟩ := blankComments_dropWhile_isGap hplain
  have hsplit : behind.takeWhile isGap ++ behind.dropWhile isGap = behind :=
    List.takeWhile_append_dropWhile
  unfold decoratorEnd at hend ⊢
  dsimp only at hend ⊢
  by_cases hparen : (behind.dropWhile isGap).head? = some '('
  · rw [if_pos hparen] at hend
    obtain ⟨inside, hinside⟩ := List.head?_eq_some_iff.mp hparen
    rw [hinside] at hend hgap hlist hsplit
    obtain ⟨close, hclose, hresult⟩ := Option.map_eq_some_iff.mp hend
    obtain ⟨rfl, rfl⟩ := Prod.mk.inj hresult
    obtain ⟨hsame, hargs, hdrop, hlater⟩ := list_blankComments hlist hclose
    rw [(blankComments_cons (by decide) (by decide) hlist).1] at hgap
    have hgaps : ∀ c ∈ behind.takeWhile isGap, isGap c = true := fun c hc =>
      List.mem_takeWhile_imp hc
    have htake : (blankComments behind).takeWhile isGap = behind.takeWhile isGap := by
      rw [hgap, List.takeWhile_append_of_pos hgaps, List.takeWhile_cons_of_neg (by decide),
        List.append_nil]
    have hstart : (blankComments behind).dropWhile isGap = '(' :: blankComments inside := by
      rw [hgap, List.dropWhile_append_of_pos hgaps]
      rfl
    rw [hstart, htake, List.head?_cons, if_pos rfl, hsame, Option.map_some, hargs]
    have hbehind : behind.drop ((behind.takeWhile isGap).length + close + 1) =
        ('(' :: inside).drop (close + 1) := by
      conv_lhs => arg 2; rw [← hsplit]
      rw [Nat.add_assoc, ← List.drop_drop, List.drop_left]
    refine ⟨rfl, ?_, ?_⟩
    · rw [hbehind, ← hdrop, hgap, Nat.add_assoc, ← List.drop_drop, List.drop_left]
    · rw [hbehind]
      exact hlater
  · rw [if_neg hparen] at hend
    obtain ⟨rfl, rfl⟩ := Prod.mk.inj (Option.some.inj hend)
    rw [if_neg (not_paren_of_handler hplain hfound)]
    exact ⟨rfl, rfl, hplain⟩

/-- What is read from an HTTP decorator in code on, when the comments are blanked. -/
theorem routeAhead_blankComments
    {route : RouteAhead}
    (hplain : plainComments .code source = true)
    (hroute : routeAhead source = some route) :
    routeAhead (blankComments source) = some route.blank := by
  unfold routeAhead walkForwardCollectDecorators at hroute ⊢
  obtain ⟨name, hname, hroute⟩ := Option.bind_eq_some_iff.mp hroute
  obtain ⟨⟨args, length⟩, hend, hroute⟩ := Option.bind_eq_some_iff.mp hroute
  obtain ⟨handler, hhandler, rfl⟩ := Option.map_eq_some_iff.mp hroute
  obtain ⟨hbehind, hlater⟩ := drop_of_httpDecorator hplain hname
  have hsplit (text : List Char) :
      text.drop (1 + name.length + length) = (text.drop (1 + name.length)).drop length :=
    List.drop_drop.symm
  have hfound : (walkForward 0 ((source.drop (1 + name.length)).drop length)).handlerName ≠ none := by
    rw [← hsplit]
    exact ne_of_eq_of_ne hhandler (Option.some_ne_none handler)
  obtain ⟨hend', hdrop, hrest⟩ := decoratorEnd_blankComments hlater hend hfound
  have hwalk : walkForward 0 ((blankComments source).drop (1 + name.length + length)) =
      (walkForward 0 (source.drop (1 + name.length + length))).blank := by
    rw [hsplit, hsplit, hbehind, hdrop]
    exact walkForward_blankComments hrest hfound
  rw [httpDecorator_blankComments hplain, hname, Option.bind_some, hbehind, hend', Option.bind_some]
  dsimp only
  rw [hwalk]
  exact Option.map_eq_some_iff.mpr ⟨handler, hhandler, rfl⟩

end Ahead

end RouteAudit
end Core
end NestBase
