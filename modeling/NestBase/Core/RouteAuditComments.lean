import NestBase.Core.RouteAuditReads

/-!
# Comments and the route audit

Blanking the comments of a source should change no finding but those of routes that are
themselves commented out.  It does: the walk backwards knows no comments and collects a
decorator from a line that is commented out, so that `// @Can("read", "X")` above
`@Get()` gates the route.  The regular expressions read comments as well.

What the comments of a source are is given with it (`Commented`).  The scans of the planner
know no regular expression literals and no code in templates, so they may see others.  Where
they see the same ones and none stands in what is read without skipping (`undisturbed`), the
findings stay as they are: the scans forwards pass over every other comment.
-/

namespace NestBase
namespace Core
namespace RouteAudit

open Lib.MarkedText
open Lib.Text (isWhiteSpace)

/-! ## Blanking the comments -/

/-- A source with its comments marked, as the language has them. -/
structure Commented extends ParseControllerSourceInput where
  marks : List Marked
  text_marks : text marks = source

/-- The index stands in no comment. -/
def outsideComments (marks : List Marked) (index : Nat) : Bool :=
  !(marks[index]?.any Marked.isComment)

/-- Blanking the comments leaves the findings of the routes outside of comments. -/
def CommentsInert (input : Commented) : Prop :=
  ((locatedFindings input.toParseControllerSourceInput).filter fun located =>
      outsideComments input.marks located.1).map Prod.snd =
    parseControllerSource
      { input.toParseControllerSourceInput with source := blanked input.marks }

instance (input : Commented) : Decidable (CommentsInert input) :=
  inferInstanceAs (Decidable (_ = _))

/-- The scans of the planner see the comments that the source has. -/
def SeenAsMarked (input : Commented) : Prop :=
  input.marks.map Marked.isComment = (mark .code input.source).map Marked.isComment

theorem SeenAsMarked.outsideComments_eq {input : Commented} (h : SeenAsMarked input) (index : Nat) :
    outsideComments input.marks index = outsideComments (mark .code input.source) index := by
  have hindex := congrArg (·[index]?) h
  simp only [List.getElem?_map] at hindex
  unfold outsideComments
  cases hleft : input.marks[index]? <;> cases hright : (mark .code input.source)[index]? <;>
    simp_all

/-! ## The controllers -/

section Controllers

variable {source : List Char}

theorem PassesTo.drop_marks {shown : List Char} {n : Nat} (h : PassesTo source n shown) :
    (mark .code source).drop n = mark .code (source.drop n) := by
  obtain ⟨front, hmark, rfl, -⟩ := h.marks
  rw [hmark, List.drop_left]

/-- The class body starts in code and ends at the brace that matches. -/
structure InCode (source : List Char) (ctrl : Controller) : Prop where
  brace : (mark .code source)[ctrl.classStart]? = some ⟨'\x7b', .code⟩
  closed : ∃ close, matchClosingBrace (source.drop ctrl.classStart) = some close ∧
    ctrl.classEnd = ctrl.classStart + close

theorem classBody_blanked
    {j : Nat}
    (hplain : plainComments .code source = true)
    (hclear : braceClear ((mark .code source).drop j) = true) :
    classBody (blanked ((mark .code source).drop j)) =
        classBody (text ((mark .code source).drop j)) ∧
      ∀ braceOpen braceClose,
        classBody (text ((mark .code source).drop j)) = some (braceOpen, braceClose) →
          (mark .code source)[j + braceOpen]? = some ⟨'\x7b', .code⟩ ∧
            ∃ close, matchClosingBrace (source.drop (j + braceOpen)) = some close ∧
              braceClose = braceOpen + close := by
  obtain ⟨hnone, hsome⟩ := findIdx?_blanked ((mark .code source).drop j)
  cases hbrace : (text ((mark .code source).drop j)).findIdx? (· == '\x7b') with
  | none =>
      rw [classBody, classBody, hbrace, hnone hbrace]
      refine ⟨rfl, fun braceOpen braceClose h => ?_⟩
      cases h
  | some braceOpen =>
      rw [braceClear, hbrace] at hclear
      obtain ⟨m, hm, hkind⟩ := (Option.any_eq_true _ _).mp hclear
      have hkind : m.kind = .code := by simpa using hkind
      have hchar : m.char = '\x7b' := by
        obtain ⟨hlt, hget, -⟩ := List.findIdx?_eq_some_iff_getElem.mp hbrace
        have hmap : (text ((mark .code source).drop j))[braceOpen]? = some m.char := by
          rw [text, List.getElem?_map, hm]
          rfl
        rw [List.getElem?_eq_getElem hlt] at hmap
        rw [← Option.some.inj hmap]
        simpa using hget
      have hcode : (mark .code source)[j + braceOpen]? = some ⟨'\x7b', .code⟩ := by
        rw [← List.getElem?_drop, hm, ← hkind, ← hchar]
      have houtside : m.isComment = false := by
        rw [Marked.isComment, hkind]
        rfl
      have hpass := (cut_of_code hplain hcode (by decide) (by decide) (by decide)).pass
      have htext : (text ((mark .code source).drop j)).drop braceOpen =
          source.drop (j + braceOpen) := by
        rw [text_drop, text_mark, List.drop_drop]
      have hblanked : (blanked ((mark .code source).drop j)).drop braceOpen =
          blankComments (source.drop (j + braceOpen)) := by
        rw [← blanked_drop, List.drop_drop, hpass.drop_marks]
        rfl
      have hsame : matchClosingBrace (blankComments (source.drop (j + braceOpen))) =
          matchClosingBrace (source.drop (j + braceOpen)) :=
        matchClosing_blankComments (by decide) (by decide) hpass.plain 0
      rw [classBody, classBody, hbrace, hsome braceOpen m hbrace hm houtside, Option.bind_some,
        Option.bind_some, hblanked, htext, hsame]
      refine ⟨rfl, fun o c h => ?_⟩
      obtain ⟨close, hclose, hpair⟩ := Option.map_eq_some_iff.mp h
      obtain ⟨rfl, rfl⟩ := Prod.mk.inj hpair
      exact ⟨hcode, close, hclose, rfl⟩

/-- Clear headers are found when the comments are blanked, and no others. -/
theorem controllersFrom_blanked
    (hplain : plainComments .code source = true)
    {s : List Marked} {index skip : Nat}
    (hs : (mark .code source).drop index = s)
    (hclear : headersClear skip s = true) :
    controllersFrom index skip (blanked s) = controllersFrom index skip (text s) ∧
      ∀ ctrl ∈ controllersFrom index skip (text s), InCode source ctrl := by
  induction s generalizing index skip with
  | nil =>
      refine ⟨rfl, fun ctrl h => ?_⟩
      cases skip <;> cases h
  | cons m s ih =>
      have htail : (mark .code source).drop (index + 1) = s := by
        rw [← List.drop_drop, hs]
        rfl
      have hopens : Opens (m :: s) := by
        rw [← hs]
        exact opens_drop (opens_mark .code source) index
      cases skip with
      | succ skip => exact ih htail hclear
      | zero =>
          rw [headersClear] at hclear
          rw [blanked_cons, text_cons, controllersFrom, controllersFrom, ← blanked_cons, ← text_cons]
          cases hfound : controllerPattern (text (m :: s)) with
          | none =>
              rw [hfound] at hclear
              obtain ⟨hnone, hrest⟩ := Bool.and_eq_true_iff.mp hclear
              rw [Option.isNone_iff_eq_none.mp hnone]
              exact ih htail hrest
          | some found =>
              rw [hfound] at hclear
              obtain ⟨hheader, hrest⟩ := Bool.and_eq_true_iff.mp hclear
              obtain ⟨hsame, hmem⟩ := ih htail hrest
              obtain ⟨hbrace, found', hpattern, hname, hlength, hpath⟩ :=
                controllerPattern_blanked hopens hfound hheader
              rw [← hs, List.drop_drop] at hbrace
              obtain ⟨hbody, hcode⟩ := classBody_blanked hplain hbrace
              rw [hpattern]
              dsimp only
              rw [hlength, hname, hpath, hsame, ← blanked_drop, ← text_drop, ← hs, List.drop_drop,
                hbody]
              cases hclass : classBody (text ((mark .code source).drop (index + found.length))) with
              | none => exact ⟨rfl, hmem⟩
              | some body =>
                  obtain ⟨braceOpen, braceClose⟩ := body
                  obtain ⟨hstart, close, hclose, rfl⟩ := hcode braceOpen braceClose hclass
                  refine ⟨rfl, List.forall_mem_cons.mpr ⟨⟨hstart, close, hclose, ?_⟩, hmem⟩⟩
                  exact (Nat.add_assoc _ _ _).symm

end Controllers

/-! ## The routes of a class -/

section Routes

variable {body : List Char}

theorem head?_of_routeAhead
    {source : List Char} {route : RouteAhead}
    (h : routeAhead source = some route) :
    source.head? = some '@' ∧ 0 < route.endOfDecorator := by
  obtain ⟨name, hname, hroute⟩ := Option.bind_eq_some_iff.mp h
  obtain ⟨⟨args, length⟩, -, hroute⟩ := Option.bind_eq_some_iff.mp hroute
  obtain ⟨handler, -, rfl⟩ := Option.map_eq_some_iff.mp hroute
  unfold httpDecorator at hname
  have hfound := List.find?_some hname
  obtain ⟨behind, rfl⟩ := List.isPrefixOf_iff_prefix.mp (Bool.and_eq_true_iff.mp hfound).1
  refine ⟨rfl, ?_⟩
  dsimp only
  omega

/-- No route starts in a comment that is blanked. -/
theorem routeAhead_comment {m : Marked} {s : List Marked} (h : m.isComment = true) :
    routeAhead (blanked (m :: s)) = none := by
  by_contra hcontra
  obtain ⟨route, hroute⟩ := Option.ne_none_iff_exists'.mp hcontra
  have hat : m.blank = '@' := Option.some.inj (head?_of_routeAhead hroute).1
  obtain hblank | hblank := blank_of_isComment h <;>
    · rw [hblank] at hat
      exact absurd hat (by decide)

theorem finding_blank
    {route : RouteAhead}
    (hpath : pathClear (mark .code route.argsRaw) = true)
    (hconsent : route.decorators.all consentClear = true)
    (input : ParseControllerSourceInput) (ctrl : Controller) (line : Nat)
    (stacked : List Decorator) :
    finding input ctrl line route.blank stacked = finding input ctrl line route stacked := by
  have hargs : extractStringArg (blankComments route.argsRaw) = extractStringArg route.argsRaw := by
    have hsame := extractStringArg_blanked hpath
    rw [text_mark] at hsame
    exact hsame
  have hmeta : readDecorators (stacked ++ route.decorators.map Decorator.blank) =
      readDecorators (stacked ++ route.decorators) := by
    rw [readDecorators, readDecorators, List.foldl_append, List.foldl_append,
      foldl_readDecorator_blank hconsent]
  unfold finding
  simp only [RouteAhead.blank, hargs, hmeta]

/-- The mark that the loop over a class body has come to. -/
theorem getElem?_of_split
    {before s : List Marked} {m : Marked}
    (hs : before.reverse ++ m :: s = mark .code body) :
    (mark .code body)[before.length]? = some m := by
  rw [← hs, List.getElem?_append_right (by rw [List.length_reverse]), List.length_reverse,
    Nat.sub_self, List.getElem?_cons_zero]

/-- The marks of a class body from a route in code on. -/
theorem marks_of_code
    (hplain : plainComments .code body = true)
    {before s : List Marked} {m : Marked}
    (hs : before.reverse ++ m :: s = mark .code body)
    (hcode : m.kind = .code)
    (hat : m.char = '@') :
    blanked (m :: s) = blankComments (text (m :: s)) ∧
      plainComments .code (text (m :: s)) = true := by
  have hget : (mark .code body)[before.length]? = some ⟨'@', .code⟩ := by
    rw [getElem?_of_split hs, ← hcode, ← hat]
  have hpass := (cut_of_code hplain hget (by decide) (by decide) (by decide)).pass
  have hdrop : (mark .code body).drop before.length = m :: s := by
    rw [← hs, List.drop_left' List.length_reverse]
  have hmarks := hpass.drop_marks
  rw [hdrop] at hmarks
  have htext : text (m :: s) = body.drop before.length := by rw [hmarks, text_mark]
  rw [htext]
  refine ⟨?_, hpass.plain⟩
  rw [hmarks]
  rfl

/-- A clear route outside of comments has the same finding when the comments are blanked. -/
theorem routeAhead_clear
    (hplain : plainComments .code body = true)
    {before s : List Marked} {m : Marked} {route : RouteAhead}
    (hs : before.reverse ++ m :: s = mark .code body)
    (houtside : m.isComment = false)
    (hroute : routeAhead (text (m :: s)) = some route)
    (hclear : routeClear route before (m :: s) m.kind = true) :
    ∃ route', routeAhead (blanked (m :: s)) = some route' ∧
      route'.endOfDecorator = route.endOfDecorator ∧
        collectStackedDecorators (blanked before) = collectStackedDecorators (text before) ∧
          ∀ input ctrl line stacked,
            finding input ctrl line route' stacked = finding input ctrl line route stacked := by
  cases hkind : m.kind with
  | comment =>
      rw [Marked.isComment, hkind] at houtside
      cases houtside
  | literal =>
      rw [hkind, routeClear, Bool.and_eq_true, beq_iff_eq] at hclear
      exact ⟨route, hclear.1, rfl, collectStacked_blanked hclear.2, fun _ _ _ _ => rfl⟩
  | code =>
      rw [hkind, routeClear, Bool.and_eq_true, Bool.and_eq_true] at hclear
      obtain ⟨⟨hpath, hconsent⟩, hstack⟩ := hclear
      obtain ⟨hblanked, hlater⟩ :=
        marks_of_code hplain hs hkind (Option.some.inj (head?_of_routeAhead hroute).1)
      refine ⟨route.blank, ?_, rfl, collectStacked_blanked hstack, finding_blank hpath hconsent⟩
      rw [hblanked]
      exact routeAhead_blankComments hlater hroute

/-- The routes of a class outside of comments have the same findings when the comments are
blanked; the loop over the text may still be inside a comment that the other has passed. -/
theorem routesFrom_blanked
    (input : ParseControllerSourceInput) (ctrl : Controller)
    (hplain : plainComments .code body = true)
    {s before : List Marked} {skip skip' : Nat}
    (hs : before.reverse ++ s = mark .code body)
    (hclear : routesClear skip before s = true)
    (hskip : skip' = skip ∨ skip' = 0 ∧ ∀ m ∈ s.take skip, m.isComment = true) :
    ((routesFrom skip (text before) (text s)).filter fun route =>
        outsideComments (mark .code body) route.index).map (locatedFinding input ctrl) =
      (routesFrom skip' (blanked before) (blanked s)).map (locatedFinding input ctrl) := by
  induction s generalizing before skip skip' with
  | nil => cases skip <;> cases skip' <;> rfl
  | cons m s ih =>
      have htail : (m :: before).reverse ++ s = mark .code body := by
        rw [List.reverse_cons, List.append_assoc]
        exact hs
      cases skip with
      | succ skip =>
          obtain rfl | ⟨rfl, hinside⟩ := hskip
          · exact ih htail hclear (.inl rfl)
          · -- the blanked text is read on, and nothing starts in the comment
            rw [List.take_succ_cons] at hinside
            obtain ⟨hm, hrest⟩ := List.forall_mem_cons.mp hinside
            rw [blanked_cons, routesFrom, ← blanked_cons, routeAhead_comment hm]
            exact ih htail hclear (.inr ⟨rfl, hrest⟩)
      | zero =>
          have hzero : skip' = 0 := hskip.elim id And.left
          subst hzero
          rw [routesClear] at hclear
          rw [text_cons, blanked_cons, routesFrom, routesFrom, ← text_cons, ← blanked_cons]
          cases hroute : routeAhead (text (m :: s)) with
          | none =>
              rw [hroute] at hclear
              obtain ⟨hnone, hrest⟩ := Bool.and_eq_true_iff.mp hclear
              rw [Option.isNone_iff_eq_none.mp hnone]
              exact ih htail hrest (.inl rfl)
          | some route =>
              rw [hroute] at hclear
              obtain ⟨hread, hrest⟩ := Bool.and_eq_true_iff.mp hclear
              have hout : outsideComments (mark .code body) (text before).length = !m.isComment := by
                rw [outsideComments, length_text, getElem?_of_split hs, Option.any_some]
              cases hcomment : m.isComment with
              | true =>
                  -- a route that is commented out is no finding, and its list ends in the comment
                  have hkind : m.kind = .comment := by simpa [Marked.isComment] using hcomment
                  rw [hcomment] at hout
                  rw [hkind, routeClear] at hread
                  obtain ⟨n, hn⟩ := Nat.exists_eq_add_one_of_ne_zero
                    (Nat.ne_of_gt (head?_of_routeAhead hroute).2)
                  rw [hn, List.take_succ_cons, List.all_cons, Bool.and_eq_true] at hread
                  rw [routeAhead_comment hcomment]
                  dsimp only
                  rw [List.filter_cons_of_neg (by exact ne_true_of_eq_false hout), hn, Nat.add_sub_cancel]
                  rw [hn, Nat.add_sub_cancel] at hrest
                  exact ih htail hrest (.inr ⟨rfl, List.all_eq_true.mp hread.2⟩)
              | false =>
                  rw [hcomment] at hout
                  obtain ⟨route', hsame, hend, hstacked, hfinding⟩ :=
                    routeAhead_clear hplain hs hcomment hroute hread
                  have hlater := ih htail hrest (.inl rfl)
                  rw [text_cons, blanked_cons] at hlater
                  rw [hsame]
                  dsimp only
                  rw [List.filter_cons_of_pos (by exact hout), List.map_cons, List.map_cons, hend,
                    hstacked, hlater]
                  congr 1
                  simp only [locatedFinding, hfinding, length_text, length_blanked]

end Routes

/-! ## The findings of a source -/

section Findings

variable {source : List Char}

/-- A class body in code, cut out of the source. -/
theorem classText_inCode
    (hplain : plainComments .code source = true)
    {ctrl : Controller}
    (hcode : InCode source ctrl) :
    plainComments .code (classText source ctrl) = true ∧
      classText (blankComments source) ctrl = blankComments (classText source ctrl) ∧
        ∀ index < (classText source ctrl).length,
          (mark .code (classText source ctrl))[index]? =
            (mark .code source)[ctrl.classStart + index]? := by
  obtain ⟨close, hclose, hend⟩ := hcode.closed
  have hstart := (cut_of_code hplain hcode.brace (by decide) (by decide) (by decide)).pass
  have hcutBody := cut_of_code hstart.plain (getElem?_matchClosing hstart.plain hclose) (by decide)
    (by decide) (by decide)
  have hcut (text : List Char) :
      classText text ctrl = (text.drop ctrl.classStart).take close := by
    rw [classText, hend, List.drop_take, Nat.add_sub_cancel_left]
  have hblanked : (blankComments source).drop ctrl.classStart =
      blankComments (source.drop ctrl.classStart) := by
    rw [hstart.blankComments_eq, List.drop_left' hstart.length]
  rw [hcut, hcut, hblanked]
  refine ⟨hcutBody.front, ?_, fun index hindex => ?_⟩
  · rw [hcutBody.pass.blankComments_eq, List.take_left' hcutBody.pass.length]
  · rw [hstart.getElem? index, hcutBody.marks, List.getElem?_append_left (by rwa [length_mark])]

theorem lineNumberFromIndex_blankComments (index : Nat) :
    lineNumberFromIndex (blankComments source) index = lineNumberFromIndex source index := by
  have hcount (s : List Marked) : (blanked s).count '\n' = (text s).count '\n' := by
    induction s with
    | nil => rfl
    | cons m s ih =>
        rw [blanked_cons, text_cons, List.count_cons, List.count_cons, ih]
        simp only [beq_iff_eq, blank_eq_line_break_iff]
  unfold lineNumberFromIndex
  conv_rhs => rw [← text_mark .code source]
  rw [blankComments, ← blanked_take, ← text_take, hcount]

theorem index_lt_of_mem_routesFrom
    {skip : Nat} {before rest : List Char} {route : Route}
    (h : route ∈ routesFrom skip before rest) :
    route.index < before.length + rest.length := by
  induction rest generalizing skip before with
  | nil => cases skip <;> cases h
  | cons c rest ih =>
      have hlater {skip : Nat} (hmem : route ∈ routesFrom skip (c :: before) rest) :
          route.index < before.length + (c :: rest).length := by
        have hlt := ih hmem
        rw [List.length_cons] at hlt ⊢
        omega
      cases skip with
      | succ skip => exact hlater h
      | zero =>
          rw [routesFrom] at h
          cases hahead : routeAhead (c :: rest) with
          | none =>
              rw [hahead] at h
              exact hlater h
          | some ahead =>
              rw [hahead] at h
              obtain rfl | hmem := List.mem_cons.mp h
              · rw [List.length_cons]
                exact Nat.lt_add_of_pos_right (Nat.succ_pos _)
              · exact hlater hmem

theorem locatedFinding_blankComments (input : ParseControllerSourceInput) (ctrl : Controller) :
    locatedFinding { input with source := blankComments input.source } ctrl =
      locatedFinding input ctrl := by
  funext route
  unfold locatedFinding
  dsimp only
  rw [lineNumberFromIndex_blankComments]
  rfl

/-- A source whose comments are those that the planner's scans see. -/
def markedAsSeen (source : List Char) : Commented where
  file := "x.controller.ts".toList
  source := source
  marks := mark .code source
  text_marks := text_mark .code source

theorem seenAsMarked_markedAsSeen (source : List Char) : SeenAsMarked (markedAsSeen source) := rfl

/-- Comments that the walk to the handler skips. -/
def commentedRoute : Commented :=
  markedAsSeen
    ("@Controller('x')\nclass X \x7b\n  /** All (of them). */\n  @Get('y') // the path\n" ++
      "  // @Public('later')\n  @Can('read', 'X')\n  list() \x7b\x7d\n\x7d\n").toList

/-- A decorator in a line comment above the route. -/
def commentedCan : Commented :=
  markedAsSeen
    ("@Controller('x')\nclass X \x7b\n  // @Can('read', 'X')\n  @Get()\n" ++
      "  list() \x7b\x7d\n\x7d\n").toList

end Findings

end RouteAudit
end Core
end NestBase
