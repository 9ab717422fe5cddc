import NestBase.Core.RouteAuditWalks

/-!
# What the route audit reads without skipping comments

The regular expressions and the walk backwards read comments like other text.  The
predicates here say that no comment stands in what they read: in the path of an argument
list (`pathClear`), in the decorators above a route (`stackClear`), in the header of a
class (`headerClear`).  Then they read the same when the comments are blanked.
-/

namespace NestBase
namespace Core
namespace RouteAudit

open Lib.MarkedText
open Lib.Text (isWhiteSpace)

/-! ## What is read without skipping comments -/

section Undisturbed

/-- The literal goes on to its end outside of comments. -/
def quoteClear : List Marked → Bool
  | [] => true
  | m :: rest => !m.isComment && (isQuote m.char || quoteClear rest)

/-- No comment stands in front of the path in an argument list. -/
def pathClear : List Marked → Bool
  | [] => true
  | m :: rest =>
      !m.isComment &&
        (if isWhiteSpace m.char then pathClear rest else !isQuote m.char || quoteClear rest)

/-- The decorators above an HTTP decorator have no comment between or in them, and none
hides another decorator.  The marks above have the last one first. -/
def stackClear : Nat → List Marked → Bool
  | _, [] => true
  | skip + 1, _ :: rest => stackClear skip rest
  | 0, m :: rest =>
      match decoratorAbove (text (m :: rest)) with
      | none => (decoratorAbove (blanked (m :: rest))).isNone
      | some (_, length) =>
          ((m :: rest).take length).all (fun m => !m.isComment) && stackClear (length - 1) rest

/-- `@Can` and `@Public` below an HTTP decorator have no comment in their arguments. -/
def consentClear (dec : Decorator) : Bool :=
  (dec.name != "Can".toList && dec.name != "Public".toList) ||
    (mark .code dec.args).all fun m => !m.isComment

/-- What is read at an HTTP decorator with a handler. -/
def routeClear (route : RouteAhead) (before : List Marked) (s : List Marked) : Kind → Bool
  | .comment => (s.take route.endOfDecorator).all Marked.isComment
  | .literal => routeAhead (blanked s) == some route && stackClear 0 before
  | .code =>
      pathClear (mark .code route.argsRaw) && route.decorators.all consentClear &&
        stackClear 0 before

/-- The loop over a class body, with the marks in front the last one first. -/
def routesClear : Nat → List Marked → List Marked → Bool
  | _, _, [] => true
  | skip + 1, before, m :: rest => routesClear skip (m :: before) rest
  | 0, before, m :: rest =>
      match routeAhead (text (m :: rest)) with
      | none => (routeAhead (blanked (m :: rest))).isNone && routesClear 0 (m :: before) rest
      | some route =>
          routeClear route before (m :: rest) m.kind &&
            routesClear (route.endOfDecorator - 1) (m :: before) rest

/-- The class token is read outside of comments, and no comment hides an earlier one. -/
def classClear : List Marked → Bool
  | [] => true
  | m :: rest =>
      match classToken (text (m :: rest)) with
      | some _ => !m.isComment
      | none => (classToken (blanked (m :: rest))).isNone && classClear rest

/-- The first brace stands in code. -/
def braceClear (behind : List Marked) : Bool :=
  match (text behind).findIdx? (· == '\x7b') with
  | none => true
  | some braceOpen => (behind[braceOpen]?.any fun m => m.kind == .code)

/-- What is read of the header of a controller class. -/
def headerClear (found : ControllerMatch) (s : List Marked) : Bool :=
  match controllerHead (text s) with
  | none => false
  | some (args, length) =>
      !(s.head?.any Marked.isComment) &&
        pathClear ((s.drop (length - 1 - args.length)).take args.length) &&
        !(s[length - 1]?.any Marked.isComment) &&
        classClear (s.drop length) && braceClear (s.drop found.length)

/-- The loop over the controllers of a source. -/
def headersClear : Nat → List Marked → Bool
  | _, [] => true
  | skip + 1, _ :: rest => headersClear skip rest
  | 0, m :: rest =>
      match controllerPattern (text (m :: rest)) with
      | none => (controllerPattern (blanked (m :: rest))).isNone && headersClear 0 rest
      | some found =>
          headerClear found (m :: rest) && headersClear (found.length - 1) rest

/-- No comment stands in what the planner reads without skipping comments. -/
def undisturbed (source : List Char) : Bool :=
  plainComments .code source && headersClear 0 (mark .code source) &&
    (controllers source).all fun ctrl => routesClear 0 [] (mark .code (classText source ctrl))

end Undisturbed

/-! ## Paths -/

section Paths

theorem not_isQuote_of_isWhiteSpace {c : Char} (h : isWhiteSpace c = true) : isQuote c = false := by
  by_contra hcontra
  rw [Bool.not_eq_false] at hcontra
  simp only [isQuote, Bool.or_eq_true, beq_iff_eq] at hcontra
  obtain (rfl | rfl) | rfl := hcontra <;> exact absurd h (by decide)

theorem quotedAtStart_concat {x : Char} (hx : isQuote x = false) (args : List Char) :
    quotedAtStart (args ++ [x]) = quotedAtStart args := by
  cases args with
  | nil => simp [quotedAtStart, hx]
  | cons c rest =>
      have hstop : [x].dropWhile isUnquoted = [] := by simp [isUnquoted, hx]
      rw [List.cons_append, quotedAtStart, quotedAtStart, List.dropWhile_append]
      cases hclosed : rest.dropWhile isUnquoted with
      | nil => simp [hstop]
      | cons q after =>
          have hsplit : rest.takeWhile isUnquoted ++ q :: after = rest := by
            rw [← hclosed, List.takeWhile_append_dropWhile]
          have hquote : ¬isUnquoted q = true := by
            have hne : rest.dropWhile isUnquoted ≠ [] := by simp [hclosed]
            have hhead := List.head_dropWhile_not isUnquoted hne
            simpa [hclosed] using hhead
          have htake : (rest ++ [x]).takeWhile isUnquoted =
              rest.takeWhile isUnquoted := by
            conv_lhs => rw [← hsplit]
            rw [List.append_assoc, List.cons_append,
              List.takeWhile_append_of_pos fun c hc => List.mem_takeWhile_imp hc,
              List.takeWhile_cons_of_neg hquote, List.append_nil]
          rw [htake]
          simp

/-- White space at the end is not part of the path. -/
theorem quotedAtStart_rdropWhile (args : List Char) :
    quotedAtStart (args.rdropWhile isWhiteSpace) = quotedAtStart args := by
  induction args using List.reverseRecOn with
  | nil => rfl
  | append_singleton args x ih =>
      by_cases hspace : isWhiteSpace x = true
      · rw [List.rdropWhile_concat_pos _ _ _ hspace, ih,
          quotedAtStart_concat (not_isQuote_of_isWhiteSpace hspace)]
      · rw [List.rdropWhile_concat_neg _ _ _ hspace]

variable {s : List Marked}

theorem quoteClear_blanked (h : quoteClear s = true) :
    (blanked s).takeWhile isUnquoted = (text s).takeWhile isUnquoted ∧
      (((blanked s).dropWhile isUnquoted) = [] ↔
        ((text s).dropWhile isUnquoted) = []) := by
  induction s with
  | nil => exact ⟨rfl, Iff.rfl⟩
  | cons m rest ih =>
      rw [quoteClear, Bool.and_eq_true, Bool.not_eq_true'] at h
      obtain ⟨houtside, hrest⟩ := h
      rw [blanked_cons, text_cons, blank_of_not_isComment houtside]
      cases hquote : isQuote m.char with
      | true =>
          have hstop : ¬isUnquoted m.char = true := by simp [isUnquoted, hquote]
          rw [List.takeWhile_cons_of_neg hstop, List.takeWhile_cons_of_neg hstop,
            List.dropWhile_cons_of_neg hstop, List.dropWhile_cons_of_neg hstop]
          exact ⟨rfl, by simp⟩
      | false =>
          have hgo : isUnquoted m.char = true := by simp [isUnquoted, hquote]
          rw [hquote, Bool.false_or] at hrest
          obtain ⟨htake, hdrop⟩ := ih hrest
          rw [List.takeWhile_cons_of_pos hgo, List.takeWhile_cons_of_pos hgo,
            List.dropWhile_cons_of_pos hgo, List.dropWhile_cons_of_pos hgo, htake]
          exact ⟨rfl, hdrop⟩

theorem quotedAtStart_blanked (h : pathClear s = true) :
    quotedAtStart ((blanked s).dropWhile isWhiteSpace) =
      quotedAtStart ((text s).dropWhile isWhiteSpace) := by
  induction s with
  | nil => rfl
  | cons m rest ih =>
      rw [pathClear, Bool.and_eq_true, Bool.not_eq_true'] at h
      obtain ⟨houtside, hrest⟩ := h
      rw [blanked_cons, text_cons, blank_of_not_isComment houtside]
      cases hspace : isWhiteSpace m.char with
      | true =>
          rw [if_pos hspace] at hrest
          rw [List.dropWhile_cons_of_pos hspace, List.dropWhile_cons_of_pos hspace]
          exact ih hrest
      | false =>
          have hstop : ¬isWhiteSpace m.char = true := by simp [hspace]
          rw [if_neg hstop] at hrest
          rw [List.dropWhile_cons_of_neg hstop, List.dropWhile_cons_of_neg hstop, quotedAtStart,
            quotedAtStart]
          cases hquote : isQuote m.char with
          | false => rfl
          | true =>
              rw [hquote, Bool.not_true, Bool.false_or] at hrest
              obtain ⟨htake, hdrop⟩ := quoteClear_blanked hrest
              rw [htake]
              simp only [Bool.true_and, bne_iff_ne, ne_eq, hdrop]

/-- A path without a comment in front of it. -/
theorem extractStringArg_blanked (h : pathClear s = true) :
    extractStringArg (blanked s) = extractStringArg (text s) := by
  unfold extractStringArg
  rw [quotedAtStart_rdropWhile, quotedAtStart_rdropWhile, quotedAtStart_blanked h]

end Paths

/-! ## Decorators -/

section Decorators

/-- The arguments of other decorators are not read. -/
theorem readDecorator_blank {dec : Decorator} (h : consentClear dec = true) (meta_ : RouteMeta) :
    readDecorator meta_ dec.blank = readDecorator meta_ dec := by
  simp only [consentClear, Bool.or_eq_true, Bool.and_eq_true, bne_iff_ne, List.all_eq_true,
    Bool.not_eq_true'] at h
  obtain ⟨hcan, hpublic⟩ | hclear := h
  · have hblank (given : Decorator) (hname : given.name = dec.name) :
        readDecorator meta_ given = meta_ := by
      rw [readDecorator, hname, if_neg hcan, if_neg hpublic]
    rw [hblank dec.blank rfl, hblank dec rfl]
  · have hargs : blankComments dec.args = dec.args := by
      rw [blankComments, blanked_eq_text hclear, text_mark]
    rw [Decorator.blank, hargs]

theorem foldl_readDecorator_blank
    {decorators : List Decorator}
    (h : decorators.all consentClear = true)
    (meta_ : RouteMeta) :
    (decorators.map Decorator.blank).foldl readDecorator meta_ =
      decorators.foldl readDecorator meta_ := by
  induction decorators generalizing meta_ with
  | nil => rfl
  | cons dec rest ih =>
      rw [List.all_cons, Bool.and_eq_true] at h
      rw [List.map_cons, List.foldl_cons, List.foldl_cons, readDecorator_blank h.1, ih h.2]

/-- The parenthesis is found by what stands up to it. -/
theorem matchOpening_take
    {depth : Int} {before : List Char} {n : Nat}
    (h : matchOpening depth before = some n)
    (other : List Char) :
    matchOpening depth (before.take (n + 1) ++ other) = some n ∧ n + 1 ≤ before.length := by
  induction before generalizing depth n with
  | nil => cases h
  | cons c rest ih =>
      have hbehind (later : Int) (hlater : (matchOpening later rest).map (· + 1) = some n) :
          ∃ m, n = m + 1 ∧ matchOpening later (rest.take (m + 1) ++ other) = some m ∧
            m + 1 ≤ rest.length := by
        obtain ⟨m, hm, rfl⟩ := Option.map_eq_some_iff.mp hlater
        exact ⟨m, rfl, ih hm⟩
      rw [matchOpening] at h
      rw [List.take_succ_cons, List.cons_append, matchOpening, List.length_cons]
      split
      · next hclose =>
          rw [if_pos hclose] at h
          obtain ⟨m, rfl, hm, hle⟩ := hbehind _ h
          exact ⟨by rw [hm]; rfl, Nat.succ_le_succ hle⟩
      · next hclose =>
          rw [if_neg hclose] at h
          split
          · next hopen =>
              rw [if_pos hopen] at h
              split
              · next hzero =>
                  rw [if_pos hzero] at h
                  obtain rfl := Option.some.inj h
                  exact ⟨rfl, Nat.succ_le_succ (Nat.zero_le _)⟩
              · next hzero =>
                  rw [if_neg hzero] at h
                  obtain ⟨m, rfl, hm, hle⟩ := hbehind _ h
                  exact ⟨by rw [hm]; rfl, Nat.succ_le_succ hle⟩
          · next hopen =>
              rw [if_neg hopen] at h
              obtain ⟨m, rfl, hm, hle⟩ := hbehind _ h
              exact ⟨by rw [hm]; rfl, Nat.succ_le_succ hle⟩

/-- A decorator written backwards, behind blanks. -/
theorem decoratorAbove_append
    {gap list name : List Char} {openParen : Nat}
    (hgap : ∀ c ∈ gap, isBlank c = true)
    (hlist : ∀ other, matchOpeningParen (list ++ other) = some openParen)
    (hlength : list.length = openParen + 1)
    (hclosed : list.head? = some ')')
    (hname : ∀ c ∈ name, isNameChar c = true)
    (other : List Char) :
    decoratorAbove (gap ++ (list ++ (name ++ '@' :: other))) =
      some ({ name := name.reverse, args := ((list.take openParen).drop 1).reverse },
        gap.length + openParen + 1 + name.length + 1) := by
  obtain ⟨inside, rfl⟩ := List.head?_eq_some_iff.mp hclosed
  have hstop : ¬isBlank ')' = true := by decide
  have hat : ¬isNameChar '@' = true := by decide
  have hbehind : (')' :: inside ++ (name ++ '@' :: other)).drop (openParen + 1) =
      name ++ '@' :: other := List.drop_left' hlength
  have htake : (')' :: inside ++ (name ++ '@' :: other)).take openParen =
      (')' :: inside).take openParen :=
    List.take_append_of_le_length (by omega)
  unfold decoratorAbove
  rw [List.takeWhile_append_of_pos hgap, List.dropWhile_append_of_pos hgap, List.cons_append,
    List.takeWhile_cons_of_neg hstop, List.dropWhile_cons_of_neg hstop, ← List.cons_append,
    List.append_nil]
  have hhead : (')' :: inside ++ (name ++ '@' :: other)).head? = some ')' := rfl
  dsimp only
  rw [if_pos hhead, hlist, Option.bind_some, hbehind, htake, List.takeWhile_append_of_pos hname,
    List.dropWhile_append_of_pos hname, List.takeWhile_cons_of_neg hat,
    List.dropWhile_cons_of_neg hat, List.append_nil, List.head?_cons, if_pos rfl]

/-- A decorator is found by what stands up to its `@`. -/
theorem decoratorAbove_take
    {before : List Char} {dec : Decorator} {n : Nat}
    (h : decoratorAbove before = some (dec, n)) :
    0 < n ∧ n ≤ before.length ∧ ∀ other, decoratorAbove (before.take n ++ other) = some (dec, n) := by
  unfold decoratorAbove at h
  dsimp only at h
  by_cases hclosed : (before.dropWhile isBlank).head? = some ')'
  · rw [if_pos hclosed] at h
    obtain ⟨openParen, hopen, h⟩ := Option.bind_eq_some_iff.mp h
    split at h
    · next hat =>
        obtain ⟨rfl, rfl⟩ := Prod.mk.inj (Option.some.inj h)
        obtain ⟨tail, htail⟩ := List.head?_eq_some_iff.mp hat
        have hle := (matchOpening_take hopen []).2
        generalize hrest : before.dropWhile isBlank = closed at *
        have hlist (other : List Char) :
            matchOpeningParen (closed.take (openParen + 1) ++ other) = some openParen :=
          (matchOpening_take hopen other).1
        have hlength : (closed.take (openParen + 1)).length = openParen + 1 := by
          rw [List.length_take]
          omega
        have hfirst : (closed.take (openParen + 1)).head? = some ')' := by
          rw [List.head?_take, if_neg (Nat.succ_ne_zero _), hclosed]
        have hargs : (closed.take (openParen + 1)).take openParen = closed.take openParen := by
          rw [List.take_take, Nat.min_eq_left (Nat.le_succ _)]
        have hsplit : before =
            before.takeWhile isBlank ++ (closed.take (openParen + 1) ++
              ((closed.drop (openParen + 1)).takeWhile isNameChar ++ ['@'])) ++ tail := by
          rw [List.append_assoc, List.append_assoc, List.append_assoc, List.singleton_append, ← htail,
            List.takeWhile_append_dropWhile, List.take_append_drop, ← hrest,
            List.takeWhile_append_dropWhile]
        have hfront := congrArg List.length hsplit
        simp only [List.length_append, List.length_cons, List.length_nil, hlength] at hfront
        refine ⟨Nat.succ_pos _, by omega, fun other => ?_⟩
        have htake : before.take ((before.takeWhile isBlank).length + openParen + 1 +
              ((closed.drop (openParen + 1)).takeWhile isNameChar).length + 1) =
            before.takeWhile isBlank ++ (closed.take (openParen + 1) ++
              ((closed.drop (openParen + 1)).takeWhile isNameChar ++ ['@'])) := by
          conv_lhs => arg 2; rw [hsplit]
          refine List.take_left' ?_
          simp only [List.length_append, List.length_cons, List.length_nil, hlength]
          omega
        rw [htake, List.append_assoc, List.append_assoc, List.append_assoc, List.singleton_append,
          decoratorAbove_append (fun c hc => List.mem_takeWhile_imp hc) hlist hlength hfirst
            (fun c hc => List.mem_takeWhile_imp hc), hargs]
    · cases h
  · rw [if_neg hclosed] at h
    cases h

/-- A clear stack is collected as it is when the comments are blanked. -/
theorem collectStacked_blanked
    {skip : Nat} {before : List Marked}
    (h : stackClear skip before = true) :
    collectStacked skip (blanked before) = collectStacked skip (text before) := by
  induction before generalizing skip with
  | nil => rfl
  | cons m rest ih =>
      cases skip with
      | succ skip => exact ih h
      | zero =>
          rw [stackClear] at h
          rw [blanked_cons, text_cons, collectStacked, collectStacked]
          cases habove : decoratorAbove (text (m :: rest)) with
          | none =>
              rw [habove] at h
              rw [text_cons] at habove
              rw [habove, ← blanked_cons, Option.isNone_iff_eq_none.mp h]
          | some found =>
              obtain ⟨dec, length⟩ := found
              rw [habove] at h
              dsimp only at h
              obtain ⟨hclear, hrest⟩ := Bool.and_eq_true_iff.mp h
              have hclear : ∀ x ∈ (m :: rest).take length, x.isComment = false := by
                simpa using hclear
              have hsame : decoratorAbove (blanked (m :: rest)) = some (dec, length) := by
                rw [← List.take_append_drop length (m :: rest), blanked_append,
                  blanked_eq_text hclear, text_take]
                exact (decoratorAbove_take habove).2.2 _
              rw [blanked_cons] at hsame
              rw [text_cons] at habove
              rw [hsame, habove]
              dsimp only
              rw [ih hrest]

end Decorators

/-! ## Headers -/

section Headers

theorem isWhiteSpace_blank {m : Marked} (h : m.isComment = true) : isWhiteSpace m.blank = true := by
  obtain hblank | hblank := blank_of_isComment h <;> rw [hblank] <;> decide

theorem toNat_of_isWord {c : Char} (h : isWord c = true) : 48 ≤ c.toNat ∧ c.toNat ≤ 122 := by
  obtain halphanum | rfl := isWord_cases h
  · have hletters := Lib.Text.range_of_isAlphanum halphanum
    omega
  · decide

theorem isWord_of_isWhiteSpace {c : Char} (h : isWhiteSpace c = true) : isWord c = false := by
  by_contra hcontra
  rw [Bool.not_eq_false] at hcontra
  obtain ⟨hlow, hhigh⟩ := toNat_of_isWord hcontra
  have hvisible := Lib.Text.not_isWhiteSpace_of_visible (c := c) (by omega) (by omega)
  exact absurd h (Bool.eq_false_iff.mp hvisible)

theorem classToken_append
    {space name rest : List Char}
    (hspace : ∀ c ∈ space, isWhiteSpace c = true)
    (hspaceNe : space ≠ [])
    (hname : ∀ c ∈ name, isWord c = true)
    (hnameNe : name ≠ [])
    (hrest : ∀ c ∈ rest.head?, isWord c = false) :
    classToken ("class".toList ++ (space ++ (name ++ rest))) =
      some (name, "class".toList.length + space.length + name.length) := by
  have hfirst : (name ++ rest).takeWhile isWhiteSpace = [] ∧
      (name ++ rest).dropWhile isWhiteSpace = name ++ rest := by
    obtain ⟨c, tail, rfl⟩ := List.exists_cons_of_ne_nil hnameNe
    have hstop : ¬isWhiteSpace c = true := by
      intro hc
      have hword := hname c List.mem_cons_self
      rw [isWord_of_isWhiteSpace hc] at hword
      cases hword
    rw [List.cons_append]
    exact ⟨List.takeWhile_cons_of_neg hstop, List.dropWhile_cons_of_neg hstop⟩
  have hend : rest.takeWhile isWord = [] := by
    cases rest with
    | nil => rfl
    | cons c tail => exact List.takeWhile_cons_of_neg (by simp [hrest c rfl])
  unfold classToken
  dsimp only
  rw [List.drop_left, List.takeWhile_append_of_pos hspace, List.dropWhile_append_of_pos hspace,
    hfirst.1, hfirst.2, List.takeWhile_append_of_pos hname, hend, List.append_nil, List.append_nil]
  rw [if_pos ⟨List.isPrefixOf_iff_prefix.mpr (List.prefix_append _ _), hspaceNe, hnameNe⟩]

variable {n : Nat}

theorem classToken_cases {source name : List Char} (h : classToken source = some (name, n)) :
    ∃ space rest, source = "class".toList ++ (space ++ (name ++ rest)) ∧
      (∀ c ∈ space, isWhiteSpace c = true) ∧ space ≠ [] ∧ (∀ c ∈ name, isWord c = true) ∧
        name ≠ [] ∧ (∀ c ∈ rest.head?, isWord c = false) ∧
          n = "class".toList.length + space.length + name.length := by
  unfold classToken at h
  dsimp only at h
  split at h
  · next hfound =>
      obtain ⟨hword, hspaceNe, hnameNe⟩ := hfound
      obtain ⟨behind, rfl⟩ := List.isPrefixOf_iff_prefix.mp hword
      rw [List.drop_left] at h hspaceNe hnameNe
      obtain ⟨rfl, rfl⟩ := Prod.mk.inj (Option.some.inj h)
      refine ⟨behind.takeWhile isWhiteSpace,
        (behind.dropWhile isWhiteSpace).dropWhile isWord, ?_,
        fun c hc => List.mem_takeWhile_imp hc, hspaceNe, fun c hc => List.mem_takeWhile_imp hc,
        hnameNe, ?_, rfl⟩
      · rw [List.takeWhile_append_dropWhile, List.takeWhile_append_dropWhile]
      · intro c hc
        have hnot := List.head?_dropWhile_not isWord (behind.dropWhile isWhiteSpace)
        rw [Option.mem_def.mp hc] at hnot
        simpa using hnot
  · cases h

variable {s : List Marked}

/-- What stands behind a word ends it just so when the comments are blanked. -/
theorem isWord_head?_blanked (hstop : ∀ c ∈ (text s).head?, isWord c = false) :
    ∀ c ∈ (blanked s).head?, isWord c = false := by
  cases s with
  | nil => exact fun c hc => nomatch hc
  | cons m s =>
      intro c hc
      obtain rfl := Option.some.inj hc
      cases hcomment : m.isComment with
      | true => exact isWord_of_isWhiteSpace (isWhiteSpace_blank hcomment)
      | false =>
          rw [blank_of_not_isComment hcomment]
          exact hstop m.char rfl

/-- A class token outside of comments is there when they are blanked. -/
theorem classToken_blanked
    {found : List Char × Nat}
    (hstarts : Starts s)
    (h : classToken (text s) = some found) :
    classToken (blanked s) = some found := by
  obtain ⟨name, n⟩ := found
  obtain ⟨space, rest, htext, hspace, hspaceNe, hname, hnameNe, hrest, rfl⟩ := classToken_cases h
  have hslash : '/' ∉ "class".toList ++ (space ++ name) := by
    rw [List.mem_append, List.mem_append, not_or, not_or]
    refine ⟨by decide, fun hmem => ?_, fun hmem => ?_⟩
    · exact absurd (hspace _ hmem) (by decide)
    · exact absurd (hname _ hmem) (by decide)
  rw [← List.append_assoc space, ← List.append_assoc] at htext
  obtain ⟨hshown, hbehind, -⟩ := hstarts.shown htext hslash
  rw [hshown, List.append_assoc, List.append_assoc]
  refine classToken_append hspace hspaceNe hname hnameNe (isWord_head?_blanked ?_)
  rw [hbehind]
  exact hrest

theorem findClass_blanked (hopens : Opens s) (h : classClear s = true) :
    findClass (blanked s) = findClass (text s) := by
  induction s with
  | nil => rfl
  | cons m s ih =>
      rw [classClear] at h
      rw [blanked_cons, text_cons, findClass, findClass]
      cases htoken : classToken (text (m :: s)) with
      | some found =>
          rw [htoken] at h
          have houtside : m.isComment = false := by simpa using h
          have hsame := classToken_blanked (starts_of_outside hopens houtside) htoken
          rw [blanked_cons] at hsame
          rw [text_cons] at htoken
          rw [hsame, htoken]
      | none =>
          rw [htoken] at h
          obtain ⟨hnone, hrest⟩ := Bool.and_eq_true_iff.mp h
          have hblanked := Option.isNone_iff_eq_none.mp hnone
          rw [blanked_cons] at hblanked
          rw [text_cons] at htoken
          rw [hblanked, htoken]
          dsimp only
          rw [ih (List.isChain_cons.mp hopens).2 hrest]

variable {args : List Char}

theorem controllerHead_append
    {space rest : List Char}
    (hspace : ∀ c ∈ space, isWhiteSpace c = true)
    (hargs : ∀ c ∈ args, c ≠ ')') :
    controllerHead ("@Controller".toList ++ (space ++ '(' :: (args ++ ')' :: rest))) =
      some (args, "@Controller".toList.length + space.length + 1 + args.length + 1) := by
  have hparen : ¬isWhiteSpace '(' = true := by decide
  have hclose : ¬isArgsChar ')' = true := by decide
  have hinside : ∀ c ∈ args, isArgsChar c = true := fun c hc => bne_iff_ne.mpr (hargs c hc)
  unfold controllerHead
  dsimp only
  rw [List.drop_left, List.takeWhile_append_of_pos hspace, List.dropWhile_append_of_pos hspace,
    List.takeWhile_cons_of_neg hparen, List.dropWhile_cons_of_neg hparen, List.append_nil,
    List.drop_one, List.tail_cons, List.takeWhile_append_of_pos hinside,
    List.dropWhile_append_of_pos hinside, List.takeWhile_cons_of_neg hclose,
    List.dropWhile_cons_of_neg hclose, List.append_nil]
  rw [if_pos ⟨List.isPrefixOf_iff_prefix.mpr (List.prefix_append _ _), List.head?_cons,
    List.cons_ne_nil _ _⟩]

theorem controllerHead_cases {source : List Char} (h : controllerHead source = some (args, n)) :
    ∃ space rest, source = "@Controller".toList ++ (space ++ '(' :: (args ++ ')' :: rest)) ∧
      (∀ c ∈ space, isWhiteSpace c = true) ∧ (∀ c ∈ args, c ≠ ')') ∧
        n = "@Controller".toList.length + space.length + 1 + args.length + 1 := by
  unfold controllerHead at h
  dsimp only at h
  split at h
  · next hfound =>
      obtain ⟨hword, hparen, hclosed⟩ := hfound
      obtain ⟨behind, rfl⟩ := List.isPrefixOf_iff_prefix.mp hword
      rw [List.drop_left] at h hparen hclosed
      obtain ⟨rfl, rfl⟩ := Prod.mk.inj (Option.some.inj h)
      obtain ⟨inside, hinside⟩ := List.head?_eq_some_iff.mp hparen
      rw [hinside, List.drop_one, List.tail_cons] at hclosed
      rw [hinside, List.drop_one, List.tail_cons]
      obtain ⟨c, rest, hrest⟩ := List.exists_cons_of_ne_nil hclosed
      have hc : c = ')' := by
        have hhead := List.head_dropWhile_not isArgsChar hclosed
        simpa [hrest, isArgsChar] using hhead
      subst hc
      refine ⟨behind.takeWhile isWhiteSpace, rest, ?_, fun c hc => List.mem_takeWhile_imp hc,
        fun c hc => ?_, rfl⟩
      · rw [← hrest, List.takeWhile_append_dropWhile, ← hinside, List.takeWhile_append_dropWhile]
      · have hargs : isArgsChar c = true := List.mem_takeWhile_imp hc
        exact bne_iff_ne.mp hargs
  · cases h

/-- The head of a controller outside of comments, when they are blanked. -/
theorem controllerHead_blanked
    (hopens : Opens s)
    (hhead : controllerHead (text s) = some (args, n))
    (hstart : s.head?.any Marked.isComment = false)
    (hclose : s[n - 1]?.any Marked.isComment = false) :
    controllerHead (blanked s) =
        some (blanked ((s.drop (n - 1 - args.length)).take args.length), n) ∧
      text ((s.drop (n - 1 - args.length)).take args.length) = args := by
  obtain ⟨space, rest, htext, hspace, hargs, hn⟩ := controllerHead_cases hhead
  have hstarts : Starts s := by
    cases s with
    | nil => exact absurd (congrArg List.length htext) (by simp [text])
    | cons m s => exact starts_of_outside hopens hstart
  have hslash : '/' ∉ "@Controller".toList ++ (space ++ ['(']) := by
    rw [List.mem_append, List.mem_append, not_or, not_or]
    exact ⟨by decide, fun hmem => absurd (hspace _ hmem) (by decide), by decide⟩
  have hfront : ("@Controller".toList ++ (space ++ ['('])).length = n - 1 - args.length := by
    simp only [List.length_append, List.length_cons, List.length_nil]
    omega
  have htext' : text s = "@Controller".toList ++ (space ++ ['(']) ++ (args ++ ')' :: rest) := by
    rw [htext, List.append_assoc, List.append_assoc]
    rfl
  obtain ⟨hshown, hbehind, -⟩ := hstarts.shown htext' hslash
  rw [hfront] at hshown hbehind
  generalize hlist : s.drop (n - 1 - args.length) = list at hshown hbehind
  have hlength : args.length < list.length := by
    have htotal := congrArg List.length hbehind
    rw [length_text, List.length_append, List.length_cons] at htotal
    omega
  have htake : text (list.take args.length) = args := by
    rw [text_take, hbehind, List.take_left]
  have hsplit : list = list.take args.length ++ list[args.length] :: list.drop (args.length + 1) := by
    rw [← List.drop_eq_getElem_cons, List.take_append_drop]
  have hchar : list[args.length].char = ')' := by
    have hget : (text list)[args.length]? = some ')' := by
      rw [hbehind, List.getElem?_append_right (le_refl _), Nat.sub_self]
      rfl
    rw [text, List.getElem?_map, List.getElem?_eq_getElem hlength] at hget
    exact Option.some.inj hget
  have houtside : list[args.length].isComment = false := by
    have hindex : s[n - 1]? = some list[args.length] := by
      rw [← List.getElem?_eq_getElem hlength, ← hlist, List.getElem?_drop]
      congr 1
      omega
    rw [hindex] at hclose
    exact hclose
  have hblanked : blanked list =
      blanked (list.take args.length) ++ ')' :: blanked (list.drop (args.length + 1)) := by
    conv_lhs => rw [hsplit]
    rw [blanked_append, blanked_cons, blank_of_not_isComment houtside, hchar]
  have hinside : ∀ c ∈ blanked (list.take args.length), c ≠ ')' := by
    intro c hc
    obtain ⟨m, hm, rfl⟩ := List.mem_map.mp hc
    refine blank_ne (hargs _ ?_) (by decide)
    rw [← htake]
    exact List.mem_map_of_mem hm
  refine ⟨?_, htake⟩
  have happend :=
    @controllerHead_append _ space (blanked (list.drop (args.length + 1))) hspace hinside
  rw [length_blanked, List.length_take, Nat.min_eq_left hlength.le, ← hn] at happend
  rw [hshown, hblanked, List.append_assoc, List.append_assoc, List.singleton_append]
  exact happend

/-- What the pattern reads of a clear header. -/
theorem controllerPattern_blanked
    {found : ControllerMatch}
    (hopens : Opens s)
    (hfound : controllerPattern (text s) = some found)
    (hclear : headerClear found s = true) :
    braceClear (s.drop found.length) = true ∧
      ∃ found', controllerPattern (blanked s) = some found' ∧
        found'.className = found.className ∧ found'.length = found.length ∧
          extractStringArg found'.argsRaw = extractStringArg found.argsRaw := by
  obtain ⟨⟨args, n⟩, hhead, hclass⟩ := Option.bind_eq_some_iff.mp hfound
  obtain ⟨⟨name, k⟩, hname, rfl⟩ := Option.map_eq_some_iff.mp hclass
  rw [headerClear, hhead] at hclear
  simp only [Bool.and_eq_true, Bool.not_eq_true'] at hclear
  obtain ⟨⟨⟨⟨hstart, hpath⟩, hclose⟩, htoken⟩, hbrace⟩ := hclear
  obtain ⟨hsame, hargs⟩ := controllerHead_blanked hopens hhead hstart hclose
  have hlater : findClass ((blanked s).drop n) = some (name, k) := by
    rw [← blanked_drop, findClass_blanked (opens_drop hopens n) htoken, text_drop]
    exact hname
  refine ⟨hbrace,
    { argsRaw := blanked ((s.drop (n - 1 - args.length)).take args.length)
      className := name
      length := n + k }, ?_, rfl, rfl, ?_⟩
  · rw [controllerPattern, hsame, Option.bind_some, hlater]
    rfl
  · rw [extractStringArg_blanked hpath, hargs]

theorem findIdx?_blanked (s : List Marked) :
    ((text s).findIdx? (· == '\x7b') = none → (blanked s).findIdx? (· == '\x7b') = none) ∧
      ∀ n m, (text s).findIdx? (· == '\x7b') = some n → s[n]? = some m → m.isComment = false →
        (blanked s).findIdx? (· == '\x7b') = some n := by
  induction s with
  | nil =>
      refine ⟨fun _ => rfl, fun n m h => ?_⟩
      cases h
  | cons m s ih =>
      obtain ⟨hnone, hsome⟩ := ih
      rw [text_cons, blanked_cons, List.findIdx?_cons, List.findIdx?_cons]
      by_cases hbrace : m.char = '\x7b'
      · rw [if_pos (beq_iff_eq.mpr hbrace)]
        refine ⟨fun h => ?_, fun n m' hn hm houtside => ?_⟩
        · cases h
        obtain rfl := Option.some.inj hn
        obtain rfl := Option.some.inj hm
        rw [blank_of_not_isComment houtside, if_pos (beq_iff_eq.mpr hbrace)]
      · have hblank : ¬(m.blank == '\x7b') = true := by
          rw [beq_iff_eq]
          exact blank_ne hbrace (by decide)
        rw [if_neg (by simpa using hbrace), if_neg hblank]
        refine ⟨fun h => ?_, fun n m' hn hm houtside => ?_⟩
        · rw [hnone (Option.map_eq_none_iff.mp h)]
          rfl
        · obtain ⟨k, hk, rfl⟩ := Option.map_eq_some_iff.mp hn
          rw [hsome k m' hk hm houtside]
          rfl

end Headers

end RouteAudit
end Core
end NestBase
