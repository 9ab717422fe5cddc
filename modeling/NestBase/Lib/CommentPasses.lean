import NestBase.Lib.Unicode

/-!
# Comments blanked by two passes over a text

A first pass blanks the block comments wherever they seem to open, and a
second one every line from its first two slashes on.  Neither pass knows
string literals, and the first does not know line comments.

A text is given by its tokens: characters, string literals and line comments.
The two passes blank the line comments and nothing else before them
(`blankLines_blankBlocks`), as long as no block comment that opens in a
literal or a line comment is closed behind it (`BlocksInert`).  What the second
pass blanks behind two slashes of a literal is stated token by token (`left`).
-/

namespace NestBase
namespace Lib
namespace CommentPasses

/-! ## The passes -/

/-- One space for each code unit; a line break stays. -/
def blank (c : Char) : List Char :=
  if c = '\n' then ['\n'] else List.replicate (Unicode.utf16Char c).length ' '

/-- A block comment is closed somewhere in the text. -/
def closes : List Char → Bool
  | '*' :: '/' :: _ => true
  | _ :: rest => closes rest
  | [] => false

/-- The first pass.  A block comment that is never closed is none. -/
def blankBlocks : Bool → List Char → List Char
  | false, '/' :: '*' :: rest =>
      if closes rest then ' ' :: ' ' :: blankBlocks true rest
      else '/' :: '*' :: blankBlocks false rest
  | true, '*' :: '/' :: rest => ' ' :: ' ' :: blankBlocks false rest
  | false, c :: rest => c :: blankBlocks false rest
  | true, c :: rest => blank c ++ blankBlocks true rest
  | _, [] => []

/-- A block comment is open behind the text. -/
def leavesOpen : Bool → List Char → Bool
  | false, '/' :: '*' :: rest => leavesOpen true rest
  | true, '*' :: '/' :: rest => leavesOpen false rest
  | inside, _ :: rest => leavesOpen inside rest
  | inside, [] => inside

/-- The second pass. -/
def blankLines : Bool → List Char → List Char
  | false, '/' :: '/' :: rest => ' ' :: ' ' :: blankLines true rest
  | false, c :: rest => c :: blankLines false rest
  | true, c :: rest => blank c ++ blankLines (decide (c ≠ '\n')) rest
  | _, [] => []

/-- The text behind is blanked up to the end of its line. -/
def commented : Bool → List Char → Bool
  | false, '/' :: '/' :: rest => commented true rest
  | false, _ :: rest => commented false rest
  | true, c :: rest => commented (decide (c ≠ '\n')) rest
  | inside, [] => inside

/-! ## Tokens -/

inductive Token where
  | char (c : Char)
  | literal (text : List Char)
  | comment (text : List Char)
deriving DecidableEq

/-- The quotes of a literal's text stand behind a backslash. -/
def escapesQuotes : List Char → Bool
  | '\\' :: _ :: rest => escapesQuotes rest
  | ['\\'] => false
  | '"' :: _ => false
  | _ :: rest => escapesQuotes rest
  | [] => true

namespace Token

def text : Token → List Char
  | char c => [c]
  | literal s => '"' :: s ++ ['"']
  | comment t => '/' :: '/' :: t

def isComment : Token → Bool
  | comment _ => true
  | _ => false

def isLiteral : Token → Bool
  | literal _ => true
  | _ => false

def WellFormed : Token → Prop
  | char c => c ≠ '"' ∧ c ≠ '\'' ∧ c ≠ '/'
  | literal s => '\n' ∉ s ∧ escapesQuotes s = true
  | comment t => '\n' ∉ t

instance (token : Token) : Decidable token.WellFormed :=
  match token with
  | char c => inferInstanceAs (Decidable (c ≠ '"' ∧ c ≠ '\'' ∧ c ≠ '/'))
  | literal s => inferInstanceAs (Decidable ('\n' ∉ s ∧ escapesQuotes s = true))
  | comment t => inferInstanceAs (Decidable ('\n' ∉ t))

/-- The token behind the first pass. -/
def blankInside : Token → Token
  | comment t => comment (blankBlocks false t)
  | token => token

end Token

open Token

def textOf (tokens : List Token) : List Char :=
  tokens.flatMap Token.text

/-- A comment ends with its line. -/
def Lexed : List Token → Prop
  | [] => True
  | token :: rest =>
      token.WellFormed ∧
        (token.isComment = true → rest = [] ∨ rest.head? = some (.char '\n')) ∧
        Lexed rest

instance decidableLexed : (tokens : List Token) → Decidable (Lexed tokens)
  | [] => .isTrue trivial
  | token :: rest =>
      have := decidableLexed rest
      inferInstanceAs (Decidable (token.WellFormed ∧
        (token.isComment = true → rest = [] ∨ rest.head? = some (.char '\n')) ∧ Lexed rest))

/-- No block comment that seems to open in a literal or a line comment is
closed outside of that comment. -/
def BlocksInert : List Token → Prop
  | [] => True
  | char _ :: rest => BlocksInert rest
  | literal s :: rest =>
      (blankBlocks false s = s ∧
        (leavesOpen false s = true → closes (textOf rest) = false)) ∧
        BlocksInert rest
  | comment t :: rest =>
      -- the second slash and a star open a block comment as well
      ((t.head? = some '*' → closes (t.tail ++ textOf rest) = false) ∧
        (leavesOpen false t = true → closes (textOf rest) = false)) ∧
        BlocksInert rest

instance decidableBlocksInert : (tokens : List Token) → Decidable (BlocksInert tokens)
  | [] => .isTrue trivial
  | char _ :: rest => decidableBlocksInert rest
  | literal s :: rest =>
      have := decidableBlocksInert rest
      inferInstanceAs (Decidable ((blankBlocks false s = s ∧
        (leavesOpen false s = true → closes (textOf rest) = false)) ∧ BlocksInert rest))
  | comment t :: rest =>
      have := decidableBlocksInert rest
      inferInstanceAs (Decidable
        (((t.head? = some '*' → closes (t.tail ++ textOf rest) = false) ∧
          (leavesOpen false t = true → closes (textOf rest) = false)) ∧ BlocksInert rest))

/-- What the second pass leaves of the tokens. -/
def left : Bool → List Token → List Char
  | _, [] => []
  | inside, token :: rest =>
      blankLines inside token.text ++ left (commented inside token.text) rest

/-- The line pass is still blanking behind the tokens. -/
def leftCommented : Bool → List Token → Bool
  | inside, [] => inside
  | inside, token :: rest => leftCommented (commented inside token.text) rest

/-! ## The first pass over a concatenation -/

section FirstPass

attribute [local simp] closes blankBlocks leavesOpen

/-- The text neither opens nor closes a block comment with a character before it. -/
def Apart (rest : List Char) : Prop :=
  rest.head? ≠ some '*' ∧ rest.head? ≠ some '/'

variable {rest : List Char}

theorem head?_append_ne
    {text : List Char} {d : Char}
    (htext : text.head? ≠ some d)
    (hrest : rest.head? ≠ some d) :
    (text ++ rest).head? ≠ some d := by
  cases text with
  | nil => exact hrest
  | cons c text => exact htext

variable {c : Char}

theorem blankBlocks_cons (h : ¬ (c = '/' ∧ rest.head? = some '*')) :
    blankBlocks false (c :: rest) = c :: blankBlocks false rest := by
  rw [blankBlocks]
  rintro after rfl rfl
  exact h ⟨rfl, rfl⟩

theorem blankBlocks_inside_cons (h : ¬ (c = '*' ∧ rest.head? = some '/')) :
    blankBlocks true (c :: rest) = blank c ++ blankBlocks true rest := by
  rw [blankBlocks]
  rintro after rfl rfl
  exact h ⟨rfl, rfl⟩

theorem closes_cons (h : ¬ (c = '*' ∧ rest.head? = some '/')) :
    closes (c :: rest) = closes rest := by
  rw [closes]
  rintro after rfl rfl
  exact h ⟨rfl, rfl⟩

theorem not_closing_of_not_closes (h : closes (c :: rest) = false) :
    ¬ (c = '*' ∧ rest.head? = some '/') := by
  rintro ⟨rfl, hhead⟩
  obtain ⟨after, rfl⟩ := List.head?_eq_some_iff.mp hhead
  simp at h

theorem closes_of_cons (h : closes (c :: rest) = false) :
    closes rest = false := by
  rwa [closes_cons (not_closing_of_not_closes h)] at h

theorem closes_append_left {text : List Char} (rest : List Char) (h : closes text = true) :
    closes (text ++ rest) = true := by
  induction text with
  | nil => simp at h
  | cons c text ih =>
      by_contra hfalse
      have happend : closes (c :: (text ++ rest)) = false := by simpa using hfalse
      by_cases hclosing : c = '*' ∧ text.head? = some '/'
      · obtain ⟨rfl, hhead⟩ := hclosing
        obtain ⟨after, rfl⟩ := List.head?_eq_some_iff.mp hhead
        simp at happend
      · rw [closes_cons hclosing] at h
        have hrest := closes_of_cons happend
        simp [ih h] at hrest

theorem closes_of_append {text : List Char} (h : closes (text ++ rest) = false) :
    closes rest = false := by
  induction text with
  | nil => exact h
  | cons c text ih => exact ih (closes_of_cons h)

theorem closes_append
    {text : List Char}
    (htext : closes text = false)
    (hrest : closes rest = false)
    (hapart : Apart rest) :
    closes (text ++ rest) = false := by
  induction text with
  | nil => exact hrest
  | cons c text ih =>
      have hnot : ¬ (c = '*' ∧ (text ++ rest).head? = some '/') := by
        rintro ⟨rfl, hhead⟩
        have hhead' : text.head? ≠ some '/' := fun h =>
          not_closing_of_not_closes htext ⟨rfl, h⟩
        exact head?_append_ne hhead' hapart.2 hhead
      rw [List.cons_append, closes_cons hnot]
      exact ih (closes_of_cons htext)

/-- A text that closes no block comment stays as it is. -/
theorem blankBlocks_of_not_closes {text : List Char} (h : closes text = false) :
    blankBlocks false text = text := by
  induction text with
  | nil => rfl
  | cons c rest ih =>
      have hrest := ih (closes_of_cons h)
      by_cases hopen : c = '/' ∧ rest.head? = some '*'
      · obtain ⟨rfl, hhead⟩ := hopen
        obtain ⟨after, rfl⟩ := List.head?_eq_some_iff.mp hhead
        have hafter : closes after = false := closes_of_cons (closes_of_cons h)
        have hstar : ¬ ('*' = '/' ∧ after.head? = some '*') := by simp
        rw [blankBlocks_cons hstar] at hrest
        simp only [blankBlocks, hafter, Bool.false_eq_true, if_false]
        rw [hrest]
      · rw [blankBlocks_cons hopen, hrest]

theorem leavesOpen_inside_cons (h : ¬ (c = '*' ∧ rest.head? = some '/')) :
    leavesOpen true (c :: rest) = leavesOpen true rest := by
  rw [leavesOpen]
  · simp
  · rintro after - rfl rfl
    exact h ⟨rfl, rfl⟩

/-- A block comment that is open at the start and not closed stays open. -/
theorem leavesOpen_of_not_closes {text : List Char} (h : closes text = false) :
    leavesOpen true text = true := by
  induction text with
  | nil => rfl
  | cons c rest ih =>
      rw [leavesOpen_inside_cons (not_closing_of_not_closes h)]
      exact ih (closes_of_cons h)

/-- The first pass reads a concatenation part by part, as long as a block
comment left open in the first part is not closed in the second. -/
theorem blankBlocks_append
    (hapart : Apart rest)
    (inside : Bool)
    (text : List Char)
    (hinside : inside = true → closes text = true)
    (hopen : leavesOpen inside text = true → closes rest = false) :
    blankBlocks inside (text ++ rest) =
      blankBlocks inside text ++ blankBlocks false rest := by
  fun_induction leavesOpen inside text with
  | case1 after ih =>
      by_cases hcloses : closes after = true
      · have happend := closes_append_left rest hcloses
        simp only [List.cons_append, blankBlocks, hcloses, happend, if_true]
        rw [ih (fun _ => hcloses) hopen]
      · have hafter : closes after = false := by simpa using hcloses
        have hrest : closes rest = false := hopen (leavesOpen_of_not_closes hafter)
        have happend := closes_append hafter hrest hapart
        simp only [List.cons_append, blankBlocks, hafter, happend, Bool.false_eq_true, if_false]
        rw [blankBlocks_of_not_closes happend, blankBlocks_of_not_closes hafter,
          blankBlocks_of_not_closes hrest]
  | case2 after ih =>
      simp only [List.cons_append, blankBlocks]
      rw [ih (by simp) hopen]
  | case3 inside c text hslash hstar ih =>
      cases inside with
      | false =>
          have hnot : ¬ (c = '/' ∧ text.head? = some '*') := by
            rintro ⟨rfl, hhead⟩
            obtain ⟨after, rfl⟩ := List.head?_eq_some_iff.mp hhead
            exact hslash after rfl rfl rfl
          have happend : ¬ (c = '/' ∧ (text ++ rest).head? = some '*') := by
            rintro ⟨hc, hhead⟩
            have hhead' : text.head? ≠ some '*' := fun h => hnot ⟨hc, h⟩
            exact head?_append_ne hhead' hapart.1 hhead
          rw [List.cons_append, blankBlocks_cons happend, blankBlocks_cons hnot,
            List.cons_append, ih (by simp) hopen]
      | true =>
          have hnot : ¬ (c = '*' ∧ text.head? = some '/') := by
            rintro ⟨rfl, hhead⟩
            obtain ⟨after, rfl⟩ := List.head?_eq_some_iff.mp hhead
            exact hstar after rfl rfl rfl
          have happend : ¬ (c = '*' ∧ (text ++ rest).head? = some '/') := by
            rintro ⟨hc, hhead⟩
            have hhead' : text.head? ≠ some '/' := fun h => hnot ⟨hc, h⟩
            exact head?_append_ne hhead' hapart.2 hhead
          have hcloses := hinside rfl
          rw [closes_cons hnot] at hcloses
          rw [List.cons_append, blankBlocks_inside_cons happend, blankBlocks_inside_cons hnot,
            ih (fun _ => hcloses) hopen, List.append_assoc]
  | case4 inside =>
      cases inside with
      | false => simp
      | true => simp at hinside

end FirstPass

/-! ## The first pass over tokens -/

@[simp] theorem textOf_nil : textOf [] = [] := rfl

@[simp] theorem textOf_cons (token : Token) (rest : List Token) :
    textOf (token :: rest) = token.text ++ textOf rest := rfl

variable {rest : List Token}

/-- Behind a line comment the text goes on with a line break. -/
theorem apart_textOf (h : rest = [] ∨ rest.head? = some (.char '\n')) :
    Apart (textOf rest) := by
  rcases h with rfl | hhead
  · simp [Apart]
  · obtain ⟨after, rfl⟩ := List.head?_eq_some_iff.mp hhead
    simp [Apart, Token.text]

/-- The first pass blanks text inside of line comments only. -/
theorem blankBlocks_textOf
    {tokens : List Token}
    (hlexed : Lexed tokens)
    (hinert : BlocksInert tokens) :
    blankBlocks false (textOf tokens) = textOf (tokens.map Token.blankInside) := by
  induction tokens with
  | nil => rfl
  | cons token rest ih =>
      obtain ⟨hwell, hends, hrest⟩ := hlexed
      cases token with
      | char c =>
          obtain ⟨-, -, hslash⟩ := hwell
          have hnot : ¬ (c = '/' ∧ (textOf rest).head? = some '*') := fun h => hslash h.1
          simp only [textOf_cons, List.map_cons, Token.blankInside, Token.text,
            List.singleton_append]
          rw [blankBlocks_cons hnot, ih hrest hinert]
      | literal s =>
          obtain ⟨⟨hsame, hopen⟩, hinert⟩ := hinert
          have hquote : Apart ('"' :: textOf rest) := by simp [Apart]
          have hopen' : leavesOpen false s = true → closes ('"' :: textOf rest) = false := by
            intro h
            rw [closes_cons (by simp)]
            exact hopen h
          simp only [textOf_cons, List.map_cons, Token.blankInside, Token.text, List.cons_append,
            List.append_assoc, List.nil_append]
          rw [blankBlocks_cons (by simp), blankBlocks_append hquote false s (by simp) hopen', hsame,
            blankBlocks_cons (by simp), ih hrest hinert]
      | comment t =>
          obtain ⟨⟨hstar, hopen⟩, hinert⟩ := hinert
          have hrest' := ih hrest hinert
          have hapart := apart_textOf (hends rfl)
          simp only [textOf_cons, List.map_cons, Token.blankInside, Token.text, List.cons_append]
          rw [blankBlocks_cons (by simp)]
          by_cases hhead : t.head? = some '*'
          · obtain ⟨u, rfl⟩ := List.head?_eq_some_iff.mp hhead
            have hcloses : closes (u ++ textOf rest) = false := hstar rfl
            have hu : closes u = false := by
              by_contra htrue
              have := closes_append_left (textOf rest) (by simpa using htrue)
              simp [hcloses] at this
            have hafter := closes_of_append hcloses
            have hcons : ¬ ('*' = '/' ∧ u.head? = some '*') := by simp
            rw [← hrest', blankBlocks_of_not_closes hafter, blankBlocks_cons hcons,
              blankBlocks_of_not_closes hu, List.cons_append]
            simp only [blankBlocks, hcloses, Bool.false_eq_true, if_false]
            rw [blankBlocks_of_not_closes hcloses]
          · have hnot : ¬ ('/' = '/' ∧ (t ++ textOf rest).head? = some '*') := fun h =>
              head?_append_ne hhead hapart.1 h.2
            rw [blankBlocks_cons hnot, blankBlocks_append hapart false t (by simp) hopen, hrest']

/-! ## The second pass over tokens -/

section SecondPass

attribute [local simp] blankLines commented

theorem blankLines_cons {c : Char} {rest : List Char} (h : ¬ (c = '/' ∧ rest.head? = some '/')) :
    blankLines false (c :: rest) = c :: blankLines false rest := by
  rw [blankLines]
  rintro after rfl rfl
  exact h ⟨rfl, rfl⟩

theorem commented_cons {c : Char} {rest : List Char} (h : ¬ (c = '/' ∧ rest.head? = some '/')) :
    commented false (c :: rest) = commented false rest := by
  rw [commented]
  rintro after rfl rfl
  exact h ⟨rfl, rfl⟩

/-- The second pass reads a concatenation part by part, where two slashes do
not meet between the parts. -/
theorem blankLines_append
    (inside : Bool)
    (text rest : List Char)
    (h : text.getLast? ≠ some '/' ∨ rest.head? ≠ some '/') :
    blankLines inside (text ++ rest) =
      blankLines inside text ++ blankLines (commented inside text) rest := by
  fun_induction commented inside text with
  | case1 after ih =>
      have hafter : after.getLast? ≠ some '/' ∨ rest.head? ≠ some '/' := by
        cases after with
        | nil => simp
        | cons c after => simpa using h
      simp only [List.cons_append, blankLines]
      rw [ih hafter]
  | case2 c text hslash ih =>
      have hnot : ¬ (c = '/' ∧ text.head? = some '/') := by
        rintro ⟨rfl, hhead⟩
        obtain ⟨after, rfl⟩ := List.head?_eq_some_iff.mp hhead
        exact hslash after rfl rfl
      cases text with
      | nil =>
          have happend : ¬ (c = '/' ∧ rest.head? = some '/') := by
            rintro ⟨rfl, hhead⟩
            simp [hhead] at h
          rw [List.singleton_append, blankLines_cons happend, blankLines_cons hnot]
          rfl
      | cons d text =>
          have happend : ¬ (c = '/' ∧ ((d :: text) ++ rest).head? = some '/') := by
            simpa using hnot
          have hrest := ih (by simpa using h)
          rw [List.cons_append, blankLines_cons happend, blankLines_cons hnot, hrest,
            List.cons_append]
  | case3 c text ih =>
      have htext : text.getLast? ≠ some '/' ∨ rest.head? ≠ some '/' := by
        cases text with
        | nil => simp
        | cons d text => simpa using h
      simp only [List.cons_append, blankLines]
      rw [ih htext, List.append_assoc]
  | case4 inside => simp

/-- No token ends with a slash but a comment, and no token but a comment opens
with one. -/
theorem blankLines_textOf (inside : Bool) {tokens : List Token} (h : Lexed tokens) :
    blankLines inside (textOf tokens) = left inside tokens := by
  induction tokens generalizing inside with
  | nil => simp [left]
  | cons token rest ih =>
      obtain ⟨hwell, hends, hrest⟩ := h
      have hmeet : token.text.getLast? ≠ some '/' ∨ (textOf rest).head? ≠ some '/' := by
        cases token with
        | char c => exact .inl (by simpa [Token.text] using hwell.2.2)
        | literal s =>
            left
            rw [Token.text, List.getLast?_append]
            simp
        | comment t => exact .inr (apart_textOf (hends rfl)).2
      rw [textOf_cons, blankLines_append inside token.text (textOf rest) hmeet,
        ih (commented inside token.text) hrest, left]

end SecondPass

/-! ## Both passes over tokens -/

variable {c : Char}

theorem blank_of_ne (h : c ≠ '\n') :
    blank c = List.replicate (Unicode.utf16Char c).length ' ' := by
  simp [blank, h]

theorem eq_of_mem_blank {d : Char} (h : d ∈ blank c) : d = ' ' ∨ d = '\n' := by
  unfold blank at h
  split at h
  · exact .inr (List.mem_singleton.mp h)
  · exact .inl (List.eq_of_mem_replicate h)

theorem blankLines_replicate (n : Nat) (rest : List Char) :
    blankLines true (List.replicate n ' ' ++ rest) =
      List.replicate n ' ' ++ blankLines true rest := by
  induction n with
  | zero => rfl
  | succ n ih =>
      have hspace : blank ' ' = [' '] := by decide
      simp only [List.replicate_succ, List.cons_append, blankLines, hspace]
      simpa using ih

theorem blankLines_inside_cons (h : c ≠ '\n') (rest : List Char) :
    blankLines true (c :: rest) = blank c ++ blankLines true rest := by
  simp [blankLines, h]

/-- Within a line the second pass does not see what the first one has blanked. -/
theorem blankLines_blankBlocks_line (inside : Bool) {text : List Char} (h : '\n' ∉ text) :
    blankLines true (blankBlocks inside text) = blankLines true text := by
  have hspace : ∀ rest, blankLines true (' ' :: rest) = ' ' :: blankLines true rest :=
    blankLines_inside_cons (by decide)
  have hslash : ∀ rest, blankLines true ('/' :: rest) = ' ' :: blankLines true rest :=
    blankLines_inside_cons (by decide)
  have hstar : ∀ rest, blankLines true ('*' :: rest) = ' ' :: blankLines true rest :=
    blankLines_inside_cons (by decide)
  fun_induction blankBlocks inside text with
  | case1 rest hcloses ih =>
      have hrest := ih (by simp at h; exact h)
      rw [hspace, hspace, hslash, hstar, hrest]
  | case2 rest hcloses ih =>
      have hrest := ih (by simp at h; exact h)
      rw [hslash, hslash, hstar, hstar, hrest]
  | case3 rest ih =>
      have hrest := ih (by simp at h; exact h)
      rw [hspace, hspace, hstar, hslash, hrest]
  | case4 c rest hopen ih =>
      rw [List.mem_cons, not_or] at h
      rw [blankLines_inside_cons (Ne.symm h.1), blankLines_inside_cons (Ne.symm h.1), ih h.2]
  | case5 c rest hclose ih =>
      rw [List.mem_cons, not_or] at h
      rw [blankLines_inside_cons (Ne.symm h.1), blank_of_ne (Ne.symm h.1), blankLines_replicate,
        ih h.2]
  | case6 inside => rfl

theorem commented_of_not_mem {text : List Char} (h : '\n' ∉ text) :
    commented true text = true := by
  induction text with
  | nil => rfl
  | cons c text ih =>
      rw [List.mem_cons, not_or] at h
      have hc : c ≠ '\n' := Ne.symm h.1
      simpa [commented, hc] using ih h.2

theorem not_mem_blankBlocks (inside : Bool) {text : List Char} (h : '\n' ∉ text) :
    '\n' ∉ blankBlocks inside text := by
  fun_induction blankBlocks inside text with
  | case1 rest hcloses ih =>
      have hrest := ih (by simp at h; exact h)
      simpa using hrest
  | case2 rest hcloses ih =>
      have hrest := ih (by simp at h; exact h)
      simpa using hrest
  | case3 rest ih =>
      have hrest := ih (by simp at h; exact h)
      simpa using hrest
  | case4 c rest hopen ih =>
      rw [List.mem_cons, not_or] at h
      rw [List.mem_cons, not_or]
      exact ⟨h.1, ih h.2⟩
  | case5 c rest hclose ih =>
      rw [List.mem_cons, not_or] at h
      rw [blank_of_ne (Ne.symm h.1), List.mem_append, not_or]
      exact ⟨by simp, ih h.2⟩
  | case6 inside => exact h

theorem lexed_blankInside {tokens : List Token} (h : Lexed tokens) :
    Lexed (tokens.map Token.blankInside) := by
  induction tokens with
  | nil => trivial
  | cons token rest ih =>
      obtain ⟨hwell, hends, hrest⟩ := h
      refine ⟨?_, ?_, ih hrest⟩
      · cases token with
        | char c => exact hwell
        | literal s => exact hwell
        | comment t => exact not_mem_blankBlocks false hwell
      · intro hcomment
        have htoken : token.isComment = true := by
          cases token <;> exact hcomment
        rcases hends htoken with rfl | hhead
        · exact .inl rfl
        · right
          rw [List.head?_map, hhead]
          rfl

theorem left_blankInside (inside : Bool) {tokens : List Token} (h : Lexed tokens) :
    left inside (tokens.map Token.blankInside) = left inside tokens := by
  induction tokens generalizing inside with
  | nil => rfl
  | cons token rest ih =>
      obtain ⟨hwell, -, hrest⟩ := h
      rw [List.map_cons, left, left, ih _ hrest]
      cases token with
      | char c => rfl
      | literal s => rfl
      | comment t =>
          have hslash : blank '/' = [' '] := by decide
          have hsame := blankLines_blankBlocks_line false hwell
          have hafter := commented_of_not_mem hwell
          have hafter' := commented_of_not_mem (not_mem_blankBlocks false hwell)
          cases inside <;>
            simp [Token.blankInside, Token.text, blankLines, commented, hsame, hafter, hafter']

/-- The two passes leave the tokens without their comments, and without what
stands behind two slashes of a literal in its line. -/
theorem blankLines_blankBlocks
    {tokens : List Token}
    (hlexed : Lexed tokens)
    (hinert : BlocksInert tokens) :
    blankLines false (blankBlocks false (textOf tokens)) = left false tokens := by
  rw [blankBlocks_textOf hlexed hinert, blankLines_textOf false (lexed_blankInside hlexed),
    left_blankInside false hlexed]

/-! ## What the second pass leaves -/

theorem lexed_of_suffix {tokens : List Token} (h : Lexed tokens) (hsuffix : rest <:+ tokens) :
    Lexed rest := by
  induction tokens with
  | nil =>
      rw [List.suffix_nil.mp hsuffix]
      trivial
  | cons token tokens ih =>
      rcases List.suffix_cons_iff.mp hsuffix with rfl | hsuffix
      · exact h
      · exact ih h.2.2 hsuffix

theorem wellFormed_of_mem {tokens : List Token} (h : Lexed tokens) {token : Token}
    (hmem : token ∈ tokens) : token.WellFormed := by
  induction tokens with
  | nil => exact absurd hmem List.not_mem_nil
  | cons first tokens ih =>
      rcases List.mem_cons.mp hmem with rfl | hmem
      · exact h.1
      · exact ih h.2.2 hmem

/-- The last token is no comment. -/
def EndsVisibly (tokens : List Token) : Prop :=
  ∀ token ∈ tokens.getLast?, token.isComment = false

theorem lexed_append
    {first second : List Token}
    (hfirst : Lexed first)
    (hends : EndsVisibly first)
    (hsecond : Lexed second) :
    Lexed (first ++ second) := by
  induction first with
  | nil => exact hsecond
  | cons token rest ih =>
      cases rest with
      | nil =>
          refine ⟨hfirst.1, fun hcomment => ?_, hsecond⟩
          have hvisible := hends token rfl
          simp [hvisible] at hcomment
      | cons next rest =>
          refine ⟨hfirst.1, fun hcomment => ?_, ih hfirst.2.2 (by simpa [EndsVisibly] using hends)⟩
          simpa using hfirst.2.1 hcomment

theorem left_append (inside : Bool) (first second : List Token) :
    left inside (first ++ second) =
      left inside first ++ left (leftCommented inside first) second := by
  induction first generalizing inside with
  | nil => rfl
  | cons token rest ih =>
      simp only [List.cons_append, left, leftCommented]
      rw [ih, List.append_assoc]

theorem blankLines_char (c : Char) : blankLines false [c] = [c] := by
  rw [blankLines_cons (by simp)]
  rfl

theorem commented_char (c : Char) : commented false [c] = false := by
  rw [commented_cons (by simp)]
  rfl

@[simp] theorem left_char (c : Char) (rest : List Token) :
    left false (.char c :: rest) = c :: left false rest := by
  simp only [left, Token.text, blankLines_char, commented_char, List.singleton_append]

theorem left_inside_char (c : Char) (rest : List Token) :
    left true (.char c :: rest) = blank c ++ left (decide (c ≠ '\n')) rest := by
  simp [left, Token.text, blankLines, commented]

/-- A literal is left with its opening quote. -/
theorem left_literal (s : List Char) (rest : List Token) :
    ∃ behind, left false (.literal s :: rest) = '"' :: behind := by
  have hquote : ¬ ('"' = '/' ∧ (s ++ ['"']).head? = some '/') := by simp
  refine ⟨blankLines false (s ++ ['"']) ++ left (commented false (literal s).text) rest, ?_⟩
  rw [left]
  change blankLines false ('"' :: (s ++ ['"'])) ++ _ = _
  rw [blankLines_cons hquote]
  rfl

theorem commented_of_blankLines_eq {text : List Char} (h : blankLines false text = text) :
    commented false text = false := by
  induction text with
  | nil => rfl
  | cons c rest ih =>
      by_cases hslash : c = '/' ∧ rest.head? = some '/'
      · obtain ⟨rfl, hhead⟩ := hslash
        obtain ⟨after, rfl⟩ := List.head?_eq_some_iff.mp hhead
        simp [blankLines] at h
      · rw [blankLines_cons hslash] at h
        rw [commented_cons hslash]
        exact ih (List.cons.inj h).2

/-- A literal without two slashes is left as it is. -/
theorem left_literal_of_blankLines_eq
    {s : List Char}
    (h : blankLines false s = s)
    (rest : List Token) :
    left false (.literal s :: rest) = '"' :: s ++ '"' :: left false rest := by
  have hquote : ¬ ('"' = '/' ∧ (s ++ ['"']).head? = some '/') := by simp
  have hcommented := commented_of_blankLines_eq h
  have htext : blankLines false (literal s).text = '"' :: (s ++ ['"']) := by
    change blankLines false ('"' :: (s ++ ['"'])) = _
    rw [blankLines_cons hquote, blankLines_append false s ['"'] (.inr (by simp)), h, hcommented,
      blankLines_char]
  have hafter : commented false (literal s).text = false := by
    apply commented_of_blankLines_eq
    rw [htext]
    rfl
  rw [left, htext, hafter]
  simp

theorem not_mem_blankLines (inside : Bool) {text : List Char} (h : '\n' ∉ text) :
    '\n' ∉ blankLines inside text := by
  fun_induction blankLines inside text with
  | case1 rest ih =>
      have hrest := ih (by simp at h; exact h)
      simpa using hrest
  | case2 c rest hslash ih =>
      rw [List.mem_cons, not_or] at h ⊢
      exact ⟨h.1, ih h.2⟩
  | case3 c rest ih =>
      rw [List.mem_cons, not_or] at h
      rw [blank_of_ne (Ne.symm h.1), List.mem_append, not_or]
      exact ⟨by simp, ih h.2⟩
  | case4 inside => exact h

theorem eq_space_of_mem_blankLines
    {text : List Char}
    (h : '\n' ∉ text)
    (hc : c ∈ blankLines true text) :
    c = ' ' := by
  induction text with
  | nil => simp [blankLines] at hc
  | cons d text ih =>
      rw [List.mem_cons, not_or] at h
      rw [blankLines_inside_cons (Ne.symm h.1), blank_of_ne (Ne.symm h.1), List.mem_append] at hc
      rcases hc with hc | hc
      · exact List.eq_of_mem_replicate hc
      · exact ih h.2 hc

/-- A comment is left as spaces. -/
theorem left_comment {t : List Char} (h : Lexed (.comment t :: rest)) (inside : Bool) :
    ∃ spaces : List Char, (∀ c ∈ spaces, c = ' ') ∧ spaces ≠ [] ∧
      left inside (.comment t :: rest) = spaces ++ left false rest := by
  obtain ⟨hwell, hends, -⟩ := h
  have hafter : left true rest = left false rest := by
    rcases hends rfl with rfl | hhead
    · rfl
    · obtain ⟨after, rfl⟩ := List.head?_eq_some_iff.mp hhead
      rw [left_inside_char, left_char]
      rfl
  have hslash : blank '/' = [' '] := by decide
  have hcommented := commented_of_not_mem hwell
  refine ⟨' ' :: ' ' :: blankLines true t, ?_, by simp, ?_⟩
  · intro c hc
    simp only [List.mem_cons] at hc
    rcases hc with rfl | rfl | hc
    · rfl
    · rfl
    · exact eq_space_of_mem_blankLines hwell hc
  · cases inside <;>
      simp [left, Token.text, blankLines, commented, hcommented, hslash, hafter]

end CommentPasses
end Lib
end NestBase
