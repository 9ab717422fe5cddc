import NestBase.Lib.Text

/-!
# Text search queries of PostgreSQL

The text that `to_tsquery` reads.  Where an operand is expected, `!` and `(` may
stand in front of it.  An operand in quotes ends at the next quote, and two
quotes stand for one; any other operand ends at white space, at a colon or at
one of `& | ! ( )`.  A backslash takes the next character as it is, in both.  A
colon behind an operand begins its weights and the star of a prefix search.
Where an operator is expected, one of `&`, `|`, `<->`, `<N>` and `)` stands.

Which characters outside ASCII are white space depends on the locale of the
database, and a text of the database never holds the null character.

`!` binds tightest, then `<->`, `&` and `|`, and the binary ones group to the left.
-/

namespace NestBase
namespace Lib
namespace TextSearchQuery

section Lexer

/-- ASCII white space, and what the locale adds to it. -/
def isSpace (locale : Char → Bool) (c : Char) : Bool :=
  decide (9 ≤ c.toNat ∧ c.toNat ≤ 13) || c == ' ' || (decide (128 ≤ c.toNat) && locale c)

def isOperator (c : Char) : Bool :=
  ['!', '&', '|', '(', ')'].contains c

structure Operand where
  text : List Char
  /-- `*` -/
  starred : Bool
  /-- `A`, `B`, `C` and `D` as the bits 8, 4, 2 and 1 -/
  weights : Nat
deriving DecidableEq

inductive Token where
  | operand (operand : Operand)
  | not
  | and
  | or
  | phrase (distance : Nat)
  | openParen
  | closeParen
deriving DecidableEq

/-- The operand behind a quote, and what follows its last quote. -/
def readQuoted : List Char → Option (List Char × List Char)
  | [] => none
  | '\'' :: '\'' :: rest => (readQuoted rest).map fun found => ('\'' :: found.1, found.2)
  | '\'' :: rest => some ([], rest)
  | ['\\'] => none
  | '\\' :: c :: rest => (readQuoted rest).map fun found => (c :: found.1, found.2)
  | c :: rest => (readQuoted rest).map fun found => (c :: found.1, found.2)

def isStop (locale : Char → Bool) (c : Char) : Bool :=
  isSpace locale c || isOperator c || c == ':'

/-- The operand up to a stop, and the rest from the stop on. -/
def readPlain (locale : Char → Bool) : List Char → Option (List Char × List Char)
  | [] => some ([], [])
  | ['\\'] => none
  | '\\' :: c :: rest => (readPlain locale rest).map fun found => (c :: found.1, found.2)
  | c :: rest =>
      if isStop locale c then some ([], c :: rest)
      else (readPlain locale rest).map fun found => (c :: found.1, found.2)

/-- An operand is not empty. -/
def readOperand (locale : Char → Bool) (text : List Char) : Option (List Char × List Char) :=
  let found :=
    match text with
    | '\'' :: rest => readQuoted rest
    | text => readPlain locale text
  found.filter fun found => found.1 ≠ []

def readWeights : Bool → Nat → List Char → (Bool × Nat) × List Char
  | starred, weights, [] => ((starred, weights), [])
  | starred, weights, c :: rest =>
      if c = '*' then readWeights true weights rest
      else if c = 'a' ∨ c = 'A' then readWeights starred (weights ||| 8) rest
      else if c = 'b' ∨ c = 'B' then readWeights starred (weights ||| 4) rest
      else if c = 'c' ∨ c = 'C' then readWeights starred (weights ||| 2) rest
      else if c = 'd' ∨ c = 'D' then readWeights starred (weights ||| 1) rest
      else ((starred, weights), c :: rest)

/-- What a colon begins. -/
def readModifiers : List Char → (Bool × Nat) × List Char
  | ':' :: rest => readWeights false 0 rest
  | rest => ((false, 0), rest)

/-- The distance behind `<`. -/
def readPhrase : List Char → Option (Nat × List Char)
  | '-' :: '>' :: rest => some (1, rest)
  | text =>
      match text.takeWhile Char.isDigit, text.dropWhile Char.isDigit with
      | [], _ => none
      | digits, '>' :: rest =>
          let distance := Nat.ofDigitChars 10 digits 0
          if distance ≤ 16384 then some (distance, rest) else none
      | _, _ => none

/-- `text` is what is left of the characters that an operand takes. -/
structure Takes (taken text : List Char) : Prop where
  length_le : text.length ≤ taken.length
  /-- Only quotes and backslashes are lost. -/
  keeps : ∀ c ∈ taken, c ≠ '\'' → c ≠ '\\' → c ∈ text

theorem Takes.cons {taken text : List Char} (h : Takes taken text) (c : Char) :
    Takes (c :: taken) (c :: text) where
  length_le := Nat.succ_le_succ h.length_le
  keeps := by
    intro d hd hquote hslash
    obtain rfl | hd := List.mem_cons.mp hd
    · exact List.mem_cons_self
    · exact List.mem_cons_of_mem _ (h.keeps d hd hquote hslash)

theorem Takes.skip {taken text : List Char} (h : Takes taken text)
    {mark : Char} (hmark : mark = '\'' ∨ mark = '\\') :
    Takes (mark :: taken) text where
  length_le := Nat.le_succ_of_le h.length_le
  keeps := by
    intro d hd hquote hslash
    obtain rfl | hd := List.mem_cons.mp hd
    · exact absurd hmark (by simp [hquote, hslash])
    · exact h.keeps d hd hquote hslash

variable {found : List Char × List Char}

theorem readQuoted_spec {text : List Char} (h : readQuoted text = some found) :
    ∃ taken, text = taken ++ found.2 ∧ taken ≠ [] ∧ Takes taken found.1 := by
  fun_induction readQuoted text generalizing found with
  | case1 => exact nomatch h
  | case2 rest ih =>
      obtain ⟨later, hlater, rfl⟩ := Option.map_eq_some_iff.mp h
      obtain ⟨taken, htext, -, htakes⟩ := ih hlater
      refine ⟨'\'' :: '\'' :: taken, by rw [htext]; rfl, List.cons_ne_nil _ _, ?_⟩
      exact (htakes.cons '\'').skip (Or.inl rfl)
  | case3 rest hrest =>
      obtain rfl := Option.some.inj h
      exact ⟨['\''], rfl, List.cons_ne_nil _ _, Nat.zero_le _, by simp⟩
  | case4 => exact nomatch h
  | case5 c rest ih =>
      obtain ⟨later, hlater, rfl⟩ := Option.map_eq_some_iff.mp h
      obtain ⟨taken, htext, -, htakes⟩ := ih hlater
      refine ⟨'\\' :: c :: taken, by rw [htext]; rfl, List.cons_ne_nil _ _, ?_⟩
      exact (htakes.cons c).skip (Or.inr rfl)
  | case6 c rest hquotes hquote hslash hslashes ih =>
      obtain ⟨later, hlater, rfl⟩ := Option.map_eq_some_iff.mp h
      obtain ⟨taken, htext, -, htakes⟩ := ih hlater
      exact ⟨c :: taken, by rw [htext]; rfl, List.cons_ne_nil _ _, htakes.cons c⟩

variable {locale : Char → Bool}

/-- A plain operand that loses nothing has neither a backslash nor a stop. -/
theorem readPlain_spec {text : List Char} (h : readPlain locale text = some found) :
    ∃ taken, text = taken ++ found.2 ∧ Takes taken found.1 ∧
      (found.1.length = taken.length →
        '\\' ∉ taken ∧ ∀ c ∈ taken, isStop locale c = false) := by
  fun_induction readPlain locale text generalizing found with
  | case1 =>
      obtain rfl := Option.some.inj h
      exact ⟨[], rfl, ⟨Nat.zero_le _, by simp⟩, by simp⟩
  | case2 => exact nomatch h
  | case3 c rest ih =>
      obtain ⟨later, hlater, rfl⟩ := Option.map_eq_some_iff.mp h
      obtain ⟨taken, htext, htakes, -⟩ := ih hlater
      refine ⟨'\\' :: c :: taken, by rw [htext]; rfl, (htakes.cons c).skip (Or.inr rfl), ?_⟩
      intro hlength
      have hle := htakes.length_le
      simp only [List.length_cons] at hlength
      omega
  | case4 c rest hend hslash hstop =>
      obtain rfl := Option.some.inj h
      exact ⟨[], rfl, ⟨Nat.zero_le _, by simp⟩, by simp⟩
  | case5 c rest hend hslash hstop ih =>
      obtain ⟨later, hlater, rfl⟩ := Option.map_eq_some_iff.mp h
      obtain ⟨taken, htext, htakes, hexact⟩ := ih hlater
      refine ⟨c :: taken, by rw [htext]; rfl, htakes.cons c, ?_⟩
      intro hlength
      obtain ⟨hslashes, hstops⟩ := hexact (Nat.succ.inj hlength)
      have hc : c ≠ '\\' := by
        intro hc
        cases rest with
        | nil => exact hend hc rfl
        | cons d rest => exact hslash d rest hc rfl
      constructor
      · rw [List.mem_cons, not_or]
        exact ⟨Ne.symm hc, hslashes⟩
      · rw [List.forall_mem_cons]
        exact ⟨by simpa using hstop, hstops⟩

/-- What an operand takes, and when it takes it as it stands. -/
theorem readOperand_spec {text : List Char} (h : readOperand locale text = some found) :
    found.1 ≠ [] ∧ ∃ taken, text = taken ++ found.2 ∧ Takes taken found.1 ∧
      (found.1.length = taken.length →
        taken.head? ≠ some '\'' ∧ '\\' ∉ taken ∧ ∀ c ∈ taken, isStop locale c = false) := by
  unfold readOperand at h
  obtain ⟨hfound, hne⟩ := Option.filter_eq_some_iff.mp h
  refine ⟨by simpa using hne, ?_⟩
  split at hfound
  · next rest =>
      obtain ⟨taken, htext, -, htakes⟩ := readQuoted_spec hfound
      refine ⟨'\'' :: taken, by rw [htext]; rfl, htakes.skip (Or.inl rfl), ?_⟩
      intro hlength
      have hle := htakes.length_le
      rw [List.length_cons] at hlength
      omega
  · next hquote =>
      obtain ⟨taken, htext, htakes, hexact⟩ := readPlain_spec hfound
      refine ⟨taken, htext, htakes, fun hlength => ⟨?_, hexact hlength⟩⟩
      cases taken with
      | nil => exact nofun
      | cons c taken =>
          rw [List.head?_cons, Ne, Option.some.injEq]
          exact fun hc => hquote (taken ++ found.2) (by rw [htext, hc]; rfl)

theorem length_readOperand {text : List Char} (h : readOperand locale text = some found) :
    found.2.length < text.length := by
  obtain ⟨hne, taken, htext, htakes, -⟩ := readOperand_spec h
  have hpos : 0 < found.1.length := List.length_pos_iff.mpr hne
  have hle := htakes.length_le
  rw [htext, List.length_append]
  omega

theorem length_readWeights (starred : Bool) (weights : Nat) (text : List Char) :
    (readWeights starred weights text).2.length ≤ text.length := by
  fun_induction readWeights starred weights text with
  | case1 => exact Nat.le_refl _
  | case2 _ _ _ ih => exact Nat.le_succ_of_le ih
  | case3 _ _ _ _ _ _ ih => exact Nat.le_succ_of_le ih
  | case4 _ _ _ _ _ _ _ ih => exact Nat.le_succ_of_le ih
  | case5 _ _ _ _ _ _ _ _ ih => exact Nat.le_succ_of_le ih
  | case6 _ _ _ _ _ _ _ _ _ ih => exact Nat.le_succ_of_le ih
  | case7 => exact Nat.le_refl _

theorem length_readModifiers (text : List Char) :
    (readModifiers text).2.length ≤ text.length := by
  unfold readModifiers
  split
  · exact Nat.le_succ_of_le (length_readWeights _ _ _)
  · exact Nat.le_refl _

theorem length_readPhrase
    {text : List Char} {found : Nat × List Char}
    (h : readPhrase text = some found) :
    found.2.length ≤ text.length := by
  unfold readPhrase at h
  split at h
  · obtain rfl := Option.some.inj h
    simp only [List.length_cons]
    omega
  · split at h
    · exact nomatch h
    · next rest hrest _ =>
        simp only at h
        split at h
        · obtain rfl := Option.some.inj h
          have hle := (List.dropWhile_suffix Char.isDigit (l := text)).length_le
          rw [hrest, List.length_cons] at hle
          exact Nat.le_of_succ_le hle
        · exact nomatch h
    · exact nomatch h

/-- The tokens from a place where an operand (`true`) or an operator is expected. -/
def lex (locale : Char → Bool) : Bool → List Char → Option (List Token)
  | true, [] => none
  | true, c :: rest =>
      if c = '!' then (lex locale true rest).map (Token.not :: ·)
      else if c = '(' then (lex locale true rest).map (Token.openParen :: ·)
      else if isSpace locale c then lex locale true rest
      else
        match _hfound : readOperand locale (c :: rest) with
        | none => none
        | some (text, behind) =>
            let modifiers := readModifiers behind
            (lex locale false modifiers.2).map
              (Token.operand ⟨text, modifiers.1.1, modifiers.1.2⟩ :: ·)
  | false, [] => some []
  | false, c :: rest =>
      if c = '&' then (lex locale true rest).map (Token.and :: ·)
      else if c = '|' then (lex locale true rest).map (Token.or :: ·)
      else if c = ')' then (lex locale false rest).map (Token.closeParen :: ·)
      else if c = '<' then
        match _hfound : readPhrase rest with
        | none => none
        | some (distance, behind) => (lex locale true behind).map (Token.phrase distance :: ·)
      else if isSpace locale c then lex locale false rest
      else none
termination_by _ text => text.length
decreasing_by
  all_goals simp only [List.length_cons]
  all_goals try omega
  · have hlt := length_readOperand _hfound
    have hle := length_readModifiers behind
    simp only [List.length_cons] at hlt
    omega
  · have hle := length_readPhrase _hfound
    simp only at hle
    omega

end Lexer

section Grammar

inductive Query where
  | operand (operand : Operand)
  | not (query : Query)
  | and (left right : Query)
  | or (left right : Query)
  | phrase (distance : Nat) (left right : Query)
deriving DecidableEq

/-- What a piece of a query may be, the tightest last. -/
inductive Level where
  | or
  | and
  | phrase
  | unary

inductive Parses : Level → List Token → Query → Prop where
  | operand (operand : Operand) : Parses .unary [.operand operand] (.operand operand)
  | paren {tokens : List Token} {query : Query} :
      Parses .or tokens query → Parses .unary (.openParen :: (tokens ++ [.closeParen])) query
  | not {tokens : List Token} {query : Query} :
      Parses .unary tokens query → Parses .unary (.not :: tokens) (.not query)
  | ofUnary {tokens : List Token} {query : Query} :
      Parses .unary tokens query → Parses .phrase tokens query
  | phrase {left right : List Token} {query query' : Query} (distance : Nat) :
      Parses .phrase left query → Parses .unary right query' →
      Parses .phrase (left ++ .phrase distance :: right) (.phrase distance query query')
  | ofPhrase {tokens : List Token} {query : Query} :
      Parses .phrase tokens query → Parses .and tokens query
  | and {left right : List Token} {query query' : Query} :
      Parses .and left query → Parses .phrase right query' →
      Parses .and (left ++ .and :: right) (.and query query')
  | ofAnd {tokens : List Token} {query : Query} :
      Parses .and tokens query → Parses .or tokens query
  | or {left right : List Token} {query query' : Query} :
      Parses .or left query → Parses .and right query' →
      Parses .or (left ++ .or :: right) (.or query query')

/-- The text is accepted and stands for the query. -/
def Denotes (locale : Char → Bool) (text : List Char) (query : Query) : Prop :=
  '\x00' ∉ text ∧ ∃ tokens, lex locale true text = some tokens ∧ Parses .or tokens query

def Token.operand? : Token → Option Operand
  | .operand word => some word
  | _ => none

def Query.operands : Query → List Operand
  | .operand word => [word]
  | .not query => query.operands
  | .and left right => left.operands ++ right.operands
  | .or left right => left.operands ++ right.operands
  | .phrase _ left right => left.operands ++ right.operands

/-- A query holds the operands of its text in their order. -/
theorem Parses.operands_eq
    {level : Level} {tokens : List Token} {query : Query}
    (h : Parses level tokens query) :
    query.operands = tokens.filterMap Token.operand? := by
  induction h with
  | operand operand => rfl
  | paren _ ih => simp [ih, List.filterMap_cons, Token.operand?]
  | not _ ih => simpa [Query.operands, List.filterMap_cons, Token.operand?] using ih
  | ofUnary _ ih => exact ih
  | phrase distance _ _ ihl ihr =>
      simp [Query.operands, ihl, ihr, List.filterMap_cons, Token.operand?]
  | ofPhrase _ ih => exact ih
  | and _ _ ihl ihr => simp [Query.operands, ihl, ihr, List.filterMap_cons, Token.operand?]
  | ofAnd _ ih => exact ih
  | or _ _ ihl ihr => simp [Query.operands, ihl, ihr, List.filterMap_cons, Token.operand?]

/-- `query & operand & … & operand` -/
def conjoin (query : Query) (operands : List Operand) : Query :=
  operands.foldl (fun query operand => .and query (.operand operand)) query

theorem operands_conjoin (query : Query) (operands : List Operand) :
    (conjoin query operands).operands = query.operands ++ operands := by
  induction operands generalizing query with
  | nil => simp [conjoin]
  | cons operand rest ih =>
      have hrest := ih (.and query (.operand operand))
      simpa [conjoin, Query.operands] using hrest

theorem parses_conjoin
    {tokens : List Token} {query : Query}
    (h : Parses .and tokens query)
    (operands : List Operand) :
    Parses .and (tokens ++ operands.flatMap fun operand => [.and, .operand operand])
      (conjoin query operands) := by
  induction operands generalizing tokens query with
  | nil => simpa [conjoin] using h
  | cons operand rest ih =>
      have hrest := ih (h.and (.ofUnary (.operand operand)))
      simpa [conjoin] using hrest

end Grammar

section Conjunctions

variable {locale : Char → Bool}

/-- A word that stands for itself. -/
structure PlainWord (locale : Char → Bool) (word : List Char) : Prop where
  ne_nil : word ≠ []
  noQuote : word.head? ≠ some '\''
  noBackslash : '\\' ∉ word
  noStop : ∀ c ∈ word, isStop locale c = false

/-- Where a word ends in a joined text. -/
def EndsWord (locale : Char → Bool) (tail : List Char) : Prop :=
  ∀ c, tail.head? = some c → isStop locale c = true ∧ c ≠ '\\'

variable {word rest : List Char}

theorem readPlain_append
    {tail : List Char}
    (hslash : '\\' ∉ word)
    (hstop : ∀ c ∈ word, isStop locale c = false)
    (htail : EndsWord locale tail) :
    readPlain locale (word ++ tail) = some (word, tail) := by
  induction word with
  | nil =>
      cases tail with
      | nil => rfl
      | cons c tail =>
          obtain ⟨hc, hne⟩ := htail c rfl
          rw [List.nil_append, readPlain, if_pos hc]
          · exact fun h _ => hne h
          · exact fun _ _ h _ => hne h
  | cons c word ih =>
      obtain ⟨hc, hword⟩ := List.forall_mem_cons.mp hstop
      rw [List.mem_cons, not_or] at hslash
      have hne : c ≠ '\\' := Ne.symm hslash.1
      rw [List.cons_append, readPlain, ih hslash.2 hword, hc]
      · rfl
      · exact fun h _ => hne h
      · exact fun _ _ h _ => hne h

theorem PlainWord.readOperand_append
    {tail : List Char}
    (hword : PlainWord locale word)
    (htail : EndsWord locale tail) :
    readOperand locale (word ++ tail) = some (word, tail) := by
  obtain ⟨hne, hquote, hslash, hstop⟩ := hword
  have hplain := readPlain_append hslash hstop htail
  obtain ⟨c, rest, rfl⟩ := List.exists_cons_of_ne_nil hne
  have hc : c ≠ '\'' := fun h => hquote (by rw [h]; rfl)
  unfold readOperand
  split
  · next heq => exact absurd (List.cons.inj heq).1 hc
  · rw [hplain]
    simp

/-- What a search adds to its last word. -/
def suffix (starred : Bool) : List Char :=
  if starred then [':', '*'] else []

def joinWords (starred : Bool) (words : List (List Char)) : List Char :=
  [' ', '&', ' '].intercalate words ++ suffix starred

/-- The operands that the words stand for; the last one is starred. -/
def wordOperands (starred : Bool) : List (List Char) → List Operand
  | [] => []
  | [word] => [⟨word, starred, 0⟩]
  | word :: next :: words => ⟨word, false, 0⟩ :: wordOperands starred (next :: words)

/-- The conjunction of some operands, when there is one. -/
def conjunction : List Operand → Option Query
  | [] => none
  | operand :: operands => some (conjoin (.operand operand) operands)

theorem exists_conjunction {words : List (List Char)} (hne : words ≠ []) (starred : Bool) :
    ∃ query, conjunction (wordOperands starred words) = some query := by
  obtain ⟨word, rest, rfl⟩ := List.exists_cons_of_ne_nil hne
  cases rest <;> exact ⟨_, rfl⟩

theorem joinWords_cons_cons (starred : Bool) (word next : List Char) (words : List (List Char)) :
    joinWords starred (word :: next :: words) =
      word ++ ' ' :: '&' :: ' ' :: joinWords starred (next :: words) := by
  simp [joinWords, List.intercalate_cons_cons]

theorem joinWords_singleton (starred : Bool) (word : List Char) :
    joinWords starred [word] = word ++ suffix starred := by
  simp [joinWords]

variable {c : Char}
variable {starred : Bool}

/-- A character that is not written between words stands in a word. -/
theorem mem_joinWords_iff (hc : c ∉ [' ', '&', ':', '*']) (words : List (List Char)) :
    c ∈ joinWords starred words ↔ ∃ word ∈ words, c ∈ word := by
  simp only [List.mem_cons, List.not_mem_nil, or_false, not_or] at hc
  have hsuffix : c ∉ suffix starred := by
    cases starred with
    | false => exact List.not_mem_nil
    | true => simp [suffix, hc.2.2]
  induction words with
  | nil => simp [joinWords, hsuffix]
  | cons word rest ih =>
      cases rest with
      | nil => simp [joinWords_singleton, hsuffix]
      | cons next words =>
          have hfirst : c ∈ joinWords starred (word :: next :: words) ↔
              c ∈ word ∨ c ∈ joinWords starred (next :: words) := by
            rw [joinWords_cons_cons]
            simp [hc.1, hc.2.1]
          rw [hfirst]
          exact (or_congr_right ih).trans (List.exists_mem_cons_iff (c ∈ ·) word _).symm

theorem readModifiers_suffix (starred : Bool) :
    readModifiers (suffix starred) = ((starred, 0), []) := by
  cases starred <;> rfl

theorem endsWord_suffix (starred : Bool) : EndsWord locale (suffix starred) := by
  cases starred with
  | false => exact fun c h => nomatch h
  | true =>
      intro c h
      obtain rfl := Option.some.inj h
      exact ⟨by simp [isStop], by decide⟩

theorem endsWord_space (tail : List Char) : EndsWord locale (' ' :: tail) := by
  intro c h
  obtain rfl := Option.some.inj h
  exact ⟨by simp [isStop, isSpace], by decide⟩

/-- The operator between two words. -/
theorem lex_and (tail : List Char) :
    lex locale false (' ' :: '&' :: ' ' :: tail) =
      (lex locale true tail).map (Token.and :: ·) := by
  have hspace : isSpace locale ' ' = true := by simp [isSpace]
  rw [lex]
  simp only [Char.reduceEq, if_false, hspace, if_true]
  rw [lex]
  simp only [if_true]
  rw [lex]
  simp only [Char.reduceEq, if_false, hspace, if_true]

theorem lex_operand (hnot : c ≠ '!') (hopen : c ≠ '(') (hspace : isSpace locale c = false) :
    lex locale true (c :: rest) =
      (readOperand locale (c :: rest)).bind fun found =>
        (lex locale false (readModifiers found.2).2).map
          (Token.operand
            ⟨found.1, (readModifiers found.2).1.1, (readModifiers found.2).1.2⟩ :: ·) := by
  rw [lex, if_neg hnot, if_neg hopen, if_neg (by simp [hspace])]
  split
  · next hnone => rw [hnone, Option.bind_none]
  · next text behind hsome => rw [hsome, Option.bind_some]

theorem PlainWord.lex_append
    {tail : List Char}
    (hword : PlainWord locale word)
    (htail : EndsWord locale tail) :
    lex locale true (word ++ tail) =
      (lex locale false (readModifiers tail).2).map
        (Token.operand ⟨word, (readModifiers tail).1.1, (readModifiers tail).1.2⟩ :: ·) := by
  have hread := hword.readOperand_append htail
  obtain ⟨c, rest, rfl⟩ := List.exists_cons_of_ne_nil hword.ne_nil
  have hstop := hword.noStop c List.mem_cons_self
  simp only [isStop, Bool.or_eq_false_iff] at hstop
  have hoperator : ∀ d, isOperator d = true → c ≠ d := by
    rintro d hd rfl
    rw [hstop.1.2] at hd
    exact nomatch hd
  rw [List.cons_append] at hread ⊢
  rw [lex_operand (hoperator '!' (by decide)) (hoperator '(' (by decide)) hstop.1.1, hread,
    Option.bind_some]

/-- The tokens of some operands with `&` between them. -/
def conjunctionTokens : List Operand → List Token
  | [] => []
  | operand :: operands =>
      .operand operand :: operands.flatMap fun operand => [.and, .operand operand]

theorem lex_joinWords
    {words : List (List Char)}
    (hne : words ≠ [])
    (hwords : ∀ word ∈ words, PlainWord locale word)
    (starred : Bool) :
    lex locale true (joinWords starred words) =
      some (conjunctionTokens (wordOperands starred words)) := by
  induction words with
  | nil => exact absurd rfl hne
  | cons word rest ih =>
      obtain ⟨hword, hrest⟩ := List.forall_mem_cons.mp hwords
      cases rest with
      | nil =>
          rw [joinWords_singleton, hword.lex_append (endsWord_suffix starred),
            readModifiers_suffix, lex]
          rfl
      | cons next words =>
          rw [joinWords_cons_cons, hword.lex_append (endsWord_space _)]
          change (lex locale false
            (' ' :: '&' :: ' ' :: joinWords starred (next :: words))).map _ = _
          rw [lex_and, ih (List.cons_ne_nil _ _) hrest]
          cases words <;> rfl

theorem parses_conjunction
    {operands : List Operand} {query : Query}
    (h : conjunction operands = some query) :
    Parses .or (conjunctionTokens operands) query := by
  cases operands with
  | nil => exact nomatch h
  | cons operand rest =>
      obtain rfl := Option.some.inj h
      exact .ofAnd (parses_conjoin (.ofPhrase (.ofUnary (.operand operand))) rest)

theorem operands_conjunction
    {operands : List Operand} {query : Query}
    (h : conjunction operands = some query) :
    query.operands = operands := by
  cases operands with
  | nil => exact nomatch h
  | cons operand rest =>
      obtain rfl := Option.some.inj h
      exact operands_conjoin (.operand operand) rest

/-- A word as it is cut from a search: no operator, colon or space is in it. -/
structure CutWord (word : List Char) : Prop where
  ne_nil : word ≠ []
  noOperator : ∀ c ∈ word, isOperator c = false ∧ c ≠ ':' ∧ c ≠ ' '

/-- What stands behind a word of a joined text. -/
inductive WordTail : List Char → Prop where
  | last : WordTail []
  | colon (rest : List Char) : WordTail (':' :: rest)
  | operator (rest : List Char) : WordTail (' ' :: '&' :: rest)

theorem WordTail.head {tail : List Char} (h : WordTail tail) (htail : tail = c :: rest) :
    c = ':' ∨ c = ' ' := by
  cases h with
  | last => exact nomatch htail
  | colon => exact Or.inl (List.cons.inj htail).1.symm
  | operator => exact Or.inr (List.cons.inj htail).1.symm

theorem readOperand_stop
    (hc : isStop locale c = true)
    (hquote : c ≠ '\'')
    (hslash : c ≠ '\\')
    (rest : List Char) :
    readOperand locale (c :: rest) = none := by
  have hends : EndsWord locale (c :: rest) := by
    intro d hd
    obtain rfl := Option.some.inj hd
    exact ⟨hc, hslash⟩
  have hplain : readPlain locale ([] ++ c :: rest) = some ([], c :: rest) :=
    readPlain_append (by simp) (by simp) hends
  rw [List.nil_append] at hplain
  unfold readOperand
  split
  · next heq => exact absurd (List.cons.inj heq).1 hquote
  · rw [hplain]
    rfl

/-- No operand begins behind a word. -/
theorem WordTail.lex_eq_none {tail : List Char} (h : WordTail tail) :
    lex locale true tail = none := by
  have hcolon : isSpace locale ':' = false := by simp [isSpace]
  have hand : isSpace locale '&' = false := by simp [isSpace]
  have hspace : isSpace locale ' ' = true := by simp [isSpace]
  cases h with
  | last => rw [lex]
  | colon rest =>
      rw [lex_operand (by decide) (by decide) hcolon,
        readOperand_stop (by simp [isStop]) (by decide) (by decide), Option.bind_none]
  | operator rest =>
      rw [lex, if_neg (by decide), if_neg (by decide), if_pos hspace,
        lex_operand (by decide) (by decide) hand,
        readOperand_stop (by simp [isStop, isOperator]) (by decide) (by decide),
        Option.bind_none]

/-- The first token of a joined text is an operand that begins in the first word. -/
theorem exists_first_operand
    {tail : List Char} {tokens : List Token}
    (hword : ∀ c ∈ word, isOperator c = false)
    (htail : WordTail tail)
    (h : lex locale true (word ++ tail) = some tokens) :
    ∃ skipped rest found more, word = skipped ++ rest ∧
      readOperand locale (rest ++ tail) = some found ∧
      lex locale false (readModifiers found.2).2 = some more ∧
      tokens = .operand ⟨found.1, (readModifiers found.2).1.1, (readModifiers found.2).1.2⟩ ::
        more := by
  induction word with
  | nil =>
      rw [List.nil_append, htail.lex_eq_none] at h
      exact nomatch h
  | cons c word ih =>
      obtain ⟨hc, hrest⟩ := List.forall_mem_cons.mp hword
      have hoperator : ∀ d, isOperator d = true → c ≠ d := by
        rintro d hd rfl
        rw [hc] at hd
        exact nomatch hd
      have hnot := hoperator '!' (by decide)
      have hopen := hoperator '(' (by decide)
      rw [List.cons_append] at h
      cases hspace : isSpace locale c with
      | true =>
          rw [lex, if_neg hnot, if_neg hopen, if_pos hspace] at h
          obtain ⟨skipped, rest, found, more, hsplit, hfound⟩ := ih hrest h
          exact ⟨c :: skipped, rest, found, more, by rw [hsplit]; rfl, hfound⟩
      | false =>
          rw [lex_operand hnot hopen hspace] at h
          obtain ⟨found, hfound, hmore⟩ := Option.bind_eq_some_iff.mp h
          obtain ⟨more, hlex, rfl⟩ := Option.map_eq_some_iff.mp hmore
          exact ⟨[], c :: word, found, more, rfl, hfound, hlex, rfl⟩

/-- An operand that reads as the first word takes exactly that word. -/
theorem plainWord_of_first_operand
    {skipped tail : List Char} {found : List Char × List Char}
    (hword : CutWord word)
    (htail : WordTail tail)
    (hsplit : word = skipped ++ rest)
    (hread : readOperand locale (rest ++ tail) = some found)
    (hsame : found.1 = word) :
    PlainWord locale word ∧ found.2 = tail := by
  obtain ⟨-, taken, htext, htakes, hexact⟩ := readOperand_spec hread
  have hlength : word.length = skipped.length + rest.length := by
    rw [hsplit, List.length_append]
  have hle := htakes.length_le
  rw [hsame] at hle htakes hexact
  have htaken : taken = rest ∧ found.2 = tail := by
    obtain ⟨behind, hbehind, hfound⟩ | ⟨more, hmore, hfound⟩ :=
      List.append_eq_append_iff.mp htext
    · -- The operand would take what stands behind the word.
      cases behind with
      | nil => exact ⟨by simpa using hbehind, by simpa using hfound.symm⟩
      | cons c behind =>
          have hc : c = ':' ∨ c = ' ' := htail.head hfound
          have hmem : c ∈ taken := by rw [hbehind]; simp
          have hkept := htakes.keeps c hmem
            (by obtain rfl | rfl := hc <;> decide) (by obtain rfl | rfl := hc <;> decide)
          have hcut := (hword.noOperator c hkept).2
          obtain hc | hc := hc
          · exact absurd hc hcut.1
          · exact absurd hc hcut.2
    · have hmoreLength : rest.length = taken.length + more.length := by
        rw [hmore, List.length_append]
      obtain rfl : more = [] := List.length_eq_zero_iff.mp (by omega)
      exact ⟨by simpa using hmore.symm, by simpa using hfound⟩
  obtain ⟨rfl, hfound⟩ := htaken
  obtain rfl : skipped = [] := List.length_eq_zero_iff.mp (by omega)
  rw [List.nil_append] at hsplit
  subst hsplit
  obtain ⟨hquote, hslash, hstop⟩ := hexact rfl
  exact ⟨⟨hword.ne_nil, hquote, hslash, hstop⟩, hfound⟩

/-- Operands that read as the words of a joined text take them as they stand. -/
theorem plainWord_of_lex
    {words : List (List Char)} {tokens : List Token}
    (hwords : ∀ word ∈ words, CutWord word)
    (h : lex locale true (joinWords starred words) = some tokens)
    (hsame : (tokens.filterMap Token.operand?).map Operand.text = words) :
    ∀ word ∈ words, PlainWord locale word := by
  induction words generalizing tokens with
  | nil => exact fun word hword => nomatch hword
  | cons word rest ih =>
      obtain ⟨hword, hrest⟩ := List.forall_mem_cons.mp hwords
      have hoperator : ∀ c ∈ word, isOperator c = false := fun c hc => (hword.noOperator c hc).1
      cases rest with
      | nil =>
          have htail : WordTail (suffix starred) := by
            cases starred with
            | false => exact .last
            | true => exact .colon _
          rw [joinWords_singleton] at h
          obtain ⟨skipped, rest, found, more, hsplit, hread, -, rfl⟩ :=
            exists_first_operand hoperator htail h
          have hfirst : found.1 = word := (List.cons.inj hsame).1
          rw [List.forall_mem_singleton]
          exact (plainWord_of_first_operand hword htail hsplit hread hfirst).1
      | cons next words =>
          have htail := WordTail.operator (' ' :: joinWords starred (next :: words))
          rw [joinWords_cons_cons] at h
          obtain ⟨skipped, rest, found, more, hsplit, hread, hmore, rfl⟩ :=
            exists_first_operand hoperator htail h
          obtain ⟨hfirst, hothers⟩ := List.cons.inj hsame
          obtain ⟨hplain, hbehind⟩ :=
            plainWord_of_first_operand hword htail hsplit hread hfirst
          rw [hbehind] at hmore
          change lex locale false (' ' :: '&' :: ' ' :: joinWords starred (next :: words)) =
            some more at hmore
          rw [lex_and] at hmore
          obtain ⟨later, hlater, rfl⟩ := Option.map_eq_some_iff.mp hmore
          exact List.forall_mem_cons.mpr ⟨hplain, ih hrest hlater hothers⟩

theorem map_text_wordOperands (starred : Bool) (words : List (List Char)) :
    (wordOperands starred words).map Operand.text = words := by
  induction words with
  | nil => rfl
  | cons word rest ih =>
      cases rest with
      | nil => rfl
      | cons next words => exact congrArg (word :: ·) ih

/-- A joined text stands for the conjunction of its words exactly when every word is plain. -/
theorem denotes_joinWords_iff
    {words : List (List Char)}
    (hwords : ∀ word ∈ words, CutWord word)
    {query : Query}
    (hquery : conjunction (wordOperands starred words) = some query) :
    Denotes locale (joinWords starred words) query ↔
      ∀ word ∈ words, PlainWord locale word ∧ '\x00' ∉ word := by
  have hnull : '\x00' ∉ joinWords starred words ↔ ∀ word ∈ words, '\x00' ∉ word := by
    rw [mem_joinWords_iff (by decide)]
    simp
  have hne : words ≠ [] := by
    rintro rfl
    exact nomatch hquery
  constructor
  · rintro ⟨hfree, tokens, hlex, hparses⟩ word hword
    have hoperands := hparses.operands_eq
    rw [operands_conjunction hquery] at hoperands
    have hsame : (tokens.filterMap Token.operand?).map Operand.text = words := by
      rw [← hoperands, map_text_wordOperands]
    exact ⟨plainWord_of_lex hwords hlex hsame word hword, hnull.mp hfree word hword⟩
  · intro hplain
    refine ⟨hnull.mpr fun word hword => (hplain word hword).2, _, ?_, parses_conjunction hquery⟩
    exact lex_joinWords hne (fun word hword => (hplain word hword).1) starred

end Conjunctions

end TextSearchQuery
end Lib
end NestBase
