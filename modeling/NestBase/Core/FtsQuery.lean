import NestBase.Lib.TextSearchQuery
import NestBase.Lib.Words

/-!
# Full-text queries

`sanitizeFtsQuery` turns the operators of a search into spaces, collapses white
space and trims; `toTsquery` joins the remaining words with `&` and may star
the last one for a prefix search.

The quote and the backslash are not among the operators.  A word that begins
with a quote, or holds a backslash, does not reach the database as it stands.
-/

namespace NestBase
namespace Core
namespace FtsQuery

open Lib

section Sanitize

/-- `/[&|!:*()]/` -/
def isOperatorChar (c : Char) : Bool :=
  ['&', '|', '!', ':', '*', '(', ')'].contains c

inductive FtsError where
  | emptyQuery

def FtsError.message : FtsError → String
  | .emptyQuery => "fts: query is empty after sanitization"

/-- `input.replace(OPERATOR_RE, " ")` -/
def replaceOperators (input : String) : List Char :=
  input.toList.map fun c => if isOperatorChar c then ' ' else c

/-- `text.replace(NON_WORD_RE, " ")` -/
def collapseSpaces (text : List Char) : List Char :=
  Words.collapse Text.isWhiteSpace ' ' false text

def sanitizeFtsQuery (input : String) : Except FtsError String :=
  let stripped := Text.trim (String.ofList (collapseSpaces (replaceOperators input)))
  if stripped = "" then .error .emptyQuery else .ok stripped

/-- ``tokens[tokens.length - 1] = `${token}:*` `` -/
def markLast : List (List Char) → List (List Char)
  | [] => []
  | [token] => [token ++ [':', '*']]
  | token :: next :: tokens => token :: markLast (next :: tokens)

/-- `starred` is the option `prefix`. -/
def toTsquery (input : String) (starred : Bool) : Except FtsError String := do
  let sanitized ← sanitizeFtsQuery input
  let tokens := (sanitized.toList.splitOn ' ').filter fun token => !token.isEmpty
  let marked := if starred then markLast tokens else tokens
  return String.ofList ([' ', '&', ' '].intercalate marked)

/-- The words of a text, between white space. -/
def whiteSpaceWords (text : String) : List (List Char) :=
  Words.words Text.isWhiteSpace text.toList

/-- The words of a search as it was typed, between white space and operators. -/
def searchWords (input : String) : List (List Char) :=
  Words.words (fun c => Text.isWhiteSpace c || isOperatorChar c) input.toList

end Sanitize

section Words

variable {input sanitized : String}

/-- The sanitized text keeps the words of the search, and no other white space than spaces. -/
theorem sanitizeFtsQuery_spec (h : sanitizeFtsQuery input = .ok sanitized) :
    whiteSpaceWords sanitized ≠ [] ∧ whiteSpaceWords sanitized = searchWords input ∧
      ∀ c ∈ sanitized.toList, Text.isWhiteSpace c = true → c = ' ' := by
  have hspace : Text.isWhiteSpace ' ' = true := by decide
  have hoperators : Words.words Text.isWhiteSpace (replaceOperators input) = searchWords input := by
    refine Words.words_map (fun c hc => ?_) (fun c hc => ?_) _
    · cases hop : isOperatorChar c with
      | true => rw [if_pos rfl, hspace]
      | false => simpa [hop] using hc
    · rw [Bool.or_eq_false_iff] at hc
      simp [hc.1, hc.2]
  unfold sanitizeFtsQuery at h
  by_cases hempty : Text.trim (String.ofList (collapseSpaces (replaceOperators input))) = ""
  · rw [if_pos hempty] at h
    exact nomatch h
  · rw [if_neg hempty] at h
    obtain rfl := Except.ok.inj h
    refine ⟨fun hnone => hempty ?_, ?_, ?_⟩
    · rw [whiteSpaceWords, Words.words_trim, Words.words_eq_nil_iff] at hnone
      exact Words.trim_eq_empty hnone
    · rw [whiteSpaceWords, Words.words_trim, String.toList_ofList, collapseSpaces,
        Words.words_collapse hspace, hoperators]
    · intro c hmem hc
      obtain ⟨front, back, hsplit, -, -⟩ :=
        Words.exists_trim (String.ofList (collapseSpaces (replaceOperators input)))
      have hcollapsed : c ∈ collapseSpaces (replaceOperators input) := by
        rw [← String.toList_ofList (l := collapseSpaces (replaceOperators input)), hsplit]
        exact List.mem_append_left _ (List.mem_append_right _ hmem)
      exact Words.eq_filling_of_mem_collapse hcollapsed hc

/-- Splitting the sanitized text at spaces cuts it into its words. -/
theorem tokens_eq
    {text : String}
    (hspaces : ∀ c ∈ text.toList, Text.isWhiteSpace c = true → c = ' ') :
    ((text.toList.splitOn ' ').filter fun token => !token.isEmpty) = whiteSpaceWords text := by
  rw [List.splitOn_eq_splitOnP]
  refine Words.words_congr fun c hc => ?_
  cases hwhite : Text.isWhiteSpace c with
  | true => rw [hspaces c hc hwhite]; rfl
  | false =>
      rw [beq_eq_false_iff_ne]
      rintro rfl
      exact absurd hwhite (by decide)

/-- The code stars the last token before it joins them. -/
theorem intercalate_marked (starred : Bool) {tokens : List (List Char)} (hne : tokens ≠ []) :
    [' ', '&', ' '].intercalate (if starred then markLast tokens else tokens) =
      TextSearchQuery.joinWords starred tokens := by
  cases starred with
  | false => simp [TextSearchQuery.joinWords, TextSearchQuery.suffix]
  | true =>
      rw [if_pos rfl]
      induction tokens with
      | nil => exact absurd rfl hne
      | cons token rest ih =>
          cases rest with
          | nil =>
              rw [TextSearchQuery.joinWords_singleton]
              exact List.intercalate_singleton
          | cons next tokens =>
              obtain ⟨last, others, hlast⟩ :
                  ∃ last others, markLast (next :: tokens) = last :: others := by
                cases tokens <;> exact ⟨_, _, rfl⟩
              rw [TextSearchQuery.joinWords_cons_cons, ← ih (List.cons_ne_nil _ _), markLast, hlast,
                List.intercalate_cons_cons, List.append_assoc]
              rfl

theorem toTsquery_eq (h : sanitizeFtsQuery input = .ok sanitized) (starred : Bool) :
    toTsquery input starred =
      .ok (String.ofList (TextSearchQuery.joinWords starred (whiteSpaceWords sanitized))) := by
  obtain ⟨hne, -, hspaces⟩ := sanitizeFtsQuery_spec h
  have hjoined := intercalate_marked starred hne
  unfold toTsquery
  rw [h]
  change Except.ok (String.ofList ([' ', '&', ' '].intercalate _)) = _
  rw [tokens_eq hspaces, hjoined]

/-- The words of a sanitized text hold no operator, colon or space. -/
theorem cutWord_of_mem
    (h : sanitizeFtsQuery input = .ok sanitized)
    {word : List Char}
    (hword : word ∈ whiteSpaceWords sanitized) :
    TextSearchQuery.CutWord word := by
  obtain ⟨-, hwords, -⟩ := sanitizeFtsQuery_spec h
  rw [hwords] at hword
  obtain ⟨hne, hchars⟩ := Words.mem_words hword
  refine ⟨hne, fun c hc => ?_⟩
  have hfree := (hchars c hc).1
  rw [Bool.or_eq_false_iff] at hfree
  obtain ⟨hwhite, hoperator⟩ := hfree
  simp only [isOperatorChar, List.contains_cons, Bool.or_eq_false_iff,
    beq_eq_false_iff_ne] at hoperator
  refine ⟨?_, hoperator.2.2.2.1, ?_⟩
  · simp [TextSearchQuery.isOperator, hoperator]
  · rintro rfl
    exact absurd hwhite (by decide)

end Words

section Meaning

open TextSearchQuery

/-- A word that the database reads as it stands. -/
structure ReadsPlainly (locale : Char → Bool) (word : List Char) : Prop where
  noQuote : word.head? ≠ some '\''
  noBackslash : '\\' ∉ word
  noNull : '\x00' ∉ word
  /-- The locale has no further white space in it. -/
  noSpace : ∀ c ∈ word, isSpace locale c = false

/-- The query is accepted and stands for the conjunction of the words, the last one starred
when a prefix is searched. -/
def DenotesWords (locale : Char → Bool) (input : String) (starred : Bool) (sanitized : String) :
    Prop :=
  ∃ text query, toTsquery input starred = .ok text ∧
    conjunction (wordOperands starred (whiteSpaceWords sanitized)) = some query ∧
    Denotes locale text.toList query

theorem denotesWords_iff_plain
    {input sanitized : String}
    (h : sanitizeFtsQuery input = .ok sanitized)
    (locale : Char → Bool)
    (starred : Bool) :
    DenotesWords locale input starred sanitized ↔
      ∀ word ∈ whiteSpaceWords sanitized, PlainWord locale word ∧ '\x00' ∉ word := by
  obtain ⟨hne, -, -⟩ := sanitizeFtsQuery_spec h
  obtain ⟨query, hquery⟩ := exists_conjunction hne starred
  rw [← denotes_joinWords_iff (fun word => cutWord_of_mem h) hquery]
  constructor
  · rintro ⟨text, query', htext, hquery', hdenotes⟩
    rw [toTsquery_eq h] at htext
    obtain rfl := Except.ok.inj htext
    obtain rfl := Option.some.inj (hquery.symm.trans hquery')
    simpa using hdenotes
  · intro hdenotes
    exact ⟨_, query, toTsquery_eq h starred, hquery, by simpa using hdenotes⟩

theorem readsPlainly_iff {locale : Char → Bool} {word : List Char} (hcut : CutWord word) :
    ReadsPlainly locale word ↔ PlainWord locale word ∧ '\x00' ∉ word := by
  constructor
  · rintro ⟨hquote, hslash, hnull, hspace⟩
    refine ⟨⟨hcut.ne_nil, hquote, hslash, fun c hc => ?_⟩, hnull⟩
    simp [isStop, hspace c hc, hcut.noOperator c hc]
  · rintro ⟨⟨-, hquote, hslash, hstop⟩, hnull⟩
    refine ⟨hquote, hslash, hnull, fun c hc => ?_⟩
    have hfree := hstop c hc
    simp only [isStop, Bool.or_eq_false_iff] at hfree
    exact hfree.1.1

/-- The query stands for the words exactly when the database reads each of them as it stands. -/
theorem denotesWords_iff
    {input sanitized : String}
    (h : sanitizeFtsQuery input = .ok sanitized)
    (locale : Char → Bool)
    (starred : Bool) :
    DenotesWords locale input starred sanitized ↔
      ∀ word ∈ searchWords input, ReadsPlainly locale word := by
  obtain ⟨-, hwords, -⟩ := sanitizeFtsQuery_spec h
  rw [denotesWords_iff_plain h, ← hwords]
  exact forall₂_congr fun word hword => (readsPlainly_iff (cutWord_of_mem h hword)).symm

theorem denotesWords_twoWords :
    sanitizeFtsQuery "a  b!" = .ok "a b" ∧ DenotesWords (fun _ => false) "a  b!" true "a b" := by
  have hsanitized : sanitizeFtsQuery "a  b!" = .ok "a b" := rfl
  refine ⟨hsanitized, (denotesWords_iff hsanitized _ true).mpr ?_⟩
  have hwords : searchWords "a  b!" = [['a'], ['b']] := rfl
  rw [hwords, List.forall_mem_cons, List.forall_mem_singleton]
  exact ⟨⟨by decide, by decide, by decide, by simp [isSpace]⟩,
    ⟨by decide, by decide, by decide, by simp [isSpace]⟩⟩

theorem not_denotesWords_quote :
    sanitizeFtsQuery "'" = .ok "'" ∧ ¬ DenotesWords (fun _ => false) "'" false "'" := by
  have hsanitized : sanitizeFtsQuery "'" = .ok "'" := rfl
  refine ⟨hsanitized, fun hdenotes => ?_⟩
  have hword : ['\''] ∈ whiteSpaceWords "'" := List.mem_singleton_self ['\'']
  have hplain := (denotesWords_iff_plain hsanitized _ false).mp hdenotes _ hword
  exact hplain.1.noQuote rfl

end Meaning

end FtsQuery
end Core
end NestBase
