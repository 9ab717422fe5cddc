import NestBase.Lib.TextReplace

/-!
# Highlights of the user search

`sanitizeHighlight` escapes what `ts_headline` returned and then writes the
bold markers back.  Five replacements run one after the other, the ampersand
first, and two more undo the escape of a marker.

A highlight is read here as a list of tokens: a character of the input, or one
of the two markers.  The escape codes each character, and because its code
words are told apart by their beginnings, the last two replacements find
exactly the markers of the input.
-/

namespace NestBase
namespace Core
namespace SearchHighlight

open Lib.TextReplace

section Sanitize

def escapeHtml (s : String) : String :=
  let s1 := replaceWord ['&'] ['&', 'a', 'm', 'p', ';'] s.toList
  let s2 := replaceWord ['<'] ['&', 'l', 't', ';'] s1
  let s3 := replaceWord ['>'] ['&', 'g', 't', ';'] s2
  let s4 := replaceWord ['"'] ['&', 'q', 'u', 'o', 't', ';'] s3
  String.ofList (replaceWord ['\''] ['&', '#', '3', '9', ';'] s4)

def sanitizeHighlight (raw : String) : String :=
  let escaped := (escapeHtml raw).toList
  let opened := replaceWord ['&', 'l', 't', ';', 'b', '&', 'g', 't', ';'] ['<', 'b', '>'] escaped
  String.ofList
    (replaceWord ['&', 'l', 't', ';', '/', 'b', '&', 'g', 't', ';'] ['<', '/', 'b', '>'] opened)

/-- The character references that are written, with the characters they stand for. -/
def references : List (List Char × List Char) :=
  [(['&', 'a', 'm', 'p', ';'], ['&']),
    (['&', 'l', 't', ';'], ['<']),
    (['&', 'g', 't', ';'], ['>']),
    (['&', 'q', 'u', 'o', 't', ';'], ['"']),
    (['&', '#', '3', '9', ';'], ['\''])]

/-- What a renderer reads: each reference by its character, in one pass. -/
def decodeReferences (text : String) : String :=
  String.ofList (replaceAll references text.toList)

end Sanitize

section Tokens

inductive Token where
  | char (c : Char)
  | openBold
  | closeBold
deriving DecidableEq

/-- The table of `escapeHtml`, one character at a time. -/
def entity (c : Char) : List Char :=
  if c = '&' then ['&', 'a', 'm', 'p', ';']
  else if c = '<' then ['&', 'l', 't', ';']
  else if c = '>' then ['&', 'g', 't', ';']
  else if c = '"' then ['&', 'q', 'u', 'o', 't', ';']
  else if c = '\'' then ['&', '#', '3', '9', ';']
  else [c]

def Token.code : Token → List Char
  | .char c => entity c
  | .openBold => ['<', 'b', '>']
  | .closeBold => ['<', '/', 'b', '>']

/-- The part of the input that a token stands for. -/
def Token.source : Token → List Char
  | .char c => [c]
  | .openBold => ['<', 'b', '>']
  | .closeBold => ['<', '/', 'b', '>']

theorem references_head {word filling : List Char} (href : (word, filling) ∈ references) :
    ∃ tail, word = '&' :: tail := by
  simp only [references, List.mem_cons, Prod.mk.injEq, List.not_mem_nil, or_false] at href
  obtain ⟨rfl, -⟩ | ⟨rfl, -⟩ | ⟨rfl, -⟩ | ⟨rfl, -⟩ | ⟨rfl, -⟩ := href <;> exact ⟨_, rfl⟩

theorem entity_cases (c : Char) :
    (entity c, [c]) ∈ references ∨
      (entity c = [c] ∧ c ∉ ['&', '<', '>', '"', '\'']) := by
  unfold entity
  by_cases hamp : c = '&'
  · subst hamp
    exact Or.inl (by simp [references])
  by_cases hlt : c = '<'
  · subst hlt
    exact Or.inl (by simp [references])
  by_cases hgt : c = '>'
  · subst hgt
    exact Or.inl (by simp [references])
  by_cases hquote : c = '"'
  · subst hquote
    exact Or.inl (by simp [references])
  by_cases happ : c = '\''
  · subst happ
    exact Or.inl (by simp [references])
  exact Or.inr (by simp [hamp, hlt, hgt, hquote, happ])

/-- The five replacements do not touch what an earlier one wrote. -/
theorem toList_escapeHtml (s : String) : (escapeHtml s).toList = s.toList.flatMap entity := by
  unfold escapeHtml
  simp only [replaceWord_singleton, List.flatMap_assoc, String.toList_ofList]
  refine List.flatMap_congr fun c _ => ?_
  unfold entity
  split_ifs <;> simp_all

/-- The code words that are longer than one character. -/
def codeWords : List (List Char × Token) :=
  (references.map fun reference => (reference.1, Token.char (reference.2.headD '&'))) ++
    [(['<', 'b', '>'], Token.openBold), (['<', '/', 'b', '>'], Token.closeBold)]

/-- The token with which a text begins. -/
def firstToken (text : List Char) : Option Token :=
  match codeWords.find? fun entry => entry.1.isPrefixOf text with
  | some entry => some entry.2
  | none => text.head?.map Token.char

theorem codeWords_heads {entry : List Char × Token} (hentry : entry ∈ codeWords) :
    ∃ head ∈ ['&', '<'], ∃ tail, entry.1 = head :: tail := by
  rw [codeWords, List.mem_append, List.mem_map] at hentry
  obtain ⟨reference, href, rfl⟩ | hbold := hentry
  · obtain ⟨tail, hword⟩ := references_head href
    exact ⟨'&', by simp, tail, hword⟩
  · simp only [List.mem_cons, List.not_mem_nil, or_false] at hbold
    obtain rfl | rfl := hbold
    · exact ⟨'<', by simp, _, rfl⟩
    · exact ⟨'<', by simp, _, rfl⟩

theorem firstToken_code (t : Token) (rest : List Char) :
    firstToken (t.code ++ rest) = some t := by
  cases t with
  | openBold => rfl
  | closeBold => rfl
  | char c =>
      obtain href | ⟨hplain, hspecial⟩ := entity_cases c
      · simp only [references, List.mem_cons, Prod.mk.injEq, List.cons.injEq, and_true,
          List.not_mem_nil, or_false] at href
        obtain ⟨hcode, rfl⟩ | ⟨hcode, rfl⟩ | ⟨hcode, rfl⟩ | ⟨hcode, rfl⟩ | ⟨hcode, rfl⟩ := href <;>
          rfl
      · have hnone :
            (codeWords.find? fun entry => entry.1.isPrefixOf (c :: rest)) = none := by
          refine List.find?_eq_none.mpr fun entry hentry hbegins => ?_
          obtain ⟨head, hhead, tail, hword⟩ := codeWords_heads hentry
          rw [hword, List.isPrefixOf_iff_prefix, List.cons_prefix_cons] at hbegins
          rw [hbegins.1] at hhead
          simp only [List.mem_cons, List.not_mem_nil, or_false, not_or] at hhead hspecial
          obtain rfl | rfl := hhead
          · exact hspecial.1 rfl
          · exact hspecial.2.1 rfl
        unfold Token.code firstToken
        simp only [hplain, List.cons_append, List.nil_append, hnone, List.head?_cons,
          Option.map_some]

theorem prefixFree_code : PrefixFree Token.code :=
  PrefixFree.of_read firstToken firstToken_code rfl

/-- Past its first character no code word has an ampersand or a less-than sign. -/
theorem markup_not_mem_tail {mark : Char} (hmark : mark ∈ ['&', '<']) (t : Token) :
    mark ∉ t.code.tail := by
  have hmarks : mark = '&' ∨ mark = '<' := by simpa using hmark
  cases t with
  | openBold => obtain rfl | rfl := hmarks <;> simp [Token.code]
  | closeBold => obtain rfl | rfl := hmarks <;> simp [Token.code]
  | char c =>
      obtain href | ⟨hplain, -⟩ := entity_cases c
      · simp only [references, List.mem_cons, Prod.mk.injEq, List.cons.injEq, and_true,
          List.not_mem_nil, or_false] at href
        obtain ⟨hcode, -⟩ | ⟨hcode, -⟩ | ⟨hcode, -⟩ | ⟨hcode, -⟩ | ⟨hcode, -⟩ := href <;>
          obtain rfl | rfl := hmarks <;> simp [Token.code, hcode]
      · simp [Token.code, hplain]

end Tokens

section Highlights

def markOpen : List Token := [.char '<', .char 'b', .char '>']

def markClose : List Token := [.char '<', .char '/', .char 'b', .char '>']

/-- The tokens of a highlight. -/
def tokens (raw : String) : List Token :=
  replaceWord markClose [.closeBold] (replaceWord markOpen [.openBold] (raw.toList.map .char))

theorem toList_sanitizeHighlight (raw : String) :
    (sanitizeHighlight raw).toList = (tokens raw).flatMap Token.code := by
  have hescaped : (escapeHtml raw).toList = (raw.toList.map Token.char).flatMap Token.code := by
    rw [toList_escapeHtml, List.flatMap_map]
    rfl
  have htails : ∀ t : Token, '&' ∉ t.code.tail := markup_not_mem_tail (by simp)
  have hopen : markOpen.flatMap Token.code =
      '&' :: ['l', 't', ';', 'b', '&', 'g', 't', ';'] := rfl
  have hclose : markClose.flatMap Token.code =
      '&' :: ['l', 't', ';', '/', 'b', '&', 'g', 't', ';'] := rfl
  unfold sanitizeHighlight
  rw [String.toList_ofList, hescaped, ← hopen, ← hclose]
  change replaceWord _ ([Token.closeBold].flatMap Token.code)
    (replaceWord _ ([Token.openBold].flatMap Token.code) _) = _
  rw [replaceWord_flatMap prefixFree_code hopen htails,
    replaceWord_flatMap prefixFree_code hclose htails]
  rfl

/-- The tokens stand for the input. -/
theorem flatMap_source_tokens (raw : String) :
    (tokens raw).flatMap Token.source = raw.toList := by
  have hopen : [Token.openBold].flatMap Token.source = markOpen.flatMap Token.source := rfl
  have hclose : [Token.closeBold].flatMap Token.source = markClose.flatMap Token.source := rfl
  unfold tokens
  rw [flatMap_replaceWord (by simp [markClose]) hclose,
    flatMap_replaceWord (by simp [markOpen]) hopen, List.flatMap_map]
  exact List.flatMap_singleton' _

/-- A less-than sign of a code word begins a marker. -/
theorem code_lessThan {t : Token} {left right : List Char} (hcode : t.code = left ++ '<' :: right) :
    '<' :: right = ['<', 'b', '>'] ∨ '<' :: right = ['<', '/', 'b', '>'] := by
  have hleft : left = [] := eq_nil_of_not_mem_tail hcode (markup_not_mem_tail (by simp) t)
  subst hleft
  rw [List.nil_append] at hcode
  cases t with
  | openBold => exact Or.inl hcode.symm
  | closeBold => exact Or.inr hcode.symm
  | char c =>
      obtain href | ⟨hplain, hspecial⟩ := entity_cases c
      · obtain ⟨tail, hword⟩ := references_head href
        rw [Token.code, hword, List.cons.injEq] at hcode
        exact absurd hcode.1 (by decide)
      · rw [Token.code, hplain, List.cons.injEq] at hcode
        exact absurd hcode.1 fun h => hspecial (by simp [h])

/-- An ampersand of a code word begins a reference. -/
theorem code_ampersand
    {t : Token} {left right : List Char}
    (hcode : t.code = left ++ '&' :: right) :
    ∃ reference ∈ references, '&' :: right = reference.1 := by
  have hleft : left = [] := eq_nil_of_not_mem_tail hcode (markup_not_mem_tail (by simp) t)
  subst hleft
  rw [List.nil_append] at hcode
  cases t with
  | openBold => exact absurd (List.cons.inj hcode).1 (by decide)
  | closeBold => exact absurd (List.cons.inj hcode).1 (by decide)
  | char c =>
      obtain href | ⟨hplain, hspecial⟩ := entity_cases c
      · exact ⟨_, href, hcode.symm⟩
      · rw [Token.code, hplain, List.cons.injEq] at hcode
        exact absurd hcode.1 fun h => hspecial (by simp [h])

theorem quotes_not_mem_code {quote : Char} (hquote : quote ∈ ['"', '\'']) (t : Token) :
    quote ∉ t.code := by
  have hquotes : quote = '"' ∨ quote = '\'' := by simpa using hquote
  cases t with
  | openBold => obtain rfl | rfl := hquotes <;> simp [Token.code]
  | closeBold => obtain rfl | rfl := hquotes <;> simp [Token.code]
  | char c =>
      obtain href | ⟨hplain, hspecial⟩ := entity_cases c
      · simp only [references, List.mem_cons, Prod.mk.injEq, List.cons.injEq, and_true,
          List.not_mem_nil, or_false] at href
        obtain ⟨hcode, -⟩ | ⟨hcode, -⟩ | ⟨hcode, -⟩ | ⟨hcode, -⟩ | ⟨hcode, -⟩ := href <;>
          obtain rfl | rfl := hquotes <;> simp [Token.code, hcode]
      · rw [Token.code, hplain, List.mem_singleton]
        rintro rfl
        exact hspecial (by obtain rfl | rfl := hquotes <;> simp)

/-- A renderer reads each token as what it stands for. -/
theorem decode_code (t : Token) (rest : List Char) :
    replaceAll references (t.code ++ rest) = t.source ++ replaceAll references rest := by
  have hheads : ∀ reference ∈ references,
      ∃ head ∈ ['&'], ∃ tail, reference.1 = head :: tail := by
    intro reference hreference
    obtain ⟨tail, hword⟩ := references_head hreference
    exact ⟨'&', by simp, tail, hword⟩
  cases t with
  | openBold => exact replaceAll_append_of_heads hheads (by simp [Token.code]) rest
  | closeBold => exact replaceAll_append_of_heads hheads (by simp [Token.code]) rest
  | char c =>
      obtain href | ⟨hplain, hspecial⟩ := entity_cases c
      · refine replaceAll_append_of_find ?_ ?_
        · obtain ⟨tail, hword⟩ := references_head href
          rw [Token.code, hword]
          exact List.cons_ne_nil _ _
        · simp only [references, List.mem_cons, Prod.mk.injEq, List.cons.injEq, and_true,
            List.not_mem_nil, or_false] at href
          obtain ⟨hcode, rfl⟩ | ⟨hcode, rfl⟩ | ⟨hcode, rfl⟩ | ⟨hcode, rfl⟩ | ⟨hcode, rfl⟩ :=
            href <;> rfl
      · rw [Token.code, hplain]
        refine replaceAll_append_of_heads hheads ?_ rest
        intro d hd hmem
        rw [List.mem_singleton.mp hd, List.mem_singleton] at hmem
        exact hspecial (by simp [hmem])

theorem decode_flatMap_code (ts : List Token) :
    replaceAll references (ts.flatMap Token.code) = ts.flatMap Token.source := by
  induction ts with
  | nil => rfl
  | cons t rest ih => rw [List.flatMap_cons, decode_code, ih, List.flatMap_cons]

theorem sanitizeHighlight_safe (raw : String) :
    (∀ before after, (sanitizeHighlight raw).toList = before ++ '<' :: after →
      ['<', 'b', '>'] <+: '<' :: after ∨ ['<', '/', 'b', '>'] <+: '<' :: after) ∧
    (∀ before after, (sanitizeHighlight raw).toList = before ++ '&' :: after →
      ∃ reference ∈ references, reference.1 <+: '&' :: after) ∧
    '"' ∉ (sanitizeHighlight raw).toList ∧
    '\'' ∉ (sanitizeHighlight raw).toList ∧
    decodeReferences (sanitizeHighlight raw) = raw := by
  have hquote : ∀ quote ∈ ['"', '\''], quote ∉ (sanitizeHighlight raw).toList := by
    intro quote hquote hmem
    rw [toList_sanitizeHighlight, List.mem_flatMap] at hmem
    obtain ⟨t, -, ht⟩ := hmem
    exact quotes_not_mem_code hquote t ht
  refine ⟨?_, ?_, hquote _ (by simp), hquote _ (by simp), ?_⟩
  · intro before after hsplit
    rw [toList_sanitizeHighlight] at hsplit
    obtain ⟨t, -, left, right, rest, hcode, rfl⟩ := exists_token_of_split hsplit
    rw [← List.cons_append]
    obtain hmark | hmark := code_lessThan hcode
    · exact Or.inl (hmark ▸ List.prefix_append _ _)
    · exact Or.inr (hmark ▸ List.prefix_append _ _)
  · intro before after hsplit
    rw [toList_sanitizeHighlight] at hsplit
    obtain ⟨t, -, left, right, rest, hcode, rfl⟩ := exists_token_of_split hsplit
    obtain ⟨reference, hreference, hword⟩ := code_ampersand hcode
    refine ⟨reference, hreference, ?_⟩
    rw [← List.cons_append, hword]
    exact List.prefix_append _ _
  · unfold decodeReferences
    rw [toList_sanitizeHighlight, decode_flatMap_code, flatMap_source_tokens,
      String.ofList_toList]

end Highlights

end SearchHighlight
end Core
end NestBase
