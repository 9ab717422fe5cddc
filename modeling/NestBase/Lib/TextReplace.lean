import Mathlib.Data.List.Basic
import Mathlib.Data.List.Infix

/-!
# Replacing every occurrence of some words

A text is read from left to right.  Where one of the words of a table begins,
its replacement is written and the word is passed over; elsewhere the element
is copied.  The words of the table are not empty.

When the text is a coded list of tokens, a coded word is found exactly where
the word itself stands in the list: replacing then commutes with the code.
What this needs of the code is that no code word is a prefix of another and
that no code word contains, past its first element, the element with which the
coded word begins.
-/

namespace NestBase
namespace Lib
namespace TextReplace

section Replace

variable {α : Type*} [DecidableEq α]

/-- `skip` elements of the text belong to the word that was just replaced. -/
def replaceFrom (table : List (List α × List α)) : Nat → List α → List α
  | _, [] => []
  | skip + 1, _ :: rest => replaceFrom table skip rest
  | 0, x :: rest =>
      match table.find? fun entry => entry.1.isPrefixOf (x :: rest) with
      | some entry => entry.2 ++ replaceFrom table (entry.1.length - 1) rest
      | none => x :: replaceFrom table 0 rest

def replaceAll (table : List (List α × List α)) (text : List α) : List α :=
  replaceFrom table 0 text

/-- One word, as in `text.replace(/word/g, filling)`. -/
def replaceWord (word filling text : List α) : List α :=
  replaceAll [(word, filling)] text

theorem replaceFrom_eq_drop (table : List (List α × List α)) (skip : Nat) (text : List α) :
    replaceFrom table skip text = replaceAll table (text.drop skip) := by
  induction text generalizing skip with
  | nil => cases skip <;> rfl
  | cons x rest ih =>
      cases skip with
      | zero => rfl
      | succ skip => exact ih skip

variable {rest word filling : List α}
variable {table : List (List α × List α)}

theorem replaceAll_cons_of_none {x : α} (hnone : ∀ entry ∈ table, ¬ entry.1 <+: x :: rest) :
    replaceAll table (x :: rest) = x :: replaceAll table rest := by
  have hfind : (table.find? fun entry => entry.1.isPrefixOf (x :: rest)) = none := by
    refine List.find?_eq_none.mpr fun entry hentry => ?_
    rw [List.isPrefixOf_iff_prefix]
    exact hnone entry hentry
  unfold replaceAll
  rw [replaceFrom, hfind]

theorem replaceAll_append_of_find
    (hword : word ≠ [])
    (hfind : (table.find? fun entry => entry.1.isPrefixOf (word ++ rest)) =
      some (word, filling)) :
    replaceAll table (word ++ rest) = filling ++ replaceAll table rest := by
  obtain ⟨x, tail, rfl⟩ := List.exists_cons_of_ne_nil hword
  unfold replaceAll
  rw [List.cons_append] at hfind ⊢
  rw [replaceFrom, hfind]
  change filling ++ replaceFrom table tail.length (tail ++ rest) = _
  rw [replaceFrom_eq_drop, List.drop_left]
  rfl

/-- Elements with which no word begins are copied. -/
theorem replaceAll_append_of_heads
    {heads : List α}
    (hheads : ∀ entry ∈ table, ∃ head ∈ heads, ∃ tail, entry.1 = head :: tail)
    {plain : List α}
    (hplain : ∀ x ∈ plain, x ∉ heads)
    (rest : List α) :
    replaceAll table (plain ++ rest) = plain ++ replaceAll table rest := by
  induction plain with
  | nil => rfl
  | cons x tail ih =>
      have hnone : ∀ entry ∈ table, ¬ entry.1 <+: x :: (tail ++ rest) := by
        intro entry hentry hbegins
        obtain ⟨head, hmem, word, hword⟩ := hheads entry hentry
        rw [hword, List.cons_prefix_cons] at hbegins
        exact hplain x (by simp) (hbegins.1 ▸ hmem)
      rw [List.cons_append, replaceAll_cons_of_none hnone,
        ih fun y hy => hplain y (List.mem_cons_of_mem _ hy), List.cons_append]

theorem replaceWord_append (hword : word ≠ []) (rest : List α) :
    replaceWord word filling (word ++ rest) = filling ++ replaceWord word filling rest := by
  refine replaceAll_append_of_find hword ?_
  rw [List.find?_cons_of_pos]
  exact List.isPrefixOf_iff_prefix.mpr (List.prefix_append _ _)

theorem replaceWord_cons_of_mismatch {x : α} (hnot : ¬ word <+: x :: rest) :
    replaceWord word filling (x :: rest) = x :: replaceWord word filling rest :=
  replaceAll_cons_of_none fun entry hentry => by
    rw [List.mem_singleton.mp hentry]
    exact hnot

/-- A word of one element is replaced element by element. -/
theorem replaceWord_singleton (x : α) (filling text : List α) :
    replaceWord [x] filling text = text.flatMap fun y => if y = x then filling else [y] := by
  induction text with
  | nil => rfl
  | cons y rest ih =>
      rw [List.flatMap_cons, ← ih]
      by_cases hy : y = x
      · subst hy
        rw [if_pos rfl]
        exact replaceWord_append (by simp) rest
      · rw [if_neg hy]
        refine replaceWord_cons_of_mismatch fun hbegins => hy ?_
        exact (List.cons_prefix_cons.mp hbegins).1.symm

/-- A text either begins with the word, or its first element is copied. -/
theorem replaceWord_induction
    (hword : word ≠ [])
    {P : List α → Prop}
    (nil : P [])
    (found : ∀ after, P after → P (word ++ after))
    (cons : ∀ x rest, ¬ word <+: x :: rest → P rest → P (x :: rest))
    (text : List α) :
    P text := by
  induction hlength : text.length using Nat.strong_induction_on generalizing text with
  | _ n ih =>
      cases text with
      | nil => exact nil
      | cons x rest =>
          by_cases hbegins : word <+: x :: rest
          · obtain ⟨after, hafter⟩ := hbegins
            have hshort : after.length < n := by
              have hpos : 0 < word.length := List.length_pos_iff.mpr hword
              rw [← hlength, ← hafter, List.length_append]
              omega
            rw [← hafter]
            exact found after (ih after.length hshort after rfl)
          · have hshort : rest.length < n := by
              rw [← hlength, List.length_cons]
              omega
            exact cons x rest hbegins (ih rest.length hshort rest rfl)

/-- The text of a coded list is kept when the filling reads like the word. -/
theorem flatMap_replaceWord
    {β : Type*} {read : α → List β}
    (hword : word ≠ [])
    (hread : filling.flatMap read = word.flatMap read)
    (text : List α) :
    (replaceWord word filling text).flatMap read = text.flatMap read := by
  induction text using replaceWord_induction hword with
  | nil => rfl
  | found after ih =>
      rw [replaceWord_append hword, List.flatMap_append, List.flatMap_append, hread, ih]
  | cons x rest hmismatch ih =>
      rw [replaceWord_cons_of_mismatch hmismatch, List.flatMap_cons, List.flatMap_cons, ih]

end Replace

section Coded

variable {τ α : Type*}

/-- No code word begins with another, and none is empty. -/
structure PrefixFree (code : τ → List α) : Prop where
  nonempty : ∀ t, code t ≠ []
  eq_of_begins : ∀ s t rest, code s <+: code t ++ rest → s = t

variable {code : τ → List α}

/-- A code is prefix free when the first token can be read off a coded text. -/
theorem PrefixFree.of_read
    (read : List α → Option τ)
    (hread : ∀ t rest, read (code t ++ rest) = some t)
    (hnil : read [] = none) :
    PrefixFree code where
  nonempty := by
    intro t hcode
    have hsome := hread t []
    rw [hcode, List.append_nil, hnil] at hsome
    exact nomatch hsome
  eq_of_begins := by
    rintro s t rest ⟨more, hmore⟩
    have hboth : some s = some t := by
      rw [← hread s more, hmore, hread]
    exact Option.some.inj hboth

theorem eq_nil_of_not_mem_tail
    {word left right : List α} {x : α}
    (hsplit : word = left ++ x :: right)
    (htail : x ∉ word.tail) :
    left = [] := by
  cases left with
  | nil => rfl
  | cons y left =>
      refine absurd ?_ htail
      rw [hsplit, List.cons_append, List.tail_cons]
      simp

/-- An element of the coded text stands in the code word of one token. -/
theorem exists_token_of_split
    {tokens : List τ} {before after : List α} {x : α}
    (hsplit : tokens.flatMap code = before ++ x :: after) :
    ∃ t ∈ tokens, ∃ left right rest, code t = left ++ x :: right ∧ after = right ++ rest := by
  induction tokens generalizing before with
  | nil => simp at hsplit
  | cons t rest ih =>
      rw [List.flatMap_cons] at hsplit
      obtain ⟨left, hbefore, hrest⟩ | ⟨right, hcode, hright⟩ :=
        List.append_eq_append_iff.mp hsplit
      · obtain ⟨s, hs, hrest⟩ := ih hrest
        exact ⟨s, List.mem_cons_of_mem _ hs, hrest⟩
      · cases right with
        | nil =>
            have hempty : rest.flatMap code = [] ++ x :: after := hright.symm
            obtain ⟨s, hs, hrest⟩ := ih hempty
            exact ⟨s, List.mem_cons_of_mem _ hs, hrest⟩
        | cons y right =>
            rw [List.cons_append, List.cons.injEq] at hright
            exact ⟨t, by simp, before, right, rest.flatMap code, hright.1 ▸ hcode, hright.2⟩

/-- A coded word begins a coded text exactly where the word begins the list. -/
theorem flatMap_prefix_iff (hcode : PrefixFree code) (word tokens : List τ) :
    word.flatMap code <+: tokens.flatMap code ↔ word <+: tokens := by
  constructor
  · intro hbegins
    induction word generalizing tokens with
    | nil => exact List.nil_prefix
    | cons t rest ih =>
        cases tokens with
        | nil =>
            rw [List.flatMap_cons] at hbegins
            have hnil := List.append_eq_nil_iff.mp (List.prefix_nil.mp hbegins)
            exact absurd hnil.1 (hcode.nonempty t)
        | cons s tokens =>
            rw [List.flatMap_cons, List.flatMap_cons] at hbegins
            have hsame : t = s :=
              hcode.eq_of_begins t s _ ((List.prefix_append _ _).trans hbegins)
            subst hsame
            rw [List.cons_prefix_cons]
            exact ⟨rfl, ih tokens ((List.prefix_append_right_inj _).mp hbegins)⟩
  · rintro ⟨rest, rfl⟩
    rw [List.flatMap_append]
    exact List.prefix_append _ _

variable [DecidableEq τ] [DecidableEq α]

/-- Replacing a coded word by a coded token is replacing the word by the token. -/
theorem replaceWord_flatMap
    (hcode : PrefixFree code)
    {word : List τ} {mark : α} {codeTail : List α}
    (hmark : word.flatMap code = mark :: codeTail)
    (htails : ∀ t, mark ∉ (code t).tail)
    (filling : List τ)
    (tokens : List τ) :
    replaceWord (word.flatMap code) (filling.flatMap code) (tokens.flatMap code) =
      (replaceWord word filling tokens).flatMap code := by
  have hcoded : word.flatMap code ≠ [] := by
    rw [hmark]
    exact List.cons_ne_nil _ _
  have hword : word ≠ [] := by
    rintro rfl
    exact hcoded rfl
  induction tokens using replaceWord_induction hword with
  | nil => rfl
  | found after ih =>
      rw [List.flatMap_append, replaceWord_append hcoded, replaceWord_append hword,
        List.flatMap_append, ih]
  | cons t rest hmismatch ih =>
      have hnot : ¬ word.flatMap code <+: (t :: rest).flatMap code :=
        fun h => hmismatch ((flatMap_prefix_iff hcode _ _).mp h)
      obtain ⟨x, tail, ht⟩ := List.exists_cons_of_ne_nil (hcode.nonempty t)
      have htail : ∀ y ∈ tail, y ∉ [mark] := by
        intro y hy hmem
        have hfree := htails t
        rw [ht, List.tail_cons] at hfree
        exact hfree (List.mem_singleton.mp hmem ▸ hy)
      have hheads : ∀ entry ∈ [(word.flatMap code, filling.flatMap code)],
          ∃ head ∈ [mark], ∃ tail, entry.1 = head :: tail := by
        intro entry hentry
        rw [List.mem_singleton.mp hentry]
        exact ⟨mark, by simp, codeTail, hmark⟩
      have hpass : replaceWord (word.flatMap code) (filling.flatMap code)
          (tail ++ rest.flatMap code) =
            tail ++ replaceWord (word.flatMap code) (filling.flatMap code)
              (rest.flatMap code) :=
        replaceAll_append_of_heads hheads htail _
      rw [List.flatMap_cons, ht, List.cons_append] at hnot
      rw [List.flatMap_cons, ht, List.cons_append, replaceWord_cons_of_mismatch hnot, hpass,
        replaceWord_cons_of_mismatch hmismatch, List.flatMap_cons, ht, List.cons_append, ih]

end Coded

end TextReplace
end Lib
end NestBase
