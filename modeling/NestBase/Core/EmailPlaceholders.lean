import NestBase.Core.EmailBuilder
import Mathlib

/-!
# Placeholders in a text and in its escaped form

A text is scanned from the left: a placeholder at the head is skipped as a
whole, any other character alone (`scan_induction`).

The template literal is written by escaping the text first and replacing the
placeholders then.  The three replacements escape one character at a time,
where a dollar sign is escaped before a brace only (`escapeTemplate`).  They
touch no character of a placeholder, so the escaped text has the same
placeholders between its escaped pieces (`matchPlaceholder_escapeTemplate`).
-/

namespace NestBase
namespace EmailBuilder

open Lib

/-! ## Names -/

section Scans

attribute [local simp] scanSegments scanReplace

/-- A name a placeholder can have. -/
def IsName (name : List Char) : Prop :=
  name.head?.any isIdentStart = true ∧ ∀ c ∈ name, isIdentChar c = true

variable {c : Char}

theorem toNat_of_isIdentChar (h : isIdentChar c = true) :
    48 ≤ c.toNat ∧ c.toNat ≤ 122 := by
  simp only [isIdentChar, Bool.or_eq_true, beq_iff_eq] at h
  obtain hletter | rfl := h
  · have hletters := Text.range_of_isAlphanum hletter
    omega
  · exact ⟨by decide, by decide⟩

variable {rest s : List Char}

/-- What a placeholder at the head of a text looks like. -/
theorem matchPlaceholder_eq_some {name : List Char} (h : matchPlaceholder s = some (name, rest)) :
    IsName name ∧ ∃ before after,
      (∀ c ∈ before, Text.isWhiteSpace c = true) ∧ (∀ c ∈ after, Text.isWhiteSpace c = true) ∧
        s = '\x7b' :: '\x7b' :: (before ++ (name ++ (after ++ '\x7d' :: '\x7d' :: rest))) := by
  unfold matchPlaceholder at h
  split at h
  · next inner =>
      simp only at h
      split at h
      · next hname =>
          split at h
          · next behind hclose =>
              simp only [Option.some.injEq, Prod.mk.injEq] at h
              obtain ⟨rfl, rfl⟩ := h
              refine ⟨⟨hname, fun c hc => List.mem_takeWhile_imp hc⟩,
                inner.takeWhile Text.isWhiteSpace,
                ((inner.dropWhile Text.isWhiteSpace).dropWhile isIdentChar).takeWhile
                  Text.isWhiteSpace,
                fun c hc => List.mem_takeWhile_imp hc, fun c hc => List.mem_takeWhile_imp hc, ?_⟩
              rw [← hclose, List.takeWhile_append_dropWhile, List.takeWhile_append_dropWhile,
                List.takeWhile_append_dropWhile]
          · cases h
      · cases h
  · cases h

theorem length_lt_of_matchPlaceholder
    {name : List Char}
    (h : matchPlaceholder s = some (name, rest)) :
    rest.length < s.length := by
  obtain ⟨-, before, after, -, -, rfl⟩ := matchPlaceholder_eq_some h
  simp only [List.length_cons, List.length_append]
  omega

theorem head_of_matchPlaceholder {name : List Char} (h : matchPlaceholder s = some (name, rest)) :
    s.head? = some '\x7b' := by
  obtain ⟨-, before, after, -, -, rfl⟩ := matchPlaceholder_eq_some h
  rfl

theorem matchPlaceholder_of_head (h : c ≠ '\x7b') :
    matchPlaceholder (c :: rest) = none := by
  cases hmatch : matchPlaceholder (c :: rest) with
  | none => rfl
  | some found =>
      have hhead := head_of_matchPlaceholder hmatch
      rw [List.head?_cons, Option.some.injEq] at hhead
      exact absurd hhead h

/-- A text is empty, begins with a placeholder, or with a character of its own. -/
theorem scan_induction
    {P : List Char → Prop}
    (nil : P [])
    (var : ∀ s name rest, matchPlaceholder s = some (name, rest) → P rest → P s)
    (char : ∀ c rest, matchPlaceholder (c :: rest) = none → P rest → P (c :: rest)) :
    ∀ s, P s := by
  intro s
  induction hlength : s.length using Nat.strong_induction_on generalizing s with
  | _ n ih =>
      subst hlength
      cases hmatch : matchPlaceholder s with
      | some found =>
          obtain ⟨name, rest⟩ := found
          exact var s name rest hmatch
            (ih rest.length (length_lt_of_matchPlaceholder hmatch) rest rfl)
      | none =>
          cases s with
          | nil => exact nil
          | cons c rest => exact char c rest hmatch (ih rest.length (by simp) rest rfl)

/-! ## The scans without their bound -/

theorem scanSegments_of_le {fuel : Nat} (h : s.length ≤ fuel) :
    scanSegments fuel s = scanSegments s.length s := by
  induction s using scan_induction generalizing fuel with
  | nil => cases fuel <;> rfl
  | var s name rest hmatch ih =>
      have hlt := length_lt_of_matchPlaceholder hmatch
      obtain ⟨c, tail, rfl⟩ := List.exists_cons_of_length_pos (Nat.zero_lt_of_lt hlt)
      rw [List.length_cons] at hlt h ⊢
      obtain ⟨fuel, rfl⟩ := Nat.exists_eq_add_one_of_ne_zero (show fuel ≠ 0 by omega)
      simp only [scanSegments, hmatch]
      rw [ih (show rest.length ≤ fuel by omega), ih (show rest.length ≤ tail.length by omega)]
  | char c rest hmatch ih =>
      rw [List.length_cons] at h ⊢
      obtain ⟨fuel, rfl⟩ := Nat.exists_eq_add_one_of_ne_zero (show fuel ≠ 0 by omega)
      simp only [scanSegments, hmatch]
      rw [ih (show rest.length ≤ fuel by omega)]

theorem segments_of_match {name : List Char} (h : matchPlaceholder s = some (name, rest)) :
    segments s = .var name :: segments rest := by
  have hlt := length_lt_of_matchPlaceholder h
  obtain ⟨c, tail, rfl⟩ := List.exists_cons_of_length_pos (Nat.zero_lt_of_lt hlt)
  rw [List.length_cons] at hlt
  unfold segments
  rw [List.length_cons, scanSegments, h]
  simp only
  rw [scanSegments_of_le (show rest.length ≤ tail.length by omega)]

theorem segments_of_char (h : matchPlaceholder (c :: rest) = none) :
    segments (c :: rest) = consText c (segments rest) := by
  unfold segments
  simp [h]

section Replace

variable {write : List Char → List Char}

theorem scanReplace_of_le {fuel : Nat} {s : List Char} (h : s.length ≤ fuel) :
    scanReplace write fuel s = scanReplace write s.length s := by
  induction s using scan_induction generalizing fuel with
  | nil => cases fuel <;> rfl
  | var s name rest hmatch ih =>
      have hlt := length_lt_of_matchPlaceholder hmatch
      obtain ⟨c, tail, rfl⟩ := List.exists_cons_of_length_pos (Nat.zero_lt_of_lt hlt)
      rw [List.length_cons] at hlt h ⊢
      obtain ⟨fuel, rfl⟩ := Nat.exists_eq_add_one_of_ne_zero (show fuel ≠ 0 by omega)
      simp only [scanReplace, hmatch]
      rw [ih (show rest.length ≤ fuel by omega), ih (show rest.length ≤ tail.length by omega)]
  | char c rest hmatch ih =>
      rw [List.length_cons] at h ⊢
      obtain ⟨fuel, rfl⟩ := Nat.exists_eq_add_one_of_ne_zero (show fuel ≠ 0 by omega)
      simp only [scanReplace, hmatch]
      rw [ih (show rest.length ≤ fuel by omega)]

theorem replacePlaceholders_of_match
    {s name rest : List Char}
    (h : matchPlaceholder s = some (name, rest)) :
    replacePlaceholders write s = write name ++ replacePlaceholders write rest := by
  have hlt := length_lt_of_matchPlaceholder h
  obtain ⟨c, tail, rfl⟩ := List.exists_cons_of_length_pos (Nat.zero_lt_of_lt hlt)
  rw [List.length_cons] at hlt
  unfold replacePlaceholders
  rw [List.length_cons, scanReplace, h]
  simp only
  rw [scanReplace_of_le (show rest.length ≤ tail.length by omega)]

theorem replacePlaceholders_of_char
    {c : Char} {rest : List Char}
    (h : matchPlaceholder (c :: rest) = none) :
    replacePlaceholders write (c :: rest) = c :: replacePlaceholders write rest := by
  unfold replacePlaceholders
  simp [h]

end Replace

end Scans

/-! ## Segments of a text -/

theorem isName_of_mem_segments {s name : List Char} (h : .var name ∈ segments s) :
    IsName name := by
  induction s using scan_induction with
  | nil => cases h
  | var s name' rest hmatch ih =>
      rw [segments_of_match hmatch] at h
      rcases List.mem_cons.mp h with hhead | hrest
      · cases hhead
        exact (matchPlaceholder_eq_some hmatch).1
      · exact ih hrest
  | char c rest hmatch ih =>
      rw [segments_of_char hmatch] at h
      unfold consText at h
      split at h
      · next chars behind hsegments =>
          rw [hsegments] at ih
          rcases List.mem_cons.mp h with hhead | hrest
          · cases hhead
          · exact ih (List.mem_cons_of_mem _ hrest)
      · rcases List.mem_cons.mp h with hhead | hrest
        · cases hhead
        · exact ih hrest

/-! ## Escaping for a template literal -/

section Escape

attribute [local simp] escapeDollarBrace

/-- What is written for a character in front of `next`. -/
def escapeTemplateChar (next : Option Char) (c : Char) : List Char :=
  if c = '\\' then ['\\', '\\']
  else if c = '\x60' then ['\\', '\x60']
  else if c = '$' ∧ next = some '\x7b' then ['\\', '$']
  else [c]

/-- The escapes of a text that `next` follows. -/
def escapeTemplateFrom (next : Option Char) : List Char → List Char
  | [] => []
  | c :: rest => escapeTemplateChar (rest.head?.or next) c ++ escapeTemplateFrom next rest

def escapeTemplate (s : List Char) : List Char :=
  escapeTemplateFrom none s

/-- The escape of a character begins with it or with a backslash. -/
theorem escapeTemplateChar_cases (next : Option Char) (c : Char) :
    (escapeTemplateChar next c = [c] ∧ c ≠ '\\' ∧ c ≠ '\x60' ∧ (c = '$' → next ≠ some '\x7b')) ∨
      (escapeTemplateChar next c = ['\\', c] ∧ (c = '\\' ∨ c = '\x60' ∨ c = '$')) := by
  unfold escapeTemplateChar
  split
  · next h =>
      subst h
      exact Or.inr ⟨rfl, Or.inl rfl⟩
  · next hback =>
      split
      · next h =>
          subst h
          exact Or.inr ⟨rfl, Or.inr (Or.inl rfl)⟩
      · next htick =>
          split
          · next h =>
              obtain ⟨rfl, -⟩ := h
              exact Or.inr ⟨rfl, Or.inr (Or.inr rfl)⟩
          · next hdollar => exact Or.inl ⟨rfl, hback, htick, fun hc hnext => hdollar ⟨hc, hnext⟩⟩

theorem escapeDollarBrace_cons
    {c : Char} {rest : List Char}
    (h : c = '$' → rest.head? ≠ some '\x7b') :
    escapeDollarBrace (c :: rest) = c :: escapeDollarBrace rest := by
  rw [escapeDollarBrace]
  rintro behind rfl rfl
  exact h rfl rfl

/-- The first two replacements of one character. -/
theorem flatMap_escapeBacktick (c : Char) :
    (escapeBackslash c).flatMap escapeBacktick =
      if c = '\\' then ['\\', '\\'] else if c = '\x60' then ['\\', '\x60'] else [c] := by
  unfold escapeBackslash escapeBacktick
  split
  · rfl
  · simp

theorem head?_flatMap_eq_brace (s : List Char) :
    (s.flatMap fun c => (escapeBackslash c).flatMap escapeBacktick).head? = some '\x7b' ↔
      s.head? = some '\x7b' := by
  cases s with
  | nil => simp
  | cons c rest =>
      rw [List.flatMap_cons, flatMap_escapeBacktick]
      split
      · next h =>
          subst h
          simp
      · split
        · next h =>
            subst h
            simp
        · simp

/-- The three replacements escape one character at a time. -/
theorem replacements_eq_escapeTemplate (s : List Char) :
    escapeDollarBrace ((s.flatMap escapeBackslash).flatMap escapeBacktick) = escapeTemplate s := by
  rw [List.flatMap_assoc]
  unfold escapeTemplate
  induction s with
  | nil => rfl
  | cons c rest ih =>
      have hbrace := head?_flatMap_eq_brace rest
      rw [escapeTemplateFrom, Option.or_none, List.flatMap_cons, flatMap_escapeBacktick]
      unfold escapeTemplateChar
      split
      · next h =>
          rw [List.cons_append, List.cons_append, List.nil_append,
            escapeDollarBrace_cons (fun hc => absurd hc (by decide)), escapeDollarBrace_cons (fun hc => absurd hc (by decide)), ih]
          rfl
      · split
        · next h =>
            rw [List.cons_append, List.cons_append, List.nil_append,
              escapeDollarBrace_cons (fun hc => absurd hc (by decide)), escapeDollarBrace_cons (fun hc => absurd hc (by decide)), ih]
            rfl
        · rw [List.cons_append, List.nil_append]
          split
          · next h =>
              obtain ⟨rfl, hnext⟩ := h
              rw [← hbrace] at hnext
              obtain ⟨tail, htail⟩ : ∃ tail,
                  (rest.flatMap fun c => (escapeBackslash c).flatMap escapeBacktick) =
                    '\x7b' :: tail := by
                revert hnext
                cases rest.flatMap fun c => (escapeBackslash c).flatMap escapeBacktick with
                | nil => simp
                | cons d tail =>
                    intro hnext
                    rw [List.head?_cons, Option.some.injEq] at hnext
                    exact ⟨tail, by rw [hnext]⟩
              rw [htail] at ih ⊢
              rw [escapeDollarBrace, ← ih, escapeDollarBrace_cons (fun hc => absurd hc (by decide))]
              rfl
          · next h =>
              rw [escapeDollarBrace_cons fun hc hnext => h ⟨hc, hbrace.mp hnext⟩, ih]
              rfl

end Escape

/-! ## Placeholders of the escaped text -/

section Escaped

variable {next : Option Char}

/-- Characters that need no escape are passed by, up to the first one that does. -/
theorem span_escapeTemplateFrom
    {P : Char → Bool}
    (hback : P '\\' = false)
    (htick : P '\x60' = false)
    (hdollar : P '$' = false)
    (s : List Char) :
    (escapeTemplateFrom next s).takeWhile P = s.takeWhile P ∧
      (escapeTemplateFrom next s).dropWhile P = escapeTemplateFrom next (s.dropWhile P) := by
  induction s with
  | nil => exact ⟨rfl, rfl⟩
  | cons c rest ih =>
      rcases escapeTemplateChar_cases (rest.head?.or next) c with
        ⟨hsame, -⟩ | ⟨hescaped, hspecial⟩
      · rw [escapeTemplateFrom, hsame, List.cons_append, List.nil_append]
        cases hP : P c with
        | true =>
            rw [List.takeWhile_cons, List.takeWhile_cons, List.dropWhile_cons, List.dropWhile_cons,
              hP]
            exact ⟨congrArg (c :: ·) ih.1, ih.2⟩
        | false =>
            rw [List.takeWhile_cons, List.takeWhile_cons, List.dropWhile_cons, List.dropWhile_cons,
              hP]
            refine ⟨rfl, ?_⟩
            simp only [Bool.false_eq_true, if_false]
            rw [escapeTemplateFrom, hsame]
            rfl
      · have hP : P c = false := by
          rcases hspecial with rfl | rfl | rfl
          · exact hback
          · exact htick
          · exact hdollar
        rw [escapeTemplateFrom, hescaped, List.cons_append, List.takeWhile_cons,
          List.takeWhile_cons, List.dropWhile_cons, List.dropWhile_cons, hP, hback]
        refine ⟨rfl, ?_⟩
        simp only [Bool.false_eq_true, if_false]
        rw [escapeTemplateFrom, hescaped]
        rfl

/-- A brace at the head of the escaped text is one at the head of the text. -/
theorem escapeTemplateFrom_eq_cons_iff {d : Char} (hback : d ≠ '\\') {s behind : List Char} :
    escapeTemplateFrom next s = d :: behind ↔
      ∃ rest, s = d :: rest ∧ escapeTemplateChar (rest.head?.or next) d = [d] ∧
        behind = escapeTemplateFrom next rest := by
  cases s with
  | nil => simp [escapeTemplateFrom]
  | cons c rest =>
      rw [escapeTemplateFrom]
      rcases escapeTemplateChar_cases (rest.head?.or next) c with
        ⟨hsame, -⟩ | ⟨hescaped, -⟩
      · rw [hsame, List.cons_append, List.nil_append, List.cons.injEq]
        constructor
        · rintro ⟨rfl, rfl⟩
          exact ⟨rest, rfl, hsame, rfl⟩
        · rintro ⟨rest', hrest, -, hbehind⟩
          obtain ⟨rfl, rfl⟩ := List.cons.inj hrest
          exact ⟨rfl, hbehind.symm⟩
      · rw [hescaped, List.cons_append, List.cons.injEq]
        constructor
        · rintro ⟨hd, -⟩
          exact absurd hd.symm hback
        · rintro ⟨rest', hrest, hsame, -⟩
          obtain ⟨rfl, rfl⟩ := List.cons.inj hrest
          rw [hescaped] at hsame
          cases hsame

theorem escapeTemplateChar_brace (next : Option Char) :
    escapeTemplateChar next '\x7b' = ['\x7b'] ∧ escapeTemplateChar next '\x7d' = ['\x7d'] := by
  constructor <;> simp [escapeTemplateChar]

theorem escapeTemplateFrom_eq_two {d : Char} (hd : d = '\x7b' ∨ d = '\x7d') {s behind : List Char} :
    escapeTemplateFrom next s = d :: d :: behind ↔
      ∃ rest, s = d :: d :: rest ∧ behind = escapeTemplateFrom next rest := by
  have hback : d ≠ '\\' := by
    rcases hd with rfl | rfl <;> decide
  have hplain : ∀ next', escapeTemplateChar next' d = [d] := by
    intro next'
    rcases hd with rfl | rfl
    · exact (escapeTemplateChar_brace next').1
    · exact (escapeTemplateChar_brace next').2
  rw [escapeTemplateFrom_eq_cons_iff hback]
  constructor
  · rintro ⟨rest, rfl, -, hbehind⟩
    obtain ⟨rest', rfl, -, hrest⟩ := (escapeTemplateFrom_eq_cons_iff hback).mp hbehind.symm
    exact ⟨rest', rfl, hrest⟩
  · rintro ⟨rest, rfl, rfl⟩
    refine ⟨d :: rest, rfl, hplain _, ?_⟩
    rw [escapeTemplateFrom, hplain]
    rfl

/-- The end of a placeholder. -/
def closingBraces (name : List Char) : List Char → Option (List Char × List Char)
  | '\x7d' :: '\x7d' :: rest => some (name, rest)
  | _ => none

theorem closingBraces_escapeTemplateFrom (name s : List Char) :
    closingBraces name (escapeTemplateFrom next s) =
      (closingBraces name s).map fun found => (found.1, escapeTemplateFrom next found.2) := by
  by_cases hclose : ∃ rest, s = '\x7d' :: '\x7d' :: rest
  · obtain ⟨rest, rfl⟩ := hclose
    rw [(escapeTemplateFrom_eq_two (Or.inr rfl)).mpr ⟨rest, rfl, rfl⟩]
    rfl
  · have hopen : ∀ behind, escapeTemplateFrom next s ≠ '\x7d' :: '\x7d' :: behind := by
      intro behind hescaped
      obtain ⟨rest, hrest, -⟩ := (escapeTemplateFrom_eq_two (Or.inr rfl)).mp hescaped
      exact hclose ⟨rest, hrest⟩
    rw [closingBraces, closingBraces]
    · rfl
    · intro rest hrest
      exact hclose ⟨rest, hrest⟩
    · exact hopen

/-- The escaped text begins with a placeholder when the text does, and with the same one. -/
theorem matchPlaceholder_escapeTemplateFrom (s : List Char) :
    matchPlaceholder (escapeTemplateFrom next s) =
      (matchPlaceholder s).map fun found => (found.1, escapeTemplateFrom next found.2) := by
  have hspace := fun s : List Char =>
    @span_escapeTemplateFrom next Text.isWhiteSpace
      (by decide) (by decide) (by decide) s
  have hident := fun s : List Char =>
    @span_escapeTemplateFrom next isIdentChar
      (by decide) (by decide) (by decide) s
  have hbody : ∀ inner : List Char,
      matchPlaceholder ('\x7b' :: '\x7b' :: inner) =
        let named := inner.dropWhile Text.isWhiteSpace
        let name := named.takeWhile isIdentChar
        if name.head?.any isIdentStart then
          closingBraces name ((named.dropWhile isIdentChar).dropWhile Text.isWhiteSpace)
        else none := fun _ => rfl
  by_cases hopen : ∃ inner, s = '\x7b' :: '\x7b' :: inner
  · obtain ⟨inner, rfl⟩ := hopen
    rw [(escapeTemplateFrom_eq_two (Or.inl rfl)).mpr ⟨inner, rfl, rfl⟩, hbody, hbody]
    simp only [(hspace _).2, (hident _).1, (hident _).2]
    split
    · exact closingBraces_escapeTemplateFrom _ _
    · rfl
  · have hclosed : ∀ behind, escapeTemplateFrom next s ≠ '\x7b' :: '\x7b' :: behind := by
      intro behind hescaped
      obtain ⟨rest, hrest, -⟩ := (escapeTemplateFrom_eq_two (Or.inl rfl)).mp hescaped
      exact hopen ⟨rest, hrest⟩
    rw [matchPlaceholder, matchPlaceholder]
    · rfl
    · intro inner hinner
      exact hopen ⟨inner, hinner⟩
    · exact hclosed

end Escaped

end EmailBuilder
end NestBase
