import NestBase.Lib.Json
import Mathlib.Data.List.Forall2
import Mathlib.Tactic

/-!
# Reading printed JSON

What `JSON.stringify` prints for a string ends at its closing quote, and a
number ends at the first character no number has.  A printed value can
therefore be told from what follows it, as long as every number in it is
finite: `Infinity` prints as `null`.

`SameUpToKeyOrder` is equality of values that forgets the order of the
entries of objects, at every depth.
-/

namespace NestBase
namespace Lib
namespace Json

/-- Induction with the items of an array and the values of an object at hand. -/
theorem induction
    {P : Json → Prop}
    (null : P .null)
    (bool : ∀ b, P (.bool b))
    (num : ∀ text, P (.num text))
    (str : ∀ s, P (.str s))
    (arr : ∀ items, (∀ item ∈ items, P item) → P (.arr items))
    (obj : ∀ entries, (∀ entry ∈ entries, P entry.2) → P (.obj entries)) :
    ∀ value, P value := by
  refine @Json.rec P (fun items => ∀ item ∈ items, P item)
    (fun entries => ∀ entry ∈ entries, P entry.2) (fun entry => P entry.2)
    null bool num str arr obj ?_ ?_ ?_ ?_ ?_
  · intro item hitem
    cases hitem
  · intro first rest hfirst hrest item hitem
    rcases List.mem_cons.mp hitem with rfl | hmem
    · exact hfirst
    · exact hrest item hmem
  · intro entry hentry
    cases hentry
  · intro first rest hfirst hrest entry hentry
    rcases List.mem_cons.mp hentry with rfl | hmem
    · exact hfirst
    · exact hrest entry hmem
  · intro key child hchild
    exact hchild

/-! ## Strings -/

/-- The value of a hexadecimal digit in lower case. -/
def hexValue (c : Char) : Nat :=
  if c.isDigit then c.toNat - 48 else c.toNat - 87

/-- What the letter after a backslash stands for. -/
def shortEscape (c : Char) : Char :=
  if c = 'b' then Char.ofNat 8
  else if c = 't' then Char.ofNat 9
  else if c = 'n' then Char.ofNat 10
  else if c = 'f' then Char.ofNat 12
  else if c = 'r' then Char.ofNat 13
  else c

/-- The first character of an escaped text, and the text behind its escape. -/
def unescape : List Char → Option (Char × List Char)
  | '\\' :: 'u' :: _ :: _ :: high :: low :: rest =>
      some (Char.ofNat (hexValue high * 16 + hexValue low), rest)
  | '\\' :: letter :: rest => some (shortEscape letter, rest)
  | c :: rest => some (c, rest)
  | [] => none

theorem hexValue_hexDigit {n : Nat} (h : n < 16) : hexValue (hexDigit n) = n := by
  interval_cases n <;> decide

theorem eq_ofNat_of_toNat {c : Char} {n : Nat} (h : c.toNat = n) : c = Char.ofNat n := by
  rw [← h, Char.ofNat_toNat]

/-- The escape of a character can be told from what follows it. -/
theorem unescape_escapeChar (c : Char) (rest : List Char) :
    unescape (escapeChar c ++ rest) = some (c, rest) := by
  unfold escapeChar
  by_cases hquote : c = '"'
  · subst hquote
    rfl
  by_cases hback : c = '\\'
  · subst hback
    rfl
  rw [if_neg hquote, if_neg hback]
  split
  · next h => rw [eq_ofNat_of_toNat h]; rfl
  split
  · next h => rw [eq_ofNat_of_toNat h]; rfl
  split
  · next h => rw [eq_ofNat_of_toNat h]; rfl
  split
  · next h => rw [eq_ofNat_of_toNat h]; rfl
  split
  · next h => rw [eq_ofNat_of_toNat h]; rfl
  split
  · next hlow =>
      have hhigh := hexValue_hexDigit (show c.toNat / 16 < 16 by omega)
      have hrest := hexValue_hexDigit (show c.toNat % 16 < 16 by omega)
      simp only [List.cons_append, List.nil_append, unescape, hhigh, hrest]
      rw [Nat.div_add_mod', Char.ofNat_toNat]
  · simp [unescape, hback]

theorem escapeChar_head (c : Char) (rest : List Char) :
    (escapeChar c ++ rest).head? ≠ some '"' := by
  unfold escapeChar
  by_cases hquote : c = '"'
  · rw [if_pos hquote]
    simp
  rw [if_neg hquote]
  repeat' split
  all_goals simp [hquote]

/-- An escaped text ends at the first quote that is not escaped. -/
theorem escaped_inj
    {cs ds rest rest' : List Char}
    (h : cs.flatMap escapeChar ++ '"' :: rest = ds.flatMap escapeChar ++ '"' :: rest') :
    cs = ds ∧ rest = rest' := by
  induction cs generalizing ds with
  | nil =>
      cases ds with
      | nil => exact ⟨rfl, by simpa using h⟩
      | cons d ds =>
          have hhead := congrArg List.head? h
          rw [List.flatMap_cons, List.append_assoc] at hhead
          exact absurd hhead.symm (escapeChar_head d _)
  | cons c cs ih =>
      cases ds with
      | nil =>
          have hhead := congrArg List.head? h
          rw [List.flatMap_cons, List.append_assoc] at hhead
          exact absurd hhead (escapeChar_head c _)
      | cons d ds =>
          rw [List.flatMap_cons, List.flatMap_cons, List.append_assoc, List.append_assoc] at h
          have hfirst := congrArg unescape h
          rw [unescape_escapeChar, unescape_escapeChar, Option.some.injEq, Prod.mk.injEq] at hfirst
          obtain ⟨rfl, hbehind⟩ := hfirst
          obtain ⟨rfl, hrest⟩ := ih hbehind
          exact ⟨rfl, hrest⟩

theorem toList_quote (s : String) :
    (quote s).toList = '"' :: (s.toList.flatMap escapeChar ++ ['"']) := by
  simp [quote]

/-- A printed string can be told from what follows it. -/
theorem quote_append_inj
    {s t : String} {rest rest' : List Char}
    (h : (quote s).toList ++ rest = (quote t).toList ++ rest') :
    s = t ∧ rest = rest' := by
  rw [toList_quote, toList_quote] at h
  simp only [List.cons_append, List.append_assoc, List.nil_append, List.cons.injEq, true_and] at h
  obtain ⟨hsame, hrest⟩ := escaped_inj h
  exact ⟨String.toList_inj.mp hsame, hrest⟩

theorem hexDigit_ne_newline {n : Nat} (h : n < 16) : hexDigit n ≠ '\n' := by
  interval_cases n <;> decide

/-- A line break is escaped. -/
theorem newline_not_mem_escapeChar (c : Char) : '\n' ∉ escapeChar c := by
  unfold escapeChar
  split
  · decide
  split
  · decide
  split
  · decide
  split
  · decide
  split
  · decide
  split
  · decide
  split
  · decide
  split
  · next hlow =>
      have hhigh := hexDigit_ne_newline (show c.toNat / 16 < 16 by omega)
      have hrest := hexDigit_ne_newline (show c.toNat % 16 < 16 by omega)
      simp [hhigh.symm, hrest.symm]
  · next hcontrol =>
      intro hmem
      rw [List.mem_singleton] at hmem
      rw [← hmem] at hcontrol
      exact hcontrol (by decide)

theorem newline_not_mem_quote (s : String) : '\n' ∉ (quote s).toList := by
  rw [toList_quote]
  intro hmem
  rcases List.mem_cons.mp hmem with hquote | hmem
  · cases hquote
  · rcases List.mem_append.mp hmem with hmem | hquote
    · obtain ⟨c, -, hc⟩ := List.mem_flatMap.mp hmem
      exact newline_not_mem_escapeChar c hc
    · rw [List.mem_singleton] at hquote
      cases hquote

/-! ## Numbers -/

def isNumberChar (c : Char) : Bool :=
  c.isDigit || c == '-' || c == '+' || c == '.' || c == 'e'

/-- The text of a finite number. -/
def isFiniteText (text : String) : Bool :=
  match text.toList with
  | [] => false
  | c :: rest => (c.isDigit || c == '-') && rest.all isNumberChar

mutual

/-- Every number in the value is finite. -/
def isFinite : Json → Bool
  | num text => isFiniteText text
  | arr items => itemsFinite items
  | obj entries => entriesFinite entries
  | _ => true

def itemsFinite : List Json → Bool
  | [] => true
  | item :: rest => isFinite item && itemsFinite rest

def entriesFinite : List (String × Json) → Bool
  | [] => true
  | (_, value) :: rest => isFinite value && entriesFinite rest

end

theorem isFinite_of_mem_items
    {items : List Json} {item : Json}
    (h : itemsFinite items = true)
    (hitem : item ∈ items) :
    item.isFinite = true := by
  induction items with
  | nil => cases hitem
  | cons first rest ih =>
      rw [itemsFinite, Bool.and_eq_true] at h
      rcases List.mem_cons.mp hitem with rfl | hmem
      · exact h.1
      · exact ih h.2 hmem

theorem isFinite_of_mem_entries
    {entries : List (String × Json)} {entry : String × Json}
    (h : entriesFinite entries = true)
    (hentry : entry ∈ entries) :
    entry.2.isFinite = true := by
  induction entries with
  | nil => cases hentry
  | cons first rest ih =>
      rw [entriesFinite, Bool.and_eq_true] at h
      rcases List.mem_cons.mp hentry with rfl | hmem
      · exact h.1
      · exact ih h.2 hmem

/-! ## Values up to the order of keys -/

mutual

inductive SameUpToKeyOrder : Json → Json → Prop
  | null : SameUpToKeyOrder null null
  | bool (b : Bool) : SameUpToKeyOrder (bool b) (bool b)
  | num (text : String) : SameUpToKeyOrder (num text) (num text)
  | str (s : String) : SameUpToKeyOrder (str s) (str s)
  | arr {items items' : List Json}
      (hitems : List.Forall₂ SameUpToKeyOrder items items') :
      SameUpToKeyOrder (arr items) (arr items')
  | obj {entries matched matched' entries' : List (String × Json)}
      (horder : entries.Perm matched)
      (hentries : List.Forall₂ SameEntry matched matched')
      (horder' : matched'.Perm entries') :
      SameUpToKeyOrder (obj entries) (obj entries')

/-- The same name with the same value up to the order of keys. -/
inductive SameEntry : String × Json → String × Json → Prop
  | mk (name : String) {value value' : Json}
      (hvalue : SameUpToKeyOrder value value') :
      SameEntry (name, value) (name, value')

end

/-- Every value is itself up to the order of keys. -/
theorem SameUpToKeyOrder.refl (value : Json) : SameUpToKeyOrder value value := by
  induction value using Json.induction with
  | null => exact .null
  | bool b => exact .bool b
  | num text => exact .num text
  | str s => exact .str s
  | arr items ih => exact .arr (List.forall₂_same.mpr ih)
  | obj entries ih =>
      refine .obj (List.Perm.refl entries) (List.forall₂_same.mpr ?_) (List.Perm.refl entries)
      intro entry hentry
      exact .mk entry.1 (ih entry hentry)

/-! ## Values inside a value -/

/-- The first value is the second one, or is nested in it. -/
inductive Within (inner : Json) : Json → Prop
  | self : Within inner inner
  | item {items : List Json} {item : Json}
      (hmem : item ∈ items)
      (hwithin : Within inner item) :
      Within inner (arr items)
  | entry {entries : List (String × Json)} {entry : String × Json}
      (hmem : entry ∈ entries)
      (hwithin : Within inner entry.2) :
      Within inner (obj entries)

/-- Keys are different in each object, and numbers are what `JSON.stringify` prints. -/
structure WellFormed (value : Json) : Prop where
  keys : ∀ entries, Within (obj entries) value → (entries.map Prod.fst).Nodup
  numbers : ∀ text, Within (num text) value → isFiniteText text = true ∨ text = "null"

theorem WellFormed.items {items : List Json} (h : WellFormed (arr items)) :
    ∀ item ∈ items, WellFormed item := by
  intro item hitem
  exact ⟨fun entries hwithin => h.keys entries (.item hitem hwithin),
    fun text hwithin => h.numbers text (.item hitem hwithin)⟩

theorem WellFormed.entries {entries : List (String × Json)} (h : WellFormed (obj entries)) :
    ∀ entry ∈ entries, WellFormed entry.2 := by
  intro entry hentry
  exact ⟨fun others hwithin => h.keys others (.entry hentry hwithin),
    fun text hwithin => h.numbers text (.entry hentry hwithin)⟩

theorem wellFormed_arr {items : List Json} (h : ∀ item ∈ items, WellFormed item) :
    WellFormed (arr items) := by
  constructor
  · intro entries hwithin
    cases hwithin with
    | item hmem hinner => exact (h _ hmem).keys entries hinner
  · intro text hwithin
    cases hwithin with
    | item hmem hinner => exact (h _ hmem).numbers text hinner

theorem wellFormed_obj
    {entries : List (String × Json)}
    (hkeys : (entries.map Prod.fst).Nodup)
    (h : ∀ entry ∈ entries, WellFormed entry.2) :
    WellFormed (obj entries) := by
  constructor
  · intro others hwithin
    cases hwithin with
    | self => exact hkeys
    | entry hmem hinner => exact (h _ hmem).keys others hinner
  · intro text hwithin
    cases hwithin with
    | entry hmem hinner => exact (h _ hmem).numbers text hinner

end Json
end Lib
end NestBase
