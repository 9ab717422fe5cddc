import Mathlib.Data.List.Infix

/-!
# Text tests of the script runtime

`startsWith`, `endsWith`, `includes` and `slice(0, -1)` on strings, through
their lists of characters.
-/

namespace NestBase
namespace Lib
namespace Text

def startsWith (s part : String) : Bool :=
  part.toList.isPrefixOf s.toList

def endsWith (s part : String) : Bool :=
  part.toList.isSuffixOf s.toList

def includes (s part : String) : Bool :=
  s.toList.tails.any fun rest => part.toList.isPrefixOf rest

/-- `s.slice(0, -1)` -/
def dropLast (s : String) : String :=
  String.ofList s.toList.dropLast

/-- The white space of `trim` and of `\s`. -/
def isWhiteSpace (c : Char) : Bool :=
  decide (9 ≤ c.toNat ∧ c.toNat ≤ 13) || c == ' ' || decide (c.toNat = 0xA0) ||
    decide (c.toNat = 0x1680) || decide (0x2000 ≤ c.toNat ∧ c.toNat ≤ 0x200A) ||
    decide (c.toNat = 0x2028) || decide (c.toNat = 0x2029) || decide (c.toNat = 0x202F) ||
    decide (c.toNat = 0x205F) || decide (c.toNat = 0x3000) || decide (c.toNat = 0xFEFF)

/-- `s.trim()` -/
def trim (s : String) : String :=
  String.ofList ((s.toList.dropWhile isWhiteSpace).reverse.dropWhile isWhiteSpace).reverse

/-- `s.toLowerCase()` on ASCII text. -/
def asciiLowerCase (s : String) : String :=
  String.ofList (s.toList.map Char.toLower)

/-- Everything before the first of the given characters. -/
def before (stops : List Char) (s : String) : String :=
  String.ofList (s.toList.takeWhile fun c => !stops.contains c)

/-- A string is falsy when it is absent or empty. -/
def truthy (s : Option String) : Option String :=
  s.filter fun value => value ≠ ""

variable {c : Char}

theorem not_isWhiteSpace_of_visible (hlow : 33 ≤ c.toNat) (hhigh : c.toNat ≤ 126) :
    isWhiteSpace c = false := by
  have hspace : c ≠ ' ' := by
    rintro rfl
    exact absurd hlow (by decide)
  simp [isWhiteSpace, hspace]
  omega

theorem range_of_isAlphanum (h : c.isAlphanum = true) :
    (65 ≤ c.toNat ∧ c.toNat ≤ 90) ∨ (97 ≤ c.toNat ∧ c.toNat ≤ 122) ∨
      (48 ≤ c.toNat ∧ c.toNat ≤ 57) := by
  change (decide (65 ≤ c.val ∧ c.val ≤ 90) || (decide (97 ≤ c.val) && decide (c.val ≤ 122)) ||
    (decide (48 ≤ c.val) && decide (c.val ≤ 57))) = true at h
  simp only [Bool.or_eq_true, Bool.and_eq_true, decide_eq_true_eq, UInt32.le_iff_toNat_le] at h
  exact or_assoc.mp h

theorem startsWith_append (s t : String) : startsWith (s ++ t) s = true := by
  have hprefix : s.toList <+: (s ++ t).toList := by
    rw [String.toList_append]
    exact List.prefix_append _ _
  exact List.isPrefixOf_iff_prefix.mpr hprefix

@[simp] theorem includes_self (s : String) : includes s s = true := by
  unfold includes
  rw [List.any_eq_true]
  refine ⟨s.toList, (List.mem_tails _ _).mpr List.suffix_rfl, ?_⟩
  exact List.isPrefixOf_iff_prefix.mpr List.prefix_rfl

variable {α : Type}

/-- The parts of a list are made of its elements, without those it is split on. -/
theorem mem_of_mem_splitOnP_part {p : α → Bool} {l part : List α} (hpart : part ∈ l.splitOnP p) :
    ∀ a ∈ part, a ∈ l ∧ p a = false := by
  induction l generalizing part with
  | nil =>
      rw [List.splitOnP_nil, List.mem_singleton] at hpart
      simp [hpart]
  | cons x rest ih =>
      have htail : ∀ part ∈ rest.splitOnP p, ∀ a ∈ part, a ∈ x :: rest ∧ p a = false :=
        fun part hrest a ha => ⟨List.mem_cons_of_mem _ (ih hrest a ha).1, (ih hrest a ha).2⟩
      rw [List.splitOnP_cons_eq_if_modifyHead] at hpart
      obtain ⟨first, others, hparts⟩ := List.exists_cons_of_ne_nil (List.splitOnP_ne_nil p rest)
      rw [hparts] at htail hpart
      split at hpart
      · rcases List.mem_cons.mp hpart with rfl | hrest
        · simp
        · exact htail part hrest
      · next hx =>
          rw [List.modifyHead_cons] at hpart
          rcases List.mem_cons.mp hpart with rfl | hothers
          · rw [List.forall_mem_cons]
            exact ⟨⟨List.mem_cons_self, by simpa using hx⟩, htail first List.mem_cons_self⟩
          · exact htail part (List.mem_cons_of_mem _ hothers)

theorem false_of_mem_splitOnP {p : α → Bool} {l part : List α} (hpart : part ∈ l.splitOnP p) :
    ∀ a ∈ part, p a = false :=
  fun a ha => (mem_of_mem_splitOnP_part hpart a ha).2

theorem mem_of_mem_splitOnP
    {p : α → Bool} {a : α} {l part : List α}
    (hpart : part ∈ l.splitOnP p)
    (ha : a ∈ part) :
    a ∈ l :=
  (mem_of_mem_splitOnP_part hpart a ha).1

theorem not_mem_of_mem_splitOn
    {α : Type} [DecidableEq α]
    {sep : α} {l part : List α}
    (hpart : part ∈ l.splitOn sep) :
    sep ∉ part := by
  intro hmem
  rw [List.splitOn_eq_splitOnP] at hpart
  simpa using false_of_mem_splitOnP hpart sep hmem

theorem mem_of_mem_splitOn
    {α : Type} [DecidableEq α]
    {sep a : α} {l part : List α}
    (hpart : part ∈ l.splitOn sep)
    (ha : a ∈ part) :
    a ∈ l := by
  rw [List.splitOn_eq_splitOnP] at hpart
  exact mem_of_mem_splitOnP hpart ha

theorem splitOn_append_of_not_mem
    {α : Type} [DecidableEq α]
    {sep : α} {l : List α}
    (h : sep ∉ l)
    (rest : List α) :
    (l ++ rest).splitOn sep = (rest.splitOn sep).modifyHead (l ++ ·) := by
  induction l with
  | nil =>
      cases hparts : rest.splitOn sep <;> simp [hparts]
  | cons x l ih =>
      rw [List.mem_cons, not_or] at h
      have hx : ¬ (x == sep) = true := by simpa using Ne.symm h.1
      rw [List.cons_append, List.splitOn_cons_eq_if_modifyHead, ih h.2, if_neg hx,
        List.modifyHead_modifyHead]
      rfl

/-- Joined parts are made of the separator and the parts. -/
theorem forall_mem_intercalate
    {P : α → Prop} {sep : List α} {parts : List (List α)}
    (hsep : ∀ a ∈ sep, P a)
    (hparts : ∀ part ∈ parts, ∀ a ∈ part, P a) :
    ∀ a ∈ sep.intercalate parts, P a := by
  induction parts with
  | nil =>
      intro a ha
      cases ha
  | cons part rest ih =>
      have hfirst := hparts part List.mem_cons_self
      have hrest := ih fun other hother => hparts other (List.mem_cons_of_mem _ hother)
      cases rest with
      | nil =>
          rw [List.intercalate_singleton]
          exact hfirst
      | cons next rest =>
          rw [List.intercalate_cons_cons, List.forall_mem_append, List.forall_mem_append]
          exact ⟨⟨hfirst, hsep⟩, hrest⟩

/-- What precedes the first separator and what follows it are determined. -/
theorem append_cons_inj
    {sep : α} {front back front' back' : List α}
    (hfront : sep ∉ front)
    (hfront' : sep ∉ front')
    (h : front ++ sep :: back = front' ++ sep :: back') :
    front = front' ∧ back = back' := by
  induction front generalizing front' with
  | nil =>
      cases front' with
      | nil => exact ⟨rfl, (List.cons.inj h).2⟩
      | cons y front' =>
          rw [List.nil_append, List.cons_append] at h
          exact absurd (List.mem_cons.mpr (Or.inl (List.cons.inj h).1)) hfront'
  | cons x front ih =>
      cases front' with
      | nil =>
          rw [List.nil_append, List.cons_append] at h
          exact absurd (List.mem_cons.mpr (Or.inl (List.cons.inj h).1.symm)) hfront
      | cons y front' =>
          rw [List.cons_append, List.cons_append] at h
          obtain ⟨rfl, hrest⟩ := List.cons.inj h
          obtain ⟨rfl, hback⟩ :=
            ih (List.not_mem_of_not_mem_cons hfront) (List.not_mem_of_not_mem_cons hfront') hrest
          exact ⟨rfl, hback⟩

/-- What follows the last separator and what precedes it are determined. -/
theorem append_cons_inj_last
    {sep : α} {front back front' back' : List α}
    (hback : sep ∉ back)
    (hback' : sep ∉ back')
    (h : front ++ sep :: back = front' ++ sep :: back') :
    front = front' ∧ back = back' := by
  have hreverse := congrArg List.reverse h
  simp only [List.reverse_append, List.reverse_cons, List.append_assoc, List.cons_append,
    List.nil_append] at hreverse
  obtain ⟨hlast, hfirst⟩ :=
    append_cons_inj (fun hmem => hback (List.mem_reverse.mp hmem))
      (fun hmem => hback' (List.mem_reverse.mp hmem)) hreverse
  exact ⟨List.reverse_injective hfirst, List.reverse_injective hlast⟩

/-- What precedes the first separator of a list, read off the list. -/
theorem takeWhile_ne_eq_iff
    {α : Type} [DecidableEq α]
    {sep : α} {front l : List α}
    (hfront : sep ∉ front) :
    (l.takeWhile fun x => x ≠ sep) = front ↔ l = front ∨ front ++ [sep] <+: l := by
  induction l generalizing front with
  | nil =>
      rw [List.takeWhile_nil, List.prefix_nil]
      simp
  | cons x l ih =>
      cases front with
      | nil =>
          by_cases hx : x = sep
          · simp [hx]
          · simp [hx, Ne.symm hx]
      | cons y front =>
          have hy : sep ≠ y := fun h => hfront (List.mem_cons.mpr (Or.inl h))
          by_cases hx : x = sep
          · simp [hx, hy, Ne.symm hy]
          · have hrest := ih (List.not_mem_of_not_mem_cons hfront)
            rw [List.takeWhile_cons_of_pos (by simpa using hx), List.cons_append,
              List.cons_prefix_cons, List.cons.injEq, List.cons.injEq, hrest, eq_comm (a := y),
              and_or_left]

theorem truthy_eq_some_iff {s : Option String} {value : String} :
    truthy s = some value ↔ s = some value ∧ value ≠ "" := by
  simp [truthy, Option.filter_eq_some_iff]

/-! ## Decimal numbers -/

theorem toList_toString (n : Nat) : (toString n).toList = Nat.toDigits 10 n := by
  rw [Nat.toString_eq_repr, Nat.toList_repr]

variable {n : Nat}

theorem isDigit_of_mem_toString (h : c ∈ (toString n).toList) :
    c.isDigit = true := by
  rw [toList_toString] at h
  exact Nat.isDigit_of_mem_toDigits (by omega) (by omega) h

theorem toString_ne_nil (n : Nat) : (toString n).toList ≠ [] := by
  rw [toList_toString]
  exact Nat.toDigits_ne_nil

theorem ofDigitChars_toString (n : Nat) : Nat.ofDigitChars 10 (toString n).toList 0 = n := by
  rw [toList_toString, Nat.ofDigitChars_ten_toDigits]

theorem toString_inj {n' : Nat} (h : (toString n).toList = (toString n').toList) : n = n' := by
  have hvalue := congrArg (fun digits => Nat.ofDigitChars 10 digits 0) h
  simpa only [ofDigitChars_toString] using hvalue

/-- Only 0 is printed with a first zero. -/
theorem head?_toString_ne_zero (h : n ≠ 0) : (toString n).toList.head? ≠ some '0' := by
  rw [toList_toString]
  induction n using Nat.strongRecOn with
  | ind n ih =>
      by_cases hsmall : n < 10
      · have hdigit : ∀ m < 10, m ≠ 0 → [Nat.digitChar m].head? ≠ some '0' := by decide
        rw [Nat.toDigits_of_lt_base hsmall]
        exact hdigit n hsmall h
      · have hquotient : n / 10 ≠ 0 := by omega
        rw [Nat.toDigits_of_base_le (by omega) (by omega),
          List.head?_append_of_ne_nil _ Nat.toDigits_ne_nil]
        exact ih (n / 10) (by omega) hquotient

theorem toNat_of_isDigit (h : c.isDigit = true) : 48 ≤ c.toNat ∧ c.toNat ≤ 57 := by
  simpa [Char.isDigit, UInt32.le_iff_toNat_le] using h

theorem digitChar_toNat_sub (h : c.isDigit = true) :
    Nat.digitChar (c.toNat - 48) = c := by
  have hrange := toNat_of_isDigit h
  have hvalue : (Nat.digitChar (c.toNat - 48)).toNat = c.toNat := by
    rw [Nat.toNat_digitChar_of_lt_ten (by omega)]
    omega
  exact Char.toNat_inj.mp hvalue

/-- Digits without a first zero are the form of their value. -/
theorem toDigits_ofDigitChars
    {digits : List Char}
    (h : digits.all Char.isDigit = true)
    (hne : digits ≠ [])
    (hhead : digits.head? ≠ some '0') :
    Nat.toDigits 10 (Nat.ofDigitChars 10 digits 0) = digits := by
  induction digits using List.reverseRecOn with
  | nil => exact absurd rfl hne
  | append_singleton digits c ih =>
      rw [List.all_append, Bool.and_eq_true, List.all_cons, List.all_nil, Bool.and_true] at h
      have hc := digitChar_toNat_sub h.2
      have hrange := toNat_of_isDigit h.2
      have hdigit : c.toNat - 48 < 10 := by omega
      rw [Nat.ofDigitChars_append, Nat.ofDigitChars_cons, Nat.ofDigitChars_nil]
      change Nat.toDigits 10 (10 * _ + (c.toNat - 48)) = _
      by_cases hnil : digits = []
      · rw [hnil, Nat.ofDigitChars_nil, Nat.mul_zero, Nat.zero_add, Nat.toDigits_of_lt_base hdigit,
          hc, List.nil_append]
      · have hfront := ih h.1 hnil (by rwa [List.head?_append_of_ne_nil _ hnil] at hhead)
        -- A front of value 0 would be a first zero.
        have hpos : 0 < Nat.ofDigitChars 10 digits 0 := by
          refine Nat.pos_of_ne_zero fun hzero => hhead ?_
          rw [List.head?_append_of_ne_nil _ hnil, ← hfront, hzero]
          rfl
        rw [← Nat.toDigits_append_toDigits (by omega) hpos hdigit, hfront,
          Nat.toDigits_of_lt_base hdigit, hc]

/-- An integer in decimal. -/
def ofInt : Int → String
  | .ofNat n => toString n
  | .negSucc n => "-" ++ toString (n + 1)

/-- The integer a text is in decimal. -/
def toInt? (s : String) : Option Int :=
  match s.toList with
  | [] => none
  | '-' :: digits =>
      if digits ≠ [] ∧ digits.all Char.isDigit then some (-(Nat.ofDigitChars 10 digits 0 : Nat))
      else none
  | digits =>
      if digits.all Char.isDigit then some (Nat.ofDigitChars 10 digits 0 : Nat) else none

theorem all_isDigit_toString (n : Nat) : (toString n).toList.all Char.isDigit = true :=
  List.all_eq_true.mpr fun _ => isDigit_of_mem_toString

end Text
end Lib
end NestBase
