import NestBase.Core.IdempotencyService
import NestBase.Lib.JsonText
import NestBase.Lib.Text

/-!
# The fingerprint of a request

`computeRequestHash` hashes the method, the path and the printed body, joined
by line breaks.  Printed values with finite numbers can be told from what
follows them, so the text determines the body up to the order of its keys.
The printed body has no line break, and so the text also determines the
method and the path, as long as the method has no line break.

`JSON.parse` reads a number too large as `Infinity`, which prints as `null`:
a request with such a number has the fingerprint of another one.
-/

namespace NestBase
namespace Idempotency

open Lib

section Fingerprint

variable {localeCompare : String → String → Ordering}

/-! ## What is printed -/

/-- The characters of a printed value. -/
def printed (localeCompare : String → String → Ordering) (value : Json) : List Char :=
  (stableStringify localeCompare value).toList

def printedEntry (localeCompare : String → String → Ordering) (entry : String × Json) :
    List Char :=
  (Json.quote entry.1).toList ++ ':' :: printed localeCompare entry.2

theorem stringifyItems_eq_map (items : List Json) :
    stringifyItems localeCompare items = items.map (stableStringify localeCompare) := by
  induction items with
  | nil => rfl
  | cons item rest ih => rw [stringifyItems, ih, List.map_cons]

theorem stringifyEntries_eq_map (entries : List (String × Json)) :
    stringifyEntries localeCompare entries =
      entries.map fun entry => (entry.1, stableStringify localeCompare entry.2) := by
  induction entries with
  | nil => rfl
  | cons entry rest ih => rw [stringifyEntries, ih, List.map_cons]

theorem printed_arr (items : List Json) :
    printed localeCompare (.arr items) =
      '[' :: ([','].intercalate (items.map (printed localeCompare)) ++ [']']) := by
  unfold printed
  rw [stableStringify, stringifyItems_eq_map]
  simp only [String.toList_append, String.toList_intercalate, List.map_map]
  rfl

variable {α : Type}

/-- A permutation of printed values prints a permutation of the values. -/
theorem exists_perm_of_perm_map
    {β : Type} {f : α → β} {l : List α} {l' : List β}
    (h : l'.Perm (l.map f)) :
    ∃ sorted, l.Perm sorted ∧ l' = sorted.map f := by
  have hpairs : List.Forall₂ (fun b a => b = f a) (l.map f) l := by
    rw [List.forall₂_map_left_iff]
    exact List.forall₂_same.mpr fun _ _ => rfl
  obtain ⟨sorted, hsorted, hperm⟩ := List.perm_comp_forall₂ h hpairs
  refine ⟨sorted, hperm.symm, ?_⟩
  rwa [← List.forall₂_map_right_iff, List.forall₂_eq_eq_eq] at hsorted

/-- The entries are printed in some order. -/
theorem exists_printed_obj
    (localeCompare : String → String → Ordering)
    (entries : List (String × Json)) :
    ∃ sorted, entries.Perm sorted ∧
      printed localeCompare (.obj entries) =
        '\x7b' ::
          ([','].intercalate (sorted.map (printedEntry localeCompare)) ++ ['\x7d']) := by
  let pairs := entries.map fun entry => (entry.1, stableStringify localeCompare entry.2)
  obtain ⟨sorted, hperm, hsorted⟩ :=
    exists_perm_of_perm_map
      (List.mergeSort_perm pairs fun a b => localeCompare a.1 b.1 != .gt)
  refine ⟨sorted, hperm, ?_⟩
  unfold printed
  rw [stableStringify, stringifyEntries_eq_map, hsorted]
  simp only [String.toList_append, String.toList_intercalate, List.map_map]
  have hentry :
      String.toList ∘
          (fun entry : String × String => Json.quote entry.1 ++ ":" ++ entry.2) ∘
            (fun entry => (entry.1, stableStringify localeCompare entry.2)) =
        printedEntry localeCompare := by
    funext entry
    simp [printedEntry, printed]
  rw [hentry]
  rfl

/-! ## Where a printed value ends -/

/-- Nothing follows, or something that separates values. -/
def Delimited : List Char → Prop
  | [] => True
  | c :: _ => c = ',' ∨ c = ']' ∨ c = '\x7d'

/-- What the first character of a printed value tells about it. -/
def headKind (c : Char) : Nat :=
  if c = 'n' then 0
  else if c = 't' then 1
  else if c = 'f' then 2
  else if c = '"' then 3
  else if c = '[' then 4
  else if c = '\x7b' then 5
  else if c.isDigit || c == '-' then 6
  else 7

def kind : Json → Nat
  | .null => 0
  | .bool true => 1
  | .bool false => 2
  | .str _ => 3
  | .arr _ => 4
  | .obj _ => 5
  | .num _ => 6

theorem headKind_of_number {c : Char} (h : (c.isDigit || c == '-') = true) : headKind c = 6 := by
  have hother : ∀ d : Char, (d.isDigit || d == '-') = false → c ≠ d := by
    rintro d hd rfl
    rw [h] at hd
    cases hd
  unfold headKind
  rw [if_neg (hother _ (by decide)), if_neg (hother _ (by decide)), if_neg (hother _ (by decide)),
    if_neg (hother _ (by decide)), if_neg (hother _ (by decide)), if_neg (hother _ (by decide)),
    if_pos h]

theorem exists_printed_head
    (localeCompare : String → String → Ordering)
    (value : Json)
    (hfinite : value.isFinite = true) :
    ∃ c rest, printed localeCompare value = c :: rest ∧ headKind c = kind value := by
  cases value with
  | null => exact ⟨'n', ['u', 'l', 'l'], by simp [printed, stableStringify], rfl⟩
  | bool b =>
      cases b with
      | true => exact ⟨'t', ['r', 'u', 'e'], by simp [printed, stableStringify], rfl⟩
      | false => exact ⟨'f', ['a', 'l', 's', 'e'], by simp [printed, stableStringify], rfl⟩
  | num text =>
      rw [Json.isFinite, Json.isFiniteText] at hfinite
      split at hfinite
      · cases hfinite
      · next c rest htext =>
          rw [Bool.and_eq_true] at hfinite
          refine ⟨c, rest, ?_, headKind_of_number hfinite.1⟩
          simp [printed, stableStringify, htext]
  | str s =>
      refine ⟨'"', s.toList.flatMap Json.escapeChar ++ ['"'], ?_, rfl⟩
      simp only [printed, stableStringify, Json.toList_quote]
  | arr items => exact ⟨'[', _, printed_arr items, rfl⟩
  | obj entries =>
      obtain ⟨sorted, -, hprinted⟩ := exists_printed_obj localeCompare entries
      exact ⟨'\x7b', _, hprinted, rfl⟩

theorem exists_printedEntry_head (entry : String × Json) :
    ∃ c rest, printedEntry localeCompare entry = c :: rest ∧ headKind c ≤ 6 := by
  rw [printedEntry, Json.toList_quote, List.cons_append]
  exact ⟨'"', _, rfl, by decide⟩

theorem isNumberChar_of_mem
    {text : String} {c : Char}
    (hfinite : Json.isFiniteText text = true)
    (hc : c ∈ text.toList) :
    Json.isNumberChar c = true := by
  unfold Json.isFiniteText at hfinite
  split at hfinite
  · cases hfinite
  · next first rest htext =>
      rw [Bool.and_eq_true, List.all_eq_true] at hfinite
      rw [htext] at hc
      rcases List.mem_cons.mp hc with rfl | hmem
      · have hfirst := hfinite.1
        rw [Bool.or_eq_true] at hfirst
        rcases hfirst with hdigit | hminus
        · simp [Json.isNumberChar, hdigit]
        · simp [Json.isNumberChar, hminus]
      · exact hfinite.2 c hmem

variable {rest rest' : List Char}

/-- A finite number ends at the first character that no number has. -/
theorem number_append_inj
    {text text' : String}
    (hfinite : Json.isFiniteText text = true)
    (hfinite' : Json.isFiniteText text' = true)
    (hrest : Delimited rest)
    (hrest' : Delimited rest')
    (h : text.toList ++ rest = text'.toList ++ rest') :
    text = text' ∧ rest = rest' := by
  have htake : ∀ {t : String} {r : List Char}, Json.isFiniteText t = true → Delimited r →
      (t.toList ++ r).takeWhile Json.isNumberChar = t.toList := by
    intro t r ht hr
    rw [List.takeWhile_append_of_pos fun c hc => isNumberChar_of_mem ht hc]
    have hnone : r.takeWhile Json.isNumberChar = [] := by
      cases r with
      | nil => rfl
      | cons c r =>
          have hc : Json.isNumberChar c = false := by
            rcases hr with rfl | rfl | rfl <;> decide
          rw [List.takeWhile_cons, hc]
          rfl
    rw [hnone, List.append_nil]
  have hsame : text.toList = text'.toList := by
    rw [← htake hfinite hrest, h, htake hfinite' hrest']
  refine ⟨String.toList_inj.mp hsame, ?_⟩
  rw [hsame] at h
  exact List.append_cancel_left h

/-- What a printed element and the text behind it determine. -/
def Determines {α : Type} (print : α → List Char) (Same : α → α → Prop) (a b : α) : Prop :=
  ∀ rest rest', Delimited rest → Delimited rest' → print a ++ rest = print b ++ rest' →
    Same a b ∧ rest = rest'

theorem intercalate_cons (x : List Char) (xs : List (List Char)) :
    [','].intercalate (x :: xs) = x ++ xs.flatMap fun y => ',' :: y := by
  induction xs generalizing x with
  | nil => simp
  | cons y ys ih =>
      rw [List.intercalate_cons_cons, ih y]
      simp

theorem delimited_tail
    {print : α → List Char} {close : Char}
    (hclose : close = ']' ∨ close = '\x7d')
    (xs : List α)
    (rest : List Char) :
    Delimited ((xs.map print).flatMap (fun y => ',' :: y) ++ close :: rest) := by
  cases xs with
  | nil => exact Or.inr hclose
  | cons x xs => exact Or.inl rfl

/-- The elements behind the first one, each after its comma. -/
theorem tail_append_inj
    {print : α → List Char} {Same : α → α → Prop} {close : Char}
    (hclose : close = ']' ∨ close = '\x7d')
    {xs ys : List α}
    (hdetermines : ∀ x ∈ xs, ∀ y ∈ ys, Determines print Same x y)
    (h :
      (xs.map print).flatMap (fun y => ',' :: y) ++ close :: rest =
        (ys.map print).flatMap (fun y => ',' :: y) ++ close :: rest') :
    List.Forall₂ Same xs ys ∧ rest = rest' := by
  have hcomma : close ≠ ',' := by
    rcases hclose with rfl | rfl <;> decide
  induction xs generalizing ys with
  | nil =>
      cases ys with
      | nil => exact ⟨.nil, by simpa using h⟩
      | cons y ys =>
          simp only [List.map_nil, List.flatMap_nil, List.nil_append, List.map_cons,
            List.flatMap_cons, List.cons_append, List.cons.injEq] at h
          exact absurd h.1 hcomma
  | cons x xs ih =>
      cases ys with
      | nil =>
          simp only [List.map_nil, List.flatMap_nil, List.nil_append, List.map_cons,
            List.flatMap_cons, List.cons_append, List.cons.injEq] at h
          exact absurd h.1.symm hcomma
      | cons y ys =>
          simp only [List.map_cons, List.flatMap_cons, List.cons_append, List.append_assoc,
            List.cons.injEq, true_and] at h
          obtain ⟨hsame, htail⟩ :=
            hdetermines x List.mem_cons_self y List.mem_cons_self _ _
              (delimited_tail hclose xs rest) (delimited_tail hclose ys rest') h
          obtain ⟨hothers, hrest⟩ :=
            ih (fun x hx y hy =>
              hdetermines x (List.mem_cons_of_mem _ hx) y (List.mem_cons_of_mem _ hy)) htail
          exact ⟨.cons hsame hothers, hrest⟩

/-- A list of printed elements ends at its bracket. -/
theorem joined_append_inj
    {print : α → List Char} {Same : α → α → Prop} {close : Char}
    (hclose : close = ']' ∨ close = '\x7d')
    {xs ys : List α}
    (hheads : ∀ z ∈ xs ++ ys, ∃ c rest, print z = c :: rest ∧ headKind c ≤ 6)
    (hdetermines : ∀ x ∈ xs, ∀ y ∈ ys, Determines print Same x y)
    (h :
      [','].intercalate (xs.map print) ++ close :: rest =
        [','].intercalate (ys.map print) ++ close :: rest') :
    List.Forall₂ Same xs ys ∧ rest = rest' := by
  have hopen : ∀ z ∈ xs ++ ys, ∀ front back, print z ++ front ≠ close :: back := by
    intro z hz front back hsame
    obtain ⟨c, others, hprint, hkind⟩ := hheads z hz
    rw [hprint, List.cons_append, List.cons.injEq] at hsame
    rw [hsame.1] at hkind
    rcases hclose with rfl | rfl <;> exact absurd hkind (by decide)
  cases xs with
  | nil =>
      cases ys with
      | nil => exact ⟨.nil, by simpa using h⟩
      | cons y ys =>
          rw [List.map_cons, intercalate_cons, List.append_assoc] at h
          exact absurd h.symm (hopen y (by simp) _ _)
  | cons x xs =>
      cases ys with
      | nil =>
          rw [List.map_cons, intercalate_cons, List.append_assoc] at h
          exact absurd h (hopen x (by simp) _ _)
      | cons y ys =>
          rw [List.map_cons, List.map_cons, intercalate_cons, intercalate_cons, List.append_assoc,
            List.append_assoc] at h
          obtain ⟨hsame, htail⟩ :=
            hdetermines x List.mem_cons_self y List.mem_cons_self _ _
              (delimited_tail hclose xs rest) (delimited_tail hclose ys rest') h
          obtain ⟨hothers, hrest⟩ :=
            tail_append_inj hclose
              (fun x hx y hy =>
                hdetermines x (List.mem_cons_of_mem _ hx) y (List.mem_cons_of_mem _ hy)) htail
          exact ⟨.cons hsame hothers, hrest⟩

/-- Values that print alike begin alike. -/
theorem kind_eq_of_printed
    {value value' : Json}
    (hfinite : value.isFinite = true)
    (hfinite' : value'.isFinite = true)
    (h : printed localeCompare value ++ rest = printed localeCompare value' ++ rest') :
    kind value = kind value' := by
  obtain ⟨c, others, hprint, hkind⟩ := exists_printed_head localeCompare value hfinite
  obtain ⟨c', others', hprint', hkind'⟩ := exists_printed_head localeCompare value' hfinite'
  rw [hprint, hprint', List.cons_append, List.cons_append, List.cons.injEq] at h
  rw [← hkind, ← hkind', h.1]

theorem kind_le (value : Json) : kind value ≤ 6 := by
  cases value with
  | bool b => cases b <;> decide
  | _ => simp [kind]

theorem determines_printedEntry
    {entry entry' : String × Json}
    (h : Determines (printed localeCompare) Json.SameUpToKeyOrder entry.2 entry'.2) :
    Determines (printedEntry localeCompare) Json.SameEntry entry entry' := by
  obtain ⟨name, value⟩ := entry
  obtain ⟨name', value'⟩ := entry'
  intro rest rest' hrest hrest' hsame
  simp only [printedEntry, List.append_assoc, List.cons_append] at hsame
  obtain ⟨rfl, hbehind⟩ := Json.quote_append_inj hsame
  rw [List.cons.injEq] at hbehind
  obtain ⟨hvalue, hrests⟩ := h rest rest' hrest hrest' hbehind.2
  exact ⟨.mk name hvalue, hrests⟩

/-- A printed value ends where the value ends, and determines it up to the order of keys. -/
theorem determines_printed (value : Json) (hfinite : value.isFinite = true) :
    ∀ value' : Json, value'.isFinite = true →
      Determines (printed localeCompare) Json.SameUpToKeyOrder value value' := by
  induction value using Json.induction with
  | null =>
      intro value' hfinite' rest rest' hrest hrest' h
      have hkind := kind_eq_of_printed hfinite hfinite' h
      cases value' with
      | null => exact ⟨.null, List.append_cancel_left h⟩
      | bool b => cases b <;> cases hkind
      | _ => cases hkind
  | bool b =>
      intro value' hfinite' rest rest' hrest hrest' h
      have hkind := kind_eq_of_printed hfinite hfinite' h
      cases value' with
      | bool b' =>
          have hsame : b = b' := by
            cases b <;> cases b' <;> first | rfl | cases hkind
          subst hsame
          exact ⟨.bool b, List.append_cancel_left h⟩
      | _ => cases b <;> cases hkind
  | num text =>
      intro value' hfinite' rest rest' hrest hrest' h
      have hkind := kind_eq_of_printed hfinite hfinite' h
      cases value' with
      | num text' =>
          rw [printed, printed, stableStringify, stableStringify] at h
          obtain ⟨rfl, hrests⟩ := number_append_inj hfinite hfinite' hrest hrest' h
          exact ⟨.num text, hrests⟩
      | bool b => cases b <;> cases hkind
      | _ => cases hkind
  | str s =>
      intro value' hfinite' rest rest' hrest hrest' h
      have hkind := kind_eq_of_printed hfinite hfinite' h
      cases value' with
      | str s' =>
          rw [printed, printed, stableStringify, stableStringify] at h
          obtain ⟨rfl, hrests⟩ := Json.quote_append_inj h
          exact ⟨.str s, hrests⟩
      | bool b => cases b <;> cases hkind
      | _ => cases hkind
  | arr items ih =>
      intro value' hfinite' rest rest' hrest hrest' h
      have hkind := kind_eq_of_printed hfinite hfinite' h
      cases value' with
      | arr items' =>
          have hitem : ∀ item ∈ items ++ items', item.isFinite = true := by
            intro item hmem
            rcases List.mem_append.mp hmem with hmem | hmem
            · exact Json.isFinite_of_mem_items hfinite hmem
            · exact Json.isFinite_of_mem_items hfinite' hmem
          rw [printed_arr, printed_arr] at h
          simp only [List.cons_append, List.append_assoc, List.nil_append, List.cons.injEq,
            true_and] at h
          obtain ⟨hitems, hrests⟩ :=
            joined_append_inj (Or.inl rfl)
              (fun item hmem => by
                obtain ⟨c, others, hprint, hhead⟩ :=
                  exists_printed_head localeCompare item (hitem item hmem)
                exact ⟨c, others, hprint, hhead ▸ kind_le item⟩)
              (fun item hmem item' hmem' =>
                ih item hmem (hitem item (List.mem_append_left _ hmem)) item'
                  (hitem item' (List.mem_append_right _ hmem'))) h
          exact ⟨.arr hitems, hrests⟩
      | bool b => cases b <;> cases hkind
      | _ => cases hkind
  | obj entries ih =>
      intro value' hfinite' rest rest' hrest hrest' h
      have hkind := kind_eq_of_printed hfinite hfinite' h
      cases value' with
      | obj entries' =>
          obtain ⟨sorted, hperm, hprint⟩ := exists_printed_obj localeCompare entries
          obtain ⟨sorted', hperm', hprint'⟩ := exists_printed_obj localeCompare entries'
          have hmem : ∀ entry ∈ sorted, entry ∈ entries := fun entry => hperm.mem_iff.mpr
          have hmem' : ∀ entry ∈ sorted', entry ∈ entries' := fun entry => hperm'.mem_iff.mpr
          rw [hprint, hprint'] at h
          simp only [List.cons_append, List.append_assoc, List.nil_append, List.cons.injEq,
            true_and] at h
          obtain ⟨hentries, hrests⟩ :=
            joined_append_inj (Or.inr rfl)
              (fun entry _ => exists_printedEntry_head entry)
              (fun entry hentry entry' hentry' =>
                determines_printedEntry
                  (ih entry (hmem entry hentry)
                    (Json.isFinite_of_mem_entries hfinite (hmem entry hentry)) entry'.2
                    (Json.isFinite_of_mem_entries hfinite' (hmem' entry' hentry')))) h
          exact ⟨.obj hperm hentries hperm'.symm, hrests⟩
      | bool b => cases b <;> cases hkind
      | _ => cases hkind

/-! ## No line breaks -/

theorem newline_not_mem_intercalate {parts : List (List Char)} (h : ∀ part ∈ parts, '\n' ∉ part) :
    '\n' ∉ [','].intercalate parts := by
  cases parts with
  | nil => simp
  | cons first rest =>
      rw [intercalate_cons]
      intro hmem
      rcases List.mem_append.mp hmem with hfirst | hrest
      · exact h first List.mem_cons_self hfirst
      · obtain ⟨part, hpart, hin⟩ := List.mem_flatMap.mp hrest
        rcases List.mem_cons.mp hin with hcomma | hin
        · cases hcomma
        · exact h part (List.mem_cons_of_mem _ hpart) hin

/-- A printed value is one line. -/
theorem newline_not_mem_printed (value : Json) (hfinite : value.isFinite = true) :
    '\n' ∉ printed localeCompare value := by
  induction value using Json.induction with
  | null => simp [printed, stableStringify]
  | bool b => cases b <;> simp [printed, stableStringify]
  | num text =>
      rw [printed, stableStringify]
      rw [Json.isFinite] at hfinite
      intro hmem
      have hchar := isNumberChar_of_mem hfinite hmem
      cases hchar
  | str s =>
      rw [printed, stableStringify]
      exact Json.newline_not_mem_quote s
  | arr items ih =>
      have hitems : '\n' ∉ [','].intercalate (items.map (printed localeCompare)) := by
        refine newline_not_mem_intercalate fun part hpart => ?_
        obtain ⟨item, hitem, rfl⟩ := List.mem_map.mp hpart
        exact ih item hitem (Json.isFinite_of_mem_items hfinite hitem)
      rw [printed_arr]
      simp [hitems]
  | obj entries ih =>
      obtain ⟨sorted, hperm, hprint⟩ := exists_printed_obj localeCompare entries
      have hentries : '\n' ∉ [','].intercalate (sorted.map (printedEntry localeCompare)) := by
        refine newline_not_mem_intercalate fun part hpart => ?_
        obtain ⟨entry, hentry, rfl⟩ := List.mem_map.mp hpart
        have hmem := hperm.mem_iff.mpr hentry
        have hvalue := ih entry hmem (Json.isFinite_of_mem_entries hfinite hmem)
        simp [printedEntry, Json.newline_not_mem_quote, hvalue]
      rw [hprint]
      simp [hentries]

/-! ## The fingerprint -/

/-- The text of a body; an absent one prints as `undefined`. -/
def bodyText (localeCompare : String → String → Ordering) : Option Json → String
  | some body => stableStringify localeCompare body
  | none => "undefined"

def bodyFinite : Option Json → Bool
  | some body => body.isFinite
  | none => true

/-- Both bodies are absent, or they are the same up to the order of keys. -/
def SameBody : Option Json → Option Json → Prop
  | some body, some body' => body.SameUpToKeyOrder body'
  | none, none => True
  | _, _ => False

/-- The same method up to case, the same path and the same body. -/
structure SameRequest (env : ServiceEnv) (request request' : RequestFingerprintInput) : Prop where
  method : env.toUpperCase request.method = env.toUpperCase request'.method
  path : request.path = request'.path
  body : SameBody request.body request'.body

/-- The method is one line, and every number of the body is finite. -/
structure RequestFingerprintInput.Distinguishable
    (env : ServiceEnv) (request : RequestFingerprintInput) : Prop where
  method : '\n' ∉ (env.toUpperCase request.method).toList
  body : bodyFinite request.body = true

theorem newline_not_mem_bodyText {body : Option Json} (hfinite : bodyFinite body = true) :
    '\n' ∉ (bodyText localeCompare body).toList := by
  cases body with
  | none => simp [bodyText]
  | some body => exact newline_not_mem_printed body hfinite

theorem stableStringify_ne_undefined {value : Json} (hfinite : value.isFinite = true) :
    stableStringify localeCompare value ≠ "undefined" := by
  intro hsame
  obtain ⟨c, rest, hprint, hkind⟩ := exists_printed_head localeCompare value hfinite
  rw [printed, hsame] at hprint
  have hu : 'u' = c := (List.cons.inj hprint).1
  rw [← hu] at hkind
  have hle := kind_le value
  rw [← hkind] at hle
  exact absurd hle (by decide)

theorem sameBody_of_bodyText
    {body body' : Option Json}
    (hfinite : bodyFinite body = true)
    (hfinite' : bodyFinite body' = true)
    (h : bodyText localeCompare body = bodyText localeCompare body') :
    SameBody body body' := by
  cases body with
  | none =>
      cases body' with
      | none => trivial
      | some body' => exact absurd h.symm (stableStringify_ne_undefined hfinite')
  | some body =>
      cases body' with
      | none => exact absurd h (stableStringify_ne_undefined hfinite)
      | some body' =>
          have hprint : printed localeCompare body ++ [] = printed localeCompare body' ++ [] :=
            congrArg (fun text => text.toList ++ []) h
          exact (determines_printed body hfinite body' hfinite' [] [] trivial trivial hprint).1

theorem computeRequestHash_eq (env : ServiceEnv) (request : RequestFingerprintInput) :
    computeRequestHash env request =
      env.sha256
        (env.toUpperCase request.method ++ "\n" ++ request.path ++ "\n" ++
          bodyText env.localeCompare request.body) := by
  unfold computeRequestHash
  cases request.body <;> rfl

/-- Requests with the same hash are the same. -/
theorem sameRequest_of_computeRequestHash
    {env : ServiceEnv}
    (hsha : Function.Injective env.sha256)
    {request request' : RequestFingerprintInput}
    (hrequest : request.Distinguishable env)
    (hrequest' : request'.Distinguishable env)
    (h : computeRequestHash env request = computeRequestHash env request') :
    SameRequest env request request' := by
  rw [computeRequestHash_eq, computeRequestHash_eq] at h
  have hlists := congrArg String.toList (hsha h)
  simp only [String.toList_append, List.append_assoc] at hlists
  obtain ⟨hmethod, hrest⟩ := Text.append_cons_inj hrequest.method hrequest'.method hlists
  obtain ⟨hpath, hbody⟩ :=
    Text.append_cons_inj_last (newline_not_mem_bodyText hrequest.body)
      (newline_not_mem_bodyText hrequest'.body) hrest
  exact
    { method := String.toList_inj.mp hmethod
      path := String.toList_inj.mp hpath
      body := sameBody_of_bodyText hrequest.body hrequest'.body (String.toList_inj.mp hbody) }

/-! ## The scoped key -/

/-- User ids without a colon are told from the client's key, and from no user. -/
theorem scopeIdempotencyKey_inj
    {key key' : String} {userId userId' : Option String}
    (huser : ∀ id, userId = some id → ':' ∉ id.toList ∧ id ≠ "anon")
    (huser' : ∀ id, userId' = some id → ':' ∉ id.toList ∧ id ≠ "anon")
    (h : scopeIdempotencyKey key userId = scopeIdempotencyKey key' userId') :
    key = key' ∧ userId = userId' := by
  have hcolon : ∀ {user : Option String},
      (∀ id, user = some id → ':' ∉ id.toList ∧ id ≠ "anon") →
        ':' ∉ (user.getD "anon").toList := by
    intro user hplain
    cases user with
    | none => decide
    | some id => exact (hplain id rfl).1
  have hlists := congrArg String.toList h
  simp only [scopeIdempotencyKey, String.toList_append] at hlists
  simp only [List.append_assoc] at hlists
  obtain ⟨hfront, hkey⟩ := Text.append_cons_inj (hcolon huser) (hcolon huser') hlists
  refine ⟨String.toList_inj.mp (List.cons.inj hkey).2, ?_⟩
  have hscope : userId.getD "anon" = userId'.getD "anon" := String.toList_inj.mp hfront
  cases userId with
  | none =>
      cases userId' with
      | none => rfl
      | some id => exact absurd hscope.symm (huser' id rfl).2
  | some id =>
      cases userId' with
      | none => exact absurd hscope (huser id rfl).2
      | some id' => exact congrArg some hscope

end Fingerprint

end Idempotency
end NestBase
