import Mathlib.Data.List.DropRight
import Mathlib.Data.List.TakeWhile
import NestBase.Lib.Text

/-!
# Environment files

A text is a list of lines, ended by a newline with or without a carriage
return.  A line assigns a key when it begins with one, white space may follow,
and then an equals sign; what stands behind the sign is the value, up to a
number sign outside quotes, which begins a comment.  White space around the
value and quotes that enclose it are taken off.  Of several assignments of one
key the last one counts.
-/

namespace NestBase
namespace Lib
namespace EnvText

/-! ## Lines -/

section Lines

/-- A carriage return in front of a newline belongs to it. -/
def dropReturn (line : List Char) : List Char :=
  if line.getLast? = some '\r' then line.dropLast else line

/-- `text.split(/\r?\n/)` -/
def splitLines (text : List Char) : List (List Char) :=
  let parts := text.splitOn '\n'
  parts.dropLast.map dropReturn ++ parts.getLast?.toList

def joinLines (lines : List (List Char)) : List Char :=
  ['\n'].intercalate lines

/-- A line that a newline can end. -/
def IsLine (line : List Char) : Prop :=
  '\n' ∉ line ∧ line.getLast? ≠ some '\r'

variable {line : List Char}

theorem dropReturn_of_isLine (h : IsLine line) : dropReturn line = line :=
  if_neg h.2

variable {lines : List (List Char)}

theorem splitLines_joinLines (hne : lines ≠ []) (hlines : ∀ line ∈ lines, IsLine line) :
    splitLines (joinLines lines) = lines := by
  have hparts : (joinLines lines).splitOn '\n' = lines :=
    List.splitOn_intercalate '\n' (fun line hline => (hlines line hline).1) hne
  have hkept : lines.dropLast.map dropReturn = lines.dropLast := by
    refine (List.map_congr_left fun line hline => ?_).trans (List.map_id _)
    exact dropReturn_of_isLine (hlines line (List.mem_of_mem_dropLast hline))
  unfold splitLines
  simp only [hparts, hkept]
  rw [List.getLast?_eq_some_getLast hne, Option.toList_some, List.dropLast_append_getLast]

theorem splitLines_ne_nil (text : List Char) : splitLines text ≠ [] := by
  unfold splitLines
  simp only [List.getLast?_eq_some_getLast (List.splitOn_ne_nil '\n' text), Option.toList_some]
  exact List.append_ne_nil_of_right_ne_nil _ (List.cons_ne_nil _ _)

theorem newline_not_mem_splitLines {text : List Char} (hline : line ∈ splitLines text) :
    '\n' ∉ line := by
  unfold splitLines at hline
  obtain hinner | hlast := List.mem_append.mp hline
  · obtain ⟨part, hpart, rfl⟩ := List.mem_map.mp hinner
    have hfree := Text.not_mem_of_mem_splitOn (List.mem_of_mem_dropLast hpart)
    unfold dropReturn
    split
    · exact fun hmem => hfree (List.mem_of_mem_dropLast hmem)
    · exact hfree
  · exact Text.not_mem_of_mem_splitOn (List.mem_of_getLast? (Option.mem_toList.mp hlast))

theorem joinLines_cons (first : List Char) {rest : List (List Char)} (hne : rest ≠ []) :
    joinLines (first :: rest) = first ++ '\n' :: joinLines rest := by
  obtain ⟨next, others, rfl⟩ := List.exists_cons_of_ne_nil hne
  simp [joinLines, List.intercalate_cons_cons]

theorem joinLines_concat_nil (hne : lines ≠ []) :
    joinLines (lines ++ [[]]) = joinLines lines ++ ['\n'] := by
  induction lines with
  | nil => exact absurd rfl hne
  | cons first rest ih =>
      rw [List.cons_append, joinLines_cons _ (by simp)]
      cases rest with
      | nil => simp [joinLines]
      | cons next others =>
          rw [ih (List.cons_ne_nil _ _), joinLines_cons _ (List.cons_ne_nil _ _)]
          simp

theorem getLast?_joinLines (front : List (List Char)) {last : List Char} (hne : last ≠ []) :
    (joinLines (front ++ [last])).getLast? = last.getLast? := by
  induction front with
  | nil => simp [joinLines]
  | cons first rest ih =>
      have hrest : joinLines (rest ++ [last]) ≠ [] := by
        intro hnil
        rw [hnil, List.getLast?_nil] at ih
        exact hne (List.getLast?_eq_none_iff.mp ih.symm)
      rw [List.cons_append, joinLines_cons _ (by simp),
        List.getLast?_append_of_ne_nil _ (List.cons_ne_nil _ _),
        List.getLast?_cons_of_ne_nil hrest, ih]

/-- What is read back when every line is ended by a newline. -/
theorem splitLines_joinLines_newline (hne : lines ≠ []) (hlines : ∀ line ∈ lines, '\n' ∉ line) :
    splitLines (joinLines lines ++ ['\n']) = lines.map dropReturn ++ [[]] := by
  have hall : ∀ line ∈ lines ++ [[]], '\n' ∉ line := by
    rw [List.forall_mem_append, List.forall_mem_singleton]
    exact ⟨hlines, List.not_mem_nil⟩
  have hparts : (joinLines (lines ++ [[]])).splitOn '\n' = lines ++ [[]] :=
    List.splitOn_intercalate '\n' hall (List.append_ne_nil_of_right_ne_nil _ (List.cons_ne_nil _ _))
  unfold splitLines
  rw [← joinLines_concat_nil hne]
  simp only [hparts]
  rw [List.dropLast_concat, List.getLast?_concat, Option.toList_some]

/-- Newlines at the end of a text are empty lines at the end of its lines. -/
theorem rdropWhile_joinLines
    (hlines : ∀ line ∈ lines, '\n' ∉ line)
    (hne : lines.rdropWhile (· = []) ≠ []) :
    (joinLines lines).rdropWhile (· = '\n') = joinLines (lines.rdropWhile (· = [])) := by
  induction lines using List.reverseRecOn with
  | nil => exact absurd rfl hne
  | append_singleton front last ih =>
      rw [List.forall_mem_append, List.forall_mem_singleton] at hlines
      by_cases hlast : last = []
      · subst hlast
        rw [List.rdropWhile_concat_pos _ _ _ (by simp)] at hne ⊢
        have hfront : front ≠ [] := by
          rintro rfl
          exact hne rfl
        rw [joinLines_concat_nil hfront, List.rdropWhile_concat_pos _ _ _ (by simp),
          ih hlines.1 hne]
      · have hgetLast := getLast?_joinLines front hlast
        rw [List.rdropWhile_concat_neg _ _ _ (by simpa using hlast), List.rdropWhile_eq_self_iff]
        intro htext hnewline
        have hsome := List.getLast?_eq_some_getLast htext
        rw [of_decide_eq_true hnewline, hgetLast] at hsome
        exact hlines.2 (List.mem_of_getLast? hsome)

/-- Behind the last newline of a text something stands, unless it ends with the newline. -/
theorem getLast?_splitLines
    {text : List Char}
    (hne : text ≠ [])
    (hlast : text.getLast? ≠ some '\n') :
    (splitLines text).getLast? ≠ some [] := by
  intro hempty
  have hparts := List.dropLast_append_getLast (List.splitOn_ne_nil '\n' text)
  have hsome := List.getLast?_eq_some_getLast (List.splitOn_ne_nil '\n' text)
  have htext : joinLines (text.splitOn '\n') = text := List.intercalate_splitOn '\n'
  unfold splitLines at hempty
  simp only [hsome, Option.toList_some, List.getLast?_concat, Option.some.injEq] at hempty
  rw [hempty] at hparts
  rw [← hparts] at htext
  by_cases hfront : (text.splitOn '\n').dropLast = []
  · rw [hfront] at htext
    exact hne htext.symm
  · rw [joinLines_concat_nil hfront] at htext
    rw [← htext, List.getLast?_concat] at hlast
    exact hlast rfl

/-- A line stands in the same place of the text whatever it is. -/
theorem joinLines_middle (front back : List (List Char)) :
    ∃ before after, ∀ line, joinLines (front ++ line :: back) = before ++ line ++ after := by
  induction front with
  | nil =>
      cases back with
      | nil => exact ⟨[], [], fun line => by simp [joinLines]⟩
      | cons next others =>
          refine ⟨[], '\n' :: joinLines (next :: others), fun line => ?_⟩
          rw [List.nil_append, joinLines_cons _ (List.cons_ne_nil _ _), List.nil_append]
  | cons first rest ih =>
      obtain ⟨before, after, hmiddle⟩ := ih
      refine ⟨first ++ '\n' :: before, after, fun line => ?_⟩
      rw [List.cons_append, joinLines_cons _ (by simp), hmiddle]
      simp

theorem joinLines_middle_inj
    {front back : List (List Char)} {line' : List Char}
    (h : joinLines (front ++ line :: back) = joinLines (front ++ line' :: back)) :
    line = line' := by
  obtain ⟨before, after, hmiddle⟩ := joinLines_middle front back
  rw [hmiddle, hmiddle] at h
  exact List.append_cancel_left (List.append_cancel_right h)

end Lines

/-! ## Comments -/

section Comments

/-- What stands in front of a comment, and the comment with its number sign. -/
def splitComment (inDouble inSingle : Bool) : List Char → List Char × List Char
  | [] => ([], [])
  | c :: rest =>
      if c = '"' ∧ inSingle = false then
        let found := splitComment (!inDouble) inSingle rest
        (c :: found.1, found.2)
      else if c = '\'' ∧ inDouble = false then
        let found := splitComment inDouble (!inSingle) rest
        (c :: found.1, found.2)
      else if c = '#' ∧ inDouble = false ∧ inSingle = false then ([], c :: rest)
      else
        let found := splitComment inDouble inSingle rest
        (c :: found.1, found.2)

/-- Neither a number sign nor a quote. -/
def IsPlain (text : List Char) : Prop :=
  ∀ c ∈ text, c ≠ '#' ∧ c ≠ '"' ∧ c ≠ '\''

theorem splitComment_append (inDouble inSingle : Bool) (text : List Char) :
    (splitComment inDouble inSingle text).1 ++ (splitComment inDouble inSingle text).2 = text := by
  fun_induction splitComment inDouble inSingle text with
  | case1 => rfl
  | case2 _ _ _ _ _ _ ih => exact congrArg (_ :: ·) ih
  | case3 _ _ _ _ _ _ _ ih => exact congrArg (_ :: ·) ih
  | case4 => rfl
  | case5 _ _ _ _ _ _ _ _ ih => exact congrArg (_ :: ·) ih

theorem head?_splitComment
    {inDouble inSingle : Bool} {text : List Char}
    (hne : (splitComment inDouble inSingle text).2 ≠ []) :
    (splitComment inDouble inSingle text).2.head? = some '#' := by
  fun_induction splitComment inDouble inSingle text with
  | case1 => exact absurd rfl hne
  | case2 _ _ _ _ _ _ ih => exact ih hne
  | case3 _ _ _ _ _ _ _ ih => exact ih hne
  | case4 _ _ _ _ _ _ hc => rw [hc.1]; rfl
  | case5 _ _ _ _ _ _ _ _ ih => exact ih hne

/-- Plain text in front of a comment, or of the end, is not part of it. -/
theorem splitComment_plain
    {text comment : List Char}
    (htext : IsPlain text)
    (hcomment : comment = [] ∨ comment.head? = some '#') :
    splitComment false false (text ++ comment) = (text, comment) := by
  induction text with
  | nil =>
      obtain rfl | hhead := hcomment
      · rfl
      · obtain ⟨rest, rfl⟩ : ∃ rest, comment = '#' :: rest := by
          cases comment with
          | nil => exact nomatch hhead
          | cons c rest => exact ⟨rest, by rw [Option.some.inj hhead]⟩
        simp [splitComment]
  | cons c text ih =>
      obtain ⟨⟨hsign, hdouble, hsingle⟩, hrest⟩ := List.forall_mem_cons.mp htext
      rw [List.cons_append, splitComment, if_neg (by simp [hdouble]), if_neg (by simp [hsingle]),
        if_neg (by simp [hsign]), ih hrest]

end Comments

/-! ## Assignments -/

section Assignments

/-- `[A-Z0-9_]` -/
def isKeyChar (c : Char) : Bool :=
  decide (65 ≤ c.toNat ∧ c.toNat ≤ 90) || decide (48 ≤ c.toNat ∧ c.toNat ≤ 57) || c == '_'

/-- What a dot of a regular expression does not stand for. -/
def isTerminator (c : Char) : Bool :=
  ['\n', '\r', '\u2028', '\u2029'].contains c

/-- `/^([A-Z0-9_]+)\s*=(.*)$/` -/
def splitAssignment (line : List Char) : Option (List Char × List Char) :=
  let key := line.takeWhile isKeyChar
  match (line.dropWhile isKeyChar).dropWhile Text.isWhiteSpace with
  | '=' :: after =>
      if key ≠ [] ∧ after.all (fun c => !isTerminator c) = true then some (key, after) else none
  | _ => none

def trimmed (text : List Char) : List Char :=
  (text.dropWhile Text.isWhiteSpace).rdropWhile Text.isWhiteSpace

/-- Quotes of one kind around the whole value are taken off. -/
def unquote (text : List Char) : List Char :=
  match text with
  | '"' :: rest => if rest.getLast? = some '"' then rest.dropLast else text
  | '\'' :: rest => if rest.getLast? = some '\'' then rest.dropLast else text
  | _ => text

def readValue (after : List Char) : List Char :=
  unquote (trimmed (splitComment false false after).1)

def readAssignment (line : List Char) : Option (List Char × List Char) :=
  (splitAssignment line).map fun found => (found.1, readValue found.2)

/-- A line that is a comment, or the comment behind an assignment. -/
def readComment (line : List Char) : Option (List Char) :=
  if (line.dropWhile Text.isWhiteSpace).head? = some '#' then some line
  else
    (splitAssignment line).bind fun found =>
      let comment := (splitComment false false found.2).2
      if comment = [] then none else some comment

def assignments (lines : List (List Char)) : List (List Char × List Char) :=
  lines.filterMap readAssignment

def comments (lines : List (List Char)) : List (List Char) :=
  lines.filterMap readComment

/-- The last assignment of a key wins. -/
def lastValue (key : List Char) (found : List (List Char × List Char)) : Option (List Char) :=
  ((found.filter fun entry => entry.1 = key).getLast?).map Prod.snd

/-- The value of a key in a text. -/
def lookup (text key : List Char) : Option (List Char) :=
  lastValue key (assignments (splitLines text))

structure IsKey (key : List Char) : Prop where
  ne_nil : key ≠ []
  chars : ∀ c ∈ key, isKeyChar c = true

variable {c : Char}

theorem isWhiteSpace_of_isKeyChar (h : isKeyChar c = true) :
    Text.isWhiteSpace c = false := by
  simp only [isKeyChar, Bool.or_eq_true, decide_eq_true_eq, beq_iff_eq] at h
  obtain (hupper | hdigit) | rfl := h
  · exact Text.not_isWhiteSpace_of_visible (by omega) (by omega)
  · exact Text.not_isWhiteSpace_of_visible (by omega) (by omega)
  · decide

theorem isKeyChar_equals : isKeyChar '=' = false := by
  decide

/-- An assignment as it is written: the key, white space and the equals sign. -/
theorem splitAssignment_spec
    {line key after : List Char}
    (h : splitAssignment line = some (key, after)) :
    IsKey key ∧ (∀ c ∈ after, isTerminator c = false) ∧
      ∃ blank, line = key ++ blank ++ '=' :: after ∧
        ∀ c ∈ blank, Text.isWhiteSpace c = true := by
  unfold splitAssignment at h
  simp only at h
  split at h
  · next rest hrest =>
      split at h
      · next hfound =>
          obtain ⟨rfl, rfl⟩ := Prod.mk.inj (Option.some.inj h)
          refine ⟨⟨hfound.1, fun c hc => List.mem_takeWhile_imp hc⟩, ?_, ?_⟩
          · simpa using hfound.2
          · refine ⟨(line.dropWhile isKeyChar).takeWhile Text.isWhiteSpace, ?_,
              fun c hc => List.mem_takeWhile_imp hc⟩
            rw [← hrest, List.append_assoc, List.takeWhile_append_dropWhile,
              List.takeWhile_append_dropWhile]
      · exact nomatch h
  · exact nomatch h

theorem splitAssignment_key {key : List Char} (hkey : IsKey key) (after : List Char) :
    splitAssignment (key ++ '=' :: after) =
      if after.all (fun c => !isTerminator c) = true then some (key, after) else none := by
  have hstop : isKeyChar '=' = false := isKeyChar_equals
  have hblank : Text.isWhiteSpace '=' = false := by decide
  unfold splitAssignment
  rw [List.takeWhile_append_of_pos hkey.chars, List.dropWhile_append_of_pos hkey.chars,
    List.takeWhile_cons_of_neg (by simp [hstop]), List.dropWhile_cons_of_neg (by simp [hstop]),
    List.append_nil, List.dropWhile_cons_of_neg (by simp [hblank])]
  simp [hkey.ne_nil]

/-- White space neither begins nor ends the value. -/
structure IsTight (value : List Char) : Prop where
  head : ∀ c, value.head? = some c → Text.isWhiteSpace c = false
  last : ∀ c, value.getLast? = some c → Text.isWhiteSpace c = false

variable {value : List Char}

theorem trimmed_append
    {gap : List Char}
    (hvalue : IsTight value)
    (hgap : ∀ c ∈ gap, Text.isWhiteSpace c = true) :
    trimmed (value ++ gap) = value := by
  have hgaps : ∀ front : List Char,
      (front ++ gap).rdropWhile Text.isWhiteSpace = front.rdropWhile Text.isWhiteSpace := by
    intro front
    induction gap using List.reverseRecOn with
    | nil => rw [List.append_nil]
    | append_singleton gap c ih =>
        rw [List.forall_mem_append, List.forall_mem_singleton] at hgap
        rw [← List.append_assoc, List.rdropWhile_concat_pos _ _ _ hgap.2, ih hgap.1]
  have hlast : value.rdropWhile Text.isWhiteSpace = value := by
    rw [List.rdropWhile_eq_self_iff]
    intro hne
    rw [hvalue.last _ (List.getLast?_eq_some_getLast hne)]
    exact Bool.false_ne_true
  unfold trimmed
  cases value with
  | nil =>
      rw [List.nil_append, List.dropWhile_eq_nil_iff.mpr hgap]
      rfl
  | cons c rest =>
      have hc := hvalue.head c rfl
      rw [List.cons_append, List.dropWhile_cons_of_neg (by simp [hc]), ← List.cons_append, hgaps,
        hlast]

theorem unquote_of_isPlain (h : IsPlain value) : unquote value = value := by
  cases value with
  | nil => rfl
  | cons c rest =>
      have hc := h c List.mem_cons_self
      unfold unquote
      split
      · next heq => exact absurd (List.cons.inj heq).1 hc.2.1
      · next heq => exact absurd (List.cons.inj heq).1 hc.2.2
      · rfl

/-- A value in front of a comment is read as it stands. -/
theorem readValue_append
    {gap comment : List Char}
    (hplain : IsPlain value)
    (htight : IsTight value)
    (hgap : ∀ c ∈ gap, c = ' ')
    (hcomment : comment = [] ∨ comment.head? = some '#') :
    splitComment false false (value ++ gap ++ comment) = (value ++ gap, comment) ∧
      readValue (value ++ gap ++ comment) = value := by
  have hboth : IsPlain (value ++ gap) := by
    intro c hc
    obtain hc | hc := List.mem_append.mp hc
    · exact hplain c hc
    · rw [hgap c hc]
      decide
  have hsplit := splitComment_plain hboth hcomment
  have hblank : ∀ c ∈ gap, Text.isWhiteSpace c = true := by
    intro c hc
    rw [hgap c hc]
    decide
  refine ⟨hsplit, ?_⟩
  rw [readValue, hsplit, trimmed_append htight hblank, unquote_of_isPlain hplain]

theorem mem_of_mem_trimmed {text : List Char} (hc : c ∈ trimmed text) : c ∈ text :=
  (List.dropWhile_sublist _).subset ((List.rdropWhile_prefix _ _).subset hc)

theorem mem_of_mem_unquote {text : List Char} (hc : c ∈ unquote text) : c ∈ text := by
  unfold unquote at hc
  split at hc
  · split at hc
    · exact List.mem_cons_of_mem _ (List.mem_of_mem_dropLast hc)
    · exact hc
  · split at hc
    · exact List.mem_cons_of_mem _ (List.mem_of_mem_dropLast hc)
    · exact hc
  · exact hc

theorem mem_of_mem_readValue {after : List Char} (hc : c ∈ readValue after) :
    c ∈ after := by
  have hmem := mem_of_mem_trimmed (mem_of_mem_unquote hc)
  rw [← splitComment_append false false after]
  exact List.mem_append_left _ hmem

theorem lastValue_append (key : List Char) (front back : List (List Char × List Char)) :
    lastValue key (front ++ back) = (lastValue key back).or (lastValue key front) := by
  unfold lastValue
  rw [List.filter_append, List.getLast?_append]
  cases (back.filter fun entry => entry.1 = key).getLast? <;> rfl

theorem lastValue_cons
    (key : List Char)
    (entry : List Char × List Char)
    (rest : List (List Char × List Char)) :
    lastValue key (entry :: rest) =
      (lastValue key rest).or (if entry.1 = key then some entry.2 else none) := by
  rw [← List.singleton_append, lastValue_append]
  by_cases hkey : entry.1 = key <;> simp [lastValue, hkey]

end Assignments

end EnvText
end Lib
end NestBase
