import NestBase.Lib.EnvText
import NestBase.Lib.Number

/-!
# Updates of an environment file

`planEnvFileUpdate` replaces the value of the first line that assigns a key and
puts the comment of that line behind the new value; a key that no line assigns
is appended under a marker.

A file may assign a key twice, and then the last assignment counts, which is
not the one that is replaced.  The space in front of a comment depends on
whether something stood in front of it before, so a second update may add or
take off a space.
-/

namespace NestBase
namespace Core
namespace EnvFileUpdate

open Lib Lib.EnvText

/-! ## The planner -/

section Planner

structure EnvUpdateInput where
  current : String
  key : String
  value : String

inductive EnvUpdateAction where
  | replaced
  | appended

structure EnvUpdatePlan where
  next : String
  action : EnvUpdateAction
  lineNumber : Nat

inductive EnvUpdateError where
  | invalidKey (key : String)
  | newlineInValue

def EnvUpdateError.message : EnvUpdateError → String
  | .invalidKey key =>
      "env-file-update: invalid key \"" ++ key ++ "\" (uppercase + underscore only)"
  | .newlineInValue => "env-file-update: value must not contain newlines"

/-- The scan from index `i` on. -/
def scanComment (inDouble inSingle : Bool) (i : Nat) : List Char → Option Nat
  | [] => none
  | c :: rest =>
      if c = '"' ∧ inSingle = false then scanComment (!inDouble) inSingle (i + 1) rest
      else if c = '\'' ∧ inDouble = false then scanComment inDouble (!inSingle) (i + 1) rest
      else if c = '#' ∧ inDouble = false ∧ inSingle = false then some i
      else scanComment inDouble inSingle (i + 1) rest

def findCommentStart (value : List Char) : Option Nat :=
  scanComment false false 0 value

/-- Spaces in front of the comment are passed over; something may stand before them. -/
def stripSurroundingSpaces (valueAndAfter : List Char) (commentIdx : Nat) : List Char :=
  if (valueAndAfter.take commentIdx).rdropWhile (fun c => c = ' ') = [] then [] else [' ']

def preserveTrailingComment (originalLine newAssignment : List Char) : List Char :=
  match originalLine.dropWhile fun c => c ≠ '=' with
  | [] => newAssignment
  | _ :: valueAndAfter =>
      match findCommentStart valueAndAfter with
      | none => newAssignment
      | some commentIdx =>
          newAssignment ++ stripSurroundingSpaces valueAndAfter commentIdx ++
            valueAndAfter.drop commentIdx

/-- `${key}=${value}` -/
def assignment (key value : List Char) : List Char :=
  key ++ '=' :: value

/-- The loop over the lines: the lines with the first assignment replaced, and its index. -/
def replaceFirst (key value : List Char) :
    Nat → List (List Char) → Option (List (List Char) × Nat)
  | _, [] => none
  | i, raw :: rest =>
      let next := (replaceFirst key value (i + 1) rest).map fun found => (raw :: found.1, found.2)
      if raw.head? = some '#' then next
      else
        match splitAssignment raw with
        | none => next
        | some (name, _) =>
            if name = key then
              some (preserveTrailingComment raw (assignment key value) :: rest, i)
            else next

def marker : List Char := "# Managed by /hub/features".toList

/-- What is appended to the lines. -/
def block (key value : List Char) (stripped : List (List Char)) : List (List Char) :=
  (if stripped ≠ [] ∧ stripped.getLast? ≠ some [] then [[]] else []) ++
    (if stripped.any fun line => trimmed line == marker then [] else [marker]) ++
      [assignment key value]

def trailingNewline (current : List Char) : Bool :=
  decide (current.getLast? = some '\n') || decide (current = [])

/-- The lines, without the empty one behind the last newline. -/
def strippedLines (current : List Char) : List (List Char) :=
  let lines := if current = [] then [] else splitLines current
  if trailingNewline current = true ∧ lines.getLast? = some [] then lines.dropLast else lines

/-- `lines.join("\n")`, and a newline when the text had one. -/
def textOf (lines : List (List Char)) (ended : Bool) : List Char :=
  joinLines lines ++ if ended then ['\n'] else []

def planEnvFileUpdate (input : EnvUpdateInput) : Except EnvUpdateError EnvUpdatePlan :=
  let key := input.key.toList
  let value := input.value.toList
  let current := input.current.toList
  if key = [] ∨ key.all isKeyChar = false then .error (.invalidKey input.key)
  else if '\n' ∈ value then .error .newlineInValue
  else
    let stripped := strippedLines current
    match replaceFirst key value 0 stripped with
    | some (replaced, i) =>
        .ok
          { next := String.ofList (textOf replaced (trailingNewline current))
            action := .replaced
            lineNumber := i + 1 }
    | none =>
        let block := block key value stripped
        .ok
          { next := String.ofList (textOf (stripped ++ block) (trailingNewline current))
            action := .appended
            lineNumber := stripped.length + block.length }

end Planner

/-! ## Lines and texts -/

section Lines

/-- The lines after an update. -/
def nextLines (key value : List Char) (stripped : List (List Char)) : List (List Char) :=
  match replaceFirst key value 0 stripped with
  | some (replaced, _) => replaced
  | none => stripped ++ block key value stripped

/-- The text after an update. -/
def nextText (key value current : List Char) : List Char :=
  textOf (nextLines key value (strippedLines current)) (trailingNewline current)

theorem planEnvFileUpdate_eq
    {key value : String}
    (hkey : IsKey key.toList)
    (hvalue : '\n' ∉ value.toList)
    (current : String) :
    ∃ plan, planEnvFileUpdate ⟨current, key, value⟩ = .ok plan ∧
      plan.next = String.ofList (nextText key.toList value.toList current.toList) := by
  have hchars : key.toList.all isKeyChar = true := List.all_eq_true.mpr hkey.chars
  have hvalid : ¬ (key.toList = [] ∨ key.toList.all isKeyChar = false) := by
    rw [hchars]
    simp [hkey.ne_nil]
  unfold planEnvFileUpdate nextText nextLines
  simp only [hvalid, hvalue, if_false]
  cases replaceFirst key.toList value.toList 0 (strippedLines current.toList) with
  | none => exact ⟨_, rfl, rfl⟩
  | some found => exact ⟨_, rfl, rfl⟩

/-- A line that does not assign the key. -/
def Passes (key line : List Char) : Prop :=
  ∀ after, splitAssignment line ≠ some (key, after)

/-- The first line that assigns the key stands between `front` and `back`. -/
structure FirstAssignment (key : List Char) (lines front : List (List Char)) (raw : List Char)
    (back : List (List Char)) (after : List Char) : Prop where
  split : lines = front ++ raw :: back
  passes : ∀ line ∈ front, Passes key line
  assigns : splitAssignment raw = some (key, after)

theorem not_sign_of_splitAssignment
    {line : List Char} {found : List Char × List Char}
    (h : splitAssignment line = some found) :
    line.head? ≠ some '#' := by
  obtain ⟨hkey, -, blank, hline, -⟩ := splitAssignment_spec h
  obtain ⟨c, rest, hsplit⟩ := List.exists_cons_of_ne_nil hkey.ne_nil
  have hc := hkey.chars c (by rw [hsplit]; exact List.mem_cons_self)
  rw [hline, hsplit, List.append_assoc, List.cons_append, List.head?_cons, Ne, Option.some.injEq]
  rintro rfl
  exact absurd hc (by decide)

theorem replaceFirst_cons
    (key value : List Char)
    (i : Nat)
    (raw : List Char)
    (rest : List (List Char)) :
    (∃ after, splitAssignment raw = some (key, after) ∧
        replaceFirst key value i (raw :: rest) =
          some (preserveTrailingComment raw (assignment key value) :: rest, i)) ∨
      (Passes key raw ∧
        replaceFirst key value i (raw :: rest) =
          (replaceFirst key value (i + 1) rest).map fun found => (raw :: found.1, found.2)) := by
  rw [replaceFirst]
  cases hfound : splitAssignment raw with
  | none =>
      refine Or.inr ⟨fun after h => ?_, by simp⟩
      rw [hfound] at h
      exact nomatch h
  | some found =>
      obtain ⟨name, after⟩ := found
      rw [if_neg (not_sign_of_splitAssignment hfound)]
      by_cases hname : name = key
      · subst hname
        exact Or.inl ⟨after, rfl, by simp⟩
      · refine Or.inr ⟨fun other h => ?_, by simp [hname]⟩
        rw [hfound] at h
        exact hname (Prod.mk.inj (Option.some.inj h)).1

theorem passes_or_first (key : List Char) (lines : List (List Char)) :
    (∀ line ∈ lines, Passes key line) ∨
      ∃ front raw back after, FirstAssignment key lines front raw back after := by
  induction lines with
  | nil => exact Or.inl (by simp)
  | cons line rest ih =>
      by_cases hline : Passes key line
      · obtain hrest | ⟨front, raw, back, after, rfl, hfront, hassigns⟩ := ih
        · exact Or.inl (List.forall_mem_cons.mpr ⟨hline, hrest⟩)
        · exact Or.inr ⟨line :: front, raw, back, after, rfl,
            List.forall_mem_cons.mpr ⟨hline, hfront⟩, hassigns⟩
      · obtain ⟨after, hassigns⟩ := not_forall_not.mp hline
        exact Or.inr ⟨[], line, rest, after, rfl, by simp, hassigns⟩

variable {lines : List (List Char)}
variable {key : List Char}

theorem replaceFirst_of_passes
    (hpasses : ∀ line ∈ lines, Passes key line)
    (value : List Char)
    (i : Nat) :
    replaceFirst key value i lines = none := by
  induction lines generalizing i with
  | nil => rfl
  | cons line rest ih =>
      obtain ⟨hline, hrest⟩ := List.forall_mem_cons.mp hpasses
      obtain ⟨after, hassigns, -⟩ | ⟨-, hnext⟩ := replaceFirst_cons key value i line rest
      · exact absurd hassigns (hline after)
      · rw [hnext, ih hrest]
        rfl

/-- The loop replaces the first line that assigns the key. -/
theorem replaceFirst_of_first
    {front : List (List Char)} {raw : List Char} {back : List (List Char)} {after : List Char}
    (h : FirstAssignment key lines front raw back after)
    (value : List Char)
    (i : Nat) :
    ∃ j, replaceFirst key value i lines =
      some (front ++ preserveTrailingComment raw (assignment key value) :: back, j) := by
  obtain ⟨rfl, hfront, hassigns⟩ := h
  induction front generalizing i with
  | nil =>
      obtain ⟨-, -, hreplaced⟩ | ⟨hpasses, -⟩ := replaceFirst_cons key value i raw back
      · exact ⟨i, hreplaced⟩
      · exact absurd hassigns (hpasses after)
  | cons line front ih =>
      obtain ⟨hline, hrest⟩ := List.forall_mem_cons.mp hfront
      obtain ⟨j, hsome⟩ := ih (i + 1) hrest
      obtain ⟨other, hother, -⟩ | ⟨-, hnext⟩ :=
        replaceFirst_cons key value i line (front ++ raw :: back)
      · exact absurd hother (hline other)
      · exact ⟨j, by rw [List.cons_append, hnext, hsome]; rfl⟩

theorem nextLines_of_passes (hpasses : ∀ line ∈ lines, Passes key line) (value : List Char) :
    nextLines key value lines = lines ++ block key value lines := by
  rw [nextLines, replaceFirst_of_passes hpasses]

theorem nextLines_of_first
    {front : List (List Char)} {raw : List Char} {back : List (List Char)} {after : List Char}
    (h : FirstAssignment key lines front raw back after)
    (value : List Char) :
    nextLines key value lines =
      front ++ preserveTrailingComment raw (assignment key value) :: back := by
  obtain ⟨j, hsome⟩ := replaceFirst_of_first h value 0
  rw [nextLines, hsome]

end Lines

/-! ## The line of an update -/

section PatchedLine

/-- The space between a value and the comment behind it. -/
def gap (before : List Char) : List Char :=
  if before.all fun c => c = ' ' then [] else [' ']

/-- What is kept of the text behind an equals sign. -/
def kept (after : List Char) : List Char :=
  let found := splitComment false false after
  if found.2 = [] then [] else gap found.1 ++ found.2

theorem mem_gap {before : List Char} {c : Char} (hc : c ∈ gap before) : c = ' ' := by
  unfold gap at hc
  split at hc
  · exact nomatch hc
  · exact List.mem_singleton.mp hc

theorem gap_eq_iff {before before' : List Char} :
    gap before = gap before' ↔ ((∀ c ∈ before, c = ' ') ↔ ∀ c ∈ before', c = ' ') := by
  simp only [gap, List.all_eq_true, decide_eq_true_eq]
  split
  · next h =>
      rw [iff_true_left h]
      split
      · next h' => exact iff_of_true rfl h'
      · next h' => exact iff_of_false (by simp) h'
  · next h =>
      rw [iff_false_left h]
      split
      · next h' => exact iff_of_false (by simp) (not_not_intro h')
      · next h' => exact iff_of_true rfl h'

theorem scanComment_eq (inDouble inSingle : Bool) (i : Nat) (text : List Char) :
    scanComment inDouble inSingle i text =
      if (splitComment inDouble inSingle text).2 = [] then none
      else some (i + (splitComment inDouble inSingle text).1.length) := by
  induction text generalizing inDouble inSingle i with
  | nil => rfl
  | cons c rest ih =>
      rw [scanComment, splitComment]
      split
      · simp [ih, Nat.add_assoc, Nat.add_comm 1]
      · split
        · simp [ih, Nat.add_assoc, Nat.add_comm 1]
        · split
          · simp
          · simp [ih, Nat.add_assoc, Nat.add_comm 1]

theorem stripSurroundingSpaces_append (before comment : List Char) :
    stripSurroundingSpaces (before ++ comment) before.length = gap before := by
  unfold stripSurroundingSpaces gap
  rw [List.take_left]
  simp [List.rdropWhile_eq_nil_iff]

variable {after key value : List Char}

/-- The comment of the line is put behind the new assignment. -/
theorem preserveTrailingComment_eq
    {raw : List Char}
    (h : splitAssignment raw = some (key, after))
    (newAssignment : List Char) :
    preserveTrailingComment raw newAssignment = newAssignment ++ kept after := by
  obtain ⟨hkey, -, blank, hraw, hblank⟩ := splitAssignment_spec h
  have hsign : ∀ c ∈ key ++ blank, decide (c ≠ '=') = true := by
    intro c hc
    rw [decide_eq_true_eq]
    rintro rfl
    obtain hc | hc := List.mem_append.mp hc
    · exact absurd (hkey.chars _ hc) (by decide)
    · exact absurd (hblank _ hc) (by decide)
  have hdrop : raw.dropWhile (fun c => c ≠ '=') = '=' :: after := by
    rw [hraw, List.dropWhile_append_of_pos hsign, List.dropWhile_cons_of_neg (by simp)]
  have hparts := splitComment_append false false after
  rw [preserveTrailingComment, hdrop]
  simp only [findCommentStart, scanComment_eq, Nat.zero_add, kept]
  by_cases hcomment : (splitComment false false after).2 = []
  · simp [hcomment]
  · have hgap := stripSurroundingSpaces_append (splitComment false false after).1
      (splitComment false false after).2
    have htail : ((splitComment false false after).1 ++ (splitComment false false after).2).drop
        (splitComment false false after).1.length = (splitComment false false after).2 :=
      List.drop_left
    rw [hparts] at hgap htail
    simp [hcomment, hgap, htail]

theorem comment_cases (after : List Char) :
    (splitComment false false after).2 = [] ∨
      (splitComment false false after).2.head? = some '#' := by
  by_cases hcomment : (splitComment false false after).2 = []
  · exact Or.inl hcomment
  · exact Or.inr (head?_splitComment hcomment)

/-- The new value stands in front of the same comment. -/
theorem splitComment_kept (hplain : IsPlain value) (htight : IsTight value) (after : List Char) :
    splitComment false false (value ++ kept after) =
        (if (splitComment false false after).2 = [] then value
          else value ++ gap (splitComment false false after).1,
          (splitComment false false after).2) ∧
      readValue (value ++ kept after) = value := by
  unfold kept
  by_cases hcomment : (splitComment false false after).2 = []
  · have hread := readValue_append hplain htight (List.forall_mem_nil _) (Or.inl rfl)
    simpa [hcomment] using hread
  · have hspaces : ∀ c ∈ gap (splitComment false false after).1, c = ' ' :=
      fun c hc => mem_gap hc
    have hread := readValue_append hplain htight hspaces (comment_cases after)
    simpa [hcomment] using hread

/-- A second update keeps the space in front of the comment just when the first one found
something there exactly if it put something there. -/
theorem kept_kept_iff (hplain : IsPlain value) (htight : IsTight value) (after : List Char) :
    kept (value ++ kept after) = kept after ↔
      ((splitComment false false after).2 ≠ [] →
        ((∀ c ∈ (splitComment false false after).1, c = ' ') ↔ value = [])) := by
  have hsplit := (splitComment_kept hplain htight after).1
  by_cases hcomment : (splitComment false false after).2 = []
  · have hsecond : kept (value ++ kept after) = [] := by
      rw [kept]
      simp [hsplit, hcomment]
    have hfirst : kept after = [] := by
      rw [kept]
      simp [hcomment]
    rw [hsecond, hfirst]
    simp [hcomment]
  · have hspaces : (∀ c ∈ value ++ gap (splitComment false false after).1, c = ' ') ↔
        value = [] := by
      constructor
      · intro hall
        by_contra hne
        obtain ⟨c, rest, rfl⟩ := List.exists_cons_of_ne_nil hne
        have hc := htight.head c rfl
        rw [hall c (by simp)] at hc
        exact absurd hc (by decide)
      · rintro rfl c hc
        rw [List.nil_append] at hc
        exact mem_gap hc
    have hsecond : kept (value ++ kept after) =
        gap (value ++ gap (splitComment false false after).1) ++
          (splitComment false false after).2 := by
      rw [kept]
      simp [hsplit, hcomment]
    have hfirst : kept after =
        gap (splitComment false false after).1 ++ (splitComment false false after).2 := by
      rw [kept]
      simp [hcomment]
    rw [hsecond, hfirst, List.append_cancel_right_eq, gap_eq_iff, hspaces]
    simp only [hcomment, ne_eq, not_false_eq_true, forall_const]
    exact Iff.comm

theorem readComment_of_splitAssignment
    {line : List Char}
    (h : splitAssignment line = some (key, after)) :
    readComment line =
      if (splitComment false false after).2 = [] then none
      else some (splitComment false false after).2 := by
  obtain ⟨hkey, -, blank, hline, -⟩ := splitAssignment_spec h
  obtain ⟨c, rest, rfl⟩ := List.exists_cons_of_ne_nil hkey.ne_nil
  have hc := isWhiteSpace_of_isKeyChar (hkey.chars c (by simp))
  have hhead : (line.dropWhile Text.isWhiteSpace).head? = line.head? := by
    rw [hline, List.append_assoc, List.cons_append, List.dropWhile_cons_of_neg (by simp [hc])]
  rw [readComment, hhead, if_neg (not_sign_of_splitAssignment h), h, Option.bind_some]

theorem isLine_of_not_isTerminator {line : List Char} (h : ∀ c ∈ line, isTerminator c = false) :
    IsLine line := by
  refine ⟨fun hmem => absurd (h _ hmem) (by decide), fun hlast => ?_⟩
  exact absurd (h _ (List.mem_of_getLast? hlast)) (by decide)

theorem not_isTerminator_of_isKeyChar {c : Char} (h : isKeyChar c = true) :
    isTerminator c = false := by
  simp only [isTerminator, List.contains_eq_mem, decide_eq_false_iff_not, List.mem_cons,
    List.not_mem_nil, or_false, not_or]
  refine ⟨?_, ?_, ?_, ?_⟩ <;>
  · rintro rfl
    exact absurd h (by decide)

/-- The patched line assigns the value and has the comment of the line it replaces. -/
theorem patched_line
    {raw : List Char}
    (hassigns : splitAssignment raw = some (key, after))
    (hplain : IsPlain value)
    (htight : IsTight value)
    (hvalue : ∀ c ∈ value, isTerminator c = false) :
    splitAssignment (assignment key value ++ kept after) = some (key, value ++ kept after) ∧
      readComment (assignment key value ++ kept after) = readComment raw ∧
      IsLine (assignment key value ++ kept after) := by
  obtain ⟨hkey, hafter, -⟩ := splitAssignment_spec hassigns
  have hkept : ∀ c ∈ kept after, isTerminator c = false := by
    intro c hc
    unfold kept at hc
    simp only at hc
    split at hc
    · exact nomatch hc
    · obtain hc | hc := List.mem_append.mp hc
      · rw [mem_gap hc]
        decide
      · refine hafter c ?_
        rw [← splitComment_append false false after]
        exact List.mem_append_right _ hc
  have hboth : ∀ c ∈ value ++ kept after, isTerminator c = false :=
    List.forall_mem_append.mpr ⟨hvalue, hkept⟩
  have hnew : splitAssignment (assignment key value ++ kept after) =
      some (key, value ++ kept after) := by
    rw [assignment, List.append_assoc, List.cons_append, splitAssignment_key hkey,
      if_pos (by simpa using ⟨hvalue, hkept⟩)]
  refine ⟨hnew, ?_, ?_⟩
  · rw [readComment_of_splitAssignment hnew, readComment_of_splitAssignment hassigns,
      (splitComment_kept hplain htight after).1]
  · apply isLine_of_not_isTerminator
    rw [assignment, List.append_assoc, List.cons_append, List.forall_mem_append,
      List.forall_mem_cons]
    exact ⟨fun c hc => not_isTerminator_of_isKeyChar (hkey.chars c hc), by decide, hboth⟩

end PatchedLine

/-! ## The text of an update -/

section Texts

theorem strippedLines_textOf
    {lines : List (List Char)} {ended : Bool}
    (hne : lines ≠ [])
    (hlines : ∀ line ∈ lines, IsLine line)
    (hended : ended = true ∨ lines.getLast? ≠ some []) :
    strippedLines (textOf lines ended) = lines ∧ trailingNewline (textOf lines ended) = ended := by
  cases ended with
  | true =>
      have hnewline : trailingNewline (joinLines lines ++ ['\n']) = true := by
        simp [trailingNewline]
      have hall : ∀ line ∈ lines ++ [[]], IsLine line := by
        rw [List.forall_mem_append, List.forall_mem_singleton]
        exact ⟨hlines, by simp [IsLine]⟩
      have hsplit := splitLines_joinLines (by simp) hall
      rw [joinLines_concat_nil hne] at hsplit
      refine ⟨?_, hnewline⟩
      have htext : joinLines lines ++ ['\n'] ≠ [] := by simp
      change strippedLines (joinLines lines ++ ['\n']) = lines
      simp only [strippedLines, htext, if_false, hsplit, hnewline]
      simp
  | false =>
      obtain ⟨front, last, rfl⟩ := List.eq_nil_or_concat' lines |>.resolve_left hne
      have hlast : last ≠ [] := by
        rintro rfl
        obtain h | h := hended
        · exact nomatch h
        · exact h (by simp)
      have hgetLast := getLast?_joinLines front hlast
      have htext : joinLines (front ++ [last]) ≠ [] := by
        intro hnil
        rw [hnil, List.getLast?_nil] at hgetLast
        exact hlast (List.getLast?_eq_none_iff.mp hgetLast.symm)
      have hfree : '\n' ∉ last := (hlines last (by simp)).1
      have hnewline : trailingNewline (joinLines (front ++ [last])) = false := by
        have hnot : last.getLast? ≠ some '\n' := fun h => hfree (List.mem_of_getLast? h)
        simp [trailingNewline, htext, hgetLast, hnot]
      have hplain : textOf (front ++ [last]) false = joinLines (front ++ [last]) := by
        simp [textOf]
      simp only [hplain, strippedLines, htext, if_false, hnewline,
        splitLines_joinLines hne hlines]
      exact ⟨by simp, trivial⟩

theorem mem_splitLines_of_mem_strippedLines
    {current line : List Char}
    (hline : line ∈ strippedLines current) :
    line ∈ splitLines current := by
  unfold strippedLines at hline
  by_cases hempty : current = []
  · simp [hempty] at hline
  · simp only [hempty, if_false] at hline
    split at hline
    · exact List.mem_of_mem_dropLast hline
    · exact hline

/-- The empty line behind the last newline is neither an assignment nor a comment. -/
theorem filterMap_strippedLines
    {β : Type} {read : List Char → Option β}
    (hread : read [] = none)
    (current : List Char) :
    (strippedLines current).filterMap read = (splitLines current).filterMap read := by
  unfold strippedLines
  by_cases hempty : current = []
  · subst hempty
    simp [splitLines, hread]
  · simp only [hempty, if_false]
    split
    · next h =>
        obtain ⟨front, hfront⟩ := List.getLast?_eq_some_iff.mp h.2
        rw [hfront, List.dropLast_concat, List.filterMap_append, List.filterMap_cons_none hread]
        simp
    · rfl

theorem ended_or_getLast (current : List Char) :
    trailingNewline current = true ∨
      strippedLines current ≠ [] ∧ (strippedLines current).getLast? ≠ some [] := by
  cases hended : trailingNewline current with
  | true => exact Or.inl rfl
  | false =>
      have hparts := hended
      simp only [trailingNewline, Bool.or_eq_false_iff, decide_eq_false_iff_not] at hparts
      have hstripped : strippedLines current = splitLines current := by
        simp only [strippedLines, hparts.2, if_false, hended]
        simp
      rw [hstripped]
      exact Or.inr ⟨splitLines_ne_nil current, getLast?_splitLines hparts.2 hparts.1⟩

theorem readAssignment_nil : readAssignment [] = none := by
  decide

theorem readComment_nil : readComment [] = none := by
  decide

theorem lookup_eq (current key : List Char) :
    lookup current key = lastValue key (assignments (strippedLines current)) :=
  congrArg (lastValue key) (filterMap_strippedLines readAssignment_nil current).symm

theorem comments_eq (current : List Char) :
    comments (splitLines current) = comments (strippedLines current) :=
  (filterMap_strippedLines readComment_nil current).symm

end Texts

/-! ## Updates -/

section Updates

/-- What a value may be: no line end, number sign or quote in it, no white space around it. -/
structure IsValue (value : List Char) : Prop where
  plain : IsPlain value
  tight : IsTight value
  newline : '\n' ∉ value

/-- No carriage return stands at the end of a line, other than the one of a newline. -/
def HasPlainEnds (current : List Char) : Prop :=
  ∀ line ∈ splitLines current, line.getLast? ≠ some '\r'

variable {key value current : List Char}

theorem isLine_of_mem_strippedLines
    {line : List Char}
    (hends : HasPlainEnds current)
    (hline : line ∈ strippedLines current) :
    IsLine line := by
  have hmem := mem_splitLines_of_mem_strippedLines hline
  exact ⟨newline_not_mem_splitLines hmem, hends line hmem⟩

theorem isLine_assignment (hkey : IsKey key) (hvalue : ∀ c ∈ value, isTerminator c = false) :
    IsLine (assignment key value) := by
  apply isLine_of_not_isTerminator
  rw [assignment, List.forall_mem_append, List.forall_mem_cons]
  exact ⟨fun c hc => not_isTerminator_of_isKeyChar (hkey.chars c hc), by decide, hvalue⟩

/-- The appended lines end with the assignment; the others are empty or the marker. -/
theorem block_eq (key value : List Char) (stripped : List (List Char)) :
    ∃ heading, block key value stripped = heading ++ [assignment key value] ∧
      ∀ line ∈ heading, line = [] ∨ line = marker := by
  refine ⟨_, rfl, ?_⟩
  rw [List.forall_mem_append]
  constructor
  · split <;> simp
  · split <;> simp

theorem passes_nil (key : List Char) : Passes key [] := by
  intro after h
  exact nomatch h

theorem splitAssignment_marker : splitAssignment marker = none := by
  decide

theorem passes_of_heading
    {heading : List (List Char)}
    (h : ∀ line ∈ heading, line = [] ∨ line = marker) :
    ∀ line ∈ heading, Passes key line := by
  intro line hline after hassigns
  obtain rfl | rfl := h line hline
  · exact nomatch hassigns
  · rw [splitAssignment_marker] at hassigns
    exact nomatch hassigns

theorem assignments_of_heading
    {heading : List (List Char)}
    (h : ∀ line ∈ heading, line = [] ∨ line = marker) :
    assignments heading = [] := by
  rw [assignments, List.filterMap_eq_nil_iff]
  intro line hline
  obtain rfl | rfl := h line hline
  · exact readAssignment_nil
  · rw [readAssignment, splitAssignment_marker, Option.map_none]

theorem lastValue_of_passes {lines : List (List Char)} (h : ∀ line ∈ lines, Passes key line) :
    lastValue key (assignments lines) = none := by
  have hnone : ((assignments lines).filter fun entry => entry.1 = key) = [] := by
    rw [List.filter_eq_nil_iff]
    intro entry hentry
    obtain ⟨line, hline, hread⟩ := List.mem_filterMap.mp hentry
    obtain ⟨found, hfound, rfl⟩ := Option.map_eq_some_iff.mp hread
    rw [decide_eq_true_eq]
    rintro rfl
    exact h line hline found.2 hfound
  rw [lastValue, hnone]
  rfl

/-- The new lines can be written and read back. -/
theorem nextLines_isLine
    (hkey : IsKey key)
    (hvalue : IsValue value)
    (hterm : ∀ c ∈ value, isTerminator c = false)
    (hends : HasPlainEnds current) :
    nextLines key value (strippedLines current) ≠ [] ∧
      (∀ line ∈ nextLines key value (strippedLines current), IsLine line) ∧
        (trailingNewline current = true ∨
          (nextLines key value (strippedLines current)).getLast? ≠ some []) := by
  have hold : ∀ line ∈ strippedLines current, IsLine line :=
    fun line hline => isLine_of_mem_strippedLines hends hline
  obtain hpasses | ⟨front, raw, back, after, hfirst⟩ := passes_or_first key (strippedLines current)
  · obtain ⟨heading, hblock, hheading⟩ := block_eq key value (strippedLines current)
    rw [nextLines_of_passes hpasses, hblock, ← List.append_assoc]
    refine ⟨by simp, ?_, Or.inr ?_⟩
    · rw [List.forall_mem_append, List.forall_mem_append, List.forall_mem_singleton]
      refine ⟨⟨hold, fun line hline => ?_⟩, isLine_assignment hkey hterm⟩
      obtain rfl | rfl := hheading line hline
      · simp [IsLine]
      · unfold IsLine
        decide
    · simp [assignment]
  · have hnew := patched_line hfirst.assigns hvalue.plain hvalue.tight hterm
    rw [nextLines_of_first hfirst, preserveTrailingComment_eq hfirst.assigns]
    refine ⟨by simp, ?_, ?_⟩
    · rw [hfirst.split, List.forall_mem_append, List.forall_mem_cons] at hold
      rw [List.forall_mem_append, List.forall_mem_cons]
      exact ⟨hold.1, hnew.2.2, hold.2.2⟩
    · obtain hended | ⟨-, hlast⟩ := ended_or_getLast current
      · exact Or.inl hended
      · right
        rw [hfirst.split] at hlast
        cases back with
        | nil => simp [assignment]
        | cons line rest => simpa using hlast

theorem strippedLines_nextText
    (hkey : IsKey key)
    (hvalue : IsValue value)
    (hterm : ∀ c ∈ value, isTerminator c = false)
    (hends : HasPlainEnds current) :
    strippedLines (nextText key value current) = nextLines key value (strippedLines current) ∧
      trailingNewline (nextText key value current) = trailingNewline current := by
  obtain ⟨hne, hlines, hlast⟩ := nextLines_isLine hkey hvalue hterm hends
  exact strippedLines_textOf hne hlines hlast

theorem readAssignment_assignment
    (hkey : IsKey key)
    (hvalue : IsValue value)
    (hterm : ∀ c ∈ value, isTerminator c = false) :
    splitAssignment (assignment key value) = some (key, value) ∧
      readAssignment (assignment key value) = some (key, value) := by
  have hassigns : splitAssignment (assignment key value) = some (key, value) := by
    rw [assignment, splitAssignment_key hkey, if_pos (by simpa using hterm)]
  have hread :=
    (readValue_append hvalue.plain hvalue.tight (List.forall_mem_nil _) (Or.inl rfl)).2
  rw [List.append_nil, List.append_nil] at hread
  exact ⟨hassigns, by rw [readAssignment, hassigns, Option.map_some, hread]⟩

theorem kept_of_isPlain (h : IsPlain value) : kept value = [] := by
  have hsplit := splitComment_plain h (Or.inl rfl)
  rw [List.append_nil] at hsplit
  rw [kept, hsplit]
  rfl

theorem isTerminator_of_lookup {text other found : List Char} (h : lookup text other = some found) :
    ∀ c ∈ found, isTerminator c = false := by
  obtain ⟨entry, hentry, rfl⟩ := Option.map_eq_some_iff.mp h
  have hmem := (List.mem_filter.mp (List.mem_of_getLast? hentry)).1
  obtain ⟨line, -, hread⟩ := List.mem_filterMap.mp hmem
  obtain ⟨⟨name, after⟩, hsplit, rfl⟩ := Option.map_eq_some_iff.mp hread
  intro c hc
  exact (splitAssignment_spec hsplit).2.1 c (mem_of_mem_readValue hc)

/-- What an update makes of a text whose lines do not assign the key. -/
theorem nextText_of_passes
    (hkey : IsKey key)
    (hvalue : IsValue value)
    (hterm : ∀ c ∈ value, isTerminator c = false)
    (hends : HasPlainEnds current)
    (hpasses : ∀ line ∈ strippedLines current, Passes key line) :
    lookup (nextText key value current) key = some value ∧
      (∀ other, other ≠ key → lookup (nextText key value current) other = lookup current other) ∧
      (comments (splitLines current)).Sublist
        (comments (splitLines (nextText key value current))) ∧
      nextText key value (nextText key value current) = nextText key value current := by
  obtain ⟨hlines, hended⟩ := strippedLines_nextText hkey hvalue hterm hends
  obtain ⟨heading, hblock, hheading⟩ := block_eq key value (strippedLines current)
  obtain ⟨hassigns, hread⟩ := readAssignment_assignment hkey hvalue hterm
  have hnext : nextLines key value (strippedLines current) =
      (strippedLines current ++ heading) ++ [assignment key value] := by
    rw [nextLines_of_passes hpasses, hblock, List.append_assoc]
  have hfound : assignments ((strippedLines current ++ heading) ++ [assignment key value]) =
      assignments (strippedLines current) ++ [(key, value)] := by
    have hnone := assignments_of_heading hheading
    rw [assignments] at hnone
    simp [assignments, List.filterMap_append, hnone, hread]
  refine ⟨?_, fun other hother => ?_, ?_, ?_⟩
  · rw [lookup_eq, hlines, hnext, hfound, lastValue_append]
    simp [lastValue]
  · rw [lookup_eq, lookup_eq, hlines, hnext, hfound, lastValue_append]
    simp [lastValue, hother.symm]
  · rw [comments_eq, comments_eq, hlines, hnext, List.append_assoc, comments, comments,
      List.filterMap_append]
    exact List.sublist_append_left _ _
  · have hfirst : FirstAssignment key (nextLines key value (strippedLines current))
        (strippedLines current ++ heading) (assignment key value) [] value :=
      ⟨hnext, List.forall_mem_append.mpr ⟨hpasses, passes_of_heading hheading⟩, hassigns⟩
    have hsecond : nextLines key value (nextLines key value (strippedLines current)) =
        nextLines key value (strippedLines current) := by
      rw [nextLines_of_first hfirst, preserveTrailingComment_eq hassigns,
        kept_of_isPlain hvalue.plain, List.append_nil, hnext]
    rw [nextText, hlines, hended, hsecond]
    rfl

section First

variable {front back : List (List Char)} {raw after : List Char}

/-- A later assignment of the key counts instead of the replaced one. -/
theorem lookup_of_first
    (hvalue : IsValue value)
    (hterm : ∀ c ∈ value, isTerminator c = false)
    (hends : HasPlainEnds current)
    (hfirst : FirstAssignment key (strippedLines current) front raw back after) :
    lookup (nextText key value current) key =
        ((lastValue key (assignments back)).or (some value)) ∧
      (∀ other, other ≠ key → lookup (nextText key value current) other = lookup current other) ∧
      comments (splitLines (nextText key value current)) = comments (splitLines current) := by
  have hkey := (splitAssignment_spec hfirst.assigns).1
  obtain ⟨hlines, -⟩ := strippedLines_nextText hkey hvalue hterm hends
  obtain ⟨hassigns, hcomment, -⟩ := patched_line hfirst.assigns hvalue.plain hvalue.tight hterm
  have hread : readAssignment (assignment key value ++ kept after) = some (key, value) := by
    rw [readAssignment, hassigns, Option.map_some,
      (splitComment_kept hvalue.plain hvalue.tight after).2]
  have hold : readAssignment raw = some (key, readValue after) := by
    rw [readAssignment, hfirst.assigns, Option.map_some]
  have hnext : nextLines key value (strippedLines current) =
      front ++ (assignment key value ++ kept after) :: back := by
    rw [nextLines_of_first hfirst, preserveTrailingComment_eq hfirst.assigns]
  have hnone := lastValue_of_passes hfirst.passes
  refine ⟨?_, fun other hother => ?_, ?_⟩
  · rw [lookup_eq, hlines, hnext, assignments, List.filterMap_append,
      List.filterMap_cons_some hread, ← assignments, lastValue_append, lastValue_cons, hnone,
      if_pos rfl, Option.or_none]
    rfl
  · rw [lookup_eq, lookup_eq, hlines, hnext, hfirst.split]
    simp only [assignments, List.filterMap_append, List.filterMap_cons_some hread,
      List.filterMap_cons_some hold, lastValue_append, lastValue_cons, if_neg hother.symm]
  · rw [comments_eq, comments_eq, hlines, hnext, hfirst.split]
    simp only [comments, List.filterMap_append, List.filterMap_cons, hcomment]

/-- The second update changes nothing else than the space in front of the comment. -/
theorem nextText_again_iff
    (hvalue : IsValue value)
    (hterm : ∀ c ∈ value, isTerminator c = false)
    (hends : HasPlainEnds current)
    (hfirst : FirstAssignment key (strippedLines current) front raw back after) :
    nextText key value (nextText key value current) = nextText key value current ↔
      ((splitComment false false after).2 ≠ [] →
        ((∀ c ∈ (splitComment false false after).1, c = ' ') ↔ value = [])) := by
  have hkey := (splitAssignment_spec hfirst.assigns).1
  obtain ⟨hlines, hended⟩ := strippedLines_nextText hkey hvalue hterm hends
  obtain ⟨hassigns, -, -⟩ := patched_line hfirst.assigns hvalue.plain hvalue.tight hterm
  have hnext : nextLines key value (strippedLines current) =
      front ++ (assignment key value ++ kept after) :: back := by
    rw [nextLines_of_first hfirst, preserveTrailingComment_eq hfirst.assigns]
  have hagain : FirstAssignment key (nextLines key value (strippedLines current)) front
      (assignment key value ++ kept after) back (value ++ kept after) :=
    ⟨hnext, hfirst.passes, hassigns⟩
  have hsecond : nextLines key value (nextLines key value (strippedLines current)) =
      front ++ (assignment key value ++ kept (value ++ kept after)) :: back := by
    rw [nextLines_of_first hagain, preserveTrailingComment_eq hassigns]
  rw [← kept_kept_iff hvalue.plain hvalue.tight after]
  constructor
  · intro h
    rw [nextText, hlines, hended, hsecond, nextText, hnext, textOf, textOf,
      List.append_cancel_right_eq] at h
    exact List.append_cancel_left (joinLines_middle_inj h)
  · intro h
    rw [nextText, hlines, hended, hsecond, h, ← hnext]
    rfl

end First

/-! ## The update of one variable -/

/-- The update gives the key the value, changes no other variable and takes away no comment;
made once more it changes nothing. -/
def UpdateSets (current key value : String) : Prop :=
  ∃ plan, planEnvFileUpdate ⟨current, key, value⟩ = .ok plan ∧
    lookup plan.next.toList key.toList = some value.toList ∧
    (∀ other, other ≠ key.toList →
      lookup plan.next.toList other = lookup current.toList other) ∧
    (comments (splitLines current.toList)).Sublist (comments (splitLines plan.next.toList)) ∧
    ∃ again, planEnvFileUpdate ⟨plan.next, key, value⟩ = .ok again ∧ again.next = plan.next

/-- No character of the value ends a line, no line behind the first assignment of the key
gives it another value, and something stands between the equals sign of that line and its
comment just when the value is not empty. -/
def Settable (current key value : List Char) : Prop :=
  (∀ c ∈ value, isTerminator c = false) ∧
    ∀ front raw back after, FirstAssignment key (strippedLines current) front raw back after →
      (lastValue key (assignments back) = none ∨
          lastValue key (assignments back) = some value) ∧
        ((splitComment false false after).2 ≠ [] →
          ((∀ c ∈ (splitComment false false after).1, c = ' ') ↔ value = []))

theorem updateSets_eq
    {current key value : String}
    (hkey : IsKey key.toList)
    (hvalue : IsValue value.toList) :
    UpdateSets current key value ↔
      (let next := nextText key.toList value.toList current.toList
      lookup next key.toList = some value.toList ∧
        (∀ other, other ≠ key.toList → lookup next other = lookup current.toList other) ∧
        (comments (splitLines current.toList)).Sublist (comments (splitLines next)) ∧
        nextText key.toList value.toList next = next) := by
  obtain ⟨plan, hplan, hnext⟩ := planEnvFileUpdate_eq hkey hvalue.newline current
  obtain ⟨again, hagain, htwice⟩ := planEnvFileUpdate_eq hkey hvalue.newline plan.next
  have hlist : plan.next.toList = nextText key.toList value.toList current.toList := by
    rw [hnext, String.toList_ofList]
  have hsame : again.next = plan.next ↔
      nextText key.toList value.toList plan.next.toList = plan.next.toList := by
    rw [htwice, ← String.toList_inj, String.toList_ofList]
  have hsets : UpdateSets current key value ↔
      (lookup plan.next.toList key.toList = some value.toList ∧
        (∀ other, other ≠ key.toList →
          lookup plan.next.toList other = lookup current.toList other) ∧
        (comments (splitLines current.toList)).Sublist
          (comments (splitLines plan.next.toList)) ∧
        again.next = plan.next) := by
    simp [UpdateSets, hplan, hagain]
  rw [hsets, hsame, hlist]

/-- An update sets exactly the one variable when no later line gives it another value and
the space in front of its comment is where the value wants it. -/
theorem updateSets_iff
    {current key value : String}
    (hkey : IsKey key.toList)
    (hvalue : IsValue value.toList)
    (hends : HasPlainEnds current.toList) :
    UpdateSets current key value ↔ Settable current.toList key.toList value.toList := by
  rw [updateSets_eq hkey hvalue]
  constructor
  · rintro ⟨hset, -, -, hagain⟩
    have hterm := isTerminator_of_lookup hset
    refine ⟨hterm, fun front raw back after hfirst => ⟨?_, ?_⟩⟩
    · rw [(lookup_of_first hvalue hterm hends hfirst).1] at hset
      cases hlater : lastValue key.toList (assignments back) with
      | none => exact Or.inl rfl
      | some later =>
          rw [hlater, Option.some_or] at hset
          exact Or.inr hset
    · exact (nextText_again_iff hvalue hterm hends hfirst).mp hagain
  · rintro ⟨hterm, hcond⟩
    obtain hpasses | ⟨front, raw, back, after, hfirst⟩ :=
      passes_or_first key.toList (strippedLines current.toList)
    · exact nextText_of_passes hkey hvalue hterm hends hpasses
    · obtain ⟨hlater, hspace⟩ := hcond front raw back after hfirst
      obtain ⟨hset, hothers, hcomments⟩ := lookup_of_first hvalue hterm hends hfirst
      refine ⟨?_, hothers, ?_, (nextText_again_iff hvalue hterm hends hfirst).mpr hspace⟩
      · rw [hset]
        obtain hlater | hlater := hlater <;> rw [hlater] <;> rfl
      · rw [hcomments]

theorem isKey_letter : IsKey "K".toList :=
  ⟨by decide, List.all_eq_true.mp (by decide)⟩

theorem isValue_of_isDigit {c : Char} (h : c.isDigit = true) : IsValue [c] := by
  have hblank := Number.not_isWhiteSpace_of_isDigit h
  have hplain : ∀ d, d.isDigit = false → d ≠ c := by
    rintro d hd rfl
    rw [hd] at h
    exact nomatch h
  refine ⟨?_, ⟨?_, ?_⟩, ?_⟩
  · intro d hd
    obtain rfl := List.mem_singleton.mp hd
    exact ⟨(hplain _ (by decide)).symm, (hplain _ (by decide)).symm, (hplain _ (by decide)).symm⟩
  · intro d hd
    rwa [← Option.some.inj hd]
  · intro d hd
    rwa [← Option.some.inj hd]
  · rw [List.mem_singleton]
    exact hplain _ (by decide)

/-- The comment stays behind the new value, and so does the quoted number sign above it. -/
theorem updateSets_commentedLine :
    UpdateSets "A=\"x # y\"\nK=1 # note\n" "K" "2" := by
  have hvalue : IsValue "2".toList := isValue_of_isDigit (by decide)
  have hends : HasPlainEnds "A=\"x # y\"\nK=1 # note\n".toList := by
    unfold HasPlainEnds
    decide
  have hlines : strippedLines "A=\"x # y\"\nK=1 # note\n".toList =
      ["A=\"x # y\"".toList, "K=1 # note".toList] := by
    decide
  refine (updateSets_iff isKey_letter hvalue hends).mpr ⟨by simp [isTerminator], ?_⟩
  rintro front raw back after ⟨hsplit, hpasses, hassigns⟩
  rw [hlines] at hsplit
  match front, hsplit with
  | [], hsplit =>
      obtain ⟨rfl, -⟩ := List.cons.inj hsplit
      have hother : splitAssignment "A=\"x # y\"".toList =
          some ("A".toList, "\"x # y\"".toList) := by
        decide
      rw [hother] at hassigns
      exact absurd (Prod.mk.inj (Option.some.inj hassigns)).1 (by decide)
  | [_], hsplit =>
      obtain ⟨-, htail⟩ := List.cons.inj hsplit
      obtain ⟨rfl, rfl⟩ := List.cons.inj htail
      have hafter : splitAssignment "K=1 # note".toList = some ("K".toList, "1 # note".toList) := by
        decide
      rw [hafter] at hassigns
      obtain ⟨-, rfl⟩ := Prod.mk.inj (Option.some.inj hassigns)
      have hcomment : splitComment false false "1 # note".toList =
          ("1 ".toList, "# note".toList) := by
        decide
      rw [hcomment]
      exact ⟨Or.inl rfl, fun _ => by simp⟩
  | _ :: _ :: _, hsplit => exact absurd (congrArg List.length hsplit) (by simp)

/-- The first of two assignments is replaced, and the second one still counts. -/
theorem not_updateSets_repeatedKey : ¬ UpdateSets "K=1\nK=2\n" "K" "3" := by
  have hvalue : IsValue "3".toList := isValue_of_isDigit (by decide)
  rw [updateSets_eq isKey_letter hvalue]
  rintro ⟨hset, -⟩
  exact absurd hset (by decide)

end Updates

end EnvFileUpdate
end Core
end NestBase
