import Mathlib.Data.List.TakeWhile
import Mathlib.Logic.Function.Basic
import NestBase.Lib.Text

/-!
# Patches in the unified format

A file is a list of lines.  Every line ends with a newline, except that the
last one may lack it; an empty file has no line.  A patch names a file by a
line `--- a/path` and a line `+++ b/path`, which end at a tab, and then lists
hunks.  A hunk says which range of the old and of the new file it covers, and
its lines are marked as context, removed or added.  The line
`\ No newline at end of file` says of the line before it that it lacks its
newline.  What stands between the files of a patch is passed over.

A hunk applies when its old side stands at its old range.  A patch applies when
all its hunks do.
-/

namespace NestBase
namespace Lib
namespace UnifiedDiff

section Files

structure Line where
  text : List Char
  ended : Bool
deriving DecidableEq

/-- What stands behind the last newline is a line when it is not empty. -/
def lastLine (text : List Char) : List Line :=
  if text = [] then [] else [⟨text, false⟩]

def fileLines (content : String) : List Line :=
  let parts := content.toList.splitOn '\n'
  parts.dropLast.map (⟨·, true⟩) ++ lastLine (parts.getLast?.getD [])

def lineText (line : Line) : List Char :=
  if line.ended then line.text ++ ['\n'] else line.text

def fileText (lines : List Line) : String :=
  String.ofList (lines.flatMap lineText)

end Files

section Patches

inductive Mark where
  | context
  | removed
  | added
deriving DecidableEq

structure Hunk where
  oldStart : Nat
  oldCount : Nat
  newStart : Nat
  newCount : Nat
  lines : List (Mark × Line)
deriving DecidableEq

def Hunk.oldSide (hunk : Hunk) : List Line :=
  (hunk.lines.filter fun line => line.1 ≠ .added).map Prod.snd

def Hunk.newSide (hunk : Hunk) : List Line :=
  (hunk.lines.filter fun line => line.1 ≠ .removed).map Prod.snd

/-- The number of old lines in front of the hunk.  An empty range names the line before it. -/
def Hunk.before (hunk : Hunk) : Nat :=
  if hunk.oldCount = 0 then hunk.oldStart else hunk.oldStart - 1

structure FileDiff where
  oldPath : List Char
  newPath : List Char
  hunks : List Hunk
deriving DecidableEq

/-- The hunks are applied from the first to the last; `passed` old lines lie behind. -/
def applyHunks (passed : Nat) (rest : List Line) : List Hunk → Option (List Line)
  | [] => some rest
  | hunk :: hunks =>
      let skip := hunk.before - passed
      if passed ≤ hunk.before ∧ skip ≤ rest.length ∧ hunk.oldSide <+: rest.drop skip then
        (applyHunks (hunk.before + hunk.oldSide.length)
          (rest.drop (skip + hunk.oldSide.length)) hunks).map fun later =>
            rest.take skip ++ hunk.newSide ++ later
      else none

/-- The files of a working tree. -/
abbrev Tree : Type := String → Option String

def applyFile (tree : Tree) (diff : FileDiff) : Option Tree :=
  if diff.oldPath = diff.newPath then do
    let content ← tree (String.ofList diff.newPath)
    let lines ← applyHunks 0 (fileLines content) diff.hunks
    return Function.update tree (String.ofList diff.newPath) (some (fileText lines))
  else none

def applyFiles (tree : Tree) (diffs : List FileDiff) : Option Tree :=
  diffs.foldlM applyFile tree

end Patches

section Reading

def readNumber (digits : List Char) : Option Nat :=
  if digits ≠ [] ∧ digits.all Char.isDigit = true then some (Nat.ofDigitChars 10 digits 0) else none

/-- A range without a count covers one line. -/
def readRange (text : List Char) : Option (Nat × Nat) :=
  match text.splitOn ',' with
  | [start] => (readNumber start).map fun start => (start, 1)
  | [start, count] => do
      let start ← readNumber start
      let count ← readNumber count
      return (start, count)
  | _ => none

/-- `@@ -start,count +start,count @@` -/
def readHeader (line : List Char) : Option Hunk :=
  match line.splitOn ' ' with
  | ['@', '@'] :: ('-' :: old) :: ('+' :: new) :: ['@', '@'] :: _ => do
      let (oldStart, oldCount) ← readRange old
      let (newStart, newCount) ← readRange new
      return { oldStart, oldCount, newStart, newCount, lines := [] }
  | _ => none

def oldName : List Char := ['-', '-', '-', ' ', 'a', '/']

def newName : List Char := ['+', '+', '+', ' ', 'b', '/']

/-- A name ends at a tab. -/
def readName (mark line : List Char) : Option (List Char) :=
  if mark <+: line then some ((line.drop mark.length).takeWhile fun c => c ≠ '\t') else none

inductive Phase where
  | outside
  | named (oldPath : List Char)
  | file (diff : FileDiff)
  /-- `old` and `new` lines of the hunk are still to come. -/
  | hunk (diff : FileDiff) (hunk : Hunk) (old new : Nat)

structure Reader where
  done : List FileDiff
  phase : Phase

def stepOutside (done : List FileDiff) (line : List Char) : Reader :=
  match readName oldName line with
  | some path => ⟨done, .named path⟩
  | none => ⟨done, .outside⟩

def stepFile (done : List FileDiff) (diff : FileDiff) (line : List Char) : Reader :=
  match readHeader line with
  | some hunk => ⟨done, .hunk diff hunk hunk.oldCount hunk.newCount⟩
  | none => stepOutside (done ++ [diff]) line

def Hunk.push (hunk : Hunk) (mark : Mark) (text : List Char) : Hunk :=
  { hunk with lines := hunk.lines ++ [(mark, ⟨text, true⟩)] }

/-- The line read last has no newline. -/
def Hunk.dropNewline (hunk : Hunk) : Hunk :=
  { hunk with lines := hunk.lines.modifyLast fun line => (line.1, ⟨line.2.text, false⟩) }

def FileDiff.close (diff : FileDiff) (hunk : Hunk) : FileDiff :=
  { diff with hunks := diff.hunks ++ [hunk] }

/-- A hunk line; `none` when the patch is corrupt. -/
def stepHunk (done : List FileDiff) (diff : FileDiff) (hunk : Hunk) (old new : Nat)
    (line : List Char) : Option Reader :=
  match line, old, new with
  | '\\' :: _, old, new => some ⟨done, .hunk diff hunk.dropNewline old new⟩
  | line, 0, 0 => some (stepFile done (diff.close hunk) line)
  | ' ' :: text, old + 1, new + 1 => some ⟨done, .hunk diff (hunk.push .context text) old new⟩
  | '-' :: text, old + 1, new => some ⟨done, .hunk diff (hunk.push .removed text) old new⟩
  | '+' :: text, old, new + 1 => some ⟨done, .hunk diff (hunk.push .added text) old new⟩
  | _, _, _ => none

def Reader.step (reader : Reader) (line : List Char) : Option Reader :=
  match reader.phase with
  | .outside => some (stepOutside reader.done line)
  | .named oldPath =>
      match readName newName line with
      | some newPath => some ⟨reader.done, .file ⟨oldPath, newPath, []⟩⟩
      | none => some (stepOutside reader.done line)
  | .file diff => some (stepFile reader.done diff line)
  | .hunk diff hunk old new => stepHunk reader.done diff hunk old new line

def Reader.finish (reader : Reader) : Option (List FileDiff) :=
  match reader.phase with
  | .outside => some reader.done
  | .named _ => some reader.done
  | .file diff => some (reader.done ++ [diff])
  | .hunk diff hunk old new =>
      if old = 0 ∧ new = 0 then some (reader.done ++ [diff.close hunk]) else none

def readPatch (text : String) : Option (List FileDiff) :=
  ((text.toList.splitOn '\n').foldlM Reader.step ⟨[], .outside⟩).bind Reader.finish

def applyPatch (text : String) (tree : Tree) : Option Tree :=
  (readPatch text).bind (applyFiles tree)

end Reading

section Names

/-- A name that a line of a patch can hold. -/
def PlainName (path : List Char) : Prop :=
  '\n' ∉ path ∧ '\t' ∉ path

theorem readName_append {path : List Char} (mark : List Char) (htab : '\t' ∉ path) :
    readName mark (mark ++ path) = some path := by
  unfold readName
  rw [if_pos (List.prefix_append _ _), List.drop_left, List.takeWhile_eq_self_iff.mpr]
  intro c hc
  exact decide_eq_true fun h => htab (h ▸ hc)

theorem plainName_of_readName
    {mark line path : List Char}
    (hline : '\n' ∉ line)
    (h : readName mark line = some path) :
    PlainName path := by
  unfold readName at h
  split at h
  · obtain rfl := Option.some.inj h
    constructor
    · intro hmem
      exact hline (List.mem_of_mem_drop (List.takeWhile_subset _ hmem))
    · intro hmem
      simpa using List.mem_takeWhile_imp hmem
  · exact nomatch h

def Phase.diffs : Phase → List FileDiff
  | .outside => []
  | .named _ => []
  | .file diff => [diff]
  | .hunk diff _ _ _ => [diff]

/-- Every file read so far is named by a line. -/
def Reader.Plain (reader : Reader) : Prop :=
  ∀ diff ∈ reader.done ++ reader.phase.diffs, PlainName diff.newPath

theorem stepOutside_done (done : List FileDiff) (line : List Char) :
    (stepOutside done line).done = done ∧ (stepOutside done line).phase.diffs = [] := by
  unfold stepOutside
  split <;> exact ⟨rfl, rfl⟩

/-- A line outside a hunk keeps the files and opens no other. -/
theorem stepFile_spec (done : List FileDiff) (diff : FileDiff) (line : List Char) :
    done <+: (stepFile done diff line).done ∧
      (stepFile done diff line).done ++ (stepFile done diff line).phase.diffs = done ++ [diff] := by
  unfold stepFile
  split
  · exact ⟨List.prefix_rfl, rfl⟩
  · obtain ⟨hdone, hdiffs⟩ := stepOutside_done (done ++ [diff]) line
    rw [hdone, hdiffs, List.append_nil]
    exact ⟨List.prefix_append _ _, rfl⟩

/-- A line of a hunk keeps the files and opens no other. -/
theorem stepHunk_spec
    {done : List FileDiff} {diff : FileDiff} {hunk : Hunk} {old new : Nat} {line : List Char}
    {next : Reader}
    (h : stepHunk done diff hunk old new line = some next) :
    done <+: next.done ∧
      ∃ diff', diff'.newPath = diff.newPath ∧ next.done ++ next.phase.diffs = done ++ [diff'] := by
  have hopen : ∀ (hunk' : Hunk) (old' new' : Nat),
      next = ⟨done, .hunk diff hunk' old' new'⟩ →
      done <+: next.done ∧
        ∃ diff', diff'.newPath = diff.newPath ∧
          next.done ++ next.phase.diffs = done ++ [diff'] := by
    rintro hunk' old' new' rfl
    exact ⟨List.prefix_rfl, diff, rfl, rfl⟩
  unfold stepHunk at h
  split at h
  · exact hopen _ _ _ (Option.some.inj h).symm
  · have hspec := stepFile_spec done (diff.close hunk) line
    rw [Option.some.inj h] at hspec
    exact ⟨hspec.1, diff.close hunk, rfl, hspec.2⟩
  · exact hopen _ _ _ (Option.some.inj h).symm
  · exact hopen _ _ _ (Option.some.inj h).symm
  · exact hopen _ _ _ (Option.some.inj h).symm
  · exact nomatch h

/-- What one line of a patch can do. -/
theorem step_spec
    {reader next : Reader} {line : List Char}
    (hline : '\n' ∉ line)
    (hplain : reader.Plain)
    (h : reader.step line = some next) :
    reader.done <+: next.done ∧ next.Plain := by
  obtain ⟨done, phase⟩ := reader
  have hold : ∀ diff ∈ done, PlainName diff.newPath :=
    fun diff hdiff => hplain diff (List.mem_append_left _ hdiff)
  have houtside : done <+: (stepOutside done line).done ∧ (stepOutside done line).Plain := by
    obtain ⟨hdone, hdiffs⟩ := stepOutside_done done line
    rw [Reader.Plain, hdone, hdiffs, List.append_nil]
    exact ⟨List.prefix_rfl, hold⟩
  cases phase with
  | outside =>
      obtain rfl := Option.some.inj h
      exact houtside
  | named oldPath =>
      cases hname : readName newName line with
      | none =>
          simp only [Reader.step, hname, Option.some.injEq] at h
          subst h
          exact houtside
      | some newPath =>
          simp only [Reader.step, hname, Option.some.injEq] at h
          subst h
          refine ⟨List.prefix_rfl, fun diff hdiff => ?_⟩
          obtain hdiff | hdiff := List.mem_append.mp hdiff
          · exact hold diff hdiff
          · rw [List.mem_singleton.mp hdiff]
            exact plainName_of_readName hline hname
  | file diff =>
      obtain rfl := Option.some.inj h
      obtain ⟨hdone, hsame⟩ := stepFile_spec done diff line
      refine ⟨hdone, ?_⟩
      unfold Reader.Plain
      rw [hsame]
      exact hplain
  | hunk diff hunk old new =>
      obtain ⟨hdone, diff', hpath, hsame⟩ := stepHunk_spec h
      refine ⟨hdone, fun other hother => ?_⟩
      rw [hsame] at hother
      obtain hother | hother := List.mem_append.mp hother
      · exact hplain other (List.mem_append_left _ hother)
      · rw [List.mem_singleton.mp hother, hpath]
        exact hplain diff (List.mem_append_right _ (by simp [Phase.diffs]))

theorem run_spec
    {lines : List (List Char)} {reader next : Reader}
    (hlines : ∀ line ∈ lines, '\n' ∉ line)
    (hplain : reader.Plain)
    (h : lines.foldlM Reader.step reader = some next) :
    reader.done <+: next.done ∧ next.Plain := by
  induction lines generalizing reader with
  | nil =>
      obtain rfl := Option.some.inj h
      exact ⟨List.prefix_rfl, hplain⟩
  | cons line rest ih =>
      rw [List.foldlM_cons] at h
      obtain ⟨middle, hstep, hrest⟩ := Option.bind_eq_some_iff.mp h
      obtain ⟨hfirst, hmiddle⟩ := step_spec (hlines line (by simp)) hplain hstep
      obtain ⟨hlater, hnext⟩ :=
        ih (fun line hline => hlines line (List.mem_cons_of_mem _ hline)) hmiddle hrest
      exact ⟨hfirst.trans hlater, hnext⟩

theorem finish_spec
    {reader : Reader} {diffs : List FileDiff}
    (hplain : reader.Plain)
    (h : reader.finish = some diffs) :
    reader.done <+: diffs ∧ ∀ diff ∈ diffs, PlainName diff.newPath := by
  obtain ⟨done, phase⟩ := reader
  have hdone : ∀ diff ∈ done, PlainName diff.newPath :=
    fun diff hdiff => hplain diff (List.mem_append_left _ hdiff)
  cases phase with
  | outside =>
      obtain rfl := Option.some.inj h
      exact ⟨List.prefix_rfl, hdone⟩
  | named oldPath =>
      obtain rfl := Option.some.inj h
      exact ⟨List.prefix_rfl, hdone⟩
  | file diff =>
      obtain rfl := Option.some.inj h
      exact ⟨List.prefix_append _ _, hplain⟩
  | hunk diff hunk old new =>
      simp only [Reader.finish] at h
      split at h
      · obtain rfl := Option.some.inj h
        refine ⟨List.prefix_append _ _, fun other hother => ?_⟩
        obtain hother | hother := List.mem_append.mp hother
        · exact hdone other hother
        · rw [List.mem_singleton.mp hother]
          exact hplain diff (List.mem_append_right _ (by simp [Phase.diffs]))
      · exact nomatch h

/-- Only files that a line can name are patched. -/
theorem plainName_of_readPatch
    {text : String} {diffs : List FileDiff}
    (h : readPatch text = some diffs) :
    ∀ diff ∈ diffs, PlainName diff.newPath := by
  obtain ⟨reader, hrun, hfinish⟩ := Option.bind_eq_some_iff.mp h
  have hstart : Reader.Plain ⟨[], .outside⟩ := by
    intro diff hdiff
    exact absurd hdiff (List.not_mem_nil)
  exact (finish_spec (run_spec (fun _ => Text.not_mem_of_mem_splitOn) hstart hrun).2 hfinish).2

/-- The files of a first part of the patch are the first that are read. -/
theorem prefix_of_readPatch
    {text : String} {first rest : List (List Char)} {reader : Reader} {diffs : List FileDiff}
    (hlines : text.toList.splitOn '\n' = first ++ rest)
    (hfirst : first.foldlM Reader.step ⟨[], .outside⟩ = some reader)
    (h : readPatch text = some diffs) :
    reader.done <+: diffs := by
  obtain ⟨last, hrun, hfinish⟩ := Option.bind_eq_some_iff.mp h
  have hplain : ∀ line ∈ first ++ rest, '\n' ∉ line := by
    intro line hline
    exact Text.not_mem_of_mem_splitOn (hlines ▸ hline)
  have hstart : Reader.Plain ⟨[], .outside⟩ := by
    intro diff hdiff
    exact absurd hdiff (List.not_mem_nil)
  rw [hlines, List.foldlM_append, hfirst] at hrun
  have hreader := run_spec (fun line hline => hplain line (List.mem_append_left _ hline))
    hstart hfirst
  have hlast := run_spec (fun line hline => hplain line (List.mem_append_right _ hline))
    hreader.2 hrun
  exact hlast.1.trans (finish_spec hlast.2 hfinish).1

end Names

section Writing

def digits (n : Nat) : List Char :=
  (toString n).toList

def rangeText (start count : Nat) : List Char :=
  digits start ++ ',' :: digits count

def headerText (oldStart oldCount newStart newCount : Nat) : List Char :=
  ['@', '@'] ++ ' ' :: ('-' :: rangeText oldStart oldCount ++ ' ' ::
    ('+' :: rangeText newStart newCount ++ ' ' :: ['@', '@']))

theorem not_mem_digits {c : Char} (hc : c.isDigit = false) (n : Nat) : c ∉ digits n := by
  intro hmem
  rw [Text.isDigit_of_mem_toString hmem] at hc
  exact nomatch hc

theorem readNumber_digits (n : Nat) : readNumber (digits n) = some n := by
  unfold readNumber digits
  rw [if_pos ⟨Text.toString_ne_nil n, Text.all_isDigit_toString n⟩, Text.ofDigitChars_toString]

theorem readRange_rangeText (start count : Nat) :
    readRange (rangeText start count) = some (start, count) := by
  unfold readRange rangeText
  rw [List.splitOn_append_cons_self_of_not_mem (not_mem_digits (by decide) _),
    List.splitOn_eq_singleton (not_mem_digits (by decide) _)]
  simp [readNumber_digits]

theorem not_mem_rangeText
    {c : Char}
    (hc : c.isDigit = false)
    (hcomma : c ≠ ',')
    (start count : Nat) :
    c ∉ rangeText start count := by
  simp [rangeText, not_mem_digits hc, hcomma]

theorem readHeader_headerText (oldStart oldCount newStart newCount : Nat) :
    readHeader (headerText oldStart oldCount newStart newCount) =
      some ⟨oldStart, oldCount, newStart, newCount, []⟩ := by
  have hrange : ∀ start count, ' ' ∉ rangeText start count :=
    not_mem_rangeText (by decide) (by decide)
  unfold readHeader headerText
  rw [List.splitOn_append_cons_self_of_not_mem (by decide),
    List.splitOn_append_cons_self_of_not_mem (by simp [hrange]),
    List.splitOn_append_cons_self_of_not_mem (by simp [hrange]),
    List.splitOn_eq_singleton (by decide)]
  simp [readRange_rangeText]

theorem newline_not_mem_headerText (oldStart oldCount newStart newCount : Nat) :
    '\n' ∉ headerText oldStart oldCount newStart newCount := by
  have hrange : ∀ start count, '\n' ∉ rangeText start count :=
    not_mem_rangeText (by decide) (by decide)
  simp [headerText, hrange]

def Hunk.pushAll (hunk : Hunk) (mark : Mark) (texts : List (List Char)) : Hunk :=
  { hunk with lines := hunk.lines ++ texts.map fun text => (mark, ⟨text, true⟩) }

theorem Hunk.pushAll_cons
    (hunk : Hunk)
    (mark : Mark)
    (text : List Char)
    (texts : List (List Char)) :
    hunk.pushAll mark (text :: texts) = (hunk.push mark text).pushAll mark texts := by
  simp [pushAll, push]

theorem foldlM_removed
    (done : List FileDiff)
    (diff : FileDiff)
    (hunk : Hunk)
    (texts : List (List Char))
    (new : Nat) :
    (texts.map ('-' :: ·)).foldlM Reader.step ⟨done, .hunk diff hunk texts.length new⟩ =
      some ⟨done, .hunk diff (hunk.pushAll .removed texts) 0 new⟩ := by
  induction texts generalizing hunk with
  | nil => simp [Hunk.pushAll]
  | cons text rest ih =>
      rw [Hunk.pushAll_cons, ← ih]
      rfl

theorem foldlM_added
    (done : List FileDiff)
    (diff : FileDiff)
    (hunk : Hunk)
    (texts : List (List Char)) :
    (texts.map ('+' :: ·)).foldlM Reader.step ⟨done, .hunk diff hunk 0 texts.length⟩ =
      some ⟨done, .hunk diff (hunk.pushAll .added texts) 0 0⟩ := by
  induction texts generalizing hunk with
  | nil => simp [Hunk.pushAll]
  | cons text rest ih =>
      rw [Hunk.pushAll_cons, ← ih]
      rfl

/-- The hunk that replaces some lines by others. -/
def replacement (removed added : List (List Char)) : Hunk :=
  ((⟨1, removed.length, 1, added.length, []⟩ : Hunk).pushAll .removed removed).pushAll .added added

/-- A file diff of one replacement, without its last newline. -/
def replacementLines (path : List Char) (removed added : List (List Char)) : List (List Char) :=
  [oldName ++ path, newName ++ path, headerText 1 removed.length 1 added.length] ++
    removed.map ('-' :: ·) ++ added.map ('+' :: ·)

/-- The diff of one replacement is read back, when an empty line follows it. -/
theorem foldlM_replacementLines
    {path : List Char}
    (htab : '\t' ∉ path)
    (done : List FileDiff)
    (removed added : List (List Char)) :
    (replacementLines path removed added ++ [[]]).foldlM Reader.step ⟨done, .outside⟩ =
      some ⟨done ++ [⟨path, path, [replacement removed added]⟩], .outside⟩ := by
  have hold : Reader.step ⟨done, .outside⟩ (oldName ++ path) = some ⟨done, .named path⟩ := by
    simp only [Reader.step, stepOutside, readName_append oldName htab]
  have hnew : Reader.step ⟨done, .named path⟩ (newName ++ path) =
      some ⟨done, .file ⟨path, path, []⟩⟩ := by
    simp only [Reader.step, readName_append newName htab]
  have hheader : Reader.step ⟨done, .file ⟨path, path, []⟩⟩
      (headerText 1 removed.length 1 added.length) =
        some ⟨done, .hunk ⟨path, path, []⟩ ⟨1, removed.length, 1, added.length, []⟩
          removed.length added.length⟩ := by
    simp only [Reader.step, stepFile, readHeader_headerText]
  unfold replacementLines
  simp only [List.foldlM_append, List.foldlM_cons, List.foldlM_nil, hold, hnew, hheader,
    Option.bind_eq_bind, Option.bind_some, Option.pure_def, foldlM_removed, foldlM_added]
  rfl

/-- All lines of a replacement's old side end with a newline. -/
theorem countP_oldSide_replacement (removed added : List (List Char)) :
    (replacement removed added).oldSide.countP Line.ended = removed.length := by
  have hadded : (added.map fun text => (Mark.added, (⟨text, true⟩ : Line))).filter
      (fun line => line.1 ≠ .added) = [] := by
    rw [List.filter_eq_nil_iff]
    simp
  have hremoved : (removed.map fun text => (Mark.removed, (⟨text, true⟩ : Line))).filter
      (fun line => line.1 ≠ .added) = removed.map fun text => (Mark.removed, ⟨text, true⟩) := by
    rw [List.filter_eq_self]
    simp
  have hended : ∀ line ∈ (replacement removed added).oldSide, line.ended = true := by
    simp [Hunk.oldSide, replacement, Hunk.pushAll]
  rw [List.countP_eq_length.mpr hended]
  simp only [Hunk.oldSide, replacement, Hunk.pushAll, List.nil_append, List.filter_append, hadded,
    hremoved, List.append_nil, List.length_map]

end Writing

section Applying

theorem applyFile_other
    {tree next : Tree} {diff : FileDiff} {path : String}
    (hother : path ≠ String.ofList diff.newPath)
    (h : applyFile tree diff = some next) :
    next path = tree path := by
  unfold applyFile at h
  split at h
  · obtain ⟨content, -, h⟩ := Option.bind_eq_some_iff.mp h
    obtain ⟨lines, -, h⟩ := Option.bind_eq_some_iff.mp h
    obtain rfl := Option.some.inj h
    exact Function.update_of_ne hother _ _
  · exact nomatch h

/-- A file that the patch does not name is kept. -/
theorem applyFiles_other
    {tree next : Tree} {diffs : List FileDiff} {path : String}
    (hother : ∀ diff ∈ diffs, path ≠ String.ofList diff.newPath)
    (h : applyFiles tree diffs = some next) :
    next path = tree path := by
  induction diffs generalizing tree with
  | nil =>
      obtain rfl := Option.some.inj h
      rfl
  | cons diff rest ih =>
      rw [applyFiles, List.foldlM_cons] at h
      obtain ⟨middle, hfirst, hrest⟩ := Option.bind_eq_some_iff.mp h
      rw [ih (fun diff hdiff => hother diff (List.mem_cons_of_mem _ hdiff)) hrest,
        applyFile_other (hother diff (by simp)) hfirst]

theorem applyPatch_other
    {text : String} {tree next : Tree} {path : String}
    (hpath : ¬ PlainName path.toList)
    (h : applyPatch text tree = some next) :
    next path = tree path := by
  obtain ⟨diffs, hread, happly⟩ := Option.bind_eq_some_iff.mp h
  refine applyFiles_other (fun diff hdiff hsame => hpath ?_) happly
  rw [hsame, String.toList_ofList]
  exact plainName_of_readPatch hread diff hdiff

/-- The number of lines that end with a newline. -/
theorem countP_fileLines (content : String) :
    (fileLines content).countP Line.ended + 1 = (content.toList.splitOn '\n').length := by
  have hne := List.splitOn_ne_nil '\n' content.toList
  have hlast : ∀ text, (lastLine text).countP Line.ended = 0 := by
    intro text
    unfold lastLine
    split <;> rfl
  have hall : ∀ parts : List (List Char),
      (parts.map fun text => (⟨text, true⟩ : Line)).countP Line.ended = parts.length := by
    intro parts
    induction parts with
    | nil => rfl
    | cons part parts ih => rw [List.map_cons, List.countP_cons_of_pos rfl, ih, List.length_cons]
  have hlength : 0 < (content.toList.splitOn '\n').length := List.length_pos_iff.mpr hne
  rw [fileLines, List.countP_append, hlast, hall, List.length_dropLast]
  omega

/-- A hunk whose old side has more ended lines than the file does not apply. -/
theorem applyHunks_eq_none
    {rest : List Line} {hunk : Hunk} {hunks : List Hunk} {passed : Nat}
    (hmore : rest.countP Line.ended < hunk.oldSide.countP Line.ended) :
    applyHunks passed rest (hunk :: hunks) = none := by
  rw [applyHunks]
  refine if_neg ?_
  rintro ⟨-, -, hbegins⟩
  have hle := (hbegins.sublist.trans (List.drop_sublist _ _)).countP_le (p := Line.ended)
  omega

end Applying

end UnifiedDiff
end Lib
end NestBase
