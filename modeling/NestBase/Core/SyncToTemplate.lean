import NestBase.Lib.OrderedMap
import NestBase.Lib.UnifiedDiff
import NestBase.Lib.Unicode

/-!
# The patch back to the template

`planSyncToTemplate` compares the local tree with a snapshot of the template's
`src/core/`.  A file of both trees whose contents differ is listed in `modify`
with a diff of one hunk, and `renderUnifiedPatch` joins these diffs.

The hunk removes every part of the old content between newlines.  A part stands
behind the last newline too, so the hunk removes one more ended line than the
file has, and it does not apply.
-/

namespace NestBase
namespace Core
namespace SyncToTemplate

open Lib Lib.OrderedMap

section Plan

def corePrefix : String := "src/core/"

structure SyncToTemplateInput where
  /-- `local` -/
  localTree : Record String String
  templateCore : Record String String

structure SyncFileEntry where
  path : String
  content : String

structure SyncFileModifyEntry extends SyncFileEntry where
  diff : String

structure Summary where
  add : Nat
  modify : Nat
  skip : Nat
  remove : Nat

structure SyncToTemplatePlan where
  add : List SyncFileEntry
  modify : List SyncFileModifyEntry
  skip : List String
  remove : List String

def SyncToTemplatePlan.summary (plan : SyncToTemplatePlan) : Summary where
  add := plan.add.length
  modify := plan.modify.length
  skip := plan.skip.length
  remove := plan.remove.length

inductive SyncError where
  | protectedPathTouched (path : String)

def SyncError.message : SyncError → String
  | .protectedPathTouched path =>
      "sync-to-template: refusing to read \"" ++ path ++ "\" — only src/core/ is in scope"

/-- `text.split("\n")` -/
def splitLines (text : String) : List String :=
  (text.toList.splitOn '\n').map String.ofList

def makeUnifiedDiff (path before after : String) : String :=
  let beforeLines := splitLines before
  let afterLines := splitLines after
  let lines :=
    ["--- a/" ++ path, "+++ b/" ++ path,
      "@@ -1," ++ toString beforeLines.length ++ " +1," ++ toString afterLines.length ++ " @@"] ++
      beforeLines.map (fun line => "-" ++ line) ++ afterLines.map (fun line => "+" ++ line)
  "\n".intercalate lines ++ "\n"

/-- One round of the loop over the local files. -/
def planLocal (input : SyncToTemplateInput) (plan : SyncToTemplatePlan) (path : String) :
    SyncToTemplatePlan :=
  if Text.startsWith path corePrefix then
    let localContent := (input.localTree.get path).getD ""
    match input.templateCore.get path with
    | none => { plan with add := plan.add ++ [⟨path, localContent⟩] }
    | some remoteContent =>
        if remoteContent = localContent then { plan with skip := plan.skip ++ [path] }
        else
          { plan with
            modify := plan.modify ++
              [⟨⟨path, localContent⟩, makeUnifiedDiff path remoteContent localContent⟩] }
  else plan

def planSyncToTemplate (input : SyncToTemplateInput) : Except SyncError SyncToTemplatePlan :=
  match input.templateCore.keys.find? fun path => !Text.startsWith path corePrefix with
  | some path => .error (.protectedPathTouched path)
  | none =>
      let plan := (Unicode.sortTexts input.localTree.keys).foldl (planLocal input) ⟨[], [], [], []⟩
      .ok
        { plan with
          remove := (Unicode.sortTexts input.templateCore.keys).filter fun path =>
            !input.localTree.keys.contains path }

def SyncToTemplatePlan.renderUnifiedPatch (plan : SyncToTemplatePlan) : String :=
  "\n".intercalate (plan.modify.map fun entry =>
    "diff --git a/" ++ entry.path ++ " b/" ++ entry.path ++ "\n" ++ entry.diff)

end Plan

section Modified

/-- The entry that a local file adds to `modify`. -/
def modifyEntry (input : SyncToTemplateInput) (path : String) : Option SyncFileModifyEntry :=
  if Text.startsWith path corePrefix then
    let localContent := (input.localTree.get path).getD ""
    match input.templateCore.get path with
    | none => none
    | some remoteContent =>
        if remoteContent = localContent then none
        else some ⟨⟨path, localContent⟩, makeUnifiedDiff path remoteContent localContent⟩
  else none

theorem modify_planLocal (input : SyncToTemplateInput) (plan : SyncToTemplatePlan) (path : String) :
    (planLocal input plan path).modify = plan.modify ++ (modifyEntry input path).toList := by
  unfold planLocal modifyEntry
  by_cases hcore : Text.startsWith path corePrefix = true
  · rw [if_pos hcore, if_pos hcore]
    cases input.templateCore.get path with
    | none => simp
    | some remoteContent =>
        by_cases hsame : remoteContent = (input.localTree.get path).getD ""
        · simp [hsame]
        · simp [hsame]
  · rw [if_neg hcore, if_neg hcore]
    simp

theorem modify_foldl
    (input : SyncToTemplateInput)
    (plan : SyncToTemplatePlan)
    (paths : List String) :
    (paths.foldl (planLocal input) plan).modify =
      plan.modify ++ paths.filterMap (modifyEntry input) := by
  induction paths generalizing plan with
  | nil => simp
  | cons path rest ih =>
      rw [List.foldl_cons, ih, modify_planLocal, List.append_assoc]
      cases hentry : modifyEntry input path with
      | none => simp [hentry]
      | some entry => simp [hentry]

/-- The template file `path` differs from the local one. -/
structure Drifts (input : SyncToTemplateInput) (path before after : String) : Prop where
  core : Text.startsWith path corePrefix = true
  after_eq : input.localTree.get path = some after
  before_eq : input.templateCore.get path = some before
  differ : before ≠ after

theorem modifyEntry_eq_some_iff
    {input : SyncToTemplateInput} {path : String}
    (hpath : path ∈ input.localTree.keys)
    {entry : SyncFileModifyEntry} :
    modifyEntry input path = some entry ↔
      ∃ before after, Drifts input path before after ∧
        entry = ⟨⟨path, after⟩, makeUnifiedDiff path before after⟩ := by
  have hlocal : ∃ after, input.localTree.get path = some after := by
    rw [← Option.ne_none_iff_exists', Ne, Record.get_eq_none_iff, not_not]
    exact hpath
  obtain ⟨after, hafter⟩ := hlocal
  constructor
  · intro h
    unfold modifyEntry at h
    by_cases hcore : Text.startsWith path corePrefix = true
    · rw [if_pos hcore, hafter] at h
      cases hbefore : input.templateCore.get path with
      | none =>
          rw [hbefore] at h
          exact nomatch h
      | some before =>
          rw [hbefore] at h
          by_cases hsame : before = after
          · simp [hsame] at h
          · simp only [Option.getD_some, hsame, if_false, Option.some.injEq] at h
            exact ⟨before, after, ⟨hcore, hafter, hbefore, hsame⟩, h.symm⟩
    · rw [if_neg hcore] at h
      exact nomatch h
  · rintro ⟨before, after', ⟨hcore, hafter', hbefore, hdiffer⟩, rfl⟩
    obtain rfl : after = after' := Option.some.inj (hafter.symm.trans hafter')
    simp [modifyEntry, hcore, hafter, hbefore, hdiffer]

theorem mem_modify_iff
    {input : SyncToTemplateInput} {plan : SyncToTemplatePlan}
    (hplan : planSyncToTemplate input = .ok plan)
    {entry : SyncFileModifyEntry} :
    entry ∈ plan.modify ↔
      ∃ path before after, Drifts input path before after ∧
        entry = ⟨⟨path, after⟩, makeUnifiedDiff path before after⟩ := by
  have hmodify :
      plan.modify = (Unicode.sortTexts input.localTree.keys).filterMap (modifyEntry input) := by
    unfold planSyncToTemplate at hplan
    split at hplan
    · exact nomatch hplan
    · obtain rfl := Except.ok.inj hplan
      exact modify_foldl input _ _
  rw [hmodify, List.mem_filterMap]
  constructor
  · rintro ⟨path, hpath, hentry⟩
    exact ⟨path, (modifyEntry_eq_some_iff ((Unicode.sortTexts_perm _).mem_iff.mp hpath)).mp hentry⟩
  · rintro ⟨path, before, after, hdrift, hentry⟩
    have hpath : path ∈ input.localTree.keys := by
      by_contra hnot
      have hnone := Record.get_eq_none_iff.mpr hnot
      rw [hdrift.after_eq] at hnone
      exact nomatch hnone
    exact ⟨path, (Unicode.sortTexts_perm _).mem_iff.mpr hpath,
      (modifyEntry_eq_some_iff hpath).mpr ⟨before, after, hdrift, hentry⟩⟩

end Modified

section Patch

open UnifiedDiff

/-- Applied to the snapshot, the patch gives every modified file its local content. -/
def PatchApplies (input : SyncToTemplateInput) (plan : SyncToTemplatePlan) : Prop :=
  ∃ patched, applyPatch plan.renderUnifiedPatch input.templateCore.get = some patched ∧
    (∀ entry ∈ plan.modify, patched entry.path = input.localTree.get entry.path) ∧
    ∀ path, (∀ entry ∈ plan.modify, entry.path ≠ path) →
      patched path = input.templateCore.get path

/-- The lines of a file diff, as the format writes them. -/
def diffLines (path before after : String) : List (List Char) :=
  replacementLines path.toList (before.toList.splitOn '\n') (after.toList.splitOn '\n')

theorem toList_makeUnifiedDiff (path before after : String) :
    (makeUnifiedDiff path before after).toList =
      ['\n'].intercalate (diffLines path before after) ++ ['\n'] := by
  have hlines : ∀ text, (splitLines text).length = (text.toList.splitOn '\n').length :=
    fun text => List.length_map _
  have hmark : ∀ (mark : String) (text : String),
      ((splitLines text).map fun line => mark ++ line).map String.toList =
        (text.toList.splitOn '\n').map fun line => mark.toList ++ line := by
    intro mark text
    simp [splitLines, Function.comp_def]
  have hheader : ∀ old new : Nat,
      ("@@ -1," ++ toString old ++ " +1," ++ toString new ++ " @@").toList =
        headerText 1 old 1 new := by
    intro old new
    have hone : Nat.toDigits 10 1 = ['1'] := Nat.toDigits_of_lt_base (by omega)
    simp [headerText, rangeText, digits, hone]
  have hparts :
      (["--- a/" ++ path, "+++ b/" ++ path,
        "@@ -1," ++ toString (splitLines before).length ++ " +1," ++
          toString (splitLines after).length ++ " @@"] ++
        (splitLines before).map (fun line => "-" ++ line) ++
          (splitLines after).map (fun line => "+" ++ line)).map String.toList =
      diffLines path before after := by
    rw [List.map_append, List.map_append, hmark, hmark, List.map_cons, List.map_cons,
      List.map_cons, hheader, hlines, hlines]
    simp [diffLines, replacementLines, oldName, newName]
  unfold makeUnifiedDiff
  simp only [String.toList_append, String.toList_intercalate, hparts]
  rfl

theorem newline_not_mem_diffLines
    {path : String}
    (hpath : PlainName path.toList)
    (before after : String) :
    ∀ line ∈ diffLines path before after, '\n' ∉ line := by
  have hmarked : ∀ (mark : Char) (text : String), mark ≠ '\n' →
      ∀ line ∈ (text.toList.splitOn '\n').map (mark :: ·), '\n' ∉ line := by
    intro mark text hmark line hline hmem
    obtain ⟨part, hpart, rfl⟩ := List.mem_map.mp hline
    obtain rfl | hmem := List.mem_cons.mp hmem
    · exact hmark rfl
    · exact Text.not_mem_of_mem_splitOn hpart hmem
  intro line hline
  unfold diffLines replacementLines at hline
  obtain (hhead | hremoved) | hadded := (List.mem_append.mp hline).imp_left List.mem_append.mp
  · simp only [List.mem_cons, List.not_mem_nil, or_false] at hhead
    obtain rfl | rfl | rfl := hhead
    · simp [oldName, hpath.1]
    · simp [newName, hpath.1]
    · exact newline_not_mem_headerText _ _ _ _
  · exact hmarked '-' before (by decide) line hremoved
  · exact hmarked '+' after (by decide) line hadded

/-- The lines of the patch begin with those of its first file. -/
theorem splitOn_renderUnifiedPatch
    {plan : SyncToTemplatePlan} {path before after : String} {entries : List SyncFileModifyEntry}
    (hmodify : plan.modify = ⟨⟨path, after⟩, makeUnifiedDiff path before after⟩ :: entries)
    (hpath : PlainName path.toList) :
    ∃ rest, plan.renderUnifiedPatch.toList.splitOn '\n' =
      (("diff --git a/" ++ path ++ " b/" ++ path).toList ::
        (diffLines path before after ++ [[]])) ++ rest := by
  have hplain := newline_not_mem_diffLines hpath before after
  have hhead : '\n' ∉ ("diff --git a/" ++ path ++ " b/" ++ path).toList := by
    simp [hpath.1]
  have hdiff : diffLines path before after ≠ [] := by
    simp [diffLines, replacementLines]
  have hmore : ∀ more : List Char,
      (("diff --git a/" ++ path ++ " b/" ++ path ++ "\n" ++
        makeUnifiedDiff path before after).toList ++ more).splitOn '\n' =
      ("diff --git a/" ++ path ++ " b/" ++ path).toList ::
        (diffLines path before after ++ more.splitOn '\n') := by
    intro more
    have htext : ("diff --git a/" ++ path ++ " b/" ++ path ++ "\n" ++
        makeUnifiedDiff path before after).toList ++ more =
          ("diff --git a/" ++ path ++ " b/" ++ path).toList ++ '\n' ::
            (['\n'].intercalate (diffLines path before after) ++ '\n' :: more) := by
      rw [String.toList_append, toList_makeUnifiedDiff]
      simp
    rw [htext, List.splitOn_append_cons_self_of_not_mem hhead, List.splitOn_append_cons_self,
      List.splitOn_intercalate '\n' hplain hdiff]
  unfold SyncToTemplatePlan.renderUnifiedPatch
  rw [hmodify, List.map_cons, String.toList_intercalate, List.map_cons]
  cases entries with
  | nil =>
      refine ⟨[], ?_⟩
      have hall := hmore []
      rw [List.append_nil, List.splitOn_nil] at hall
      rw [List.append_nil]
      simpa using hall
  | cons next entries =>
      have hsplit : ∀ more : List Char,
          ('\n' :: more).splitOn '\n' = [] :: more.splitOn '\n' := by
        intro more
        rw [← List.nil_append ('\n' :: more), List.splitOn_append_cons_self, List.splitOn_nil]
        rfl
      have hnewline : "\n".toList = ['\n'] := rfl
      rw [List.map_cons, List.map_cons, List.intercalate_cons_cons, List.append_assoc, hmore,
        hnewline, List.cons_append, hsplit]
      exact ⟨_, by rw [List.cons_append, List.append_assoc]; rfl⟩

variable {input : SyncToTemplateInput}

theorem patchApplies_of_modify_nil {plan : SyncToTemplatePlan} (hmodify : plan.modify = []) :
    PatchApplies input plan := by
  have hpatch : applyPatch plan.renderUnifiedPatch input.templateCore.get =
      some input.templateCore.get := by
    unfold SyncToTemplatePlan.renderUnifiedPatch
    rw [hmodify]
    rfl
  refine ⟨_, hpatch, fun entry hentry => ?_, fun path _ => rfl⟩
  rw [hmodify] at hentry
  exact absurd hentry List.not_mem_nil

theorem not_patchApplies_of_drifts
    {plan : SyncToTemplatePlan}
    (hplan : planSyncToTemplate input = .ok plan)
    {path before after : String}
    (hdrift : Drifts input path before after) :
    ¬ PatchApplies input plan := by
  rintro ⟨patched, happly, hmodified, -⟩
  -- A path that no line can hold keeps its old content.
  have hplain : ∀ entry ∈ plan.modify, PlainName entry.path.toList := by
    intro entry hentry
    by_contra hpath
    obtain ⟨path, before, after, hdrift, rfl⟩ := (mem_modify_iff hplan).mp hentry
    have hkept := applyPatch_other hpath happly
    rw [hmodified _ hentry, hdrift.after_eq, hdrift.before_eq, Option.some.injEq] at hkept
    exact hdrift.differ hkept.symm
  -- Otherwise the first diff is read, and its hunk does not stand in the file.
  have hsome := (mem_modify_iff hplan).mpr ⟨path, before, after, hdrift, rfl⟩
  obtain ⟨entry, entries, hmodify⟩ := List.exists_cons_of_ne_nil (List.ne_nil_of_mem hsome)
  have hentry : entry ∈ plan.modify := hmodify ▸ List.mem_cons_self
  have hpath := hplain entry hentry
  obtain ⟨path, before, after, hdrift, rfl⟩ := (mem_modify_iff hplan).mp hentry
  obtain ⟨rest, hlines⟩ := splitOn_renderUnifiedPatch hmodify hpath
  obtain ⟨diffs, hread, hfiles⟩ := Option.bind_eq_some_iff.mp happly
  have hgarbage : Reader.step ⟨[], .outside⟩ ("diff --git a/" ++ path ++ " b/" ++ path).toList =
      some ⟨[], .outside⟩ := by
    have hname : readName oldName ("diff --git a/" ++ path ++ " b/" ++ path).toList = none := by
      simp [readName, oldName]
    simp only [Reader.step, stepOutside, hname]
  have hfirst := prefix_of_readPatch hlines
    (by
      rw [List.foldlM_cons, hgarbage, Option.bind_eq_bind, Option.bind_some]
      exact foldlM_replacementLines hpath.2 [] _ _) hread
  obtain ⟨later, rfl⟩ := hfirst
  have hnone : applyFile input.templateCore.get
      ⟨path.toList, path.toList, [replacement (before.toList.splitOn '\n')
        (after.toList.splitOn '\n')]⟩ = none := by
    unfold applyFile
    rw [if_pos rfl, String.ofList_toList, hdrift.before_eq, Option.bind_eq_bind, Option.bind_some,
      applyHunks_eq_none]
    · rfl
    · rw [countP_oldSide_replacement, ← countP_fileLines]
      exact Nat.lt_succ_self _
  rw [applyFiles] at hfiles
  simp only [List.nil_append, List.cons_append, List.foldlM_cons, hnone, Option.bind_eq_bind,
    Option.bind_none, reduceCtorEq] at hfiles

/-- The patch applies exactly when it changes no file. -/
theorem patchApplies_iff
    {input : SyncToTemplateInput} {plan : SyncToTemplatePlan}
    (hplan : planSyncToTemplate input = .ok plan) :
    PatchApplies input plan ↔
      ∀ path before after, Text.startsWith path corePrefix = true →
        input.localTree.get path = some after → input.templateCore.get path = some before →
        before = after := by
  constructor
  · intro happlies path before after hcore hafter hbefore
    by_contra hdiffer
    exact not_patchApplies_of_drifts hplan ⟨hcore, hafter, hbefore, hdiffer⟩ happlies
  · intro hsame
    refine patchApplies_of_modify_nil (List.eq_nil_iff_forall_not_mem.mpr fun entry hentry => ?_)
    obtain ⟨path, before, after, hdrift, -⟩ := (mem_modify_iff hplan).mp hentry
    exact hdrift.differ (hsame path before after hdrift.core hdrift.after_eq hdrift.before_eq)

/-- A snapshot of `src/core/` is accepted. -/
theorem exists_plan
    (hcore : ∀ path ∈ input.templateCore.keys, Text.startsWith path corePrefix = true) :
    ∃ plan, planSyncToTemplate input = .ok plan := by
  have hnone :
      (input.templateCore.keys.find? fun path => !Text.startsWith path corePrefix) = none := by
    refine List.find?_eq_none.mpr fun path hpath => ?_
    simp [hcore path hpath]
  unfold planSyncToTemplate
  rw [hnone]
  exact ⟨_, rfl⟩

def oneFile (after before : String) : SyncToTemplateInput where
  localTree := Record.empty.set "src/core/x.ts" after
  templateCore := Record.empty.set "src/core/x.ts" before

theorem oneFile_core (after before : String) :
    ∀ path ∈ (oneFile after before).templateCore.keys,
      Text.startsWith path corePrefix = true := by
  intro path hpath
  obtain rfl : path = "src/core/x.ts" := List.mem_singleton.mp hpath
  exact Text.startsWith_append corePrefix "x.ts"

theorem patchApplies_sameFile :
    ∃ plan, planSyncToTemplate (oneFile "a\n" "a\n") = .ok plan ∧
      PatchApplies (oneFile "a\n" "a\n") plan := by
  obtain ⟨plan, hplan⟩ := exists_plan (oneFile_core "a\n" "a\n")
  refine ⟨plan, hplan, (patchApplies_iff hplan).mpr ?_⟩
  intro path before after _ hafter hbefore
  exact Option.some.inj (hbefore.symm.trans hafter)

theorem not_patchApplies_changedFile :
    ∃ plan, planSyncToTemplate (oneFile "b\n" "a\n") = .ok plan ∧
      ¬ PatchApplies (oneFile "b\n" "a\n") plan := by
  obtain ⟨plan, hplan⟩ := exists_plan (oneFile_core "b\n" "a\n")
  have hdrift : Drifts (oneFile "b\n" "a\n") "src/core/x.ts" "a\n" "b\n" :=
    ⟨oneFile_core "b\n" "a\n" _ (List.mem_singleton_self _), rfl, rfl, by decide⟩
  exact ⟨plan, hplan, not_patchApplies_of_drifts hplan hdrift⟩

end Patch

end SyncToTemplate
end Core
end NestBase
