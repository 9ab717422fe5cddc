import NestBase.Lib.EnvText
import NestBase.Lib.NumberText

/-!
# The environment file of the frontend

`planFrontendEnvBridge` writes four keys into the environment file of the frontend.  A
key whose last assignment has a value of the user's own keeps it; every line that assigns
another of the keys gets the intended value, and a key that no line assigns is appended
under a marker.

A written text is a fixed point, provided that it is read back as the lines it was made of.
That fails for a line that ends with a carriage return beside the one of its newline, and
for a project name with the end of a line in it (`respectsUser_iff`).
-/

namespace NestBase
namespace Core
namespace FrontendEnvBridge

open Lib Lib.EnvText

/-! ## The planner -/

inductive BridgeKey where
  | nuxtApiUrl
  | nuxtPublicApiUrl
  | apiUrl
  | apiPort
deriving DecidableEq

def BridgeKey.name : BridgeKey → String
  | nuxtApiUrl => "NUXT_API_URL"
  | nuxtPublicApiUrl => "NUXT_PUBLIC_API_URL"
  | apiUrl => "API_URL"
  | apiPort => "API_PORT"

/-- The characters of the name. -/
def BridgeKey.text (key : BridgeKey) : List Char :=
  key.name.toList

def BRIDGE_KEYS : List BridgeKey :=
  [.nuxtApiUrl, .nuxtPublicApiUrl, .apiUrl, .apiPort]

def FRONTEND_ENV_BRIDGE_MARKER : List Char :=
  "# Managed by nest-base setup-wizard".toList

structure FrontendEnvBridgeInputs where
  projectName : String
  apiPort : Number
  appExists : Bool
  currentEnv : Option String

inductive SkipReason where
  | frontendDirMissing
  | allValuesCustomNoWriteNeeded
deriving DecidableEq

inductive FrontendEnvBridgePlan where
  | skip (reason : SkipReason)
  | write (next : String)
deriving DecidableEq

/-- `ASSIGN_RE`, `/^([A-Z][A-Z0-9_]*)=(.*)$/` -/
def readAssign (line : List Char) : Option (List Char × List Char) :=
  let key := line.takeWhile isKeyChar
  match line.dropWhile isKeyChar with
  | '=' :: value =>
      if key.head?.any Char.isUpper && value.all fun c => !isTerminator c then some (key, value)
      else none
  | _ => none

/-- The loop body of `parseEnv`. -/
def parseLine (raw : List Char) : Option (List Char × List Char) :=
  if (raw.dropWhile Text.isWhiteSpace).head? = some '#' then none else readAssign raw

/-- The assignments of the map in their order; `lastValue` looks a key up. -/
def parseEnv (text : List Char) : List (List Char × List Char) :=
  (splitLines text).filterMap parseLine

/-- `/^http:\/\/localhost:\d+\/?$/` -/
def isLocalhostUrl (text : List Char) : Bool :=
  let front := "http://localhost:".toList
  let port := text.drop front.length
  let behind := port.dropWhile Char.isDigit
  front.isPrefixOf text && !(port.takeWhile Char.isDigit).isEmpty &&
    (behind == [] || behind == ['/'])

def isSentinelValue (key : BridgeKey) (value portlessUrl apiPort : List Char) : Bool :=
  let trimmed := trimmed value
  if trimmed = [] then true
  else
    match key with
    | .apiPort =>
        if trimmed = apiPort then true else trimmed.all Char.isDigit && !trimmed.isEmpty
    | _ =>
        if trimmed = portlessUrl then true
        else if trimmed = "http://localhost:3000".toList then true
        else isLocalhostUrl trimmed

def bridgeKey? (key : List Char) : Option BridgeKey :=
  BRIDGE_KEYS.find? fun bridge => bridge.text == key

/-- `${key}=${value}` -/
def assignment (key : BridgeKey) (value : List Char) : List Char :=
  key.text ++ '=' :: value

/-- The bridge key that a line assigns, and the value. -/
def assigned (raw : List Char) : Option (BridgeKey × List Char) := do
  let (key, value) ← readAssign raw
  let bridge ← bridgeKey? key
  pure (bridge, value)

/-- A line of the loop over the lines. -/
def rewrite (finalValues : BridgeKey → List Char) (raw : List Char) : List Char :=
  match assigned raw with
  | some (key, _) => assignment key (finalValues key)
  | none => raw

/-- The lines without one empty line at the end. -/
def contentLines (current : List Char) : List (List Char) :=
  let lines := if current = [] then [] else splitLines current
  if lines.getLast? = some [] then lines.dropLast else lines

def missingKeys (lines : List (List Char)) : List BridgeKey :=
  let seen := lines.filterMap fun raw => (assigned raw).map Prod.fst
  (BRIDGE_KEYS.filter fun key => decide (key ∉ seen)).mergeSort fun a b => a.name ≤ b.name

/-- What is put behind the lines. -/
def appended
    (finalValues : BridgeKey → List Char) (missing : List BridgeKey) (next : List (List Char)) :
    List (List Char) :=
  if missing = [] then []
  else
    (if next ≠ [] ∧ next.getLast? ≠ some [] then [[]] else []) ++
      (if next.any fun line => trimmed line == FRONTEND_ENV_BRIDGE_MARKER then []
        else [FRONTEND_ENV_BRIDGE_MARKER]) ++
      missing.map fun key => assignment key (finalValues key)

/-- Of two newlines at the end one is taken off, over and over; the text is reversed. -/
def dropNewlines : List Char → List Char
  | '\n' :: '\n' :: rest => dropNewlines ('\n' :: rest)
  | text => text

/-- Exactly one newline at the end. -/
def endWithNewline (out : List Char) : List Char :=
  let out := (dropNewlines out.reverse).reverse
  if out.getLast? = some '\n' then out else out ++ ['\n']

/-- The lines of the new text. -/
def nextLines (finalValues : BridgeKey → List Char) (lines : List (List Char)) :
    List (List Char) :=
  let next := lines.map (rewrite finalValues)
  next ++ appended finalValues (missingKeys lines) next

def renderEnv (current : List Char) (finalValues : BridgeKey → List Char) : List Char :=
  endWithNewline (joinLines (nextLines finalValues (contentLines current)))

def portlessUrl (projectName : String) : List Char :=
  ("https://api." ++ projectName ++ ".localhost").toList

def intended (input : FrontendEnvBridgeInputs) : BridgeKey → List Char
  | .apiPort => (Number.text input.apiPort).toList
  | _ => portlessUrl input.projectName

/-- The value of the user's own that a key has. -/
def customValue (input : FrontendEnvBridgeInputs) (key : BridgeKey) : Option (List Char) :=
  (lastValue key.text (parseEnv (input.currentEnv.getD "").toList)).filter fun current =>
    !isSentinelValue key current (portlessUrl input.projectName)
      (Number.text input.apiPort).toList

def finalValues (input : FrontendEnvBridgeInputs) (key : BridgeKey) : List Char :=
  (customValue input key).getD (intended input key)

def planFrontendEnvBridge (input : FrontendEnvBridgeInputs) :
    Except String FrontendEnvBridgePlan :=
  if input.projectName = "" then
    .error "frontend-env-bridge: projectName must be a non-empty string"
  else if input.appExists = false then .ok (.skip .frontendDirMissing)
  else if BRIDGE_KEYS.all fun key => (customValue input key).isSome then
    .ok (.skip .allValuesCustomNoWriteNeeded)
  else
    .ok (.write (String.ofList (renderEnv (input.currentEnv.getD "").toList (finalValues input))))

/-! ## Lines -/

/-- No end of a line in a value. -/
def Clean (value : List Char) : Prop :=
  ∀ c ∈ value, isTerminator c = false

variable {value line raw : List Char}

theorem clean_of_all (h : (value.all fun c => !isTerminator c) = true) :
    Clean value := by
  intro c hc
  have hterminator := List.all_eq_true.mp h c hc
  simpa using hterminator

theorem text_ne_nil (key : BridgeKey) : key.text ≠ [] := by
  cases key <;> decide

variable {key : BridgeKey}

theorem isKeyChar_of_mem_text : ∀ c ∈ key.text, isKeyChar c = true := by
  have hall : key.text.all isKeyChar = true := by
    cases key <;> decide
  exact List.all_eq_true.mp hall

theorem bridgeKey?_text (key : BridgeKey) : bridgeKey? key.text = some key := by
  cases key <;> decide

theorem text_of_bridgeKey? {name : List Char} (h : bridgeKey? name = some key) :
    key.text = name := by
  have hfound := List.find?_some h
  exact beq_iff_eq.mp hfound

theorem readAssign_spec {name : List Char} (h : readAssign line = some (name, value)) :
    line = name ++ '=' :: value ∧ name.head?.any Char.isUpper = true ∧ Clean value := by
  unfold readAssign at h
  dsimp only at h
  split at h
  · next rest hrest =>
      split at h
      · next hfound =>
          obtain ⟨rfl, rfl⟩ := Prod.mk.inj (Option.some.inj h)
          rw [Bool.and_eq_true, List.all_eq_true] at hfound
          refine ⟨?_, hfound.1, fun c hc => ?_⟩
          · rw [← hrest, List.takeWhile_append_dropWhile]
          · simpa using hfound.2 c hc
      · cases h
  · cases h

theorem readAssign_assignment (key : BridgeKey) {value : List Char} (h : Clean value) :
    readAssign (assignment key value) = some (key.text, value) := by
  have hstop : isKeyChar '=' = false := isKeyChar_equals
  have hupper : key.text.head?.any Char.isUpper = true := by
    cases key <;> decide
  have hvalue : (value.all fun c => !isTerminator c) = true :=
    List.all_eq_true.mpr fun c hc => by rw [h c hc]; rfl
  unfold readAssign assignment
  rw [List.takeWhile_append_of_pos isKeyChar_of_mem_text,
    List.dropWhile_append_of_pos isKeyChar_of_mem_text,
    List.takeWhile_cons_of_neg (by rw [hstop]; exact Bool.false_ne_true),
    List.dropWhile_cons_of_neg (by rw [hstop]; exact Bool.false_ne_true), List.append_nil]
  change (if (key.text.head?.any Char.isUpper && value.all fun c => !isTerminator c) = true then
    some (key.text, value) else none) = some (key.text, value)
  rw [hupper, hvalue]
  rfl

theorem assigned_eq_some_iff :
    assigned raw = some (key, value) ↔ raw = assignment key value ∧ Clean value := by
  unfold assigned
  constructor
  · intro h
    obtain ⟨⟨name, value'⟩, hread, h⟩ := Option.bind_eq_some_iff.mp h
    obtain ⟨bridge, hbridge, h⟩ := Option.bind_eq_some_iff.mp h
    obtain ⟨rfl, rfl⟩ := Prod.mk.inj (Option.some.inj h)
    obtain ⟨hraw, -, hclean⟩ := readAssign_spec hread
    exact ⟨by rw [hraw, assignment, text_of_bridgeKey? hbridge], hclean⟩
  · rintro ⟨rfl, hclean⟩
    rw [readAssign_assignment key hclean, Option.bind_eq_bind, Option.bind_some]
    dsimp only
    rw [bridgeKey?_text]
    rfl

/-- A comment is no assignment. -/
theorem parseLine_eq (raw : List Char) : parseLine raw = readAssign raw := by
  unfold parseLine
  split
  · next hsign =>
      cases hread : readAssign raw with
      | none => rfl
      | some found =>
          obtain ⟨name, value⟩ := found
          obtain ⟨rfl, hupper, -⟩ := readAssign_spec hread
          cases name with
          | nil => cases hupper
          | cons c rest =>
              rw [List.head?_cons, Option.any_some] at hupper
              have hbounds : 'A'.val ≤ c.val ∧ c.val ≤ 'Z'.val := of_decide_eq_true hupper
              have hrange : 65 ≤ c.toNat ∧ c.toNat ≤ 90 :=
                ⟨UInt32.le_iff_toNat_le.mp hbounds.1, UInt32.le_iff_toNat_le.mp hbounds.2⟩
              have hvisible := Text.not_isWhiteSpace_of_visible (c := c) (by omega) (by omega)
              rw [List.cons_append, List.dropWhile_cons_of_neg (by rw [hvisible]; decide),
                List.head?_cons, Option.some.injEq] at hsign
              subst hsign
              exact absurd hrange (by decide)
  · rfl

/-- The value that a line assigns to a key. -/
def valueOf (key : BridgeKey) (raw : List Char) : Option (List Char) :=
  (assigned raw).bind fun found => if found.1 = key then some found.2 else none

theorem valueOf_eq_some_iff :
    valueOf key raw = some value ↔ raw = assignment key value ∧ Clean value := by
  rw [← assigned_eq_some_iff]
  unfold valueOf
  constructor
  · intro h
    obtain ⟨⟨key', value'⟩, hassigned, h⟩ := Option.bind_eq_some_iff.mp h
    dsimp only at h
    split at h
    · next hkey =>
        rw [hassigned, hkey, Option.some.inj h]
    · cases h
  · intro h
    rw [h, Option.bind_some, if_pos rfl]

theorem readAssign_text_iff :
    readAssign raw = some (key.text, value) ↔ valueOf key raw = some value := by
  rw [valueOf_eq_some_iff]
  constructor
  · intro h
    obtain ⟨hraw, -, hclean⟩ := readAssign_spec h
    exact ⟨hraw, hclean⟩
  · rintro ⟨rfl, hclean⟩
    exact readAssign_assignment key hclean

/-- The last assignment of a key counts. -/
theorem lastValue_parseEnv (key : BridgeKey) (text : List Char) :
    lastValue key.text (parseEnv text) = ((splitLines text).filterMap (valueOf key)).getLast? := by
  have hvalues : ∀ lines : List (List Char),
      ((lines.filterMap parseLine).filter fun entry => entry.1 = key.text).map Prod.snd =
        lines.filterMap (valueOf key) := by
    intro lines
    induction lines with
    | nil => rfl
    | cons raw rest ih =>
        cases hread : readAssign raw with
        | none =>
            have hvalue : valueOf key raw = none := by
              rw [Option.eq_none_iff_forall_not_mem]
              intro value hvalue
              rw [Option.mem_def, ← readAssign_text_iff, hread] at hvalue
              cases hvalue
            rw [List.filterMap_cons_none (by rw [parseLine_eq, hread]),
              List.filterMap_cons_none hvalue, ih]
        | some found =>
            obtain ⟨name, value⟩ := found
            rw [List.filterMap_cons_some (by rw [parseLine_eq, hread])]
            by_cases hname : name = key.text
            · subst hname
              rw [List.filter_cons_of_pos (by simp), List.map_cons, ih,
                List.filterMap_cons_some (readAssign_text_iff.mp hread)]
            · have hvalue : valueOf key raw = none := by
                rw [Option.eq_none_iff_forall_not_mem]
                intro other hother
                rw [Option.mem_def, ← readAssign_text_iff, hread] at hother
                exact hname (Prod.mk.inj (Option.some.inj hother)).1
              rw [List.filter_cons_of_neg (by simpa using hname), ih,
                List.filterMap_cons_none hvalue]
  unfold lastValue parseEnv
  rw [← List.getLast?_map, hvalues]

/-! ## Texts -/

theorem endWithNewline_eq (out : List Char) :
    endWithNewline out = out.rdropWhile (· = '\n') ++ ['\n'] := by
  have hdrop : ∀ rest : List Char,
      dropNewlines ('\n' :: rest) = '\n' :: rest.dropWhile (· = '\n') := by
    intro rest
    induction rest with
    | nil => rfl
    | cons c rest ih =>
        by_cases hc : c = '\n'
        · subst hc
          rw [dropNewlines, ih, List.dropWhile_cons_of_pos (by simp)]
        · rw [List.dropWhile_cons_of_neg (by simpa using hc), dropNewlines]
          rintro rest' ⟨⟩
          exact hc rfl
  unfold endWithNewline List.rdropWhile
  cases hchars : out.reverse with
  | nil => rfl
  | cons c rest =>
      by_cases hc : c = '\n'
      · subst hc
        rw [hdrop, List.dropWhile_cons_of_pos (by simp), List.reverse_cons]
        dsimp only
        rw [List.getLast?_concat, if_pos rfl]
      · have hsame : dropNewlines (c :: rest) = c :: rest := by
          rw [dropNewlines]
          rintro rest' ⟨⟩
          exact hc rfl
        rw [hsame, List.dropWhile_cons_of_neg (by simpa using hc), List.reverse_cons]
        dsimp only
        rw [List.getLast?_concat, if_neg (by simpa using hc)]

/-- The line that is left out is empty. -/
theorem contentLines_append (current : List Char) :
    splitLines current = contentLines current ∨
      splitLines current = contentLines current ++ [[]] := by
  unfold contentLines
  by_cases hempty : current = []
  · subst hempty
    exact .inr (by simp [splitLines])
  · simp only [hempty, if_false]
    split
    · next hlast =>
        obtain ⟨front, hfront⟩ := List.getLast?_eq_some_iff.mp hlast
        rw [hfront, List.dropLast_concat]
        exact .inr rfl
    · exact .inl rfl

theorem mem_splitLines_of_mem_contentLines {current : List Char}
    (h : line ∈ contentLines current) : line ∈ splitLines current := by
  rcases contentLines_append current with hlines | hlines
  · rw [hlines]
    exact h
  · rw [hlines]
    exact List.mem_append_left _ h

theorem contentLines_joinLines
    {lines : List (List Char)}
    (hne : lines ≠ [])
    (hlines : ∀ line ∈ lines, '\n' ∉ line) :
    contentLines (joinLines lines ++ ['\n']) = lines.map dropReturn := by
  have htext : joinLines lines ++ ['\n'] ≠ [] :=
    List.append_ne_nil_of_right_ne_nil _ (List.cons_ne_nil _ _)
  unfold contentLines
  simp only [htext, if_false, splitLines_joinLines_newline hne hlines]
  rw [if_pos List.getLast?_concat, List.dropLast_concat]

theorem valueOf_nil (key : BridgeKey) : valueOf key [] = none := by
  cases key <;> decide

theorem valueOf_marker (key : BridgeKey) : valueOf key FRONTEND_ENV_BRIDGE_MARKER = none := by
  cases key <;> decide

theorem filterMap_contentLines (key : BridgeKey) (current : List Char) :
    (splitLines current).filterMap (valueOf key) =
      (contentLines current).filterMap (valueOf key) := by
  rcases contentLines_append current with hlines | hlines
  · rw [hlines]
  · rw [hlines, List.filterMap_append, List.filterMap_cons_none (valueOf_nil key),
      List.filterMap_nil, List.append_nil]

theorem mem_rdropWhile {lines : List (List Char)}
    (hline : line ∈ lines) (hne : line ≠ []) : line ∈ lines.rdropWhile (· = []) := by
  induction lines using List.reverseRecOn with
  | nil => cases hline
  | append_singleton front last ih =>
      by_cases hlast : last = []
      · rw [List.rdropWhile_concat_pos _ _ _ (by simpa using hlast)]
        rcases List.mem_append.mp hline with hfront | hmem
        · exact ih hfront
        · exact absurd ((List.mem_singleton.mp hmem).trans hlast) hne
      · rw [List.rdropWhile_concat_neg _ _ _ (by simpa using hlast)]
        exact hline

/-! ## The lines of the new text -/

section FinalLines

variable {finalValues : BridgeKey → List Char} {current : List Char}

/-- The lines of the new text, without empty ones at the end. -/
def finalLines (finalValues : BridgeKey → List Char) (current : List Char) : List (List Char) :=
  (nextLines finalValues (contentLines current)).rdropWhile (· = [])

variable {value raw line : List Char}
variable {key : BridgeKey}

theorem rewrite_of_assigned (h : assigned raw = some (key, value)) :
    rewrite finalValues raw = assignment key (finalValues key) := by
  unfold rewrite
  rw [h]

theorem rewrite_of_not_assigned (h : assigned raw = none) :
    rewrite finalValues raw = raw := by
  unfold rewrite
  rw [h]

theorem assignment_ne_nil (key : BridgeKey) (value : List Char) : assignment key value ≠ [] :=
  List.append_ne_nil_of_left_ne_nil (text_ne_nil key) _

/-- A line of the new text is one of the old ones or an assignment of a final value; the
other appended lines are empty or the marker. -/
theorem mem_nextLines (h : line ∈ nextLines finalValues (contentLines current)) :
    (line ∈ contentLines current ∧ assigned line = none) ∨
      (∃ key, line = assignment key (finalValues key)) ∨
        line = [] ∨ line = FRONTEND_ENV_BRIDGE_MARKER := by
  unfold nextLines at h
  rcases List.mem_append.mp h with hold | hnew
  · obtain ⟨raw, hraw, rfl⟩ := List.mem_map.mp hold
    cases hassigned : assigned raw with
    | none =>
        rw [rewrite_of_not_assigned hassigned]
        exact .inl ⟨hraw, hassigned⟩
    | some found => exact .inr (.inl ⟨found.1, rewrite_of_assigned hassigned⟩)
  · unfold appended at hnew
    split at hnew
    · cases hnew
    · rcases List.mem_append.mp hnew with hheading | hkey
      · rcases List.mem_append.mp hheading with hblank | hmarker
        · split at hblank
          · exact .inr (.inr (.inl (List.mem_singleton.mp hblank)))
          · cases hblank
        · split at hmarker
          · cases hmarker
          · exact .inr (.inr (.inr (List.mem_singleton.mp hmarker)))
      · obtain ⟨key, -, rfl⟩ := List.mem_map.mp hkey
        exact .inr (.inl ⟨key, rfl⟩)

/-- Every key has a line with its final value. -/
theorem assignment_mem_finalLines (key : BridgeKey) :
    assignment key (finalValues key) ∈ finalLines finalValues current := by
  refine mem_rdropWhile ?_ (assignment_ne_nil key _)
  unfold nextLines
  dsimp only
  rw [List.mem_append]
  by_cases hseen : ∃ raw ∈ contentLines current, ∃ value, assigned raw = some (key, value)
  · obtain ⟨raw, hraw, value, hassigned⟩ := hseen
    exact .inl (List.mem_map.mpr ⟨raw, hraw, rewrite_of_assigned hassigned⟩)
  · right
    have hmissing : key ∈ missingKeys (contentLines current) := by
      unfold missingKeys
      dsimp only
      rw [List.mem_mergeSort, List.mem_filter, decide_eq_true_eq]
      refine ⟨by cases key <;> decide, fun hmem => hseen ?_⟩
      obtain ⟨raw, hraw, hfound⟩ := List.mem_filterMap.mp hmem
      obtain ⟨found, hassigned, rfl⟩ := Option.map_eq_some_iff.mp hfound
      exact ⟨raw, hraw, found.2, hassigned⟩
    unfold appended
    rw [if_neg (List.ne_nil_of_mem hmissing)]
    exact List.mem_append_right _ (List.mem_map.mpr ⟨key, hmissing, rfl⟩)

theorem finalLines_ne_nil : finalLines finalValues current ≠ [] :=
  List.ne_nil_of_mem (assignment_mem_finalLines .apiPort)

theorem mem_nextLines_of_mem_finalLines (h : line ∈ finalLines finalValues current) :
    line ∈ nextLines finalValues (contentLines current) :=
  (List.rdropWhile_prefix _ _).subset h

theorem newline_not_mem_assignment (h : '\n' ∉ value) :
    '\n' ∉ assignment key value := by
  unfold assignment
  rw [List.mem_append, List.mem_cons]
  rintro (hkey | hsign | hvalue)
  · exact absurd (isKeyChar_of_mem_text _ hkey) (by decide)
  · exact absurd hsign (by decide)
  · exact h hvalue

theorem newline_not_mem_nextLines (hvalues : ∀ key, '\n' ∉ finalValues key) :
    ∀ line ∈ nextLines finalValues (contentLines current), '\n' ∉ line := by
  intro line hline
  rcases mem_nextLines hline with ⟨hold, -⟩ | ⟨key, rfl⟩ | rfl | rfl
  · exact newline_not_mem_splitLines (mem_splitLines_of_mem_contentLines hold)
  · exact newline_not_mem_assignment (hvalues key)
  · exact List.not_mem_nil
  · decide

theorem renderEnv_eq (hvalues : ∀ key, '\n' ∉ finalValues key) :
    renderEnv current finalValues = joinLines (finalLines finalValues current) ++ ['\n'] := by
  unfold renderEnv
  rw [endWithNewline_eq, rdropWhile_joinLines (newline_not_mem_nextLines hvalues)]
  · rfl
  · exact finalLines_ne_nil

theorem contentLines_renderEnv (hvalues : ∀ key, '\n' ∉ finalValues key) :
    contentLines (renderEnv current finalValues) =
      (finalLines finalValues current).map dropReturn := by
  rw [renderEnv_eq hvalues]
  exact contentLines_joinLines finalLines_ne_nil fun line hline =>
    newline_not_mem_nextLines hvalues line (mem_nextLines_of_mem_finalLines hline)

/-- No carriage return stands at the end of a line, other than the one of a newline. -/
def HasPlainEnds (current : List Char) : Prop :=
  ∀ line ∈ splitLines current, line.getLast? ≠ some '\r'

theorem Clean.newline_not_mem (h : Clean value) : '\n' ∉ value :=
  fun hmem => absurd (h _ hmem) (by decide)

theorem getLast?_assignment (h : Clean value) :
    (assignment key value).getLast? ≠ some '\r' := by
  intro hlast
  have hmem := List.mem_of_getLast? hlast
  unfold assignment at hmem
  rw [List.mem_append, List.mem_cons] at hmem
  rcases hmem with hkey | hsign | hvalue
  · exact absurd (isKeyChar_of_mem_text _ hkey) (by decide)
  · exact absurd hsign (by decide)
  · exact absurd (h _ hvalue) (by decide)

/-- The lines are read back as they are. -/
theorem map_dropReturn_finalLines
    (hvalues : ∀ key, Clean (finalValues key)) (hends : HasPlainEnds current) :
    (finalLines finalValues current).map dropReturn = finalLines finalValues current := by
  refine (List.map_congr_left fun line hline => ?_).trans (List.map_id _)
  refine if_neg ?_
  rcases mem_nextLines (mem_nextLines_of_mem_finalLines hline) with
    ⟨hold, -⟩ | ⟨key, rfl⟩ | rfl | rfl
  · exact hends line (mem_splitLines_of_mem_contentLines hold)
  · exact getLast?_assignment (hvalues key)
  · decide
  · decide

theorem assigned_of_mem_finalLines
    (hvalues : ∀ key, Clean (finalValues key)) {line value : List Char} {key : BridgeKey}
    (hline : line ∈ finalLines finalValues current) (h : assigned line = some (key, value)) :
    value = finalValues key := by
  rcases mem_nextLines (mem_nextLines_of_mem_finalLines hline) with
    ⟨-, hnone⟩ | ⟨key', rfl⟩ | rfl | rfl
  · rw [hnone] at h
    cases h
  · have hassigned :
        assigned (assignment key' (finalValues key')) = some (key', finalValues key') :=
      assigned_eq_some_iff.mpr ⟨rfl, hvalues key'⟩
    rw [hassigned] at h
    obtain ⟨rfl, rfl⟩ := Prod.mk.inj (Option.some.inj h)
    rfl
  · exact absurd (assigned_eq_some_iff.mp h).1.symm (assignment_ne_nil _ _)
  · have hmarker := valueOf_marker key
    unfold valueOf at hmarker
    rw [h, Option.bind_some, if_pos rfl] at hmarker
    cases hmarker

theorem valueOf_of_mem_finalLines
    (hvalues : ∀ key, Clean (finalValues key)) {line value : List Char} {key : BridgeKey}
    (hline : line ∈ finalLines finalValues current) (h : valueOf key line = some value) :
    value = finalValues key :=
  assigned_of_mem_finalLines hvalues hline
    (assigned_eq_some_iff.mpr (valueOf_eq_some_iff.mp h))

/-- The final values are the ones that are read. -/
theorem getLast?_finalLines (hvalues : ∀ key, Clean (finalValues key)) (key : BridgeKey) :
    ((finalLines finalValues current).filterMap (valueOf key)).getLast? =
      some (finalValues key) := by
  have hmem : finalValues key ∈ (finalLines finalValues current).filterMap (valueOf key) :=
    List.mem_filterMap.mpr
      ⟨_, assignment_mem_finalLines key, valueOf_eq_some_iff.mpr ⟨rfl, hvalues key⟩⟩
  have hsome := List.getLast?_eq_some_getLast (List.ne_nil_of_mem hmem)
  obtain ⟨line, hline, hvalue⟩ := List.mem_filterMap.mp (List.mem_of_getLast? hsome)
  rw [hsome, valueOf_of_mem_finalLines hvalues hline hvalue]

/-- No key is missing in the lines, and every assignment is the one that is written. -/
theorem nextLines_finalLines (hvalues : ∀ key, Clean (finalValues key)) :
    nextLines finalValues (finalLines finalValues current) = finalLines finalValues current := by
  have hmissing : missingKeys (finalLines finalValues current) = [] := by
    have hfilter :
        (BRIDGE_KEYS.filter fun key =>
          decide (key ∉ (finalLines finalValues current).filterMap fun raw =>
            (assigned raw).map Prod.fst)) = [] := by
      rw [List.filter_eq_nil_iff]
      intro key _ hkey
      refine of_decide_eq_true hkey (List.mem_filterMap.mpr ⟨_, assignment_mem_finalLines key, ?_⟩)
      rw [assigned_eq_some_iff.mpr ⟨rfl, hvalues key⟩, Option.map_some]
    unfold missingKeys
    dsimp only
    rw [hfilter, List.mergeSort_nil]
  have hsame : (finalLines finalValues current).map (rewrite finalValues) =
      finalLines finalValues current := by
    refine (List.map_congr_left fun line hline => ?_).trans (List.map_id _)
    cases hassigned : assigned line with
    | none => exact rewrite_of_not_assigned hassigned
    | some found =>
        obtain ⟨key, value⟩ := found
        rw [rewrite_of_assigned hassigned, ← assigned_of_mem_finalLines hvalues hline hassigned]
        exact (assigned_eq_some_iff.mp hassigned).1.symm
  unfold nextLines
  rw [hmissing, hsame]
  exact List.append_nil _

theorem rdropWhile_finalLines :
    (finalLines finalValues current).rdropWhile (· = []) = finalLines finalValues current :=
  List.rdropWhile_idempotent _ _

/-- The written text is a fixed point. -/
theorem renderEnv_renderEnv
    (hvalues : ∀ key, Clean (finalValues key)) (hends : HasPlainEnds current) :
    renderEnv (renderEnv current finalValues) finalValues = renderEnv current finalValues := by
  have hnewlines : ∀ key, '\n' ∉ finalValues key := fun key => (hvalues key).newline_not_mem
  have hlines : finalLines finalValues (renderEnv current finalValues) =
      finalLines finalValues current := by
    have hunfold : finalLines finalValues (renderEnv current finalValues) =
        (nextLines finalValues (contentLines (renderEnv current finalValues))).rdropWhile
          (· = []) :=
      rfl
    rw [hunfold, contentLines_renderEnv hnewlines, map_dropReturn_finalLines hvalues hends,
      nextLines_finalLines hvalues, rdropWhile_finalLines]
  rw [renderEnv_eq hnewlines, hlines, ← renderEnv_eq hnewlines]

/-- The values of the written text. -/
theorem lastValue_renderEnv
    (hvalues : ∀ key, Clean (finalValues key)) (hends : HasPlainEnds current) (key : BridgeKey) :
    lastValue key.text (parseEnv (renderEnv current finalValues)) = some (finalValues key) := by
  rw [lastValue_parseEnv, filterMap_contentLines,
    contentLines_renderEnv fun key => (hvalues key).newline_not_mem,
    map_dropReturn_finalLines hvalues hends, getLast?_finalLines hvalues]

/-! ## Lines that are kept -/

/-- The lines that assign none of the keys, without empty lines at the end of the text. -/
def otherLines (current : List Char) : List (List Char) :=
  ((contentLines current).rdropWhile (· = [])).filter fun line => (assigned line).isNone

theorem isNone_rewrite (hvalues : ∀ key, Clean (finalValues key)) (raw : List Char) :
    (assigned (rewrite finalValues raw)).isNone = (assigned raw).isNone := by
  cases hassigned : assigned raw with
  | none => rw [rewrite_of_not_assigned hassigned, hassigned]
  | some found =>
      rw [rewrite_of_assigned hassigned, assigned_eq_some_iff.mpr ⟨rfl, hvalues found.1⟩]
      rfl

theorem filter_map_rewrite (hvalues : ∀ key, Clean (finalValues key)) (lines : List (List Char)) :
    ((lines.map (rewrite finalValues)).filter fun line => (assigned line).isNone) =
      lines.filter fun line => (assigned line).isNone := by
  induction lines with
  | nil => rfl
  | cons raw rest ih =>
      rw [List.map_cons, List.filter_cons, isNone_rewrite hvalues, ih, List.filter_cons]
      split
      · next hnone => rw [rewrite_of_not_assigned (Option.isNone_iff_eq_none.mp hnone)]
      · rfl

/-- Dropping empty lines at the end stops at the last line of a front. -/
theorem append_rdropWhile {front : List (List Char)} (hfront : front.rdropWhile (· = []) = front)
    (back : List (List Char)) : front <+: (front ++ back).rdropWhile (· = []) := by
  induction back using List.reverseRecOn with
  | nil =>
      rw [List.append_nil, hfront]
  | append_singleton back last ih =>
      rw [← List.append_assoc]
      by_cases hlast : last = []
      · rw [List.rdropWhile_concat_pos _ _ _ (by simpa using hlast)]
        exact ih
      · rw [List.rdropWhile_concat_neg _ _ _ (by simpa using hlast), List.append_assoc]
        exact List.prefix_append _ _

theorem rewrite_ne_nil (h : raw ≠ []) : rewrite finalValues raw ≠ [] := by
  cases hassigned : assigned raw with
  | none =>
      rw [rewrite_of_not_assigned hassigned]
      exact h
  | some found =>
      rw [rewrite_of_assigned hassigned]
      exact assignment_ne_nil _ _

/-- The old lines stay in front, up to empty ones at the end. -/
theorem rewrite_lines_start :
    ((contentLines current).rdropWhile (· = [])).map (rewrite finalValues) <+:
      finalLines finalValues current := by
  have hself : (((contentLines current).rdropWhile (· = [])).map (rewrite finalValues)).rdropWhile
      (· = []) = ((contentLines current).rdropWhile (· = [])).map (rewrite finalValues) := by
    rw [List.rdropWhile_eq_self_iff]
    intro hne hlast
    have hold : (contentLines current).rdropWhile (· = []) ≠ [] := fun hnil =>
      hne (by rw [hnil, List.map_nil])
    rw [List.getLast_map, decide_eq_true_eq] at hlast
    refine rewrite_ne_nil ?_ hlast
    have hnonempty := List.rdropWhile_last_not (fun line : List Char => decide (line = []))
      (contentLines current) hold
    simpa using hnonempty
  obtain ⟨blank, hblank⟩ := List.rdropWhile_prefix (fun line : List Char => decide (line = []))
    (contentLines current)
  have hnext : ∃ back, nextLines finalValues (contentLines current) =
      ((contentLines current).rdropWhile (· = [])).map (rewrite finalValues) ++ back := by
    have hmap := congrArg (List.map (rewrite finalValues)) hblank
    rw [List.map_append] at hmap
    unfold nextLines
    dsimp only
    rw [← hmap, List.append_assoc]
    exact ⟨_, rfl⟩
  obtain ⟨back, hback⟩ := hnext
  unfold finalLines
  rw [hback]
  exact append_rdropWhile hself back

theorem otherLines_renderEnv
    (hvalues : ∀ key, Clean (finalValues key)) (hends : HasPlainEnds current) :
    (otherLines current).Sublist (otherLines (renderEnv current finalValues)) := by
  unfold otherLines
  rw [contentLines_renderEnv fun key => (hvalues key).newline_not_mem,
    map_dropReturn_finalLines hvalues hends, rdropWhile_finalLines, ← filter_map_rewrite hvalues]
  exact (rewrite_lines_start.sublist).filter _

/-! ## Carriage returns -/

/-- The carriage returns in lines. -/
def returns (lines : List (List Char)) : Nat :=
  (lines.map (List.count '\r')).sum

theorem returns_append (front back : List (List Char)) :
    returns (front ++ back) = returns front + returns back := by
  unfold returns
  rw [List.map_append, List.sum_append]

variable {lines : List (List Char)}

theorem returns_sublist {lines' : List (List Char)} (h : lines.Sublist lines') :
    returns lines ≤ returns lines' :=
  (h.map _).sum_le_sum fun _ _ => Nat.zero_le _

theorem return_not_mem_assignment (h : Clean value) :
    (assignment key value).count '\r' = 0 := by
  rw [List.count_eq_zero]
  unfold assignment
  rw [List.mem_append, List.mem_cons]
  rintro (hkey | hsign | hvalue)
  · exact absurd (isKeyChar_of_mem_text _ hkey) (by decide)
  · exact absurd hsign (by decide)
  · exact absurd (h _ hvalue) (by decide)

theorem returns_eq_zero (h : ∀ line ∈ lines, line.count '\r' = 0) :
    returns lines = 0 := by
  unfold returns
  rw [List.sum_eq_zero]
  intro count hcount
  obtain ⟨line, hline, rfl⟩ := List.mem_map.mp hcount
  exact h line hline

/-- Assignments have none. -/
theorem returns_map_rewrite (hvalues : ∀ key, Clean (finalValues key)) (lines : List (List Char)) :
    returns (lines.map (rewrite finalValues)) =
      returns (lines.filter fun line => (assigned line).isNone) := by
  induction lines with
  | nil => rfl
  | cons raw rest ih =>
      rw [List.map_cons, ← List.singleton_append, returns_append, ih]
      cases hassigned : assigned raw with
      | none =>
          rw [rewrite_of_not_assigned hassigned, List.filter_cons_of_pos (by rw [hassigned]; rfl),
            ← returns_append, List.singleton_append]
      | some found =>
          rw [rewrite_of_assigned hassigned,
            List.filter_cons_of_neg (by rw [hassigned]; exact Bool.false_ne_true),
            returns_eq_zero, Nat.zero_add]
          rw [List.forall_mem_singleton]
          exact return_not_mem_assignment (hvalues found.1)

theorem returns_appended (hvalues : ∀ key, Clean (finalValues key))
    (missing : List BridgeKey) (next : List (List Char)) :
    returns (appended finalValues missing next) = 0 := by
  refine returns_eq_zero ?_
  unfold appended
  split
  · exact fun line hline => absurd hline List.not_mem_nil
  · rw [List.forall_mem_append, List.forall_mem_append]
    refine ⟨⟨?_, ?_⟩, ?_⟩
    · split
      · decide
      · exact fun line hline => absurd hline List.not_mem_nil
    · split
      · exact fun line hline => absurd hline List.not_mem_nil
      · decide
    · intro line hline
      obtain ⟨key, -, rfl⟩ := List.mem_map.mp hline
      exact return_not_mem_assignment (hvalues key)

theorem returns_finalLines (hvalues : ∀ key, Clean (finalValues key)) :
    returns (finalLines finalValues current) ≤ returns (otherLines current) := by
  have hblank :
      returns (((contentLines current).rtakeWhile (· = [])).filter fun line =>
        (assigned line).isNone) = 0 := by
    refine returns_eq_zero fun line hline => ?_
    have hnil := List.mem_rtakeWhile_imp (List.mem_filter.mp hline).1
    rw [of_decide_eq_true hnil]
    rfl
  have hsplit : (contentLines current).rdropWhile (· = []) ++
      (contentLines current).rtakeWhile (· = []) = contentLines current :=
    List.rdropWhile_append_rtakeWhile
  have hother : returns ((contentLines current).filter fun line => (assigned line).isNone) =
      returns (otherLines current) := by
    rw [← hsplit, List.filter_append, returns_append, hblank, Nat.add_zero]
    rfl
  calc returns (finalLines finalValues current)
      ≤ returns (nextLines finalValues (contentLines current)) :=
        returns_sublist (List.rdropWhile_prefix _ _).sublist
    _ = returns ((contentLines current).map (rewrite finalValues)) := by
        unfold nextLines
        dsimp only
        rw [returns_append, returns_appended hvalues, Nat.add_zero]
    _ = returns (otherLines current) := by
        rw [returns_map_rewrite hvalues, hother]

theorem count_dropReturn_le (line : List Char) :
    (dropReturn line).count '\r' ≤ line.count '\r' := by
  unfold dropReturn
  split
  · exact (List.dropLast_sublist line).count_le _
  · exact le_rfl

/-- Reading a line that ends with a carriage return takes it off. -/
theorem count_dropReturn_lt (hlast : line.getLast? = some '\r') :
    (dropReturn line).count '\r' < line.count '\r' := by
  obtain ⟨front, rfl⟩ := List.getLast?_eq_some_iff.mp hlast
  unfold dropReturn
  rw [if_pos hlast, List.dropLast_concat, List.count_append, List.count_singleton_self]
  exact Nat.lt_succ_self _

theorem returns_map_dropReturn (hline : line ∈ lines) (hlast : line.getLast? = some '\r') :
    returns (lines.map dropReturn) < returns lines := by
  unfold returns
  rw [List.map_map]
  exact List.sum_lt_sum _ _ (fun raw _ => count_dropReturn_le raw)
    ⟨line, hline, count_dropReturn_lt hlast⟩

end FinalLines

/-! ## Values of the user -/

section Plans

variable {input : FrontendEnvBridgeInputs} {next : String}

/-- The text that a plan starts from. -/
def currentText (input : FrontendEnvBridgeInputs) : List Char :=
  (input.currentEnv.getD "").toList

/-- What a written text keeps. -/
structure RespectsUser (input : FrontendEnvBridgeInputs) (next : String) : Prop where
  again :
    planFrontendEnvBridge { input with currentEnv := some next } = .ok (.write next) ∨
      ∃ reason,
        planFrontendEnvBridge { input with currentEnv := some next } = .ok (.skip reason)
  kept : (otherLines (currentText input)).Sublist (otherLines next.toList)
  custom : ∀ key value, customValue input key = some value →
    lastValue key.text (parseEnv next.toList) = some value
  others : ∀ key, customValue input key = none →
    lastValue key.text (parseEnv next.toList) = some (intended input key) ∧
      ∀ line ∈ splitLines next.toList, ∀ value,
        readAssign line = some (key.text, value) → value = intended input key

/-- No text is written, or the written text is read back as the lines it is made of. -/
def ReadsBack (input : FrontendEnvBridgeInputs) : Prop :=
  input.projectName = "" ∨ (∀ key, (customValue input key).isSome) ∨
    HasPlainEnds (currentText input) ∧
      (Clean input.projectName.toList ∨
        ∀ key, key ≠ .apiPort → (customValue input key).isSome)

variable {value : List Char}

theorem isTight_of_visible (h : ∀ c ∈ value, Number.IsVisible c) :
    IsTight value where
  head := fun c hc =>
    Text.not_isWhiteSpace_of_visible (h c (List.mem_of_head? hc)).1 (h c (List.mem_of_head? hc)).2
  last := fun c hc =>
    Text.not_isWhiteSpace_of_visible (h c (List.mem_of_getLast? hc)).1
      (h c (List.mem_of_getLast? hc)).2

theorem trimmed_of_isTight (h : IsTight value) : trimmed value = value := by
  have hvalue := trimmed_append h (List.forall_mem_nil _)
  rwa [List.append_nil] at hvalue

theorem portlessUrl_eq (projectName : String) :
    portlessUrl projectName =
      "https://api.".toList ++ projectName.toList ++ ".localhost".toList := by
  unfold portlessUrl
  rw [String.toList_append, String.toList_append]

theorem trimmed_portlessUrl (projectName : String) :
    trimmed (portlessUrl projectName) = portlessUrl projectName := by
  refine trimmed_of_isTight ?_
  rw [portlessUrl_eq]
  constructor
  · intro c hc
    rw [List.append_assoc, List.head?_append_of_ne_nil _ (by decide)] at hc
    rw [← Option.some.inj hc]
    decide
  · intro c hc
    rw [List.getLast?_append_of_ne_nil _ (by decide)] at hc
    rw [← Option.some.inj hc]
    decide

/-- The intended values are ones that the planner may replace. -/
theorem isSentinelValue_intended (input : FrontendEnvBridgeInputs) (key : BridgeKey) :
    isSentinelValue key (intended input key) (portlessUrl input.projectName)
      (Number.text input.apiPort).toList = true := by
  have hport : trimmed (Number.text input.apiPort).toList = (Number.text input.apiPort).toList :=
    trimmed_of_isTight (isTight_of_visible (Number.isVisible_text input.apiPort))
  unfold isSentinelValue
  dsimp only
  split
  · rfl
  · cases key with
    | apiPort => exact if_pos hport
    | nuxtApiUrl => exact if_pos (trimmed_portlessUrl _)
    | nuxtPublicApiUrl => exact if_pos (trimmed_portlessUrl _)
    | apiUrl => exact if_pos (trimmed_portlessUrl _)

variable {key : BridgeKey}

theorem clean_of_lastValue {text : List Char}
    (h : lastValue key.text (parseEnv text) = some value) : Clean value := by
  rw [lastValue_parseEnv] at h
  obtain ⟨line, -, hvalue⟩ := List.mem_filterMap.mp (List.mem_of_getLast? h)
  exact (valueOf_eq_some_iff.mp hvalue).2

theorem customValue_eq_some_iff :
    customValue input key = some value ↔
      lastValue key.text (parseEnv (currentText input)) = some value ∧
        isSentinelValue key value (portlessUrl input.projectName)
          (Number.text input.apiPort).toList = false := by
  unfold customValue currentText
  rw [Option.filter_eq_some_iff, Bool.not_eq_true']

theorem clean_port (input : FrontendEnvBridgeInputs) : Clean (intended input .apiPort) := by
  intro c hc
  have hvisible := Number.isVisible_text input.apiPort c hc
  rw [Bool.eq_false_iff]
  intro hterminator
  simp only [isTerminator, List.contains_eq_mem, decide_eq_true_eq, List.mem_cons,
    List.not_mem_nil, or_false] at hterminator
  unfold Number.IsVisible at hvisible
  rcases hterminator with rfl | rfl | rfl | rfl
  · exact absurd hvisible (by decide)
  · exact absurd hvisible (by decide)
  · exact absurd hvisible (by decide)
  · exact absurd hvisible (by decide)

theorem clean_portlessUrl_iff {projectName : String} :
    Clean (portlessUrl projectName) ↔ Clean projectName.toList := by
  have hfront : Clean "https://api.".toList := clean_of_all (by decide)
  have hback : Clean ".localhost".toList := clean_of_all (by decide)
  rw [portlessUrl_eq]
  unfold Clean at hfront hback ⊢
  rw [List.forall_mem_append, List.forall_mem_append]
  exact ⟨fun h => h.1.2, fun h => ⟨⟨hfront, h⟩, hback⟩⟩

theorem intended_of_ne (h : key ≠ .apiPort) :
    intended input key = portlessUrl input.projectName := by
  cases key with
  | apiPort => exact absurd rfl h
  | nuxtApiUrl => rfl
  | nuxtPublicApiUrl => rfl
  | apiUrl => rfl

theorem finalValues_of_custom
    (h : customValue input key = some value) : finalValues input key = value := by
  unfold finalValues
  rw [h, Option.getD_some]

theorem finalValues_of_not_custom (h : customValue input key = none) :
    finalValues input key = intended input key := by
  unfold finalValues
  rw [h, Option.getD_none]

theorem clean_finalValues
    (h : Clean input.projectName.toList ∨
      ∀ key, key ≠ .apiPort → (customValue input key).isSome)
    (key : BridgeKey) : Clean (finalValues input key) := by
  cases hcustom : customValue input key with
  | some value =>
      rw [finalValues_of_custom hcustom]
      exact clean_of_lastValue (customValue_eq_some_iff.mp hcustom).1
  | none =>
      rw [finalValues_of_not_custom hcustom]
      by_cases hport : key = .apiPort
      · rw [hport]
        exact clean_port input
      · rw [intended_of_ne hport]
        rcases h with hname | hall
        · exact clean_portlessUrl_iff.mpr hname
        · have hsome := hall key hport
          rw [hcustom] at hsome
          cases hsome

/-- When a text is written, and which one. -/
theorem planFrontendEnvBridge_eq_write_iff (happ : input.appExists = true) :
    planFrontendEnvBridge input = .ok (.write next) ↔
      input.projectName ≠ "" ∧ (∃ key, customValue input key = none) ∧
        next.toList = renderEnv (currentText input) (finalValues input) := by
  have hall : (BRIDGE_KEYS.all fun key => (customValue input key).isSome) = true ↔
      ¬ ∃ key, customValue input key = none := by
    rw [List.all_eq_true]
    constructor
    · rintro h ⟨key, hnone⟩
      have hsome := h key (by cases key <;> decide)
      rw [hnone] at hsome
      cases hsome
    · intro h key _
      exact Option.isSome_iff_ne_none.mpr fun hnone => h ⟨key, hnone⟩
  have hexists : ¬ input.appExists = false := by
    rw [happ]
    exact Bool.noConfusion
  unfold planFrontendEnvBridge
  rw [if_neg hexists]
  split
  · next hname => exact iff_of_false nofun fun h => h.1 hname
  · next hname =>
      split
      · next hcustom => exact iff_of_false nofun fun h => hall.mp hcustom h.2.1
      · next hcustom =>
          have hsome : ∃ key, customValue input key = none := by
            by_contra hnone
            exact hcustom (hall.mpr hnone)
          have hnext : ∀ text : List Char, String.ofList text = next ↔ next.toList = text := by
            intro text
            rw [← String.toList_inj, String.toList_ofList]
            exact eq_comm
          simp only [Except.ok.injEq, FrontendEnvBridgePlan.write.injEq, hnext]
          exact ⟨fun h => ⟨hname, hsome, h⟩, fun h => h.2.2⟩

/-- The second plan finds the values of the user that the first one found. -/
theorem customValue_again
    (hvalues : ∀ key, lastValue key.text (parseEnv next.toList) = some (finalValues input key))
    (key : BridgeKey) :
    customValue { input with currentEnv := some next } key = customValue input key := by
  cases hcustom : customValue input key with
  | some value =>
      refine customValue_eq_some_iff.mpr ⟨?_, (customValue_eq_some_iff.mp hcustom).2⟩
      rw [← finalValues_of_custom hcustom]
      exact hvalues key
  | none =>
      rw [Option.eq_none_iff_forall_not_mem]
      intro value hvalue
      obtain ⟨hlast, hown⟩ := customValue_eq_some_iff.mp hvalue
      have hfinal := (hvalues key).symm.trans hlast
      rw [finalValues_of_not_custom hcustom, Option.some.injEq] at hfinal
      rw [← hfinal] at hown
      exact absurd (isSentinelValue_intended input key) (by rw [hown]; exact Bool.false_ne_true)

/-- Read back as its lines, a written text keeps what is the user's. -/
theorem respectsUser_of_clean
    (happ : input.appExists = true)
    (hwrite : planFrontendEnvBridge input = .ok (.write next))
    (hclean : ∀ key, Clean (finalValues input key))
    (hends : HasPlainEnds (currentText input)) :
    RespectsUser input next := by
  obtain ⟨hname, hsome, hnext⟩ := (planFrontendEnvBridge_eq_write_iff happ).mp hwrite
  have hvalues : ∀ key,
      lastValue key.text (parseEnv next.toList) = some (finalValues input key) := by
    intro key
    rw [hnext]
    exact lastValue_renderEnv hclean hends key
  have hcustom := customValue_again hvalues
  have hfinal : finalValues { input with currentEnv := some next } = finalValues input := by
    funext key
    unfold finalValues
    rw [hcustom]
    rfl
  refine ⟨.inl ?_, ?_, ?_, ?_⟩
  · have hagain :
        ({ input with currentEnv := some next } : FrontendEnvBridgeInputs).appExists = true :=
      happ
    refine (planFrontendEnvBridge_eq_write_iff hagain).mpr ⟨hname, ?_, ?_⟩
    · obtain ⟨key, hnone⟩ := hsome
      exact ⟨key, by rw [hcustom, hnone]⟩
    · have htext : currentText { input with currentEnv := some next } = next.toList := rfl
      rw [htext, hfinal, hnext, renderEnv_renderEnv hclean hends]
  · rw [hnext]
    exact otherLines_renderEnv hclean hends
  · intro key value hkey
    rw [hvalues, finalValues_of_custom hkey]
  · intro key hkey
    refine ⟨by rw [hvalues, finalValues_of_not_custom hkey], ?_⟩
    intro line hline value hread
    have hmem : value ∈ (splitLines next.toList).filterMap (valueOf key) :=
      List.mem_filterMap.mpr ⟨line, hline, readAssign_text_iff.mp hread⟩
    rw [filterMap_contentLines, hnext,
      contentLines_renderEnv fun key => (hclean key).newline_not_mem,
      map_dropReturn_finalLines hclean hends] at hmem
    obtain ⟨line', hline', hvalue⟩ := List.mem_filterMap.mp hmem
    rw [valueOf_of_mem_finalLines hclean hline' hvalue, finalValues_of_not_custom hkey]

/-- The lines of a written text are kept only if none ends with a carriage return. -/
theorem hasPlainEnds_of_kept
    (hclean : ∀ key, Clean (finalValues input key))
    (hnext : next.toList = renderEnv (currentText input) (finalValues input))
    (hkept : (otherLines (currentText input)).Sublist (otherLines next.toList)) :
    HasPlainEnds (currentText input) := by
  intro line hline hlast
  have hne : line ≠ [] := by
    rintro rfl
    cases hlast
  have hcontent : line ∈ contentLines (currentText input) := by
    rcases contentLines_append (currentText input) with hlines | hlines
    · rw [hlines] at hline
      exact hline
    · rw [hlines] at hline
      rcases List.mem_append.mp hline with hmem | hnil
      · exact hmem
      · exact absurd (List.mem_singleton.mp hnil) hne
  have hnone : assigned line = none := by
    cases hassigned : assigned line with
    | none => rfl
    | some found =>
        obtain ⟨rfl, hvalue⟩ := assigned_eq_some_iff.mp hassigned
        exact absurd hlast (getLast?_assignment hvalue)
  have hfinal : line ∈ finalLines (finalValues input) (currentText input) := by
    refine mem_rdropWhile (List.mem_append_left _ (List.mem_map.mpr ⟨line, hcontent, ?_⟩)) hne
    exact rewrite_of_not_assigned hnone
  have hfewer := returns_map_dropReturn hfinal hlast
  have hnewlines : ∀ key, '\n' ∉ finalValues input key := fun key => (hclean key).newline_not_mem
  have hcontentLines : contentLines next.toList =
      (finalLines (finalValues input) (currentText input)).map dropReturn := by
    rw [hnext, contentLines_renderEnv hnewlines]
  have hothers : (otherLines next.toList).Sublist (contentLines next.toList) :=
    List.filter_sublist.trans (List.rdropWhile_prefix _ _).sublist
  have hold := returns_sublist hkept
  have hnew := returns_sublist hothers
  rw [hcontentLines] at hnew
  have hall : returns (finalLines (finalValues input) (currentText input)) ≤
      returns (otherLines (currentText input)) :=
    returns_finalLines hclean
  omega

/-- The intended values are read back only if they end no line. -/
theorem clean_of_others
    (h : ∀ key, customValue input key = none →
      lastValue key.text (parseEnv next.toList) = some (intended input key)) :
    Clean input.projectName.toList ∨
      ∀ key, key ≠ .apiPort → (customValue input key).isSome := by
  by_cases hname : Clean input.projectName.toList
  · exact .inl hname
  · right
    intro key hkey
    rw [Option.isSome_iff_ne_none]
    intro hnone
    have hclean := clean_of_lastValue (h key hnone)
    rw [intended_of_ne hkey] at hclean
    exact hname (clean_portlessUrl_iff.mp hclean)

/-- Written texts keep what is the user's exactly when they are read back as their lines. -/
theorem respectsUser_iff (happ : input.appExists = true) :
    (∀ next, planFrontendEnvBridge input = .ok (.write next) → RespectsUser input next) ↔
      ReadsBack input := by
  unfold ReadsBack
  constructor
  · intro h
    by_cases hname : input.projectName = ""
    · exact .inl hname
    · by_cases hall : ∀ key, (customValue input key).isSome
      · exact .inr (.inl hall)
      · refine .inr (.inr ?_)
        obtain ⟨key, hkey⟩ := not_forall.mp hall
        have hnone : ∃ key, customValue input key = none :=
          ⟨key, Option.not_isSome_iff_eq_none.mp hkey⟩
        have hrespects := h (String.ofList (renderEnv (currentText input) (finalValues input)))
          ((planFrontendEnvBridge_eq_write_iff happ).mpr
            ⟨hname, hnone, String.toList_ofList⟩)
        have hreadable := clean_of_others fun key hkey => (hrespects.others key hkey).1
        exact ⟨hasPlainEnds_of_kept (clean_finalValues hreadable) String.toList_ofList
          hrespects.kept, hreadable⟩
  · intro h next hwrite
    obtain ⟨hname, ⟨key, hnone⟩, -⟩ := (planFrontendEnvBridge_eq_write_iff happ).mp hwrite
    rcases h with hempty | hall | ⟨hends, hreadable⟩
    · exact absurd hempty hname
    · have hsome := hall key
      rw [hnone] at hsome
      cases hsome
    · exact respectsUser_of_clean happ hwrite (clean_finalValues hreadable) hends

end Plans

/-! ## A stray carriage return -/

/-- A file whose only line ends with two carriage returns and a newline. -/
def strayInput : FrontendEnvBridgeInputs where
  projectName := "shop"
  apiPort := .finite 3000
  appExists := true
  currentEnv := some "A=1\r\r\n"

theorem respectsUser_iff_stray :
    (∀ next, planFrontendEnvBridge strayInput = .ok (.write next) →
        RespectsUser strayInput next) ↔
      ReadsBack strayInput :=
  respectsUser_iff rfl

theorem customValue_stray (key : BridgeKey) : customValue strayInput key = none := by
  have hlast : lastValue key.text (parseEnv (strayInput.currentEnv.getD "").toList) = none := by
    cases key <;> decide
  unfold customValue
  rw [hlast]
  rfl

/-- The line is not kept. -/
theorem not_respectsUser :
    ¬ ∀ input : FrontendEnvBridgeInputs, input.appExists = true →
      ∀ next, planFrontendEnvBridge input = .ok (.write next) → RespectsUser input next := by
  intro h
  have hname : Clean strayInput.projectName.toList := clean_of_all (by decide)
  have hwrite := (@planFrontendEnvBridge_eq_write_iff strayInput
    (String.ofList (renderEnv (currentText strayInput) (finalValues strayInput))) rfl).mpr
      ⟨by decide, ⟨.apiPort, customValue_stray .apiPort⟩, String.toList_ofList⟩
  have hends := hasPlainEnds_of_kept (clean_finalValues (.inl hname)) String.toList_ofList
    (h strayInput rfl _ hwrite).kept
  exact absurd rfl (hends "A=1\r".toList (by decide))

end FrontendEnvBridge
end Core
end NestBase
