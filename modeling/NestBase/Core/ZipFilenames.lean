import Mathlib.Data.List.TakeWhile
import Mathlib.Tactic
import NestBase.Lib.Text

/-!
# Names of zip entries

`safeZipFilename` replaces the control characters of a name, removes leading
separators and one drive prefix, and then drops the empty and the dotted
segments.  What is left is a safe relative path and stays as it is when the
function is applied again, unless the removed text hid a second drive prefix:
`safeAndStable_iff` says when.
-/

namespace NestBase
namespace Core
namespace ZipFilenames

/-- `[/\\]` -/
def isSeparator (c : Char) : Bool :=
  c == '/' || c == '\\'

/-- `[a-zA-Z]` -/
def isLetter (c : Char) : Bool :=
  c.isAlpha

def replaceControl (input : List Char) : List Char :=
  input.map fun c => if c.toNat < 0x20 then '_' else c

/-- `/^[/\\]+/` -/
def stripSeparators (input : List Char) : List Char :=
  input.dropWhile isSeparator

/-- `/^[a-zA-Z]:[/\\]/` -/
def stripDrive : List Char → List Char
  | drive :: ':' :: separator :: rest =>
      if isLetter drive && isSeparator separator then rest
      else drive :: ':' :: separator :: rest
  | input => input

def keepSegment (segment : List Char) : Bool :=
  segment != [] && segment != ['.', '.'] && segment != ['.']

/-- The segments that are left of a path. -/
def keptSegments (path : List Char) : List (List Char) :=
  (path.splitOnP isSeparator).filter keepSegment

def joinSegments (segments : List (List Char)) : List Char :=
  ['/'].intercalate segments

def safeZipFilename (input : List Char) : List Char :=
  let out := joinSegments (keptSegments (stripDrive (stripSeparators (replaceControl input))))
  if out.length > 0 then out else "file".toList

/-! ## Safe names -/

/-- A drive letter with its colon and a separator. -/
def StartsWithDrive (path : List Char) : Prop :=
  ∃ drive separator rest, path = drive :: ':' :: separator :: rest ∧
    isLetter drive = true ∧ isSeparator separator = true

structure SafeName (name : List Char) : Prop where
  nonempty : name ≠ []
  noControl : ∀ c ∈ name, 0x20 ≤ c.toNat
  segments : ∀ segment ∈ name.splitOn '/', segment ≠ [] ∧ segment ≠ ['.'] ∧ segment ≠ ['.', '.']
  noBackslash : '\\' ∉ name
  noLeadingSlash : name.head? ≠ some '/'
  noDrive : ¬ StartsWithDrive name

/-- The name of the input is safe, and stays as it is. -/
structure SafeAndStable (input : List Char) : Prop where
  safe : SafeName (safeZipFilename input)
  stable : safeZipFilename (safeZipFilename input) = safeZipFilename input

/-- The segments of the input that the name is made of. -/
def nameSegments (input : List Char) : List (List Char) :=
  keptSegments (stripDrive (stripSeparators (replaceControl input)))

/-- A drive letter and a colon are the first segment, and another one follows. -/
def DriveFirst (segments : List (List Char)) : Prop :=
  ∃ drive next rest, segments = [drive, ':'] :: next :: rest ∧ isLetter drive = true

/-! ## Segments -/

/-- A segment that `keepSegment` keeps. -/
structure Kept (segment : List Char) : Prop where
  nonempty : segment ≠ []
  notCurrent : segment ≠ ['.']
  notParent : segment ≠ ['.', '.']
  noSeparator : ∀ c ∈ segment, isSeparator c = false
  noControl : ∀ c ∈ segment, 0x20 ≤ c.toNat

theorem noControl_replaceControl {input : List Char} {c : Char} (h : c ∈ replaceControl input) :
    0x20 ≤ c.toNat := by
  obtain ⟨d, -, rfl⟩ := List.mem_map.mp h
  split
  · decide
  · omega

theorem mem_stripDrive {c : Char} {path : List Char} (h : c ∈ stripDrive path) : c ∈ path := by
  unfold stripDrive at h
  split at h
  · split at h
    · exact List.mem_cons_of_mem _ (List.mem_cons_of_mem _ (List.mem_cons_of_mem _ h))
    · exact h
  · exact h

theorem kept_of_mem_nameSegments {input segment : List Char} (h : segment ∈ nameSegments input) :
    Kept segment := by
  obtain ⟨hsplit, hkeep⟩ := List.mem_filter.mp h
  simp only [keepSegment, Bool.and_eq_true, bne_iff_ne] at hkeep
  refine ⟨hkeep.1.1, hkeep.2, hkeep.1.2, Lib.Text.false_of_mem_splitOnP hsplit, ?_⟩
  intro c hc
  have hdrive := mem_stripDrive (Lib.Text.mem_of_mem_splitOnP hsplit hc)
  exact noControl_replaceControl ((List.dropWhile_suffix _).subset hdrive)

theorem isSeparator_slash : isSeparator '/' = true := rfl

theorem joinSegments_cons_cons (segment next : List Char) (rest : List (List Char)) :
    joinSegments (segment :: next :: rest) = segment ++ '/' :: joinSegments (next :: rest) := by
  simp [joinSegments]

/-- Splitting at both separators joined segments without them. -/
theorem splitOnP_joinSegments
    {segments : List (List Char)}
    (hne : segments ≠ [])
    (h : ∀ segment ∈ segments, Kept segment) :
    (joinSegments segments).splitOnP isSeparator = segments := by
  induction segments with
  | nil => exact absurd rfl hne
  | cons segment rest ih =>
      rw [List.forall_mem_cons] at h
      cases rest with
      | nil =>
          have hjoin : joinSegments [segment] = segment := by simp [joinSegments]
          rw [hjoin, List.splitOnP_eq_singleton h.1.noSeparator]
      | cons next rest =>
          rw [joinSegments_cons_cons, List.splitOnP_append_cons_of_forall_mem h.1.noSeparator '/'
            isSeparator_slash, ih (List.cons_ne_nil _ _) h.2]

theorem keptSegments_joinSegments
    {segments : List (List Char)}
    (hne : segments ≠ [])
    (h : ∀ segment ∈ segments, Kept segment) :
    keptSegments (joinSegments segments) = segments := by
  rw [keptSegments, splitOnP_joinSegments hne h]
  refine List.filter_eq_self.mpr fun segment hsegment => ?_
  have hkept := h segment hsegment
  simp [keepSegment, hkept.nonempty, hkept.notCurrent, hkept.notParent]

theorem joinSegments_ne_nil
    {segments : List (List Char)}
    (hne : segments ≠ [])
    (h : ∀ segment ∈ segments, Kept segment) :
    joinSegments segments ≠ [] := by
  intro hnil
  have hsplit := splitOnP_joinSegments hne h
  rw [hnil, List.splitOnP_nil] at hsplit
  exact (h [] (hsplit ▸ List.mem_singleton_self _)).nonempty rfl

theorem safeZipFilename_eq (input : List Char) :
    safeZipFilename input =
      if nameSegments input = [] then "file".toList else joinSegments (nameSegments input) := by
  unfold safeZipFilename
  change (if (joinSegments (nameSegments input)).length > 0 then _ else _) = _
  by_cases hne : nameSegments input = []
  · rw [if_pos hne, hne]
    rfl
  · have hjoin := joinSegments_ne_nil hne fun _ => kept_of_mem_nameSegments
    rw [if_neg hne, if_pos (List.length_pos_iff.mpr hjoin)]
    rfl

/-! ## Joined segments as a name -/

/-- A drive prefix is a first segment of two characters. -/
theorem startsWithDrive_joinSegments_iff
    {segments : List (List Char)}
    (h : ∀ segment ∈ segments, Kept segment) :
    StartsWithDrive (joinSegments segments) ↔ DriveFirst segments := by
  constructor
  · rintro ⟨drive, separator, rest, hpath, hletter, hseparator⟩
    cases segments with
    | nil => cases hpath
    | cons segment others =>
        have hkept := h segment List.mem_cons_self
        have hhead : ∃ behind, joinSegments (segment :: others) = segment ++ behind ∧
            (behind = [] ∨ ∃ next more, others = next :: more ∧ behind.head? = some '/') := by
          cases others with
          | nil => exact ⟨[], by simp [joinSegments], .inl rfl⟩
          | cons next more =>
              exact ⟨_, joinSegments_cons_cons segment next more, .inr ⟨next, more, rfl, rfl⟩⟩
        obtain ⟨behind, hjoin, hbehind⟩ := hhead
        rw [hjoin] at hpath
        match segment, hkept with
        | [], hkept => exact absurd rfl hkept.nonempty
        | [a], _ =>
            rcases hbehind with rfl | ⟨next, more, -, hslash⟩
            · simp at hpath
            · obtain ⟨tail, rfl⟩ := List.head?_eq_some_iff.mp hslash
              simp at hpath
        | [a, b], _ =>
            rcases hbehind with rfl | ⟨next, more, rfl, hslash⟩
            · simp at hpath
            · obtain ⟨tail, rfl⟩ := List.head?_eq_some_iff.mp hslash
              obtain ⟨rfl, rfl, -⟩ : a = drive ∧ b = ':' ∧ _ := by simpa using hpath
              exact ⟨a, next, more, rfl, hletter⟩
        | a :: b :: c :: tail, hkept =>
            obtain ⟨-, -, rfl, -⟩ : a = drive ∧ b = ':' ∧ c = separator ∧ _ := by simpa using hpath
            have hc := hkept.noSeparator c (by simp)
            rw [hc] at hseparator
            cases hseparator
  · rintro ⟨drive, next, rest, rfl, hletter⟩
    refine ⟨drive, '/', joinSegments (next :: rest), ?_, hletter, rfl⟩
    rw [joinSegments_cons_cons]
    rfl

theorem forall_mem_joinSegments
    {P : Char → Prop} {segments : List (List Char)}
    (hslash : P '/')
    (h : ∀ segment ∈ segments, ∀ c ∈ segment, P c) :
    ∀ c ∈ joinSegments segments, P c :=
  Lib.Text.forall_mem_intercalate (by simpa using hslash) h

theorem head?_joinSegments {segments : List (List Char)} (h : ∀ segment ∈ segments, Kept segment) :
    ∀ c ∈ (joinSegments segments).head?, isSeparator c = false := by
  intro c hc
  cases segments with
  | nil => cases hc
  | cons segment rest =>
      have hkept := h segment List.mem_cons_self
      obtain ⟨first, behind, rfl⟩ := List.exists_cons_of_ne_nil hkept.nonempty
      have hfirst : first = c := by
        cases rest with
        | nil => simpa [joinSegments] using hc
        | cons next rest =>
            rw [joinSegments_cons_cons] at hc
            simpa using hc
      exact hkept.noSeparator c (by simp [hfirst])

theorem safe_joinSegments
    {segments : List (List Char)}
    (hne : segments ≠ [])
    (h : ∀ segment ∈ segments, Kept segment)
    (hdrive : ¬ DriveFirst segments) :
    SafeName (joinSegments segments) where
  nonempty := joinSegments_ne_nil hne h
  noControl :=
    forall_mem_joinSegments (by decide) fun segment hsegment => (h segment hsegment).noControl
  segments := by
    have hslash : ∀ segment ∈ segments, '/' ∉ segment := by
      intro segment hsegment hmem
      have := (h segment hsegment).noSeparator '/' hmem
      cases this
    rw [joinSegments, List.splitOn_intercalate '/' hslash hne]
    intro segment hsegment
    have hkept := h segment hsegment
    exact ⟨hkept.nonempty, hkept.notCurrent, hkept.notParent⟩
  noBackslash := by
    intro hmem
    have hnone := forall_mem_joinSegments (P := fun c => c ≠ '\\') (by decide)
      (fun segment hsegment c hc hbackslash => by
        have := (h segment hsegment).noSeparator c hc
        rw [hbackslash] at this
        cases this)
    exact hnone '\\' hmem rfl
  noLeadingSlash := by
    intro hhead
    have := head?_joinSegments h '/' hhead
    cases this
  noDrive := fun hstarts => hdrive ((startsWithDrive_joinSegments_iff h).mp hstarts)

theorem replaceControl_of_noControl {name : List Char} (h : ∀ c ∈ name, 0x20 ≤ c.toNat) :
    replaceControl name = name := by
  have hid : ∀ c ∈ name, (if c.toNat < 0x20 then '_' else c) = id c := fun c hc =>
    if_neg (not_lt.mpr (h c hc))
  rw [replaceControl, List.map_congr_left hid, List.map_id]

theorem stripDrive_of_not_startsWithDrive {path : List Char} (h : ¬ StartsWithDrive path) :
    stripDrive path = path := by
  unfold stripDrive
  split
  · next drive separator rest =>
    split
    · next hdrive =>
      rw [Bool.and_eq_true] at hdrive
      exact absurd ⟨drive, separator, rest, rfl, hdrive.1, hdrive.2⟩ h
    · rfl
  · rfl

/-- A safe name is not rewritten. -/
theorem safeZipFilename_joinSegments
    {segments : List (List Char)}
    (hne : segments ≠ [])
    (h : ∀ segment ∈ segments, Kept segment)
    (hdrive : ¬ DriveFirst segments) :
    safeZipFilename (joinSegments segments) = joinSegments segments := by
  have hsafe := safe_joinSegments hne h hdrive
  have hstrip : stripSeparators (joinSegments segments) = joinSegments segments := by
    obtain ⟨first, rest, hpath⟩ := List.exists_cons_of_ne_nil hsafe.nonempty
    have hfirst := head?_joinSegments h first (by rw [hpath]; rfl)
    rw [hpath, stripSeparators, List.dropWhile_cons_of_neg (by simp [hfirst])]
  have hname : nameSegments (joinSegments segments) = segments := by
    rw [nameSegments, replaceControl_of_noControl hsafe.noControl, hstrip,
      stripDrive_of_not_startsWithDrive hsafe.noDrive, keptSegments_joinSegments hne h]
  rw [safeZipFilename_eq, hname, if_neg hne]

theorem safe_file : SafeName "file".toList where
  nonempty := by simp
  noControl := by simp
  segments := by decide
  noBackslash := by simp
  noLeadingSlash := by simp
  noDrive := by
    rintro ⟨drive, separator, rest, hpath, -, -⟩
    simp at hpath

/-- The name is safe and stable exactly when its segments do not begin with a
drive letter that another segment follows. -/
theorem safeAndStable_iff_driveFirst (input : List Char) :
    SafeAndStable input ↔ ¬ DriveFirst (nameSegments input) := by
  have hkept : ∀ segment ∈ nameSegments input, Kept segment := fun _ => kept_of_mem_nameSegments
  constructor
  · intro h hdrive
    have hne : nameSegments input ≠ [] := by
      obtain ⟨drive, next, rest, hname, -⟩ := hdrive
      simp [hname]
    have hsafe := h.safe.noDrive
    rw [safeZipFilename_eq, if_neg hne] at hsafe
    exact hsafe ((startsWithDrive_joinSegments_iff hkept).mpr hdrive)
  · intro hdrive
    by_cases hne : nameSegments input = []
    · have hname : safeZipFilename input = "file".toList := by
        rw [safeZipFilename_eq, if_pos hne]
      refine ⟨?_, ?_⟩
      · rw [hname]
        exact safe_file
      · rw [hname]
        rfl
    · have hname : safeZipFilename input = joinSegments (nameSegments input) := by
        rw [safeZipFilename_eq, if_neg hne]
      refine ⟨?_, ?_⟩
      · rw [hname]
        exact safe_joinSegments hne hkept hdrive
      · rw [hname]
        exact safeZipFilename_joinSegments hne hkept hdrive

/-! ## Inputs that keep a drive prefix -/

/-- Behind empty and dotted segments stands a letter with a colon, and a segment behind it stays. -/
inductive DriveLater : List Char → Prop
  | here {drive separator : Char} {rest : List Char}
      (hletter : isLetter drive = true)
      (hseparator : isSeparator separator = true)
      (hmore : keptSegments rest ≠ []) :
      DriveLater (drive :: ':' :: separator :: rest)
  | skip {segment : List Char} {separator : Char} {rest : List Char}
      (hsegment : keepSegment segment = false)
      (hseparator : isSeparator separator = true)
      (hrest : DriveLater rest) :
      DriveLater (segment ++ separator :: rest)

/-- Such a letter stands behind a drive prefix, or behind a dot, at the start of the input;
separators may come first. -/
inductive KeepsDrive : List Char → Prop
  | removed {separators rest : List Char} {drive separator : Char}
      (hseparators : ∀ c ∈ separators, isSeparator c = true)
      (hletter : isLetter drive = true)
      (hseparator : isSeparator separator = true)
      (hrest : DriveLater rest) :
      KeepsDrive (separators ++ drive :: ':' :: separator :: rest)
  | dotted {separators rest : List Char}
      (hseparators : ∀ c ∈ separators, isSeparator c = true)
      (hrest : DriveLater ('.' :: rest)) :
      KeepsDrive (separators ++ '.' :: rest)

theorem keepSegment_eq_false_iff {segment : List Char} :
    keepSegment segment = false ↔ segment = [] ∨ segment = ['.', '.'] ∨ segment = ['.'] := by
  simp only [keepSegment, Bool.and_eq_false_iff, bne_eq_false_iff_eq, or_assoc]

theorem keptSegments_append
    {segment rest : List Char} {separator : Char}
    (hsegment : ∀ c ∈ segment, isSeparator c = false)
    (hseparator : isSeparator separator = true) :
    keptSegments (segment ++ separator :: rest) =
      if keepSegment segment then segment :: keptSegments rest else keptSegments rest := by
  rw [keptSegments, List.splitOnP_append_cons_of_forall_mem hsegment separator hseparator,
    List.filter_cons]
  rfl

theorem not_isSeparator_of_isLetter {c : Char} (h : isLetter c = true) : isSeparator c = false := by
  by_contra hcontra
  rw [Bool.not_eq_false, isSeparator, Bool.or_eq_true, beq_iff_eq, beq_iff_eq] at hcontra
  rcases hcontra with rfl | rfl <;> exact absurd h (by decide)

theorem DriveLater.driveFirst {path : List Char} (h : DriveLater path) :
    DriveFirst (keptSegments path) := by
  induction h with
  | @here drive separator rest hletter hseparator hmore =>
      obtain ⟨next, more, hrest⟩ := List.exists_cons_of_ne_nil hmore
      have hplain : ∀ c ∈ [drive, ':'], isSeparator c = false :=
        List.forall_mem_cons.mpr
          ⟨not_isSeparator_of_isLetter hletter, List.forall_mem_singleton.mpr (by decide)⟩
      have happend := @keptSegments_append _ rest _ hplain hseparator
      rw [if_pos (by simp [keepSegment]), hrest] at happend
      exact ⟨drive, next, more, happend, hletter⟩
  | @skip segment separator rest hsegment hseparator _ ih =>
      have hplain : ∀ c ∈ segment, isSeparator c = false := by
        rcases keepSegment_eq_false_iff.mp hsegment with rfl | rfl | rfl <;> simp [isSeparator]
      rwa [keptSegments_append hplain hseparator, hsegment, if_neg Bool.false_ne_true]

theorem driveLater_of_driveFirst {path : List Char} (h : DriveFirst (keptSegments path)) :
    DriveLater path := by
  induction hlength : path.length using Nat.strongRecOn generalizing path with
  | ind length ih =>
      have hsegment : ∀ c ∈ path.takeWhile (!isSeparator ·), isSeparator c = false := fun c hc => by
        simpa using List.mem_takeWhile_imp hc
      have hsplit := List.takeWhile_append_dropWhile (p := fun c => !isSeparator c) (l := path)
      have hhead := List.head?_dropWhile_not (fun c => !isSeparator c) path
      generalize path.takeWhile (!isSeparator ·) = segment at hsegment hsplit
      cases hbehind : path.dropWhile (!isSeparator ·) with
      | nil =>
          -- a single segment is never followed by another
          rw [hbehind, List.append_nil] at hsplit
          rw [hsplit] at hsegment
          obtain ⟨drive, next, rest, hkept, -⟩ := h
          have hshort := List.length_filter_le keepSegment (path.splitOnP isSeparator)
          rw [← keptSegments, hkept, List.splitOnP_eq_singleton hsegment] at hshort
          simp at hshort
      | cons separator rest =>
          rw [hbehind] at hsplit hhead
          have hseparator : isSeparator separator = true := by simpa using hhead
          subst hsplit
          rw [keptSegments_append hsegment hseparator] at h
          cases hkeep : keepSegment segment with
          | true =>
              rw [hkeep, if_pos rfl] at h
              obtain ⟨drive, next, more, hkept, hletter⟩ := h
              obtain ⟨rfl, hrest⟩ := List.cons.inj hkept
              exact .here hletter hseparator (hrest ▸ List.cons_ne_nil _ _)
          | false =>
              rw [hkeep, if_neg Bool.false_ne_true] at h
              refine .skip hkeep hseparator (ih rest.length ?_ h rfl)
              rw [← hlength, List.length_append, List.length_cons]
              omega

/-- What is left behind the removed prefixes has a drive first exactly when the input keeps one. -/
theorem driveFirst_iff_keepsDrive (input : List Char) :
    DriveFirst (keptSegments (stripDrive (stripSeparators input))) ↔ KeepsDrive input := by
  constructor
  · intro h
    have hseparators : ∀ c ∈ input.takeWhile isSeparator, isSeparator c = true :=
      fun c => List.mem_takeWhile_imp
    have hhead := List.head?_dropWhile_not isSeparator input
    have hinput : input.takeWhile isSeparator ++ stripSeparators input = input :=
      List.takeWhile_append_dropWhile
    rw [← stripSeparators] at hhead
    rw [← hinput]
    by_cases hdrive : StartsWithDrive (stripSeparators input)
    · obtain ⟨drive, separator, rest, hstripped, hletter, hseparator⟩ := hdrive
      rw [hstripped] at h ⊢
      simp only [stripDrive, hletter, hseparator, Bool.and_self, if_true] at h
      exact .removed hseparators hletter hseparator (driveLater_of_driveFirst h)
    · rw [stripDrive_of_not_startsWithDrive hdrive] at h
      have hlater := driveLater_of_driveFirst h
      revert hhead hdrive hlater
      generalize stripSeparators input = path
      rintro hhead hdrive (@⟨drive, separator, rest, hletter, hseparator, -⟩ |
        @⟨segment, separator, rest, hsegment, hseparator, hrest⟩)
      · exact absurd ⟨drive, separator, rest, rfl, hletter, hseparator⟩ hdrive
      · have hlater := DriveLater.skip hsegment hseparator hrest
        rcases keepSegment_eq_false_iff.mp hsegment with rfl | rfl | rfl
        · simp [hseparator] at hhead
        · exact .dotted hseparators hlater
        · exact .dotted hseparators hlater
  · intro h
    have hstrip {separators : List Char} {c : Char} (rest : List Char)
        (hseparators : ∀ c ∈ separators, isSeparator c = true) (hc : isSeparator c = false) :
        stripSeparators (separators ++ c :: rest) = c :: rest := by
      rw [stripSeparators, List.dropWhile_append_of_pos hseparators,
        List.dropWhile_cons_of_neg (by rw [hc]; exact Bool.false_ne_true)]
    cases h with
    | removed hseparators hletter hseparator hrest =>
        rw [hstrip _ hseparators (not_isSeparator_of_isLetter hletter)]
        simp only [stripDrive, hletter, hseparator, Bool.and_self, if_true]
        exact hrest.driveFirst
    | dotted hseparators hrest =>
        rw [hstrip _ hseparators rfl, stripDrive_of_not_startsWithDrive]
        · exact hrest.driveFirst
        · rintro ⟨_, _, _, h, hletter, -⟩
          obtain rfl := (List.cons.inj h).1
          exact absurd hletter (by decide)

/-- The name is safe and stable exactly when the input, control characters replaced, keeps no
drive prefix. -/
theorem safeAndStable_iff (input : List Char) :
    SafeAndStable input ↔ ¬ KeepsDrive (replaceControl input) := by
  rw [safeAndStable_iff_driveFirst, nameSegments, driveFirst_iff_keepsDrive]

/-- A second drive prefix stays. -/
theorem not_safeAndStable_twoDrives : ¬ SafeAndStable "C:/D:/x".toList := by
  intro h
  have hstable := h.stable
  revert hstable
  decide

end ZipFilenames
end Core
end NestBase
