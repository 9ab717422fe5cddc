import Mathlib.Data.List.Basic
import Mathlib.Tactic

/-!
# Normal form of POSIX paths

A path is read segment by segment against the stack of directories it is in,
innermost first.  Empty segments and `.` change nothing, `..` leaves the
innermost directory.  A relative path may leave more directories than it
entered: these `..` stay at the bottom of the stack.

`foldl_enter_append` is the reason why a path that never leaves its start can
be put below any other directory.
-/

namespace NestBase
namespace Lib
namespace PosixPath

/-- A part of a path between two slashes. -/
abbrev Segment : Type := List Char

/-- The segment `..`. -/
def parent : Segment := ['.', '.']

/-- The directories after one more segment, innermost first. -/
def enter (absolute : Bool) (stack : List Segment) (segment : Segment) : List Segment :=
  if segment = [] ∨ segment = ['.'] then stack
  else if segment = parent then
    match stack with
    | [] => if absolute then [] else [parent]
    | top :: rest => if top = parent then parent :: top :: rest else rest
  else segment :: stack

/-- The directories after a whole path. -/
def walk (absolute : Bool) (stack : List Segment) (path : List Char) : List Segment :=
  (path.splitOn '/').foldl (enter absolute) stack

def isAbsolute (path : List Char) : Bool :=
  decide (path.head? = some '/')

/-- The segments of the normal form, outermost first. -/
def segments (path : List Char) : List Segment :=
  (walk (isAbsolute path) [] path).reverse

/-- The text of the normal form; a final slash is kept. -/
def normalize (path : List Char) : List Char :=
  let trailing : List Char := if path.getLast? = some '/' then ['/'] else []
  match isAbsolute path, segments path with
  | true, [] => ['/']
  | true, parts => '/' :: (['/'].intercalate parts ++ trailing)
  | false, [] => '.' :: trailing
  | false, parts => ['/'].intercalate parts ++ trailing

section Walk

variable {stack base : List Segment}
variable {parts : List Segment}
variable {segment : Segment}

/-! ## One segment -/

/-- A segment that names a directory or a file. -/
structure Plain (segment : Segment) : Prop where
  noSlash : '/' ∉ segment
  nonempty : segment ≠ []
  notCurrent : segment ≠ ['.']
  notParent : segment ≠ parent

theorem enter_plain (absolute : Bool) (hplain : Plain segment) :
    enter absolute stack segment = segment :: stack := by
  unfold enter
  rw [if_neg, if_neg hplain.notParent]
  rintro (hempty | hcurrent)
  · exact hplain.nonempty hempty
  · exact hplain.notCurrent hcurrent

/-- A relative path never forgets a directory it left too much. -/
theorem parent_mem_enter (hmem : parent ∈ stack) :
    parent ∈ enter false stack segment := by
  unfold enter
  split
  · exact hmem
  · split
    · cases stack with
      | nil =>
          cases hmem
      | cons top rest =>
          simp only
          split
          · exact List.mem_cons_self
          · next htop =>
            rcases List.mem_cons.mp hmem with heq | hrest
            · exact absurd heq.symm htop
            · exact hrest
    · exact List.mem_cons_of_mem segment hmem

/-- Below a stack that is not left, the directories underneath do not matter. -/
theorem enter_append (hmem : parent ∉ enter false stack segment) (hstack : parent ∉ stack) :
    enter false (stack ++ base) segment = enter false stack segment ++ base := by
  unfold enter at hmem ⊢
  split
  · rfl
  · next hskip =>
    rw [if_neg hskip] at hmem
    split
    · next hup =>
      rw [if_pos hup] at hmem
      cases stack with
      | nil =>
          simp at hmem
      | cons top rest =>
          have htop : top ≠ parent := by
            intro heq
            exact hstack (heq ▸ List.mem_cons_self)
          simp only [List.cons_append, if_neg htop]
    · rfl

/-! ## Many segments -/

theorem parent_mem_foldl_enter (hmem : parent ∈ stack) :
    parent ∈ parts.foldl (enter false) stack := by
  induction parts generalizing stack with
  | nil =>
      exact hmem
  | cons segment rest ih =>
      exact ih (parent_mem_enter hmem)

/-- A path that does not leave its start goes the same way below any directories. -/
theorem foldl_enter_append (hmem : parent ∉ parts.foldl (enter false) stack) :
    parts.foldl (enter false) (stack ++ base) =
      parts.foldl (enter false) stack ++ base := by
  induction parts generalizing stack with
  | nil =>
      rfl
  | cons segment rest ih =>
      rw [List.foldl_cons] at hmem
      have hentered : parent ∉ enter false stack segment := by
        intro hin
        exact hmem (parent_mem_foldl_enter hin)
      have hstack : parent ∉ stack := by
        intro hin
        exact hentered (parent_mem_enter hin)
      simp only [List.foldl_cons]
      rw [enter_append hentered hstack]
      exact ih hmem

/-- Directories left too much lie at the bottom of the stack. -/
def ParentsAtBottom (stack : List Segment) : Prop :=
  stack.Pairwise fun above below => above = parent → below = parent

theorem parentsAtBottom_enter (hbottom : ParentsAtBottom stack) :
    ParentsAtBottom (enter false stack segment) := by
  unfold enter
  split
  · exact hbottom
  · split
    · cases stack with
      | nil =>
          exact List.pairwise_singleton _ _
      | cons top rest =>
          obtain ⟨hbelow, hrest⟩ := List.pairwise_cons.mp hbottom
          simp only
          split
          · next htop =>
            refine List.pairwise_cons.mpr ⟨?_, hbottom⟩
            intro below hin _
            rcases List.mem_cons.mp hin with rfl | hin
            · exact htop
            · exact hbelow below hin htop
          · exact hrest
    · next hnot =>
      refine List.pairwise_cons.mpr ⟨?_, hbottom⟩
      intro _ _ hparent
      exact absurd hparent hnot

theorem parentsAtBottom_foldl_enter (hbottom : ParentsAtBottom stack) :
    ParentsAtBottom (parts.foldl (enter false) stack) := by
  induction parts generalizing stack with
  | nil =>
      exact hbottom
  | cons segment rest ih =>
      exact ih (parentsAtBottom_enter hbottom)

/-- A stack whose bottom is a real directory was never left. -/
theorem ParentsAtBottom.parent_not_mem
    {inner : List Segment} {bottom : Segment}
    (hbottom : ParentsAtBottom (inner ++ [bottom]))
    (hreal : bottom ≠ parent) :
    parent ∉ inner ++ [bottom] := by
  intro hmem
  rcases List.mem_append.mp hmem with hinner | hlast
  · have hbelow := (List.pairwise_append.mp hbottom).2.2 parent hinner bottom
      (List.mem_singleton_self bottom) rfl
    exact hreal hbelow
  · exact hreal (List.mem_singleton.mp hlast).symm

/-! ## Paths -/

/-- A path after a slash goes on from where the path before it ended. -/
theorem walk_append_slash (absolute : Bool) (stack : List Segment) (first second : List Char) :
    walk absolute stack (first ++ '/' :: second) =
      walk absolute (walk absolute stack first) second := by
  simp only [walk, List.splitOn_append_cons_self, List.foldl_append]

theorem walk_plain (absolute : Bool) (hplain : Plain segment) :
    walk absolute stack segment = segment :: stack := by
  simp only [walk, List.splitOn_eq_singleton hplain.noSlash, List.foldl_cons, List.foldl_nil,
    enter_plain absolute hplain]

/-- A path that starts with a plain segment is relative. -/
theorem isAbsolute_plain_append (hplain : Plain segment) (rest : List Char) :
    isAbsolute (segment ++ rest) = false := by
  unfold isAbsolute
  rw [decide_eq_false_iff_not]
  cases segment with
  | nil =>
      exact absurd rfl hplain.nonempty
  | cons c cs =>
      intro hhead
      simp only [List.cons_append, List.head?_cons, Option.some.injEq] at hhead
      exact hplain.noSlash (hhead ▸ List.mem_cons_self)

/--
A path inside a directory, seen from the directory: where it ends when it does
not lead out.
-/
theorem walk_below
    {directory : Segment} {path : List Char}
    (hdirectory : Plain directory)
    (hhead : (segments (directory ++ '/' :: path)).head? = some directory) :
    ∃ inner,
      walk false [directory] path = inner ++ [directory] ∧
        parent ∉ inner ++ [directory] := by
  have hwalk :
      segments (directory ++ '/' :: path) = (walk false [directory] path).reverse := by
    unfold segments
    rw [isAbsolute_plain_append hdirectory, walk_append_slash, walk_plain false hdirectory]
  rw [hwalk, List.head?_reverse] at hhead
  obtain ⟨inner, hinner⟩ := List.getLast?_eq_some_iff.mp hhead
  refine ⟨inner, hinner, ?_⟩
  have hbottom : ParentsAtBottom (walk false [directory] path) :=
    parentsAtBottom_foldl_enter (List.pairwise_singleton _ _)
  rw [hinner] at hbottom
  exact hbottom.parent_not_mem hdirectory.notParent

end Walk

end PosixPath
end Lib
end NestBase
