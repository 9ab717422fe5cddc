import Mathlib.Data.List.Basic
import Mathlib.Tactic

/-!
# Words of a POSIX shell command

A command is read character by character.  Single quotes keep every character,
double quotes all but a few, a backslash keeps the next one; blanks outside of
quotes separate the words.  A text with an operator, a comment or a character that
the shell would expand is no list of words, and neither is one with an open quote.

`quote` puts a value in single quotes, with its own single quotes outside of them.
A quoted value is read as this value, whatever it contains (`run_quote`).
-/

namespace NestBase
namespace Lib
namespace ShellWords

abbrev Word : Type := List Char

inductive Mode where
  | unquoted
  /-- A backslash has been read outside of quotes. -/
  | escaped
  | single
  | double
  /-- A backslash has been read in double quotes. -/
  | doubleEscaped
deriving DecidableEq

structure State where
  mode : Mode
  /-- The word that is being read; none between two words. -/
  current : Option Word
  words : List Word
deriving DecidableEq

def start : State where
  mode := .unquoted
  current := none
  words := []

/-- Operators, line breaks, and characters that begin an expansion. -/
def isSpecial (c : Char) : Bool :=
  "|&;<>()$\x60*?[\n".toList.contains c

/-- Characters that are special at the head of a word. -/
def isSpecialFirst (c : Char) : Bool :=
  c == '#' || c == '~'

def isBlank (c : Char) : Bool :=
  c == ' ' || c == '\t'

namespace State

def append (s : State) (c : Char) : State :=
  { s with current := some (s.current.getD [] ++ [c]) }

/-- The word ends. -/
def finish (s : State) : State :=
  match s.current with
  | none => s
  | some word => { s with current := none, words := s.words ++ [word] }

/-- A quote begins a word, though it is empty. -/
def enter (s : State) (mode : Mode) : State :=
  { s with mode := mode, current := some (s.current.getD []) }

end State

/-- One character. -/
def step (s : State) (c : Char) : Option State :=
  match s.mode with
  | .unquoted =>
      if isBlank c then some s.finish
      else if c = '\'' then some (s.enter .single)
      else if c = '"' then some (s.enter .double)
      else if c = '\\' then some { s with mode := .escaped }
      else if isSpecial c || (s.current.isNone && isSpecialFirst c) then none
      else some (s.append c)
  | .escaped =>
      -- a line break behind a backslash is no character of the word
      if c = '\n' then some { s with mode := .unquoted }
      else some { s.append c with mode := .unquoted }
  | .single =>
      if c = '\'' then some { s with mode := .unquoted } else some (s.append c)
  | .double =>
      if c = '"' then some { s with mode := .unquoted }
      else if c = '\\' then some { s with mode := .doubleEscaped }
      else if c = '$' ∨ c = '\x60' then none
      else some (s.append c)
  | .doubleEscaped =>
      if c = '\n' then some { s with mode := .double }
      else if c = '$' ∨ c = '\x60' ∨ c = '"' ∨ c = '\\' then
        some { s.append c with mode := .double }
      else some { (s.append '\\').append c with mode := .double }

def run (s : State) (text : List Char) : Option State :=
  text.foldlM step s

def nul : Char := Char.ofNat 0

/-- The words of a command.  A text with a NUL cannot be given to a shell. -/
def words (text : List Char) : Option (List Word) :=
  if text.contains nul then none
  else (run start text).bind fun s => if s.mode = .unquoted then some s.finish.words else none

/-- A value in single quotes; each of its own single quotes is written `'\''`. -/
def quote (value : List Char) : List Char :=
  '\'' :: (value.flatMap fun c => if c = '\'' then ['\'', '\\', '\'', '\''] else [c]) ++ ['\'']

/-! ## Reading quoted values -/

theorem run_append (s : State) (first second : List Char) :
    run s (first ++ second) = (run s first).bind fun s => run s second :=
  List.foldlM_append

theorem run_cons (s : State) (c : Char) (text : List Char) :
    run s (c :: text) = (step s c).bind fun s => run s text :=
  List.foldlM_cons

@[simp] theorem run_nil (s : State) : run s [] = some s := rfl

/-- The state in which a word has been read up to a place outside of quotes. -/
def inWord (words : List Word) (word : Word) : State where
  mode := .unquoted
  current := some word
  words := words

/-- The state between two words. -/
def between (words : List Word) : State where
  mode := .unquoted
  current := none
  words := words

def inSingle (words : List Word) (word : Word) : State where
  mode := .single
  current := some word
  words := words

theorem run_quoted_inside (words : List Word) (word value : List Char) :
    run (inSingle words word)
        (value.flatMap fun c => if c = '\'' then ['\'', '\\', '\'', '\''] else [c]) =
      some (inSingle words (word ++ value)) := by
  induction value generalizing word with
  | nil => simp
  | cons c value ih =>
      rw [List.flatMap_cons, run_append]
      by_cases hquote : c = '\''
      · subst hquote
        have hstep : run (inSingle words word) ['\'', '\\', '\'', '\''] =
            some (inSingle words (word ++ ['\''])) := rfl
        rw [if_pos rfl, hstep, Option.bind_some, ih, List.append_assoc]
        rfl
      · have hstep : run (inSingle words word) [c] = some (inSingle words (word ++ [c])) := by
          simp [run_cons, step, inSingle, hquote, State.append]
        rw [if_neg hquote, hstep, Option.bind_some, ih, List.append_assoc]
        rfl

/-- A quoted value is read as the value. -/
theorem run_quote (words : List Word) (value : List Char) :
    run (between words) (quote value) = some (inWord words value) := by
  have hopen : step (between words) '\'' = some (inSingle words []) := rfl
  have hclose : run (inSingle words value) ['\''] = some (inWord words value) := rfl
  rw [quote, List.cons_append, run_cons, hopen, Option.bind_some, run_append,
    run_quoted_inside, List.nil_append, Option.bind_some, hclose]

/-- A character that stands for itself outside of quotes. -/
def isPlain (c : Char) : Bool :=
  c != nul && !isBlank c && c != '\'' && c != '"' && c != '\\' && !isSpecial c &&
    !isSpecialFirst c

theorem step_plain {c : Char} (h : isPlain c = true) (words : List Word) (word : Option Word) :
    step { mode := .unquoted, current := word, words := words } c =
      some (inWord words (word.getD [] ++ [c])) := by
  simp only [isPlain, Bool.and_eq_true, Bool.not_eq_true', bne_iff_ne] at h
  obtain ⟨⟨⟨⟨⟨⟨-, hblank⟩, hsingle⟩, hdouble⟩, hbackslash⟩, hspecial⟩, hfirst⟩ := h
  simp [step, hblank, hsingle, hdouble, hbackslash, hspecial, hfirst, State.append, inWord]

theorem run_plain_inWord {text : List Char} (h : text.all isPlain = true)
    (words : List Word) (word : Word) :
    run (inWord words word) text = some (inWord words (word ++ text)) := by
  induction text generalizing word with
  | nil => simp
  | cons c text ih =>
      rw [List.all_cons, Bool.and_eq_true] at h
      have hstep : step (inWord words word) c = some (inWord words (word ++ [c])) :=
        step_plain h.1 words (some word)
      rw [run_cons, hstep, Option.bind_some, ih h.2, List.append_assoc]
      rfl

/-- A text of plain characters is read as one word. -/
theorem run_plain {text : List Char} (hne : text ≠ []) (h : text.all isPlain = true)
    (words : List Word) :
    run (between words) text = some (inWord words text) := by
  obtain ⟨c, rest, rfl⟩ := List.exists_cons_of_ne_nil hne
  rw [List.all_cons, Bool.and_eq_true] at h
  have hstep : step (between words) c = some (inWord words [c]) := step_plain h.1 words none
  rw [run_cons, hstep, Option.bind_some, run_plain_inWord h.2]
  rfl

/-! ## Commands -/

/-- The text is read as the word from a place between two words. -/
def Reads (text : List Char) (word : Word) : Prop :=
  ∀ words, run (between words) text = some (inWord words word)

theorem reads_quote (value : List Char) : Reads (quote value) value :=
  fun words => run_quote words value

theorem reads_plain {text : List Char} (hne : text ≠ []) (h : text.all isPlain = true) :
    Reads text text :=
  run_plain hne h

theorem run_parts {parts : List (List Char × Word)} {last : List Char × Word}
    (h : ∀ part ∈ parts ++ [last], Reads part.1 part.2)
    (words : List Word) :
    run (between words) ([' '].intercalate ((parts ++ [last]).map Prod.fst)) =
      some (inWord (words ++ parts.map Prod.snd) last.2) := by
  induction parts generalizing words with
  | nil =>
      have hlast := h last (by simp) words
      simpa using hlast
  | cons part parts ih =>
      rw [List.cons_append, List.forall_mem_cons] at h
      have hblank : step (inWord words part.2) ' ' = some (between (words ++ [part.2])) := rfl
      have hjoin : [' '].intercalate (((part :: parts) ++ [last]).map Prod.fst) =
          part.1 ++ ' ' :: [' '].intercalate ((parts ++ [last]).map Prod.fst) := by
        cases parts <;> simp
      rw [hjoin, run_append, h.1, Option.bind_some, run_cons, hblank, Option.bind_some, ih h.2]
      simp

theorem not_mem_quote {value : List Char} (h : nul ∉ value) : nul ∉ quote value := by
  intro hmem
  simp only [quote, List.cons_append, List.mem_cons, List.mem_append, List.mem_flatMap,
    List.not_mem_nil, or_false] at hmem
  rcases hmem with hopen | ⟨c, hc, hmem⟩ | hclose
  · exact absurd hopen (by decide)
  · split at hmem
    · exact absurd hmem (by decide)
    · exact h (List.mem_singleton.mp hmem ▸ hc)
  · exact absurd hclose (by decide)

theorem not_mem_plain {text : List Char} (h : text.all isPlain = true) : nul ∉ text := by
  intro hmem
  have hplain := List.all_eq_true.mp h nul hmem
  simp [isPlain] at hplain

theorem not_mem_join {texts : List (List Char)} (h : ∀ text ∈ texts, nul ∉ text) :
    nul ∉ [' '].intercalate texts := by
  induction texts with
  | nil => simp
  | cons text texts ih =>
      rw [List.forall_mem_cons] at h
      have hrest := ih h.2
      cases texts with
      | nil => simpa using h.1
      | cons next texts =>
          rw [List.intercalate_cons_cons]
          simp only [List.mem_append, List.mem_singleton, not_or]
          exact ⟨⟨h.1, by decide⟩, hrest⟩

/-- Texts that are read as words, joined by blanks, are a command of these words. -/
theorem words_join {parts : List (List Char × Word)}
    (hne : parts ≠ [])
    (hnul : ∀ part ∈ parts, nul ∉ part.1)
    (h : ∀ part ∈ parts, Reads part.1 part.2) :
    words ([' '].intercalate (parts.map Prod.fst)) = some (parts.map Prod.snd) := by
  have hfree : nul ∉ [' '].intercalate (parts.map Prod.fst) := by
    refine not_mem_join fun text htext => ?_
    obtain ⟨part, hpart, rfl⟩ := List.mem_map.mp htext
    exact hnul part hpart
  obtain ⟨front, last, rfl⟩ := (List.eq_nil_or_concat' parts).resolve_left hne
  have hrun : run start ([' '].intercalate ((front ++ [last]).map Prod.fst)) =
      some (inWord (front.map Prod.snd) last.2) := run_parts h []
  rw [words, if_neg (by simpa using hfree), hrun]
  simp [inWord, State.finish]

end ShellWords
end Lib
end NestBase
