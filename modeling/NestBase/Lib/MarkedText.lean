import Mathlib.Data.List.Chain
import Mathlib.Data.List.Basic
import Mathlib.Tactic.Cases

/-!
# Source texts with their comments marked

Each character of a source is marked with what it belongs to: code, a literal or a
comment.  The text is what remains when the marks are forgotten (`text`), and the
same text without its comments what remains when they are blanked (`blanked`).

`mark` gives the marks of a simple reader: a string or template literal goes from one
quote to the next one of its kind that stands behind no backslash, and neither regular
expression literals nor the code in a template are recognised.

The marks of a text can be cut in front of a character of code (`mark_cut`), and a
comment never starts but with a slash (`Opens`).
-/

namespace NestBase
namespace Lib
namespace MarkedText

inductive Kind where
  | code
  | literal
  | comment
deriving DecidableEq

structure Marked where
  char : Char
  kind : Kind
deriving DecidableEq

/-- What the next character belongs to. -/
inductive Mode where
  | code
  /-- The second slash of a line comment. -/
  | lineOpen
  | line
  /-- The star that opens a block comment. -/
  | blockOpen
  | block
  /-- The slash that closes a block comment. -/
  | blockClose
  | literal (quote : Char)
  /-- The character behind a backslash. -/
  | escaped (quote : Char)
deriving DecidableEq

def isQuote (c : Char) : Bool :=
  c == '"' || c == '\'' || c == '\x60'

def isLineTerminator (c : Char) : Bool :=
  c == '\n' || c == '\r' || decide (c.toNat = 0x2028) || decide (c.toNat = 0x2029)

/-- The kind of a character and the mode behind it, by the character that follows. -/
def step (mode : Mode) (c : Char) (ahead : Option Char) : Kind × Mode :=
  match mode with
  | .code =>
      if c = '/' ∧ ahead = some '/' then (.comment, .lineOpen)
      else if c = '/' ∧ ahead = some '*' then (.comment, .blockOpen)
      else if isQuote c then (.code, .literal c)
      else (.code, .code)
  | .lineOpen => (.comment, .line)
  | .line => if isLineTerminator c then (.code, .code) else (.comment, .line)
  | .blockOpen => (.comment, .block)
  | .block => (.comment, if c = '*' ∧ ahead = some '/' then .blockClose else .block)
  | .blockClose => (.comment, .code)
  | .literal q => (.literal, if c = '\\' then .escaped q else if c = q then .code else .literal q)
  | .escaped q => (.literal, .literal q)

def mark : Mode → List Char → List Marked
  | _, [] => []
  | mode, c :: rest =>
      ⟨c, (step mode c rest.head?).1⟩ :: mark (step mode c rest.head?).2 rest

/-- The mode behind a text that is followed by neither a slash nor a star. -/
def modeAfter : Mode → List Char → Mode
  | mode, [] => mode
  | mode, c :: rest => modeAfter (step mode c rest.head?).2 rest

def Marked.isComment (m : Marked) : Bool :=
  m.kind == .comment

/-- A space for a character of a comment; a line break stays. -/
def Marked.blank (m : Marked) : Char :=
  if m.isComment && m.char != '\n' then ' ' else m.char

def text (s : List Marked) : List Char :=
  s.map Marked.char

def blanked (s : List Marked) : List Char :=
  s.map Marked.blank

/-- The text with its comments blanked. -/
def blankComments (source : List Char) : List Char :=
  blanked (mark .code source)

/-! ## Marks and texts -/

@[simp] theorem text_mark (mode : Mode) (source : List Char) : text (mark mode source) = source := by
  induction source generalizing mode with
  | nil => rfl
  | cons c rest ih => rw [mark, text, List.map_cons, ← text, ih]

@[simp] theorem length_mark (mode : Mode) (source : List Char) :
    (mark mode source).length = source.length := by
  conv_rhs => rw [← text_mark mode source]
  rw [text, List.length_map]

@[simp] theorem text_cons (m : Marked) (s : List Marked) : text (m :: s) = m.char :: text s := rfl

@[simp] theorem blanked_cons (m : Marked) (s : List Marked) :
    blanked (m :: s) = m.blank :: blanked s := rfl

@[simp] theorem length_text (s : List Marked) : (text s).length = s.length :=
  List.length_map _

@[simp] theorem length_blanked (s : List Marked) : (blanked s).length = s.length :=
  List.length_map _

@[simp] theorem blanked_append (s s' : List Marked) :
    blanked (s ++ s') = blanked s ++ blanked s' :=
  List.map_append

theorem text_drop (n : Nat) (s : List Marked) : text (s.drop n) = (text s).drop n :=
  List.map_drop

theorem blanked_drop (n : Nat) (s : List Marked) : blanked (s.drop n) = (blanked s).drop n :=
  List.map_drop

theorem text_take (n : Nat) (s : List Marked) : text (s.take n) = (text s).take n :=
  List.map_take

theorem blanked_take (n : Nat) (s : List Marked) : blanked (s.take n) = (blanked s).take n :=
  List.map_take

variable {m : Marked}

theorem blank_of_not_isComment (h : m.isComment = false) : m.blank = m.char := by
  simp [Marked.blank, h]

theorem blank_of_isComment (h : m.isComment = true) :
    m.blank = ' ' ∨ m.blank = '\n' := by
  unfold Marked.blank
  by_cases hbreak : m.char = '\n'
  · right
    simp [hbreak]
  · left
    simp [h, hbreak]

/-- Blanking makes no character but spaces. -/
theorem blank_ne {c : Char} (hchar : m.char ≠ c) (hspace : c ≠ ' ') : m.blank ≠ c := by
  unfold Marked.blank
  split
  · exact hspace.symm
  · exact hchar

theorem blank_eq_line_break_iff : m.blank = '\n' ↔ m.char = '\n' := by
  unfold Marked.blank
  by_cases hbreak : m.char = '\n'
  · simp [hbreak]
  · by_cases h : m.isComment = true
    · simp [h, hbreak]
    · simp [h, hbreak]

variable {s : List Marked}

/-- Marks of one text with the same comments are blanked alike. -/
theorem blanked_eq {s' : List Marked} (htext : text s = text s')
    (hcomments : s.map Marked.isComment = s'.map Marked.isComment) : blanked s = blanked s' := by
  induction s generalizing s' with
  | nil =>
      rw [List.map_eq_nil_iff.mp htext.symm]
  | cons m s ih =>
      cases s' with
      | nil => cases htext
      | cons m' s' =>
          obtain ⟨hchar, htext⟩ := List.cons.inj htext
          obtain ⟨hcomment, hcomments⟩ := List.cons.inj hcomments
          rw [blanked_cons, blanked_cons, ih htext hcomments, Marked.blank, Marked.blank, hchar,
            hcomment]

theorem blanked_eq_text (h : ∀ m ∈ s, m.isComment = false) :
    blanked s = text s :=
  List.map_congr_left fun m hm => blank_of_not_isComment (h m hm)

/-! ## Cuts -/

section Cuts

variable {c : Char}

theorem step_ahead (mode : Mode) (x : Char) (hslash : c ≠ '/') (hstar : c ≠ '*') :
    step mode x (some c) = step mode x none := by
  cases mode <;> simp [step, hslash, hstar]

/-- In front of a character that neither opens nor closes a comment the marks come apart. -/
theorem mark_append (mode : Mode) (front rest : List Char) (hslash : c ≠ '/') (hstar : c ≠ '*') :
    mark mode (front ++ c :: rest) = mark mode front ++ mark (modeAfter mode front) (c :: rest) := by
  induction front generalizing mode with
  | nil => rfl
  | cons x front ih =>
      have hstep : step mode x (front ++ c :: rest).head? = step mode x front.head? := by
        cases front with
        | nil => exact step_ahead mode x hslash hstar
        | cons y front => rfl
      rw [List.cons_append, mark, hstep, ih]
      rfl

/-- A character marked as code goes on in code. -/
theorem step_eq_of_code
    {mode : Mode} {ahead : Option Char}
    (hslash : c ≠ '/')
    (h : (step mode c ahead).1 = .code) :
    step mode c ahead = step .code c ahead := by
  cases mode with
  | code => rfl
  | line =>
      have hends : isLineTerminator c = true := by
        by_contra hnot
        simp [step, hnot] at h
      have hquote : isQuote c = false := by
        by_contra hcontra
        rw [Bool.not_eq_false] at hcontra
        simp only [isQuote, Bool.or_eq_true, beq_iff_eq] at hcontra
        obtain (rfl | rfl) | rfl := hcontra <;> exact absurd hends (by decide)
      simp [step, hends, hquote, hslash]
  | lineOpen => cases h
  | blockOpen => cases h
  | block => cases h
  | blockClose => cases h
  | literal q => cases h
  | escaped q => cases h

/-- The marks can be cut in front of a character of code. -/
theorem mark_cut
    {mode : Mode} {front rest : List Char}
    (hslash : c ≠ '/')
    (hstar : c ≠ '*')
    (h : (mark mode (front ++ c :: rest))[front.length]? = some ⟨c, .code⟩) :
    step (modeAfter mode front) c rest.head? = step .code c rest.head? ∧
      mark mode (front ++ c :: rest) = mark mode front ++ mark .code (c :: rest) := by
  rw [mark_append mode front rest hslash hstar] at h ⊢
  rw [List.getElem?_append_right (by rw [length_mark]), length_mark, Nat.sub_self] at h
  have hkind : (step (modeAfter mode front) c rest.head?).1 = .code :=
    congrArg Marked.kind (Option.some.inj h)
  have hstep := step_eq_of_code hslash hkind
  refine ⟨hstep, ?_⟩
  rw [mark, hstep]
  rfl

end Cuts

/-! ## Where comments start -/

/-- Behind a character outside of comments a comment starts with a slash. -/
def Opens (s : List Marked) : Prop :=
  s.IsChain fun m next => m.isComment = false → next.isComment = true → next.char = '/'

theorem char_of_head?_mark
    {mode : Mode} {source : List Char}
    (hmode : mode = .code ∨ ∃ q, mode = .literal q ∨ mode = .escaped q)
    (hm : m ∈ (mark mode source).head?)
    (hcomment : m.isComment = true) :
    m.char = '/' := by
  cases source with
  | nil => cases hm
  | cons c rest =>
      obtain rfl : _ = m := Option.some.inj hm
      change ((step mode c rest.head?).1 == .comment) = true at hcomment
      obtain rfl | ⟨q, rfl | rfl⟩ := hmode
      · simp only [step] at hcomment
        split at hcomment
        · next h => exact h.1
        · split at hcomment
          · next h => exact h.1
          · split at hcomment <;> cases hcomment
      · cases hcomment
      · cases hcomment

theorem opens_mark (mode : Mode) (source : List Char) : Opens (mark mode source) := by
  induction source generalizing mode with
  | nil => exact List.IsChain.nil
  | cons c rest ih =>
      rw [mark]
      refine List.isChain_cons.mpr ⟨?_, ih _⟩
      intro next hnext houtside hcomment
      refine char_of_head?_mark ?_ hnext hcomment
      change ((step mode c rest.head?).1 == .comment) = false at houtside
      cases mode with
      | code =>
          by_cases hline : c = '/' ∧ rest.head? = some '/'
          · simp [step, hline] at houtside
          · by_cases hblock : c = '/' ∧ rest.head? = some '*'
            · simp [step, hblock] at houtside
            · by_cases hquote : isQuote c = true
              · exact .inr ⟨c, .inl (by simp [step, hline, hblock, hquote])⟩
              · exact .inl (by simp [step, hline, hblock, hquote])
      | line =>
          by_cases hends : isLineTerminator c = true
          · exact .inl (by simp [step, hends])
          · simp [step, hends] at houtside
      | literal q =>
          by_cases hescape : c = '\\'
          · exact .inr ⟨q, .inr (by simp [step, hescape])⟩
          · by_cases hclose : c = q
            · subst hclose
              exact .inl (by simp [step, hescape])
            · exact .inr ⟨q, .inl (by simp [step, hescape, hclose])⟩
      | escaped q => exact .inr ⟨q, .inl rfl⟩
      | lineOpen => cases houtside
      | blockOpen => cases houtside
      | block => cases houtside
      | blockClose => cases houtside

/-- The text does not start inside a comment. -/
structure Starts (s : List Marked) : Prop where
  opens : Opens s
  first : ∀ m ∈ s.head?, m.isComment = true → m.char = '/'

theorem Starts.tail (h : Starts (m :: s)) (hm : m.char ≠ '/') :
    m.isComment = false ∧ Starts s := by
  have houtside : m.isComment = false := by
    by_contra hcontra
    rw [Bool.not_eq_false] at hcontra
    exact hm (h.first m rfl hcontra)
  obtain ⟨hnext, hopens⟩ := List.isChain_cons.mp h.opens
  exact ⟨houtside, hopens, fun next hmem => hnext next hmem houtside⟩

/-- What starts outside of comments and has no slash is there when they are blanked. -/
theorem Starts.shown
    {front rest : List Char}
    (h : Starts s)
    (htext : text s = front ++ rest)
    (hslash : '/' ∉ front) :
    blanked s = front ++ blanked (s.drop front.length) ∧
      text (s.drop front.length) = rest ∧ Starts (s.drop front.length) := by
  induction front generalizing s with
  | nil => exact ⟨rfl, htext, h⟩
  | cons c front ih =>
      cases s with
      | nil => cases htext
      | cons m s =>
          rw [text_cons, List.cons_append] at htext
          obtain ⟨rfl, htail⟩ := List.cons.inj htext
          obtain ⟨hm, hfront⟩ := not_or.mp (List.mem_cons.not.mp hslash)
          obtain ⟨houtside, hstarts⟩ := h.tail (Ne.symm hm)
          obtain ⟨hshown, hrest, hlater⟩ := ih hstarts htail hfront
          rw [blanked_cons, blank_of_not_isComment houtside, hshown, List.length_cons,
            List.drop_succ_cons]
          exact ⟨rfl, hrest, hlater⟩

theorem opens_drop (h : Opens s) (n : Nat) : Opens (s.drop n) :=
  List.IsChain.suffix h (List.drop_suffix n s)

theorem starts_of_outside (h : Opens (m :: s)) (hm : m.isComment = false) : Starts (m :: s) where
  opens := h
  first := by
    intro first hfirst hcomment
    obtain rfl := Option.some.inj hfirst
    rw [hm] at hcomment
    cases hcomment

end MarkedText
end Lib
end NestBase
