import Mathlib.Data.List.TakeWhile
import NestBase.Lib.Text

/-!
# The words of a text

The words are the parts between separators that are not empty.  Writing one
filling for each run of separators, and dropping the separators at both ends,
keeps them.
-/

namespace NestBase
namespace Lib
namespace Words

section Words

variable {α : Type}

def words (isSeparator : α → Bool) (text : List α) : List (List α) :=
  (text.splitOnP isSeparator).filter fun word => !word.isEmpty

/-- One filling for each run of separators; `inRun` says that one was just written. -/
def collapse (isSeparator : α → Bool) (filling : α) : Bool → List α → List α
  | _, [] => []
  | inRun, c :: rest =>
      if isSeparator c then
        if inRun then collapse isSeparator filling true rest
        else filling :: collapse isSeparator filling true rest
      else c :: collapse isSeparator filling false rest

variable {isSeparator : α → Bool}

variable {c filling : α}

theorem words_append_separator (hc : isSeparator c = true) (front back : List α) :
    words isSeparator (front ++ c :: back) =
      words isSeparator front ++ words isSeparator back := by
  rw [words, List.splitOnP_append_cons _ _ hc, List.filter_append]
  rfl

theorem words_cons_separator (hc : isSeparator c = true) (rest : List α) :
    words isSeparator (c :: rest) = words isSeparator rest :=
  words_append_separator hc [] rest

theorem words_append_of_forall
    {back : List α}
    (hback : ∀ c ∈ back, isSeparator c = true)
    (front : List α) :
    words isSeparator (front ++ back) = words isSeparator front := by
  induction back generalizing front with
  | nil => rw [List.append_nil]
  | cons c back ih =>
      obtain ⟨hc, hrest⟩ := List.forall_mem_cons.mp hback
      have hnone : words isSeparator back = [] := ih hrest []
      rw [words_append_separator hc, hnone, List.append_nil]

theorem words_of_forall_append
    {front : List α}
    (hfront : ∀ c ∈ front, isSeparator c = true)
    (back : List α) :
    words isSeparator (front ++ back) = words isSeparator back := by
  induction front with
  | nil => rfl
  | cons c front ih =>
      obtain ⟨hc, hrest⟩ := List.forall_mem_cons.mp hfront
      rw [List.cons_append, words_cons_separator hc, ih hrest]

theorem words_eq_nil_iff {text : List α} :
    words isSeparator text = [] ↔ ∀ c ∈ text, isSeparator c = true := by
  constructor
  · intro h
    induction text with
    | nil => exact fun c hc => nomatch hc
    | cons c rest ih =>
        cases hc : isSeparator c with
        | true =>
            rw [words_cons_separator hc] at h
            exact List.forall_mem_cons.mpr ⟨hc, ih h⟩
        | false =>
            obtain ⟨first, others, hsplit⟩ :=
              List.exists_cons_of_ne_nil (List.splitOnP_ne_nil isSeparator rest)
            rw [words, List.splitOnP_cons_eq_if_modifyHead, hc, hsplit] at h
            exact nomatch h
  · intro h
    exact words_append_of_forall h []

/-- Changing separators into separators keeps the parts. -/
theorem words_map
    {isOther : α → Bool} {f : α → α}
    (hsep : ∀ c, isOther c = true → isSeparator (f c) = true)
    (hword : ∀ c, isOther c = false → f c = c ∧ isSeparator c = false)
    (text : List α) :
    words isSeparator (text.map f) = words isOther text := by
  have hsplit : (text.map f).splitOnP isSeparator = text.splitOnP isOther := by
    induction text with
    | nil => rfl
    | cons c rest ih =>
        rw [List.map_cons, List.splitOnP_cons_eq_if_modifyHead,
          List.splitOnP_cons_eq_if_modifyHead, ih]
        cases hc : isOther c with
        | true => rw [if_pos (hsep c hc), if_pos rfl]
        | false =>
            obtain ⟨hf, hnot⟩ := hword c hc
            rw [hf, hnot]
  rw [words, words, hsplit]

theorem words_congr
    {isOther : α → Bool} {text : List α}
    (hsame : ∀ c ∈ text, isSeparator c = isOther c) :
    words isSeparator text = words isOther text := by
  have hsplit : text.splitOnP isSeparator = text.splitOnP isOther := by
    induction text with
    | nil => rfl
    | cons c rest ih =>
        obtain ⟨hc, hrest⟩ := List.forall_mem_cons.mp hsame
        rw [List.splitOnP_cons_eq_if_modifyHead, List.splitOnP_cons_eq_if_modifyHead, ih hrest, hc]
  rw [words, words, hsplit]

theorem mem_words {text word : List α} (h : word ∈ words isSeparator text) :
    word ≠ [] ∧ ∀ c ∈ word, isSeparator c = false ∧ c ∈ text := by
  obtain ⟨hpart, hne⟩ := List.mem_filter.mp h
  refine ⟨by simpa using hne, fun c hc => ?_⟩
  exact ⟨Text.false_of_mem_splitOnP hpart c hc, Text.mem_of_mem_splitOnP hpart hc⟩

/-- The first part of a collapsed text is kept, and the words of the later ones are. -/
theorem splitOnP_collapse (hfilling : isSeparator filling = true) (text : List α) :
    (∃ first rest rest', text.splitOnP isSeparator = first :: rest ∧
      (collapse isSeparator filling false text).splitOnP isSeparator = first :: rest' ∧
      rest'.filter (fun word => !word.isEmpty) = rest.filter fun word => !word.isEmpty) ∧
    words isSeparator (collapse isSeparator filling true text) = words isSeparator text := by
  induction text with
  | nil => exact ⟨⟨[], [], [], rfl, rfl, rfl⟩, rfl⟩
  | cons c text ih =>
      obtain ⟨⟨first, rest, rest', hsplit, hcollapsed, hsame⟩, hrun⟩ := ih
      cases hc : isSeparator c with
      | true =>
          have hplain : collapse isSeparator filling false (c :: text) =
              filling :: collapse isSeparator filling true text := by
            simp [collapse, hc]
          have hskipped : collapse isSeparator filling true (c :: text) =
              collapse isSeparator filling true text := by
            simp [collapse, hc]
          rw [hplain, hskipped, hrun, words_cons_separator hc]
          refine ⟨⟨[], _, _, ?_, ?_, hrun⟩, rfl⟩
          · rw [List.splitOnP_cons_eq_if_modifyHead, if_pos hc]
          · rw [List.splitOnP_cons_eq_if_modifyHead, if_pos hfilling]
      | false =>
          have hcopied : ∀ inRun, collapse isSeparator filling inRun (c :: text) =
              c :: collapse isSeparator filling false text := by
            intro inRun
            simp [collapse, hc]
          have hboth : (c :: text).splitOnP isSeparator = (c :: first) :: rest ∧
              (c :: collapse isSeparator filling false text).splitOnP isSeparator =
                (c :: first) :: rest' := by
            simp [List.splitOnP_cons_eq_if_modifyHead, hc, hsplit, hcollapsed]
          rw [hcopied, hcopied]
          refine ⟨⟨c :: first, rest, rest', hboth.1, hboth.2, hsame⟩, ?_⟩
          simp [words, hboth.1, hboth.2, hsame]

theorem words_collapse (hfilling : isSeparator filling = true) (text : List α) :
    words isSeparator (collapse isSeparator filling false text) = words isSeparator text := by
  obtain ⟨⟨first, rest, rest', hsplit, hcollapsed, hsame⟩, -⟩ := splitOnP_collapse hfilling text
  simp only [words, hsplit, hcollapsed, List.filter_cons, hsame]

/-- Every separator of a collapsed text is the filling. -/
theorem eq_filling_of_mem_collapse
    {inRun : Bool} {text : List α}
    (hmem : c ∈ collapse isSeparator filling inRun text)
    (hc : isSeparator c = true) :
    c = filling := by
  induction text generalizing inRun with
  | nil => exact nomatch hmem
  | cons d rest ih =>
      rw [collapse] at hmem
      split at hmem
      · split at hmem
        · exact ih hmem
        · obtain rfl | hrest := List.mem_cons.mp hmem
          · rfl
          · exact ih hrest
      · next hd =>
          obtain rfl | hrest := List.mem_cons.mp hmem
          · exact absurd hc hd
          · exact ih hrest

end Words

section Trim

/-- `trim` takes white space from both ends. -/
theorem exists_trim (s : String) :
    ∃ front back, s.toList = front ++ (Text.trim s).toList ++ back ∧
      (∀ c ∈ front, Text.isWhiteSpace c = true) ∧ ∀ c ∈ back, Text.isWhiteSpace c = true := by
  have hends : ∀ l : List Char, ∀ c ∈ l.takeWhile Text.isWhiteSpace, Text.isWhiteSpace c = true :=
    fun l c hc => List.mem_takeWhile_imp hc
  set inner := s.toList.dropWhile Text.isWhiteSpace with hinner
  refine ⟨s.toList.takeWhile Text.isWhiteSpace,
    (inner.reverse.takeWhile Text.isWhiteSpace).reverse, ?_, hends _, ?_⟩
  · have hback : (inner.reverse.dropWhile Text.isWhiteSpace).reverse ++
        (inner.reverse.takeWhile Text.isWhiteSpace).reverse = inner := by
      rw [← List.reverse_append, List.takeWhile_append_dropWhile, List.reverse_reverse]
    rw [Text.trim, String.toList_ofList, List.append_assoc, hback, hinner,
      List.takeWhile_append_dropWhile]
  · intro c hc
    exact hends _ c (List.mem_reverse.mp hc)

theorem words_trim (s : String) :
    words Text.isWhiteSpace (Text.trim s).toList = words Text.isWhiteSpace s.toList := by
  obtain ⟨front, back, hsplit, hfront, hback⟩ := exists_trim s
  rw [hsplit, words_append_of_forall hback, words_of_forall_append hfront]

theorem trim_eq_empty {s : String} (h : ∀ c ∈ s.toList, Text.isWhiteSpace c = true) :
    Text.trim s = "" := by
  have hdrop : s.toList.dropWhile Text.isWhiteSpace = [] := List.dropWhile_eq_nil_iff.mpr h
  unfold Text.trim
  rw [hdrop]
  rfl

end Trim

end Words
end Lib
end NestBase
