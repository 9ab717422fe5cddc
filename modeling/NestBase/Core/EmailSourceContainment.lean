import NestBase.Core.EmailContainment

/-!
# User text in the source of a template

The head of a source (imports, interfaces and the record with the subject)
is code around literals and names, whatever the composition is.  In the
component the blocks stand in the text of the root element, so the source is
contained when its blocks are (`userTextContained_iff`).
-/

namespace NestBase
namespace EmailBuilder

open Lib
open Lib.Tsx (InCode Mode State run)

/-! ## The lines of the source -/

/-- Lines of fixed text are contained anywhere. -/
theorem contained_of_fixed
    {pieces : List Piece}
    (hfixed : ∀ piece ∈ pieces, ∃ chars, piece = .fixed chars)
    (s : State) :
    Contained s pieces := by
  induction pieces generalizing s with
  | nil => trivial
  | cons piece rest ih =>
      obtain ⟨chars, rfl⟩ := hfixed piece List.mem_cons_self
      exact ⟨trivial, ih (fun other hother => hfixed other (List.mem_cons_of_mem _ hother)) _⟩

/-- The lines, each ended by a line break. -/
def ended (lines : List (List Piece)) : List Piece :=
  lines.flatMap fun line => line ++ [.fixed ['\n']]

variable {P : State → Prop}

theorem passes_ended_nil : Passes P (ended []) P :=
  passes_nil

theorem passes_ended_cons
    {R : State → Prop} {stack : List Mode} {line : List Piece} {rest : List (List Piece)}
    (hline : Passes P line (InCode stack))
    (hrest : Passes (InCode stack) (ended rest) R) :
    Passes P (ended (line :: rest)) R := by
  have hbreak : Passes (InCode stack) [.fixed ['\n']] (InCode stack) :=
    passes_fixed fun s hs => Tsx.inCode_run hs (List.all_eq_true.mp rfl)
  unfold ended
  rw [List.flatMap_cons]
  exact (hline.append hbreak).append hrest

theorem passes_ended_append
    {Q R : State → Prop} {front back : List (List Piece)}
    (hfront : Passes P (ended front) Q)
    (hback : Passes Q (ended back) R) :
    Passes P (ended (front ++ back)) R := by
  unfold ended
  rw [List.flatMap_append]
  exact hfront.append hback

section Lines

variable {stack : List Mode}

theorem passes_fixedLine
    {P Q : State → Prop} {parts : List (List Char)}
    (h : ∀ s, P s → Q (run s parts.flatten)) :
    Passes P (fixedLine parts) Q :=
  passes_fixed h

variable {opening : List Char}

/-- A line with a text in quotes. -/
theorem passes_quotedLine
    {path behind : List Char}
    (hopening : ∀ s, InCode stack s → run s opening = { mode := .string '"', stack := stack })
    (hpath : ∀ c ∈ path, Tsx.isStringChar '"' c = true)
    (hbehind : InCode stack (run { mode := .string '"', stack := stack } behind)) :
    Passes (InCode stack) (fixedLine [opening, path, behind]) (InCode stack) := by
  refine passes_fixedLine fun s hs => ?_
  rw [List.flatten_cons, List.flatten_cons, List.flatten_cons, List.flatten_nil, List.append_nil,
    Tsx.run_append, Tsx.run_append, hopening s hs, (Tsx.keeps_string hpath).2]
  exact hbehind

/-- A line of code around a name. -/
theorem inCode_around
    {stack' : List Mode} {name behind : List Char}
    (hopening : ∀ c ∈ opening, Tsx.isPlainCode c = true)
    (hname : ∀ c ∈ name, Tsx.isPlainCode c = true)
    (hbehind : ∀ operand, InCode stack' (run { mode := .code operand, stack := stack } behind))
    {s : State}
    (hs : InCode stack s) :
    InCode stack' (run s (opening ++ (name ++ behind))) := by
  rw [Tsx.run_append, Tsx.run_append]
  obtain ⟨operand, hend⟩ := Tsx.inCode_run (Tsx.inCode_run hs hopening) hname
  rw [hend]
  exact hbehind operand

/-- A line of code around a name that stands in it twice. -/
theorem inCode_around_two
    {stack' : List Mode} {name middle behind : List Char}
    (hopening : ∀ c ∈ opening, Tsx.isPlainCode c = true)
    (hname : ∀ c ∈ name, Tsx.isPlainCode c = true)
    (hmiddle : ∀ c ∈ middle, Tsx.isPlainCode c = true)
    (hbehind : ∀ operand, InCode stack' (run { mode := .code operand, stack := stack } behind))
    {s : State}
    (hs : InCode stack s) :
    InCode stack' (run s (opening ++ (name ++ (middle ++ (name ++ behind))))) := by
  rw [Tsx.run_append, Tsx.run_append]
  exact inCode_around hmiddle hname hbehind (Tsx.inCode_run (Tsx.inCode_run hs hopening) hname)

end Lines

/-! ## Names in the source -/

theorem isIdentChar_of_isLowerOrDigit {c : Char} (h : isLowerOrDigit c = true) :
    isIdentChar c = true := by
  simp only [isLowerOrDigit, Bool.or_eq_true] at h
  simp only [isIdentChar, Char.isAlphanum, Char.isAlpha, Bool.or_eq_true]
  tauto

/-- Identifiers stay identifiers in the other case. -/
theorem isIdentChar_case {c : Char} (h : isIdentChar c = true) :
    isIdentChar c.toUpper = true ∧ isIdentChar c.toLower = true := by
  have hall : ∀ n < 123, isIdentChar (Char.ofNat n) = true →
      isIdentChar (Char.ofNat n).toUpper = true ∧ isIdentChar (Char.ofNat n).toLower = true := by
    decide
  have hbound := (toNat_of_isIdentChar h).2
  have hc := hall c.toNat (by omega)
  rw [Char.ofNat_toNat] at hc
  exact hc h

variable {slug v : String}

theorem slug_chars (h : isValidEmailTemplateSlug slug = true) :
    ∀ c ∈ slug.toList, isIdentChar c = true ∨ c = '-' := by
  have hlower : ∀ c : Char, c.isLower = true → isIdentChar c = true := by
    intro c hc
    exact isIdentChar_of_isLowerOrDigit (by simp [isLowerOrDigit, hc])
  have hpattern := (Bool.and_eq_true_iff.mp h).2
  revert hpattern
  cases slug.toList with
  | nil => simp
  | cons first rest =>
      intro hpattern
      rcases List.eq_nil_or_concat rest with rfl | ⟨middle, last, rfl⟩
      · rw [List.forall_mem_singleton]
        exact Or.inl (hlower first hpattern)
      · have hparts : (first.isLower = true ∧ ∀ c ∈ middle, isLowerOrDigit c = true ∨ c = '-') ∧
            isLowerOrDigit last = true := by
          cases middle with
          | nil => simpa using hpattern
          | cons second middle =>
              rw [List.concat_cons] at hpattern
              change (first.isLower && (second :: middle.concat last).dropLast.all
                  (fun d => isLowerOrDigit d || d == '-') &&
                (second :: middle.concat last).getLast?.any isLowerOrDigit) = true at hpattern
              rw [← List.concat_cons, List.concat_eq_append, List.dropLast_concat,
                List.getLast?_concat] at hpattern
              simpa using hpattern
        obtain ⟨⟨hfirst, hmiddle⟩, hlast⟩ := hparts
        rw [List.forall_mem_cons, List.concat_eq_append, List.forall_mem_append,
          List.forall_mem_singleton]
        refine ⟨Or.inl (hlower first hfirst), fun c hc => ?_,
          Or.inl (isIdentChar_of_isLowerOrDigit hlast)⟩
        exact (hmiddle c hc).imp_left isIdentChar_of_isLowerOrDigit

theorem isIdentChar_kebabToPascal (h : isValidEmailTemplateSlug slug = true) :
    ∀ c ∈ kebabToPascal slug, isIdentChar c = true := by
  intro c hc
  obtain ⟨part, hpart, hmem⟩ := List.mem_flatten.mp hc
  obtain ⟨raw, hraw, rfl⟩ := List.mem_map.mp hpart
  have hsplit := (List.mem_filter.mp hraw).1
  have hchars : ∀ d ∈ raw, isIdentChar d = true := by
    intro d hd
    rcases slug_chars h d (Text.mem_of_mem_splitOn hsplit hd) with hident | rfl
    · exact hident
    · exact absurd hd (Text.not_mem_of_mem_splitOn hsplit)
  cases raw with
  | nil => cases hmem
  | cons first rest =>
      rcases List.mem_cons.mp hmem with rfl | hrest
      · exact (isIdentChar_case (hchars first List.mem_cons_self)).1
      · exact hchars c (List.mem_cons_of_mem _ hrest)

theorem isIdentChar_kebabToCamel (h : isValidEmailTemplateSlug slug = true) :
    ∀ c ∈ kebabToCamel slug, isIdentChar c = true := by
  have hpascal := isIdentChar_kebabToPascal h
  unfold kebabToCamel
  split
  · simp
  · next first rest hname =>
      rw [hname, List.forall_mem_cons] at hpascal
      rw [List.forall_mem_cons]
      exact ⟨(isIdentChar_case hpascal.1).2, hpascal.2⟩

theorem mem_sortedSet {values : List String} :
    v ∈ sortedSet values ↔ v ∈ values := by
  unfold sortedSet
  rw [List.mem_mergeSort, List.mem_eraseDups]

theorem isName_of_mem_placeholders
    {value : String}
    (h : v ∈ (placeholders value.toList).map String.ofList) :
    IsName v.toList := by
  obtain ⟨name, hname, rfl⟩ := List.mem_map.mp h
  obtain ⟨part, hpart, hvar⟩ := List.mem_filterMap.mp hname
  rw [String.toList_ofList]
  cases part with
  | text chars => cases hvar
  | var other =>
      cases hvar
      exact isName_of_mem_segments hpart

/-- The variables of a template are the names of its placeholders. -/
theorem isName_of_mem_collectVariables
    {composition : EmailComposition}
    (h : v ∈ collectVariables composition) :
    IsName v.toList := by
  have hmem := mem_sortedSet.mp h
  rcases List.mem_append.mp hmem with hmem | hblocks
  · rcases List.mem_append.mp hmem with hsubject | hpreheader
    · exact isName_of_mem_placeholders hsubject
    · revert hpreheader
      cases composition.preheader with
      | none =>
          intro hpreheader
          cases hpreheader
      | some preheader => exact isName_of_mem_placeholders
  · obtain ⟨block, -, hprops⟩ := List.mem_flatMap.mp hblocks
    obtain ⟨⟨key, value⟩, -, hvalue⟩ := List.mem_flatMap.mp hprops
    cases value with
    | str text => exact isName_of_mem_placeholders hvalue
    | num text => cases hvalue
    | bool b => cases hvalue

/-! ## The parts of the source -/

/-- The imports, from a path that stands for itself in quotes. -/
theorem passes_importLines
    {corePrefix : List Char}
    (hcore : ∀ c ∈ corePrefix, Tsx.isStringChar '"' c = true)
    {blockImports : List String}
    (himports : ∀ name ∈ blockImports, ∀ c ∈ name.toList, Tsx.isPlainCode c = true) :
    Passes (fun s => s = Tsx.start) (ended (importLines corePrefix blockImports))
      (InCode []) := by
  have hbanner : Passes (fun s => s = Tsx.start)
      (ended [fixedLine ["/**".toList],
        fixedLine [" * AUTO-GENERATED by `/hub/email-builder` — do not edit by hand.".toList],
        fixedLine [" * Hand-edits will be overwritten on the next save from the builder UI.".toList],
        fixedLine [" */".toList]]) (InCode []) := by
    rintro s rfl
    rw [String.toList_ofList, String.toList_ofList, String.toList_ofList, String.toList_ofList]
    refine ⟨contained_of_fixed ?_ _, false, by decide +kernel⟩
    intro piece hpiece
    simp only [ended, fixedLine, List.flatMap_cons, List.flatMap_nil, List.cons_append,
      List.nil_append, List.append_nil, List.mem_cons, List.not_mem_nil, or_false] at hpiece
    rcases hpiece with rfl | rfl | rfl | rfl | rfl | rfl | rfl | rfl <;> exact ⟨_, rfl⟩
  have hreact : Passes (InCode []) (fixedLine ["import * as React from \"react\";".toList])
      (InCode []) := by
    refine passes_fixedLine fun s hs => ?_
    obtain ⟨operand, rfl⟩ := hs
    rw [String.toList_ofList]
    exact ⟨false, by cases operand <;> rfl⟩
  have hbarebone : Passes (InCode [])
      (fixedLine ["import \x7b Barebone \x7d from \"".toList, corePrefix,
        "/layouts/Barebone.js\";".toList]) (InCode []) := by
    rw [String.toList_ofList, String.toList_ofList]
    exact passes_quotedLine (by rintro s ⟨operand, rfl⟩; cases operand <;> rfl) hcore
      ⟨false, rfl⟩
  have hbrand : Passes (InCode [])
      (fixedLine ["import type \x7b BrandConfig \x7d from \"".toList, corePrefix,
        "/brand.js\";".toList]) (InCode []) := by
    rw [String.toList_ofList, String.toList_ofList]
    exact passes_quotedLine (by rintro s ⟨operand, rfl⟩; cases operand <;> rfl) hcore
      ⟨false, rfl⟩
  have hblocks : Passes (InCode [])
      (ended (if blockImports = [] then []
        else
          [fixedLine ["import \x7b ".toList,
            ", ".toList.intercalate (blockImports.map String.toList),
            " \x7d from \"".toList, corePrefix, "/blocks/index.js\";".toList]])) (InCode []) := by
    have hnames : ∀ c ∈ ", ".toList.intercalate (blockImports.map String.toList),
        Tsx.isPlainCode c = true := by
      refine Text.forall_mem_intercalate (List.all_eq_true.mp rfl) fun part hpart => ?_
      obtain ⟨name, hname, rfl⟩ := List.mem_map.mp hpart
      exact himports name hname
    split
    · exact passes_ended_nil
    · refine passes_ended_cons ?_ passes_ended_nil
      have hnamed : ∀ s, InCode [] s →
          run s ("import \x7b ".toList ++
            (", ".toList.intercalate (blockImports.map String.toList) ++
              " \x7d from \"".toList)) = { mode := .string '"', stack := [] } := by
        rintro s ⟨operand, rfl⟩
        have hopen : InCode [.code false]
            (run { mode := .code operand, stack := [] } "import \x7b ".toList) :=
          ⟨false, by cases operand <;> rfl⟩
        obtain ⟨operand', hend⟩ := Tsx.inCode_run hopen hnames
        rw [Tsx.run_append, Tsx.run_append, hend]
        cases operand' <;> rfl
      have hline : Passes (InCode []) (fixedLine [_, corePrefix, "/blocks/index.js\";".toList])
          (InCode []) :=
        passes_quotedLine hnamed hcore ⟨false, rfl⟩
      unfold fixedLine at hline ⊢
      simpa only [List.flatten_cons, List.append_assoc] using hline
  exact passes_ended_append
    (passes_ended_append hbanner (passes_ended_cons hreact (passes_ended_cons passes_nil
      (passes_ended_cons hbarebone passes_ended_nil))))
    (passes_ended_append hblocks
      (passes_ended_cons hbrand (passes_ended_cons passes_nil passes_ended_nil)))

section Names

variable {pascalName : List Char}

/-- The interface of the variables. -/
theorem passes_interfaceLines
    (hname : ∀ c ∈ pascalName, Tsx.isPlainCode c = true)
    {vars : List String}
    (hvars : ∀ v ∈ vars, IsName v.toList) :
    Passes (InCode []) (ended (interfaceLines pascalName vars)) (InCode []) := by
  have hopen : Passes (InCode []) (fixedLine ["export interface ".toList, pascalName,
      "Vars \x7b".toList]) (InCode [.code false]) := by
    refine passes_fixedLine fun s hs => ?_
    simp only [List.flatten_cons, List.flatten_nil, List.append_nil]
    exact inCode_around (List.all_eq_true.mp rfl) hname
      (fun operand => ⟨false, by cases operand <;> rfl⟩) hs
  have hclose : Passes (InCode [.code false]) (fixedLine ["\x7d".toList]) (InCode []) := by
    refine passes_fixedLine fun s hs => ?_
    obtain ⟨operand, rfl⟩ := hs
    exact ⟨false, by cases operand <;> rfl⟩
  have hmembers : Passes (InCode [.code false])
      (ended (vars.map fun v => [.fixed "  ".toList, .member v.toList, .fixed ": string;".toList]))
      (InCode [.code false]) := by
    induction vars with
    | nil => exact passes_ended_nil
    | cons v rest ih =>
        have hv := hvars v List.mem_cons_self
        have hindent : Passes (InCode [.code false]) [.fixed "  ".toList] (InCode [.code false]) :=
          passes_fixed fun s hs => Tsx.inCode_run hs (List.all_eq_true.mp rfl)
        have htype : Passes (InCode [.code false]) [.fixed ": string;".toList]
            (InCode [.code false]) :=
          passes_fixed fun s hs => Tsx.inCode_run hs (List.all_eq_true.mp rfl)
        have hmember : Passes (InCode [.code false]) [.member v.toList] (InCode [.code false]) := by
          intro s hs
          refine ⟨⟨⟨hv, _, hs⟩, trivial⟩, ?_⟩
          rw [written_cons, written_nil, List.append_nil]
          exact Tsx.inCode_run hs fun c hc => isPlainCode_of_isIdentChar (hv.2 c hc)
        exact passes_ended_cons (hindent.cons (hmember.cons htype))
          (ih fun other hother => hvars other (List.mem_cons_of_mem _ hother))
  exact passes_ended_cons hopen (passes_ended_append hmembers
    (passes_ended_cons hclose (passes_ended_cons passes_nil passes_ended_nil)))

/-- The record with the name and the subject. -/
theorem passes_metaLines
    {slug : String}
    (hslug : isValidEmailTemplateSlug slug = true)
    (vars : List String)
    (subject : String) :
    Passes (InCode []) (ended (metaLines slug vars subject)) (InCode []) := by
  have hcamel : ∀ c ∈ kebabToCamel slug, Tsx.isPlainCode c = true := fun c hc =>
    isPlainCode_of_isIdentChar (isIdentChar_kebabToCamel hslug c hc)
  have hpascal : ∀ c ∈ kebabToPascal slug, Tsx.isPlainCode c = true := fun c hc =>
    isPlainCode_of_isIdentChar (isIdentChar_kebabToPascal hslug c hc)
  have hquoted : ∀ c ∈ slug.toList, Tsx.isStringChar '"' c = true := by
    intro c hc
    rcases slug_chars hslug c hc with hident | rfl
    · have hother : ∀ d : Char, isIdentChar d = false → c ≠ d := by
        rintro d hd rfl
        rw [hident] at hd
        cases hd
      simp [Tsx.isStringChar, Tsx.isLineBreak, hother '"' (by decide), hother '\\' (by decide),
        hother '\n' (by decide), hother '\r' (by decide)]
    · decide
  have hopen : Passes (InCode []) (fixedLine ["export const ".toList, kebabToCamel slug,
      "Meta = \x7b".toList]) (InCode [.code false]) := by
    refine passes_fixedLine fun s hs => ?_
    simp only [List.flatten_cons, List.flatten_nil, List.append_nil]
    exact inCode_around (List.all_eq_true.mp rfl) hcamel
      (fun operand => ⟨false, by cases operand <;> rfl⟩) hs
  have hnameLine : Passes (InCode [.code false]) (fixedLine ["  name: \"".toList, slug.toList,
      "\",".toList]) (InCode [.code false]) :=
    passes_quotedLine (by rintro s ⟨operand, rfl⟩; cases operand <;> rfl) hquoted
      ⟨false, rfl⟩
  have hsubject : Passes (InCode [.code false])
      (fixedLine [if vars = [] then "  subject: (_vars: ".toList else "  subject: (vars: ".toList,
        kebabToPascal slug, "Vars): string => ".toList] ++
        (literalPieces subject "vars" ++ [.fixed [',']])) (InCode [.code false]) := by
    have hparameter : Passes (InCode [.code false])
        (fixedLine [if vars = [] then "  subject: (_vars: ".toList else "  subject: (vars: ".toList,
          kebabToPascal slug, "Vars): string => ".toList]) (InCode [.code false]) := by
      refine passes_fixedLine fun s hs => ?_
      simp only [List.flatten_cons, List.flatten_nil, List.append_nil]
      refine inCode_around ?_ hpascal (fun operand => ⟨false, by cases operand <;> rfl⟩) hs
      split <;> exact List.all_eq_true.mp rfl
    have hcomma : Passes (InCode [.code false]) [.fixed [',']] (InCode [.code false]) :=
      passes_fixed fun s hs => Tsx.inCode_run hs (List.all_eq_true.mp rfl)
    exact hparameter.append ((passes_literalPieces (Or.inl rfl) subject).append hcomma)
  have hclose : Passes (InCode [.code false]) (fixedLine ["\x7d;".toList]) (InCode []) := by
    refine passes_fixedLine fun s hs => ?_
    obtain ⟨operand, rfl⟩ := hs
    exact ⟨false, by cases operand <;> rfl⟩
  exact passes_ended_cons hopen (passes_ended_cons hnameLine (passes_ended_cons hsubject
    (passes_ended_cons hclose (passes_ended_cons passes_nil passes_ended_nil))))

theorem passes_propsLines (hname : ∀ c ∈ pascalName, Tsx.isPlainCode c = true) :
    Passes (InCode []) (ended (propsLines pascalName)) (InCode []) := by
  have hopen : Passes (InCode []) (fixedLine ["export interface ".toList, pascalName,
      "Props extends ".toList, pascalName, "Vars \x7b".toList]) (InCode [.code false]) := by
    refine passes_fixedLine fun s hs => ?_
    simp only [List.flatten_cons, List.flatten_nil, List.append_nil]
    exact inCode_around_two (List.all_eq_true.mp rfl) hname (List.all_eq_true.mp rfl)
      (fun operand => ⟨false, by cases operand <;> rfl⟩) hs
  have hbrand : Passes (InCode [.code false]) (fixedLine ["  brand?: BrandConfig;".toList])
      (InCode [.code false]) :=
    passes_fixedLine fun s hs => Tsx.inCode_run hs (List.all_eq_true.mp rfl)
  have hclose : Passes (InCode [.code false]) (fixedLine ["\x7d".toList]) (InCode []) := by
    refine passes_fixedLine fun s hs => ?_
    obtain ⟨operand, rfl⟩ := hs
    exact ⟨false, by cases operand <;> rfl⟩
  exact passes_ended_cons hopen (passes_ended_cons hbrand
    (passes_ended_cons hclose (passes_ended_cons passes_nil passes_ended_nil)))

/-- The component, up to the text of its root element. -/
theorem passes_rootLines
    (hname : ∀ c ∈ pascalName, Tsx.isPlainCode c = true)
    (preheader : Option String) :
    Passes (InCode [])
      (ended [fixedLine ["export default function ".toList, pascalName, "(props: ".toList,
          pascalName, "Props): React.ReactElement \x7b".toList],
        fixedLine ["  return (".toList],
        fixedLine ["    <Barebone brand=\x7bprops.brand\x7d".toList] ++
          (preheaderPieces preheader ++ [.fixed ['>']])])
      (InText [.code true, .code false]) := by
  have hfunction : Passes (InCode [])
      (fixedLine ["export default function ".toList, pascalName, "(props: ".toList,
        pascalName, "Props): React.ReactElement \x7b".toList]) (InCode [.code false]) := by
    rw [String.toList_ofList, String.toList_ofList, String.toList_ofList]
    refine passes_fixedLine fun s hs => ?_
    simp only [List.flatten_cons, List.flatten_nil, List.append_nil]
    exact inCode_around_two (List.all_eq_true.mp rfl) hname (List.all_eq_true.mp rfl)
      (fun operand => ⟨false, by cases operand <;> rfl⟩) hs
  -- An operand is expected behind the parenthesis, so `<` opens an element.
  have hreturn : Passes (InCode [.code false]) (fixedLine ["  return (".toList] ++ [.fixed ['\n']])
      (fun s => s = { mode := .code false, stack := [.code false] }) := by
    rw [String.toList_ofList]
    rintro s ⟨operand, rfl⟩
    exact ⟨⟨trivial, trivial, trivial⟩, by cases operand <;> rfl⟩
  have hroot : Passes (fun s => s = { mode := .code false, stack := [.code false] })
      (fixedLine ["    <Barebone brand=\x7bprops.brand\x7d".toList])
      (InTag [.code true, .code false]) := by
    rw [String.toList_ofList]
    refine passes_fixedLine fun s hs => ?_
    subst hs
    rfl
  have hpreheader : Passes (InTag [.code true, .code false]) (preheaderPieces preheader)
      (InTag [.code true, .code false]) := by
    cases preheader with
    | none => exact passes_nil
    | some preheader =>
        exact passes_tagExpression (fun _ => rfl) fun _ => passes_literalPieces (Or.inr rfl) _
  have hend : Passes (InTag [.code true, .code false]) [.fixed ['>']]
      (InText [.code true, .code false]) := by
    refine passes_fixed fun s hs => ?_
    rw [InTag] at hs
    rw [hs]
    rfl
  have hbreak : Passes (InText [.code true, .code false]) [.fixed ['\n']]
      (InText [.code true, .code false]) := by
    refine passes_fixed fun s hs => ?_
    rw [InText] at hs
    rw [hs]
    rfl
  refine passes_ended_cons hfunction ?_
  unfold ended
  rw [List.flatMap_cons, List.flatMap_cons, List.flatMap_nil, List.append_nil]
  exact hreturn.append ((hroot.append (hpreheader.append hend)).append hbreak)

/-- The component is contained when its blocks are. -/
theorem contained_componentLines_iff
    (hname : ∀ c ∈ pascalName, Tsx.isPlainCode c = true)
    (preheader : Option String)
    {children : List EmailBlockSpec}
    (hknown : ∀ block ∈ children, KNOWN_EMAIL_BLOCKS.contains block.type = true)
    {s : State}
    (hs : InCode [] s) :
    Contained s (ended (componentLines pascalName preheader children)) ↔
      ∀ block ∈ children, PlainBlock block := by
  obtain ⟨hroot, htext⟩ := passes_rootLines hname preheader s hs
  have hclosing : ∀ s, Contained s (ended [fixedLine ["    </Barebone>".toList],
      fixedLine ["  );".toList], fixedLine ["\x7d".toList]]) :=
    fun s => ⟨trivial, trivial, trivial, trivial, trivial, trivial, trivial⟩
  unfold componentLines ended at *
  rw [List.flatMap_append, List.flatMap_append, contained_append_iff, contained_append_iff]
  by_cases hchildren : children = []
  · subst hchildren
    rw [if_pos rfl]
    exact ⟨fun _ block hblock => absurd hblock List.not_mem_nil,
      fun _ => ⟨hroot, trivial, hclosing _⟩⟩
  · rw [if_neg hchildren, List.flatMap_singleton, contained_append_iff,
      contained_childrenPieces_iff hknown htext]
    exact ⟨fun h => h.2.1.1, fun h => ⟨hroot, ⟨h, trivial, trivial⟩, hclosing _⟩⟩

end Names

/-! ## The source -/

theorem known_of_validateChildren
    {options : ValidateCompositionOptions} {i : Nat} {children : List EmailBlockSpec}
    (h : validateChildren options i children = .ok ()) :
    ∀ block ∈ children, options.knownBlocks.contains block.type = true := by
  induction children generalizing i with
  | nil => simp
  | cons block rest ih =>
      rw [validateChildren] at h
      split at h
      · cases h
      · next hknown =>
          rw [not_not] at hknown
          have hrest : validateChildren options (i + 1) rest = .ok () := by
            split at h
            · split at h
              · split at h
                · cases h
                · exact h
              · cases h
            · exact h
          exact List.forall_mem_cons.mpr ⟨hknown, ih hrest⟩

theorem known_of_validateEmailComposition
    {composition : EmailComposition}
    (h : validateEmailComposition defaultOptions composition = .ok ()) :
    ∀ block ∈ composition.children, KNOWN_EMAIL_BLOCKS.contains block.type = true := by
  unfold validateEmailComposition at h
  split at h
  · cases h
  · split at h
    · cases h
    · exact known_of_validateChildren h

/-- A name of a component stands for itself in code. -/
theorem isPlainCode_componentName
    {type name : String}
    (h : blockTypeToComponentName type = some name) :
    ∀ c ∈ name.toList, Tsx.isPlainCode c = true := by
  unfold blockTypeToComponentName at h
  split at h <;> cases h <;> exact List.all_eq_true.mp rfl

/-- Behind its fixed head, the source is contained when its blocks are. -/
theorem contained_sourcePieces_iff
    {input : ComposeEmailTemplateSourceInput}
    (hslug : isValidEmailTemplateSlug input.slug = true)
    (hvalid : validateEmailComposition defaultOptions input.composition = .ok ())
    (hcore : ∀ path ∈ input.coreImportPrefix, ∀ c ∈ path.toList,
      Tsx.isStringChar '"' c = true) :
    Contained Tsx.start (sourcePieces input) ↔
      ∀ block ∈ input.composition.children, PlainBlock block := by
  have hpath : ∀ c ∈ (input.coreImportPrefix.getD MODULE_TEMPLATE_CORE_IMPORT_PREFIX).toList,
      Tsx.isStringChar '"' c = true := by
    cases hgiven : input.coreImportPrefix with
    | none => exact List.all_eq_true.mp rfl
    | some path => exact hcore path hgiven
  have hpascal : ∀ c ∈ kebabToPascal input.slug, Tsx.isPlainCode c = true := fun c hc =>
    isPlainCode_of_isIdentChar (isIdentChar_kebabToPascal hslug c hc)
  have himports : ∀ name ∈ ((collectBlockTypes input.composition).filterMap
      blockTypeToComponentName).mergeSort, ∀ c ∈ name.toList, Tsx.isPlainCode c = true := by
    intro name hmem
    obtain ⟨type, -, hcomponent⟩ := List.mem_filterMap.mp (List.mem_mergeSort.mp hmem)
    exact isPlainCode_componentName hcomponent
  have hvars : ∀ v ∈ collectVariables input.composition, IsName v.toList :=
    fun v hv => isName_of_mem_collectVariables hv
  have hhead := passes_ended_append (passes_importLines hpath himports)
    (passes_ended_append (passes_interfaceLines hpascal hvars)
      (passes_ended_append
        (passes_metaLines hslug (collectVariables input.composition) input.composition.subject)
        (passes_propsLines hpascal)))
  obtain ⟨hcontained, hcode⟩ := hhead Tsx.start rfl
  have hcomponent := contained_componentLines_iff hpascal input.composition.preheader
    (known_of_validateEmailComposition hvalid) hcode
  have hsplit : sourcePieces input = ended (importLines
      (input.coreImportPrefix.getD MODULE_TEMPLATE_CORE_IMPORT_PREFIX).toList
      ((collectBlockTypes input.composition).filterMap blockTypeToComponentName).mergeSort ++
        (interfaceLines (kebabToPascal input.slug) (collectVariables input.composition) ++
          (metaLines input.slug (collectVariables input.composition) input.composition.subject ++
            propsLines (kebabToPascal input.slug)))) ++
      ended (componentLines (kebabToPascal input.slug) input.composition.preheader
        input.composition.children) := by
    simp only [sourcePieces, sourceLines, ended, List.flatMap_append, List.append_assoc]
  rw [hsplit, contained_append_iff, hcomponent]
  exact ⟨And.right, fun h => ⟨hcontained, h⟩⟩

/-- The source is made of the pieces, and every user text in it lies in one literal. -/
def UserTextContained (input : ComposeEmailTemplateSourceInput) : Prop :=
  written (sourcePieces input) = (composeEmailTemplateSource input).toList ∧
    Contained Tsx.start (sourcePieces input)

/-- User text is contained exactly when the texts that are written as they are have no
brace and no angle bracket. -/
theorem userTextContained_iff
    {input : ComposeEmailTemplateSourceInput}
    (hslug : isValidEmailTemplateSlug input.slug = true)
    (hvalid : validateEmailComposition defaultOptions input.composition = .ok ())
    (hcore : ∀ path ∈ input.coreImportPrefix, ∀ c ∈ path.toList,
      Tsx.isStringChar '"' c = true) :
    UserTextContained input ↔ ∀ block ∈ input.composition.children, PlainBlock block := by
  have hiff := contained_sourcePieces_iff hslug hvalid hcore
  exact ⟨fun h => hiff.mp h.2, fun h => ⟨written_sourcePieces input, hiff.mpr h⟩⟩

def welcomeInput : ComposeEmailTemplateSourceInput where
  slug := "welcome-2"
  composition :=
    { layout := "Barebone"
      subject := "Welcome `\x7b\x7b name \x7d\x7d`"
      preheader := some "$\x7b1\x7d"
      children :=
        [{ type := "paragraph", props := some [("text", .str "1 < 2, \x7b\x7bname\x7d\x7d")] },
          { type := "divider", props := none }] }

/-- The brace and the angle bracket of the paragraph are escaped. -/
theorem userTextContained_welcomeInput : UserTextContained welcomeInput := by
  refine (userTextContained_iff (by decide) rfl (by simp [welcomeInput])).mpr ?_
  refine List.forall_mem_cons.mpr ⟨?_, List.forall_mem_singleton.mpr ?_⟩
  · intro _ value hvalue hplaceholder
    cases hvalue
    exact absurd hplaceholder (by decide)
  · intro hdivider
    exact absurd rfl hdivider

def exitInput : ComposeEmailTemplateSourceInput where
  slug := "welcome"
  composition :=
    { layout := "Barebone"
      subject := "Welcome"
      preheader := none
      children := [{ type := "paragraph", props := some [("text", .str "\x7bprocess.exit()\x7d")] }] }

/-- A block text in braces is read as an expression. -/
theorem not_userTextContained_exitInput :
    isValidEmailTemplateSlug exitInput.slug = true ∧
      validateEmailComposition defaultOptions exitInput.composition = .ok () ∧
        ¬ UserTextContained exitInput := by
  refine ⟨by decide, rfl, fun h => ?_⟩
  have hplain := (contained_sourcePieces_iff (by decide) rfl (by simp [exitInput])).mp h.2
  have hbrace := hplain _ List.mem_cons_self (by decide) _ rfl (by decide) '\x7b' (by decide)
  exact absurd hbrace (by decide)

end EmailBuilder
end NestBase
