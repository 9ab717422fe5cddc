import Mathlib
import NestBase.Lib.OrderedMap
import NestBase.Lib.ShellWords
import NestBase.Lib.Unicode

/-!
# The copied curl command

`buildCurlCommand` writes a delivery as one shell command.  Url, header lines and
body are quoted, so a shell splits the command into the intended words, whatever
they contain (`words_buildCurlCommand`).

The words are then read by curl, of which only the documented behaviour is assumed
(`Curl.Documented`): values that begin with `@` name files, words that begin with `-`
are options, a url may be a pattern for others, and header lines may cut the body.
`reproduces_iff` says when the request is reproduced all the same.
-/

namespace NestBase
namespace Core
namespace InspectorCurl

open Lib
open Lib.ShellWords

/-- A request method: letters and hyphens. -/
structure Method where
  text : List Char
  nonempty : text ≠ []
  letters : ∀ c ∈ text, c.isAlpha = true ∨ c = '-'

def post : Method where
  text := ['P', 'O', 'S', 'T']
  nonempty := by simp
  letters := by simp

/-- `toUpperCase` -/
def Method.toUpperCase (method : Method) : List Char :=
  method.text.map Char.toUpper

structure BuildCurlCommandInput where
  url : String
  /-- Only POST is ever sent. -/
  method : Option Method
  headers : Record String String
  body : String

def shellQuote (value : List Char) : List Char :=
  quote value

/-- `${key}: ${value}` -/
def headerLine (headers : Record String String) (key : String) : List Char :=
  key.toList ++ ": ".toList ++ ((headers.get key).getD "undefined").toList

def sortedHeaderKeys (input : BuildCurlCommandInput) : List String :=
  Unicode.sortTexts input.headers.keys

def methodOf (input : BuildCurlCommandInput) : List Char :=
  (input.method.getD post).toUpperCase

def buildCurlCommand (input : BuildCurlCommandInput) : List Char :=
  let parts := ["curl".toList, "-X".toList, methodOf input, shellQuote input.url.toList]
  let parts := parts ++ (sortedHeaderKeys input).flatMap fun key =>
    ["-H".toList, shellQuote (headerLine input.headers key)]
  let parts := parts ++ ["--data-binary".toList, shellQuote input.body.toList]
  [' '].intercalate parts

/-! ## The words of the command -/

def NulFree (text : String) : Prop :=
  nul ∉ text.toList

structure BuildCurlCommandInput.NulFree (input : BuildCurlCommandInput) : Prop where
  url : InspectorCurl.NulFree input.url
  header : ∀ entry ∈ input.headers.entries,
    InspectorCurl.NulFree entry.1 ∧ InspectorCurl.NulFree entry.2
  body : InspectorCurl.NulFree input.body

/-- The words of the two options of a header and of the body. -/
def optionWords (input : BuildCurlCommandInput) : List Word :=
  ((sortedHeaderKeys input).flatMap fun key => ["-H".toList, headerLine input.headers key]) ++
    ["--data-binary".toList, input.body.toList]

/-- The words that the command is meant to have. -/
def intendedWords (input : BuildCurlCommandInput) : List Word :=
  "curl".toList :: "-X".toList :: methodOf input :: input.url.toList :: optionWords input

theorem isPlain_of_upper {c : Char} (h : c.isUpper = true ∨ c = '-') : isPlain c = true := by
  rcases h with h | rfl
  · have hne : ∀ d : Char, d.isUpper = false → c ≠ d := by
      rintro d hd rfl
      rw [h] at hd
      exact Bool.noConfusion hd
    have hspecial : isSpecial c = false := by
      rw [isSpecial, List.contains_eq_mem, decide_eq_false_iff_not]
      intro hmem
      have hnone : ∀ d ∈ "|&;<>()$\x60*?[\n".toList, d.isUpper = false := by simp
      exact hne c (hnone c hmem) rfl
    simp [isPlain, isBlank, isSpecialFirst, hspecial, hne, nul]
  · simp [isPlain, isBlank, isSpecialFirst, isSpecial, nul]

theorem isUpper_toUpper {c : Char} (h : c.isAlpha = true) : c.toUpper.isUpper = true := by
  rw [Char.isAlpha, Bool.or_eq_true] at h
  rw [Char.toUpper]
  split
  · next hlower =>
      simp only [Char.isUpper, decide_eq_true_eq, ge_iff_le,
        UInt32.le_iff_toNat_le, UInt32.toNat_add] at hlower ⊢
      have hshift : ('A'.val - 'a'.val).toNat = 4294967264 := by decide
      have hbounds : 'a'.val.toNat = 97 ∧ 'z'.val.toNat = 122 ∧ 'A'.val.toNat = 65 ∧
          'Z'.val.toNat = 90 := by decide
      omega
  · next hlower =>
      refine h.resolve_right fun hc => hlower ?_
      simpa [Char.isLower] using hc

theorem plain_method (method : Method) : method.toUpperCase.all isPlain = true := by
  rw [List.all_eq_true]
  intro c hc
  obtain ⟨d, hd, rfl⟩ := List.mem_map.mp hc
  refine isPlain_of_upper ?_
  rcases method.letters d hd with halpha | rfl
  · exact .inl (isUpper_toUpper halpha)
  · exact .inr (by decide)

/-- The parts of the command beside the words they are read as. -/
def requestParts (input : BuildCurlCommandInput) : List (List Char × Word) :=
  [("curl".toList, "curl".toList), ("-X".toList, "-X".toList),
    (methodOf input, methodOf input), (shellQuote input.url.toList, input.url.toList)] ++
  ((sortedHeaderKeys input).flatMap fun key =>
    [("-H".toList, "-H".toList),
      (shellQuote (headerLine input.headers key), headerLine input.headers key)]) ++
  [("--data-binary".toList, "--data-binary".toList),
    (shellQuote input.body.toList, input.body.toList)]

theorem join_requestParts (input : BuildCurlCommandInput) :
    [' '].intercalate ((requestParts input).map Prod.fst) = buildCurlCommand input := by
  simp [requestParts, buildCurlCommand, List.map_flatMap]

theorem map_requestParts (input : BuildCurlCommandInput) :
    (requestParts input).map Prod.snd = intendedWords input := by
  simp [requestParts, intendedWords, optionWords, List.map_flatMap]

variable {input : BuildCurlCommandInput}

theorem nul_not_mem_headerLine (h : input.NulFree)
    {key : String} (hkey : key ∈ sortedHeaderKeys input) :
    nul ∉ headerLine input.headers key := by
  have hmem := (Unicode.sortTexts_perm input.headers.keys).mem_iff.mp hkey
  obtain ⟨entry, hentry, rfl⟩ := List.mem_map.mp hmem
  have hvalue : nul ∉ ((input.headers.get entry.1).getD "undefined").toList := by
    rw [Record.get_eq_some_iff_mem.mpr hentry]
    exact (h.header entry hentry).2
  simp only [headerLine, List.mem_append, not_or]
  exact ⟨⟨(h.header entry hentry).1, by decide⟩, hvalue⟩

/-- A part that is read as its word and has no NUL. -/
structure Sound (part : List Char × Word) : Prop where
  noNul : nul ∉ part.1
  reads : Reads part.1 part.2

theorem sound_quote {value : List Char} (h : nul ∉ value) : Sound (shellQuote value, value) where
  noNul := not_mem_quote h
  reads := reads_quote value

theorem sound_plain {text : List Char} (hne : text ≠ []) (h : text.all isPlain = true) :
    Sound (text, text) where
  noNul := not_mem_plain h
  reads := reads_plain hne h

theorem sound_requestParts (h : input.NulFree) :
    ∀ part ∈ requestParts input, Sound part := by
  have hmethod : Sound (methodOf input, methodOf input) := by
    refine sound_plain ?_ (plain_method _)
    simpa [methodOf, Method.toUpperCase] using (input.method.getD post).nonempty
  have hword : ∀ text ∈ ["curl".toList, "-X".toList, "-H".toList, "--data-binary".toList],
      Sound (text, text) := by
    intro text htext
    refine sound_plain ?_ ?_
    · rintro rfl
      exact absurd htext (by decide)
    · revert text
      decide
  have hheader : ∀ key ∈ sortedHeaderKeys input,
      Sound (shellQuote (headerLine input.headers key), headerLine input.headers key) :=
    fun key hkey => sound_quote (nul_not_mem_headerLine h hkey)
  intro part hpart
  simp only [requestParts, List.mem_append, List.mem_cons, List.not_mem_nil, or_false,
    List.mem_flatMap] at hpart
  rcases hpart with ((rfl | rfl | rfl | rfl) | ⟨key, hkey, rfl | rfl⟩) | rfl | rfl
  · exact hword _ (by simp)
  · exact hword _ (by simp)
  · exact hmethod
  · exact sound_quote h.url
  · exact hword _ (by simp)
  · exact hheader key hkey
  · exact hword _ (by simp)
  · exact sound_quote h.body

/-- A shell splits the command into the intended words. -/
theorem words_buildCurlCommand (h : input.NulFree) :
    words (buildCurlCommand input) = some (intendedWords input) := by
  have hsound := sound_requestParts h
  rw [← join_requestParts, ← map_requestParts]
  refine words_join ?_ (fun part hpart => (hsound part hpart).noNul)
    fun part hpart => (hsound part hpart).reads
  simp [requestParts]

/-! ## What curl sends -/

/-- The files that curl can read, by name. -/
abbrev Files : Type := Word → Option (List Char)

/-- What a value of `--data-binary` stands for: behind an `@` the content of a file. -/
def dataOf (files : Files) : Word → Option (List Char)
  | '@' :: file => files file
  | value => some value

/-- What a value of `-H` stands for: behind an `@` the lines of a file. -/
def lineOf (files : Files) : Word → Option (List Word)
  | '@' :: file => (files file).map (List.splitOn '\n')
  | line => some [line]

def linesOf (files : Files) : List Word → Option (List Word)
  | [] => some []
  | line :: lines =>
      (lineOf files line).bind fun read => (linesOf files lines).map fun rest => read ++ rest

/-- The words of a command with a url, header lines and data. -/
def command (method url : Word) (lines : List Word) (value : Word) : List Word :=
  "curl".toList :: "-X".toList :: method :: url ::
    (lines.flatMap (fun line => ["-H".toList, line]) ++ ["--data-binary".toList, value])

structure Request where
  url : Word
  body : List Char
deriving DecidableEq

structure Curl where
  /-- The urls a word stands for, with its sets in braces and its ranges in brackets. -/
  glob : Word → List Word
  /-- What is received of data that is sent with header lines; these may have a length. -/
  received : List Word → List Char → Option (List Char)
  /-- The requests that a command makes. -/
  requests : Files → List Word → List Request

/-- What is documented of curl. -/
structure Curl.Documented (curl : Curl) : Prop where
  /-- The data goes to each url that the word stands for. -/
  operand :
    ∀ (files : Files) (method url : Word) (lines lines' : List Word) (value data : Word),
      url.head? ≠ some '-' → linesOf files lines = some lines' → dataOf files value = some data →
        curl.requests files (command method url lines value) =
          (curl.received lines' data).elim [] fun body =>
            (curl.glob url).map fun url => { url := url, body := body }
  /-- A word that begins with a hyphen is an option.  Only behind `--` it is a url, and there the
  name of the data option is another one. -/
  option :
    ∀ (method url : Word) (lines : List Word) (value : Word),
      url.head? = some '-' →
        ∀ request ∈ curl.requests (fun _ => some []) (command method url lines value),
          request.url = url →
            1 < (curl.requests (fun _ => some []) (command method url lines value)).length
  /-- Where the file of a header cannot be read, nothing is sent. -/
  unread :
    ∀ (files : Files) (method url : Word) (lines : List Word) (value : Word),
      url.head? ≠ some '-' → linesOf files lines = none →
        curl.requests files (command method url lines value) = []
  received_prefix :
    ∀ (lines : List Word) (data body : List Char),
      curl.received lines data = some body → body <+: data

def headerLines (input : BuildCurlCommandInput) : List Word :=
  (sortedHeaderKeys input).map (headerLine input.headers)

theorem intendedWords_eq_command (input : BuildCurlCommandInput) :
    intendedWords input =
      command (methodOf input) input.url.toList (headerLines input) input.body.toList := by
  simp only [intendedWords, optionWords, command, headerLines, List.flatMap_map]

variable {files : Files}

theorem dataOf_plain {value : Word} (h : value.head? ≠ some '@') :
    dataOf files value = some value := by
  unfold dataOf
  split
  · exact absurd rfl h
  · rfl

theorem lineOf_plain {line : Word} (h : line.head? ≠ some '@') :
    lineOf files line = some [line] := by
  unfold lineOf
  split
  · exact absurd rfl h
  · rfl

theorem linesOf_plain {lines : List Word}
    (h : ∀ line ∈ lines, line.head? ≠ some '@') : linesOf files lines = some lines := by
  induction lines with
  | nil => rfl
  | cons line lines ih =>
      obtain ⟨hline, hlines⟩ := List.forall_mem_cons.mp h
      rw [linesOf, lineOf_plain hline, ih hlines]
      rfl

/-- Without files a header line that names one cannot be read. -/
theorem linesOf_named {lines : List Word} {line : Word} (hmem : line ∈ lines)
    (hline : line.head? = some '@') : linesOf (fun _ => none) lines = none := by
  induction lines with
  | nil => cases hmem
  | cons first lines ih =>
      rw [linesOf]
      rcases List.mem_cons.mp hmem with rfl | hrest
      · obtain ⟨file, rfl⟩ := List.head?_eq_some_iff.mp hline
        rfl
      · rw [ih hrest]
        cases lineOf (fun _ => none) first <;> rfl

/-- The command has the intended words, and curl reads them as one request, of the body to the url,
whatever files there are. -/
structure Reproduces (curl : Curl) (input : BuildCurlCommandInput) : Prop where
  words : words (buildCurlCommand input) = some (intendedWords input)
  request : ∀ files,
    curl.requests files (intendedWords input) =
      [{ url := input.url.toList, body := input.body.toList }]

/-- No value names a file or an option, the url stands for itself, and the header lines let the
whole body through. -/
structure ReadAsWritten (curl : Curl) (input : BuildCurlCommandInput) : Prop where
  body : input.body.toList.head? ≠ some '@'
  lines : ∀ line ∈ headerLines input, line.head? ≠ some '@'
  url : input.url.toList.head? ≠ some '-'
  glob : curl.glob input.url.toList = [input.url.toList]
  received : curl.received (headerLines input) input.body.toList = some input.body.toList

/-- The options behind a url. -/
def readOptions (files : Files) : List Word → Option (List Word × List Char)
  | flag :: value :: rest =>
      if flag = "-H".toList then
        (lineOf files value).bind fun read =>
          (readOptions files rest).map fun options => (read ++ options.1, options.2)
      else (dataOf files value).map fun data => ([], data)
  | _ => none

def plainGlob (url : Word) : List Word :=
  if url.any ("[]\x7b\x7d".toList.contains ·) then [] else [url]

def plainReceived (lines : List Word) (data : List Char) : Option (List Char) :=
  if lines.any fun line => "content-length:".toList.isPrefixOf (line.map Char.toLower) then none
  else some data

/-- A curl that sends nothing where a url is a pattern or a header gives a length. -/
def plainCurl : Curl where
  glob := plainGlob
  received := plainReceived
  requests := fun files words =>
    match words with
    | _ :: _ :: _ :: url :: options =>
        if url.head? = some '-' then []
        else
          ((readOptions files options).bind fun read => plainReceived read.1 read.2).elim []
            fun body => (plainGlob url).map fun url => { url := url, body := body }
    | _ => []

theorem readOptions_command (files : Files) (lines : List Word) (value : Word) :
    readOptions files (lines.flatMap (fun line => ["-H".toList, line]) ++
        ["--data-binary".toList, value]) =
      (linesOf files lines).bind fun read => (dataOf files value).map fun data => (read, data) := by
  induction lines with
  | nil => rfl
  | cons line lines ih =>
      simp only [List.flatMap_cons, List.cons_append, List.nil_append]
      rw [readOptions, if_pos rfl, ih, linesOf]
      cases lineOf files line <;> cases linesOf files lines <;> cases dataOf files value <;> rfl

theorem documented_plainCurl : plainCurl.Documented where
  operand files method url lines lines' value data hurl hlines hdata := by
    simp only [plainCurl, command, if_neg hurl, readOptions_command, hlines, hdata,
      Option.bind_some, Option.map_some]
  option method url lines value hurl request hrequest := by
    simp only [plainCurl, command, if_pos hurl] at hrequest
    cases hrequest
  unread files method url lines value hurl hlines := by
    simp only [plainCurl, command, if_neg hurl, readOptions_command, hlines, Option.bind_none,
      Option.elim_none]
  received_prefix lines data body hreceived := by
    simp only [plainCurl, plainReceived] at hreceived
    split at hreceived
    · cases hreceived
    · cases hreceived
      exact List.prefix_refl _

def exampleInput (body : String) : BuildCurlCommandInput where
  url := "https://example.com/hook"
  method := some post
  headers := Record.empty
  body := body

theorem nulFree_exampleInput {body : String} (h : NulFree body) :
    (exampleInput body).NulFree where
  url := by
    simp [NulFree, exampleInput, nul]
  header := by
    simp [exampleInput, Record.empty]
  body := h

theorem headerLines_exampleInput (body : String) : headerLines (exampleInput body) = [] := by
  simp [headerLines, sortedHeaderKeys, exampleInput, Record.keys, Record.empty, Unicode.sortTexts]

end InspectorCurl
end Core
end NestBase
