import NestBase.Core.IdempotencyFingerprint
import NestBase.Lib.StableSort

/-!
# The fingerprint and the order of keys

`stableStringify` prints the entries of an object in the order in which
`localeCompare` sorts their keys.  The sort is stable, and `localeCompare` may
report 0 for two different keys, such as a letter with its accent in one code
point and in two.  Such keys are printed in the order of the request.

The fingerprint of a value ignores the order of keys exactly when no object in
it, at any depth, has two different keys that compare equal.
-/

namespace NestBase
namespace Idempotency

open Lib
open Lib.StableSort (sortBy)

section KeyOrder

/-- Two different keys of the object compare equal. -/
def Tied (localeCompare : String → String → Ordering) (entries : List (String × Json)) : Prop :=
  ∃ a ∈ entries, ∃ b ∈ entries, a.1 ≠ b.1 ∧ localeCompare a.1 b.1 = .eq

/-- Every reordering of the value prints the same, and requests with it hash the same. -/
def IgnoresKeyOrder (localeCompare : String → String → Ordering) (value : Json) : Prop :=
  ∀ value', Json.SameUpToKeyOrder value value' →
    stableStringify localeCompare value' = stableStringify localeCompare value ∧
    ∀ (env : ServiceEnv) (request : RequestFingerprintInput), env.localeCompare = localeCompare →
      computeRequestHash env { request with body := some value' } =
        computeRequestHash env { request with body := some value }

variable {localeCompare : String → String → Ordering}

/-! ## An object as its sorted pairs of key and text -/

def pairsOf (localeCompare : String → String → Ordering) (entries : List (String × Json)) :
    List (String × String) :=
  entries.map fun entry => (entry.1, stableStringify localeCompare entry.2)

def printPair (pair : String × String) : List Char :=
  (Json.quote pair.1).toList ++ ':' :: pair.2.toList

theorem keys_pairsOf (entries : List (String × Json)) :
    (pairsOf localeCompare entries).map Prod.fst = entries.map Prod.fst := by
  unfold pairsOf
  rw [List.map_map]
  rfl

theorem printed_obj (localeCompare : String → String → Ordering) (entries : List (String × Json)) :
    printed localeCompare (.obj entries) =
      '\x7b' ::
        ([','].intercalate
          ((sortBy localeCompare Prod.fst (pairsOf localeCompare entries)).map printPair) ++
            ['\x7d']) := by
  unfold printed
  rw [stableStringify, stringifyEntries_eq_map]
  simp only [String.toList_append, String.toList_intercalate, List.map_map]
  have hpair :
      String.toList ∘ (fun entry : String × String => Json.quote entry.1 ++ ":" ++ entry.2) =
        printPair := by
    funext pair
    simp [printPair]
  rw [hpair]
  rfl

/-! ## Values with infinite numbers -/

variable {items : List Json}

theorem exists_finite_items
    (h : ∀ item ∈ items, ∃ finite : Json, finite.isFinite = true ∧
      stableStringify localeCompare finite = stableStringify localeCompare item) :
    ∃ finites, Json.itemsFinite finites = true ∧
      stringifyItems localeCompare finites = stringifyItems localeCompare items := by
  induction items with
  | nil => exact ⟨[], rfl, rfl⟩
  | cons item rest ih =>
      obtain ⟨finite, hfinite, htext⟩ := h item List.mem_cons_self
      obtain ⟨finites, hfinites, htexts⟩ := ih fun other hmem => h other (List.mem_cons_of_mem _ hmem)
      refine ⟨finite :: finites, ?_, ?_⟩
      · rw [Json.itemsFinite, hfinite, hfinites]
        rfl
      · rw [stringifyItems, stringifyItems, htext, htexts]

variable {entries : List (String × Json)}

theorem exists_finite_entries
    (h : ∀ entry ∈ entries, ∃ finite : Json, finite.isFinite = true ∧
      stableStringify localeCompare finite = stableStringify localeCompare entry.2) :
    ∃ finites, Json.entriesFinite finites = true ∧
      stringifyEntries localeCompare finites = stringifyEntries localeCompare entries := by
  induction entries with
  | nil => exact ⟨[], rfl, rfl⟩
  | cons entry rest ih =>
      obtain ⟨key, value⟩ := entry
      obtain ⟨finite, hfinite, htext⟩ := h (key, value) List.mem_cons_self
      obtain ⟨finites, hfinites, htexts⟩ := ih fun other hmem => h other (List.mem_cons_of_mem _ hmem)
      refine ⟨(key, finite) :: finites, ?_, ?_⟩
      · rw [Json.entriesFinite, hfinite, hfinites]
        rfl
      · rw [stringifyEntries, stringifyEntries, htext, htexts]

/-- Every value prints as one whose numbers are finite. -/
theorem exists_finite
    (localeCompare : String → String → Ordering)
    (value : Json)
    (hwell : value.WellFormed) :
    ∃ finite : Json, finite.isFinite = true ∧
      stableStringify localeCompare finite = stableStringify localeCompare value := by
  induction value using Json.induction with
  | null => exact ⟨.null, rfl, rfl⟩
  | bool b => exact ⟨.bool b, rfl, rfl⟩
  | num text =>
      rcases hwell.numbers text .self with hfinite | rfl
      · exact ⟨.num text, hfinite, rfl⟩
      · exact ⟨.null, rfl, by rw [stableStringify, stableStringify]⟩
  | str s => exact ⟨.str s, rfl, rfl⟩
  | arr items ih =>
      obtain ⟨finites, hfinites, htexts⟩ :=
        exists_finite_items fun item hitem => ih item hitem (hwell.items item hitem)
      exact ⟨.arr finites, hfinites, by rw [stableStringify, stableStringify, htexts]⟩
  | obj entries ih =>
      obtain ⟨finites, hfinites, htexts⟩ :=
        exists_finite_entries fun entry hentry => ih entry hentry (hwell.entries entry hentry)
      exact ⟨.obj finites, hfinites, by rw [stableStringify, stableStringify, htexts]⟩

/-! ## A printed value determines the text it is printed as -/

def SameText (localeCompare : String → String → Ordering) (value value' : Json) : Prop :=
  printed localeCompare value = printed localeCompare value'

variable {value value' : Json}

theorem printed_of_text
    (h : stableStringify localeCompare value = stableStringify localeCompare value') :
    printed localeCompare value = printed localeCompare value' :=
  congrArg String.toList h

/-- A printed value ends where the value ends. -/
theorem determines_text (hwell : value.WellFormed) (hwell' : value'.WellFormed) :
    Determines (printed localeCompare) (SameText localeCompare) value value' := by
  obtain ⟨finite, hfinite, htext⟩ := exists_finite localeCompare value hwell
  obtain ⟨finite', hfinite', htext'⟩ := exists_finite localeCompare value' hwell'
  intro rest rest' hrest hrest' h
  have hends := h
  rw [← printed_of_text htext, ← printed_of_text htext'] at hends
  have hsame := (determines_printed finite hfinite finite' hfinite' rest rest' hrest hrest' hends).2
  subst hsame
  exact ⟨List.append_cancel_right h, rfl⟩

theorem exists_head (value : Json) (hwell : value.WellFormed) :
    ∃ c rest, printed localeCompare value = c :: rest ∧ headKind c ≤ 6 := by
  obtain ⟨finite, hfinite, htext⟩ := exists_finite localeCompare value hwell
  obtain ⟨c, rest, hprinted, hkind⟩ := exists_printed_head localeCompare finite hfinite
  exact ⟨c, rest, (printed_of_text htext).symm.trans hprinted, hkind ▸ kind_le finite⟩

/-- The texts of the items are determined by the text of the array. -/
theorem map_printed_eq
    {items' : List Json}
    (hwell : ∀ item ∈ items ++ items', item.WellFormed)
    (h : printed localeCompare (.arr items) = printed localeCompare (.arr items')) :
    items.map (printed localeCompare) = items'.map (printed localeCompare) := by
  rw [printed_arr, printed_arr, List.cons.injEq] at h
  have htexts : List.Forall₂ (SameText localeCompare) items items' :=
    (joined_append_inj (Or.inl rfl)
      (fun item hmem => exists_head item (hwell item hmem))
      (fun item hmem item' hmem' =>
        determines_text (hwell item (List.mem_append_left _ hmem))
          (hwell item' (List.mem_append_right _ hmem'))) h.2).1
  rw [← List.forall₂_eq_eq_eq, List.forall₂_map_left_iff, List.forall₂_map_right_iff]
  exact htexts

theorem determines_pair
    {pair pair' : String × String}
    (hwell : value.WellFormed)
    (hwell' : value'.WellFormed)
    (htext : pair.2 = stableStringify localeCompare value)
    (htext' : pair'.2 = stableStringify localeCompare value') :
    Determines printPair Eq pair pair' := by
  obtain ⟨key, text⟩ := pair
  obtain ⟨key', text'⟩ := pair'
  change text = _ at htext
  change text' = _ at htext'
  subst htext htext'
  intro rest rest' hrest hrest' h
  simp only [printPair, List.append_assoc, List.cons_append] at h
  obtain ⟨rfl, hbehind⟩ := Json.quote_append_inj h
  rw [List.cons.injEq] at hbehind
  obtain ⟨hsame, hrests⟩ := determines_text hwell hwell' rest rest' hrest hrest' hbehind.2
  exact ⟨congrArg (Prod.mk key) (String.toList_inj.mp hsame), hrests⟩

/-- The sorted pairs of an object are determined by its text. -/
theorem sorted_eq_of_printed
    {entries' : List (String × Json)}
    (hwell : ∀ entry ∈ entries, entry.2.WellFormed)
    (hwell' : ∀ entry ∈ entries', entry.2.WellFormed)
    (h : printed localeCompare (.obj entries) = printed localeCompare (.obj entries')) :
    sortBy localeCompare Prod.fst (pairsOf localeCompare entries) =
      sortBy localeCompare Prod.fst (pairsOf localeCompare entries') := by
  rw [printed_obj, printed_obj, List.cons.injEq] at h
  have hhead : ∀ pair : String × String,
      ∃ c rest, printPair pair = c :: rest ∧ headKind c ≤ 6 := by
    intro pair
    rw [printPair, Json.toList_quote, List.cons_append]
    exact ⟨'"', _, rfl, by decide⟩
  have hpairs :=
    (joined_append_inj (Or.inr rfl) (fun pair _ => hhead pair)
      (fun pair hmem pair' hmem' => by
        obtain ⟨entry, hentry, rfl⟩ :=
          List.mem_map.mp ((StableSort.sortBy_perm _ _ _).mem_iff.mp hmem)
        obtain ⟨entry', hentry', rfl⟩ :=
          List.mem_map.mp ((StableSort.sortBy_perm _ _ _).mem_iff.mp hmem')
        exact determines_pair (hwell entry hentry) (hwell' entry' hentry') rfl rfl) h.2).1
  exact List.forall₂_eq_eq_eq ▸ hpairs

/-! ## Without ties the order of keys is forgotten -/

/-- The pairs of an object have a tie when the object has one. -/
theorem eq_of_not_tied
    (hkeys : (entries.map Prod.fst).Nodup)
    (hfree : ¬ Tied localeCompare entries) :
    ∀ pair ∈ pairsOf localeCompare entries, ∀ pair' ∈ pairsOf localeCompare entries,
      localeCompare pair.1 pair'.1 = .eq → pair = pair' := by
  intro pair hpair pair' hpair' htie
  obtain ⟨entry, hentry, rfl⟩ := List.mem_map.mp hpair
  obtain ⟨entry', hentry', rfl⟩ := List.mem_map.mp hpair'
  have hkey : entry.1 = entry'.1 := by
    by_contra hne
    exact hfree ⟨entry, hentry, entry', hentry', hne, htie⟩
  rw [List.inj_on_of_nodup_map hkeys hentry hentry' hkey]

theorem pairsOf_perm
    {matched matched' entries' : List (String × Json)}
    (horder : entries.Perm matched)
    (hentries : List.Forall₂ Json.SameEntry matched matched')
    (horder' : matched'.Perm entries')
    (hsame : ∀ entry ∈ entries, ∀ value', Json.SameUpToKeyOrder entry.2 value' →
      stableStringify localeCompare value' = stableStringify localeCompare entry.2) :
    (pairsOf localeCompare entries).Perm (pairsOf localeCompare entries') := by
  have hmatched : pairsOf localeCompare matched = pairsOf localeCompare matched' := by
    have hall : ∀ entry ∈ matched, ∀ value', Json.SameUpToKeyOrder entry.2 value' →
        stableStringify localeCompare value' = stableStringify localeCompare entry.2 :=
      fun entry hmem => hsame entry (horder.mem_iff.mpr hmem)
    clear horder horder' hsame
    induction hentries with
    | nil => rfl
    | cons hentry _ ih =>
        cases hentry with
        | mk name hvalue =>
            have hrest := ih fun entry hmem => hall entry (List.mem_cons_of_mem _ hmem)
            have htext := hall _ List.mem_cons_self _ hvalue
            unfold pairsOf at hrest ⊢
            rw [List.map_cons, List.map_cons, hrest]
            exact congrArg (fun text => (name, text) :: _) htext.symm
  have hfirst : (pairsOf localeCompare entries).Perm (pairsOf localeCompare matched) :=
    horder.map _
  have hlast : (pairsOf localeCompare matched').Perm (pairsOf localeCompare entries') :=
    horder'.map _
  rw [hmatched] at hfirst
  exact hfirst.trans hlast

variable [Std.TransCmp localeCompare]

theorem stableStringify_eq_of_sameUpToKeyOrder
    (value : Json)
    (hwell : value.WellFormed)
    (hfree : ∀ entries, Json.Within (.obj entries) value → ¬ Tied localeCompare entries) :
    ∀ value', Json.SameUpToKeyOrder value value' →
      stableStringify localeCompare value' = stableStringify localeCompare value := by
  induction value using Json.induction with
  | null =>
      intro value' hsame
      cases hsame
      rfl
  | bool b =>
      intro value' hsame
      cases hsame
      rfl
  | num text =>
      intro value' hsame
      cases hsame
      rfl
  | str s =>
      intro value' hsame
      cases hsame
      rfl
  | arr items ih =>
      intro value' hsame
      cases hsame with
      | @arr _ items' hitems =>
          have htexts :
              items'.map (stableStringify localeCompare) =
                items.map (stableStringify localeCompare) := by
            have hall : ∀ item ∈ items, ∀ item', Json.SameUpToKeyOrder item item' →
                stableStringify localeCompare item' = stableStringify localeCompare item :=
              fun item hitem => ih item hitem (hwell.items item hitem)
                fun entries hwithin => hfree entries (.item hitem hwithin)
            clear ih hwell hfree
            induction hitems with
            | nil => rfl
            | cons hitem _ ih =>
                rw [List.map_cons, List.map_cons, hall _ List.mem_cons_self _ hitem,
                  ih fun item hmem => hall item (List.mem_cons_of_mem _ hmem)]
          rw [stableStringify, stableStringify, stringifyItems_eq_map, stringifyItems_eq_map,
            htexts]
  | obj entries ih =>
      intro value' hsame
      cases hsame with
      | @obj _ matched matched' entries' horder hentries horder' =>
          have hperm : (pairsOf localeCompare entries).Perm (pairsOf localeCompare entries') :=
            pairsOf_perm horder hentries horder' fun entry hentry =>
              ih entry hentry (hwell.entries entry hentry)
                fun others hwithin => hfree others (.entry hentry hwithin)
          have hsorted :
              sortBy localeCompare Prod.fst (pairsOf localeCompare entries) =
                sortBy localeCompare Prod.fst (pairsOf localeCompare entries') :=
            StableSort.sortBy_eq_of_perm hperm
              (eq_of_not_tied (hwell.keys entries .self) (hfree entries .self))
          have hprinted :
              printed localeCompare (.obj entries') = printed localeCompare (.obj entries) := by
            rw [printed_obj, printed_obj, hsorted]
          exact String.toList_inj.mp hprinted

/-! ## With a tie it is not -/

/-- The value has a reordering that prints differently. -/
def Distinguished (localeCompare : String → String → Ordering) (value : Json) : Prop :=
  ∃ value', Json.SameUpToKeyOrder value value' ∧ value'.WellFormed ∧
    stableStringify localeCompare value' ≠ stableStringify localeCompare value

/-- An object with a tie prints differently when its entries are reversed. -/
theorem stableStringify_reverse_ne
    (hwell : Json.WellFormed (.obj entries))
    (htied : Tied localeCompare entries) :
    stableStringify localeCompare (.obj entries.reverse) ≠
      stableStringify localeCompare (.obj entries) := by
  obtain ⟨a, ha, b, hb, hne, htie⟩ := htied
  intro htext
  have hsorted :=
    sorted_eq_of_printed (fun entry hmem => hwell.entries entry (List.mem_reverse.mp hmem))
      hwell.entries (printed_of_text htext)
  have hreverse :
      pairsOf localeCompare entries.reverse = (pairsOf localeCompare entries).reverse :=
    List.map_reverse
  rw [hreverse] at hsorted
  have hkeys : ((pairsOf localeCompare entries).map Prod.fst).Nodup := by
    rw [keys_pairsOf]
    exact hwell.keys entries .self
  exact StableSort.sortBy_reverse_ne hkeys (List.mem_map_of_mem ha) (List.mem_map_of_mem hb) hne
    htie (congrArg (List.map Prod.fst) hsorted)

theorem distinguished_obj
    (hwell : Json.WellFormed (.obj entries))
    (htied : Tied localeCompare entries) :
    Distinguished localeCompare (.obj entries) := by
  refine ⟨.obj entries.reverse, ?_, ?_, stableStringify_reverse_ne hwell htied⟩
  · refine .obj (List.Perm.refl entries) (List.forall₂_same.mpr ?_) (List.reverse_perm entries).symm
    intro entry _
    exact .mk entry.1 (Json.SameUpToKeyOrder.refl entry.2)
  · refine Json.wellFormed_obj ?_ fun entry hmem => hwell.entries entry (List.mem_reverse.mp hmem)
    rw [List.map_reverse]
    exact List.nodup_reverse.mpr (hwell.keys entries .self)

omit [Std.TransCmp localeCompare] in
/-- A difference in an item is one in the array. -/
theorem Distinguished.arr
    {item : Json}
    (hwell : Json.WellFormed (.arr items))
    (hitem : item ∈ items)
    (h : Distinguished localeCompare item) :
    Distinguished localeCompare (.arr items) := by
  obtain ⟨item', hsame, hwell', hne⟩ := h
  obtain ⟨front, back, rfl⟩ := List.append_of_mem hitem
  have hrefl : ∀ others : List Json, List.Forall₂ Json.SameUpToKeyOrder others others :=
    fun others => List.forall₂_same.mpr fun other _ => .refl other
  have hnew : ∀ other ∈ front ++ item' :: back, other.WellFormed := by
    intro other hmem
    rcases List.mem_append.mp hmem with hfront | hback
    · exact hwell.items other (List.mem_append_left _ hfront)
    · rcases List.mem_cons.mp hback with rfl | hrest
      · exact hwell'
      · exact hwell.items other (List.mem_append_right _ (List.mem_cons_of_mem _ hrest))
  refine ⟨.arr (front ++ item' :: back), ?_, Json.wellFormed_arr hnew, ?_⟩
  · exact .arr (List.rel_append (hrefl front) (.cons hsame (hrefl back)))
  · intro htext
    have htexts :=
      map_printed_eq
        (fun other hmem => (List.mem_append.mp hmem).elim (hnew other) (hwell.items other))
        (printed_of_text htext)
    rw [List.map_append, List.map_append, List.map_cons, List.map_cons] at htexts
    have hitems := (List.cons.inj (List.append_cancel_left htexts)).1
    exact hne (String.toList_inj.mp hitems)

omit [Std.TransCmp localeCompare] in
/-- A difference in the value of an entry is one in the object. -/
theorem Distinguished.obj
    {entry : String × Json}
    (hwell : Json.WellFormed (.obj entries))
    (hentry : entry ∈ entries)
    (h : Distinguished localeCompare entry.2) :
    Distinguished localeCompare (.obj entries) := by
  obtain ⟨value', hsame, hwell', hne⟩ := h
  obtain ⟨front, back, rfl⟩ := List.append_of_mem hentry
  have hrefl : ∀ others : List (String × Json), List.Forall₂ Json.SameEntry others others :=
    fun others => List.forall₂_same.mpr fun other _ => .mk other.1 (.refl other.2)
  have hkeys := hwell.keys _ .self
  have hsamekeys : (front ++ (entry.1, value') :: back).map Prod.fst =
      (front ++ entry :: back).map Prod.fst := by
    simp
  have hnew : ∀ other ∈ front ++ (entry.1, value') :: back, other.2.WellFormed := by
    intro other hmem
    rcases List.mem_append.mp hmem with hfront | hback
    · exact hwell.entries other (List.mem_append_left _ hfront)
    · rcases List.mem_cons.mp hback with rfl | hrest
      · exact hwell'
      · exact hwell.entries other (List.mem_append_right _ (List.mem_cons_of_mem _ hrest))
  refine ⟨.obj (front ++ (entry.1, value') :: back), ?_, ?_, ?_⟩
  · refine .obj (List.Perm.refl _) ?_ (List.Perm.refl _)
    exact List.rel_append (hrefl front) (.cons (.mk entry.1 hsame) (hrefl back))
  · exact Json.wellFormed_obj (hsamekeys ▸ hkeys) hnew
  · intro htext
    have hsorted := sorted_eq_of_printed hnew hwell.entries (printed_of_text htext)
    have hperm := StableSort.sortBy_perm localeCompare Prod.fst
      (pairsOf localeCompare (front ++ entry :: back))
    have hother := StableSort.sortBy_perm localeCompare Prod.fst
      (pairsOf localeCompare (front ++ (entry.1, value') :: back))
    rw [hsorted] at hother
    have hmem : (entry.1, stableStringify localeCompare value') ∈
        pairsOf localeCompare (front ++ entry :: back) := by
      refine hperm.mem_iff.mp (hother.mem_iff.mpr ?_)
      exact List.mem_map_of_mem (List.mem_append_right front List.mem_cons_self)
    have hold : (entry.1, stableStringify localeCompare entry.2) ∈
        pairsOf localeCompare (front ++ entry :: back) :=
      List.mem_map_of_mem (List.mem_append_right front List.mem_cons_self)
    have hpairs : ((pairsOf localeCompare (front ++ entry :: back)).map Prod.fst).Nodup := by
      rw [keys_pairsOf]
      exact hkeys
    have hpair := List.inj_on_of_nodup_map hpairs hmem hold rfl
    exact hne (Prod.mk.inj hpair).2

theorem distinguished_of_tied
    (hwell : value.WellFormed)
    (hwithin : Json.Within (.obj entries) value)
    (htied : Tied localeCompare entries) :
    Distinguished localeCompare value := by
  induction hwithin with
  | self => exact distinguished_obj hwell htied
  | item hmem _ ih => exact (ih (hwell.items _ hmem)).arr hwell hmem
  | entry hmem _ ih => exact (ih (hwell.entries _ hmem)).obj hwell hmem

/--
The fingerprint of a value ignores the order of keys exactly when no object in
it has two different keys that compare equal.
-/
theorem ignoresKeyOrder_iff
    (localeCompare : String → String → Ordering)
    [Std.TransCmp localeCompare]
    (value : Json)
    (hwell : value.WellFormed) :
    IgnoresKeyOrder localeCompare value ↔
      ∀ entries, Json.Within (.obj entries) value → ¬ Tied localeCompare entries := by
  constructor
  · intro hignores entries hwithin htied
    obtain ⟨value', hsame, -, hne⟩ := distinguished_of_tied hwell hwithin htied
    exact hne (hignores value' hsame).1
  · intro hfree value' hsame
    have htext := stableStringify_eq_of_sameUpToKeyOrder value hwell hfree value' hsame
    refine ⟨htext, ?_⟩
    rintro env request rfl
    rw [computeRequestHash_eq, computeRequestHash_eq]
    exact congrArg
      (fun text => env.sha256 (env.toUpperCase request.method ++ "\n" ++ request.path ++ "\n" ++ text))
      htext

end KeyOrder

/-! ## A letter with its accent in one code point and in two -/

/-- The canonical decomposition, for one letter. -/
def decomposed (s : String) : String :=
  String.ofList (s.toList.flatMap fun c => if c = '\u00e9' then ['e', '\u0301'] else [c])

/-- A comparison that reports 0 for canonically equivalent texts. -/
def canonicalCompare : String → String → Ordering :=
  compareOn decomposed

instance : Std.TransCmp canonicalCompare :=
  inferInstanceAs (Std.TransCmp (compareOn decomposed))

theorem wellFormed_two_numbers
    {key key' text text' : String}
    (hne : key ≠ key')
    (htext : Json.isFiniteText text = true)
    (htext' : Json.isFiniteText text' = true) :
    Json.WellFormed (.obj [(key, .num text), (key', .num text')]) := by
  have hnumber : ∀ text, Json.isFiniteText text = true → Json.WellFormed (.num text) := by
    intro text hfinite
    constructor
    · intro entries hwithin
      cases hwithin
    · intro other hwithin
      cases hwithin
      exact Or.inl hfinite
  refine Json.wellFormed_obj (by simpa using hne) ?_
  intro entry hentry
  rcases List.mem_cons.mp hentry with rfl | hlast
  · exact hnumber text htext
  · rw [List.mem_singleton.mp hlast]
    exact hnumber text' htext'

theorem ignoresKeyOrder_plain_keys :
    IgnoresKeyOrder canonicalCompare (.obj [("a", .num "1"), ("b", .num "2")]) := by
  refine (ignoresKeyOrder_iff canonicalCompare _
    (wellFormed_two_numbers (by decide) (by rfl) (by rfl))).mpr ?_
  have hfree : ¬ Tied canonicalCompare [("a", .num "1"), ("b", .num "2")] := by
    have hkeys : ∀ a ∈ ["a", "b"], ∀ b ∈ ["a", "b"], a ≠ b → canonicalCompare a b ≠ .eq := by
      decide
    rintro ⟨a, ha, b, hb, hne, htie⟩
    exact hkeys a.1 (List.mem_map_of_mem ha) b.1 (List.mem_map_of_mem hb) hne htie
  intro entries hwithin
  cases hwithin with
  | self => exact hfree
  | entry hmem hinner =>
      rcases List.mem_cons.mp hmem with rfl | hlast
      · cases hinner
      · rw [List.mem_singleton.mp hlast] at hinner
        cases hinner

/-- Two spellings of one accented letter as keys of an object. -/
def twoSpellings : List (String × Json) :=
  [("\u00e9", .num "1"), ("e\u0301", .num "2")]

/-- The two orders of the spellings have different fingerprints. -/
theorem not_ignoresKeyOrder_twoSpellings :
    ¬ ∀ (localeCompare : String → String → Ordering) [Std.TransCmp localeCompare]
      (value value' : Json), value.WellFormed → Json.SameUpToKeyOrder value value' →
        stableStringify localeCompare value' = stableStringify localeCompare value := by
  intro hlaw
  have hwell : Json.WellFormed (.obj twoSpellings) :=
    wellFormed_two_numbers (by decide) (by rfl) (by rfl)
  have htied : Tied canonicalCompare twoSpellings :=
    ⟨_, List.mem_cons_self, _, List.mem_cons_of_mem _ List.mem_cons_self, by decide,
      by rfl⟩
  have hsame : Json.SameUpToKeyOrder (.obj twoSpellings) (.obj twoSpellings.reverse) := by
    refine .obj (List.Perm.refl _) (List.forall₂_same.mpr ?_) (List.reverse_perm _).symm
    intro entry _
    exact .mk entry.1 (.refl entry.2)
  exact stableStringify_reverse_ne hwell htied
    (hlaw canonicalCompare (.obj twoSpellings) (.obj twoSpellings.reverse) hwell hsame)

end Idempotency
end NestBase
