import Mathlib.Tactic

/-!
# Visiting a list page by page

A list method answers a cursor with a page and the cursor of the next page.
A client starts without a cursor and passes on each cursor it is given, until
a page comes without one (`visit`).

`visit_eq_none` is the rule for clients that never get to the end: every call
they make fails or gives them another cursor.

`visit_of_cut` is the rule for lists that are cut into pages: when the page of a
row's cursor is cut from what stands behind the row, the client gets the whole
list.

A list method may look for the place to go on by another order than the list is
in: at the first row with a greater key (`CutBehind`).  Then the client gets every
row once exactly when, at the end of each full page, the key of its last row is
the greatest so far and the next row has a greater one (`visits_iff`).
-/

namespace NestBase
namespace Lib

universe u v w

structure CursorPage (α : Type u) (κ : Type v) where
  items : List α
  nextCursor : Option κ

namespace CursorPage

variable {α : Type u} {κ : Type v} {ε : Type w}

/-- A list method; it may answer differently from call to call. -/
abbrev Lists (α : Type u) (κ : Type v) (ε : Type w) :=
  Nat → Option κ → Except ε (CursorPage α κ)

/-- All the items of the pages from a cursor on, when the last page comes within the fuel. -/
def visit (list : Lists α κ ε) : Nat → Nat → Option κ → Option (List α)
  | 0, _, _ => none
  | fuel + 1, call, cursor =>
      match list call cursor with
      | .error _ => none
      | .ok page =>
          match page.nextCursor with
          | none => some page.items
          | some next => (visit list fuel (call + 1) (some next)).map (page.items ++ ·)

variable {list : Lists α κ ε}

/-- A page without a cursor is the last one. -/
theorem visit_of_last
    {fuel call : Nat} {cursor : Option κ} {page : CursorPage α κ}
    (hpage : list call cursor = .ok page)
    (hlast : page.nextCursor = none) :
    visit list (fuel + 1) call cursor = some page.items := by
  rw [visit, hpage]
  dsimp only
  rw [hlast]

/-- Calls with a cursor of the kind fail or give another cursor of the kind. -/
def Endless (list : Lists α κ ε) (kind : Option κ → Prop) : Prop :=
  ∀ call cursor, kind cursor →
    ∀ page, list call cursor = .ok page → ∃ next, page.nextCursor = some next ∧ kind (some next)

theorem visit_eq_none
    {kind : Option κ → Prop}
    (hendless : Endless list kind)
    {cursor : Option κ}
    (hcursor : kind cursor)
    (fuel call : Nat) :
    visit list fuel call cursor = none := by
  induction fuel generalizing call cursor with
  | zero => rfl
  | succ fuel ih =>
      rw [visit]
      cases hpage : list call cursor with
      | error error => rfl
      | ok page =>
          obtain ⟨next, hnext, hkind⟩ := hendless call cursor hcursor page hpage
          dsimp only
          rw [hnext]
          dsimp only
          rw [ih hkind]
          rfl

/-! ## Pages cut from a list -/

/-- The first rows, with the cursor of the last of them when more rows are left. -/
def cut (cursorOf : α → κ) (limit : Nat) (rows : List α) : CursorPage α κ where
  items := rows.take limit
  nextCursor := if limit < rows.length then (rows.take limit).getLast?.map cursorOf else none

variable {cursorOf : α → κ} {limit : Nat}

theorem cut_of_le {rows : List α} (h : rows.length ≤ limit) :
    cut cursorOf limit rows = { items := rows, nextCursor := none } := by
  unfold cut
  rw [List.take_of_length_le h, if_neg (Nat.not_lt.mpr h)]

/-- A cut list with rows left is split behind the last row of the page. -/
theorem cut_of_lt
    (cursorOf : α → κ) {rows : List α}
    (hlimit : 1 ≤ limit)
    (h : limit < rows.length) :
    ∃ front row back,
      rows = front ++ row :: back ∧ front.length + 1 = limit ∧
        cut cursorOf limit rows =
          { items := front ++ [row], nextCursor := some (cursorOf row) } := by
  have hlast : limit - 1 < rows.length := by omega
  have htake : rows.take limit = rows.take (limit - 1) ++ [rows[limit - 1]] := by
    rw [← List.take_succ_eq_append_getElem hlast, Nat.sub_add_cancel hlimit]
  refine ⟨rows.take (limit - 1), rows[limit - 1], rows.drop limit, ?_, ?_, ?_⟩
  · conv_lhs => rw [← List.take_append_drop limit rows, htake]
    rw [List.append_assoc, List.singleton_append]
  · rw [List.length_take]
    omega
  · unfold cut
    rw [if_pos h, htake, List.getLast?_concat]
    rfl

/-- One row more than the page has is enough to cut it. -/
theorem cut_take {count : Nat} (hcount : limit < count) (rows : List α) :
    cut cursorOf limit (rows.take count) = cut cursorOf limit rows := by
  have hless : limit < (rows.take count).length ↔ limit < rows.length := by
    rw [List.length_take]
    omega
  unfold cut
  rw [List.take_take, Nat.min_eq_left hcount.le]
  simp only [hless]

/-- When the page behind each row is cut from the rows behind it, all rows are visited. -/
theorem visit_of_cut
    (cursorOf : α → κ) {all : List α}
    (hlimit : 1 ≤ limit)
    (hstart : ∀ call, list call none = .ok (cut cursorOf limit all))
    (hnext :
      ∀ call front row back, all = front ++ row :: back →
        list call (some (cursorOf row)) = .ok (cut cursorOf limit back)) :
    ∃ fuel, visit list fuel 0 none = some all := by
  -- The pages from a cursor on give the rest of the list; induction on its length.
  have hrest :
      ∀ n rest call cursor, rest.length ≤ n → (∃ done, all = done ++ rest) →
        list call cursor = .ok (cut cursorOf limit rest) →
          visit list (n + 1) call cursor = some rest := by
    intro n
    induction n with
    | zero =>
        intro rest call cursor hlength _ hpage
        rw [cut_of_le (hlength.trans (Nat.zero_le limit))] at hpage
        exact visit_of_last hpage rfl
    | succ n ih =>
        intro rest call cursor hlength hsuffix hpage
        by_cases hmore : limit < rest.length
        · obtain ⟨front, row, back, hsplit, -, hcut⟩ :=
            cut_of_lt cursorOf hlimit hmore
          obtain ⟨done, hall⟩ := hsuffix
          have hback : all = (done ++ front ++ [row]) ++ back := by
            rw [hall, hsplit]
            simp
          have hbehind : all = (done ++ front) ++ row :: back := by
            rw [hback]
            simp
          have hshorter : back.length ≤ n := by
            rw [hsplit, List.length_append, List.length_cons] at hlength
            omega
          rw [hcut] at hpage
          rw [visit, hpage]
          dsimp only
          rw [ih back (call + 1) _ hshorter ⟨_, hback⟩ (hnext _ _ _ _ hbehind), hsplit]
          simp
        · rw [cut_of_le (Nat.not_lt.mp hmore)] at hpage
          exact visit_of_last hpage rfl
  exact ⟨all.length + 1, hrest all.length all 0 none le_rfl ⟨[], rfl⟩ (hstart 0)⟩

/-! ## Pages that go on at the first greater key -/

section FirstGreater

variable {β : Type*} [LinearOrder β] {key : α → β} {all : List α}

/-- Where the first row with a greater key is, or the end of the list. -/
def firstGreater (key : α → β) (all : List α) (row : α) : Nat :=
  all.findIdx fun other => decide (key row < key other)

/-- The page of a row's cursor is cut at the first row with a greater key. -/
structure CutBehind
    (list : Lists α κ ε) (cursorOf : α → κ) (limit : Nat) (key : α → β) (all : List α) : Prop where
  first : ∀ call, list call none = .ok (cut cursorOf limit all)
  next :
    ∀ call, ∀ row ∈ all,
      list call (some (cursorOf row)) = .ok (cut cursorOf limit (all.drop (firstGreater key all row)))

/-- At the end of each full page the next row is the first one with a greater key. -/
def GoesOn (key : α → β) (limit : Nat) (all : List α) : Prop :=
  ∀ k row, 0 < k → k * limit < all.length → all[k * limit - 1]? = some row →
    firstGreater key all row = k * limit

variable {fuel : Nat}
variable {items : List α}

/-- The visit of a cut list: the whole list, or its first page and the visit behind it. -/
theorem visit_cut
    {call : Nat} {cursor : Option κ} {rows : List α}
    (hlimit : 1 ≤ limit)
    (hpage : list call cursor = .ok (cut cursorOf limit rows))
    (hvisit : visit list (fuel + 1) call cursor = some items) :
    (rows.length ≤ limit ∧ items = rows) ∨
      ∃ front row back rest,
        rows = front ++ row :: back ∧ front.length + 1 = limit ∧ 
          visit list fuel (call + 1) (some (cursorOf row)) = some rest ∧
            items = front ++ row :: rest := by
  by_cases hmore : limit < rows.length
  · obtain ⟨front, row, back, hsplit, hfront, hcut⟩ := cut_of_lt cursorOf hlimit hmore
    rw [hcut] at hpage
    rw [visit, hpage] at hvisit
    dsimp only at hvisit
    obtain ⟨rest, hrest, hitems⟩ := Option.map_eq_some_iff.mp hvisit
    refine Or.inr ⟨front, row, back, rest, hsplit, hfront, hrest, ?_⟩
    rw [← hitems, List.append_assoc, List.singleton_append]
  · have hlast := Nat.not_lt.mp hmore
    rw [cut_of_le hlast] at hpage
    rw [visit_of_last hpage rfl] at hvisit
    exact Or.inl ⟨hlast, (Option.some.inj hvisit).symm⟩

variable {row : α}

/-- The first row of a page is visited. -/
theorem head_mem_of_visit
    {call : Nat} {cursor : Option κ} {rows : List α}
    (hlimit : 1 ≤ limit)
    (hpage : list call cursor = .ok (cut cursorOf limit rows))
    (hvisit : visit list fuel call cursor = some items)
    (hhead : rows.head? = some row) :
    row ∈ items := by
  cases fuel with
  | zero => cases hvisit
  | succ fuel =>
      rcases visit_cut hlimit hpage hvisit with ⟨-, rfl⟩ | ⟨front, last, back, rest, hsplit, -, -, rfl⟩
      · exact List.mem_of_head? hhead
      · subst hsplit
        cases front with
        | nil =>
            cases hhead
            exact List.mem_cons_self
        | cons first front =>
            cases hhead
            exact List.mem_cons_self

/-- Before the first greater key no key is greater. -/
theorem key_le_of_lt_firstGreater
    {i : Nat}
    (hi : i < all.length)
    (h : i < firstGreater key all row) :
    key all[i] ≤ key row := by
  have hnot := List.not_of_lt_findIdx h
  exact not_lt.mp (of_decide_eq_false hnot)

theorem key_lt_firstGreater (h : firstGreater key all row < all.length) :
    key row < key all[firstGreater key all row] := by
  have hfound : decide (key row < key all[firstGreater key all row]) = true :=
    List.findIdx_getElem (p := fun other => decide (key row < key other))
  exact of_decide_eq_true hfound

theorem firstGreater_eq_iff {i : Nat} (hi : i < all.length) :
    firstGreater key all row = i ↔
      key row < key all[i] ∧ ∀ other ∈ all.take i, key other ≤ key row := by
  constructor
  · rintro rfl
    refine ⟨key_lt_firstGreater hi, fun other hother => ?_⟩
    obtain ⟨j, hj, rfl⟩ := List.mem_take_iff_getElem.mp hother
    exact key_le_of_lt_firstGreater (by omega) (by omega)
  · rintro ⟨hgreater, hbefore⟩
    refine (List.findIdx_eq hi).mpr ⟨decide_eq_true hgreater, fun j hj => ?_⟩
    refine decide_eq_false (not_lt.mpr (hbefore _ ?_))
    rw [List.mem_take_iff_getElem]
    exact ⟨j, by omega, rfl⟩

/-- A row whose key is not greater than the one before it is not visited any more. -/
theorem CutBehind.not_mem_of_skipped
    (h : CutBehind list cursorOf limit key all)
    (hlimit : 1 ≤ limit)
    (hnodup : all.Nodup)
    {b : Nat}
    (hb : b + 1 < all.length)
    (hkey : key all[b + 1] ≤ key all[b])
    {call : Nat}
    (hrow : row ∈ all)
    (hvisit : visit list fuel call (some (cursorOf row)) = some items)
    (hdone : ∀ x ∈ all.take (b + 1), x ∉ items) :
    all[b + 1] ∉ items := by
  induction fuel generalizing call row items with
  | zero => cases hvisit
  | succ fuel ih =>
      have hpage := h.next call row hrow
      -- The page starts behind the skipped row: before it all is visited.
      have hstart : b + 1 < firstGreater key all row := by
        by_contra hle
        have hlt : firstGreater key all row < all.length := by omega
        have hmem : all[firstGreater key all row] ∈ items := by
          refine head_mem_of_visit hlimit hpage hvisit ?_
          rw [List.head?_drop, List.getElem?_eq_getElem hlt]
        rcases Nat.lt_or_ge b (firstGreater key all row) with hbehind | hbefore
        · have heq : firstGreater key all row = b + 1 := by omega
          have hgreater := key_lt_firstGreater hlt
          have hless : key all[b] ≤ key row := key_le_of_lt_firstGreater (by omega) hbehind
          simp only [heq] at hgreater
          exact absurd (hgreater.trans_le (hkey.trans hless)) (lt_irrefl _)
        · refine hdone _ ?_ hmem
          rw [List.mem_take_iff_getElem]
          exact ⟨firstGreater key all row, by omega, rfl⟩
      have hpast : all[b + 1] ∉ all.drop (firstGreater key all row) := by
        intro hmem
        obtain ⟨i, hi, hitem⟩ := List.mem_drop_iff_getElem.mp hmem
        have hindex := (List.Nodup.getElem_inj_iff hnodup).mp hitem
        omega
      rcases visit_cut hlimit hpage hvisit with
        ⟨-, rfl⟩ | ⟨front, last, back, rest, hsplit, -, hrest, rfl⟩
      · exact hpast
      · have hlast : last ∈ all := by
          refine List.mem_of_mem_drop (i := firstGreater key all row) ?_
          rw [hsplit]
          exact List.mem_append_right _ List.mem_cons_self
        have hbehind : all[b + 1] ∉ rest := by
          refine ih hlast hrest fun x hx hmem => hdone x hx ?_
          exact List.mem_append_right _ (List.mem_cons_of_mem _ hmem)
        rw [hsplit] at hpast
        intro hmem
        rcases List.mem_append.mp hmem with hfront | hcons
        · exact hpast (List.mem_append_left _ hfront)
        · rcases List.mem_cons.mp hcons with heq | hmore
          · exact hpast (List.mem_append_right _ (heq ▸ List.mem_cons_self))
          · exact hbehind hmore

/-- The visit has come to a full page's end: `done` full pages, and what is visited behind them. -/
def AtPage
    (list : Lists α κ ε) (cursorOf : α → κ) (limit : Nat) (all items : List α) (done : Nat) : Prop :=
  ∃ fuel call cursor rest,
    list call cursor = .ok (cut cursorOf limit (all.drop (done * limit))) ∧
      visit list fuel call cursor = some rest ∧ items = all.take (done * limit) ++ rest

theorem getElem?_last_of_page
    {front back : List α} {start : Nat}
    (hsplit : all.drop start = front ++ row :: back) :
    all[start + front.length]? = some row := by
  rw [← List.getElem?_drop, hsplit]
  simp

theorem take_of_page
    {front back : List α} {start : Nat}
    (hsplit : all.drop start = front ++ row :: back) :
    all.take (start + (front.length + 1)) = all.take start ++ (front ++ [row]) := by
  rw [List.take_add, hsplit]
  simp [List.take_append]

/-- When every row is visited once, a full page is followed by the next row. -/
theorem CutBehind.atPage_succ
    (h : CutBehind list cursorOf limit key all)
    (hlimit : 1 ≤ limit)
    (hnodup : all.Nodup)
    {done : Nat}
    (hperm : items.Perm all)
    (hat : AtPage list cursorOf limit all items done)
    (hmore : (done + 1) * limit < all.length)
    (hrow : all[(done + 1) * limit - 1]? = some row) :
    firstGreater key all row = (done + 1) * limit ∧
      AtPage list cursorOf limit all items (done + 1) := by
  obtain ⟨fuel, call, cursor, rest, hpage, hvisit, hitems⟩ := hat
  have hend : (done + 1) * limit = done * limit + limit := Nat.succ_mul done limit
  cases fuel with
  | zero => cases hvisit
  | succ fuel =>
      rcases visit_cut hlimit hpage hvisit with
        ⟨hlast, -⟩ | ⟨front, last, back, behind, hsplit, hfront, hbehind, hrest⟩
      · rw [List.length_drop] at hlast
        omega
      · have htake := take_of_page hsplit
        have hlast := getElem?_last_of_page hsplit
        have hindex : done * limit + front.length = (done + 1) * limit - 1 := by omega
        rw [hfront, ← hend] at htake
        rw [hindex, hrow, Option.some.injEq] at hlast
        subst hlast
        have hmem : row ∈ all := List.mem_of_getElem? hrow
        have hall : items = all.take ((done + 1) * limit) ++ behind := by
          rw [hitems, hrest, htake]
          simp
        have hdisjoint : ∀ x ∈ all.take ((done + 1) * limit), x ∉ behind := by
          have hitemsNodup := hperm.nodup_iff.mpr hnodup
          rw [hall] at hitemsNodup
          exact fun x hx hbehind => List.disjoint_of_nodup_append hitemsNodup hx hbehind
        have hnext : firstGreater key all row = (done + 1) * limit := by
          rcases Nat.lt_trichotomy (firstGreater key all row) ((done + 1) * limit) with
            hless | heq | hgreater
          · -- The next page would begin with a row that is visited already.
            have hlt : firstGreater key all row < all.length := by omega
            have hagain : all[firstGreater key all row] ∈ behind := by
              refine head_mem_of_visit hlimit (h.next _ row hmem) hbehind ?_
              rw [List.head?_drop, List.getElem?_eq_getElem hlt]
            refine absurd hagain (hdisjoint _ ?_)
            rw [List.mem_take_iff_getElem]
            exact ⟨firstGreater key all row, by omega, rfl⟩
          · exact heq
          · -- The next row would never be visited.
            obtain ⟨b, hb⟩ : ∃ b, b + 1 = (done + 1) * limit := ⟨(done + 1) * limit - 1, by omega⟩
            have hboundary : all[b] = row := by
              rw [← hb, Nat.add_sub_cancel] at hrow
              exact Option.some.inj ((List.getElem?_eq_getElem (by omega)).symm.trans hrow)
            have hkey : key all[b + 1] ≤ key all[b] := by
              rw [hboundary]
              exact key_le_of_lt_firstGreater (by omega) (by omega)
            rw [← hb] at hdisjoint hall
            have hnever := h.not_mem_of_skipped hlimit hnodup (by omega) hkey hmem hbehind hdisjoint
            have hvisited : all[b + 1] ∈ items := hperm.mem_iff.mpr (List.getElem_mem _)
            rw [hall] at hvisited
            rcases List.mem_append.mp hvisited with htaken | hlater
            · obtain ⟨i, hi, hitem⟩ := List.mem_take_iff_getElem.mp htaken
              have hsame := (List.Nodup.getElem_inj_iff hnodup).mp hitem
              omega
            · exact absurd hlater hnever
        exact ⟨hnext, fuel, call + 1, some (cursorOf row), behind, hnext ▸ h.next _ row hmem,
          hbehind, hall⟩

/-- Every row is visited once exactly when each full page is followed by the next row. -/
theorem CutBehind.visits_iff
    (h : CutBehind list cursorOf limit key all)
    (hlimit : 1 ≤ limit)
    (hnodup : all.Nodup) :
    (∃ fuel items, visit list fuel 0 none = some items ∧ items.Perm all) ↔ GoesOn key limit all := by
  constructor
  · rintro ⟨fuel, items, hvisit, hperm⟩
    have hat : ∀ done, done * limit < all.length ∨ done = 0 →
        AtPage list cursorOf limit all items done := by
      intro done
      induction done with
      | zero =>
          intro _
          refine ⟨fuel, 0, none, items, ?_, hvisit, ?_⟩
          · rw [Nat.zero_mul, List.drop_zero]
            exact h.first 0
          · rw [Nat.zero_mul, List.take_zero, List.nil_append]
      | succ done ih =>
          intro hmore
          have hmore : (done + 1) * limit < all.length := by omega
          have hless : done * limit < all.length := by
            rw [Nat.succ_mul] at hmore
            omega
          have hindex : (done + 1) * limit - 1 < all.length := by omega
          exact (h.atPage_succ hlimit hnodup hperm (ih (Or.inl hless)) hmore
            (List.getElem?_eq_getElem hindex)).2
    intro k row hk hmore hrow
    obtain ⟨done, rfl⟩ := Nat.exists_eq_succ_of_ne_zero hk.ne'
    have hless : done * limit < all.length := by
      rw [Nat.succ_mul] at hmore
      omega
    exact (h.atPage_succ hlimit hnodup hperm (hat done (Or.inl hless)) hmore hrow).1
  · intro hgoes
    -- The pages from a full page's end on give the rest of the list; induction on its length.
    have hrest :
        ∀ n done call cursor, (all.drop (done * limit)).length ≤ n →
          list call cursor = .ok (cut cursorOf limit (all.drop (done * limit))) →
            visit list (n + 1) call cursor = some (all.drop (done * limit)) := by
      intro n
      induction n with
      | zero =>
          intro done call cursor hlength hpage
          rw [cut_of_le (hlength.trans (Nat.zero_le limit))] at hpage
          exact visit_of_last hpage rfl
      | succ n ih =>
          intro done call cursor hlength hpage
          by_cases hmore : limit < (all.drop (done * limit)).length
          · obtain ⟨front, row, back, hsplit, hfront, hcut⟩ := cut_of_lt cursorOf hlimit hmore
            have hend : (done + 1) * limit = done * limit + limit := Nat.succ_mul done limit
            have hrow := getElem?_last_of_page hsplit
            have hmem : row ∈ all := List.mem_of_getElem? hrow
            have hback : all.drop ((done + 1) * limit) = back := by
              rw [hend, ← List.drop_drop, hsplit, ← hfront]
              simp [List.drop_append]
            have hindex : done * limit + front.length = (done + 1) * limit - 1 := by omega
            rw [List.length_drop] at hmore hlength
            rw [hindex] at hrow
            have hnext := h.next (call + 1) row hmem
            rw [hgoes (done + 1) row (Nat.succ_pos done) (by omega) hrow] at hnext
            have hvisit := ih (done + 1) (call + 1) _ (by rw [List.length_drop]; omega) hnext
            rw [hcut] at hpage
            rw [visit, hpage]
            dsimp only
            rw [hvisit, hback, hsplit]
            simp
          · rw [cut_of_le (Nat.not_lt.mp hmore)] at hpage
            exact visit_of_last hpage rfl
    have hall := hrest all.length 0 0 none (by simp) (by simpa using h.first 0)
    rw [Nat.zero_mul, List.drop_zero] at hall
    exact ⟨all.length + 1, all, hall, List.Perm.refl all⟩

end FirstGreater

end CursorPage

end Lib
end NestBase
