import NestBase.Lib.Number

/-!
# The tenant list

`tenantsListJson` reads at most 500 organizations and cuts the list twice: the
planner `filterTenants` keeps the first `limit + offset` organizations that match,
and the controller takes the page at `offset` out of these.  The `total` it answers
counts what the planner kept and not what matches, so a reader who asks for page
after page stops behind the first one.

`listsAll_iff` says that paging is complete exactly when all that matches fits on
one page.
-/

namespace NestBase
namespace Core
namespace TenantAdmin

open Lib

/-! ## The planner -/

/-- What the planner reads of an organization. -/
structure CandidateOrg where
  id : String
  name : String
  slug : Option String
  deletedAt : Option Int
deriving DecidableEq

def CandidateOrg.isActive (org : CandidateOrg) : Bool :=
  org.deletedAt.isNone

section Planner

variable (toLowerCase : String → String)

def matchesTenant (org : CandidateOrg) (needle : String) : Bool :=
  Text.includes (toLowerCase org.name) needle ||
    org.slug.any fun slug => Text.includes (toLowerCase slug) needle

structure TenantAdminSearchInput where
  query : String
  orgs : List CandidateOrg
  limit : Nat
  onlyActive : Bool
  onlyDeleted : Bool

def filterTenants (input : TenantAdminSearchInput) : List CandidateOrg :=
  let needle := toLowerCase (Text.trim input.query)
  let candidates :=
    if input.onlyActive then input.orgs.filter CandidateOrg.isActive
    else if input.onlyDeleted then input.orgs.filter fun org => !org.isActive
    else input.orgs
  let matched :=
    if needle = "" then candidates
    else candidates.filter fun org => matchesTenant toLowerCase org needle
  matched.take input.limit

end Planner

/-! ## The controller -/

def DEFAULT_LIST_LIMIT : Nat := 100

def MAX_LIST_LIMIT : Nat := 500

/-- `Math.floor` of a number that is not negative. -/
def floor (value : ℚ) : Nat :=
  value.floor.toNat

def clampLimit (raw : Option String) : Nat :=
  match Text.truthy raw with
  | none => DEFAULT_LIST_LIMIT
  | some raw =>
      match Number.ofText raw with
      | .finite n => if n ≤ 0 then DEFAULT_LIST_LIMIT else min MAX_LIST_LIMIT (floor n)
      | _ => DEFAULT_LIST_LIMIT

def parseOffset (raw : Option String) : Nat :=
  match Text.truthy raw with
  | none => 0
  | some raw =>
      match Number.ofText raw with
      | .finite n => if n < 0 then 0 else floor n
      | _ => 0

/-- An organization as it is read, with the `deletedAt` of its settings. -/
structure Organization where
  id : String
  name : String
  slug : Option String
  logo : Option String
  createdAt : Int
  members : Nat
  settings : Option (Option Int)
deriving DecidableEq

def Organization.candidate (row : Organization) : CandidateOrg where
  id := row.id
  name := row.name
  slug := row.slug
  deletedAt := row.settings.join

structure TenantListEntry where
  id : String
  name : String
  slug : Option String
  logo : Option String
  createdAt : Int
  memberCount : Nat
  softDeleted : Bool
deriving DecidableEq

structure TenantList where
  tenants : List TenantListEntry
  total : Nat

/-- The texts of a search in the address of a request. -/
structure Search where
  q : Option String
  filter : Option String
  limit : Option String

def entryOf (row : Organization) (org : CandidateOrg) : TenantListEntry where
  id := row.id
  name := row.name
  slug := row.slug
  logo := row.logo
  createdAt := row.createdAt
  memberCount := row.members
  softDeleted := !org.isActive

section Controller

variable (toLowerCase : String → String)

/-- The answer to a request, from the rows that the database gives. -/
def tenantsListJson (rows : List Organization) (search : Search) (offsetRaw : Option String) :
    TenantList :=
  let limit := clampLimit search.limit
  let offset := parseOffset offsetRaw
  let filtered := filterTenants toLowerCase
    { query := search.q.getD ""
      orgs := rows.map Organization.candidate
      limit := limit + offset
      onlyActive := search.filter == some "active"
      onlyDeleted := search.filter == some "deleted" }
  let sliced := (filtered.take (offset + limit)).drop offset
  { tenants := sliced.filterMap fun org =>
      (rows.find? fun row => row.id == org.id).map fun row => entryOf row org
    total := filtered.length }

/-! ## Paging -/

/-- The rows of a query `findMany`: the newest organizations, in any order among those of one
time. -/
def FindMany (table rows : List Organization) : Prop :=
  ∃ ordered : List Organization, ordered.Perm table ∧
    ordered.Pairwise (fun a b => b.createdAt ≤ a.createdAt) ∧ rows = ordered.take MAX_LIST_LIMIT

/-- The organization has the status and the text that are searched. -/
def Search.accepts (search : Search) (row : Organization) : Bool :=
  let needle := toLowerCase (Text.trim (search.q.getD ""))
  (if search.filter = some "active" then row.candidate.isActive
    else if search.filter = some "deleted" then !row.candidate.isActive
    else true) &&
    (needle = "" || matchesTenant toLowerCase row.candidate needle)

/-- The organizations of the table that are searched. -/
def matching (table : List Organization) (search : Search) : List Organization :=
  table.filter (search.accepts toLowerCase)

/-- The entries that a reader collects who asks for the pages from an offset on, each `size`
behind the one before, while the offset is below the total. -/
inductive Pages (request : Nat → TenantList) (size : Nat) : Nat → List TenantListEntry → Prop where
  | last {offset : Nat} (hend : (request offset).total ≤ offset + size) :
      Pages request size offset (request offset).tenants
  | next {offset : Nat} {entries : List TenantListEntry}
      (hmore : offset + size < (request offset).total)
      (hrest : Pages request size (offset + size) entries) :
      Pages request size offset ((request offset).tenants ++ entries)

/-- The total counts what matches whatever the offset, and the pages have each organization that
matches once.  Each request may find organizations of one time in an order of its own. -/
def ListsAll (table : List Organization) (search : Search) : Prop :=
  (∀ rows offsetRaw, FindMany table rows →
    (tenantsListJson toLowerCase rows search offsetRaw).total =
      (matching toLowerCase table search).length) ∧
  ∀ rows : Nat → List Organization, (∀ offset, FindMany table (rows offset)) →
    ∃ entries,
      Pages (fun offset =>
          tenantsListJson toLowerCase (rows offset) search (some (toString offset)))
        (clampLimit search.limit) 0 entries ∧
      entries.Perm ((matching toLowerCase table search).map fun row => entryOf row row.candidate)

end Controller

/-! ## What a request answers -/

section Paging

variable {toLowerCase : String → String}

theorem filterTenants_eq (rows : List Organization) (search : Search) (limit : Nat) :
    filterTenants toLowerCase
        { query := search.q.getD ""
          orgs := rows.map Organization.candidate
          limit := limit
          onlyActive := search.filter == some "active"
          onlyDeleted := search.filter == some "deleted" } =
      ((matching toLowerCase rows search).map Organization.candidate).take limit := by
  have hfilter (p : Organization → Bool) (q : CandidateOrg → Bool)
      (h : ∀ row, p row = q row.candidate) :
      (rows.map Organization.candidate).filter q = (rows.filter p).map Organization.candidate := by
    rw [List.filter_map]
    congr 1
    exact List.filter_congr fun row _ => (h row).symm
  unfold filterTenants matching Search.accepts
  dsimp only
  congr 1
  by_cases hneedle : toLowerCase (Text.trim (search.q.getD "")) = "" <;>
    by_cases hactive : search.filter = some "active" <;>
      by_cases hdeleted : search.filter = some "deleted" <;>
        simp [hneedle, hactive, hdeleted, List.filter_map, List.filter_filter, Function.comp_def,
          Bool.and_comm]

/-- A row is found again by its id. -/
theorem find?_id
    {rows : List Organization}
    (hids : (rows.map Organization.id).Nodup)
    {row : Organization}
    (hrow : row ∈ rows) :
    (rows.find? fun other => other.id == row.candidate.id) = some row := by
  induction rows with
  | nil => cases hrow
  | cons first rest ih =>
      rw [List.map_cons, List.nodup_cons] at hids
      obtain ⟨hnew, hrest⟩ := hids
      obtain rfl | hlater := List.mem_cons.mp hrow
      · exact List.find?_cons_of_pos (beq_self_eq_true _)
      · have hne : first.id ≠ row.id := fun heq =>
          hnew (heq ▸ List.mem_map_of_mem hlater)
        rw [List.find?_cons_of_neg (by simpa [Organization.candidate] using hne)]
        exact ih hrest hlater

theorem total_tenantsListJson
    (rows : List Organization) (search : Search) (offsetRaw : Option String) :
    (tenantsListJson toLowerCase rows search offsetRaw).total =
      min (clampLimit search.limit + parseOffset offsetRaw)
        (matching toLowerCase rows search).length := by
  unfold tenantsListJson
  dsimp only
  rw [filterTenants_eq, List.length_take, List.length_map]

/-- The page at an offset, where the ids of the rows are distinct. -/
theorem tenants_tenantsListJson
    {rows : List Organization}
    (hids : (rows.map Organization.id).Nodup)
    (search : Search) (offsetRaw : Option String) :
    (tenantsListJson toLowerCase rows search offsetRaw).tenants =
      (((matching toLowerCase rows search).drop (parseOffset offsetRaw)).take
        (clampLimit search.limit)).map fun row => entryOf row row.candidate := by
  have hentry : ∀ page : List Organization, (∀ row ∈ page, row ∈ rows) →
      ((page.map Organization.candidate).filterMap fun org =>
          (rows.find? fun row => row.id == org.id).map fun row => entryOf row org) =
        page.map fun row => entryOf row row.candidate := by
    intro page hpage
    induction page with
    | nil => rfl
    | cons row page ih =>
        obtain ⟨hrow, hrest⟩ := List.forall_mem_cons.mp hpage
        rw [List.map_cons, List.filterMap_cons, find?_id hids hrow, Option.map_some, List.map_cons,
          ih hrest]
  unfold tenantsListJson
  dsimp only
  rw [filterTenants_eq, List.take_take, Nat.add_comm (parseOffset offsetRaw), Nat.min_self,
    ← List.map_take, ← List.map_drop, List.drop_take, Nat.add_sub_cancel, hentry]
  intro row hrow
  exact List.mem_of_mem_filter (List.mem_of_mem_drop (List.mem_of_mem_take hrow))

/-- Up to 500 organizations are all read. -/
theorem FindMany.perm
    {table rows : List Organization}
    (h : FindMany table rows)
    (hfew : table.length ≤ MAX_LIST_LIMIT) :
    rows.Perm table := by
  obtain ⟨ordered, hperm, -, rfl⟩ := h
  rw [List.take_of_length_le (by rwa [hperm.length_eq])]
  exact hperm

theorem exists_findMany (table : List Organization) : ∃ rows, FindMany table rows := by
  refine ⟨_, table.mergeSort fun a b => decide (b.createdAt ≤ a.createdAt),
    List.mergeSort_perm _ _, ?_, rfl⟩
  have hsorted := @List.pairwise_mergeSort _ (fun a b : Organization =>
      decide (b.createdAt ≤ a.createdAt))
    (fun a b c hab hbc => by
      rw [decide_eq_true_eq] at *
      exact hbc.trans hab)
    (fun a b => by
      rw [Bool.or_eq_true, decide_eq_true_eq, decide_eq_true_eq]
      exact le_total _ _) table
  exact hsorted.imp fun h => of_decide_eq_true h

theorem parseOffset_none : parseOffset none = 0 := rfl

theorem parseOffset_zero : parseOffset (some (toString 0)) = 0 := by
  decide +kernel

/-- Paging is complete exactly when all that matches fits on one page. -/
theorem listsAll_iff
    {table : List Organization} {search : Search}
    (hfew : table.length ≤ MAX_LIST_LIMIT)
    (hids : (table.map Organization.id).Nodup) :
    ListsAll toLowerCase table search ↔
      (matching toLowerCase table search).length ≤ clampLimit search.limit := by
  have hmatching {rows : List Organization} (h : FindMany table rows) :
      (matching toLowerCase rows search).Perm (matching toLowerCase table search) :=
    (h.perm hfew).filter _
  constructor
  · rintro ⟨htotal, -⟩
    obtain ⟨rows, hrows⟩ := exists_findMany table
    have hfirst := htotal rows none hrows
    rw [total_tenantsListJson, (hmatching hrows).length_eq, parseOffset_none] at hfirst
    omega
  · intro hpage
    have htotal : ∀ rows offsetRaw, FindMany table rows →
        (tenantsListJson toLowerCase rows search offsetRaw).total =
          (matching toLowerCase table search).length := by
      intro rows offsetRaw hrows
      rw [total_tenantsListJson, (hmatching hrows).length_eq]
      omega
    refine ⟨htotal, fun rows hrows => ⟨_, .last ?_, ?_⟩⟩
    · rw [htotal _ _ (hrows 0)]
      omega
    · have hdistinct : ((rows 0).map Organization.id).Nodup :=
        (((hrows 0).perm hfew).map _).nodup_iff.mpr hids
      rw [tenants_tenantsListJson hdistinct, parseOffset_zero, List.drop_zero, List.take_of_length_le]
      · exact (hmatching (hrows 0)).map _
      · rw [(hmatching (hrows 0)).length_eq]
        exact hpage

/-- Organizations with the names `a` and `b`. -/
def twoOrganizations : List Organization :=
  ["a", "b"].map fun name =>
    { id := name, name := name, slug := none, logo := none, createdAt := 0, members := 1,
      settings := none }

def anyTenant (limit : String) : Search where
  q := none
  filter := none
  limit := some limit

theorem listsAll_twoOrganizations :
    ListsAll id twoOrganizations (anyTenant "2") ↔
      (matching id twoOrganizations (anyTenant "2")).length ≤ clampLimit (anyTenant "2").limit :=
  listsAll_iff (by decide) (by decide)

/-- With one entry on a page the second organization is never asked for. -/
theorem not_listsAll_twoOrganizations : ¬ListsAll id twoOrganizations (anyTenant "1") := by
  rintro ⟨htotal, -⟩
  have hfound : FindMany twoOrganizations twoOrganizations :=
    ⟨twoOrganizations, List.Perm.refl _, by decide, by decide⟩
  exact absurd (htotal _ none hfound) (by decide +kernel)

end Paging

end TenantAdmin
end Core
end NestBase
