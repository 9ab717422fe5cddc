import NestBase.Core.PowerSyncUploads

/-!
# Uploads that overlap

A request reads the rows of its types in one step and writes its rows back in
another, each atomic.  What it writes are whole rows, computed from the rows
it read.

Two overlapping requests leave the rows of running them in the order of their
writes, when each of them still computes from current rows as it writes
(`StillCurrent`): for every row of its batch it deletes the row, or writes
every field in which the row has changed since.
-/

namespace NestBase
namespace PowerSync
namespace Overlap

open Lib
open KeyedTable
open PowerSyncConflict

/-! ## Rows up to the order of their fields -/

/-- What each field of a row holds. -/
def fieldsOf (data : Option Data) : Option (String → Option (Value Json)) :=
  data.map Record.get

/-- The rows of the tenant, by type and id. -/
def tenantMap (tenantId : String) (rows : PrismaRows) : RowMap :=
  fun pair => (rows.get (tenantId, pair.1, pair.2)).map PrismaRow.data

/-- The same rows with the same data. -/
def SameRows (rows rows' : PrismaRows) : Prop :=
  ∀ key,
    fieldsOf ((rows.get key).map PrismaRow.data) = fieldsOf ((rows'.get key).map PrismaRow.data)

def Alike (m m' : RowMap) : Prop :=
  ∀ pair, fieldsOf (m pair) = fieldsOf (m' pair)

theorem get_of_fieldsOf {data data' : Option Data} (h : fieldsOf data = fieldsOf data') :
    (data.getD Record.empty).get = (data'.getD Record.empty).get := by
  cases data with
  | none =>
      cases data' with
      | none => rfl
      | some data' => cases h
  | some data =>
      cases data' with
      | none => cases h
      | some data' => exact Option.some.inj h

theorem eq_none_of_fieldsOf
    {data data' : Option Data}
    (h : fieldsOf data = fieldsOf data')
    (hnone : data = none) :
    data' = none := by
  subst hnone
  cases data' with
  | none => rfl
  | some data' => cases h

theorem specOperation_self (m : RowMap) (operation : Operation) :
    specOperation m operation operation.pair =
      if operation.op = .DELETE then none
      else some (((m operation.pair).getD Record.empty).assign operation.data) :=
  Function.update_self _ _ m

variable {m m' : RowMap}
variable {pair : Pair}

theorem fieldsOf_specOperation
    (h : fieldsOf (m pair) = fieldsOf (m' pair))
    (operation : Operation) :
    fieldsOf (specOperation m operation pair) = fieldsOf (specOperation m' operation pair) := by
  by_cases hpair : operation.pair = pair
  · subst hpair
    rw [specOperation_self, specOperation_self]
    split
    · rfl
    · refine congrArg some (funext fun field => ?_)
      rw [Record.get_assign, Record.get_assign, get_of_fieldsOf h]
  · rw [specOperation_of_ne hpair, specOperation_of_ne hpair]
    exact h

variable {batch : List Operation}

theorem mergeableAll_congr (halike : Alike m m') (h : MergeableAll m batch) :
    MergeableAll m' batch := by
  induction batch generalizing m m' with
  | nil => trivial
  | cons operation rest ih =>
      refine ⟨?_, ih (fun pair => fieldsOf_specOperation (halike pair) operation) h.2⟩
      rcases h.1 with hdelete | hnone | hkeys | htype
      · exact Or.inl hdelete
      · exact Or.inr (Or.inl (eq_none_of_fieldsOf (halike operation.pair) hnone))
      · exact Or.inr (Or.inr (Or.inl hkeys))
      · exact Or.inr (Or.inr (Or.inr htype))

/-! ## Batches that need not know the row -/

def Deletes (batch : List Operation) (pair : Pair) : Prop :=
  ∃ operation ∈ batch, operation.pair = pair ∧ operation.op = .DELETE

def WritesField (batch : List Operation) (pair : Pair) (field : String) : Prop :=
  ∃ operation ∈ batch, operation.pair = pair ∧ field ∈ operation.data.keys

/-- The batch deletes the row, or writes every field in which two contents of it differ. -/
def Overwrites (batch : List Operation) (pair : Pair) (seen current : Option Data) : Prop :=
  Deletes batch pair ∨
    ∀ field, ¬ WritesField batch pair field →
      (seen.getD Record.empty).get field = (current.getD Record.empty).get field

theorem overwrites_of_fieldsOf
    {seen current current' : Option Data}
    (h : Overwrites batch pair seen current)
    (hsame : fieldsOf current = fieldsOf current') :
    Overwrites batch pair seen current' :=
  h.imp_right fun hfields field hfree =>
    (hfields field hfree).trans (congrFun (get_of_fieldsOf hsame) field)

/-- The batch makes the same of both contents. -/
theorem fieldsOf_specBatch
    (h :
      (Named batch pair ∧ Overwrites batch pair (m pair) (m' pair)) ∨
        fieldsOf (m pair) = fieldsOf (m' pair)) :
    fieldsOf (specBatch m batch pair) = fieldsOf (specBatch m' batch pair) := by
  induction batch generalizing m m' with
  | nil =>
      rcases h with ⟨⟨operation, hmem, -⟩, -⟩ | hsame
      · cases hmem
      · exact hsame
  | cons operation rest ih =>
      refine ih ?_
      rcases h with ⟨⟨named, hmem, hnamed⟩, hover⟩ | hsame
      · by_cases hpair : operation.pair = pair
        · subst hpair
          rw [specOperation_self, specOperation_self]
          by_cases hdelete : operation.op = .DELETE
          · rw [if_pos hdelete, if_pos hdelete]
            exact Or.inr rfl
          rw [if_neg hdelete, if_neg hdelete]
          rcases hover with ⟨deleting, hdeleting, hrow, hop⟩ | hfields
          · rcases List.mem_cons.mp hdeleting with rfl | hlater
            · exact absurd hop hdelete
            · exact Or.inl ⟨⟨deleting, hlater, hrow⟩, Or.inl ⟨deleting, hlater, hrow, hop⟩⟩
          -- A field the rest does not write comes from this operation, or was not written at all.
          have hrest :
              ∀ field, ¬ WritesField rest operation.pair field →
                (((m operation.pair).getD Record.empty).assign operation.data).get field =
                  (((m' operation.pair).getD Record.empty).assign operation.data).get field := by
            intro field hfree
            rw [Record.get_assign, Record.get_assign]
            cases hdata : operation.data.get field with
            | some value => rfl
            | none =>
                rw [Option.none_or, Option.none_or]
                refine hfields field ?_
                rintro ⟨writing, hwriting, hrow, hfield⟩
                rcases List.mem_cons.mp hwriting with rfl | hlater
                · exact Record.get_eq_none_iff.mp hdata hfield
                · exact hfree ⟨writing, hlater, hrow, hfield⟩
          by_cases hlater : Named rest operation.pair
          · exact Or.inl ⟨hlater, Or.inr hrest⟩
          · refine Or.inr (congrArg some (funext fun field => hrest field ?_))
            rintro ⟨writing, hwriting, hrow, -⟩
            exact hlater ⟨writing, hwriting, hrow⟩
        · rw [specOperation_of_ne hpair, specOperation_of_ne hpair]
          refine Or.inl ⟨⟨named, ?_, hnamed⟩, ?_⟩
          · rcases List.mem_cons.mp hmem with rfl | hlater
            · exact absurd hnamed hpair
            · exact hlater
          · refine hover.imp ?_ fun hfields field hfree => hfields field ?_
            · rintro ⟨deleting, hdeleting, hrow, hop⟩
              rcases List.mem_cons.mp hdeleting with rfl | hlater
              · exact absurd hrow hpair
              · exact ⟨deleting, hlater, hrow, hop⟩
            · rintro ⟨writing, hwriting, hrow, hfield⟩
              rcases List.mem_cons.mp hwriting with rfl | hlater
              · exact hpair hrow
              · exact hfree ⟨writing, hlater, hrow, hfield⟩
      · exact Or.inr (fieldsOf_specOperation hsame operation)

/-! ## Requests -/

/-- Types and ids without `:`, data without `id` and `updatedAt`. -/
structure Plain (batch : List Operation) : Prop where
  types : ∀ operation ∈ batch, ':' ∉ operation.type.toList
  ids : ∀ operation ∈ batch, ':' ∉ operation.id.toList
  data : ∀ operation ∈ batch, ∀ field ∈ operation.data.keys, isReserved field = false

/-- The clock does not go back during the request. -/
structure Timed (request : Request) : Prop where
  clock : Monotone request.clock
  written : ∀ n, request.clock n ≤ request.writtenAt

/-- A request whose batch, if it has one, is plain. -/
structure PlainRequest (request : Request) : Prop where
  timed : Timed request
  plain : ∀ batch, parsePowerSyncCrudBatch request.body = some batch → Plain batch

/-- The rest of a request that has read its rows: what it computes from them and writes. -/
def finish
    (tenantId : String) (request : Request) (batch : List Operation)
    (seen rows : PrismaRows) : PrismaRows :=
  match plan request.clock batch
      (PrismaPowerSyncStore.loadByTypes seen tenantId (typesOf batch)) with
  | none => rows
  | some (mutations, _) =>
      (PrismaPowerSyncStore.applyMutations rows tenantId request.writtenAt mutations).getD rows

/-- A request that is not overlapped reads the rows it writes to. -/
theorem crud_eq_finish (tenantId : String) (request : Request) (rows : PrismaRows) :
    (crud PrismaPowerSyncStore tenantId request rows).1 =
      match parsePowerSyncCrudBatch request.body with
      | none => rows
      | some batch => finish tenantId request batch rows rows := by
  unfold crud finish
  cases parsePowerSyncCrudBatch request.body with
  | none => rfl
  | some batch =>
      dsimp only
      cases plan request.clock batch
          (PrismaPowerSyncStore.loadByTypes rows tenantId (typesOf batch)) with
      | none => rfl
      | some planned =>
          obtain ⟨mutations, rejected⟩ := planned
          dsimp only
          cases PrismaPowerSyncStore.applyMutations rows tenantId request.writtenAt mutations with
          | none => rfl
          | some rows' =>
              dsimp only
              split <;> rfl

/-! ## Stored rows -/

/-- Rows as the store writes them, none later than the bound. -/
structure Stored (tenantId : String) (rows : PrismaRows) (bound : Int) : Prop where
  clean : Clean (tenantMap tenantId rows)
  written :
    ∀ pair row, rows.get (tenantId, pair) = some row → row.updatedAt ≤ bound

variable {bound : Int}

theorem Stored.mono
    {tenantId : String} {rows : PrismaRows} {bound' : Int}
    (h : Stored tenantId rows bound)
    (hbound : bound ≤ bound') :
    Stored tenantId rows bound' where
  clean := h.clean
  written := fun pair row hrow => (h.written pair row hrow).trans hbound

theorem loaded_tenantMap
    {tenantId : String} {rows : PrismaRows}
    (h : Stored tenantId rows bound)
    (types : List String) :
    Loaded types (tenantMap tenantId rows) bound
      (PrismaPowerSyncStore.loadByTypes rows tenantId types) := by
  constructor
  · intro row hrow
    obtain ⟨⟨key, stored⟩, hentry, rfl⟩ := List.mem_map.mp hrow
    obtain ⟨hmem, hwanted⟩ := List.mem_filter.mp hentry
    rw [Bool.and_eq_true, decide_eq_true_eq, List.contains_iff_mem] at hwanted
    obtain ⟨rfl, htype⟩ := hwanted
    have hget : rows.get (key.1, key.2) = some stored := Record.get_eq_some_iff_mem.mpr hmem
    refine ⟨key.2, stored.data, htype, ?_, rfl, rfl, rfl, stored.updatedAt, rfl,
      h.written key.2 stored hget⟩
    simp only [tenantMap, hget, Option.map_some]
  · intro pair data htype hdata
    obtain ⟨stored, hget, rfl⟩ := Option.map_eq_some_iff.mp hdata
    refine ⟨_, List.mem_map.mpr ⟨((tenantId, pair.1, pair.2), stored), ?_, rfl⟩, rfl, rfl, rfl,
      stored.updatedAt, rfl, h.written pair stored hget⟩
    refine List.mem_filter.mpr ⟨Record.get_eq_some_iff_mem.mp hget, ?_⟩
    simp [htype]

/-- The type of a row ends where its text has the first `:`. -/
theorem rowKey_inj
    {other : Pair}
    (hpair : ':' ∉ pair.1.toList)
    (hother : ':' ∉ other.1.toList)
    (h : rowKey pair = rowKey other) :
    pair = other := by
  have hchars :
      pair.1.toList ++ ':' :: pair.2.toList = other.1.toList ++ ':' :: other.2.toList := by
    simpa [rowKey] using congrArg String.toList h
  obtain ⟨htype, hid⟩ := Text.append_cons_inj hpair hother hchars
  exact Prod.ext (String.toList_inj.mp htype) (String.toList_inj.mp hid)

theorem apart_of_plain (h : Plain batch) (m : RowMap) :
    Apart rowKey (Named batch) (restrictTypes batch m) := by
  have htypes : ∀ type ∈ typesOf batch, ':' ∉ type.toList := by
    intro type htype
    obtain ⟨operation, hmem, rfl⟩ := List.mem_map.mp (List.mem_eraseDups.mp htype)
    exact h.types operation hmem
  intro pair other hpair hother
  refine rowKey_inj (htypes pair.1 (mem_typesOf hpair)) ?_
  rcases hother with hnamed | hstored
  · exact htypes other.1 (mem_typesOf hnamed)
  · refine htypes other.1 ?_
    by_contra hnot
    exact hstored (if_neg hnot)

/-! ## Batches that fail -/

theorem applyOperation_of_not_mergeable
    {named : Pair → Prop} {store : Record String (Row Json)}
    {operation : Operation} {clientNow mergedNow : Int}
    (rejected : List (String × String × List String))
    (h : Holds named m bound store)
    (hnamed : named operation.pair)
    (hnot : ¬ Mergeable m operation) :
    applyOperation [] clientNow mergedNow operation { store := store, rejected := rejected } =
      none := by
  unfold Mergeable at hnot
  push Not at hnot
  obtain ⟨hdelete, hstored, hkeys, htype⟩ := hnot
  obtain ⟨data, hdata⟩ := Option.ne_none_iff_exists'.mp hstored
  obtain ⟨inherited, hinherited⟩ := Option.ne_none_iff_exists'.mp htype
  have hcurrent := h operation.pair hnamed
  rw [hdata] at hcurrent
  obtain ⟨existing, hget, -⟩ := hcurrent
  have hlookup : protectedFields [] operation.type = none := by
    simp [protectedFields, hinherited]
  unfold applyOperation
  dsimp only
  rw [if_neg hdelete, hget]
  simp only [hlookup, if_neg hkeys]

theorem applyOperations_of_not_mergeable
    {named : Pair → Prop} {store : Record String (Row Json)} {clock : Nat → Int}
    (rejected : List (String × String × List String))
    (hclock : Monotone clock)
    (hapart :
      ∀ pair other, named pair → named other → rowKey other = rowKey pair → other = pair)
    (batch : List Operation)
    (hnamed : ∀ operation ∈ batch, named operation.pair)
    (hproto : ∀ operation ∈ batch, "__proto__" ∉ operation.data.keys)
    (hunreserved : ∀ operation ∈ batch, Unreserved operation)
    (n : Nat)
    {bound : Int}
    (h : Holds named m bound store)
    (hnot : ¬ MergeableAll m batch)
    (hbound : bound ≤ clock (2 * n)) :
    applyOperations [] clock n batch { store := store, rejected := rejected } = none := by
  induction batch generalizing n m store bound with
  | nil => exact absurd trivial hnot
  | cons operation rest ih =>
      by_cases hfirst : Mergeable m operation
      · obtain ⟨store', happly, hholds⟩ :=
          holds_applyOperation rejected h (hnamed operation List.mem_cons_self)
            (fun other hother => hapart _ other (hnamed operation List.mem_cons_self) hother)
            (hproto operation List.mem_cons_self) (hunreserved operation List.mem_cons_self) hfirst
            hbound (hclock (Nat.le_succ (2 * n)))
        rw [applyOperations, happly, Option.bind_some]
        exact
          ih (fun later hmem => hnamed later (List.mem_cons_of_mem _ hmem))
            (fun later hmem => hproto later (List.mem_cons_of_mem _ hmem))
            (fun later hmem => hunreserved later (List.mem_cons_of_mem _ hmem)) (n + 1) hholds
            (fun hlater => hnot ⟨hfirst, hlater⟩) (hclock (by omega))
      · rw [applyOperations,
          applyOperation_of_not_mergeable rejected h (hnamed operation List.mem_cons_self) hfirst,
          Option.bind_none]

/-! ## What a request does -/

section Finish

variable {tenantId : String}
variable {request : Request}
variable {batch : List Operation}
variable {seen rows : PrismaRows}

/-- The request has a plain batch and has read stored rows. -/
structure Reading
    (tenantId : String) (request : Request) (batch : List Operation) (seen : PrismaRows) :
    Prop where
  stored : Stored tenantId seen (request.clock 0)
  timed : Timed request
  parsed : parsePowerSyncCrudBatch request.body = some batch
  plain : Plain batch

theorem Plain.unreserved (h : Plain batch) : ∀ operation ∈ batch, Unreserved operation :=
  fun operation hmem => Or.inr (h.data operation hmem)

/-- A batch that merges under an inherited name writes nothing. -/
theorem finish_of_not_mergeable
    (hread : Reading tenantId request batch seen)
    (hnot : ¬ MergeableAll (tenantMap tenantId seen) batch) :
    finish tenantId request batch seen rows = rows := by
  have hapart := apart_of_plain hread.plain (tenantMap tenantId seen)
  have hfails :=
    applyOperations_of_not_mergeable [] hread.timed.clock
      (fun pair other hpair hother hkey => hapart other pair hother (Or.inl hpair) hkey)
      batch (fun operation hoperation => ⟨operation, hoperation, rfl⟩)
      (parsePowerSyncCrudBatch_proto hread.parsed) hread.plain.unreserved 0
      (holds_hydrate (loaded_tenantMap hread.stored (typesOf batch)) hapart hread.stored.clean)
      hnot (le_refl _)
  rw [finish, plan, hfails]
  rfl

/-- The rows after a batch, named and unnamed. -/
structure Finished
    (tenantId : String) (batch : List Operation) (after : RowMap) (now : Int)
    (rows rows' : PrismaRows) : Prop where
  named :
    ∀ pair, Named batch pair →
      rows'.get (tenantId, pair) =
        (after pair).map fun data => { data := data, updatedAt := now }
  unnamed :
    ∀ key, (key.1 = tenantId → ¬ Named batch key.2) → rows'.get key = rows.get key

theorem finished_apply
    {after : RowMap} {now : Int} {mutations : Mutations}
    (h : MutationsOf batch after now mutations)
    (rows : PrismaRows) :
    ∃ rows', PrismaPowerSyncStore.applyMutations rows tenantId now mutations = some rows' ∧
      Finished tenantId batch after now rows rows' := by
  have hids : (mutations.upserts.all fun row => (textId row.id).isSome) = true := by
    rw [List.all_eq_true]
    intro row hrow
    obtain ⟨pair, data, -, -, hisRow⟩ := h.upserts row hrow
    rw [hisRow.id]
    rfl
  have hkey :
      ∀ row pair data, IsRow now row pair data →
        (tenantId, row.type, (textId row.id).getD "") = (tenantId, pair) := by
    intro row pair data hisRow
    rw [hisRow.type, hisRow.id]
    rfl
  refine ⟨_, if_pos hids, ?_, ?_⟩
  · intro pair hpair
    rw [Record.get_removeAll]
    cases hafter : after pair with
    | none => exact if_pos (List.mem_map_of_mem (h.gone pair hpair hafter))
    | some data =>
        have hkept : (tenantId, pair) ∉ mutations.deletes.map fun p => (tenantId, p.1, p.2) := by
          intro hmem
          obtain ⟨deleted, hdeleted, hsame⟩ := List.mem_map.mp hmem
          cases hsame
          rw [(h.deletes _ hdeleted).2] at hafter
          cases hafter
        rw [if_neg hkept]
        obtain ⟨row, hrow, hisRow⟩ := h.written pair data hpair hafter
        obtain ⟨last, hlast, hlastKey, hget⟩ :
            ∃ last ∈ mutations.upserts,
              (tenantId, last.type, (textId last.id).getD "") = (tenantId, pair) ∧
                (rows.writeAll
                  (fun row : PowerSyncRowSnapshot => (tenantId, row.type, (textId row.id).getD ""))
                  (fun row => { data := row.data, updatedAt := now : PrismaRow })
                  mutations.upserts).get (tenantId, pair) =
                    some { data := last.data, updatedAt := now } :=
          Record.get_writeAll_of_named ⟨row, hrow, hkey row pair data hisRow⟩ rows
        obtain ⟨other, data', -, hother, hlastRow⟩ := h.upserts last hlast
        rw [hkey last other data' hlastRow] at hlastKey
        cases hlastKey
        rw [hother] at hafter
        cases hafter
        rw [hget, hlastRow.data]
        rfl
  · intro key hunnamed
    rw [Record.get_removeAll, if_neg, Record.get_writeAll_of_unnamed]
    · intro row hrow hsame
      obtain ⟨pair, data, hpair, -, hisRow⟩ := h.upserts row hrow
      rw [hkey row pair data hisRow] at hsame
      subst hsame
      exact hunnamed rfl hpair
    · intro hmem
      obtain ⟨deleted, hdeleted, rfl⟩ := List.mem_map.mp hmem
      exact hunnamed rfl (h.deletes deleted hdeleted).1

/-- A batch writes what it makes of the rows it has read. -/
theorem finish_of_mergeable
    (hread : Reading tenantId request batch seen)
    (hmergeable : MergeableAll (tenantMap tenantId seen) batch) :
    Finished tenantId batch (specBatch (tenantMap tenantId seen) batch) request.writtenAt rows
      (finish tenantId request batch seen rows) := by
  obtain ⟨mutations, hplan, hmutations⟩ :=
    plan_mutationsOf (loaded_tenantMap hread.stored (typesOf batch)) hread.stored.clean
      (apart_of_plain hread.plain _) hread.plain.unreserved hmergeable
      (parsePowerSyncCrudBatch_proto hread.parsed) hread.timed.clock (le_refl _)
      hread.timed.written
  obtain ⟨rows', happly, hfinished⟩ :
      ∃ rows',
        PrismaPowerSyncStore.applyMutations rows tenantId request.writtenAt mutations =
            some rows' ∧
          Finished tenantId batch (specBatch (tenantMap tenantId seen) batch) request.writtenAt
            rows rows' :=
    finished_apply hmutations rows
  have hfinish : finish tenantId request batch seen rows = rows' := by
    simp only [finish, hplan, happly, Option.getD_some]
  rw [hfinish]
  exact hfinished

/-- A row after the mutations was there before, or is an upsert. -/
theorem row_of_applyMutations
    {now : Int} {mutations : Mutations} {rows' : PrismaRows}
    {key : String × String × String} {row : PrismaRow}
    (happly : PrismaPowerSyncStore.applyMutations rows tenantId now mutations = some rows')
    (hrow : rows'.get key = some row) :
    rows.get key = some row ∨
      ∃ item ∈ mutations.upserts, row = { data := item.data, updatedAt := now } := by
  simp only [PrismaPowerSyncStore] at happly
  split at happly
  · cases happly
    rw [Record.get_removeAll] at hrow
    split at hrow
    · cases hrow
    by_cases hnamed :
        ∃ item ∈ mutations.upserts, (tenantId, item.type, (textId item.id).getD "") = key
    · obtain ⟨item, hitem, -, hwritten⟩ :
          ∃ item ∈ mutations.upserts, (tenantId, item.type, (textId item.id).getD "") = key ∧
            (rows.writeAll
              (fun row : PowerSyncRowSnapshot => (tenantId, row.type, (textId row.id).getD ""))
              (fun row => { data := row.data, updatedAt := now : PrismaRow })
              mutations.upserts).get key = some { data := item.data, updatedAt := now } :=
        Record.get_writeAll_of_named hnamed rows
      rw [hwritten] at hrow
      cases hrow
      exact Or.inr ⟨item, hitem, rfl⟩
    · push Not at hnamed
      rw [Record.get_writeAll_of_unnamed hnamed] at hrow
      exact Or.inl hrow
  · cases happly

/-- A row after a request was there before, or was written by it without the reserved fields. -/
theorem row_of_finish
    {key : String × String × String} {row : PrismaRow}
    (hrow : (finish tenantId request batch seen rows).get key = some row) :
    rows.get key = some row ∨
      (∀ field ∈ row.data.keys, isReserved field = false) ∧ row.updatedAt = request.writtenAt := by
  unfold finish at hrow
  split at hrow
  · exact Or.inl hrow
  · next mutations rejected hplan =>
    cases happly :
        PrismaPowerSyncStore.applyMutations rows tenantId request.writtenAt mutations with
    | none =>
        rw [happly, Option.getD_none] at hrow
        exact Or.inl hrow
    | some rows' =>
        rw [happly, Option.getD_some] at hrow
        refine (row_of_applyMutations happly hrow).imp_right ?_
        rintro ⟨item, hitem, rfl⟩
        obtain ⟨applied, -, hdiff⟩ := Option.map_eq_some_iff.mp hplan
        cases hdiff
        obtain ⟨operation, -, hsnapshot⟩ := List.mem_filterMap.mp hitem
        obtain ⟨object, -, rfl⟩ := Option.map_eq_some_iff.mp hsnapshot
        exact ⟨payload_keys, rfl⟩

/-- Whatever the batch is, the rows it writes are stored ones. -/
theorem stored_finish {bound : Int} (hstored : Stored tenantId rows bound) :
    Stored tenantId (finish tenantId request batch seen rows) (max bound request.writtenAt) := by
  constructor
  · intro pair data hdata
    obtain ⟨row, hget, rfl⟩ := Option.map_eq_some_iff.mp hdata
    rcases row_of_finish hget with hold | ⟨hclean, -⟩
    · refine hstored.clean pair row.data ?_
      simp only [tenantMap, hold, Option.map_some]
    · exact hclean
  · intro pair row hget
    rcases row_of_finish hget with hold | ⟨-, hwritten⟩
    · exact (hstored.written pair row hold).trans (le_max_left _ _)
    · exact hwritten.le.trans (le_max_right _ _)

end Finish

/-! ## What a request means -/

open Classical in
/-- A request that would merge under an inherited name fails and changes nothing. -/
noncomputable def meant (m : RowMap) (request : Request) : RowMap :=
  match parsePowerSyncCrudBatch request.body with
  | none => m
  | some batch => if MergeableAll m batch then specBatch m batch else m

variable {request : Request}

theorem meant_congr {request' : Request} (hbody : request'.body = request.body) (m : RowMap) :
    meant m request' = meant m request := by
  unfold meant
  rw [hbody]

/-- The batch makes the same of the rows it has read and of the rows that are there. -/
structure StillCurrent (batch : List Operation) (seen current : RowMap) : Prop where
  mergeable : MergeableAll seen batch ↔ MergeableAll current batch
  overwrites :
    MergeableAll seen batch →
      ∀ pair, Named batch pair → Overwrites batch pair (seen pair) (current pair)

theorem stillCurrent_refl (batch : List Operation) (m : RowMap) : StillCurrent batch m m where
  mergeable := Iff.rfl
  overwrites := fun _ _ _ => Or.inr fun _ _ => rfl

section Meaning

variable {tenantId : String}
variable {request : Request}
variable {rows : PrismaRows}
variable {m : RowMap}

theorem alike_finish
    {batch : List Operation} {seen : PrismaRows}
    (hread : Reading tenantId request batch seen)
    (hcurrent : StillCurrent batch (tenantMap tenantId seen) (tenantMap tenantId rows))
    (halike : Alike (tenantMap tenantId rows) m) :
    Alike (tenantMap tenantId (finish tenantId request batch seen rows)) (meant m request) := by
  unfold meant
  rw [hread.parsed]
  dsimp only
  by_cases hmergeable : MergeableAll (tenantMap tenantId seen) batch
  · rw [if_pos (mergeableAll_congr halike (hcurrent.mergeable.mp hmergeable))]
    have hfinished :
        Finished tenantId batch (specBatch (tenantMap tenantId seen) batch) request.writtenAt rows
          (finish tenantId request batch seen rows) :=
      finish_of_mergeable hread hmergeable
    intro pair
    by_cases hnamed : Named batch pair
    · have hrow :
          tenantMap tenantId (finish tenantId request batch seen rows) pair =
            specBatch (tenantMap tenantId seen) batch pair := by
        rw [tenantMap, hfinished.named pair hnamed, Option.map_map]
        exact congrFun Option.map_id _
      rw [hrow]
      refine fieldsOf_specBatch (Or.inl ⟨hnamed, ?_⟩)
      exact overwrites_of_fieldsOf (hcurrent.overwrites hmergeable pair hnamed) (halike pair)
    · have hrow :
          tenantMap tenantId (finish tenantId request batch seen rows) pair =
            tenantMap tenantId rows pair := by
        rw [tenantMap, hfinished.unnamed (tenantId, pair) fun _ => hnamed]
        rfl
      rw [hrow, specBatch_of_not_named hnamed]
      exact halike pair
  · have hnot : ¬ MergeableAll m batch := fun h =>
      hmergeable (hcurrent.mergeable.mpr (mergeableAll_congr (fun pair => (halike pair).symm) h))
    rw [if_neg hnot, finish_of_not_mergeable hread hmergeable]
    exact halike

/-- The rows of other tenants stay. -/
theorem others_finish
    {batch : List Operation} {seen : PrismaRows} {key : String × String × String}
    (hread : Reading tenantId request batch seen)
    (hkey : key.1 ≠ tenantId) :
    (finish tenantId request batch seen rows).get key = rows.get key := by
  by_cases hmergeable : MergeableAll (tenantMap tenantId seen) batch
  · exact
      (finish_of_mergeable hread hmergeable).unnamed key
        fun htenant => absurd htenant hkey
  · rw [finish_of_not_mergeable hread hmergeable]

theorem alike_crud
    (hstored : Stored tenantId rows (request.clock 0))
    (hplain : PlainRequest request)
    (halike : Alike (tenantMap tenantId rows) m) :
    Alike (tenantMap tenantId (crud PrismaPowerSyncStore tenantId request rows).1)
      (meant m request) := by
  rw [crud_eq_finish]
  cases hparsed : parsePowerSyncCrudBatch request.body with
  | none =>
      unfold meant
      rw [hparsed]
      exact halike
  | some batch =>
      exact
        alike_finish ⟨hstored, hplain.timed, hparsed, hplain.plain batch hparsed⟩
          (stillCurrent_refl batch _) halike

theorem others_crud
    {key : String × String × String}
    (hstored : Stored tenantId rows (request.clock 0))
    (hplain : PlainRequest request)
    (hkey : key.1 ≠ tenantId) :
    (crud PrismaPowerSyncStore tenantId request rows).1.get key = rows.get key := by
  rw [crud_eq_finish]
  cases hparsed : parsePowerSyncCrudBatch request.body with
  | none => rfl
  | some batch =>
      exact others_finish ⟨hstored, hplain.timed, hparsed, hplain.plain batch hparsed⟩ hkey

/-- Rows that requests have written are stored rows, whatever the requests are. -/
theorem stored_crud {bound : Int} (hstored : Stored tenantId rows bound) (request : Request) :
    Stored tenantId (crud PrismaPowerSyncStore tenantId request rows).1
      (max bound request.writtenAt) := by
  rw [crud_eq_finish]
  split
  · exact hstored.mono (le_max_left _ _)
  · exact stored_finish hstored

end Meaning

theorem stored_empty (tenantId : String) (bound : Int) :
    Stored tenantId Record.empty bound where
  clean := by
    intro pair data hdata
    cases hdata
  written := by
    intro pair row hrow
    cases hrow

/-! ## One request after the other -/

/-- The second request begins when the first one has written. -/
structure InTurn (clock : Int) (first second : Request) : Prop where
  begins : clock ≤ first.clock 0
  after : first.writtenAt ≤ second.clock 0
  plainFirst : PlainRequest first
  plainSecond : PlainRequest second

/-- The rows of sending the same bodies one after the other. -/
def SerialAs
    (tenantId : String) (clock : Int) (rows₀ : PrismaRows) (first second : Request)
    (rows : PrismaRows) : Prop :=
  ∃ first' second',
    first'.body = first.body ∧ second'.body = second.body ∧ InTurn clock first' second' ∧
      SameRows
        (crud PrismaPowerSyncStore tenantId second'
          (crud PrismaPowerSyncStore tenantId first' rows₀).1).1
        rows

/-- The request with every reading of the clock at one time. -/
def atTime (clock : Int) (request : Request) : Request where
  body := request.body
  clock := fun _ => clock
  writtenAt := clock

theorem plainRequest_atTime (h : PlainRequest request) (clock : Int) :
    PlainRequest (atTime clock request) where
  timed :=
    { clock := fun _ _ _ => le_refl _
      written := fun _ => le_refl _ }
  plain := h.plain

section Serial

variable {tenantId : String}
variable {clock : Int}
variable {rows₀ : PrismaRows}
variable {first second : Request}

theorem stored_first (hstored : Stored tenantId rows₀ clock) (hturn : InTurn clock first second) :
    Stored tenantId (crud PrismaPowerSyncStore tenantId first rows₀).1 (second.clock 0) :=
  (stored_crud hstored first).mono
    (max_le
      ((hturn.begins.trans (hturn.plainFirst.timed.written 0)).trans hturn.after) hturn.after)

/-- Requests sent in turn do what they mean. -/
theorem alike_inTurn (hstored : Stored tenantId rows₀ clock) (hturn : InTurn clock first second) :
    Alike
      (tenantMap tenantId
        (crud PrismaPowerSyncStore tenantId second
          (crud PrismaPowerSyncStore tenantId first rows₀).1).1)
      (meant (meant (tenantMap tenantId rows₀) first) second) :=
  alike_crud (stored_first hstored hturn) hturn.plainSecond
    (alike_crud (hstored.mono hturn.begins) hturn.plainFirst fun _ => rfl)

theorem others_inTurn
    {key : String × String × String}
    (hstored : Stored tenantId rows₀ clock)
    (hturn : InTurn clock first second)
    (hkey : key.1 ≠ tenantId) :
    (crud PrismaPowerSyncStore tenantId second
      (crud PrismaPowerSyncStore tenantId first rows₀).1).1.get key = rows₀.get key :=
  (others_crud (stored_first hstored hturn) hturn.plainSecond hkey).trans
    (others_crud (hstored.mono hturn.begins) hturn.plainFirst hkey)

theorem serialAs_of_alike
    {rows : PrismaRows}
    (hstored : Stored tenantId rows₀ clock)
    (hfirst : PlainRequest first)
    (hsecond : PlainRequest second)
    (halike :
      Alike (tenantMap tenantId rows) (meant (meant (tenantMap tenantId rows₀) first) second))
    (hothers : ∀ key, key.1 ≠ tenantId → rows.get key = rows₀.get key) :
    SerialAs tenantId clock rows₀ first second rows := by
  have hturn : InTurn clock (atTime clock first) (atTime clock second) :=
    { begins := le_refl _
      after := le_refl _
      plainFirst := plainRequest_atTime hfirst clock
      plainSecond := plainRequest_atTime hsecond clock }
  refine ⟨atTime clock first, atTime clock second, rfl, rfl, hturn, ?_⟩
  intro key
  by_cases hkey : key.1 = tenantId
  · obtain ⟨tenant, pair⟩ := key
    subst hkey
    exact (alike_inTurn hstored hturn pair).trans (halike pair).symm
  · rw [others_inTurn hstored hturn hkey, hothers key hkey]

end Serial

/-! ## Two requests at once -/

inductive Client where
  | first
  | second
deriving DecidableEq, Repr

inductive Phase where
  | waiting
  /-- The table as the request read it. -/
  | loaded (seen : PrismaRows)
  | done

structure World where
  rows : PrismaRows
  /-- The last time a request wrote rows. -/
  clock : Int
  phase : Client → Phase
  /-- The requests that are done, in the order of their writes. -/
  order : List Client

def initialWorld (rows : PrismaRows) (clock : Int) : World where
  rows := rows
  clock := clock
  phase := fun _ => .waiting
  order := []

inductive Event where
  /-- `loadByTypes` -/
  | load (client : Client)
  /-- `applyMutations` -/
  | apply (client : Client)
deriving DecidableEq, Repr

def step (tenantId : String) (requests : Client → Request) (w : World) : Event → Option World
  | .load client =>
      match w.phase client with
      | .waiting =>
          match parsePowerSyncCrudBatch (requests client).body with
          | none =>
              -- `BadRequestException("invalid CRUD batch")`
              some
                { w with
                  phase := Function.update w.phase client .done
                  order := w.order ++ [client] }
          | some _ => some { w with phase := Function.update w.phase client (.loaded w.rows) }
      | _ => none
  | .apply client =>
      match w.phase client, parsePowerSyncCrudBatch (requests client).body with
      | .loaded seen, some batch =>
          some
            { rows := finish tenantId (requests client) batch seen w.rows
              clock := max w.clock (requests client).writtenAt
              phase := Function.update w.phase client .done
              order := w.order ++ [client] }
      | _, _ => none

/-- A request that reads rows reads the clock after they were written. -/
def Timely (requests : Client → Request) (w : World) : Event → Prop
  | .load client => w.clock ≤ (requests client).clock 0
  | .apply _ => True

/-- Besides, a request that writes has read rows that are still current. -/
def Current (tenantId : String) (requests : Client → Request) (w : World) : Event → Prop
  | .load client => w.clock ≤ (requests client).clock 0
  | .apply client =>
      ∀ seen batch, w.phase client = .loaded seen →
        parsePowerSyncCrudBatch (requests client).body = some batch →
          StillCurrent batch (tenantMap tenantId seen) (tenantMap tenantId w.rows)

/-- The rows of the requests done so far, one after the other. -/
noncomputable def serialMap
    (requests : Client → Request) (m : RowMap) (order : List Client) : RowMap :=
  order.foldl (fun m client => meant m (requests client)) m

structure Inv (tenantId : String) (requests : Client → Request) (rows₀ : PrismaRows) (w : World) :
    Prop where
  stored : Stored tenantId w.rows w.clock
  loaded :
    ∀ client seen, w.phase client = .loaded seen →
      Stored tenantId seen ((requests client).clock 0)
  rows :
    Alike (tenantMap tenantId w.rows) (serialMap requests (tenantMap tenantId rows₀) w.order)
  others : ∀ key, key.1 ≠ tenantId → w.rows.get key = rows₀.get key
  order : w.order.Nodup
  done : ∀ client, client ∈ w.order ↔ w.phase client = .done

section Runs

variable {tenantId : String}
variable {requests : Client → Request}
variable {rows₀ : PrismaRows}
variable {w w' : World}

theorem inv_initialWorld {clock : Int} (hstored : Stored tenantId rows₀ clock) :
    Inv tenantId requests rows₀ (initialWorld rows₀ clock) where
  stored := hstored
  loaded := by
    intro client seen hphase
    cases hphase
  rows := fun _ => rfl
  others := fun _ _ => rfl
  order := List.nodup_nil
  done := by
    intro client
    constructor
    · intro hmem
      cases hmem
    · intro hphase
      cases hphase

theorem serialMap_append (m : RowMap) (order : List Client) (client : Client) :
    serialMap requests m (order ++ [client]) =
      meant (serialMap requests m order) (requests client) := by
  simp [serialMap]

variable {client : Client}

/-- Only the request whose phase changes can begin to hold rows. -/
theorem loaded_update
    {phase : Client → Phase} {other : Client} {next : Phase} {seen : PrismaRows}
    (h : Function.update phase client next other = .loaded seen) :
    (other = client ∧ next = .loaded seen) ∨ phase other = .loaded seen := by
  by_cases hsame : other = client
  · subst hsame
    rw [Function.update_self] at h
    exact Or.inl ⟨rfl, h⟩
  · rw [Function.update_of_ne hsame] at h
    exact Or.inr h

/-- The requests done and their order when one more is. -/
theorem Inv.finished
    (h : Inv tenantId requests rows₀ w)
    (client : Client)
    (hphase : w.phase client ≠ .done) :
    (w.order ++ [client]).Nodup ∧
      ∀ other, other ∈ w.order ++ [client] ↔
        Function.update w.phase client .done other = .done := by
  refine ⟨?_, ?_⟩
  · rw [← List.concat_eq_append, List.nodup_concat]
    exact ⟨fun hmem => hphase ((h.done client).mp hmem), h.order⟩
  · intro other
    rw [List.mem_append, List.mem_singleton]
    by_cases hsame : other = client
    · subst hsame
      rw [Function.update_self]
      exact ⟨fun _ => rfl, fun _ => Or.inr rfl⟩
    · rw [Function.update_of_ne hsame, ← h.done other]
      exact ⟨fun hmem => hmem.resolve_right hsame, Or.inl⟩

theorem Inv.load
    (h : Inv tenantId requests rows₀ w)
    (hphase : w.phase client = .waiting)
    (hlater : w.clock ≤ (requests client).clock 0) :
    Inv tenantId requests rows₀
      { w with phase := Function.update w.phase client (.loaded w.rows) } := by
  refine ⟨h.stored, ?_, h.rows, h.others, h.order, ?_⟩
  · intro other seen hother
    rcases loaded_update hother with ⟨rfl, hseen⟩ | hold
    · cases hseen
      exact h.stored.mono hlater
    · exact h.loaded other seen hold
  · intro other
    change other ∈ w.order ↔ Function.update w.phase client (.loaded w.rows) other = .done
    rw [h.done other]
    by_cases hsame : other = client
    · subst hsame
      rw [hphase, Function.update_self]
      exact ⟨nofun, nofun⟩
    · rw [Function.update_of_ne hsame]

/-- A request without a batch is done at once. -/
theorem Inv.refuse
    (h : Inv tenantId requests rows₀ w)
    (hphase : w.phase client ≠ .done)
    (hparsed : parsePowerSyncCrudBatch (requests client).body = none) :
    Inv tenantId requests rows₀
      { w with
        phase := Function.update w.phase client .done
        order := w.order ++ [client] } := by
  obtain ⟨horder, hdone⟩ := h.finished client hphase
  refine ⟨h.stored, ?_, ?_, h.others, horder, hdone⟩
  · intro other seen hother
    rcases loaded_update hother with ⟨-, hseen⟩ | hold
    · cases hseen
    · exact h.loaded other seen hold
  · have hmeant :
        ∀ m : RowMap, meant m (requests client) = m := by
      intro m
      unfold meant
      rw [hparsed]
    rw [serialMap_append, hmeant]
    exact h.rows

theorem Inv.apply
    (h : Inv tenantId requests rows₀ w)
    {seen : PrismaRows} {batch : List Operation}
    (hphase : w.phase client = .loaded seen)
    (hparsed : parsePowerSyncCrudBatch (requests client).body = some batch)
    (hplain : PlainRequest (requests client))
    (hcurrent : StillCurrent batch (tenantMap tenantId seen) (tenantMap tenantId w.rows)) :
    Inv tenantId requests rows₀
      { rows := finish tenantId (requests client) batch seen w.rows
        clock := max w.clock (requests client).writtenAt
        phase := Function.update w.phase client .done
        order := w.order ++ [client] } := by
  have hread : Reading tenantId (requests client) batch seen :=
    ⟨h.loaded client seen hphase, hplain.timed, hparsed, hplain.plain batch hparsed⟩
  obtain ⟨horder, hdone⟩ := h.finished client (by rw [hphase]; nofun)
  refine ⟨stored_finish h.stored, ?_, ?_, ?_, horder, hdone⟩
  · intro other seen' hother
    rcases loaded_update hother with ⟨-, hseen'⟩ | hold
    · cases hseen'
    · exact h.loaded other seen' hold
  · rw [serialMap_append]
    exact alike_finish hread hcurrent h.rows
  · intro key hkey
    exact (others_finish hread hkey).trans (h.others key hkey)

theorem inv_step
    {event : Event}
    (hplain : ∀ client, PlainRequest (requests client))
    (h : Inv tenantId requests rows₀ w)
    (hguard : Current tenantId requests w event)
    (hstep : step tenantId requests w event = some w') :
    Inv tenantId requests rows₀ w' := by
  cases event with
  | load client =>
      simp only [step] at hstep
      cases hphase : w.phase client with
      | waiting =>
          rw [hphase] at hstep
          cases hparsed : parsePowerSyncCrudBatch (requests client).body with
          | none =>
              rw [hparsed] at hstep
              cases hstep
              exact h.refuse (by rw [hphase]; nofun) hparsed
          | some batch =>
              rw [hparsed] at hstep
              cases hstep
              exact h.load hphase hguard
      | loaded seen =>
          rw [hphase] at hstep
          cases hstep
      | done =>
          rw [hphase] at hstep
          cases hstep
  | apply client =>
      simp only [step] at hstep
      cases hphase : w.phase client with
      | waiting =>
          rw [hphase] at hstep
          cases hstep
      | loaded seen =>
          rw [hphase] at hstep
          cases hparsed : parsePowerSyncCrudBatch (requests client).body with
          | none =>
              rw [hparsed] at hstep
              cases hstep
          | some batch =>
              rw [hparsed] at hstep
              cases hstep
              exact h.apply hphase hparsed (hplain client) (hguard seen batch hphase hparsed)
      | done =>
          rw [hphase] at hstep
          cases hstep

theorem inv_of_reaches
    {clock : Int}
    (hplain : ∀ client, PlainRequest (requests client))
    (hstored : Stored tenantId rows₀ clock)
    (hrun :
      Reaches (step tenantId requests) (Current tenantId requests) (initialWorld rows₀ clock) w) :
    Inv tenantId requests rows₀ w :=
  hrun.invariant (inv_initialWorld hstored) fun _ _ _ hinv hguard hstep =>
    inv_step hplain hinv hguard hstep

/-- Both requests once, in one of the two orders. -/
theorem order_cases {order : List Client} (hnodup : order.Nodup) (hall : ∀ client, client ∈ order) :
    order = [.first, .second] ∨ order = [.second, .first] := by
  have hperm : List.Perm order [.first, .second] := by
    refine (List.perm_ext_iff_of_nodup hnodup (by decide)).mpr fun client => ?_
    refine ⟨fun _ => ?_, fun _ => hall client⟩
    cases client <;> decide
  obtain ⟨a, b, rfl⟩ := List.length_eq_two.mp hperm.length_eq
  cases a <;> cases b <;> simp at hnodup ⊢

/-- Requests that write from rows that are still current have the effect of one after the other. -/
theorem serialAs_of_reaches
    {clock : Int}
    (hplain : ∀ client, PlainRequest (requests client))
    (hstored : Stored tenantId rows₀ clock)
    (hrun :
      Reaches (step tenantId requests) (Current tenantId requests) (initialWorld rows₀ clock) w)
    (hdone : ∀ client, w.phase client = .done) :
    SerialAs tenantId clock rows₀ (requests .first) (requests .second) w.rows ∨
      SerialAs tenantId clock rows₀ (requests .second) (requests .first) w.rows := by
  have h := inv_of_reaches hplain hstored hrun
  have hrows := h.rows
  rcases order_cases h.order fun client => (h.done client).mpr (hdone client) with horder | horder
  · rw [horder] at hrows
    exact Or.inl (serialAs_of_alike hstored (hplain .first) (hplain .second) hrows h.others)
  · rw [horder] at hrows
    exact Or.inr (serialAs_of_alike hstored (hplain .second) (hplain .first) hrows h.others)

end Runs

/-! ## Two requests on one row -/

theorem mergeableAll_of_type
    (h : ∀ operation ∈ batch, Permissions.inheritedKey operation.type = none)
    (m : RowMap) :
    MergeableAll m batch := by
  induction batch generalizing m with
  | nil => trivial
  | cons operation rest ih =>
      exact
        ⟨Or.inr (Or.inr (Or.inr (h operation List.mem_cons_self))),
          ih (fun later hmem => h later (List.mem_cons_of_mem _ hmem)) _⟩

theorem stillCurrent_of_overwrites
    {seen current : RowMap}
    (htypes : ∀ operation ∈ batch, Permissions.inheritedKey operation.type = none)
    (h : ∀ pair, Named batch pair → Overwrites batch pair (seen pair) (current pair)) :
    StillCurrent batch seen current where
  mergeable := ⟨fun _ => mergeableAll_of_type htypes _, fun _ => mergeableAll_of_type htypes _⟩
  overwrites := fun _ => h

/-- One operation on the row `1` of the type `todo`. -/
def todoRequest (op : String) (data : List (String × Json)) : Request :=
  requestOf [operationJson op "todo" "1" data]

def todoOperation (op : OperationKind) (data : Data) : Operation where
  op := op
  type := "todo"
  id := "1"
  data := data

theorem plainRequest_todo
    (op : OperationKind)
    (data : Data)
    (htimed : Timed request)
    (hparsed : parsePowerSyncCrudBatch request.body = some [todoOperation op data])
    (hdata : ∀ field ∈ data.keys, isReserved field = false) :
    PlainRequest request := by
  have htype : ':' ∉ "todo".toList := by decide
  have hid : ':' ∉ "1".toList := by decide
  refine ⟨htimed, fun batch hbatch => ?_⟩
  rw [hparsed] at hbatch
  cases hbatch
  refine ⟨?_, ?_, ?_⟩ <;> intro operation hmem <;> rw [List.mem_singleton.mp hmem]
  · exact htype
  · exact hid
  · exact hdata

theorem timed_requestOf (operations : List Json) : Timed (requestOf operations) where
  clock := fun _ _ _ => le_refl _
  written := fun _ => le_refl _

theorem todo_not_inherited (op : OperationKind) (data : Data) :
    ∀ operation ∈ [todoOperation op data], Permissions.inheritedKey operation.type = none := by
  have htype : Permissions.inheritedKey "todo" = none := by decide
  intro operation hmem
  rw [List.mem_singleton.mp hmem]
  exact htype

/-- An insert, and a delete of the same row. -/
def insertAndDelete : Client → Request
  | .first => todoRequest "PUT" [("a", .num "1")]
  | .second => todoRequest "DELETE" []

/-- A delete overlaps an insert of the row. -/
theorem serialAs_insertAndDelete :
    ∃ w, Reaches (step "t1" insertAndDelete) (Current "t1" insertAndDelete)
        (initialWorld Record.empty 0) w ∧
      w.order = [.first, .second] ∧
        (SerialAs "t1" 0 Record.empty (insertAndDelete .first) (insertAndDelete .second) w.rows ∨
          SerialAs "t1" 0 Record.empty (insertAndDelete .second) (insertAndDelete .first)
            w.rows) := by
  have hplain : ∀ client, PlainRequest (insertAndDelete client) := by
    intro client
    cases client with
    | first =>
        exact
          plainRequest_todo .PUT (Record.empty.set "a" (.other (.num "1"))) (timed_requestOf _) rfl
            (by decide)
    | second => exact plainRequest_todo .DELETE Record.empty (timed_requestOf _) rfl nofun
  obtain ⟨w₁, h₁⟩ :
      ∃ w₁, step "t1" insertAndDelete (initialWorld Record.empty 0) (.load .first) = some w₁ :=
    ⟨_, rfl⟩
  obtain ⟨w₂, h₂⟩ : ∃ w₂, step "t1" insertAndDelete w₁ (.load .second) = some w₂ := by
    cases h₁
    exact ⟨_, rfl⟩
  obtain ⟨w₃, h₃⟩ : ∃ w₃, step "t1" insertAndDelete w₂ (.apply .first) = some w₃ := by
    cases h₁
    cases h₂
    exact ⟨_, rfl⟩
  obtain ⟨w₄, h₄⟩ : ∃ w₄, step "t1" insertAndDelete w₃ (.apply .second) = some w₄ := by
    cases h₁
    cases h₂
    cases h₃
    exact ⟨_, rfl⟩
  have hinsert : Current "t1" insertAndDelete w₂ (.apply .first) := by
    intro seen batch hphase hparsed
    cases h₁
    cases h₂
    have hseen : Phase.loaded Record.empty = Phase.loaded seen := hphase
    cases hseen
    exact stillCurrent_refl batch _
  have hdelete : Current "t1" insertAndDelete w₃ (.apply .second) := by
    intro seen batch _ hparsed
    have hbatch : some [todoOperation .DELETE Record.empty] = some batch := hparsed
    cases hbatch
    refine stillCurrent_of_overwrites (todo_not_inherited _ _) ?_
    rintro pair ⟨operation, hmem, hpair⟩
    refine Or.inl ⟨operation, hmem, hpair, ?_⟩
    rw [List.mem_singleton.mp hmem]
    rfl
  have hrun :
      Reaches (step "t1" insertAndDelete) (Current "t1" insertAndDelete)
        (initialWorld Record.empty 0) w₄ := by
    refine ((((Reaches.refl _).tail ?_ h₁).tail ?_ h₂).tail hinsert h₃).tail hdelete h₄
    · exact le_refl (0 : Int)
    · cases h₁
      exact le_refl (0 : Int)
  refine ⟨w₄, hrun, ?_, serialAs_of_reaches hplain (stored_empty "t1" 0) hrun ?_⟩
  · cases h₁
    cases h₂
    cases h₃
    cases h₄
    rfl
  · cases h₁
    cases h₂
    cases h₃
    cases h₄
    intro client
    cases client <;> rfl

/-- Two inserts of one row, each with a field of its own. -/
def twoInserts : Client → Request
  | .first => todoRequest "PUT" [("a", .num "1")]
  | .second => todoRequest "PUT" [("b", .num "1")]

/-- An insert of the row merges its data into those that are there. -/
theorem meant_insert
    {data : Data}
    (hparsed : parsePowerSyncCrudBatch request.body = some [todoOperation .PUT data])
    (m : RowMap)
    (field : String) :
    ((meant m request ("todo", "1")).getD Record.empty).get field =
      (data.get field).or (((m ("todo", "1")).getD Record.empty).get field) := by
  have hrow :
      specOperation m (todoOperation .PUT data) ("todo", "1") =
        some (((m ("todo", "1")).getD Record.empty).assign data) :=
    specOperation_self m (todoOperation .PUT data)
  unfold meant
  rw [hparsed]
  dsimp only
  rw [if_pos (mergeableAll_of_type (todo_not_inherited _ _) m)]
  change ((specOperation m (todoOperation .PUT data) ("todo", "1")).getD _).get field = _
  rw [hrow, Option.getD_some, Record.get_assign]

/-- When both requests read first, the field of the first one is lost. -/
theorem not_serialAs_twoInserts :
    ∃ w, Reaches (step "t1" twoInserts) (Timely twoInserts) (initialWorld Record.empty 0) w ∧
      (∀ client, w.phase client = .done) ∧ (∀ client, PlainRequest (twoInserts client)) ∧
        ¬ (SerialAs "t1" 0 Record.empty (twoInserts .first) (twoInserts .second) w.rows ∨
          SerialAs "t1" 0 Record.empty (twoInserts .second) (twoInserts .first) w.rows) := by
  have hplain : ∀ client, PlainRequest (twoInserts client) := by
    intro client
    cases client with
    | first =>
        exact
          plainRequest_todo .PUT (Record.empty.set "a" (.other (.num "1"))) (timed_requestOf _) rfl
            (by decide)
    | second =>
        exact
          plainRequest_todo .PUT (Record.empty.set "b" (.other (.num "1"))) (timed_requestOf _) rfl
            (by decide)
  obtain ⟨w₁, h₁⟩ :
      ∃ w₁, step "t1" twoInserts (initialWorld Record.empty 0) (.load .first) = some w₁ :=
    ⟨_, rfl⟩
  obtain ⟨w₂, h₂⟩ : ∃ w₂, step "t1" twoInserts w₁ (.load .second) = some w₂ := by
    cases h₁
    exact ⟨_, rfl⟩
  obtain ⟨w₃, h₃⟩ : ∃ w₃, step "t1" twoInserts w₂ (.apply .first) = some w₃ := by
    cases h₁
    cases h₂
    exact ⟨_, rfl⟩
  obtain ⟨w₄, h₄⟩ : ∃ w₄, step "t1" twoInserts w₃ (.apply .second) = some w₄ := by
    cases h₁
    cases h₂
    cases h₃
    exact ⟨_, rfl⟩
  have hrun :
      Reaches (step "t1" twoInserts) (Timely twoInserts) (initialWorld Record.empty 0) w₄ := by
    refine ((((Reaches.refl _).tail ?_ h₁).tail ?_ h₂).tail ?_ h₃).tail ?_ h₄
    · exact le_refl (0 : Int)
    · cases h₁
      exact le_refl (0 : Int)
    · exact trivial
    · exact trivial
  have hlost :
      ((tenantMap "t1" w₄.rows ("todo", "1")).getD Record.empty).get "a" = none := by
    cases h₁
    cases h₂
    cases h₃
    cases h₄
    rfl
  -- In either order the field is there.
  have hkept :
      ∀ first second : Request,
        ((((meant (meant (tenantMap "t1" Record.empty) first) second) ("todo", "1")).getD
            Record.empty).get "a").isSome = true →
          ¬ SerialAs "t1" 0 Record.empty first second w₄.rows := by
    rintro first second hsome ⟨first', second', hfirst, hsecond, hturn, hsame⟩
    have halike := alike_inTurn (stored_empty "t1" 0) hturn ("todo", "1")
    rw [meant_congr hfirst, meant_congr hsecond] at halike
    have hrow := get_of_fieldsOf (halike.symm.trans (hsame ("t1", "todo", "1")))
    rw [congrFun hrow "a"] at hsome
    change (((tenantMap "t1" w₄.rows ("todo", "1")).getD Record.empty).get "a").isSome = true
      at hsome
    rw [hlost] at hsome
    cases hsome
  refine ⟨w₄, hrun, ?_, hplain, ?_⟩
  · cases h₁
    cases h₂
    cases h₃
    cases h₄
    intro client
    cases client <;> rfl
  · have hfirst :
        parsePowerSyncCrudBatch (twoInserts .first).body =
          some [todoOperation .PUT (Record.empty.set "a" (.other (.num "1")))] :=
      rfl
    have hsecond :
        parsePowerSyncCrudBatch (twoInserts .second).body =
          some [todoOperation .PUT (Record.empty.set "b" (.other (.num "1")))] :=
      rfl
    rintro (hserial | hserial)
    · refine hkept _ _ ?_ hserial
      rw [meant_insert hsecond, meant_insert hfirst]
      rfl
    · refine hkept _ _ ?_ hserial
      rw [meant_insert hfirst]
      rfl

end Overlap
end PowerSync
end NestBase
