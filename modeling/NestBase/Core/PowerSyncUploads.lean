import NestBase.Core.PowerSyncStore
import NestBase.Lib.KeyedTable
import NestBase.Lib.Transition

/-!
# What an upload means

The rows of a tenant stand for a map from types and ids to data.  A PUT or a
PATCH inserts its data or merges it into the data that is there, a DELETE
removes the row (`specBatch`).  After a request of the controller the rows of
either store are those of the map, when the batch is `Storable`: its rows
share their text `type:id` with no other row, its data have no field `id` or
`updatedAt`, and no row is merged under a type every object inherits.
-/

namespace NestBase
namespace PowerSync

open Lib
open KeyedTable
open PowerSyncConflict

/-! ## The map -/

abbrev RowMap : Type := Pair → Option Data

def specOperation (m : RowMap) (operation : Operation) : RowMap :=
  Function.update m operation.pair
    (if operation.op = .DELETE then none
    else some (((m operation.pair).getD Record.empty).assign operation.data))

def specBatch (m : RowMap) (batch : List Operation) : RowMap :=
  batch.foldl specOperation m

/-- The batch has an operation on the row. -/
def Named (batch : List Operation) (pair : Pair) : Prop :=
  ∃ operation ∈ batch, operation.pair = pair

variable {pair : Pair}
variable {operation : Operation}

theorem specOperation_of_ne (hpair : operation.pair ≠ pair) (m : RowMap) :
    specOperation m operation pair = m pair :=
  Function.update_of_ne hpair.symm _ m

variable {batch : List Operation}

/-- Rows the batch does not name stay as they are. -/
theorem specBatch_of_not_named (hnot : ¬ Named batch pair) (m : RowMap) :
    specBatch m batch pair = m pair := by
  unfold specBatch
  induction batch generalizing m with
  | nil => rfl
  | cons operation rest ih =>
      rw [List.foldl_cons, ih fun ⟨later, hmem, hpair⟩ =>
          hnot ⟨later, List.mem_cons_of_mem _ hmem, hpair⟩,
        specOperation_of_ne fun hpair => hnot ⟨operation, List.mem_cons_self, hpair⟩]

/-! ## Batches that are stored as they are meant -/

/-- A write has no field that the row object has itself. -/
def Unreserved (operation : Operation) : Prop :=
  operation.op = .DELETE ∨ ∀ field ∈ operation.data.keys, isReserved field = false

/-- The protected fields are asked for on a merge only. -/
def Mergeable (m : RowMap) (operation : Operation) : Prop :=
  operation.op = .DELETE ∨ m operation.pair = none ∨ operation.data.keys = [] ∨
    Permissions.inheritedKey operation.type = none

def MergeableAll : RowMap → List Operation → Prop
  | _, [] => True
  | m, operation :: rest => Mergeable m operation ∧ MergeableAll (specOperation m operation) rest

structure Storable (m : RowMap) (batch : List Operation) : Prop where
  apart : Apart rowKey (Named batch) m
  unreserved : ∀ operation ∈ batch, Unreserved operation
  mergeable : MergeableAll m batch

/-! ## Parsed data -/

variable {data : Data}

theorem parseData_proto {value : Json} (h : parseData value = some data) :
    "__proto__" ∉ data.keys := by
  have hloop :
      ∀ (entries : List (String × Json)) (first : Data), "__proto__" ∉ first.keys →
        "__proto__" ∉
          (entries.foldl
            (fun data entry =>
              if entry.1 = "__proto__" then data else data.set entry.1 (.other entry.2))
            first).keys := by
    intro entries
    induction entries with
    | nil =>
        intro first hfirst
        exact hfirst
    | cons entry rest ih =>
        intro first hfirst
        rw [List.foldl_cons]
        refine ih _ ?_
        split
        · exact hfirst
        · next hname =>
          rw [Record.keys_set]
          split
          · exact hfirst
          · rw [List.mem_append, List.mem_singleton]
            rintro (hold | hnew)
            · exact hfirst hold
            · exact hname hnew.symm
  unfold parseData at h
  split at h
  · cases h
    exact hloop _ _ List.not_mem_nil
  · cases h

theorem parseOperation_proto {value : Json} (h : parseOperation value = some operation) :
    "__proto__" ∉ operation.data.keys := by
  simp only [parseOperation, Option.bind_eq_bind, Option.bind_eq_some_iff] at h
  obtain ⟨op, -, type, -, id, -, h⟩ := h
  split at h
  · obtain ⟨data, hdata, rfl⟩ := Option.map_eq_some_iff.mp h
    exact parseData_proto hdata
  · split at h
    · cases h
      exact List.not_mem_nil
    · cases h

theorem parsePowerSyncCrudBatch_proto
    {body : Json}
    (h : parsePowerSyncCrudBatch body = some batch) :
    ∀ operation ∈ batch, "__proto__" ∉ operation.data.keys := by
  have hitems :
      ∀ (items : List Json) (batch : List Operation), items.mapM parseOperation = some batch →
        ∀ operation ∈ batch, "__proto__" ∉ operation.data.keys := by
    intro items
    induction items with
    | nil =>
        intro batch hbatch operation hoperation
        cases hbatch
        cases hoperation
    | cons item rest ih =>
        intro batch hbatch operation hoperation
        simp only [List.mapM_cons, Option.bind_eq_bind, Option.bind_eq_some_iff,
          Option.pure_def, Option.some.injEq] at hbatch
        obtain ⟨first, hfirst, others, hothers, rfl⟩ := hbatch
        rcases List.mem_cons.mp hoperation with rfl | hlater
        · exact parseOperation_proto hfirst
        · exact ih others hothers operation hlater
  unfold parsePowerSyncCrudBatch at h
  split at h
  · split at h
    · exact hitems _ _ h
    · cases h
  · cases h

/-! ## Rows of the map of a request -/

/-- The object of a row with its data, last written by a time. -/
structure WorkRow (pair : Pair) (data : Data) (bound : Int) (row : Row Json) : Prop where
  id : row.get "id" = some (.other (.str pair.2))
  payload : payload row = data
  updatedAt : ∃ time, row.get "updatedAt" = some (.date (some time)) ∧ time ≤ bound

variable {row : Row Json}

theorem payload_assign {data : Row Json} (hdata : ∀ field ∈ data.keys, isReserved field = false) :
    payload (row.assign data) = (payload row).assign data :=
  Record.restrict_assign row data fun field hfield => by rw [hdata field hfield]; rfl

theorem payload_setUpdatedAt (row : Row Json) (value : Value Json) :
    payload (row.set "updatedAt" value) = payload row :=
  Record.restrict_set_of_not_keep rfl row value

theorem payload_keys : ∀ field ∈ (payload row).keys, isReserved field = false := by
  intro field hfield
  rw [payload, Record.keys_restrict] at hfield
  simpa using (List.mem_filter.mp hfield).2

theorem get_assign_reserved
    {data : Row Json} {field : String}
    (hdata : ∀ field ∈ data.keys, isReserved field = false)
    (hfield : isReserved field = true) :
    (row.assign data).get field = row.get field := by
  have hfree : data.get field = none := by
    rw [Record.get_eq_none_iff]
    intro hmem
    rw [hdata field hmem] at hfield
    cases hfield
  rw [Record.get_assign, hfree, Option.none_or]

variable {bound : Int}

theorem workRow_storeRow
    {time : Int}
    (hdata : ∀ field ∈ data.keys, isReserved field = false)
    (htime : time ≤ bound) :
    WorkRow pair data bound (storeRow (.str pair.2) (.date (some time)) data) where
  id := by
    rw [storeRow, get_assign_reserved hdata rfl]
    rfl
  payload := by
    rw [storeRow, payload_assign hdata]
    exact Record.empty_assign data
  updatedAt := by
    refine ⟨time, ?_, htime⟩
    rw [storeRow, get_assign_reserved hdata rfl]
    rfl

theorem mergePatch_eq_assign {patch : Row Json} (hproto : "__proto__" ∉ patch.keys) :
    mergePatch [] row patch = row.assign patch := by
  have hloop :
      ∀ (entries : List (String × Value Json)) (merged : Row Json),
        "__proto__" ∉ entries.map Prod.fst →
          entries.foldl
              (fun merged entry =>
                if entry.1 ∈ ([] : List String) then merged
                else assignProperty merged entry.1 entry.2)
              merged =
            entries.foldl (fun merged entry => merged.set entry.1 entry.2) merged := by
    intro entries
    induction entries with
    | nil =>
        intro merged _
        rfl
    | cons entry rest ih =>
        intro merged hnames
        rw [List.map_cons, List.mem_cons, not_or] at hnames
        have hone : assignProperty merged entry.1 entry.2 = merged.set entry.1 entry.2 := by
          rw [assignProperty, if_neg fun hproto => hnames.1 hproto.1.symm]
        rw [List.foldl_cons, List.foldl_cons, if_neg List.not_mem_nil, hone, ih _ hnames.2]
  exact hloop patch.entries row hproto

/-- Without protected fields and on a row that is not newer the patch is merged. -/
theorem resolve_merged
    {patch : Row Json} {time : Int}
    (hproto : "__proto__" ∉ patch.keys)
    (hnewer : serverNewer row (some time) = false) :
    (resolvePowerSyncConflict
        { clientPatch := patch, clientUpdatedAt := some time, serverRow := row,
          protectedFields := [] }).merged = row.assign patch ∧
      (resolvePowerSyncConflict
        { clientPatch := patch, clientUpdatedAt := some time, serverRow := row,
          protectedFields := [] }).outcome ≠ .partialConflict := by
  unfold resolvePowerSyncConflict
  dsimp only
  split
  · next hempty =>
    have hentries : patch.entries = [] := List.map_eq_nil_iff.mp hempty
    refine ⟨?_, nofun⟩
    rw [Record.assign, hentries]
    rfl
  · have hnone : (patch.keys.filter fun key => decide (key ∈ ([] : List String))) = [] := by
      simp
    rw [if_neg (by rw [hnewer]; exact Bool.false_ne_true), hnone, if_neg (by simp)]
    exact ⟨mergePatch_eq_assign hproto, nofun⟩

/-! ## A batch on the map of a request -/

/-- The map holds the objects of the named rows, and nothing under the other names. -/
def Holds (named : Pair → Prop) (m : RowMap) (bound : Int) (store : Record String (Row Json)) :
    Prop :=
  ∀ pair, named pair →
    match m pair with
    | none => store.get (rowKey pair) = none
    | some data => ∃ row, store.get (rowKey pair) = some row ∧ WorkRow pair data bound row

section Batch

variable {named : Pair → Prop}
variable {m : RowMap}
variable {store : Record String (Row Json)}
variable {bound : Int}

/-- A later bound holds as well. -/
theorem Holds.mono {bound' : Int} (h : Holds named m bound store) (hbound : bound ≤ bound') :
    Holds named m bound' store := by
  intro pair hpair
  have hold := h pair hpair
  cases hdata : m pair with
  | none =>
      rw [hdata] at hold
      exact hold
  | some data =>
      rw [hdata] at hold
      obtain ⟨row, hrow, hwork⟩ := hold
      obtain ⟨time, htime, hle⟩ := hwork.updatedAt
      exact ⟨row, hrow, hwork.id, hwork.payload, time, htime, hle.trans hbound⟩

/-- Changing the object of one named row. -/
theorem Holds.update
    {bound' : Int} {pair : Pair} {store' : Record String (Row Json)}
    (h : Holds named m bound store)
    (hbound : bound ≤ bound')
    (hapart : ∀ other, named other → rowKey other = rowKey pair → other = pair)
    (hothers : ∀ key, key ≠ rowKey pair → store'.get key = store.get key)
    (after : Option Data)
    (hpair :
      match after with
      | none => store'.get (rowKey pair) = none
      | some data => ∃ row, store'.get (rowKey pair) = some row ∧ WorkRow pair data bound' row) :
    Holds named (Function.update m pair after) bound' store' := by
  intro other hother
  by_cases hsame : other = pair
  · subst hsame
    rw [Function.update_self]
    exact hpair
  · rw [Function.update_of_ne hsame,
      hothers _ fun hkey => hsame (hapart other hother hkey)]
    exact h.mono hbound other hother

/-- One operation on the map does what it does to the rows. -/
theorem holds_applyOperation
    {operation : Operation} {clientNow mergedNow : Int}
    (rejected : List (String × String × List String))
    (h : Holds named m bound store)
    (hnamed : named operation.pair)
    (hapart : ∀ other, named other → rowKey other = rowKey operation.pair → other = operation.pair)
    (hproto : "__proto__" ∉ operation.data.keys)
    (hunreserved : Unreserved operation)
    (hmergeable : Mergeable m operation)
    (hclient : bound ≤ clientNow)
    (hmerged : clientNow ≤ mergedNow) :
    ∃ store',
      applyOperation [] clientNow mergedNow operation { store := store, rejected := rejected } =
          some { store := store', rejected := rejected } ∧
        Holds named (specOperation m operation) mergedNow store' := by
  have hbound := hclient.trans hmerged
  have hset :
      ∀ (row : Row Json) (key : String), key ≠ rowKey operation.pair →
        (store.set (rowKey operation.pair) row).get key = store.get key := by
    intro row key hkey
    rw [Record.get_set, if_neg hkey.symm]
  have hown :
      ∀ row : Row Json,
        (store.set (rowKey operation.pair) row).get (rowKey operation.pair) = some row := by
    intro row
    rw [Record.get_set, if_pos rfl]
  unfold applyOperation specOperation
  dsimp only
  by_cases hdelete : operation.op = .DELETE
  · rw [if_pos hdelete, if_pos hdelete]
    refine ⟨_, rfl, h.update hbound hapart ?_ none ?_⟩
    · intro key hkey
      rw [Record.get_remove, if_neg hkey]
    · exact (Record.get_remove _ _ _).trans (if_pos rfl)
  rw [if_neg hdelete, if_neg hdelete]
  have hfields := hunreserved.resolve_left hdelete
  have hcurrent := h operation.pair hnamed
  cases hdata : m operation.pair with
  | none =>
      rw [hdata] at hcurrent
      rw [hcurrent]
      refine ⟨_, rfl, h.update hbound hapart (hset _) _ ⟨_, hown _, ?_⟩⟩
      rw [Option.getD_none, Record.empty_assign]
      exact workRow_storeRow hfields hmerged
  | some data =>
      rw [hdata] at hcurrent
      obtain ⟨existing, hget, hwork⟩ := hcurrent
      obtain ⟨time, htime, hle⟩ := hwork.updatedAt
      rw [hget, Option.getD_some]
      have hnewer : serverNewer existing (some clientNow) = false := by
        simp only [serverNewer, htime]
        exact decide_eq_false (not_lt.mpr (hle.trans hclient))
      have hrow :
          WorkRow operation.pair (data.assign operation.data) mergedNow
            ((existing.assign operation.data).set "updatedAt" (.date (some mergedNow))) := by
        refine ⟨?_, ?_, mergedNow, ?_, le_refl _⟩
        · rw [Record.get_set, if_neg (by decide), get_assign_reserved hfields rfl]
          exact hwork.id
        · rw [payload_setUpdatedAt, payload_assign hfields, hwork.payload]
        · rw [Record.get_set, if_pos rfl]
      cases hinherited : Permissions.inheritedKey operation.type with
      | some inherited =>
          -- A type every object inherits: the patch is empty.
          have hempty : operation.data.keys = [] := by
            rcases hmergeable with hop | hnone | hempty | hplain
            · exact absurd hop hdelete
            · rw [hdata] at hnone
              cases hnone
            · exact hempty
            · rw [hinherited] at hplain
              cases hplain
          have hentries : operation.data.entries = [] := List.map_eq_nil_iff.mp hempty
          have hsame : existing.assign operation.data = existing := by
            rw [Record.assign, hentries]
            rfl
          have hlookup : protectedFields [] operation.type = none := by
            simp [protectedFields, hinherited]
          rw [hsame] at hrow
          simp only [hlookup, if_pos hempty]
          exact ⟨_, rfl, h.update hbound hapart (hset _) _ ⟨_, hown _, hrow⟩⟩
      | none =>
          have hlookup : protectedFields [] operation.type = some [] := by
            simp [protectedFields, hinherited]
          obtain ⟨hmerge, houtcome⟩ := resolve_merged hproto hnewer
          simp only [hlookup, hmerge, if_neg houtcome]
          exact ⟨_, rfl, h.update hbound hapart (hset _) _ ⟨_, hown _, hrow⟩⟩

/-- A batch on the map does what it does to the rows. -/
theorem holds_applyOperations
    {clock : Nat → Int}
    (rejected : List (String × String × List String))
    (hclock : Monotone clock)
    (hapart :
      ∀ pair other, named pair → named other → rowKey other = rowKey pair → other = pair)
    (batch : List Operation)
    (hnamed : ∀ operation ∈ batch, named operation.pair)
    (hproto : ∀ operation ∈ batch, "__proto__" ∉ operation.data.keys)
    (hunreserved : ∀ operation ∈ batch, Unreserved operation)
    (n : Nat)
    {bound limit : Int}
    (h : Holds named m bound store)
    (hmergeable : MergeableAll m batch)
    (hbound : bound ≤ clock (2 * n))
    (hlimit : ∀ k, clock k ≤ limit) :
    ∃ store',
      applyOperations [] clock n batch { store := store, rejected := rejected } =
          some { store := store', rejected := rejected } ∧
        Holds named (specBatch m batch) limit store' := by
  induction batch generalizing n m store bound with
  | nil => exact ⟨store, rfl, h.mono (hbound.trans (hlimit _))⟩
  | cons operation rest ih =>
      obtain ⟨hfirst, hlater⟩ := hmergeable
      obtain ⟨store', happly, hholds⟩ :=
        holds_applyOperation rejected h (hnamed operation List.mem_cons_self)
          (fun other hother => hapart _ other (hnamed operation List.mem_cons_self) hother)
          (hproto operation List.mem_cons_self) (hunreserved operation List.mem_cons_self) hfirst
          hbound (hclock (Nat.le_succ (2 * n)))
      obtain ⟨store'', hrest, hfinal⟩ :=
        ih (fun later hmem => hnamed later (List.mem_cons_of_mem _ hmem))
          (fun later hmem => hproto later (List.mem_cons_of_mem _ hmem))
          (fun later hmem => hunreserved later (List.mem_cons_of_mem _ hmem)) (n + 1) hholds hlater
          (hclock (by omega))
      refine ⟨store'', ?_, hfinal⟩
      rw [applyOperations, happly, Option.bind_some]
      exact hrest

end Batch

/-! ## Loading and planning -/

/-- A stored row with its data, last written by a time. -/
structure IsRow (bound : Int) (row : PowerSyncRowSnapshot) (pair : Pair) (data : Data) : Prop where
  type : row.type = pair.1
  id : row.id = .str pair.2
  data : row.data = data
  updatedAt : ∃ time, row.updatedAt = .date (some time) ∧ time ≤ bound

theorem IsRow.mono
    {bound' : Int} {row : PowerSyncRowSnapshot}
    (h : IsRow bound row pair data)
    (hbound : bound ≤ bound') :
    IsRow bound' row pair data := by
  obtain ⟨time, htime, hle⟩ := h.updatedAt
  exact ⟨h.type, h.id, h.data, time, htime, hle.trans hbound⟩

/-- The rows of some types. -/
structure Loaded
    (types : List String) (m : RowMap) (bound : Int) (existing : List PowerSyncRowSnapshot) :
    Prop where
  sound :
    ∀ row ∈ existing, ∃ pair data, pair.1 ∈ types ∧ m pair = some data ∧ IsRow bound row pair data
  complete :
    ∀ pair data, pair.1 ∈ types → m pair = some data → ∃ row ∈ existing, IsRow bound row pair data

/-- No row has a field the row object has itself. -/
def Clean (m : RowMap) : Prop :=
  ∀ pair data, m pair = some data → ∀ field ∈ data.keys, isReserved field = false

variable {m : RowMap}

theorem clean_specOperation (h : Clean m) (hunreserved : Unreserved operation) :
    Clean (specOperation m operation) := by
  intro pair data hdata field hfield
  by_cases hpair : operation.pair = pair
  · subst hpair
    rw [specOperation, Function.update_self] at hdata
    split at hdata
    · cases hdata
    · next hop =>
      cases hdata
      rw [Record.keys_assign, List.mem_append, List.mem_filter] at hfield
      rcases hfield with hold | ⟨hnew, -⟩
      · cases hcurrent : m operation.pair with
        | none =>
            rw [hcurrent] at hold
            cases hold
        | some current =>
            rw [hcurrent] at hold
            exact h operation.pair current hcurrent field hold
      · exact hunreserved.resolve_left hop field hnew
  · rw [specOperation_of_ne hpair] at hdata
    exact h pair data hdata field hfield

theorem clean_specBatch (hunreserved : ∀ operation ∈ batch, Unreserved operation) (h : Clean m) :
    Clean (specBatch m batch) := by
  unfold specBatch
  induction batch generalizing m with
  | nil => exact h
  | cons operation rest ih =>
      rw [List.foldl_cons]
      exact
        ih (fun later hmem => hunreserved later (List.mem_cons_of_mem _ hmem))
          (clean_specOperation h (hunreserved operation List.mem_cons_self))

theorem mem_typesOf (h : Named batch pair) :
    pair.1 ∈ typesOf batch := by
  obtain ⟨operation, hmem, rfl⟩ := h
  exact List.mem_eraseDups.mpr (List.mem_map_of_mem hmem)

/-- The rows that are loaded for the batch. -/
def restrictTypes (batch : List Operation) (m : RowMap) : RowMap :=
  fun pair => if pair.1 ∈ typesOf batch then m pair else none

theorem apart_restrictTypes (h : Apart rowKey (Named batch) m) :
    Apart rowKey (Named batch) (restrictTypes batch m) := by
  intro pair other hpair hother
  refine h pair other hpair (hother.imp_right fun hstored hnone => hstored ?_)
  rw [restrictTypes, hnone, ite_self]

/-- The map made of the loaded rows holds the named ones. -/
theorem holds_hydrate
    {existing : List PowerSyncRowSnapshot}
    (hloaded : Loaded (typesOf batch) m bound existing)
    (hapart : Apart rowKey (Named batch) (restrictTypes batch m))
    (hclean : Clean m) :
    Holds (Named batch) m bound (hydrate existing) := by
  have hkey :
      ∀ row pair data, IsRow bound row pair data →
        row.type ++ ":" ++ row.id.toText = rowKey pair := by
    intro row pair data hrow
    rw [hrow.type, hrow.id]
    rfl
  intro pair hpair
  cases hdata : m pair with
  | none =>
      refine (Record.get_writeAll_of_unnamed ?_ _).trans (Record.get_empty _)
      intro row hrow hsame
      obtain ⟨other, data, htype, hother, hisRow⟩ := hloaded.sound row hrow
      rw [hkey row other data hisRow] at hsame
      have hstored : restrictTypes batch m other ≠ none := by
        rw [restrictTypes, if_pos htype, hother]
        exact Option.some_ne_none data
      obtain rfl := hapart pair other hpair (Or.inr hstored) hsame.symm
      rw [hdata] at hother
      cases hother
  | some data =>
      obtain ⟨row, hrow, hisRow⟩ := hloaded.complete pair data (mem_typesOf hpair) hdata
      have hnamed :
          ∃ row ∈ existing,
            (fun row : PowerSyncRowSnapshot => row.type ++ ":" ++ row.id.toText) row =
              rowKey pair :=
        ⟨row, hrow, hkey row pair data hisRow⟩
      obtain ⟨last, hlast, hsame, hget⟩ :
          ∃ last ∈ existing, last.type ++ ":" ++ last.id.toText = rowKey pair ∧
            (hydrate existing).get (rowKey pair) =
              some (storeRow last.id last.updatedAt last.data) :=
        Record.get_writeAll_of_named hnamed Record.empty
      obtain ⟨other, data', htype, hother, hlastRow⟩ := hloaded.sound last hlast
      rw [hkey last other data' hlastRow] at hsame
      have hstored : restrictTypes batch m other ≠ none := by
        rw [restrictTypes, if_pos htype, hother]
        exact Option.some_ne_none data'
      obtain rfl := hapart pair other hpair (Or.inr hstored) hsame.symm
      rw [hdata] at hother
      cases hother
      refine ⟨_, hget, ?_⟩
      obtain ⟨time, htime, hle⟩ := hlastRow.updatedAt
      rw [hlastRow.id, hlastRow.data, htime]
      exact workRow_storeRow (hclean pair data hdata) hle

/-- The mutations say what the map has for the named rows. -/
structure MutationsOf
    (batch : List Operation) (after : RowMap) (bound : Int) (mutations : Mutations) : Prop where
  upserts :
    ∀ row ∈ mutations.upserts, ∃ pair data, Named batch pair ∧ after pair = some data ∧
      IsRow bound row pair data
  deletes : ∀ pair ∈ mutations.deletes, Named batch pair ∧ after pair = none
  written :
    ∀ pair data, Named batch pair → after pair = some data →
      ∃ row ∈ mutations.upserts, IsRow bound row pair data
  gone : ∀ pair, Named batch pair → after pair = none → pair ∈ mutations.deletes

theorem isRow_snapshot (h : WorkRow pair data bound row) :
    IsRow bound (snapshot pair.1 row) pair data where
  type := rfl
  id := by
    simp only [snapshot, h.id]
  data := h.payload
  updatedAt := by
    obtain ⟨time, htime, hle⟩ := h.updatedAt
    refine ⟨time, ?_, hle⟩
    simp only [snapshot, htime, Option.getD_some]

theorem mutationsOf_diff
    {after : RowMap} {store : Record String (Row Json)}
    (h : Holds (Named batch) after bound store) :
    MutationsOf batch after bound (diff batch store) := by
  have hcase :
      ∀ operation ∈ batch,
        (after operation.pair = none ∧ store.get (rowKey operation.pair) = none) ∨
          ∃ data row, after operation.pair = some data ∧
            store.get (rowKey operation.pair) = some row ∧
              WorkRow operation.pair data bound row := by
    intro operation hoperation
    have hheld := h operation.pair ⟨operation, hoperation, rfl⟩
    cases hdata : after operation.pair with
    | none =>
        rw [hdata] at hheld
        exact Or.inl ⟨rfl, hheld⟩
    | some data =>
        rw [hdata] at hheld
        obtain ⟨row, hrow, hwork⟩ := hheld
        exact Or.inr ⟨data, row, rfl, hrow, hwork⟩
  constructor
  · intro row hrow
    obtain ⟨operation, hoperation, hsnapshot⟩ := List.mem_filterMap.mp hrow
    rcases hcase operation hoperation with ⟨-, hnone⟩ | ⟨data, object, hdata, hget, hwork⟩
    · rw [hnone] at hsnapshot
      cases hsnapshot
    · rw [hget, Option.map_some, Option.some.injEq] at hsnapshot
      subst hsnapshot
      exact ⟨operation.pair, data, ⟨operation, hoperation, rfl⟩, hdata, isRow_snapshot hwork⟩
  · intro pair hpair
    obtain ⟨operation, hoperation, hdeleted⟩ := List.mem_filterMap.mp hpair
    rcases hcase operation hoperation with ⟨hnone, hget⟩ | ⟨data, object, hdata, hget, hwork⟩
    · rw [hget] at hdeleted
      cases hdeleted
      exact ⟨⟨operation, hoperation, rfl⟩, hnone⟩
    · rw [hget] at hdeleted
      cases hdeleted
  · rintro pair data ⟨operation, hoperation, rfl⟩ hdata
    rcases hcase operation hoperation with ⟨hnone, -⟩ | ⟨data', object, hdata', hget, hwork⟩
    · rw [hdata] at hnone
      cases hnone
    · rw [hdata] at hdata'
      cases hdata'
      refine ⟨snapshot operation.type object, List.mem_filterMap.mpr ⟨operation, hoperation, ?_⟩,
        isRow_snapshot hwork⟩
      rw [hget, Option.map_some]
  · rintro pair ⟨operation, hoperation, rfl⟩ hnone
    rcases hcase operation hoperation with ⟨-, hget⟩ | ⟨data, object, hdata, -, -⟩
    · refine List.mem_filterMap.mpr ⟨operation, hoperation, ?_⟩
      rw [hget]
      rfl
    · rw [hnone] at hdata
      cases hdata

/-- A storable batch is planned as it is meant. -/
theorem plan_mutationsOf
    {clock : Nat → Int} {limit : Int} {existing : List PowerSyncRowSnapshot}
    (hloaded : Loaded (typesOf batch) m bound existing)
    (hclean : Clean m)
    (hapart : Apart rowKey (Named batch) (restrictTypes batch m))
    (hunreserved : ∀ operation ∈ batch, Unreserved operation)
    (hmergeable : MergeableAll m batch)
    (hproto : ∀ operation ∈ batch, "__proto__" ∉ operation.data.keys)
    (hclock : Monotone clock)
    (hbound : bound ≤ clock 0)
    (hlimit : ∀ n, clock n ≤ limit) :
    ∃ mutations, plan clock batch existing = some (mutations, []) ∧
      MutationsOf batch (specBatch m batch) limit mutations := by
  obtain ⟨store', happlied, hholds⟩ :=
    holds_applyOperations [] hclock
      (fun pair other hpair hother hkey => hapart other pair hother (Or.inl hpair) hkey)
      batch (fun operation hoperation => ⟨operation, hoperation, rfl⟩) hproto hunreserved 0
      (holds_hydrate hloaded hapart hclean) hmergeable hbound hlimit
  refine ⟨diff batch store', ?_, mutationsOf_diff hholds⟩
  rw [plan, happlied]
  rfl

/-! ## The stores -/

/-- The rows of the in-memory store are those of the map. -/
def InMemoryStands (tenantId : String) (rows : InMemoryRows) (m : RowMap) (bound : Int) : Prop :=
  Represents (fun pair : Pair => inMemoryKey tenantId pair.1 pair.2)
    (fun stored pair data => stored.tenantId = tenantId ∧ IsRow bound stored.row pair data) rows m

/-- The rows of the table are those of the map. -/
def PrismaStands (tenantId : String) (rows : PrismaRows) (m : RowMap) (bound : Int) : Prop :=
  Represents (fun pair : Pair => (tenantId, pair.1, pair.2))
    (fun stored _ data => stored.data = data ∧ stored.updatedAt ≤ bound) rows m

/-- Loading and writing on a store whose rows stand for a map. -/
structure Lawful
    {σ : Type}
    (store : PowerSyncStore σ)
    (tenantId : String)
    (Stands : σ → RowMap → Int → Prop) : Prop where
  load :
    ∀ {s m bound}, Stands s m bound →
      ∀ types, Loaded types m bound (store.loadByTypes s tenantId types)
  apply :
    ∀ {s m bound}, Stands s m bound →
      ∀ {batch after now mutations}, MutationsOf batch after now mutations → bound ≤ now →
        (∀ pair, ¬ Named batch pair → after pair = m pair) → Apart rowKey (Named batch) m →
          ∃ s', store.applyMutations s tenantId now mutations = some s' ∧ Stands s' after now

/-- The writes of a store that keys and keeps the rows in its own way. -/
theorem MutationsOf.writes
    {κ α : Type} [DecidableEq κ]
    {after : RowMap} {now : Int} {mutations : Mutations}
    {key : Pair → κ} {isRow : α → Pair → Data → Prop}
    {itemKey : PowerSyncRowSnapshot → κ} {itemRow : PowerSyncRowSnapshot → α}
    (h : MutationsOf batch after now mutations)
    (hkey : ∀ row pair data, IsRow now row pair data → itemKey row = key pair)
    (hrow : ∀ row pair data, IsRow now row pair data → isRow (itemRow row) pair data) :
    Writes key isRow (Named batch) after itemKey itemRow mutations.upserts
      (mutations.deletes.map key) where
  sound := by
    intro row hmem
    obtain ⟨pair, data, hnamed, hdata, hisRow⟩ := h.upserts row hmem
    exact ⟨pair, data, hnamed, hdata, hkey row pair data hisRow, hrow row pair data hisRow⟩
  soundRemoved := by
    intro removed hmem
    obtain ⟨pair, hpair, rfl⟩ := List.mem_map.mp hmem
    obtain ⟨hnamed, hnone⟩ := h.deletes pair hpair
    exact ⟨pair, hnamed, hnone, rfl⟩
  written := by
    intro pair data hnamed hdata
    obtain ⟨row, hmem, hisRow⟩ := h.written pair data hnamed hdata
    exact ⟨row, hmem, hkey row pair data hisRow⟩
  gone := by
    intro pair hnamed hnone
    exact List.mem_map_of_mem (h.gone pair hnamed hnone)

theorem inMemoryKey_inj
    {tenantId : String} {other : Pair}
    (h : inMemoryKey tenantId pair.1 pair.2 = inMemoryKey tenantId other.1 other.2) :
    rowKey pair = rowKey other := by
  unfold inMemoryKey at h
  simp only [String.append_assoc] at h
  have hpair := (String.append_right_inj _).mp ((String.append_right_inj _).mp h)
  unfold rowKey
  simpa only [String.append_assoc] using hpair

theorem lawful_inMemory (tenantId : String) :
    Lawful InMemoryPowerSyncStore tenantId (InMemoryStands tenantId) where
  load := by
    intro rows m bound hstands types
    constructor
    · intro row hrow
      obtain ⟨stored, hstored, rfl⟩ := List.mem_map.mp hrow
      obtain ⟨hstored, hwanted⟩ := List.mem_filter.mp hstored
      obtain ⟨⟨key, stored⟩, hentry, rfl⟩ := List.mem_map.mp hstored
      obtain ⟨pair, data, -, ⟨-, hisRow⟩, hdata⟩ :=
        hstands.sound key stored (Record.get_eq_some_iff_mem.mpr hentry)
      rw [Bool.and_eq_true, List.contains_iff_mem, hisRow.type] at hwanted
      exact ⟨pair, data, hwanted.2, hdata, hisRow⟩
    · intro pair data htype hdata
      obtain ⟨stored, hget, htenant, hisRow⟩ := hstands.complete pair data hdata
      refine ⟨stored.row, List.mem_map.mpr ⟨stored, ?_, rfl⟩, hisRow⟩
      refine List.mem_filter.mpr ⟨?_, ?_⟩
      · exact List.mem_map_of_mem (Record.get_eq_some_iff_mem.mp hget)
      · simp [htenant, hisRow.type, htype]
  apply := by
    intro rows m bound hstands batch after now mutations hmutations hbound hrest hapart
    refine ⟨_, rfl, ?_⟩
    refine
      (hstands.imp fun row pair data hrow => ⟨hrow.1, hrow.2.mono hbound⟩).write ?_ hrest ?_
    · refine hmutations.writes (fun row pair data hisRow => ?_) fun _ _ _ hisRow => ⟨rfl, hisRow⟩
      rw [hisRow.type, hisRow.id]
      rfl
    · exact fun pair other hpair hother hkey => hapart pair other hpair hother (inMemoryKey_inj hkey)

section Prisma

variable {tenantId : String}
variable {rows : PrismaRows}
variable {m : RowMap}
variable {bound : Int}

theorem prisma_load (hstands : PrismaStands tenantId rows m bound) (types : List String) :
    Loaded types m bound (PrismaPowerSyncStore.loadByTypes rows tenantId types) := by
  constructor
  · intro row hrow
    obtain ⟨⟨key, stored⟩, hentry, rfl⟩ := List.mem_map.mp hrow
    obtain ⟨hentry, hwanted⟩ := List.mem_filter.mp hentry
    obtain ⟨pair, data, hkey, ⟨hstored, htime⟩, hdata⟩ :=
      hstands.sound key stored (Record.get_eq_some_iff_mem.mpr hentry)
    cases hkey
    rw [Bool.and_eq_true, List.contains_iff_mem] at hwanted
    exact ⟨pair, data, hwanted.2, hdata, rfl, rfl, hstored, stored.updatedAt, rfl, htime⟩
  · intro pair data htype hdata
    obtain ⟨stored, hget, hstored, htime⟩ := hstands.complete pair data hdata
    refine ⟨_, List.mem_map.mpr ⟨((tenantId, pair.1, pair.2), stored), ?_, rfl⟩, rfl, rfl, hstored,
      stored.updatedAt, rfl, htime⟩
    refine List.mem_filter.mpr ⟨Record.get_eq_some_iff_mem.mp hget, ?_⟩
    simp [htype]

/-- The primary key keeps all rows apart. -/
theorem prisma_apply
    {batch : List Operation} {after : RowMap} {now : Int} {mutations : Mutations}
    (hstands : PrismaStands tenantId rows m bound)
    (hmutations : MutationsOf batch after now mutations)
    (hbound : bound ≤ now)
    (hrest : ∀ pair, ¬ Named batch pair → after pair = m pair) :
    ∃ rows', PrismaPowerSyncStore.applyMutations rows tenantId now mutations = some rows' ∧
      PrismaStands tenantId rows' after now := by
  have hids : (mutations.upserts.all fun row => (textId row.id).isSome) = true := by
    rw [List.all_eq_true]
    intro row hrow
    obtain ⟨pair, data, -, -, hisRow⟩ := hmutations.upserts row hrow
    rw [hisRow.id]
    rfl
  refine ⟨_, if_pos hids, ?_⟩
  refine
    (hstands.imp fun row pair data hrow => ⟨hrow.1, hrow.2.trans hbound⟩).write ?_ hrest ?_
  · refine
      hmutations.writes (fun row pair data hisRow => ?_) fun _ _ _ hisRow =>
        ⟨hisRow.data, le_refl now⟩
    rw [hisRow.type, hisRow.id]
    rfl
  · intro pair other hpair hother hkey
    exact Prod.ext (congrArg (fun key => key.2.1) hkey) (congrArg (fun key => key.2.2) hkey)

theorem lawful_prisma (tenantId : String) :
    Lawful PrismaPowerSyncStore tenantId (PrismaStands tenantId) where
  load := fun hstands types => prisma_load hstands types
  apply := fun hstands _ _ _ _ hmutations hbound hrest _ =>
    prisma_apply hstands hmutations hbound hrest

end Prisma

/-! ## Runs of one tenant -/

section Runs

variable {σ : Type}
variable {store : PowerSyncStore σ}
variable {tenantId : String}
variable {Stands : σ → RowMap → Int → Prop}

/-- A storable batch leaves the rows of the changed map. -/
theorem crud_stands
    (hlawful : Lawful store tenantId Stands)
    {s : σ} {m : RowMap} {bound : Int} {request : Request} {batch : List Operation}
    (hstands : Stands s m bound)
    (hclean : Clean m)
    (hparsed : parsePowerSyncCrudBatch request.body = some batch)
    (hstorable : Storable m batch)
    (hclock : Monotone request.clock)
    (hbound : bound ≤ request.clock 0)
    (hwritten : ∀ n, request.clock n ≤ request.writtenAt) :
    ∃ s', crud store tenantId request s = (s', .noContent) ∧
      Stands s' (specBatch m batch) request.writtenAt := by
  obtain ⟨mutations, hplan, hmutations⟩ :=
    plan_mutationsOf (hlawful.load hstands (typesOf batch)) hclean
      (apart_restrictTypes hstorable.apart) hstorable.unreserved hstorable.mergeable
      (parsePowerSyncCrudBatch_proto hparsed) hclock hbound hwritten
  obtain ⟨s', happly, hstands'⟩ :=
    hlawful.apply hstands hmutations (hbound.trans (hwritten 0))
      (fun pair hnot => specBatch_of_not_named hnot m) hstorable.apart
  refine ⟨s', ?_, hstands'⟩
  simp only [crud, hparsed, hplan, happly, if_true]

/-- Both stores of a tenant, and the map its requests describe. -/
structure World where
  inMemory : InMemoryRows
  prisma : PrismaRows
  map : RowMap
  /-- The last time a request wrote rows. -/
  clock : Int

def initialWorld (clock : Int) : World where
  inMemory := Record.empty
  prisma := Record.empty
  map := fun _ => none
  clock := clock

/-- One request, on each store and on the map. -/
def step (tenantId : String) (w : World) (request : Request) : Option World :=
  some
    { inMemory := (crud InMemoryPowerSyncStore tenantId request w.inMemory).1
      prisma := (crud PrismaPowerSyncStore tenantId request w.prisma).1
      map :=
        match parsePowerSyncCrudBatch request.body with
        | none => w.map
        | some batch => specBatch w.map batch
      clock := request.writtenAt }

/-- The clock does not go back, and the batch can be stored as it is meant. -/
structure Sent (w : World) (request : Request) : Prop where
  clock : Monotone request.clock
  later : w.clock ≤ request.clock 0
  written : ∀ n, request.clock n ≤ request.writtenAt
  storable :
    ∀ batch, parsePowerSyncCrudBatch request.body = some batch → Storable w.map batch

/-- The rows of both stores are those of the map. -/
structure Agrees (tenantId : String) (w : World) : Prop where
  inMemory : InMemoryStands tenantId w.inMemory w.map w.clock
  prisma : PrismaStands tenantId w.prisma w.map w.clock
  clean : Clean w.map

theorem agrees_initialWorld (tenantId : String) (clock : Int) :
    Agrees tenantId (initialWorld clock) where
  inMemory := represents_empty
  prisma := represents_empty
  clean := by
    intro pair data hdata
    cases hdata

theorem agrees_step
    {w w' : World} {request : Request}
    (h : Agrees tenantId w)
    (hsent : Sent w request)
    (hstep : step tenantId w request = some w') :
    Agrees tenantId w' := by
  cases hstep
  have htime : w.clock ≤ request.writtenAt := hsent.later.trans (hsent.written 0)
  cases hparsed : parsePowerSyncCrudBatch request.body with
  | none =>
      constructor
      · simp only [crud, hparsed]
        exact h.inMemory.imp fun row pair data hrow => ⟨hrow.1, hrow.2.mono htime⟩
      · simp only [crud, hparsed]
        exact h.prisma.imp fun row pair data hrow => ⟨hrow.1, hrow.2.trans htime⟩
      · exact h.clean
  | some batch =>
      have hstorable := hsent.storable batch hparsed
      obtain ⟨inMemory, hinMemory, hinMemoryStands⟩ :=
        crud_stands (lawful_inMemory tenantId) h.inMemory h.clean hparsed hstorable hsent.clock
          hsent.later hsent.written
      obtain ⟨prisma, hprisma, hprismaStands⟩ :=
        crud_stands (lawful_prisma tenantId) h.prisma h.clean hparsed hstorable hsent.clock
          hsent.later hsent.written
      constructor
      · rw [hinMemory]
        exact hinMemoryStands
      · rw [hprisma]
        exact hprismaStands
      · exact clean_specBatch hstorable.unreserved h.clean

end Runs

/-! ## Single requests -/

/-- An operation on the wire. -/
def operationJson (op type id : String) (data : List (String × Json)) : Json :=
  .obj [("op", .str op), ("type", .str type), ("id", .str id), ("data", .obj data)]

/-- A request at time 0. -/
def requestOf (operations : List Json) : Request where
  body := .obj [("batch", .arr operations)]
  clock := fun _ => 0
  writtenAt := 0

/-- The clock does not go back; nothing is asked of the batch. -/
structure Timely (w : World) (request : Request) : Prop where
  clock : Monotone request.clock
  later : w.clock ≤ request.clock 0
  written : ∀ n, request.clock n ≤ request.writtenAt

theorem timely_requestOf {w : World} (hclock : w.clock = 0) (operations : List Json) :
    Timely w (requestOf operations) where
  clock := fun _ _ _ => le_refl _
  later := le_of_eq hclock
  written := fun _ => le_refl _

/-- A row inserted and merged, and one removed. -/
def plainRequest : Request :=
  requestOf
    [operationJson "PUT" "todo" "1" [("a", .num "1")],
      operationJson "PATCH" "todo" "1" [("b", .num "2")],
      operationJson "DELETE" "todo" "2" []]

def plainBatch : List Operation :=
  [{ op := .PUT, type := "todo", id := "1", data := Record.empty.set "a" (.other (.num "1")) },
    { op := .PATCH, type := "todo", id := "1", data := Record.empty.set "b" (.other (.num "2")) },
    { op := .DELETE, type := "todo", id := "2", data := Record.empty }]

theorem storable_plainBatch (m : RowMap) (hm : ∀ pair, m pair = none) : Storable m plainBatch where
  apart := by
    have hpairs :
        ∀ p ∈ plainBatch.map Operation.pair, ∀ q ∈ plainBatch.map Operation.pair,
          rowKey p = rowKey q → p = q := by
      decide
    have hnamed : ∀ p, Named plainBatch p → p ∈ plainBatch.map Operation.pair := by
      rintro p ⟨operation, hmem, rfl⟩
      exact List.mem_map_of_mem hmem
    rintro p q hp (hq | hq) hkey
    · exact hpairs p (hnamed p hp) q (hnamed q hq) hkey
    · exact absurd (hm q) hq
  unreserved := by
    intro operation hmem
    rcases List.mem_cons.mp hmem with rfl | hmem
    · exact Or.inr (by decide)
    rcases List.mem_cons.mp hmem with rfl | hmem
    · exact Or.inr (by decide)
    · exact Or.inl (by rw [List.mem_singleton.mp hmem])
  mergeable :=
    ⟨Or.inr (Or.inl (hm _)), Or.inr (Or.inr (Or.inr (by decide))), Or.inl rfl, trivial⟩

end PowerSync
end NestBase
