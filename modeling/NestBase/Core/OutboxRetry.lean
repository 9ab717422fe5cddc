import NestBase.Core.Outbox

/-!
# Entries that stay claimable

An entry that is neither processed nor held by a running tick should be
returned by the next `claimBatch` with room for it, so that a failed dispatch
is tried again.  Over the Prisma storage this depends on the mark of a
claimed row, which only `markProcessed` replaces while the process runs.
When every claimed entry is also marked processed, no row keeps the mark
(`ClaimsKept`), and a sequential worker dispatches the same entries over the
table as over the in-memory storage (`Lockstep`).
-/

namespace NestBase
namespace Outbox

open Lib

section Retry

variable {Payload : Type}
variable {options : OutboxWorkerOptions}

/-! ## What is required -/

/-- Every `claimBatch` with a limit that is large enough returns the entry. -/
def Claimable (id : String) (rows : List (OutboxRow Payload)) : Prop :=
  ∃ enough : Int, ∀ limit, enough ≤ limit → ∀ now,
    ∃ entry ∈ (PrismaOutboxStorage.claimBatch limit now rows).1, entry.id = id

/-- Entries that are not processed and not held by a tick are claimable. -/
def StaysClaimable
    (options : OutboxWorkerOptions)
    (guard : World Payload → Event Payload → Prop) : Prop :=
  ∀ w, Reaches (step options) guard initialWorld w →
    ∀ row ∈ w.rows, row.id ∉ w.processed →
      (∀ k, ∀ entry ∈ (w.ticks k).held, entry.id ≠ row.id) →
        Claimable row.id w.rows

def Command.recordedId : Command Payload → Option String
  | record input id _ => if input.type = "" then none else some id
  | tick _ _ => none

/-- One worker after the other dispatches the same entries over both storages. -/
def SameDispatches (options : OutboxWorkerOptions) (admitted : Command Payload → Prop) : Prop :=
  ∀ commands : List (Command Payload),
    (commands.filterMap Command.recordedId).Nodup →
      (∀ command ∈ commands, admitted command) →
        (runCommands PrismaOutboxStorage.storage options prismaSession commands).dispatched =
          (runCommands InMemoryOutboxStorage.storage options memorySession commands).dispatched

/-- Every dispatcher returns, and no statement of a tick rejects after it took effect. -/
def FinishesClaimed (_ : World Payload) : Event Payload → Prop
  | .claimFails _ applied _ => applied = false
  | .incrementFails _ _ => False
  | .dispatched _ results _ => (results.all fun ok => ok) = true
  | .markProcessedFails _ _ => False
  | _ => True

/-- Every dispatcher of every tick returns. -/
def DispatchersReturn : Command Payload → Prop
  | .record _ _ _ => True
  | .tick outcome _ => ∀ id, ((outcome id).all fun ok => ok) = true

/-! ## Statements and rows -/

variable {row row' : OutboxRow Payload}
variable {rows : List (OutboxRow Payload)}

theorem claimable_of_unprocessed (hrow : row ∈ rows) (hnone : row.processedAt = none) :
    Claimable row.id rows := by
  refine ⟨rows.length + 1, ?_⟩
  intro limit hlimit now
  have hpositive : ¬ limit ≤ 0 := by omega
  simp only [PrismaOutboxStorage.claimBatch, if_neg hpositive]
  refine ⟨PrismaOutboxStorage.fromRow row, List.mem_map_of_mem ?_, rfl⟩
  -- The limit is not reached, so the selection has every unprocessed row.
  have hlength :
      ((rows.filter fun row => row.processedAt.isNone).insertionSort
        fun a b => a.seq ≤ b.seq).length ≤ limit.toNat := by
    rw [List.length_insertionSort]
    have hfilter := List.length_filter_le (fun row : OutboxRow Payload => row.processedAt.isNone) rows
    omega
  unfold PrismaOutboxStorage.selected
  rw [List.take_of_length_le hlength, List.mem_insertionSort, List.mem_filter]
  exact ⟨hrow, by rw [hnone]; rfl⟩

variable {limit : Int}

/-- A row after a claim is as before, or its entry is in the batch. -/
theorem row_of_claimBatch
    {now : Int}
    (hmem : row' ∈ (PrismaOutboxStorage.claimBatch limit now rows).2) :
    ∃ row ∈ rows, row'.id = row.id ∧
      (row'.processedAt = row.processedAt ∨
        ∃ entry ∈ (PrismaOutboxStorage.claimBatch limit now rows).1, entry.id = row'.id) := by
  unfold PrismaOutboxStorage.claimBatch at hmem ⊢
  by_cases hlimit : limit ≤ 0
  · rw [if_pos hlimit] at hmem
    exact ⟨row', hmem, rfl, Or.inl rfl⟩
  · rw [if_neg hlimit] at hmem ⊢
    obtain ⟨row, hrow, ⟨hmatch, rfl⟩ | ⟨-, rfl⟩⟩ := exists_of_mem_updateMany hmem
    · refine ⟨row, hrow, rfl, Or.inr ?_⟩
      simp only [Bool.and_eq_true, List.contains_iff_mem] at hmatch
      obtain ⟨chosen, hchosen, hid⟩ := List.mem_map.mp hmatch.1
      exact ⟨PrismaOutboxStorage.fromRow chosen, List.mem_map_of_mem hchosen, hid⟩
    · exact ⟨row', hrow, rfl, Or.inl rfl⟩

theorem row_of_increment
    {id : String}
    (hmem : row' ∈ (PrismaOutboxStorage.incrementDispatchAttemptCount id rows).2) :
    ∃ row ∈ rows, row'.id = row.id ∧ row'.processedAt = row.processedAt := by
  obtain ⟨row, hrow, ⟨-, rfl⟩ | ⟨-, rfl⟩⟩ := exists_of_mem_updateMany hmem
  · exact ⟨row, hrow, rfl, rfl⟩
  · exact ⟨row', hrow, rfl, rfl⟩

theorem row_of_markProcessed
    {id : String} {processedAt : Int}
    (hmem : row' ∈ (PrismaOutboxStorage.markProcessed id processedAt rows).2) :
    ∃ row ∈ rows, row'.id = row.id ∧ (row'.processedAt = row.processedAt ∨ row'.id = id) := by
  obtain ⟨row, hrow, ⟨hmatch, rfl⟩ | ⟨-, rfl⟩⟩ := exists_of_mem_updateMany hmem
  · simp only [PrismaOutboxStorage.awaitsProcessing, Bool.and_eq_true, decide_eq_true_eq] at hmatch
    exact ⟨row, hrow, rfl, Or.inr hmatch.1⟩
  · exact ⟨row', hrow, rfl, Or.inl rfl⟩

theorem row_of_append
    {entry : OutboxEntry Payload}
    (hmem : row ∈ (PrismaOutboxStorage.append entry rows).getD rows) :
    row ∈ rows ∨ row = PrismaOutboxStorage.toRow entry := by
  cases happend : PrismaOutboxStorage.append entry rows with
  | none =>
      rw [happend] at hmem
      exact Or.inl hmem
  | some rows' =>
      rw [happend] at hmem
      obtain ⟨-, rfl⟩ := insertRow_eq_some_iff.mp happend
      rcases List.mem_append.mp hmem with hold | hnew
      · exact Or.inl hold
      · exact Or.inr (List.mem_singleton.mp hnew)

/-! ## Invariant -/

/-- The entry is processed or held by a tick. -/
def World.accounts (w : World Payload) (id : String) : Prop :=
  id ∈ w.processed ∨ ∃ k, ∃ entry ∈ (w.ticks k).held, entry.id = id

/-- Rows with a `processed_at` are accounted for, and new entries have none. -/
structure ClaimsKept (w : World Payload) : Prop where
  rows : ∀ row ∈ w.rows, row.processedAt = none ∨ w.accounts row.id
  recordings :
    ∀ q entry, w.recordings q = .appending entry → entry.processedAt = none

theorem claimsKept_initialWorld : ClaimsKept (initialWorld : World Payload) where
  rows := by
    intro row hrow
    cases hrow
  recordings := by
    intro q entry hq
    cases hq

variable {w w' : World Payload}
variable {k : Nat}

/-- What a tick held stays accounted for when the tick moves on. -/
theorem accounts_setTick {tick : Tick Payload} {id : String}
    (hkeeps :
      ∀ entry ∈ (w.ticks k).held,
        entry.id ∈ w'.processed ∨ ∃ other ∈ tick.held, other.id = entry.id)
    (hprocessed : ∀ id ∈ w.processed, id ∈ w'.processed)
    (hticks : w'.ticks = Function.update w.ticks k tick)
    (haccounts : w.accounts id) :
    w'.accounts id := by
  rcases haccounts with hdone | ⟨k', entry, hentry, rfl⟩
  · exact Or.inl (hprocessed id hdone)
  · by_cases hk : k' = k
    · subst hk
      rcases hkeeps entry hentry with hdone | ⟨other, hother, hid⟩
      · exact Or.inl hdone
      · refine Or.inr ⟨k', other, ?_, hid⟩
        rw [hticks, Function.update_self]
        exact hother
    · refine Or.inr ⟨k', entry, ?_, rfl⟩
      rw [hticks, Function.update_of_ne hk]
      exact hentry

/-- An event of a tick that keeps its entries accounted for keeps the invariant. -/
theorem ClaimsKept.tick
    (hinv : ClaimsKept w)
    {tick : Tick Payload}
    (hticks : w'.ticks = Function.update w.ticks k tick)
    (hrecordings : w'.recordings = w.recordings)
    (hprocessed : ∀ id ∈ w.processed, id ∈ w'.processed)
    (hkeeps :
      ∀ entry ∈ (w.ticks k).held,
        entry.id ∈ w'.processed ∨ ∃ other ∈ tick.held, other.id = entry.id)
    (hrows :
      ∀ row' ∈ w'.rows, ∃ row ∈ w.rows, row'.id = row.id ∧
        (row'.processedAt = row.processedAt ∨ w'.accounts row'.id)) :
    ClaimsKept w' where
  rows := by
    intro row' hrow'
    obtain ⟨row, hrow, hid, hsame | haccounts⟩ := hrows row' hrow'
    · rcases hinv.rows row hrow with hnone | haccounts
      · exact Or.inl (hsame.trans hnone)
      · rw [hid]
        exact Or.inr (accounts_setTick hkeeps hprocessed hticks haccounts)
    · exact Or.inr haccounts
  recordings := by
    rw [hrecordings]
    exact hinv.recordings

/-- The same when the rows stay as they are. -/
theorem ClaimsKept.setTick
    (hinv : ClaimsKept w)
    {tick : Tick Payload}
    (hkeeps : ∀ entry ∈ (w.ticks k).held, ∃ other ∈ tick.held, other.id = entry.id) :
    ClaimsKept (w.setTick k tick) := by
  refine hinv.tick rfl rfl (fun _ hid => hid) (fun entry hentry => Or.inr (hkeeps entry hentry)) ?_
  intro row hrow
  exact ⟨row, hrow, rfl, Or.inl rfl⟩

theorem ClaimsKept.insert
    (hinv : ClaimsKept w)
    {entry : OutboxEntry Payload}
    (hnone : entry.processedAt = none) :
    ClaimsKept (w.insert entry) where
  rows := by
    intro row hrow
    rcases row_of_append hrow with hold | rfl
    · exact hinv.rows row hold
    · exact Or.inl hnone
  recordings := hinv.recordings

theorem ClaimsKept.setRecording
    (hinv : ClaimsKept w)
    {q : Nat} {recording : Recording Payload}
    (hfresh : ∀ entry, recording = .appending entry → entry.processedAt = none) :
    ClaimsKept (w.setRecording q recording) where
  rows := hinv.rows
  recordings := by
    intro q' entry hq'
    by_cases hqq : q' = q
    · subst hqq
      simp only [World.setRecording, Function.update_self] at hq'
      exact hfresh entry hq'
    · simp only [World.setRecording, Function.update_of_ne hqq] at hq'
      exact hinv.recordings q' entry hq'

/-- A claim hands every row it marks to its tick. -/
theorem ClaimsKept.claim
    (hinv : ClaimsKept w)
    {now : Int} {tick : Tick Payload}
    (hidle : w.ticks k = .idle)
    (hheld : tick.held = (PrismaOutboxStorage.claimBatch limit now w.rows).1) :
    ClaimsKept ((w.claimed limit now).setTick k tick) := by
  refine hinv.tick rfl rfl (fun _ hid => hid) ?_ ?_
  · intro entry hentry
    rw [hidle] at hentry
    cases hentry
  · intro row' hrow'
    obtain ⟨row, hrow, hid, hsame | ⟨entry, hentry, hentryId⟩⟩ := row_of_claimBatch hrow'
    · exact ⟨row, hrow, hid, Or.inl hsame⟩
    · refine ⟨row, hrow, hid, Or.inr (Or.inr ⟨k, entry, ?_, hentryId⟩)⟩
      simp only [World.setTick, Function.update_self]
      rw [hheld]
      exact hentry

theorem ClaimsKept.increment
    (hinv : ClaimsKept w)
    {entry : OutboxEntry Payload} {tick : Tick Payload}
    (hheld : tick.held = (w.ticks k).held) :
    ClaimsKept ((w.incremented entry.id).setTick k tick) := by
  refine hinv.tick rfl rfl (fun _ hid => hid) ?_ ?_
  · intro other hother
    rw [hheld]
    exact Or.inr ⟨other, hother, rfl⟩
  · intro row' hrow'
    obtain ⟨row, hrow, hid, hsame⟩ := row_of_increment hrow'
    exact ⟨row, hrow, hid, Or.inl hsame⟩

theorem ClaimsKept.mark
    (hinv : ClaimsKept w)
    {entry : OutboxEntry Payload} {processedAt : Int} {tick : Tick Payload}
    (hheld : (w.ticks k).held = entry :: tick.held) :
    ClaimsKept ((w.marked entry.id processedAt).setTick k tick) := by
  refine hinv.tick rfl rfl (fun _ hid => List.mem_cons_of_mem _ hid) ?_ ?_
  · intro other hother
    rw [hheld] at hother
    rcases List.mem_cons.mp hother with rfl | hrest
    · exact Or.inl List.mem_cons_self
    · exact Or.inr ⟨other, hrest, rfl⟩
  · intro row' hrow'
    obtain ⟨row, hrow, hid, hsame | hmarked⟩ := row_of_markProcessed hrow'
    · exact ⟨row, hrow, hid, Or.inl hsame⟩
    · refine ⟨row, hrow, hid, Or.inr (Or.inl ?_)⟩
      rw [hmarked]
      exact List.mem_cons_self

/-! ## Runs -/

theorem claimsKept_step
    (hinv : ClaimsKept w)
    {e : Event Payload}
    (hfinishes : FinishesClaimed w e)
    (hstep : step options w e = some w') :
    ClaimsKept w' := by
  cases stepped_of_step hstep with
  | refused q input id now => exact hinv.setRecording (by simp)
  | recorded q input id now =>
      have hnext : ClaimsKept { w with nextSeq := w.nextSeq + 1 } :=
        ⟨hinv.rows, hinv.recordings⟩
      refine hnext.setRecording ?_
      intro entry hentry
      cases hentry
      rfl
  | inserted q entry hq => exact (hinv.insert (hinv.recordings q entry hq)).setRecording (by simp)
  | taken q => exact hinv.setRecording (by simp)
  | insertFails q entry applied hq =>
      cases applied with
      | true => exact (hinv.insert (hinv.recordings q entry hq)).setRecording (by simp)
      | false => exact hinv.setRecording (by simp)
  | claimsNone k now hidle hnone => exact hinv.claim hidle hnone.symm
  | claimsBatch k now hidle => exact hinv.claim hidle rfl
  | claimFails k applied now hidle =>
      cases (show applied = false from hfinishes)
      refine hinv.setTick ?_
      intro entry hentry
      rw [hidle] at hentry
      cases hentry
  | deadLetters k entry todo at_ result result' htick =>
      exact hinv.increment (by rw [htick]; rfl)
  | dispatches k entry todo at_ result htick => exact hinv.increment (by rw [htick]; rfl)
  | incrementFails => cases hfinishes
  | succeeds k entry todo at_ result result' results now htick =>
      refine hinv.setTick ?_
      intro other hother
      rw [htick] at hother
      exact ⟨other, hother, rfl⟩
  | fails k entry todo at_ result results now htick hfailed =>
      have hreturned : (results.all fun ok => ok) = true := hfinishes
      rw [hfailed] at hreturned
      cases hreturned
  | marks k entry processedAt todo at_ result htick => exact hinv.mark (by rw [htick]; rfl)
  | markFails => cases hfinishes
  | ends k at_ result htick =>
      refine hinv.setTick ?_
      intro entry hentry
      rw [htick] at hentry
      cases hentry

/-- While every claimed entry is finished, the others stay claimable. -/
theorem staysClaimable_of_finishesClaimed (options : OutboxWorkerOptions) :
    @StaysClaimable Payload options FinishesClaimed := by
  intro w hrun row hrow hunprocessed hunheld
  have hinv : ClaimsKept w :=
    hrun.invariant claimsKept_initialWorld (fun _ _ _ hI hguard hstep =>
      claimsKept_step hI hguard hstep)
  rcases hinv.rows row hrow with hnone | hprocessed | ⟨k, entry, hentry, hid⟩
  · exact claimable_of_unprocessed hrow hnone
  · exact absurd hprocessed hunprocessed
  · exact absurd hid (hunheld k entry hentry)

/-! ## Two storages in lockstep -/

/-- A row and an entry that stand for each other while the ids `held` are claimed. -/
structure Twins
    (processed held : List String)
    (row : OutboxRow Payload)
    (entry : OutboxEntry Payload) : Prop where
  id : row.id = entry.id
  attempts : row.dispatchAttemptCount = entry.dispatchAttemptCount.getD 0
  open_ : row.processedAt = none ↔ entry.id ∉ processed ∧ entry.id ∉ held

structure Lockstep
    (held : List String)
    (rows : List (OutboxRow Payload))
    (memory : InMemoryOutbox Payload) : Prop where
  twins : List.Forall₂ (Twins memory.processed held) rows memory.entries
  ids_nodup : KeysNodup OutboxRow.id rows
  sorted : (rows.map OutboxRow.seq).Pairwise (· ≤ ·)
  known : ∀ id, id ∈ memory.processed ∨ id ∈ held → id ∈ rows.map OutboxRow.id

variable {held : List String}
variable {rows : List (OutboxRow Payload)}
variable {memory : InMemoryOutbox Payload}

theorem selected_of_sorted (hsorted : (rows.map OutboxRow.seq).Pairwise (· ≤ ·)) (limit : Int) :
    PrismaOutboxStorage.selected limit rows =
      (rows.filter fun row => row.processedAt.isNone).take limit.toNat := by
  have hpairs : rows.Pairwise fun a b => a.seq ≤ b.seq := List.pairwise_map.mp hsorted
  unfold PrismaOutboxStorage.selected
  rw [(hpairs.filter _).insertionSort_eq]

/-- Both storages return the same entries in the same order. -/
theorem Lockstep.batch_ids (hlock : Lockstep [] rows memory) (hlimit : 0 ≤ limit) (now : Int) :
    (PrismaOutboxStorage.claimBatch limit now rows).1.map OutboxEntry.id =
      (InMemoryOutboxStorage.claimBatch limit now memory).1.map OutboxEntry.id := by
  have hfiltered :
      List.Forall₂ (Twins memory.processed [])
        (rows.filter fun row => row.processedAt.isNone)
        (memory.entries.filter fun entry => !memory.processed.contains entry.id) := by
    refine List.rel_filter ?_ hlock.twins
    intro row entry htwins
    simpa [List.contains_iff_mem] using htwins.open_
  have hslice :
      InMemoryOutboxStorage.slice limit
          (memory.entries.filter fun entry => !memory.processed.contains entry.id) =
        (memory.entries.filter fun entry => !memory.processed.contains entry.id).take
          limit.toNat := by
    unfold InMemoryOutboxStorage.slice
    rw [if_neg (by omega)]
  have hbatches := List.forall₂_take limit.toNat hfiltered
  have hids :
      ((rows.filter fun row => row.processedAt.isNone).take limit.toNat).map OutboxRow.id =
        ((memory.entries.filter fun entry => !memory.processed.contains entry.id).take
          limit.toNat).map OutboxEntry.id := by
    rw [← List.forall₂_eq_eq_eq, List.forall₂_map_left_iff, List.forall₂_map_right_iff]
    exact hbatches.imp fun _ _ htwins => htwins.id
  have hmemory :
      (InMemoryOutboxStorage.claimBatch limit now memory).1.map OutboxEntry.id =
        ((memory.entries.filter fun entry => !memory.processed.contains entry.id).take
          limit.toNat).map OutboxEntry.id := by
    simp only [InMemoryOutboxStorage.claimBatch, hslice, List.map_map]
    rfl
  rw [hmemory, ← hids]
  unfold PrismaOutboxStorage.claimBatch
  by_cases hzero : limit ≤ 0
  · have hlimit0 : limit = 0 := by omega
    subst hlimit0
    simp
  · rw [if_neg hzero, selected_of_sorted hlock.sorted, List.map_map]
    rfl

/-- A key-preserving change of rows and of entries that keeps the twins. -/
theorem Lockstep.updateMany
    (hlock : Lockstep held rows memory)
    {matching : OutboxRow Payload → Bool} {change : OutboxRow Payload → OutboxRow Payload}
    {memory' : InMemoryOutbox Payload} {held' : List String}
    (hid : ∀ row, (change row).id = row.id)
    (hseq : ∀ row, (change row).seq = row.seq)
    (htwins :
      List.Forall₂ (Twins memory'.processed held') (Lib.updateMany matching change rows)
        memory'.entries)
    (hknown :
      ∀ id, id ∈ memory'.processed ∨ id ∈ held' → id ∈ rows.map OutboxRow.id) :
    Lockstep held' (Lib.updateMany matching change rows) memory' where
  twins := htwins
  ids_nodup := hlock.ids_nodup.updateMany matching hid
  sorted := by
    rw [map_key_updateMany matching hseq]
    exact hlock.sorted
  known := by
    rw [map_key_updateMany matching hid]
    exact hknown

/-- The marks a claim of `ids` leaves on a row and on its entry. -/
theorem Twins.claim
    {processed : List String} {entry : OutboxEntry Payload}
    (htwins : Twins processed [] row entry)
    (ids : List String)
    (now : Int) :
    Twins processed ids
      (if ids.contains row.id && row.processedAt.isNone then
        { row with processedAt := some INFLIGHT_SENTINEL, claimedAt := some now }
      else row)
      (if ids.contains entry.id then { entry with claimedAt := some now } else entry) := by
  obtain ⟨hid, hattempts, hopen⟩ := htwins
  have hsame : ids.contains row.id = ids.contains entry.id := by rw [hid]
  by_cases hclaimed : entry.id ∈ ids
  · rw [hsame, List.contains_iff_mem.mpr hclaimed, Bool.true_and, if_pos rfl]
    cases hat : row.processedAt with
    | none =>
        rw [Option.isNone_none, if_pos rfl]
        exact ⟨hid, hattempts, by simp [hclaimed]⟩
    | some at_ =>
        rw [Option.isNone_some, if_neg Bool.false_ne_true]
        exact ⟨hid, hattempts, by simp [hat, hclaimed]⟩
  · have hcontains : ids.contains entry.id = false := by
      simpa [List.contains_iff_mem] using hclaimed
    rw [hsame, hcontains, Bool.false_and, if_neg Bool.false_ne_true, if_neg Bool.false_ne_true]
    refine ⟨hid, hattempts, ?_⟩
    rw [hopen]
    simp [hclaimed]

/-- After a claim the batch is held. -/
theorem Lockstep.claim (hlock : Lockstep [] rows memory) (hlimit : 0 ≤ limit) (now : Int) :
    Lockstep ((PrismaOutboxStorage.claimBatch limit now rows).1.map OutboxEntry.id)
      (PrismaOutboxStorage.claimBatch limit now rows).2
      (InMemoryOutboxStorage.claimBatch limit now memory).2 := by
  have hids := hlock.batch_ids hlimit now
  have hentries :
      (InMemoryOutboxStorage.claimBatch limit now memory).2.entries =
        Lib.updateMany
          (fun entry =>
            ((PrismaOutboxStorage.claimBatch limit now rows).1.map OutboxEntry.id).contains
              entry.id)
          (fun entry => { entry with claimedAt := some now }) memory.entries := by
    rw [hids]
    simp only [InMemoryOutboxStorage.claimBatch, List.map_map]
    rfl
  have hprocessed :
      (InMemoryOutboxStorage.claimBatch limit now memory).2.processed = memory.processed := rfl
  by_cases hzero : limit ≤ 0
  · have hbatch : PrismaOutboxStorage.claimBatch limit now rows = ([], rows) := by
      unfold PrismaOutboxStorage.claimBatch
      rw [if_pos hzero]
    rw [hbatch] at hentries ⊢
    refine ⟨?_, hlock.ids_nodup, hlock.sorted, hlock.known⟩
    rw [hentries, hprocessed]
    simpa [Lib.updateMany] using hlock.twins
  · have hbatch :
        PrismaOutboxStorage.claimBatch limit now rows =
          ((PrismaOutboxStorage.selected limit rows).map PrismaOutboxStorage.fromRow,
            Lib.updateMany
              (fun row =>
                ((PrismaOutboxStorage.selected limit rows).map OutboxRow.id).contains row.id &&
                  row.processedAt.isNone)
              (fun row =>
                { row with processedAt := some INFLIGHT_SENTINEL, claimedAt := some now })
              rows) := by
      unfold PrismaOutboxStorage.claimBatch
      rw [if_neg hzero]
    have hselected :
        ((PrismaOutboxStorage.selected limit rows).map PrismaOutboxStorage.fromRow).map
            OutboxEntry.id =
          (PrismaOutboxStorage.selected limit rows).map OutboxRow.id := by
      rw [List.map_map]
      rfl
    rw [hbatch] at hentries ⊢
    simp only [hselected] at hentries ⊢
    refine hlock.updateMany (fun _ => rfl) (fun _ => rfl) ?_ ?_
    · rw [hentries, hprocessed]
      unfold Lib.updateMany
      rw [List.forall₂_map_left_iff, List.forall₂_map_right_iff]
      refine hlock.twins.imp ?_
      intro row entry htwins
      exact htwins.claim _ now
    · rintro id (hdone | hclaimed)
      · exact hlock.known id (Or.inl hdone)
      · obtain ⟨row, hrow, rfl⟩ := List.mem_map.mp hclaimed
        rw [selected_of_sorted hlock.sorted] at hrow
        exact List.mem_map_of_mem (List.mem_filter.mp (List.mem_of_mem_take hrow)).1

/-- Counting up by id is counting up the first entry with it. -/
theorem forall₂_countUp
    {processed : List String} {entries : List (OutboxEntry Payload)}
    (id : String)
    (htwins : List.Forall₂ (Twins processed held) rows entries)
    (hnodup : KeysNodup OutboxRow.id rows) :
    (PrismaOutboxStorage.incrementDispatchAttemptCount id rows).1 =
        (InMemoryOutboxStorage.countUp id entries).1 ∧
      List.Forall₂ (Twins processed held)
        (PrismaOutboxStorage.incrementDispatchAttemptCount id rows).2
        (InMemoryOutboxStorage.countUp id entries).2 := by
  induction htwins with
  | nil => exact ⟨rfl, List.Forall₂.nil⟩
  | @cons row entry rows entries hhead htail ih =>
      obtain ⟨hid, hattempts, hopen⟩ := hhead
      simp only [KeysNodup, List.map_cons, List.nodup_cons] at hnodup
      obtain ⟨hcount, hrest⟩ := ih hnodup.2
      by_cases hrow : row.id = id
      · have hentry : entry.id = id := hid ▸ hrow
        -- No other row has the id, so the update leaves the rest alone.
        have huntouched : ∀ other ∈ rows, decide (other.id = id) = false := by
          intro other hother
          rw [decide_eq_false_iff_not]
          intro hsame
          refine hnodup.1 ?_
          rw [hrow, ← hsame]
          exact List.mem_map_of_mem hother
        have hrows :
            (PrismaOutboxStorage.incrementDispatchAttemptCount id (row :: rows)).2 =
              { row with dispatchAttemptCount := row.dispatchAttemptCount + 1 } :: rows := by
          have hrest :
              Lib.updateMany (fun row : OutboxRow Payload => decide (row.id = id))
                  (fun row => { row with dispatchAttemptCount := row.dispatchAttemptCount + 1 })
                  rows = rows :=
            updateMany_eq_self huntouched
          simp only [Lib.updateMany] at hrest
          simp only [PrismaOutboxStorage.incrementDispatchAttemptCount, Lib.updateMany,
            List.map_cons, hrest, hrow, decide_true, if_true]
        have hreturned :
            (PrismaOutboxStorage.incrementDispatchAttemptCount id (row :: rows)).1 =
              row.dispatchAttemptCount + 1 := by
          have hfirst :
              (PrismaOutboxStorage.incrementDispatchAttemptCount id (row :: rows)).1 =
                ((findRow OutboxRow.id id
                  (PrismaOutboxStorage.incrementDispatchAttemptCount id (row :: rows)).2).map
                    OutboxRow.dispatchAttemptCount).getD 0 := rfl
          rw [hfirst, hrows]
          simp [findRow, hrow]
        rw [hrows, hreturned]
        simp only [InMemoryOutboxStorage.countUp, if_pos hentry]
        exact ⟨by rw [hattempts], List.Forall₂.cons ⟨hid, by simp [hattempts], hopen⟩ htail⟩
      · have hentry : entry.id ≠ id := fun heq => hrow (hid.trans heq)
        simp only [InMemoryOutboxStorage.countUp, if_neg hentry]
        refine ⟨?_, ?_⟩
        · rw [← hcount]
          simp [PrismaOutboxStorage.incrementDispatchAttemptCount, Lib.updateMany, findRow, hrow]
        · simpa [PrismaOutboxStorage.incrementDispatchAttemptCount, Lib.updateMany, hrow] using
            List.Forall₂.cons ⟨hid, hattempts, hopen⟩ hrest

theorem Lockstep.increment (hlock : Lockstep held rows memory) (id : String) :
    (PrismaOutboxStorage.incrementDispatchAttemptCount id rows).1 =
        (InMemoryOutboxStorage.incrementDispatchAttemptCount id memory).1 ∧
      Lockstep held (PrismaOutboxStorage.incrementDispatchAttemptCount id rows).2
        (InMemoryOutboxStorage.incrementDispatchAttemptCount id memory).2 := by
  obtain ⟨hcount, htwins⟩ := forall₂_countUp id hlock.twins hlock.ids_nodup
  exact ⟨hcount, hlock.updateMany (fun _ => rfl) (fun _ => rfl) htwins hlock.known⟩

/-- A marked id is no longer held but processed. -/
theorem Lockstep.mark
    {id : String}
    (hlock : Lockstep (id :: held) rows memory)
    (processedAt : Int) :
    Lockstep held (PrismaOutboxStorage.markProcessed id processedAt rows).2
      (InMemoryOutboxStorage.markProcessed id processedAt memory).2 := by
  have hprocessed :
      ∀ other,
        other ∈ (InMemoryOutboxStorage.markProcessed id processedAt memory).2.processed ↔
          other = id ∨ other ∈ memory.processed := by
    intro other
    unfold InMemoryOutboxStorage.markProcessed
    split
    · next hdone =>
      constructor
      · exact Or.inr
      · rintro (rfl | hother)
        · exact List.contains_iff_mem.mp hdone
        · exact hother
    · exact List.mem_cons
  have hentries :
      (InMemoryOutboxStorage.markProcessed id processedAt memory).2.entries = memory.entries := by
    unfold InMemoryOutboxStorage.markProcessed
    split <;> rfl
  have hknown :
      ∀ other,
        other ∈ (InMemoryOutboxStorage.markProcessed id processedAt memory).2.processed ∨
            other ∈ held →
          other ∈ rows.map OutboxRow.id := by
    rintro other (hdone | hheld)
    · rcases (hprocessed other).mp hdone with rfl | hbefore
      · exact hlock.known other (Or.inr List.mem_cons_self)
      · exact hlock.known other (Or.inl hbefore)
    · exact hlock.known other (Or.inr (List.mem_cons_of_mem _ hheld))
  refine hlock.updateMany (fun _ => rfl) (fun _ => rfl) ?_ hknown
  rw [hentries]
  unfold Lib.updateMany
  rw [List.forall₂_map_left_iff]
  refine hlock.twins.imp ?_
  intro row entry htwins
  obtain ⟨hid, hattempts, hopen⟩ := htwins
  have hopen' :
      row.processedAt = none ∧ row.id ≠ id ↔
        entry.id ∉ (InMemoryOutboxStorage.markProcessed id processedAt memory).2.processed ∧
          entry.id ∉ held := by
    rw [hopen, hprocessed, hid]
    simp only [List.mem_cons]
    tauto
  -- A row with the id is claimed already, so its `processed_at` is set either way.
  have hclaimed : row.id = id → row.processedAt ≠ none := by
    intro hrow hnone
    exact (hopen.mp hnone).2 (List.mem_cons.mpr (Or.inl (hid ▸ hrow)))
  by_cases hrow : row.id = id
  · refine ⟨?_, ?_, ?_⟩
    · split <;> exact hid
    · split <;> exact hattempts
    · rw [← hopen']
      have hset := hclaimed hrow
      split
      · simp [hrow]
      · simp [hrow, hset]
  · have hother : PrismaOutboxStorage.awaitsProcessing id row = false := by
      simp [PrismaOutboxStorage.awaitsProcessing, hrow]
    rw [hother, if_neg Bool.false_ne_true]
    refine ⟨hid, hattempts, ?_⟩
    rw [← hopen']
    simp [hrow]

/-! ## Sequential workers -/

/-- The sessions have dispatched the same entries and hold the same ones. -/
structure SameSession
    (ids held : List String)
    (prisma : Session (List (OutboxRow Payload)))
    (memory : Session (InMemoryOutbox Payload)) : Prop where
  lock : Lockstep held prisma.store memory.store
  nextSeq : prisma.nextSeq = memory.nextSeq
  dispatched : prisma.dispatched = memory.dispatched
  /-- Later entries have larger numbers. -/
  bound : ∀ row ∈ prisma.store, row.seq < prisma.nextSeq
  ids : prisma.store.map OutboxRow.id = ids

theorem ids_claimBatch (limit now : Int) (rows : List (OutboxRow Payload)) :
    (PrismaOutboxStorage.claimBatch limit now rows).2.map OutboxRow.id =
      rows.map OutboxRow.id := by
  unfold PrismaOutboxStorage.claimBatch
  split
  · rfl
  · refine map_key_updateMany _ ?_ rows
    intro row
    rfl

theorem ids_increment (id : String) (rows : List (OutboxRow Payload)) :
    (PrismaOutboxStorage.incrementDispatchAttemptCount id rows).2.map OutboxRow.id =
      rows.map OutboxRow.id := by
  refine map_key_updateMany _ ?_ rows
  intro row
  rfl

theorem ids_markProcessed (id : String) (processedAt : Int) (rows : List (OutboxRow Payload)) :
    (PrismaOutboxStorage.markProcessed id processedAt rows).2.map OutboxRow.id =
      rows.map OutboxRow.id := by
  refine map_key_updateMany _ ?_ rows
  intro row
  rfl

variable {ids : List String}
variable {prisma : Session (List (OutboxRow Payload))}
variable {mem : Session (InMemoryOutbox Payload)}

theorem bound_updateMany
    {matching : OutboxRow Payload → Bool} {change : OutboxRow Payload → OutboxRow Payload}
    {bound : Nat}
    (hseq : ∀ row, (change row).seq = row.seq)
    (hbound : ∀ row ∈ rows, row.seq < bound) :
    ∀ row ∈ Lib.updateMany matching change rows, row.seq < bound := by
  intro row' hrow'
  obtain ⟨row, hrow, ⟨-, rfl⟩ | ⟨-, rfl⟩⟩ := exists_of_mem_updateMany hrow'
  · rw [hseq]
    exact hbound row hrow
  · exact hbound row' hrow

variable {outcome : String → List Bool}

/-- One entry of the batch, when the dispatchers return. -/
theorem SameSession.runEntry
    (options : OutboxWorkerOptions)
    {entry entry' : OutboxEntry Payload}
    (hsame : SameSession ids (entry.id :: held) prisma mem)
    (hid : entry.id = entry'.id)
    (hreturn : ∀ id, ((outcome id).all fun ok => ok) = true)
    (now : Int)
    (result : OutboxWorkerResult) :
    SameSession ids held
        (OutboxWorker.runEntry PrismaOutboxStorage.storage options outcome now now
          (prisma, result) entry).1
        (OutboxWorker.runEntry InMemoryOutboxStorage.storage options outcome now now
          (mem, result) entry').1 ∧
      (OutboxWorker.runEntry PrismaOutboxStorage.storage options outcome now now
          (prisma, result) entry).2 =
        (OutboxWorker.runEntry InMemoryOutboxStorage.storage options outcome now now
          (mem, result) entry').2 := by
  obtain ⟨hcount, hincremented⟩ := hsame.lock.increment entry.id
  have hmarked := hincremented.mark now
  have hbound :
      ∀ row ∈ (PrismaOutboxStorage.markProcessed entry.id now
          (PrismaOutboxStorage.incrementDispatchAttemptCount entry.id prisma.store).2).2,
        row.seq < prisma.nextSeq :=
    bound_updateMany (fun _ => rfl) (bound_updateMany (fun _ => rfl) hsame.bound)
  have hids :
      (PrismaOutboxStorage.markProcessed entry.id now
          (PrismaOutboxStorage.incrementDispatchAttemptCount entry.id prisma.store).2).2.map
            OutboxRow.id = ids := by
    rw [ids_markProcessed, ids_increment]
    exact hsame.ids
  unfold OutboxWorker.runEntry
  simp only [PrismaOutboxStorage.storage, InMemoryOutboxStorage.storage, ← hid, ← hcount,
    hreturn entry.id, if_true]
  split
  · exact ⟨⟨hmarked, hsame.nextSeq, hsame.dispatched, hbound, hids⟩, rfl⟩
  · refine ⟨⟨hmarked, hsame.nextSeq, ?_, hbound, hids⟩, rfl⟩
    show prisma.dispatched ++ [entry.id] = mem.dispatched ++ [entry.id]
    rw [hsame.dispatched]

/-- The loop over a batch. -/
theorem SameSession.foldl_runEntry
    {batch batch' : List (OutboxEntry Payload)}
    (hsame : SameSession ids (batch.map OutboxEntry.id) prisma mem)
    (hbatch : batch.map OutboxEntry.id = batch'.map OutboxEntry.id)
    (hreturn : ∀ id, ((outcome id).all fun ok => ok) = true)
    (now : Int)
    (result : OutboxWorkerResult) :
    SameSession ids []
      (batch.foldl
        (OutboxWorker.runEntry PrismaOutboxStorage.storage options outcome now now)
        (prisma, result)).1
      (batch'.foldl
        (OutboxWorker.runEntry InMemoryOutboxStorage.storage options outcome now now)
        (mem, result)).1 := by
  induction batch generalizing batch' prisma mem result with
  | nil =>
      have hnil : batch' = [] := List.map_eq_nil_iff.mp hbatch.symm
      subst hnil
      exact hsame
  | cons entry batch ih =>
      cases batch' with
      | nil => cases hbatch
      | cons entry' batch' =>
          simp only [List.map_cons, List.cons.injEq] at hbatch
          obtain ⟨hnext, hresult⟩ := hsame.runEntry options hbatch.1 hreturn now result
          simp only [List.foldl_cons]
          rcases hprisma :
              OutboxWorker.runEntry PrismaOutboxStorage.storage options outcome now now
                (prisma, result) entry with ⟨prisma', result'⟩
          rcases hmemory :
              OutboxWorker.runEntry InMemoryOutboxStorage.storage options outcome now now
                (mem, result) entry' with ⟨mem', result''⟩
          rw [hprisma, hmemory] at hnext hresult
          cases hresult
          exact ih hnext hbatch.2 result'

theorem SameSession.runOnce
    (hsame : SameSession ids [] prisma mem)
    (hbatch : 0 ≤ options.batchSize)
    (hreturn : ∀ id, ((outcome id).all fun ok => ok) = true)
    (now : Int) :
    SameSession ids []
      (OutboxWorker.runOnce PrismaOutboxStorage.storage options outcome now prisma).1
      (OutboxWorker.runOnce InMemoryOutboxStorage.storage options outcome now mem).1 := by
  have hbatches := hsame.lock.batch_ids hbatch now
  have hclaimed := hsame.lock.claim hbatch now
  have hstart :
      SameSession ids
        ((PrismaOutboxStorage.claimBatch options.batchSize now prisma.store).1.map
          OutboxEntry.id)
        { prisma with
          store := (PrismaOutboxStorage.claimBatch options.batchSize now prisma.store).2 }
        { mem with
          store := (InMemoryOutboxStorage.claimBatch options.batchSize now mem.store).2 } := by
    refine ⟨hclaimed, hsame.nextSeq, hsame.dispatched, ?_, ?_⟩
    · simp only [PrismaOutboxStorage.claimBatch]
      split
      · exact hsame.bound
      · exact bound_updateMany (fun _ => rfl) hsame.bound
    · show (PrismaOutboxStorage.claimBatch options.batchSize now prisma.store).2.map
        OutboxRow.id = ids
      rw [ids_claimBatch]
      exact hsame.ids
  exact hstart.foldl_runEntry hbatches hreturn now _

/-- A new entry with a fresh id is appended to both storages. -/
theorem SameSession.record
    (hsame : SameSession ids [] prisma mem)
    {input : RecordInput Payload} {id : String}
    (hfresh : id ∉ ids)
    (htype : input.type ≠ "")
    (now : Int) :
    SameSession (ids ++ [id]) []
      (OutboxRecorder.record PrismaOutboxStorage.storage input id now prisma)
      (OutboxRecorder.record InMemoryOutboxStorage.storage input id now mem) := by
  have hunknown : id ∉ prisma.store.map OutboxRow.id := by
    rw [hsame.ids]
    exact hfresh
  have hunprocessed : id ∉ mem.store.processed := by
    intro hdone
    exact hunknown (hsame.lock.known id (Or.inl hdone))
  have happend :
      PrismaOutboxStorage.append (newEntry input id prisma.nextSeq now) prisma.store =
        some (prisma.store ++
          [PrismaOutboxStorage.toRow (newEntry input id prisma.nextSeq now)]) :=
    insertRow_eq_some_iff.mpr ⟨findRow_eq_none_iff.mpr hunknown, rfl⟩
  unfold OutboxRecorder.record
  simp only [if_neg htype, PrismaOutboxStorage.storage, InMemoryOutboxStorage.storage,
    InMemoryOutboxStorage.append, happend]
  refine ⟨⟨?_, ?_, ?_, ?_⟩, ?_, hsame.dispatched, ?_, ?_⟩
  · refine List.rel_append hsame.lock.twins (List.Forall₂.cons ?_ List.Forall₂.nil)
    exact ⟨rfl, rfl, by simp [newEntry, PrismaOutboxStorage.toRow, hunprocessed]⟩
  · exact hsame.lock.ids_nodup.insertRow happend
  · rw [List.map_append, List.pairwise_append]
    refine ⟨hsame.lock.sorted, List.pairwise_singleton _ _, ?_⟩
    intro seq hseq last hlast
    obtain ⟨row, hrow, rfl⟩ := List.mem_map.mp hseq
    rw [List.map_singleton, List.mem_singleton] at hlast
    have hless := hsame.bound row hrow
    rw [hlast]
    exact Nat.le_of_lt hless
  · intro other hother
    rw [List.map_append]
    exact List.mem_append_left _ (hsame.lock.known other hother)
  · show prisma.nextSeq + 1 = mem.nextSeq + 1
    rw [hsame.nextSeq]
  · intro row hrow
    rcases List.mem_append.mp hrow with hold | hnew
    · exact Nat.lt_succ_of_lt (hsame.bound row hold)
    · rw [List.mem_singleton.mp hnew]
      exact Nat.lt_succ_self _
  · rw [List.map_append, hsame.ids]
    rfl

/-- Whole scripts, one command after the other. -/
theorem SameSession.runCommands
    (hsame : SameSession ids [] prisma mem)
    (hbatch : 0 ≤ options.batchSize)
    {commands : List (Command Payload)}
    (hfresh : (ids ++ commands.filterMap Command.recordedId).Nodup)
    (hreturn : ∀ command ∈ commands, DispatchersReturn command) :
    ∃ ids',
      SameSession ids' []
        (Outbox.runCommands PrismaOutboxStorage.storage options prisma commands)
        (Outbox.runCommands InMemoryOutboxStorage.storage options mem commands) := by
  induction commands generalizing ids prisma mem with
  | nil => exact ⟨ids, hsame⟩
  | cons command commands ih =>
      have hrest : ∀ other ∈ commands, DispatchersReturn other :=
        fun other hother => hreturn other (List.mem_cons_of_mem _ hother)
      have hhead := hreturn command List.mem_cons_self
      cases command with
      | record input id now =>
          by_cases htype : input.type = ""
          · -- The call throws and nothing is recorded.
            have hprisma :
                runCommand PrismaOutboxStorage.storage options prisma (.record input id now) =
                  prisma := by
              simp [runCommand, OutboxRecorder.record, htype]
            have hmemory :
                runCommand InMemoryOutboxStorage.storage options mem (.record input id now) =
                  mem := by
              simp [runCommand, OutboxRecorder.record, htype]
            simp only [List.filterMap_cons, Command.recordedId, if_pos htype] at hfresh
            simp only [Outbox.runCommands, List.foldl_cons, hprisma, hmemory]
            exact ih hsame hfresh hrest
          · simp only [List.filterMap_cons, Command.recordedId, if_neg htype] at hfresh
            have hnew : id ∉ ids := by
              intro hold
              exact (List.nodup_append.mp hfresh).2.2 id hold id List.mem_cons_self rfl
            refine ih (hsame.record hnew htype now) ?_ hrest
            rwa [List.append_assoc, List.singleton_append]
      | tick outcome now => exact ih (hsame.runOnce hbatch hhead now) hfresh hrest

theorem sameSession_initial :
    SameSession [] [] (prismaSession : Session (List (OutboxRow Payload))) memorySession where
  lock :=
    { twins := List.Forall₂.nil
      ids_nodup := List.nodup_nil
      sorted := List.Pairwise.nil
      known := by
        rintro id (hdone | hheld)
        · cases hdone
        · cases hheld }
  nextSeq := rfl
  dispatched := rfl
  bound := by
    intro row hrow
    cases hrow
  ids := rfl

/-! ## Both parts -/

/-- Claimed entries that are finished keep the others claimable, over either reading. -/
theorem retries_of_finishesClaimed (options : OutboxWorkerOptions) :
    @StaysClaimable Payload options FinishesClaimed ∧
      @SameDispatches Payload options
        (fun command => DispatchersReturn command ∧ 0 ≤ options.batchSize) := by
  refine ⟨staysClaimable_of_finishesClaimed options, ?_⟩
  intro commands hfresh hadmitted
  cases commands with
  | nil => rfl
  | cons command commands =>
      have hbatch := (hadmitted command List.mem_cons_self).2
      have hreturn : ∀ other ∈ command :: commands, DispatchersReturn other :=
        fun other hother => (hadmitted other hother).1
      rw [← List.nil_append ((command :: commands).filterMap Command.recordedId)] at hfresh
      obtain ⟨ids, hsame⟩ := sameSession_initial.runCommands hbatch hfresh hreturn
      exact hsame.dispatched

/-! ## A dispatcher that throws -/

def fiftyAtATime : OutboxWorkerOptions where
  batchSize := 50
  maxAttempts := none

def orderPlaced : RecordInput Unit where
  tenantId := "t"
  type := "order.placed"
  payload := ()

/-- The entry is recorded and claimed, and its dispatcher throws. -/
def failedDispatch : List (Event Unit) :=
  [.record 0 orderPlaced "e" 0, .append 0, .claim 0 1, .increment 0, .dispatched 0 [false] 2,
    .endOfLoop 0]

/-- The first tick fails, the second would succeed. -/
def failThenReturn : List (Command Unit) :=
  [.record orderPlaced "e" 0, .tick (fun _ => [false]) 1, .tick (fun _ => [true]) 2]

/-- After one failed dispatch the entry is never claimed again. -/
theorem not_retries_failedDispatch :
    (¬ StaysClaimable fiftyAtATime (anyEvent : World Unit → Event Unit → Prop)) ∧
      ¬ SameDispatches fiftyAtATime (fun _ : Command Unit => True) := by
  constructor
  · intro hclaim
    obtain ⟨w, hrun, hrow, hprocessed, hunheld, hrows⟩ :
        ∃ w,
          runEvents (step fiftyAtATime) initialWorld failedDispatch = some w ∧
            (∃ row ∈ w.rows, row.id = "e") ∧
              w.processed = [] ∧
                (∀ k, (w.ticks k).held = []) ∧
                  ∀ row ∈ w.rows, row.processedAt = some INFLIGHT_SENTINEL := by
      refine ⟨_, rfl, ⟨_, List.mem_singleton_self _, rfl⟩, rfl, ?_, ?_⟩
      · intro k
        by_cases hk : k = 0
        · subst hk
          rfl
        · simp [World.setTick, Function.update_of_ne hk, initialWorld, Tick.held,
            World.incremented, World.claimed, World.setRecording, World.insert]
      · intro row hrow
        rw [List.mem_singleton.mp hrow]
        rfl
    obtain ⟨row, hmem, hid⟩ := hrow
    obtain ⟨enough, hclaimable⟩ :=
      hclaim w (reaches_of_runEvents hrun) row hmem (by rw [hprocessed]; simp)
        (by
          intro k entry hentry
          rw [hunheld k] at hentry
          cases hentry)
    obtain ⟨entry, hentry, -⟩ := hclaimable enough le_rfl 0
    -- The only row is in flight, so nothing is selected.
    have hnothing : (PrismaOutboxStorage.claimBatch enough 0 w.rows).1 = [] := by
      have hfilter : w.rows.filter (fun row => row.processedAt.isNone) = [] := by
        rw [List.filter_eq_nil_iff]
        intro other hother
        rw [hrows other hother]
        simp
      unfold PrismaOutboxStorage.claimBatch PrismaOutboxStorage.selected
      rw [hfilter]
      split <;> simp
    rw [hnothing] at hentry
    cases hentry
  · intro hclaim
    have hsame := hclaim failThenReturn (by decide) (fun _ _ => trivial)
    revert hsame
    decide

end Retry

end Outbox
end NestBase
