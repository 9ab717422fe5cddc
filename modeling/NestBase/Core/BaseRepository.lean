import NestBase.Core.PowerSyncConflict
import NestBase.Lib.Transition

/-!
# Conflict updates of a repository

`updateWithConflict` reads the row, resolves the client's patch against what it
read, and writes the merged row back.  The delegate assigns exactly the fields
of `data`, and the read and the write are two atomic steps, so other updates of
the row may be committed between them.

The merged row holds every field of the row that was read.  The write therefore
also assigns the fields outside the patch and the protected ones, with the
values of the read: it keeps them if and only if no other update changed one of
them in between (`updateWithConflict_touchesOnlyPatch_iff`).

The rows stand under the id that a where-clause names.  What other writers
assigned since a call's read (`since`), and the row its write found and left
(`Write`), are recorded for the statements only.
-/

namespace NestBase
namespace BaseRepository

open Lib
open PowerSyncConflict

variable {α : Type}

inductive RepositoryError
  | rowNotFound (id : String)
  /-- Prisma's P2025, which `updateWithConflict` does not translate. -/
  | recordNotFound
  deriving DecidableEq

structure ConflictUpdateResult (α : Type) where
  outcome : Outcome
  row : Row α
  rejectedFields : List String
  deriving DecidableEq

/-- The arguments of one `updateWithConflict` call. -/
structure Call (α : Type) where
  id : String
  patch : Row α
  clientUpdatedAt : Option Int
  protectedFields : List String

def Call.conflictInput (call : Call α) (existing : Row α) : Input α where
  clientPatch := call.patch
  clientUpdatedAt := call.clientUpdatedAt
  serverRow := existing
  protectedFields := call.protectedFields

/-- What the resolver decides for the row that was read. -/
def Call.decision (call : Call α) (existing : Row α) : Decision α :=
  resolvePowerSyncConflict (call.conflictInput existing)

/-! ## The delegate -/

abbrev Rows (α : Type) := Record String (Row α)

def findUnique (id : String) (rows : Rows α) : Option (Row α) :=
  rows.get id

/-- Assign the fields of `data` to the row, or fail when there is none. -/
def update (id : String) (data : Row α) (rows : Rows α) : Option (Row α × Rows α) :=
  match rows.get id with
  | none => none
  | some row => some (row.assign data, rows.set id (row.assign data))

/-! ## Calls and other writers, interleaved -/

/-- The row a call's write found, and the row it left. -/
structure Write (α : Type) where
  found : Row α
  updated : Row α

/-- What a call read, and what others assigned to the row since. -/
structure Seen (α : Type) where
  existing : Row α
  since : List (Row α)

inductive Phase (α : Type)
  | called
  /-- Between `findUnique` and `update`. -/
  | deciding (seen : Seen α)
  | returned
      (result : Except RepositoryError (ConflictUpdateResult α))
      (seen : Option (Seen α))
      (write : Option (Write α))

structure World (α : Type) where
  rows : Rows α
  calls : List (Call α × Phase α)

inductive Event (α : Type)
  | call (input : Call α)
  | findUnique (n : Nat)
  | update (n : Nat)
  /-- A committed update of another writer. -/
  | otherUpdate (id : String) (data : Row α)

/-- Another writer's commit, seen from a call that has read the row. -/
def noteCommit (id : String) (data : Row α) (entry : Call α × Phase α) : Call α × Phase α :=
  match entry with
  | (call, .deciding seen) =>
      if call.id = id then (call, .deciding { seen with since := seen.since ++ [data] })
      else (call, .deciding seen)
  | (call, phase) => (call, phase)

/-- `findUnique` and what the call does with its result before it writes. -/
def afterFindUnique (call : Call α) : Option (Row α) → Phase α
  | none => .returned (.error (.rowNotFound call.id)) none none
  | some existing =>
      let decision := call.decision existing
      if decision.outcome.writes then .deciding { existing := existing, since := [] }
      else
        .returned
          (.ok
            { outcome := decision.outcome
              row := existing
              rejectedFields := decision.rejectedFields })
          (some { existing := existing, since := [] }) none

def step (w : World α) : Event α → Option (World α)
  | .call input => some { w with calls := w.calls ++ [(input, .called)] }
  | .findUnique n =>
      match w.calls[n]? with
      | some (call, .called) =>
          some
            { w with
              calls := w.calls.set n (call, afterFindUnique call (findUnique call.id w.rows)) }
      | _ => none
  | .update n =>
      match w.calls[n]? with
      | some (call, .deciding seen) =>
          let decision := call.decision seen.existing
          match w.rows.get call.id, update call.id decision.merged w.rows with
          | some found, some (updated, rows) =>
              some
                { rows := rows
                  calls :=
                    (w.calls.map (noteCommit call.id decision.merged)).set n
                      (call,
                        .returned
                          (.ok
                            { outcome := decision.outcome
                              row := updated
                              rejectedFields := decision.rejectedFields })
                          (some seen) (some { found := found, updated := updated })) }
          | _, _ =>
              some
                { w with
                  calls := w.calls.set n (call, .returned (.error .recordNotFound) (some seen) none) }
      | _ => none
  | .otherUpdate id data =>
      match update id data w.rows with
      | some (_, rows) =>
          some { rows := rows, calls := w.calls.map (noteCommit id data) }
      | none => some w

/-- Any rows, and no call yet. -/
def start (rows : Rows α) : World α where
  rows := rows
  calls := []

/-! ## What a call may touch -/

/-- A field the patch names and that is not protected. -/
def Call.Writable (call : Call α) (field : String) : Prop :=
  field ∈ call.patch.keys ∧ field ∉ call.protectedFields

/-- The value the updates assigned last to a field. -/
def lastAssigned (field : String) (updates : List (Row α)) : Option (Value α) :=
  updates.reverse.findSome? fun data => data.get field

/--
The call changes no field it may not write, and the row it returns after a
write holds what the other writers last assigned to each field outside the patch.
-/
structure TouchesOnlyPatch
    (call : Call α)
    (result : Except RepositoryError (ConflictUpdateResult α))
    (seen : Option (Seen α))
    (write : Option (Write α)) : Prop where
  frame :
    ∀ change, write = some change →
      ∀ field, ¬ call.Writable field → change.updated.get field = change.found.get field
  others :
    ∀ returned s, result = .ok returned → returned.outcome.writes = true → seen = some s →
      ∀ field, field ∉ call.patch.keys → ∀ value, lastAssigned field s.since = some value →
        returned.row.get field = some value

/--
The other writers left every field that the call may not write at the value the
call read; asked only of a call whose read lets it write.
-/
def Undisturbed (call : Call α) (seen : Option (Seen α)) : Prop :=
  ∀ s, seen = some s → (call.decision s.existing).outcome.writes = true →
    ∀ field, ¬ call.Writable field → ∀ value, s.existing.get field = some value →
      ∀ value', lastAssigned field s.since = some value' → value' = value

/-! ## What a call reads and writes along a run -/

/-- The row as the other writers' updates leave it. -/
def disturbed (s : Seen α) : Row α :=
  s.since.foldl Record.assign s.existing

/-- The last update that assigns the field decides, else the row that was read. -/
theorem get_foldl_assign (field : String) (updates : List (Row α)) (row : Row α) :
    (updates.foldl Record.assign row).get field =
      (lastAssigned field updates).or (row.get field) := by
  unfold lastAssigned
  induction updates using List.reverseRecOn with
  | nil => rfl
  | append_singleton updates data ih =>
      rw [List.foldl_append, List.foldl_cons, List.foldl_nil, Record.get_assign, ih,
        List.reverse_append, List.reverse_singleton, List.singleton_append, List.findSome?_cons]
      cases data.get field with
      | none => rfl
      | some value => rfl

/-- The write of a call that read `s`. -/
def Call.writeAfter (call : Call α) (s : Seen α) : Write α where
  found := disturbed s
  updated := (disturbed s).assign (call.decision s.existing).merged

/-- A call that returned wrote nothing, or wrote the merged row over the disturbed one. -/
inductive Settled (call : Call α) :
    Except RepositoryError (ConflictUpdateResult α) → Option (Seen α) → Option (Write α) → Prop
  | missing (error : RepositoryError) : Settled call (.error error) none none
  | kept
      (s : Seen α)
      (result : ConflictUpdateResult α)
      (houtcome : result.outcome = (call.decision s.existing).outcome)
      (hkeeps : (call.decision s.existing).outcome.writes = false) :
      Settled call (.ok result) (some s) none
  | wrote
      (s : Seen α)
      (hwrites : (call.decision s.existing).outcome.writes = true) :
      Settled call
        (.ok
          { outcome := (call.decision s.existing).outcome
            row := (call.writeAfter s).updated
            rejectedFields := (call.decision s.existing).rejectedFields })
        (some s) (some (call.writeAfter s))

/-- What the rows say about a call in each phase. -/
def CallInv (rows : Rows α) : Call α × Phase α → Prop
  | (_, .called) => True
  | (call, .deciding seen) =>
      rows.get call.id = some (disturbed seen) ∧
        (call.decision seen.existing).outcome.writes = true
  | (call, .returned result seen write) => Settled call result seen write

theorem callInv_afterFindUnique (call : Call α) (rows : Rows α) :
    CallInv rows (call, afterFindUnique call (findUnique call.id rows)) := by
  cases hfound : findUnique call.id rows with
  | none => exact Settled.missing _
  | some existing =>
      unfold afterFindUnique
      dsimp only
      split
      · next hwrites => exact ⟨hfound, hwrites⟩
      · next hkeeps => exact Settled.kept { existing := existing, since := [] } _ rfl (by simpa using hkeeps)

/-- A commit keeps what is known of every call that takes note of it. -/
theorem callInv_noteCommit
    {id : String} {data updated : Row α} {rows rows' : Rows α} {entry : Call α × Phase α}
    (hcommit : update id data rows = some (updated, rows'))
    (hinv : CallInv rows entry) :
    CallInv rows' (noteCommit id data entry) := by
  unfold update at hcommit
  split at hcommit
  · cases hcommit
  · next row hrow =>
    obtain ⟨rfl, rfl⟩ := Prod.mk.inj (Option.some.inj hcommit)
    obtain ⟨call, phase⟩ := entry
    cases phase with
    | called => trivial
    | returned result seen write => exact hinv
    | deciding seen =>
        obtain ⟨hread, hwrites⟩ := hinv
        unfold noteCommit
        dsimp only
        split
        · next hid =>
          refine ⟨?_, hwrites⟩
          rw [hid, hrow, Option.some.injEq] at hread
          rw [Record.get_set, if_pos hid.symm, hread]
          simp [disturbed]
        · next hid =>
          refine ⟨?_, hwrites⟩
          rw [Record.get_set, if_neg fun h => hid h.symm]
          exact hread

/-- Every call of the world is as the rows say. -/
def CallsInv (w : World α) : Prop :=
  ∀ entry ∈ w.calls, CallInv w.rows entry

theorem callsInv_set
    {rows : Rows α} {calls : List (Call α × Phase α)} {entry : Call α × Phase α} {n : Nat}
    (hcalls : ∀ other ∈ calls, CallInv rows other)
    (hentry : CallInv rows entry) :
    ∀ other ∈ calls.set n entry, CallInv rows other := by
  intro other hother
  rcases List.mem_or_eq_of_mem_set hother with hold | rfl
  · exact hcalls other hold
  · exact hentry

/-- One event of a call or of another writer keeps the invariant. -/
theorem callsInv_step
    {w w' : World α} {event : Event α}
    (hinv : CallsInv w)
    (hstep : step w event = some w') :
    CallsInv w' := by
  cases event with
  | call input =>
      obtain rfl := Option.some.inj hstep
      intro entry hentry
      rcases List.mem_append.mp hentry with hold | hnew
      · exact hinv entry hold
      · rw [List.mem_singleton.mp hnew]
        trivial
  | findUnique n =>
      simp only [step] at hstep
      split at hstep
      · next call hcall =>
        obtain rfl := Option.some.inj hstep
        exact callsInv_set hinv (callInv_afterFindUnique call w.rows)
      · cases hstep
  | update n =>
      simp only [step] at hstep
      split at hstep
      · next call seen hcall =>
        obtain ⟨hread, hwrites⟩ := hinv _ (List.mem_of_getElem? hcall)
        have hcommit :
            update call.id (call.decision seen.existing).merged w.rows =
              some ((call.writeAfter seen).updated,
                w.rows.set call.id (call.writeAfter seen).updated) := by
          unfold update
          rw [hread]
          rfl
        rw [hread, hcommit] at hstep
        obtain rfl := Option.some.inj hstep
        refine callsInv_set ?_ (Settled.wrote seen hwrites)
        intro other hother
        obtain ⟨entry, hentry, rfl⟩ := List.mem_map.mp hother
        exact callInv_noteCommit hcommit (hinv entry hentry)
      · cases hstep
  | otherUpdate id data =>
      simp only [step] at hstep
      split at hstep
      · next updated rows hcommit =>
        obtain rfl := Option.some.inj hstep
        intro other hother
        obtain ⟨entry, hentry, rfl⟩ := List.mem_map.mp hother
        exact callInv_noteCommit hcommit (hinv entry hentry)
      · obtain rfl := Option.some.inj hstep
        exact hinv

theorem callsInv_of_reaches
    {rows : Rows α} {w : World α}
    (hrun : Reaches step anyEvent (start rows) w) :
    CallsInv w := by
  refine Reaches.invariant hrun ?_ ?_
  · intro entry hentry
    cases hentry
  · intro t event t' hinv _ hstep
    exact callsInv_step hinv hstep

/-! ## The frame of a conflict update -/

/-- The merged row assigns a field outside the patch exactly the value that was read. -/
theorem get_updated
    {call : Call α} {s : Seen α} {field : String}
    (hwrites : (call.decision s.existing).outcome.writes = true)
    (hfield : ¬ call.Writable field) :
    (call.writeAfter s).updated.get field =
      (s.existing.get field).or ((disturbed s).get field) := by
  have hprotected : field ∈ call.patch.keys → field ∈ call.protectedFields := by
    intro hpatch
    by_contra hopen
    exact hfield ⟨hpatch, hopen⟩
  have hmerged :
      (call.decision s.existing).merged =
        mergePatch call.protectedFields s.existing call.patch :=
    merged_of_writes hwrites
  have hkept :
      (mergePatch call.protectedFields s.existing call.patch).get field =
        s.existing.get field :=
    get_mergePatch hprotected
  unfold Call.writeAfter
  rw [Record.get_assign, hmerged, hkept]

/--
In every run, a call changes no protected field and no field outside its patch,
and keeps what others committed to fields outside the patch, if and only if the
others left the fields it may not write at the values the call had read.
-/
theorem updateWithConflict_touchesOnlyPatch_iff
    {rows : Rows α} {w : World α}
    (hrun : Reaches step anyEvent (start rows) w)
    {call : Call α} {result : Except RepositoryError (ConflictUpdateResult α)}
    {seen : Option (Seen α)} {write : Option (Write α)}
    (hcall : (call, Phase.returned result seen write) ∈ w.calls) :
    TouchesOnlyPatch call result seen write ↔ Undisturbed call seen := by
  have hsettled : Settled call result seen write := callsInv_of_reaches hrun _ hcall
  cases hsettled with
  | missing error =>
      constructor
      · rintro - s hseen
        cases hseen
      · intro _
        refine ⟨?_, ?_⟩
        · intro change hchange
          cases hchange
        · intro returned s hresult
          cases hresult
  | kept s returned houtcome hkeeps =>
      constructor
      · rintro - s' hseen hwrites
        obtain rfl := Option.some.inj hseen
        rw [hkeeps] at hwrites
        cases hwrites
      · intro _
        refine ⟨?_, ?_⟩
        · intro change hchange
          cases hchange
        · intro returned' s' hresult hwrites
          obtain rfl := Except.ok.inj hresult
          rw [houtcome, hkeeps] at hwrites
          cases hwrites
  | wrote s hwrites =>
      constructor
      · rintro hpatch s' hseen - field hfield value hvalue value' hvalue'
        obtain rfl := Option.some.inj hseen
        have hframe := hpatch.frame _ rfl field hfield
        rw [get_updated hwrites hfield, hvalue] at hframe
        change some value = (disturbed s).get field at hframe
        rw [disturbed, get_foldl_assign, hvalue'] at hframe
        exact (Option.some.inj hframe).symm
      · intro hkept
        have hfields :
            ∀ field, ¬ call.Writable field →
              (call.writeAfter s).updated.get field = (disturbed s).get field := by
          intro field hfield
          rw [get_updated hwrites hfield, disturbed, get_foldl_assign]
          cases hvalue : s.existing.get field with
          | none => simp
          | some value =>
              cases hlast : lastAssigned field s.since with
              | none => rfl
              | some value' =>
                  rw [hkept s rfl hwrites field hfield value hvalue value' hlast]
                  rfl
        refine ⟨?_, ?_⟩
        · intro change hchange field hfield
          obtain rfl := Option.some.inj hchange
          exact hfields field hfield
        · intro returned s' hresult _ hseen field hfield value hvalue
          obtain rfl := Except.ok.inj hresult
          obtain rfl := Option.some.inj hseen
          have hopen : ¬ call.Writable field := fun h => hfield h.1
          change (call.writeAfter s).updated.get field = some value
          rw [hfields field hopen, disturbed, get_foldl_assign, hvalue]
          rfl

/-! ## A revoked role comes back -/

def memberRow (role : String) : Row String where
  entries :=
    [("id", .other "r1"), ("title", .other "Plan"), ("role", .other role),
      ("updatedAt", .date (some 10))]
  distinct := by simp

def memberRows : Rows String where
  entries := [("r1", memberRow "admin")]
  distinct := by decide

def retitle : Call String where
  id := "r1"
  patch := { entries := [("title", .other "Draft")], distinct := by decide }
  clientUpdatedAt := some 20
  protectedFields := ["role"]

def revokeRole : Row String where
  entries := [("role", .other "guest")]
  distinct := by decide

/-- What `retitle` read, when `since` was committed behind its read. -/
def retitleSeen (since : List (Row String)) : Seen String where
  existing := memberRow "admin"
  since := since

def retitleWrites (since : List (Row String)) : Phase String :=
  .returned
    (.ok
      { outcome := .clientWins
        row := (retitle.writeAfter (retitleSeen since)).updated
        rejectedFields := [] })
    (some (retitleSeen since)) (some (retitle.writeAfter (retitleSeen since)))

theorem retitle_run :
    (runEvents step (start memberRows)
        [.call retitle, .findUnique 0, .otherUpdate "r1" revokeRole, .update 0]).map World.calls =
      some [(retitle, retitleWrites [revokeRole])] := by
  rfl

theorem retitle_undisturbed_run :
    (runEvents step (start memberRows) [.call retitle, .findUnique 0, .update 0]).map World.calls =
      some [(retitle, retitleWrites [])] := by
  rfl

/-- The world a run leads to, read off its calls. -/
theorem exists_world_of_run
    {events : List (Event String)} {calls : List (Call String × Phase String)}
    (hrun : (runEvents step (start memberRows) events).map World.calls = some calls) :
    ∃ w, Reaches step anyEvent (start memberRows) w ∧ w.calls = calls := by
  obtain ⟨w, hw, hcalls⟩ := Option.map_eq_some_iff.mp hrun
  exact ⟨w, reaches_of_runEvents hw, hcalls⟩

/-- Without another writer the retitled row keeps its role. -/
theorem retitle_touchesOnlyPatch :
    ∃ w, Reaches step anyEvent (start memberRows) w ∧
      (retitle, retitleWrites []) ∈ w.calls ∧
      TouchesOnlyPatch retitle
        (.ok
          { outcome := .clientWins
            row := (retitle.writeAfter (retitleSeen [])).updated
            rejectedFields := [] })
        (some (retitleSeen [])) (some (retitle.writeAfter (retitleSeen []))) := by
  obtain ⟨w, hrun, hcalls⟩ := exists_world_of_run retitle_undisturbed_run
  have hmem : (retitle, retitleWrites []) ∈ w.calls := by
    rw [hcalls]
    exact List.mem_singleton.mpr rfl
  have hundisturbed : Undisturbed retitle (some (retitleSeen [])) := by
    rintro s hseen - field - value - value' hlast
    obtain rfl := Option.some.inj hseen
    cases hlast
  exact ⟨w, hrun, hmem, (updateWithConflict_touchesOnlyPatch_iff hrun hmem).mpr hundisturbed⟩

/-- A role revoked between the read and the write is granted again by the write. -/
theorem retitle_regrants_role :
    ¬ ∀ (rows : Rows String) (w : World String),
        Reaches step anyEvent (start rows) w →
        ∀ call result seen write, (call, Phase.returned result seen write) ∈ w.calls →
          TouchesOnlyPatch call result seen write := by
  intro hall
  obtain ⟨w, hrun, hcalls⟩ := exists_world_of_run retitle_run
  have hmem : (retitle, retitleWrites [revokeRole]) ∈ w.calls := by
    rw [hcalls]
    exact List.mem_singleton.mpr rfl
  have hframe := (hall memberRows w hrun retitle _ _ _ hmem).frame _ rfl "role" (by
    rintro ⟨-, hopen⟩
    exact hopen (by decide))
  exact absurd hframe (by decide)

end BaseRepository
end NestBase
