import NestBase.Core.EmailOutbox

/-!
# Terminal states of the email outbox

`SENT` and `CANCELLED` are meant to be final.  The admin statements and
`claim` respect this by their `WHERE` clauses.  The finishing writes
`markSent` and `markDeadLetter` address the row by id alone, so a tick whose
record was cancelled while the driver was sending it overwrites the
cancellation.

In every reachable state only `PENDING` rows carry a claim
(`claimedPending_of_reaches`).  A finishing write that still finds its own
claim on the row therefore meets a `PENDING` row, and
`terminalStatesFinal_of_finishesOwnClaim` holds for all runs in which every
`markSent` and `markDeadLetter` does so.
-/

namespace NestBase
namespace EmailOutbox

open Lib

section Terminal

variable {Payload : Type}

/-! ## What one event does to the table -/

theorem StorageWrite.id_change (write : StorageWrite) (row : PrismaEmailOutboxRow Payload) :
    (write.change row).id = row.id := by
  cases write <;> rfl

/-- A statement changes the row with its id when the `WHERE` clause admits it. -/
theorem rowById_apply
    (write : StorageWrite)
    (id : String)
    (rows : List (PrismaEmailOutboxRow Payload)) :
    rowById id (write.apply rows) =
      (rowById id rows).map fun row =>
        if write.matching row then write.change row else row :=
  findRow_updateMany write.matching write.id_change id rows

/-- A statement that matches no row leaves the table alone. -/
theorem StorageWrite.apply_eq_self
    {write : StorageWrite} {rows : List (PrismaEmailOutboxRow Payload)}
    (h : write.succeeds rows = false) :
    write.apply rows = rows := by
  simp only [StorageWrite.succeeds, updateCount, decide_eq_false_iff_not,
    List.countP_pos_iff, not_exists, not_and] at h
  unfold StorageWrite.apply updateMany
  conv_rhs => rw [← List.map_id rows]
  refine List.map_congr_left ?_
  intro row hrow
  simp [h row hrow]

/-- The statement an event performs, if it performs one. -/
def performed (w : World Payload) : Event Payload → Option StorageWrite
  | .claim k | .claimFails k true =>
      match w.ticks k with
      | .looping (candidate :: _) _ => some (.claim candidate.id w.clock)
      | _ => none
  | .markSent k | .markSentFails k true _ =>
      match w.ticks k with
      | .working candidate _ (.delivered at_) _ _ => some (.markSent candidate.id at_)
      | _ => none
  | .recordFailure k | .recordFailureFails k true =>
      match w.ticks k with
      | .working _ _ (.failing write) _ _ => some write
      | _ => none
  | .adminWrite a =>
      match w.admins a with
      | .allowed action id => some (adminStorageWrite action id)
      | _ => none
  | _ => none

@[simp] theorem World.rows_recordOutcome (w : World Payload) (write : StorageWrite) :
    (w.recordOutcome write).rows = w.rows := by
  cases write <;> rfl

variable {w : World Payload}
variable {options : WorkerOptions}

/-- An event appends a new row, performs one statement, or leaves the table alone. -/
theorem rows_step {w' : World Payload} {e : Event Payload} (hstep : step options w e = some w') :
    (∃ input id, append (newRow input id w.clock) w.rows = some w'.rows) ∨
    (∃ write, performed w e = some write ∧ w'.rows = write.apply w.rows) ∨
    w'.rows = w.rows := by
  cases stepped_of_step hstep with
  | enqueueAppended q id input rows hcall happend => exact Or.inl ⟨input, id, happend⟩
  | claimed k candidate todo result htick hsucceeds =>
      exact Or.inr (Or.inl ⟨.claim candidate.id w.clock, by simp [performed, htick], rfl⟩)
  | claimLost k candidate todo result htick hfails =>
      exact Or.inr (Or.inl ⟨.claim candidate.id w.clock, by simp [performed, htick],
        (StorageWrite.apply_eq_self hfails).symm⟩)
  | claimFails k applied candidate todo result htick =>
      cases applied with
      | true => exact Or.inr (Or.inl ⟨_, by simp [performed, htick], rfl⟩)
      | false => exact Or.inr (Or.inr rfl)
  | markSent k candidate claimedAt at_ todo result htick =>
      exact Or.inr (Or.inl ⟨_, by simp [performed, htick], rfl⟩)
  | markSentFails k applied raw candidate claimedAt at_ todo result htick =>
      cases applied with
      | true => exact Or.inr (Or.inl ⟨_, by simp [performed, htick], rfl⟩)
      | false => exact Or.inr (Or.inr rfl)
  | recordFailure k candidate claimedAt write todo result htick =>
      exact Or.inr (Or.inl ⟨write, by simp [performed, htick],
        (w.write write).rows_recordOutcome write⟩)
  | recordFailureFails k applied candidate claimedAt write todo result htick =>
      cases applied with
      | true => exact Or.inr (Or.inl ⟨write, by simp [performed, htick], rfl⟩)
      | false => exact Or.inr (Or.inr rfl)
  | adminWrite a action id hadmin =>
      exact Or.inr (Or.inl ⟨_, by simp [performed, hadmin], rfl⟩)
  | _ => exact Or.inr (Or.inr rfl)

variable {row : PrismaEmailOutboxRow Payload}

/-- A successful append only adds its row. -/
theorem rowById_append
    {rows rows' : List (PrismaEmailOutboxRow Payload)}
    (h : append row rows = some rows')
    (id : String) :
    rowById row.id rows = none ∧
    rowById id rows' = if row.id = id then some row else rowById id rows := by
  unfold append at h
  split at h
  · cases h
  · exact ⟨(insertRow_eq_some_iff.mp h).1, findRow_insertRow h id⟩

/-! ## Only pending rows are claimed -/

/-- A claimed row is pending. -/
def ClaimedPending (w : World Payload) : Prop :=
  ∀ id row,
    rowById id w.rows = some row →
    row.claimedAt ≠ none →
    row.status = .PENDING

/-- Every statement clears the claim, except `claim` itself, which needs a pending row. -/
theorem claimedPending_change
    {write : StorageWrite}
    (hadmits : write.admits row = true)
    (hclaimed : (write.change row).claimedAt ≠ none) :
    (write.change row).status = .PENDING := by
  cases write with
  | claim id claimedAt =>
      simp only [StorageWrite.admits, Bool.and_eq_true, decide_eq_true_eq] at hadmits
      exact hadmits.1
  | _ => simp [StorageWrite.change] at hclaimed

theorem claimedPending_step
    (w : World Payload) (e : Event Payload) (w' : World Payload)
    (hinv : ClaimedPending w)
    (hstep : step options w e = some w') :
    ClaimedPending w' := by
  intro id row hrow hclaimed
  rcases rows_step hstep with ⟨input, newId, happend⟩ | ⟨write, -, hrows⟩ | hrows
  · rw [(rowById_append happend id).2] at hrow
    split at hrow
    · cases hrow
      simp [newRow] at hclaimed
    · exact hinv id row hrow hclaimed
  · rw [hrows, rowById_apply, Option.map_eq_some_iff] at hrow
    obtain ⟨before, hbefore, rfl⟩ := hrow
    split at hclaimed
    · next hmatch =>
      simp only [hmatch, if_true]
      simp only [StorageWrite.matching, Bool.and_eq_true] at hmatch
      exact claimedPending_change hmatch.2 hclaimed
    · next hmatch =>
      simp only [hmatch, Bool.false_eq_true, if_false]
      exact hinv id before hbefore hclaimed
  · rw [hrows] at hrow
    exact hinv id row hrow hclaimed

theorem claimedPending_of_reaches
    {guard : World Payload → Event Payload → Prop} {clock : Int}
    (hrun : Reaches (step options) guard (initialWorld clock) w) :
    ClaimedPending w := by
  refine hrun.invariant ?_ ?_
  · intro id row hrow
    simp [rowById, findRow, initialWorld] at hrow
  · intro t e t' hinv _ hstep
    exact claimedPending_step t e t' hinv hstep

/-! ## Terminal states -/

/-- The row with this id has this status. -/
def StatusIs (w : World Payload) (id : String) (status : DbStatus) : Prop :=
  ∃ row, rowById id w.rows = some row ∧ row.status = status

/-- Once `SENT`, always `SENT`; once `CANCELLED`, always `CANCELLED`. -/
def TerminalStatesFinal
    (options : WorkerOptions)
    (guard : World Payload → Event Payload → Prop) : Prop :=
  ∀ clock w w' id status,
    Reaches (step options) guard (initialWorld clock) w →
    Reaches (step options) guard w w' →
    status = .SENT ∨ status = .CANCELLED →
    StatusIs w id status →
    StatusIs w' id status

/-- The two finishing writes that set a status without testing it. -/
def StorageWrite.setsStatusUnchecked : StorageWrite → Bool
  | markSent _ _ => true
  | markDeadLetter _ _ _ => true
  | _ => false

/-- The claim stamp of the tick that performs an event. -/
def ownClaim (w : World Payload) : Event Payload → Option Int
  | .markSent k | .markSentFails k _ _ | .recordFailure k | .recordFailureFails k _ =>
      match w.ticks k with
      | .working _ claimedAt _ _ _ => some claimedAt
      | _ => none
  | _ => none

/--
A `markSent` or `markDeadLetter` finds, on the row it writes, the claim that
its own tick put there.
-/
def FinishesOwnClaim (w : World Payload) (e : Event Payload) : Prop :=
  ∀ write,
    performed w e = some write →
    write.setsStatusUnchecked = true →
    ∀ row,
      rowById write.id w.rows = some row →
      row.claimedAt = ownClaim w e ∧ row.claimedAt ≠ none

/-- A statement with a status test, or a transient failure, keeps a terminal status. -/
theorem status_change_of_terminal
    {write : StorageWrite}
    (hchecked : write.setsStatusUnchecked = false)
    (hadmits : write.admits row = true)
    (hterminal : row.status = .SENT ∨ row.status = .CANCELLED) :
    (write.change row).status = row.status := by
  cases write <;> rcases hterminal with hstatus | hstatus <;>
    simp_all [StorageWrite.setsStatusUnchecked, StorageWrite.admits, StorageWrite.change]

/-- One admitted event keeps every terminal status. -/
theorem statusIs_step
    {w' : World Payload} {e : Event Payload} {id : String} {status : DbStatus}
    (hinv : ClaimedPending w)
    (hown : FinishesOwnClaim w e)
    (hterminal : status = .SENT ∨ status = .CANCELLED)
    (hstep : step options w e = some w')
    (hstatus : StatusIs w id status) :
    StatusIs w' id status := by
  obtain ⟨row, hrow, rfl⟩ := hstatus
  rcases rows_step hstep with ⟨input, newId, happend⟩ | ⟨write, hwrite, hrows⟩ | hrows
  · obtain ⟨hfree, hfound⟩ := rowById_append happend id
    have hne : newId ≠ id := by
      intro heq
      subst heq
      simp only [newRow] at hfree
      rw [hfree] at hrow
      cases hrow
    refine ⟨row, ?_, rfl⟩
    rw [hfound]
    simpa [newRow, hne] using hrow
  · unfold StatusIs
    rw [hrows, rowById_apply, hrow]
    refine ⟨_, rfl, ?_⟩
    show (if write.matching row then write.change row else row).status = row.status
    split
    · next hmatch =>
      simp only [StorageWrite.matching, Bool.and_eq_true, decide_eq_true_eq] at hmatch
      have hid : row.id = id := key_of_findRow hrow
      cases hchecked : write.setsStatusUnchecked with
      | false => exact status_change_of_terminal hchecked hmatch.2 hterminal
      | true =>
          -- A terminal row carries no claim, so no tick finds its own there.
          have hclaim :=
            (hown write hwrite hchecked row (by rw [← hmatch.1, hid]; exact hrow)).2
          have hpending := hinv id row hrow hclaim
          rw [hpending] at hterminal
          simp at hterminal
    · rfl
  · exact ⟨row, by rw [hrows]; exact hrow, rfl⟩

theorem terminalStatesFinal_of_finishesOwnClaim (options : WorkerOptions) :
    @TerminalStatesFinal Payload options FinishesOwnClaim := by
  intro clock w w' id status hreach hrun hterminal hstatus
  have hinv := claimedPending_of_reaches hreach
  refine hrun.preorder (I := ClaimedPending)
    (R := fun t t' => StatusIs t id status → StatusIs t' id status)
    hinv ?_ ?_ ?_ ?_ hstatus
  · intro t e t' ht _ hstep
    exact claimedPending_step t e t' ht hstep
  · exact fun _ h => h
  · exact fun _ _ _ hfirst hsecond h => hsecond (hfirst h)
  · intro t e t' ht hown hstep
    exact statusIs_step ht hown hterminal hstep

/-! ## A cancelled record that is sent -/

def mailInput : EnqueueInput Unit where
  kind := .send
  payload := ()
  idempotencyKey := none

def defaultOptions : WorkerOptions where
  retry := DEFAULT_EMAIL_OUTBOX_RETRY
  batchSize := 25

/-- The operator cancels the record while the driver is sending it. -/
def cancelWhileSending : List (Event Unit) :=
  [.enqueueFind 0 mailInput, .enqueueAppend 0 "m",
    .list 0, .claim 0, .dispatch 0,
    .adminFind 0 .cancel "m", .adminWrite 0]

theorem not_terminalStatesFinal_cancelWhileSending :
    ¬ @TerminalStatesFinal Unit defaultOptions anyEvent := by
  intro h
  obtain ⟨w, hrun, hcancelled⟩ :
      ∃ w, runEvents (step defaultOptions) (initialWorld 0) cancelWhileSending = some w ∧
        StatusIs w "m" .CANCELLED := by
    refine ⟨_, rfl, ?_⟩
    exact ⟨_, rfl, rfl⟩
  obtain ⟨w', hrest, hsent⟩ :
      ∃ w', runEvents (step defaultOptions) w [.dispatchReturns 0, .markSent 0] = some w' ∧
        StatusIs w' "m" .SENT := by
    cases hrun
    refine ⟨_, rfl, ?_⟩
    exact ⟨_, rfl, rfl⟩
  obtain ⟨row, hrow, hstatus⟩ :=
    h 0 w w' "m" .CANCELLED (reaches_of_runEvents hrun) (reaches_of_runEvents hrest)
      (Or.inr rfl) hcancelled
  obtain ⟨sentRow, hsentRow, hsentStatus⟩ := hsent
  rw [hrow] at hsentRow
  cases hsentRow
  rw [hstatus] at hsentStatus
  cases hsentStatus

end Terminal

end EmailOutbox
end NestBase
