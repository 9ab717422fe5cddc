import NestBase.Core.EmailOutbox

/-!
# One record for each idempotency key

`enqueue` with a key first looks for a row with that key and returns it; else
it appends a new row.  Between the two statements another call may append its
own row with the same key.  The key column is unique, so the later append
rejects, and `enqueue` does not catch this: the caller gets the database error
and not the row that is already there.

The column alone keeps the rows with the key at one.  That every call returns
that row needs that no append comes second (`Uncontested`); the invariant is
`DedupInv`, kept by each statement of `enqueue` (`dedupInv_step`).
-/

namespace NestBase
namespace EmailOutbox

open Lib

section Dedup

variable {Payload : Type}

/-- The rows with the key. -/
def keyRows (key : String) (rows : List (PrismaEmailOutboxRow Payload)) :
    List (PrismaEmailOutboxRow Payload) :=
  rows.filter fun row => decide (row.idempotencyKey = some key)

/-- A table at the start, and nobody active. -/
def worldWithRows (rows : List (PrismaEmailOutboxRow Payload)) (clock : Int) : World Payload :=
  { initialWorld clock with rows := rows }

/-- Only `enqueue` calls that carry the key are active. -/
def EnqueuesKey (key : String) : Event Payload → Prop
  | .clock _ => True
  | .enqueueFind _ input => input.idempotencyKey = some key
  | .enqueueAppend _ _ => True
  | _ => False

/--
An append runs only while no row with the key is stored: none was appended
since its call looked for one.  The id it draws is new.
-/
def Uncontested (key : String) (w : World Payload) : Event Payload → Prop
  | .enqueueAppend _ id => keyRows key w.rows = [] ∧ rowById id w.rows = none
  | _ => True

/-- One row with the key, returned by every call that has ended. -/
structure Deduplicated (key : String) (w : World Payload) : Prop where
  unique : (keyRows key w.rows).length ≤ 1
  returns :
    ∀ q record, w.enqueues q = .returned record →
      (keyRows key w.rows).map toRecord = [record]
  answered : ∀ q, w.enqueues q ≠ .rejected

structure DedupInv (key : String) (w : World Payload) : Prop extends Deduplicated key w where
  /-- A call that is about to append carries the key. -/
  carries :
    ∀ q input, w.enqueues q = .absent input → input.idempotencyKey = some key

/-! ## Statements -/

variable {rows : List (PrismaEmailOutboxRow Payload)}
variable {key : String}

theorem keyRows_eq_nil_iff :
    keyRows key rows = [] ↔ ∀ row ∈ rows, row.idempotencyKey ≠ some key := by
  simp [keyRows, List.filter_eq_nil_iff]

/-- With one row of the key at most, the one found is that row. -/
theorem keyRows_of_findByIdempotencyKey
    {record : EmailOutboxRecord Payload}
    (hunique : (keyRows key rows).length ≤ 1)
    (hfound : findByIdempotencyKey key rows = some record) :
    (keyRows key rows).map toRecord = [record] := by
  unfold findByIdempotencyKey at hfound
  rw [← List.head?_filter, Option.map_eq_some_iff] at hfound
  obtain ⟨row, hrow, rfl⟩ := hfound
  change (keyRows key rows).head? = some row at hrow
  cases hkey : keyRows key rows with
  | nil =>
      rw [hkey] at hrow
      cases hrow
  | cons first rest =>
      rw [hkey] at hrow hunique
      obtain rfl := Option.some.inj hrow
      have hrest : rest = [] := by
        rw [← List.length_eq_zero_iff]
        simp only [List.length_cons] at hunique
        omega
      rw [hrest]
      rfl

/-- An uncontested append succeeds, and its row is the only one with the key. -/
theorem append_of_uncontested
    {id : String} {input : EnqueueInput Payload}
    (hinput : input.idempotencyKey = some key)
    (hkey : keyRows key rows = [])
    (hid : rowById id rows = none)
    (now : Int) :
    append (newRow input id now) rows = some (rows ++ [newRow input id now]) ∧
      keyRows key (rows ++ [newRow input id now]) = [newRow input id now] := by
  have hnone :
      (rows.any fun other =>
        decide (other.idempotencyKey = (newRow input id now).idempotencyKey)) = false := by
    rw [List.any_eq_false]
    intro other hother
    simp only [newRow, hinput, decide_eq_true_eq]
    exact keyRows_eq_nil_iff.mp hkey other hother
  refine ⟨?_, ?_⟩
  · unfold append
    rw [hnone, Bool.and_false, if_neg Bool.false_ne_true]
    exact insertRow_eq_some_iff.mpr ⟨hid, rfl⟩
  · unfold keyRows at hkey ⊢
    rw [List.filter_append, hkey, List.nil_append]
    simp [newRow, hinput]

/-! ## Runs -/

theorem dedupInv_worldWithRows (hunique : (keyRows key rows).length ≤ 1) (clock : Int) :
    DedupInv key (worldWithRows rows clock) where
  unique := hunique
  returns := by
    intro q record hq
    cases hq
  answered := by
    intro q hq
    cases hq
  carries := by
    intro q input hq
    cases hq

/-- Changing one call keeps what the invariant says of the others. -/
theorem DedupInv.setEnqueue
    {w : World Payload} {q : Nat} {enqueue : Enqueue Payload}
    (hinv : DedupInv key w)
    (hreturns :
      ∀ record, enqueue = .returned record → (keyRows key w.rows).map toRecord = [record])
    (hanswered : enqueue ≠ .rejected)
    (hcarries : ∀ input, enqueue = .absent input → input.idempotencyKey = some key) :
    DedupInv key (w.setEnqueue q enqueue) := by
  have hcalls :
      ∀ q', (w.setEnqueue q enqueue).enqueues q' = enqueue ∨
        (w.setEnqueue q enqueue).enqueues q' = w.enqueues q' := by
    intro q'
    by_cases hq : q' = q
    · subst hq
      exact Or.inl (Function.update_self _ _ _)
    · exact Or.inr (Function.update_of_ne hq _ _)
  refine ⟨⟨hinv.unique, ?_, ?_⟩, ?_⟩
  · intro q' record hq'
    rcases hcalls q' with hnew | hold
    · exact hreturns record (hnew.symm.trans hq')
    · exact hinv.returns q' record (hold.symm.trans hq')
  · intro q' hq'
    rcases hcalls q' with hnew | hold
    · exact hanswered (hnew.symm.trans hq')
    · exact hinv.answered q' (hold.symm.trans hq')
  · intro q' input hq'
    rcases hcalls q' with hnew | hold
    · exact hcarries input (hnew.symm.trans hq')
    · exact hinv.carries q' input (hold.symm.trans hq')

theorem dedupInv_step
    {options : WorkerOptions} {w w' : World Payload} {event : Event Payload}
    (hkey : key ≠ "")
    (hinv : DedupInv key w)
    (hevent : EnqueuesKey key event)
    (huncontested : Uncontested key w event)
    (hstep : step options w event = some w') :
    DedupInv key w' := by
  cases stepped_of_step hstep with
  | clock now => exact ⟨⟨hinv.unique, hinv.returns, hinv.answered⟩, hinv.carries⟩
  | enqueueFound q input record hfound =>
      have hinput : input.idempotencyKey = some key := hevent
      rw [existing, hinput, Option.bind_some, if_neg hkey] at hfound
      refine hinv.setEnqueue ?_ ?_ ?_
      · intro record' hrecord'
        obtain rfl := Enqueue.returned.inj hrecord'
        exact keyRows_of_findByIdempotencyKey hinv.unique hfound
      · rintro ⟨⟩
      · rintro input' ⟨⟩
  | enqueueAbsent q input hfound =>
      refine hinv.setEnqueue ?_ ?_ ?_
      · rintro record' ⟨⟩
      · rintro ⟨⟩
      · intro input' hinput'
        rw [← Enqueue.absent.inj hinput']
        exact hevent
  | enqueueAppended q id input rows hcall happend =>
      obtain ⟨hfree, hid⟩ := huncontested
      obtain ⟨happended, hrows⟩ :=
        append_of_uncontested (hinv.carries q input hcall) hfree hid w.clock
      obtain rfl := Option.some.inj (happended.symm.trans happend)
      -- no call has returned yet, since no row with the key was stored
      have hnobody : ∀ q' record, w.enqueues q' ≠ .returned record := by
        intro q' record hq'
        have hreturned := hinv.returns q' record hq'
        rw [hfree] at hreturned
        cases hreturned
      have hstored :
          DedupInv key { w with rows := w.rows ++ [newRow input id w.clock] } := by
        refine ⟨⟨?_, ?_, hinv.answered⟩, hinv.carries⟩
        · rw [hrows]
          rfl
        · intro q' record hq'
          exact absurd hq' (hnobody q' record)
      refine hstored.setEnqueue ?_ ?_ ?_
      · intro record hrecord
        rw [hrows, ← Enqueue.returned.inj hrecord]
        rfl
      · rintro ⟨⟩
      · rintro input' ⟨⟩
  | enqueueRejected q id input hcall happend =>
      obtain ⟨hfree, hid⟩ := huncontested
      obtain ⟨happended, -⟩ :=
        append_of_uncontested (hinv.carries q input hcall) hfree hid w.clock
      rw [happended] at happend
      cases happend
  | list k => exact hevent.elim
  | listFails k => exact hevent.elim
  | claimed k => exact hevent.elim
  | claimLost k => exact hevent.elim
  | claimFails k applied => exact hevent.elim
  | dispatch k => exact hevent.elim
  | dispatchReturns k => exact hevent.elim
  | dispatchThrows k raw => exact hevent.elim
  | markSent k => exact hevent.elim
  | markSentFails k applied raw => exact hevent.elim
  | recordFailure k => exact hevent.elim
  | recordFailureFails k applied => exact hevent.elim
  | endOfLoop k => exact hevent.elim
  | crash k => exact hevent.elim
  | adminFind a action id => exact hevent.elim
  | adminWrite a => exact hevent.elim

/--
In every run of `enqueue` calls with the same non-empty key whose appends are
uncontested, one row with the key is stored and every call that ends returns it.
-/
theorem enqueue_deduplicates
    (options : WorkerOptions)
    {key : String}
    (hkey : key ≠ "")
    {rows : List (PrismaEmailOutboxRow Payload)}
    (hunique : (keyRows key rows).length ≤ 1)
    {clock : Int} {w : World Payload}
    (hrun :
      Reaches (step options) (fun w event => EnqueuesKey key event ∧ Uncontested key w event)
        (worldWithRows rows clock) w) :
    Deduplicated key w := by
  have hinv : DedupInv key w := by
    refine Reaches.invariant hrun (dedupInv_worldWithRows hunique clock) ?_
    intro t event t' ht hguard hstep
    exact dedupInv_step hkey ht hguard.1 hguard.2 hstep
  exact hinv.toDeduplicated

/-! ## Two calls at once -/

def welcomeInput : EnqueueInput Unit where
  kind := .send
  payload := ()
  idempotencyKey := some "welcome"

def outboxOptions : WorkerOptions where
  retry := DEFAULT_EMAIL_OUTBOX_RETRY
  batchSize := 25

abbrev StepsOf (key : String) (w : World Unit) (event : Event Unit) : Prop :=
  EnqueuesKey key event ∧ Uncontested key w event

/-- One call after the other: the second returns the row of the first. -/
theorem enqueue_deduplicates_inTurn :
    ∃ w : World Unit, Deduplicated "welcome" w ∧
      w.enqueues 0 = .returned (toRecord (newRow welcomeInput "m0" 0)) ∧
      w.enqueues 1 = .returned (toRecord (newRow welcomeInput "m0" 0)) := by
  have hfind : Reaches (step outboxOptions) (StepsOf "welcome") (worldWithRows [] 0) _ :=
    Reaches.tail (e := .enqueueFind 0 welcomeInput) (Reaches.refl _) ⟨rfl, trivial⟩ rfl
  have happend : Reaches (step outboxOptions) (StepsOf "welcome") (worldWithRows [] 0) _ :=
    Reaches.tail (e := .enqueueAppend 0 "m0") hfind ⟨trivial, rfl, rfl⟩ rfl
  have hsecond : Reaches (step outboxOptions) (StepsOf "welcome") (worldWithRows [] 0) _ :=
    Reaches.tail (e := .enqueueFind 1 welcomeInput) happend ⟨rfl, trivial⟩ rfl
  exact ⟨_, enqueue_deduplicates outboxOptions (by decide) (by decide) hsecond, rfl, rfl⟩

/-- Both calls look before either appends: the second one rejects. -/
theorem enqueue_rejects_second :
    ¬ ∀ (options : WorkerOptions) (key : String), key ≠ "" →
        ∀ (rows : List (PrismaEmailOutboxRow Unit)), (keyRows key rows).length ≤ 1 →
        ∀ (clock : Int) (w : World Unit),
          Reaches (step options) (fun _ event => EnqueuesKey key event)
            (worldWithRows rows clock) w →
          Deduplicated key w := by
  intro hall
  have hlook :
      Reaches (step outboxOptions) (fun _ event => EnqueuesKey "welcome" event)
        (worldWithRows [] 0) _ :=
    Reaches.tail (e := .enqueueFind 0 welcomeInput) (Reaches.refl _) rfl rfl
  have hlook' :
      Reaches (step outboxOptions) (fun _ event => EnqueuesKey "welcome" event)
        (worldWithRows [] 0) _ :=
    Reaches.tail (e := .enqueueFind 1 welcomeInput) hlook rfl rfl
  have happend :
      Reaches (step outboxOptions) (fun _ event => EnqueuesKey "welcome" event)
        (worldWithRows [] 0) _ :=
    Reaches.tail (e := .enqueueAppend 0 "m0") hlook' trivial rfl
  have hreject :
      Reaches (step outboxOptions) (fun _ event => EnqueuesKey "welcome" event)
        (worldWithRows [] 0) _ :=
    Reaches.tail (e := .enqueueAppend 1 "m1") happend trivial rfl
  exact (hall outboxOptions "welcome" (by decide) [] (by decide) 0 _ hreject).answered 1 rfl

end Dedup

end EmailOutbox
end NestBase
