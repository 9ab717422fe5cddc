import NestBase.Lib.OrderedMap

/-!
# The in-process queue

`InProcessQueue` stands in for a BullMQ queue and its worker when there is no
Redis.  `scheduleProcess` appends one `processOne` step to a chain of promises,
so the steps run one after the other.  A step takes the oldest pending job,
awaits the handler, and schedules the next step while jobs are pending.

A step that finds the queue stopped or without a handler returns at once and
schedules nothing.  `start` on a running queue does nothing, and `setHandler`
never schedules: the steps that are gone do not come back.

`Attended` says that a running queue with a handler and pending jobs has a step
on its way.  Each operation keeps it, `setHandler` under a condition.
-/

namespace NestBase
namespace Jobs

open Lib

inductive JobState
  | created
  | active
  | completed
  | failed
  | retry
deriving DecidableEq, Repr

variable {α : Type}

structure JobRecord (α : Type) where
  data : α
  attemptsMade : Nat
  failedReason : Option String
  state : JobState
deriving DecidableEq

structure InProcessQueue (α : Type) where
  records : Record String (JobRecord α)
  pendingIds : List String
  /-- A handler is set. -/
  handler : Bool
  running : Bool
  /-- The steps of `inFlight` that have not started. -/
  scheduled : Nat
  /-- The job whose handler is awaited. -/
  executing : Option String
  /-- The jobs whose handler was called, in order; recorded for the statements. -/
  ran : List String
deriving DecidableEq

namespace InProcessQueue

def create : InProcessQueue α where
  records := Record.empty
  pendingIds := []
  handler := false
  running := false
  scheduled := 0
  executing := none
  ran := []

def scheduleProcess (q : InProcessQueue α) : InProcessQueue α :=
  { q with scheduled := q.scheduled + 1 }

def setHandler (q : InProcessQueue α) : InProcessQueue α :=
  { q with handler := true }

def start (q : InProcessQueue α) : InProcessQueue α :=
  if q.running then q else { q with running := true }.scheduleProcess

def stop (q : InProcessQueue α) : InProcessQueue α :=
  { q with running := false }

def add (q : InProcessQueue α) (id : String) (data : α) (attemptsMade : Nat) : InProcessQueue α :=
  let record : JobRecord α :=
    { data := data, attemptsMade := attemptsMade, failedReason := none, state := .created }
  let added :=
    { q with
      records := q.records.set id record
      pendingIds := q.pendingIds ++ [id] }
  if q.running then added.scheduleProcess else added

/-- The next step of the chain, up to its await. -/
def processOne (q : InProcessQueue α) : InProcessQueue α :=
  let begun := { q with scheduled := q.scheduled - 1 }
  if !q.running || !q.handler then begun
  else
    match q.pendingIds with
    | [] => begun
    | id :: rest =>
        if id = "" then { begun with pendingIds := rest }
        else
          match q.records.get id with
          | none => { begun with pendingIds := rest }
          | some record =>
              { begun with
                records := q.records.set id { record with state := .active }
                pendingIds := rest
                executing := some id
                ran := q.ran ++ [id] }

def EVICT_THRESHOLD : Nat := 2000

def EVICT_BATCH : Nat := 500

def isTerminal (record : JobRecord α) : Bool :=
  decide (record.state = .completed) || decide (record.state = .failed)

/-- The oldest finished jobs, when there are too many records. -/
def evicted (records : Record String (JobRecord α)) : List String :=
  if records.entries.length ≤ EVICT_THRESHOLD then []
  else ((records.entries.filter fun entry => isTerminal entry.2).map Prod.fst).take EVICT_BATCH

def evictOldEntries (q : InProcessQueue α) : InProcessQueue α :=
  { q with records := q.records.restrict fun id => decide (id ∉ evicted q.records) }

/-- What a step writes when the handler resolves (`none`) or rejects with a message. -/
def finished (failure : Option String) (record : JobRecord α) : JobRecord α :=
  match failure with
  | none => { record with state := .completed }
  | some message => { record with state := .failed, failedReason := some message }

/-- The rest of the step once its handler has settled. -/
def settle (q : InProcessQueue α) (id : String) (failure : Option String) : InProcessQueue α :=
  let records :=
    match q.records.get id with
    | none => q.records
    | some record => q.records.set id (finished failure record)
  let settled := { q with records := records, executing := none }.evictOldEntries
  if q.running && !q.pendingIds.isEmpty then settled.scheduleProcess else settled

/-! ## Invariants -/

/-- No job is taken twice, and a pending job has its record. -/
structure Inv (q : InProcessQueue α) : Prop where
  nodup : (q.ran ++ q.pendingIds).Nodup
  stored :
    ∀ id ∈ q.pendingIds, id ≠ "" ∧ ∃ record, q.records.get id = some record ∧
      record.state = .created
  executed : ∀ id, q.executing = some id → id ∈ q.ran

/-- A running queue with a handler and pending jobs has a step scheduled or executing. -/
def Attended (q : InProcessQueue α) : Prop :=
  q.running = true → q.handler = true → q.pendingIds ≠ [] →
    0 < q.scheduled ∨ q.executing ≠ none

theorem inv_create : (create : InProcessQueue α).Inv where
  nodup := List.nodup_nil
  stored := by
    intro id hid
    cases hid
  executed := by
    intro id hid
    cases hid

variable {q : InProcessQueue α}

theorem Inv.scheduleProcess (hinv : q.Inv) : q.scheduleProcess.Inv :=
  ⟨hinv.nodup, hinv.stored, hinv.executed⟩

theorem attended_scheduleProcess (q : InProcessQueue α) : q.scheduleProcess.Attended := by
  intro _ _ _
  exact Or.inl (Nat.succ_pos _)

theorem Inv.setHandler (hinv : q.Inv) : q.setHandler.Inv :=
  ⟨hinv.nodup, hinv.stored, hinv.executed⟩

/-- No jobs wait for a handler behind a chain that has run out. -/
def HandlerInTime (q : InProcessQueue α) : Prop :=
  q.running = true → q.handler = false → q.pendingIds ≠ [] →
    0 < q.scheduled ∨ q.executing ≠ none

theorem Attended.setHandler (hattended : q.Attended) (hintime : q.HandlerInTime) :
    q.setHandler.Attended := by
  intro hrunning _ hpending
  cases hhandler : q.handler with
  | true => exact hattended hrunning hhandler hpending
  | false => exact hintime hrunning hhandler hpending

theorem Inv.start (hinv : q.Inv) : q.start.Inv := by
  unfold InProcessQueue.start
  split
  · exact hinv
  · exact ⟨hinv.nodup, hinv.stored, hinv.executed⟩

theorem Attended.start (hattended : q.Attended) : q.start.Attended := by
  unfold InProcessQueue.start
  split
  · exact hattended
  · exact attended_scheduleProcess _

theorem Inv.stop (hinv : q.Inv) : q.stop.Inv :=
  ⟨hinv.nodup, hinv.stored, hinv.executed⟩

theorem attended_stop (q : InProcessQueue α) : q.stop.Attended := by
  intro hrunning
  cases hrunning

/-- An id that is new to the queue is appended to the pending ones. -/
theorem Inv.add
    {id : String} {data : α} {attemptsMade : Nat}
    (hinv : q.Inv)
    (hid : id ≠ "")
    (hnew : id ∉ q.ran ++ q.pendingIds) :
    (q.add id data attemptsMade).Inv := by
  have hadded :
      Inv
        { q with
          records :=
            q.records.set id
              { data := data, attemptsMade := attemptsMade, failedReason := none,
                state := .created }
          pendingIds := q.pendingIds ++ [id] } := by
    refine ⟨?_, ?_, hinv.executed⟩
    · dsimp only
      rw [← List.append_assoc]
      exact List.Nodup.append hinv.nodup (List.nodup_singleton id) (by simpa using hnew)
    · intro other hother
      dsimp only at hother ⊢
      rcases List.mem_append.mp hother with hold | hsame
      · obtain ⟨hne, record, hrecord, hstate⟩ := hinv.stored other hold
        have hdiff : id ≠ other := by
          rintro rfl
          exact hnew (List.mem_append_right _ hold)
        refine ⟨hne, record, ?_, hstate⟩
        rw [Record.get_set, if_neg hdiff]
        exact hrecord
      · obtain rfl := List.mem_singleton.mp hsame
        have hrecord := Record.get_set q.records other other
          { data := data, attemptsMade := attemptsMade, failedReason := none, state := .created }
        rw [if_pos rfl] at hrecord
        exact ⟨hid, _, hrecord, rfl⟩
  unfold InProcessQueue.add
  dsimp only
  split
  · exact hadded.scheduleProcess
  · exact hadded

theorem attended_add (q : InProcessQueue α) (id : String) (data : α) (attemptsMade : Nat) :
    (q.add id data attemptsMade).Attended := by
  unfold InProcessQueue.add
  dsimp only
  split
  · exact attended_scheduleProcess _
  · next hstopped =>
    intro hrunning
    exact absurd hrunning hstopped

/-- A step of a running queue with a handler takes the oldest pending job. -/
theorem processOne_cons
    {id : String} {rest : List String}
    (hinv : q.Inv)
    (hrunning : q.running = true)
    (hhandler : q.handler = true)
    (hpending : q.pendingIds = id :: rest) :
    ∃ records : Record String (JobRecord α),
      q.processOne =
        { q with
          records := records
          pendingIds := rest
          scheduled := q.scheduled - 1
          executing := some id
          ran := q.ran ++ [id] } ∧
      ∀ other, other ≠ id → records.get other = q.records.get other := by
  have hmem : id ∈ q.pendingIds := by
    rw [hpending]
    exact List.mem_cons_self
  obtain ⟨hid, record, hrecord, -⟩ := hinv.stored id hmem
  refine ⟨q.records.set id { record with state := .active }, ?_, ?_⟩
  · unfold processOne
    simp only [hrunning, hhandler, hpending, hrecord, if_neg hid, Bool.not_true, Bool.or_self,
      Bool.false_eq_true, if_false]
  · intro other hother
    rw [Record.get_set, if_neg (Ne.symm hother)]

/-- A step that takes no job changes the chain only. -/
theorem processOne_idle (hidle : q.running = true → q.handler = true → q.pendingIds = []) :
    q.processOne = { q with scheduled := q.scheduled - 1 } := by
  unfold processOne
  dsimp only
  split
  · rfl
  · next hactive =>
    have hboth : q.running = true ∧ q.handler = true := by
      simpa using hactive
    rw [hidle hboth.1 hboth.2]

/-- A step takes no job or the oldest pending one. -/
theorem processOne_cases (hinv : q.Inv) :
    ((q.running = true → q.handler = true → q.pendingIds = []) ∧
        q.processOne = { q with scheduled := q.scheduled - 1 }) ∨
      ∃ id rest, ∃ records : Record String (JobRecord α),
        q.pendingIds = id :: rest ∧
          q.processOne =
            { q with
              records := records
              pendingIds := rest
              scheduled := q.scheduled - 1
              executing := some id
              ran := q.ran ++ [id] } ∧
          ∀ other, other ≠ id → records.get other = q.records.get other := by
  by_cases hidle : q.running = true → q.handler = true → q.pendingIds = []
  · exact .inl ⟨hidle, processOne_idle hidle⟩
  · push Not at hidle
    obtain ⟨hrunning, hhandler, hpending⟩ := hidle
    obtain ⟨id, rest, hcons⟩ := List.exists_cons_of_ne_nil hpending
    obtain ⟨records, hprocess, hrecords⟩ := processOne_cons hinv hrunning hhandler hcons
    exact .inr ⟨id, rest, records, hcons, hprocess, hrecords⟩

theorem Inv.processOne (hinv : q.Inv) : q.processOne.Inv := by
  obtain ⟨-, hidle⟩ | ⟨id, rest, records, hcons, hprocess, hrecords⟩ := processOne_cases hinv
  · rw [hidle]
    exact ⟨hinv.nodup, hinv.stored, hinv.executed⟩
  · have hnodup := hinv.nodup
    rw [hcons] at hnodup
    rw [hprocess]
    refine ⟨?_, ?_, ?_⟩
    · simpa using hnodup
    · intro other hother
      have hne : other ≠ id := by
        rintro rfl
        have htail := (List.nodup_append.mp hnodup).2.1
        exact (List.nodup_cons.mp htail).1 hother
      dsimp only
      rw [hrecords other hne]
      exact hinv.stored other (by rw [hcons]; exact List.mem_cons_of_mem _ hother)
    · intro other hother
      obtain rfl := Option.some.inj hother
      exact List.mem_append_right _ (List.mem_singleton.mpr rfl)

theorem attended_processOne (hinv : q.Inv) : q.processOne.Attended := by
  obtain ⟨hnone, hidle⟩ | ⟨id, rest, records, -, hprocess, -⟩ := processOne_cases hinv
  · rw [hidle]
    intro hrunning hhandler hpending
    exact absurd (hnone hrunning hhandler) hpending
  · rw [hprocess]
    intro _ _ _
    exact Or.inr (by simp)

/-- Eviction removes finished jobs only. -/
theorem get_evictOldEntries
    {records : Record String (JobRecord α)} {id : String} {record : JobRecord α}
    (hrecord : records.get id = some record)
    (hstate : isTerminal record = false) :
    (records.restrict fun other => decide (other ∉ evicted records)).get id = some record := by
  have hkept : id ∉ evicted records := by
    intro hmem
    unfold evicted at hmem
    split at hmem
    · cases hmem
    · obtain ⟨entry, hentry, rfl⟩ := List.mem_map.mp (List.mem_of_mem_take hmem)
      obtain ⟨hmem', hterminal⟩ := List.mem_filter.mp hentry
      have hfound := OrderedMap.get_of_mem records.distinct hmem'
      have hsame : entry.2 = record := Option.some.inj (hfound.symm.trans hrecord)
      rw [hsame, hstate] at hterminal
      cases hterminal
  rw [Record.get_restrict]
  simp only [hkept, not_false_eq_true, decide_true, if_true]
  exact hrecord

theorem Inv.settle
    {id : String} {failure : Option String}
    (hinv : q.Inv)
    (hexecuting : q.executing = some id) :
    (q.settle id failure).Inv := by
  have hran := hinv.executed id hexecuting
  have hdone : id ∉ q.pendingIds := by
    intro hpending
    exact (List.disjoint_of_nodup_append hinv.nodup) hran hpending
  have hsettled :
      ∀ records : Record String (JobRecord α),
        (∀ other, other ≠ id → records.get other = q.records.get other) →
        Inv (evictOldEntries { q with records := records, executing := none }) := by
    intro records hrecords
    refine ⟨hinv.nodup, ?_, ?_⟩
    · intro other hother
      have hne : other ≠ id := by
        rintro rfl
        exact hdone hother
      obtain ⟨hempty, record, hrecord, hstate⟩ := hinv.stored other hother
      refine ⟨hempty, record, ?_, hstate⟩
      refine get_evictOldEntries ((hrecords other hne).trans hrecord) ?_
      simp [isTerminal, hstate]
    · intro other hother
      cases hother
  have hrecords :
      ∀ other, other ≠ id →
        (match q.records.get id with
          | none => q.records
          | some record => q.records.set id (finished failure record)).get other =
          q.records.get other := by
    intro other hother
    split
    · rfl
    · rw [Record.get_set, if_neg (Ne.symm hother)]
  unfold InProcessQueue.settle
  dsimp only
  split
  · exact (hsettled _ hrecords).scheduleProcess
  · exact hsettled _ hrecords

theorem attended_settle (q : InProcessQueue α) (id : String) (failure : Option String) :
    (q.settle id failure).Attended := by
  unfold InProcessQueue.settle
  dsimp only
  split
  · exact attended_scheduleProcess _
  · next hidle =>
    intro hrunning _ hpending
    refine absurd ?_ hidle
    have hpending : q.pendingIds ≠ [] := hpending
    have hrunning : q.running = true := hrunning
    simp [hrunning, hpending]

/-! ## What an operation keeps -/

/-- The jobs of the queue: those that were taken, and those that wait. -/
def jobs (q : InProcessQueue α) : List String :=
  q.ran ++ q.pendingIds

@[simp] theorem jobs_setHandler (q : InProcessQueue α) : q.setHandler.jobs = q.jobs := rfl

@[simp] theorem jobs_start (q : InProcessQueue α) : q.start.jobs = q.jobs := by
  unfold start
  split <;> rfl

@[simp] theorem running_start (q : InProcessQueue α) : q.start.running = true := by
  unfold start
  split
  · next h => exact h
  · rfl

section Add

variable (q : InProcessQueue α) (id : String) (data : α) (attemptsMade : Nat)

@[simp] theorem pendingIds_add : (q.add id data attemptsMade).pendingIds = q.pendingIds ++ [id] := by
  unfold add
  dsimp only
  split <;> rfl

@[simp] theorem ran_add : (q.add id data attemptsMade).ran = q.ran := by
  unfold add
  dsimp only
  split <;> rfl

@[simp] theorem handler_add : (q.add id data attemptsMade).handler = q.handler := by
  unfold add
  dsimp only
  split <;> rfl

@[simp] theorem running_add : (q.add id data attemptsMade).running = q.running := by
  unfold add
  dsimp only
  split <;> rfl

@[simp] theorem executing_add : (q.add id data attemptsMade).executing = q.executing := by
  unfold add
  dsimp only
  split <;> rfl

theorem jobs_add : (q.add id data attemptsMade).jobs = q.jobs ++ [id] := by
  rw [jobs, jobs, ran_add, pendingIds_add, List.append_assoc]

end Add

section Settle

variable (q : InProcessQueue α) (id : String) (failure : Option String)

@[simp] theorem pendingIds_settle : (q.settle id failure).pendingIds = q.pendingIds := by
  unfold settle
  dsimp only
  split <;> rfl

@[simp] theorem ran_settle : (q.settle id failure).ran = q.ran := by
  unfold settle
  dsimp only
  split <;> rfl

@[simp] theorem handler_settle : (q.settle id failure).handler = q.handler := by
  unfold settle
  dsimp only
  split <;> rfl

@[simp] theorem running_settle : (q.settle id failure).running = q.running := by
  unfold settle
  dsimp only
  split <;> rfl

@[simp] theorem executing_settle : (q.settle id failure).executing = none := by
  unfold settle
  dsimp only
  split <;> rfl

@[simp] theorem jobs_settle : (q.settle id failure).jobs = q.jobs := by
  rw [jobs, jobs, ran_settle, pendingIds_settle]

end Settle

/-- A step that takes a job changes no flag and no job. -/
theorem processOne_spec (hinv : q.Inv) :
    q.processOne.handler = q.handler ∧ q.processOne.running = q.running ∧
      q.processOne.jobs = q.jobs := by
  obtain ⟨-, hidle⟩ | ⟨id, rest, records, hcons, hprocess, -⟩ := processOne_cases hinv
  · rw [hidle]
    exact ⟨rfl, rfl, rfl⟩
  · rw [hprocess]
    refine ⟨rfl, rfl, ?_⟩
    simp [jobs, hcons]

end InProcessQueue

end Jobs
end NestBase
