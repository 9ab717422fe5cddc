import NestBase.Lib.OrderedMap
import NestBase.Lib.StableSort

/-!
# The totals of the jobs dashboard

`getAggregates` rolls the jobs of all queues up into counters.  Without Redis it
counts job records (`buildJobAggregates`); with Redis it adds up the counts that
each queue reports for the six backend states.

The counters agree with each other (`Consistent`) on the first path always, and
on the second when no job is paused: a paused job counts as created in its queue
and nowhere in the totals.
-/

namespace NestBase
namespace Core
namespace DevJobs

open Lib

/-! ## The planner -/

inductive JobState where
  | created
  | active
  | completed
  | failed
  | cancelled
  | retry
deriving DecidableEq

structure JobRecord where
  /-- Queue / job-handler name. -/
  name : String
  state : JobState
  createdAt : Int
  startedAt : Option Int
  completedAt : Option Int
deriving DecidableEq

structure StateCounts where
  created : Nat
  active : Nat
  completed : Nat
  failed : Nat
  cancelled : Nat
  retry : Nat
deriving DecidableEq

namespace StateCounts

def get (counts : StateCounts) : JobState → Nat
  | .created => counts.created
  | .active => counts.active
  | .completed => counts.completed
  | .failed => counts.failed
  | .cancelled => counts.cancelled
  | .retry => counts.retry

/-- `counts[state] += 1` -/
def add (counts : StateCounts) : JobState → StateCounts
  | .created => { counts with created := counts.created + 1 }
  | .active => { counts with active := counts.active + 1 }
  | .completed => { counts with completed := counts.completed + 1 }
  | .failed => { counts with failed := counts.failed + 1 }
  | .cancelled => { counts with cancelled := counts.cancelled + 1 }
  | .retry => { counts with retry := counts.retry + 1 }

def sum (counts : StateCounts) : Nat :=
  counts.created + counts.active + counts.completed + counts.failed + counts.cancelled +
    counts.retry

end StateCounts

def emptyCounts : StateCounts where
  created := 0
  active := 0
  completed := 0
  failed := 0
  cancelled := 0
  retry := 0

def countByState (records : List JobRecord) : StateCounts :=
  records.foldl (fun counts record => counts.add record.state) emptyCounts

/-- The duration of a completed job that has both times and no negative duration. -/
def completionDuration (record : JobRecord) : Option Int :=
  if record.state ≠ .completed then none
  else
    record.startedAt.bind fun startedAt =>
      record.completedAt.bind fun completedAt =>
        if completedAt - startedAt < 0 then none else some (completedAt - startedAt)

section Planner

variable {Rate : Type}
-- The quotient of two counts, zero for an empty list, and `Math.ceil(n * 0.95)`, as
-- the runtime's numbers give them.
variable (divide : Nat → Nat → Rate) (zero : Rate) (ceil95 : Nat → Nat)
variable (localeCompare : String → String → Ordering)

structure QueueAggregate (Rate : Type) where
  name : String
  total : Nat
  counts : StateCounts
  p95LatencyMs : Option Int
  failureRate : Rate

structure JobAggregates (Rate : Type) where
  totalJobs : Nat
  totals : StateCounts
  failureRate : Rate
  p95LatencyMs : Option Int
  queues : List (QueueAggregate Rate)

def computeP95Latency (records : List JobRecord) : Option Int :=
  let durations := records.filterMap completionDuration
  let sorted := durations.mergeSort fun a b => decide (a ≤ b)
  sorted[min (sorted.length - 1) (ceil95 sorted.length - 1)]?

def failureRateOf (failed completed : Nat) : Rate :=
  if failed + completed = 0 then zero else divide failed (failed + completed)

def computeFailureRate (records : List JobRecord) : Rate :=
  failureRateOf divide zero (records.countP fun record => record.state = .failed)
    (records.countP fun record => record.state = .completed)

/-- The records of each queue, in the order in which the queues first appear. -/
def groupByName (records : List JobRecord) : Record String (List JobRecord) :=
  records.foldl
    (fun grouped record =>
      grouped.set record.name ((grouped.get record.name).getD [] ++ [record]))
    Record.empty

def queueAggregate (name : String) (list : List JobRecord) : QueueAggregate Rate where
  name := name
  total := list.length
  counts := countByState list
  p95LatencyMs := computeP95Latency ceil95 list
  failureRate := computeFailureRate divide zero list

def aggregateJobsByQueue (records : List JobRecord) : List (QueueAggregate Rate) :=
  StableSort.sortBy localeCompare QueueAggregate.name
    ((groupByName records).entries.map fun entry =>
      queueAggregate divide zero ceil95 entry.1 entry.2)

def buildJobAggregates (records : List JobRecord) : JobAggregates Rate where
  totalJobs := records.length
  totals := countByState records
  failureRate := computeFailureRate divide zero records
  p95LatencyMs := computeP95Latency ceil95 records
  queues := aggregateJobsByQueue divide zero ceil95 localeCompare records

/-! ## The queues -/

/-- The counts that `getJobCounts` returns for the states it is asked for. -/
abbrev BackendCounts : Type :=
  String → Option Nat

/-- What `getAggregates` finds. -/
inductive Backend where
  /-- No Redis: the records of each queue. -/
  | inProcess (queues : List (List JobRecord))
  | redis (queues : List (String × BackendCounts))

/-- Newest first. -/
def listJobs (queues : List (List JobRecord)) : List JobRecord :=
  queues.flatten.mergeSort fun a b => decide (b.createdAt ≤ a.createdAt)

/-- The count of a state that is missing is zero. -/
def count (counts : BackendCounts) (state : String) : Nat :=
  (counts state).getD 0

def backendTotal (counts : BackendCounts) : Nat :=
  count counts "completed" + count counts "failed" + count counts "active" +
    count counts "waiting" + count counts "delayed" + count counts "paused"

def backendCounts (counts : BackendCounts) : StateCounts where
  created := count counts "waiting" + count counts "paused"
  active := count counts "active"
  completed := count counts "completed"
  failed := count counts "failed"
  cancelled := 0
  retry := count counts "delayed"

def backendAggregate (name : String) (counts : BackendCounts) : QueueAggregate Rate where
  name := name
  total := backendTotal counts
  counts := backendCounts counts
  p95LatencyMs := none
  failureRate := failureRateOf divide zero (count counts "failed") (count counts "completed")

/-- The sum of one state over the queues. -/
def totalOf (state : String) (queues : List (String × BackendCounts)) : Nat :=
  queues.foldl (fun total queue => total + count queue.2 state) 0

def getAggregates : Backend → JobAggregates Rate
  | .inProcess queues => buildJobAggregates divide zero ceil95 localeCompare (listJobs queues)
  | .redis [] => buildJobAggregates divide zero ceil95 localeCompare []
  | .redis queues =>
      let totalCompleted := totalOf "completed" queues
      let totalFailed := totalOf "failed" queues
      let totalActive := totalOf "active" queues
      let totalWaiting := totalOf "waiting" queues
      let totalDelayed := totalOf "delayed" queues
      { totalJobs := totalCompleted + totalFailed + totalActive + totalWaiting + totalDelayed
        totals :=
          { created := totalWaiting
            active := totalActive
            completed := totalCompleted
            failed := totalFailed
            cancelled := 0
            retry := totalDelayed }
        failureRate := failureRateOf divide zero totalFailed totalCompleted
        p95LatencyMs := none
        queues :=
          StableSort.sortBy localeCompare QueueAggregate.name
            (queues.map fun queue => backendAggregate divide zero queue.1 queue.2) }

end Planner

/-! ## Consistent totals -/

/-- The counters of the dashboard agree with each other. -/
structure Consistent {Rate : Type} (aggregates : JobAggregates Rate) : Prop where
  totalJobs : aggregates.totalJobs = (aggregates.queues.map QueueAggregate.total).sum
  totals : ∀ state,
    aggregates.totals.get state = (aggregates.queues.map fun queue => queue.counts.get state).sum
  queues : ∀ queue ∈ aggregates.queues, queue.total = queue.counts.sum

/-! ### Counting records -/

theorem get_add (counts : StateCounts) (state other : JobState) :
    (counts.add state).get other = counts.get other + if state = other then 1 else 0 := by
  cases state <;> cases other <;> rfl

theorem sum_add (counts : StateCounts) (state : JobState) :
    (counts.add state).sum = counts.sum + 1 := by
  cases state <;> simp only [StateCounts.add, StateCounts.sum] <;> omega

theorem get_foldl_add (records : List JobRecord) (counts : StateCounts) (state : JobState) :
    (records.foldl (fun counts record => counts.add record.state) counts).get state =
      counts.get state + records.countP fun record => record.state = state := by
  induction records generalizing counts with
  | nil => rfl
  | cons record records ih =>
      rw [List.foldl_cons, ih, get_add, List.countP_cons]
      by_cases hstate : record.state = state
      · simp [hstate]
        omega
      · simp [hstate]

theorem get_countByState (records : List JobRecord) (state : JobState) :
    (countByState records).get state = records.countP fun record => record.state = state := by
  have hempty : emptyCounts.get state = 0 := by cases state <;> rfl
  rw [countByState, get_foldl_add, hempty, Nat.zero_add]

theorem sum_foldl_add (records : List JobRecord) (counts : StateCounts) :
    (records.foldl (fun counts record => counts.add record.state) counts).sum =
      counts.sum + records.length := by
  induction records generalizing counts with
  | nil => rfl
  | cons record records ih =>
      rw [List.foldl_cons, ih, sum_add, List.length_cons]
      omega

theorem sum_countByState (records : List JobRecord) :
    (countByState records).sum = records.length := by
  rw [countByState, sum_foldl_add]
  exact Nat.zero_add _

/-! ### Grouping loses no record -/

theorem flatMap_set_perm (grouped : Record String (List JobRecord)) (record : JobRecord) :
    ((grouped.set record.name
        ((grouped.get record.name).getD [] ++ [record])).entries.flatMap Prod.snd).Perm
      (grouped.entries.flatMap Prod.snd ++ [record]) := by
  have hset := (@OrderedMap.set_perm _ _ _ _ record.name grouped.distinct
    ((grouped.get record.name).getD [] ++ [record])).flatMap_right Prod.snd
  refine hset.trans ?_
  rw [List.flatMap_cons]
  cases hold : grouped.get record.name with
  | none =>
      have hdelete := OrderedMap.delete_of_not_mem (OrderedMap.get_eq_none_iff.mp hold)
      rw [hdelete]
      exact List.perm_append_comm
  | some list =>
      have hgrouped := (OrderedMap.perm_of_get grouped.distinct hold).flatMap_right Prod.snd
      rw [List.flatMap_cons] at hgrouped
      simp only [Option.getD_some, List.append_assoc]
      refine List.Perm.trans ?_ (hgrouped.symm.append_right [record])
      rw [List.append_assoc]
      exact List.perm_append_comm.append_left list

theorem groupFrom_perm (grouped : Record String (List JobRecord)) (records : List JobRecord) :
    ((records.foldl
        (fun grouped record =>
          grouped.set record.name ((grouped.get record.name).getD [] ++ [record]))
        grouped).entries.flatMap Prod.snd).Perm
      (grouped.entries.flatMap Prod.snd ++ records) := by
  induction records generalizing grouped with
  | nil => simp
  | cons record records ih =>
      rw [List.foldl_cons]
      refine (ih _).trans ?_
      rw [List.append_cons (grouped.entries.flatMap Prod.snd)]
      exact (flatMap_set_perm grouped record).append_right records

theorem groupByName_perm (records : List JobRecord) :
    ((groupByName records).entries.flatMap Prod.snd).Perm records :=
  groupFrom_perm Record.empty records

/-! ### Both paths -/

section Paths

variable {Rate : Type}
variable {divide : Nat → Nat → Rate} {zero : Rate} {ceil95 : Nat → Nat}
variable {localeCompare : String → String → Ordering}

theorem sum_length_flatMap {α : Type} (entries : List (α × List JobRecord)) :
    (entries.map fun entry => entry.2.length).sum = (entries.flatMap Prod.snd).length := by
  rw [List.length_flatMap]

theorem sum_countP_flatMap {α : Type} (entries : List (α × List JobRecord)) (p : JobRecord → Bool) :
    (entries.map fun entry => entry.2.countP p).sum = (entries.flatMap Prod.snd).countP p := by
  rw [List.countP_flatMap]
  rfl

theorem consistent_buildJobAggregates (records : List JobRecord) :
    Consistent (buildJobAggregates divide zero ceil95 localeCompare records) := by
  have hsorted := StableSort.sortBy_perm localeCompare QueueAggregate.name
    ((groupByName records).entries.map fun entry =>
      queueAggregate divide zero ceil95 entry.1 entry.2)
  have hgroups := groupByName_perm records
  constructor
  · have htotal := (hsorted.map QueueAggregate.total).sum_eq
    have hlength := sum_length_flatMap (groupByName records).entries
    simp only [buildJobAggregates, aggregateJobsByQueue]
    rw [htotal, List.map_map, ← hgroups.length_eq, ← hlength]
    rfl
  · intro state
    have hcount := (hsorted.map fun queue => queue.counts.get state).sum_eq
    have hstate := sum_countP_flatMap (groupByName records).entries
      fun record => record.state = state
    simp only [buildJobAggregates, aggregateJobsByQueue]
    rw [hcount, List.map_map, get_countByState, ← hgroups.countP_eq, ← hstate]
    simp only [Function.comp_def, queueAggregate, get_countByState]
  · intro queue hqueue
    obtain ⟨entry, -, rfl⟩ := List.mem_map.mp (hsorted.mem_iff.mp hqueue)
    exact (sum_countByState entry.2).symm

end Paths

/-- No queue of the Redis path reports a paused job. -/
def Backend.NonePaused : Backend → Prop
  | .inProcess _ => True
  | .redis queues => ∀ queue ∈ queues, count queue.2 "paused" = 0

/-! ### Counts of the backend -/

theorem totalOf_eq (state : String) (queues : List (String × BackendCounts)) :
    totalOf state queues = (queues.map fun queue => count queue.2 state).sum := by
  have hrun : ∀ total : Nat,
      queues.foldl (fun total queue => total + count queue.2 state) total =
        total + (queues.map fun queue => count queue.2 state).sum := by
    induction queues with
    | nil => intro total; rfl
    | cons queue queues ih =>
        intro total
        rw [List.foldl_cons, ih, List.map_cons, List.sum_cons]
        omega
  rw [totalOf, hrun, Nat.zero_add]

/-- Over all queues the totals of the queues count the paused jobs once more. -/
theorem sum_backendTotal (queues : List (String × BackendCounts)) :
    (queues.map fun queue => backendTotal queue.2).sum =
      totalOf "completed" queues + totalOf "failed" queues + totalOf "active" queues +
        totalOf "waiting" queues + totalOf "delayed" queues +
        (queues.map fun queue => count queue.2 "paused").sum := by
  simp only [totalOf_eq]
  induction queues with
  | nil => rfl
  | cons queue queues ih =>
      rw [List.map_cons, List.sum_cons, ih]
      simp only [List.map_cons, List.sum_cons, backendTotal]
      omega

theorem sum_created (queues : List (String × BackendCounts)) :
    (queues.map fun queue => (backendCounts queue.2).created).sum =
      totalOf "waiting" queues + (queues.map fun queue => count queue.2 "paused").sum := by
  simp only [totalOf_eq]
  induction queues with
  | nil => rfl
  | cons queue queues ih =>
      rw [List.map_cons, List.sum_cons, ih]
      simp only [List.map_cons, List.sum_cons, backendCounts]
      omega

theorem sum_backendCounts (counts : BackendCounts) :
    backendTotal counts = (backendCounts counts).sum := by
  simp only [backendTotal, backendCounts, StateCounts.sum]
  omega

section Backends

variable {Rate : Type}
variable (divide : Nat → Nat → Rate) (zero : Rate) (ceil95 : Nat → Nat)
variable (localeCompare : String → String → Ordering)

theorem sorted_perm (queues : List (String × BackendCounts)) :
    (StableSort.sortBy localeCompare QueueAggregate.name
        (queues.map fun queue => backendAggregate divide zero queue.1 queue.2)).Perm
      (queues.map fun queue => backendAggregate divide zero queue.1 queue.2) :=
  StableSort.sortBy_perm _ _ _

theorem consistent_redis_iff (first : String × BackendCounts)
    (others : List (String × BackendCounts)) :
    Consistent (getAggregates divide zero ceil95 localeCompare (.redis (first :: others))) ↔
      ((first :: others).map fun queue => count queue.2 "paused").sum = 0 := by
  have hsorted := sorted_perm divide zero localeCompare (first :: others)
  have htotal := (hsorted.map QueueAggregate.total).sum_eq
  rw [List.map_map] at htotal
  have hqueues : ((first :: others).map
      (QueueAggregate.total ∘ fun queue => backendAggregate divide zero queue.1 queue.2)).sum =
      ((first :: others).map fun queue => backendTotal queue.2).sum := rfl
  have hbackend := sum_backendTotal (first :: others)
  constructor
  · intro h
    have hjobs := h.totalJobs
    simp only [getAggregates] at hjobs
    rw [htotal] at hjobs
    omega
  · intro hpaused
    constructor
    · simp only [getAggregates]
      rw [htotal]
      omega
    · intro state
      have hcount := (hsorted.map fun queue => queue.counts.get state).sum_eq
      rw [List.map_map] at hcount
      simp only [getAggregates]
      rw [hcount]
      cases state with
      | created =>
          have hcreated := sum_created (first :: others)
          change totalOf "waiting" (first :: others) =
            ((first :: others).map fun queue => (backendCounts queue.2).created).sum
          omega
      | active => exact totalOf_eq "active" (first :: others)
      | completed => exact totalOf_eq "completed" (first :: others)
      | failed => exact totalOf_eq "failed" (first :: others)
      | cancelled =>
          have hzero : ∀ queues : List (String × BackendCounts),
              (queues.map fun _ => 0).sum = 0 := by
            intro queues
            simp
          exact (hzero (first :: others)).symm
      | retry => exact totalOf_eq "delayed" (first :: others)
    · intro queue hqueue
      obtain ⟨entry, -, rfl⟩ := List.mem_map.mp (hsorted.mem_iff.mp hqueue)
      exact sum_backendCounts entry.2

/-- The totals are consistent exactly when no queue reports a paused job. -/
theorem consistent_getAggregates_iff (backend : Backend) :
    Consistent (getAggregates divide zero ceil95 localeCompare backend) ↔ backend.NonePaused := by
  cases backend with
  | inProcess queues => exact iff_of_true (consistent_buildJobAggregates _) trivial
  | redis queues =>
      cases queues with
      | nil => exact iff_of_true (consistent_buildJobAggregates []) (by simp [Backend.NonePaused])
      | cons first others =>
          rw [consistent_redis_iff, List.sum_eq_zero_iff]
          exact List.forall_mem_map

/-- One queue with one paused job. -/
def pausedBackend : Backend :=
  .redis [("mail", fun state => if state = "paused" then some 1 else some 0)]

theorem not_consistent_pausedBackend :
    ¬ Consistent (getAggregates (fun failed _ => failed) 0 id compare pausedBackend) := by
  intro h
  have hjobs := h.totalJobs
  simp [pausedBackend, getAggregates, totalOf, count, StableSort.sortBy, backendAggregate,
    backendTotal] at hjobs

end Backends

end DevJobs
end Core
end NestBase
