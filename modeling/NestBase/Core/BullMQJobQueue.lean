import NestBase.Core.InProcessQueue
import NestBase.Lib.Transition

/-!
# Jobs without Redis

`BullMQJobQueue` with `redis = null` keeps one in-process queue for each job
name.  `register`, `enqueue`, `retry`, `start` and `stop` come in any order, and
between them the queues take the steps of their chains: a step begins, and its
handler settles.

No job is lost and none is taken twice, in whatever order (`WorldInv`).  A
running queue with a handler and pending jobs has a step on its way if every
`register` came in time (`RegistersInTime`): not when the queue was already
running and its chain had run out in front of pending jobs for want of a
handler.  Then `NoStrandedJob` holds in every state (`noStrandedJob_of_reaches`).
-/

namespace NestBase
namespace Jobs

open Lib

variable {α : Type}

/-- A `retry` call that has found its failed job and adds the new one next. -/
structure Retry (α : Type) where
  name : String
  payload : α
  attempt : Nat
deriving DecidableEq

structure World (α : Type) where
  inProcessQueues : Record String (InProcessQueue α)
  started : Bool
  retries : List (Retry α)
  /-- `stop` was called since the last `start`; recorded for the statements. -/
  stopped : Bool
  /-- The ids given out, with the queue of each; recorded for the statements. -/
  issued : List (String × String)
deriving DecidableEq

def initialWorld : World α where
  inProcessQueues := Record.empty
  started := false
  retries := []
  stopped := false
  issued := []

inductive Event (α : Type)
  | register (name : String)
  /-- With the random id of the new job. -/
  | enqueue (name id : String) (payload : α)
  /-- `getJob` of a `retry` call finds the job in the queue of this name. -/
  | retryFind (name id : String)
  | retryAdd (n : Nat) (id : String)
  | start
  | stop
  /-- The next step of the queue's chain begins. -/
  | processOne (name : String)
  /-- The awaited handler resolves, or rejects with a message. -/
  | settle (name : String) (failure : Option String)

namespace World

def getOrCreateInProcessQueue (w : World α) (name : String) : InProcessQueue α :=
  (w.inProcessQueues.get name).getD .create

def setQueue (w : World α) (name : String) (q : InProcessQueue α) : World α :=
  { w with inProcessQueues := w.inProcessQueues.set name q }

/-- `crypto.randomUUID` draws ids that were not drawn before. -/
def Fresh (w : World α) (id : String) : Prop :=
  id ≠ "" ∧ id ∉ w.issued.map Prod.fst

instance (w : World α) (id : String) : Decidable (w.Fresh id) :=
  inferInstanceAs (Decidable (_ ∧ _))

/-- `if (this.started) q.start()` -/
def startIfStarted (w : World α) (q : InProcessQueue α) : InProcessQueue α :=
  if w.started then q.start else q

/-- A new job of the queue. -/
def issue (w : World α) (name id : String) : World α :=
  { w with issued := w.issued ++ [(id, name)] }

end World

def step (w : World α) : Event α → Option (World α)
  | .register name =>
      let q := (w.getOrCreateInProcessQueue name).setHandler
      some (w.setQueue name (w.startIfStarted q))
  | .enqueue name id payload =>
      if w.Fresh id then
        some ((w.setQueue name ((w.getOrCreateInProcessQueue name).add id payload 0)).issue name id)
      else none
  | .retryFind name id =>
      match (w.inProcessQueues.get name).bind fun q => q.records.get id with
      | none => some w
      | some record =>
          if record.state = .failed then
            some
              { w with
                retries :=
                  w.retries ++
                    [{ name := name, payload := record.data, attempt := record.attemptsMade + 1 }] }
          else some w
  | .retryAdd n id =>
      match w.retries[n]? with
      | none => none
      | some retry =>
          if w.Fresh id then
            let q := w.startIfStarted (w.getOrCreateInProcessQueue retry.name)
            some
              ({ w with retries := w.retries.eraseIdx n }.setQueue retry.name
                (q.add id retry.payload retry.attempt) |>.issue retry.name id)
          else none
  | .start =>
      some
        { w with
          inProcessQueues := w.inProcessQueues.map InProcessQueue.start
          started := true
          stopped := false }
  | .stop =>
      some
        { w with
          inProcessQueues := w.inProcessQueues.map InProcessQueue.stop
          stopped := true }
  | .processOne name =>
      match w.inProcessQueues.get name with
      | none => none
      | some q =>
          if q.executing = none ∧ 0 < q.scheduled then some (w.setQueue name q.processOne)
          else none
  | .settle name failure =>
      match w.inProcessQueues.get name with
      | none => none
      | some q =>
          match q.executing with
          | none => none
          | some id => some (w.setQueue name (q.settle id failure))

/-! ## Draining -/

namespace InProcessQueue

/-- One step of the chain, to its end. -/
def runStep (outcome : String → Option String) (q : InProcessQueue α) : InProcessQueue α :=
  match q.processOne.executing with
  | none => q.processOne
  | some id => q.processOne.settle id (outcome id)

def runSteps (outcome : String → Option String) : Nat → InProcessQueue α → InProcessQueue α
  | 0, q => q
  | n + 1, q => runSteps outcome n (q.runStep outcome)

/-- `await this.inFlight`: the steps that are on the chain now run to their end. -/
def awaitInFlight (outcome : String → Option String) (q : InProcessQueue α) : InProcessQueue α :=
  match q.executing with
  | none => q.runSteps outcome q.scheduled
  | some id => (q.settle id (outcome id)).runSteps outcome q.scheduled

/-- The loop of `drain`; `none` when the fuel is not enough. -/
def drain (outcome : String → Option String) : Nat → InProcessQueue α → Option (InProcessQueue α)
  | 0, _ => none
  | fuel + 1, q =>
      if q.pendingIds = [] then some q
      else if !q.running then some q
      else drain outcome fuel (q.awaitInFlight outcome)

end InProcessQueue

/-- `BullMQJobQueue.drain`: queue after queue, while no other call comes. -/
def drainAll (outcome : String → Option String) (fuel : Nat) :
    List (String × InProcessQueue α) → Option (List (String × InProcessQueue α))
  | [] => some []
  | (name, q) :: rest =>
      (q.drain outcome fuel).bind fun q' =>
        (drainAll outcome fuel rest).map fun rest' => (name, q') :: rest'

/-! ## Property and condition -/

/-- The steps that a queue takes by itself. -/
def ownStep (name : String) : Event α → Bool
  | .processOne name' => decide (name' = name)
  | .settle name' _ => decide (name' = name)
  | _ => false

def isStop : Event α → Bool
  | .stop => true
  | _ => false

/-- The handler of this job was called. -/
def Ran (w : World α) (name id : String) : Prop :=
  ∃ q, w.inProcessQueues.get name = some q ∧ id ∈ q.ran

/-- Every running queue with pending jobs has a handler. -/
def ReadyToDrain (w : World α) : Prop :=
  ∀ name q, w.inProcessQueues.get name = some q →
    q.running = true → q.pendingIds ≠ [] → q.handler = true

structure NoStrandedJob (w : World α) : Prop where
  /-- A running queue with a handler and no step on its way has no pending job. -/
  idle :
    ∀ name q, w.inProcessQueues.get name = some q → q.running = true → q.handler = true →
      q.scheduled = 0 → q.executing = none → q.pendingIds = []
  /-- Each job is in its queue, and there either ran or is pending, once. -/
  once :
    ∀ id name, (id, name) ∈ w.issued →
      ∃ q, w.inProcessQueues.get name = some q ∧ (q.ran ++ q.pendingIds).count id = 1
  /-- After `start` and without a later `stop`, a queue with a handler is running. -/
  serving :
    w.started = true → w.stopped = false →
      ∀ name q, w.inProcessQueues.get name = some q → q.handler = true → q.running = true
  /--
  A pending job of a running queue with a handler: the queue can take a step,
  and after enough of its own steps the job has run, unless `stop` is called.
  -/
  eventually :
    ∀ name q, w.inProcessQueues.get name = some q → q.running = true → q.handler = true →
      ∀ id ∈ q.pendingIds,
        (∃ event, ownStep name event = true ∧ (step w event).isSome = true) ∧
          ∃ bound, ∀ events w', runEvents step w events = some w' →
            events.any isStop = false → bound ≤ events.countP (ownStep name) → Ran w' name id
  drains :
    ReadyToDrain w → ∀ outcome, ∃ bound, ∀ fuel, bound ≤ fuel →
      (drainAll outcome fuel w.inProcessQueues.entries).isSome = true

/--
`register` does not come to a queue that is running, has pending jobs and no
handler, and has no step scheduled or executing any more.
-/
def RegistersInTime (w : World α) : Event α → Prop
  | .register name => ∀ q, w.inProcessQueues.get name = some q → q.HandlerInTime
  | _ => True

/-! ## No job is lost or taken twice -/

structure WorldInv (w : World α) : Prop where
  queues : ∀ name q, w.inProcessQueues.get name = some q → q.Inv
  known :
    ∀ name q, w.inProcessQueues.get name = some q →
      ∀ id, id ∈ q.jobs ↔ (id, name) ∈ w.issued
  placed : ∀ id name, (id, name) ∈ w.issued → ∃ q, w.inProcessQueues.get name = some q
  serving :
    w.started = true → w.stopped = false →
      ∀ name q, w.inProcessQueues.get name = some q → q.handler = true → q.running = true

theorem worldInv_initialWorld : WorldInv (initialWorld : World α) where
  queues := by
    intro name q hq
    cases hq
  known := by
    intro name q hq
    cases hq
  placed := by
    intro id name hid
    cases hid
  serving := by
    intro hstarted
    cases hstarted

/-- The queue under a name after one queue was replaced. -/
theorem get_setQueue (w : World α) (name other : String) (q : InProcessQueue α) :
    (w.setQueue name q).inProcessQueues.get other =
      if name = other then some q else w.inProcessQueues.get other :=
  Record.get_set w.inProcessQueues name other q

variable {w w' : World α}

/-- A queue that is there, or a new one, is as the invariant says. -/
theorem WorldInv.getOrCreate (hinv : WorldInv w) (name : String) :
    (w.getOrCreateInProcessQueue name).Inv ∧
      (∀ id, id ∈ (w.getOrCreateInProcessQueue name).jobs ↔ (id, name) ∈ w.issued) ∧
        (w.started = true → w.stopped = false →
          (w.getOrCreateInProcessQueue name).handler = true →
            (w.getOrCreateInProcessQueue name).running = true) := by
  unfold World.getOrCreateInProcessQueue
  cases hq : w.inProcessQueues.get name with
  | some q =>
      exact ⟨hinv.queues name q hq, hinv.known name q hq,
        fun hstarted hstopped => hinv.serving hstarted hstopped name q hq⟩
  | none =>
      refine ⟨InProcessQueue.inv_create, ?_, ?_⟩
      · intro id
        constructor
        · intro hid
          cases hid
        · intro hid
          obtain ⟨q, hq'⟩ := hinv.placed id name hid
          rw [hq] at hq'
          cases hq'
      · intro _ _ hhandler
        cases hhandler

variable {q q' : InProcessQueue α}

/-- Replacing a queue by one with the same jobs keeps the invariant. -/
theorem WorldInv.setQueue
    {name : String}
    (hinv : WorldInv w)
    (hq : q.Inv)
    (hjobs : ∀ id, id ∈ q.jobs ↔ (id, name) ∈ w.issued)
    (hserving :
      w.started = true → w.stopped = false → q.handler = true → q.running = true) :
    WorldInv (w.setQueue name q) := by
  refine ⟨?_, ?_, ?_, ?_⟩
  · intro other q' hq'
    rw [get_setQueue] at hq'
    split at hq'
    · obtain rfl := Option.some.inj hq'
      exact hq
    · exact hinv.queues other q' hq'
  · intro other q' hq'
    rw [get_setQueue] at hq'
    split at hq'
    · next hsame =>
      obtain rfl := Option.some.inj hq'
      rw [← hsame]
      exact hjobs
    · exact hinv.known other q' hq'
  · intro id other hid
    rw [get_setQueue]
    split
    · exact ⟨q, rfl⟩
    · exact hinv.placed id other hid
  · intro hstarted hstopped other q' hq'
    rw [get_setQueue] at hq'
    split at hq'
    · obtain rfl := Option.some.inj hq'
      exact hserving hstarted hstopped
    · exact hinv.serving hstarted hstopped other q' hq'

/-- A new job is appended to its queue and to the ids given out. -/
theorem WorldInv.issue
    {name id : String} {data : α} {attemptsMade : Nat}
    (hinv : WorldInv w)
    (hfresh : w.Fresh id)
    (hq : q.Inv)
    (hjobs : ∀ other, other ∈ q.jobs ↔ (other, name) ∈ w.issued)
    (hserving :
      w.started = true → w.stopped = false → q.handler = true → q.running = true) :
    WorldInv ((w.setQueue name (q.add id data attemptsMade)).issue name id) := by
  obtain ⟨hid, hnew⟩ := hfresh
  have hunknown : ∀ other, (id, other) ∉ w.issued := by
    intro other hmem
    exact hnew (List.mem_map.mpr ⟨(id, other), hmem, rfl⟩)
  have hadded : (q.add id data attemptsMade).Inv := by
    refine hq.add hid ?_
    intro hmem
    exact hunknown name ((hjobs id).mp hmem)
  refine ⟨?_, ?_, ?_, ?_⟩
  · intro other q' hq'
    change (w.setQueue name _).inProcessQueues.get other = some q' at hq'
    rw [get_setQueue] at hq'
    split at hq'
    · obtain rfl := Option.some.inj hq'
      exact hadded
    · exact hinv.queues other q' hq'
  · intro other q' hq' id'
    change (w.setQueue name _).inProcessQueues.get other = some q' at hq'
    change _ ↔ (id', other) ∈ w.issued ++ [(id, name)]
    rw [get_setQueue] at hq'
    split at hq'
    · next hsame =>
      obtain rfl := Option.some.inj hq'
      subst hsame
      rw [InProcessQueue.jobs_add, List.mem_append, List.mem_append, hjobs id']
      simp
    · next hother =>
      rw [List.mem_append, hinv.known other q' hq' id']
      simp [Ne.symm hother]
  · intro id' other hid'
    change ∃ q', (w.setQueue name _).inProcessQueues.get other = some q'
    rw [get_setQueue]
    split
    · exact ⟨_, rfl⟩
    · next hother =>
      rcases List.mem_append.mp hid' with hold | hlast
      · exact hinv.placed id' other hold
      · have hsame := List.mem_singleton.mp hlast
        exact absurd (Prod.mk.inj hsame).2.symm hother
  · intro hstarted hstopped other q' hq'
    change (w.setQueue name _).inProcessQueues.get other = some q' at hq'
    rw [get_setQueue] at hq'
    split at hq'
    · obtain rfl := Option.some.inj hq'
      rw [InProcessQueue.handler_add, InProcessQueue.running_add]
      exact hserving hstarted hstopped
    · exact hinv.serving hstarted hstopped other q' hq'

theorem inv_startIfStarted (hq : q.Inv) :
    (w.startIfStarted q).Inv := by
  unfold World.startIfStarted
  split
  · exact hq.start
  · exact hq

theorem jobs_startIfStarted (w : World α) (q : InProcessQueue α) :
    (w.startIfStarted q).jobs = q.jobs := by
  unfold World.startIfStarted
  split
  · exact InProcessQueue.jobs_start q
  · rfl

theorem running_startIfStarted (hstarted : w.started = true) (q : InProcessQueue α) :
    (w.startIfStarted q).running = true := by
  rw [World.startIfStarted, if_pos hstarted]
  exact InProcessQueue.running_start q

/-- Changing every queue by an operation that keeps its jobs. -/
theorem get_map_queue
    {change : InProcessQueue α → InProcessQueue α} {name : String}
    (hq' : (w.inProcessQueues.map change).get name = some q') :
    ∃ q, w.inProcessQueues.get name = some q ∧ q' = change q := by
  rw [Record.get_map, Option.map_eq_some_iff] at hq'
  obtain ⟨q, hq, rfl⟩ := hq'
  exact ⟨q, hq, rfl⟩

/-- What an event does, and when it is possible. -/
inductive Stepped (w : World α) : Event α → World α → Prop
  | register (name : String) :
      Stepped w (.register name)
        (w.setQueue name (w.startIfStarted (w.getOrCreateInProcessQueue name).setHandler))
  | enqueue (name id : String) (payload : α) (hfresh : w.Fresh id) :
      Stepped w (.enqueue name id payload)
        ((w.setQueue name ((w.getOrCreateInProcessQueue name).add id payload 0)).issue name id)
  | retryNothing (name id : String) : Stepped w (.retryFind name id) w
  | retryFind (name id : String) (retry : Retry α) :
      Stepped w (.retryFind name id) { w with retries := w.retries ++ [retry] }
  | retryAdd (n : Nat) (id : String) (retry : Retry α)
      (hretry : w.retries[n]? = some retry) (hfresh : w.Fresh id) :
      Stepped w (.retryAdd n id)
        (({ w with retries := w.retries.eraseIdx n }.setQueue retry.name
          ((w.startIfStarted (w.getOrCreateInProcessQueue retry.name)).add id retry.payload
            retry.attempt)).issue retry.name id)
  | start :
      Stepped w .start
        { w with
          inProcessQueues := w.inProcessQueues.map InProcessQueue.start
          started := true
          stopped := false }
  | stop :
      Stepped w .stop
        { w with
          inProcessQueues := w.inProcessQueues.map InProcessQueue.stop
          stopped := true }
  | processOne (name : String) (q : InProcessQueue α) (hget : w.inProcessQueues.get name = some q)
      (hready : q.executing = none ∧ 0 < q.scheduled) :
      Stepped w (.processOne name) (w.setQueue name q.processOne)
  | settle (name : String) (failure : Option String) (q : InProcessQueue α) (id : String)
      (hget : w.inProcessQueues.get name = some q) (hexecuting : q.executing = some id) :
      Stepped w (.settle name failure) (w.setQueue name (q.settle id failure))

variable {event : Event α}

theorem stepped_of_step (hstep : step w event = some w') :
    Stepped w event w' := by
  cases event with
  | register name =>
      obtain rfl := Option.some.inj hstep
      exact .register name
  | enqueue name id payload =>
      simp only [step] at hstep
      split at hstep
      · next hfresh =>
        obtain rfl := Option.some.inj hstep
        exact .enqueue name id payload hfresh
      · cases hstep
  | retryFind name id =>
      simp only [step] at hstep
      split at hstep
      · obtain rfl := Option.some.inj hstep
        exact .retryNothing name id
      · split at hstep
        · obtain rfl := Option.some.inj hstep
          exact .retryFind name id _
        · obtain rfl := Option.some.inj hstep
          exact .retryNothing name id
  | retryAdd n id =>
      simp only [step] at hstep
      split at hstep
      · cases hstep
      · next retry hretry =>
        split at hstep
        · next hfresh =>
          obtain rfl := Option.some.inj hstep
          exact .retryAdd n id retry hretry hfresh
        · cases hstep
  | start =>
      obtain rfl := Option.some.inj hstep
      exact .start
  | stop =>
      obtain rfl := Option.some.inj hstep
      exact .stop
  | processOne name =>
      simp only [step] at hstep
      split at hstep
      · cases hstep
      · next q hget =>
        split at hstep
        · next hready =>
          obtain rfl := Option.some.inj hstep
          exact .processOne name q hget hready
        · cases hstep
  | settle name failure =>
      simp only [step] at hstep
      split at hstep
      · cases hstep
      · next q hget =>
        split at hstep
        · cases hstep
        · next id hexecuting =>
          obtain rfl := Option.some.inj hstep
          exact .settle name failure q id hget hexecuting

theorem worldInv_step (hinv : WorldInv w) (hstep : step w event = some w') :
    WorldInv w' := by
  cases stepped_of_step hstep with
  | register name =>
      obtain ⟨hq, hjobs, -⟩ := hinv.getOrCreate name
      refine hinv.setQueue (inv_startIfStarted hq.setHandler) ?_ ?_
      · intro id
        rw [jobs_startIfStarted, InProcessQueue.jobs_setHandler]
        exact hjobs id
      · intro hstarted _ _
        exact running_startIfStarted hstarted _
  | enqueue name id payload hfresh =>
      obtain ⟨hq, hjobs, hserving⟩ := hinv.getOrCreate name
      exact hinv.issue hfresh hq hjobs hserving
  | retryNothing name id => exact hinv
  | retryFind name id retry => exact ⟨hinv.queues, hinv.known, hinv.placed, hinv.serving⟩
  | retryAdd n id retry hretry hfresh =>
      obtain ⟨hq, hjobs, -⟩ := hinv.getOrCreate retry.name
      have hrest : WorldInv { w with retries := w.retries.eraseIdx n } :=
        ⟨hinv.queues, hinv.known, hinv.placed, hinv.serving⟩
      refine hrest.issue hfresh (inv_startIfStarted hq) ?_ ?_
      · intro other
        rw [jobs_startIfStarted]
        exact hjobs other
      · intro hstarted _ _
        exact running_startIfStarted hstarted _
  | start =>
      refine ⟨?_, ?_, ?_, ?_⟩
      · intro name q' hq'
        obtain ⟨q, hq, rfl⟩ := get_map_queue hq'
        exact (hinv.queues name q hq).start
      · intro name q' hq' id
        obtain ⟨q, hq, rfl⟩ := get_map_queue hq'
        rw [InProcessQueue.jobs_start]
        exact hinv.known name q hq id
      · intro id name hid
        obtain ⟨q, hq⟩ := hinv.placed id name hid
        exact ⟨q.start, by rw [Record.get_map, hq]; rfl⟩
      · intro _ _ name q' hq' _
        obtain ⟨q, -, rfl⟩ := get_map_queue hq'
        exact InProcessQueue.running_start q
  | stop =>
      refine ⟨?_, ?_, ?_, ?_⟩
      · intro name q' hq'
        obtain ⟨q, hq, rfl⟩ := get_map_queue hq'
        exact (hinv.queues name q hq).stop
      · intro name q' hq' id
        obtain ⟨q, hq, rfl⟩ := get_map_queue hq'
        exact hinv.known name q hq id
      · intro id name hid
        obtain ⟨q, hq⟩ := hinv.placed id name hid
        exact ⟨q.stop, by rw [Record.get_map, hq]; rfl⟩
      · intro _ hstopped
        cases hstopped
  | processOne name q hget hready =>
      have hq := hinv.queues name q hget
      obtain ⟨hhandler, hrunning, hjobs⟩ := InProcessQueue.processOne_spec hq
      refine hinv.setQueue hq.processOne ?_ ?_
      · intro id
        rw [hjobs]
        exact hinv.known name q hget id
      · rw [hhandler, hrunning]
        exact fun hstarted hstopped => hinv.serving hstarted hstopped name q hget
  | settle name failure q id hget hexecuting =>
      refine hinv.setQueue ((hinv.queues name q hget).settle hexecuting) ?_ ?_
      · intro other
        rw [InProcessQueue.jobs_settle]
        exact hinv.known name q hget other
      · rw [InProcessQueue.handler_settle, InProcessQueue.running_settle]
        exact fun hstarted hstopped => hinv.serving hstarted hstopped name q hget

/-! ## Every queue is attended -/

def AllAttended (w : World α) : Prop :=
  ∀ name q, w.inProcessQueues.get name = some q → q.Attended

theorem AllAttended.setQueue {name : String} (hall : AllAttended w) (hq : q.Attended) :
    AllAttended (w.setQueue name q) := by
  intro other q' hq'
  rw [get_setQueue] at hq'
  split at hq'
  · obtain rfl := Option.some.inj hq'
    exact hq
  · exact hall other q' hq'

theorem allAttended_step
    (hinv : WorldInv w)
    (hall : AllAttended w)
    (hintime : RegistersInTime w event)
    (hstep : step w event = some w') :
    AllAttended w' := by
  cases stepped_of_step hstep with
  | register name =>
      have hset : (w.getOrCreateInProcessQueue name).setHandler.Attended := by
        unfold World.getOrCreateInProcessQueue
        cases hq : w.inProcessQueues.get name with
        | none =>
            intro hrunning
            cases hrunning
        | some q => exact (hall name q hq).setHandler (hintime q hq)
      refine hall.setQueue ?_
      unfold World.startIfStarted
      split
      · exact hset.start
      · exact hset
  | enqueue name id payload hfresh => exact hall.setQueue (InProcessQueue.attended_add _ _ _ _)
  | retryNothing name id => exact hall
  | retryFind name id retry => exact hall
  | retryAdd n id retry hretry hfresh =>
      have hrest : AllAttended { w with retries := w.retries.eraseIdx n } := hall
      exact hrest.setQueue (InProcessQueue.attended_add _ _ _ _)
  | start =>
      intro name q' hq'
      obtain ⟨q, hq, rfl⟩ := get_map_queue hq'
      exact (hall name q hq).start
  | stop =>
      intro name q' hq'
      obtain ⟨q, -, rfl⟩ := get_map_queue hq'
      exact InProcessQueue.attended_stop q
  | processOne name q hget hready =>
      exact hall.setQueue (InProcessQueue.attended_processOne (hinv.queues name q hget))
  | settle name failure q id hget hexecuting =>
      exact hall.setQueue (InProcessQueue.attended_settle _ _ _)

/-! ## A pending job comes to its turn -/

/-- What a queue keeps when it takes no step of its own. -/
structure Grows (q q' : InProcessQueue α) : Prop where
  ran : q'.ran = q.ran
  executing : q'.executing = q.executing
  pendingIds : ∃ tail, q'.pendingIds = q.pendingIds ++ tail
  handler : q.handler = true → q'.handler = true
  running : q.running = true → q'.running = true

theorem Grows.refl (q : InProcessQueue α) : Grows q q where
  ran := rfl
  executing := rfl
  pendingIds := ⟨[], (List.append_nil _).symm⟩
  handler := id
  running := id

theorem grows_start (q : InProcessQueue α) : Grows q q.start := by
  unfold InProcessQueue.start
  split
  · exact Grows.refl q
  · exact ⟨rfl, rfl, ⟨[], (List.append_nil _).symm⟩, id, fun _ => rfl⟩

theorem grows_startIfStarted (w : World α) (q : InProcessQueue α) :
    Grows q (w.startIfStarted q) := by
  unfold World.startIfStarted
  split
  · exact grows_start q
  · exact Grows.refl q

theorem grows_add (q : InProcessQueue α) (id : String) (data : α) (attemptsMade : Nat) :
    Grows q (q.add id data attemptsMade) where
  ran := by simp
  executing := by simp
  pendingIds := ⟨[id], by simp⟩
  handler := by simp
  running := by simp

theorem Grows.trans {q'' : InProcessQueue α} (h : Grows q q') (h' : Grows q' q'') :
    Grows q q'' := by
  obtain ⟨tail, htail⟩ := h.pendingIds
  obtain ⟨tail', htail'⟩ := h'.pendingIds
  refine
    ⟨h'.ran.trans h.ran, h'.executing.trans h.executing, ⟨tail ++ tail', ?_⟩,
      fun hhandler => h'.handler (h.handler hhandler),
      fun hrunning => h'.running (h.running hrunning)⟩
  rw [htail', htail, List.append_assoc]

/-- A queue that is there is the one that `getOrCreate` returns. -/
theorem getOrCreate_of_get {name : String} (hget : w.inProcessQueues.get name = some q) :
    w.getOrCreateInProcessQueue name = q := by
  rw [World.getOrCreateInProcessQueue, hget]
  rfl

theorem grows_setQueue
    {name other : String}
    (hget : w.inProcessQueues.get name = some q)
    (hgrows : Grows (w.getOrCreateInProcessQueue other) q') :
    ∃ q'', (w.setQueue other q').inProcessQueues.get name = some q'' ∧ Grows q q'' := by
  rw [get_setQueue]
  split
  · next hsame =>
    subst hsame
    rw [getOrCreate_of_get hget] at hgrows
    exact ⟨q', rfl, hgrows⟩
  · exact ⟨q, hget, Grows.refl q⟩

/-- Every event but the queue's own steps and `stop` lets the queue grow only. -/
theorem grows_step
    {name : String}
    (hget : w.inProcessQueues.get name = some q)
    (hown : ownStep name event = false)
    (hstop : isStop event = false)
    (hstep : step w event = some w') :
    ∃ q', w'.inProcessQueues.get name = some q' ∧ Grows q q' := by
  cases stepped_of_step hstep with
  | register other =>
      refine grows_setQueue hget (Grows.trans ?_ (grows_startIfStarted w _))
      exact ⟨rfl, rfl, ⟨[], (List.append_nil _).symm⟩, fun _ => rfl, id⟩
  | enqueue other id payload hfresh => exact grows_setQueue hget (grows_add _ _ _ _)
  | retryNothing other id => exact ⟨q, hget, Grows.refl q⟩
  | retryFind other id retry => exact ⟨q, hget, Grows.refl q⟩
  | retryAdd n id retry hretry hfresh =>
      have hrest : ({ w with retries := w.retries.eraseIdx n }).inProcessQueues.get name = some q :=
        hget
      exact grows_setQueue hrest (Grows.trans (grows_startIfStarted w _) (grows_add _ _ _ _))
  | start =>
      refine ⟨q.start, ?_, grows_start q⟩
      rw [Record.get_map, hget]
      rfl
  | stop => cases hstop
  | processOne other changed hother hready =>
      have hne : other ≠ name := by simpa [ownStep] using hown
      refine ⟨q, ?_, Grows.refl q⟩
      rw [get_setQueue, if_neg hne]
      exact hget
  | settle other failure changed id hother hexecuting =>
      have hne : other ≠ name := by simpa [ownStep] using hown
      refine ⟨q, ?_, Grows.refl q⟩
      rw [get_setQueue, if_neg hne]
      exact hget

/-- An own step of a queue begins the chain's next step, or settles its handler. -/
theorem ownStep_cases
    {name : String}
    (hget : w.inProcessQueues.get name = some q)
    (hown : ownStep name event = true)
    (hstep : step w event = some w') :
    (q.executing = none ∧ 0 < q.scheduled ∧ w' = w.setQueue name q.processOne) ∨
      ∃ id failure, q.executing = some id ∧ w' = w.setQueue name (q.settle id failure) := by
  cases stepped_of_step hstep with
  | processOne other changed hother hready =>
      obtain rfl : other = name := by simpa [ownStep] using hown
      obtain rfl := Option.some.inj (hget.symm.trans hother)
      exact Or.inl ⟨hready.1, hready.2, rfl⟩
  | settle other failure changed id hother hexecuting =>
      obtain rfl : other = name := by simpa [ownStep] using hown
      obtain rfl := Option.some.inj (hget.symm.trans hother)
      exact Or.inr ⟨id, failure, hexecuting, rfl⟩
  | register other => cases hown
  | enqueue other id payload => cases hown
  | retryNothing other id => cases hown
  | retryFind other id => cases hown
  | retryAdd n id => cases hown
  | start => cases hown
  | stop => cases hown

theorem ran_step
    {name id : String}
    (hinv : WorldInv w)
    (hran : Ran w name id)
    (hstop : isStop event = false)
    (hstep : step w event = some w') :
    Ran w' name id := by
  obtain ⟨q, hget, hmem⟩ := hran
  cases hown : ownStep name event with
  | false =>
      obtain ⟨q', hget', hgrows⟩ := grows_step hget hown hstop hstep
      exact ⟨q', hget', by rw [hgrows.ran]; exact hmem⟩
  | true =>
      rcases ownStep_cases hget hown hstep with ⟨-, -, rfl⟩ | ⟨executing, failure, -, rfl⟩
      · refine ⟨q.processOne, by rw [get_setQueue, if_pos rfl], ?_⟩
        obtain ⟨-, hidle⟩ | ⟨first, rest, records, -, hprocess, -⟩ :=
          InProcessQueue.processOne_cases (hinv.queues name q hget)
        · rw [hidle]
          exact hmem
        · rw [hprocess]
          exact List.mem_append_left _ hmem
      · refine ⟨q.settle executing failure, by rw [get_setQueue, if_pos rfl], ?_⟩
        rw [InProcessQueue.ran_settle]
        exact hmem

/-- The job waits in a running queue with a handler, `n` own steps before its own. -/
def JobAt (w : World α) (name id : String) (n : Nat) : Prop :=
  ∃ q earlier later, w.inProcessQueues.get name = some q ∧
    q.running = true ∧ q.handler = true ∧ q.pendingIds = earlier ++ id :: later ∧
      n = 2 * earlier.length + (if q.executing = none then 1 else 2)

variable {n : Nat}

theorem JobAt.pos {name id : String} (h : JobAt w name id n) : 0 < n := by
  obtain ⟨q, earlier, later, -, -, -, -, rfl⟩ := h
  split <;> omega

/-- Other events leave the job at its place. -/
theorem JobAt.other
    {name id : String}
    (hjob : JobAt w name id n)
    (hown : ownStep name event = false)
    (hstop : isStop event = false)
    (hstep : step w event = some w') :
    JobAt w' name id n := by
  obtain ⟨q, earlier, later, hget, hrunning, hhandler, hpending, rfl⟩ := hjob
  obtain ⟨q', hget', hgrows⟩ := grows_step hget hown hstop hstep
  obtain ⟨tail, htail⟩ := hgrows.pendingIds
  refine ⟨q', earlier, later ++ tail, hget', hgrows.running hrunning, hgrows.handler hhandler,
    ?_, ?_⟩
  · rw [htail, hpending]
    simp
  · rw [hgrows.executing]

/-- An own step runs the job or brings it one step nearer. -/
theorem JobAt.own
    {name id : String}
    (hinv : WorldInv w)
    (hjob : JobAt w name id n)
    (hown : ownStep name event = true)
    (hstep : step w event = some w') :
    Ran w' name id ∨ JobAt w' name id (n - 1) := by
  obtain ⟨q, earlier, later, hget, hrunning, hhandler, hpending, rfl⟩ := hjob
  rcases ownStep_cases hget hown hstep with ⟨hexecuting, -, rfl⟩ | ⟨executing, failure, hexecuting, rfl⟩
  · cases earlier with
    | nil =>
        -- the job is the oldest one: the step takes it
        obtain ⟨records, hprocess, -⟩ :=
          InProcessQueue.processOne_cons (hinv.queues name q hget) hrunning hhandler hpending
        refine Or.inl ⟨q.processOne, by rw [get_setQueue, if_pos rfl], ?_⟩
        rw [hprocess]
        exact List.mem_append_right _ (List.mem_singleton.mpr rfl)
    | cons first earlier =>
        obtain ⟨records, hprocess, -⟩ :=
          InProcessQueue.processOne_cons (hinv.queues name q hget) hrunning hhandler hpending
        refine Or.inr ⟨q.processOne, earlier, later, by rw [get_setQueue, if_pos rfl], ?_⟩
        rw [hprocess]
        refine ⟨hrunning, hhandler, rfl, ?_⟩
        simp only [hexecuting, if_true, List.length_cons, reduceCtorEq, if_false]
        omega
  · refine Or.inr ⟨q.settle executing failure, earlier, later, by rw [get_setQueue, if_pos rfl], ?_⟩
    refine ⟨?_, ?_, ?_, ?_⟩
    · rw [InProcessQueue.running_settle]
      exact hrunning
    · rw [InProcessQueue.handler_settle]
      exact hhandler
    · rw [InProcessQueue.pendingIds_settle]
      exact hpending
    · simp only [InProcessQueue.executing_settle, hexecuting, reduceCtorEq, if_true, if_false]
      omega

/-- After as many own steps as the job's place says, it has run. -/
theorem ran_of_ownSteps
    {events : List (Event α)} {name id : String}
    (hinv : WorldInv w)
    (hjob : Ran w name id ∨ ∃ n, n ≤ events.countP (ownStep name) ∧ JobAt w name id n)
    (hrun : runEvents step w events = some w')
    (hstop : events.any isStop = false) :
    Ran w' name id := by
  induction events generalizing w with
  | nil =>
      obtain rfl := Option.some.inj hrun
      rcases hjob with hran | ⟨n, hn, hjob⟩
      · exact hran
      · have hpos := hjob.pos
        rw [List.countP_nil] at hn
        omega
  | cons event events ih =>
      simp only [runEvents, Option.bind_eq_some_iff] at hrun
      obtain ⟨t, hstep, hrest⟩ := hrun
      rw [List.any_cons, Bool.or_eq_false_iff] at hstop
      refine ih (worldInv_step hinv hstep) ?_ hrest hstop.2
      rcases hjob with hran | ⟨n, hn, hjob⟩
      · exact Or.inl (ran_step hinv hran hstop.1 hstep)
      · cases hown : ownStep name event with
        | false =>
            rw [List.countP_cons_of_neg (by simp [hown])] at hn
            exact Or.inr ⟨n, hn, hjob.other hown hstop.1 hstep⟩
        | true =>
            rw [List.countP_cons_of_pos hown] at hn
            rcases hjob.own hinv hown hstep with hran | hnearer
            · exact Or.inl hran
            · exact Or.inr ⟨n - 1, by omega, hnearer⟩

/-- An attended queue with a pending job can take a step. -/
theorem exists_ownStep
    {name : String}
    (hget : w.inProcessQueues.get name = some q)
    (hattended : 0 < q.scheduled ∨ q.executing ≠ none) :
    ∃ event, ownStep name event = true ∧ (step w event).isSome = true := by
  cases hexecuting : q.executing with
  | some id =>
      refine ⟨.settle name none, by simp [ownStep], ?_⟩
      simp [step, hget, hexecuting]
  | none =>
      have hscheduled : 0 < q.scheduled := by
        rcases hattended with h | h
        · exact h
        · exact absurd hexecuting h
      refine ⟨.processOne name, by simp [ownStep], ?_⟩
      simp [step, hget, hexecuting, hscheduled]

/-! ## Draining ends -/

namespace InProcessQueue

/-- A running queue with a handler, between two steps of its chain. -/
structure Working (q : InProcessQueue α) : Prop where
  inv : q.Inv
  attended : q.Attended
  running : q.running = true
  handler : q.handler = true
  executing : q.executing = none

variable {q : InProcessQueue α}

theorem working_settle
    {id : String}
    (hinv : q.Inv)
    (hrunning : q.running = true)
    (hhandler : q.handler = true)
    (hexecuting : q.executing = some id)
    (failure : Option String) :
    (q.settle id failure).Working where
  inv := hinv.settle hexecuting
  attended := attended_settle q id failure
  running := by rw [running_settle]; exact hrunning
  handler := by rw [handler_settle]; exact hhandler
  executing := executing_settle q id failure

/-- A whole step takes one pending job off, if there is one. -/
theorem Working.runStep (hworking : q.Working) (outcome : String → Option String) :
    (q.runStep outcome).Working ∧
      (q.runStep outcome).pendingIds.length = q.pendingIds.length - 1 := by
  obtain ⟨hhandler, hrunning, -⟩ := processOne_spec hworking.inv
  rw [hworking.handler] at hhandler
  rw [hworking.running] at hrunning
  cases hpending : q.pendingIds with
  | nil =>
      have hprocess : q.processOne = { q with scheduled := q.scheduled - 1 } :=
        processOne_idle fun _ _ => hpending
      have hstep : q.runStep outcome = { q with scheduled := q.scheduled - 1 } := by
        unfold InProcessQueue.runStep
        rw [hprocess]
        dsimp only
        rw [hworking.executing]
      rw [hstep]
      refine ⟨⟨?_, ?_, hworking.running, hworking.handler, hworking.executing⟩, ?_⟩
      · rw [← hprocess]
        exact hworking.inv.processOne
      · rw [← hprocess]
        exact attended_processOne hworking.inv
      · simp [hpending]
  | cons id rest =>
      obtain ⟨records, hprocess, -⟩ :=
        processOne_cons hworking.inv hworking.running hworking.handler hpending
      have hexecuting : q.processOne.executing = some id := by
        rw [hprocess]
      have hstep : q.runStep outcome = q.processOne.settle id (outcome id) := by
        unfold InProcessQueue.runStep
        rw [hexecuting]
      rw [hstep]
      refine ⟨working_settle hworking.inv.processOne hrunning hhandler hexecuting _, ?_⟩
      rw [pendingIds_settle, hprocess]
      simp

theorem Working.runSteps (hworking : q.Working) (outcome : String → Option String) (n : Nat) :
    (q.runSteps outcome n).Working ∧
      (q.runSteps outcome n).pendingIds.length = q.pendingIds.length - n := by
  induction n generalizing q with
  | zero => exact ⟨hworking, rfl⟩
  | succ n ih =>
      obtain ⟨hnext, hlength⟩ := hworking.runStep outcome
      obtain ⟨hlast, hlength'⟩ := ih hnext
      refine ⟨hlast, ?_⟩
      change ((q.runStep outcome).runSteps outcome n).pendingIds.length = _
      rw [hlength', hlength]
      omega

/-- The jobs that are left, and the one whose handler is awaited. -/
def workLeft (q : InProcessQueue α) : Nat :=
  2 * q.pendingIds.length + (if q.executing = none then 0 else 1)

/-- Awaiting the chain of an attended queue leaves less work. -/
theorem awaitInFlight_spec
    (hinv : q.Inv)
    (hattended : q.Attended)
    (hrunning : q.running = true)
    (hhandler : q.handler = true)
    (hpending : q.pendingIds ≠ [])
    (outcome : String → Option String) :
    (q.awaitInFlight outcome).Working ∧ (q.awaitInFlight outcome).workLeft < q.workLeft := by
  have hlength : 0 < q.pendingIds.length := List.length_pos_of_ne_nil hpending
  unfold InProcessQueue.awaitInFlight
  cases hexecuting : q.executing with
  | none =>
      have hscheduled : 0 < q.scheduled := by
        rcases hattended hrunning hhandler hpending with h | h
        · exact h
        · exact absurd hexecuting h
      obtain ⟨hlast, hleft⟩ :=
        Working.runSteps ⟨hinv, hattended, hrunning, hhandler, hexecuting⟩ outcome q.scheduled
      refine ⟨hlast, ?_⟩
      simp only [workLeft, hlast.executing, hexecuting, if_true, hleft]
      omega
  | some id =>
      obtain ⟨hlast, hleft⟩ :=
        (working_settle hinv hrunning hhandler hexecuting (outcome id)).runSteps outcome q.scheduled
      refine ⟨hlast, ?_⟩
      rw [pendingIds_settle] at hleft
      simp only [workLeft, hlast.executing, hexecuting, if_true, reduceCtorEq, if_false, hleft]
      omega

/-- The loop of `drain` ends once the fuel exceeds the work that is left. -/
theorem isSome_drain
    {fuel : Nat}
    (hinv : q.Inv)
    (hattended : q.Attended)
    (hready : q.running = true → q.pendingIds ≠ [] → q.handler = true)
    (hfuel : q.workLeft < fuel)
    (outcome : String → Option String) :
    (q.drain outcome fuel).isSome = true := by
  induction fuel generalizing q with
  | zero => omega
  | succ fuel ih =>
      unfold InProcessQueue.drain
      split
      · rfl
      · next hpending =>
        split
        · rfl
        · next hactive =>
          have hrunning : q.running = true := by simpa using hactive
          have hhandler := hready hrunning hpending
          obtain ⟨hnext, hless⟩ :=
            awaitInFlight_spec hinv hattended hrunning hhandler hpending outcome
          exact ih hnext.inv hnext.attended (fun _ _ => hnext.handler) (by omega)

end InProcessQueue

theorem isSome_drainAll
    {entries : List (String × InProcessQueue α)} {outcome : String → Option String} {fuel : Nat}
    (hdrain : ∀ entry ∈ entries, (entry.2.drain outcome fuel).isSome = true) :
    (drainAll outcome fuel entries).isSome = true := by
  induction entries with
  | nil => rfl
  | cons entry entries ih =>
      obtain ⟨name, q⟩ := entry
      obtain ⟨q', hq'⟩ := Option.isSome_iff_exists.mp (hdrain (name, q) List.mem_cons_self)
      obtain ⟨rest', hrest'⟩ :=
        Option.isSome_iff_exists.mp
          (ih fun other hother => hdrain other (List.mem_cons_of_mem _ hother))
      have hq' : q.drain outcome fuel = some q' := hq'
      simp only [drainAll, hq', hrest', Option.bind_some, Option.map_some, Option.isSome_some]

/-- One fuel is enough for every queue. -/
theorem exists_workLeft_bound (entries : List (String × InProcessQueue α)) :
    ∃ bound, ∀ entry ∈ entries, entry.2.workLeft < bound := by
  induction entries with
  | nil =>
      refine ⟨0, ?_⟩
      intro entry hentry
      cases hentry
  | cons first entries ih =>
      obtain ⟨bound, hbound⟩ := ih
      refine ⟨max bound (first.2.workLeft + 1), ?_⟩
      intro entry hentry
      rcases List.mem_cons.mp hentry with rfl | hrest
      · omega
      · have hless := hbound entry hrest
        omega

/-! ## No stranded job -/

/-- In every run whose registrations come in time, no job is stranded. -/
theorem noStrandedJob_of_reaches
    {w : World α}
    (hrun : Reaches step RegistersInTime initialWorld w) :
    NoStrandedJob w := by
  obtain ⟨hinv, hall⟩ : WorldInv w ∧ AllAttended w := by
    refine Reaches.invariant (I := fun w => WorldInv w ∧ AllAttended w) hrun ?_ ?_
    · refine ⟨worldInv_initialWorld, ?_⟩
      intro name q hq
      cases hq
    · intro t event t' ht hintime hstep
      exact ⟨worldInv_step ht.1 hstep, allAttended_step ht.1 ht.2 hintime hstep⟩
  refine ⟨?_, ?_, hinv.serving, ?_, ?_⟩
  · intro name q hget hrunning hhandler hscheduled hexecuting
    by_contra hpending
    rcases hall name q hget hrunning hhandler hpending with h | h
    · omega
    · exact h hexecuting
  · intro id name hissued
    obtain ⟨q, hget⟩ := hinv.placed id name hissued
    have hmem : id ∈ q.ran ++ q.pendingIds := (hinv.known name q hget id).mpr hissued
    exact ⟨q, hget, List.count_eq_one_of_mem (hinv.queues name q hget).nodup hmem⟩
  · intro name q hget hrunning hhandler id hid
    have hpending : q.pendingIds ≠ [] := List.ne_nil_of_mem hid
    refine ⟨exists_ownStep hget (hall name q hget hrunning hhandler hpending), ?_⟩
    obtain ⟨earlier, later, hsplit⟩ := List.append_of_mem hid
    refine ⟨2 * earlier.length + (if q.executing = none then 1 else 2), ?_⟩
    intro events w' hevents hstop hbound
    have hjob : JobAt w name id (2 * earlier.length + (if q.executing = none then 1 else 2)) :=
      ⟨q, earlier, later, hget, hrunning, hhandler, hsplit, rfl⟩
    exact ran_of_ownSteps hinv (Or.inr ⟨_, hbound, hjob⟩) hevents hstop
  · intro hready outcome
    obtain ⟨bound, hbound⟩ := exists_workLeft_bound w.inProcessQueues.entries
    refine ⟨bound, ?_⟩
    intro fuel hfuel
    refine isSome_drainAll ?_
    rintro ⟨name, q⟩ hentry
    have hget : w.inProcessQueues.get name = some q :=
      OrderedMap.get_of_mem w.inProcessQueues.distinct hentry
    have hless := hbound (name, q) hentry
    exact
      InProcessQueue.isSome_drain (hinv.queues name q hget) (hall name q hget)
        (hready name q hget) (lt_of_lt_of_le hless hfuel) outcome

/-! ## A handler that comes too late -/

/-- Enqueued before `start` and `register`, in time for the first step. -/
theorem noStrandedJob_registerBeforeStep :
    ∃ w : World Unit, NoStrandedJob w ∧ Ran w "mail" "j1" := by
  have henqueue : Reaches step RegistersInTime (initialWorld : World Unit) _ :=
    Reaches.tail (e := .enqueue "mail" "j1" ()) (Reaches.refl _) trivial rfl
  have hstart : Reaches step RegistersInTime (initialWorld : World Unit) _ :=
    Reaches.tail (e := .start) henqueue trivial rfl
  have hregister : Reaches step RegistersInTime (initialWorld : World Unit) _ :=
    Reaches.tail (e := .register "mail") hstart
      (fun q hq _ _ _ => by
        obtain rfl := Option.some.inj hq
        exact Or.inl (by decide))
      rfl
  have hstep : Reaches step RegistersInTime (initialWorld : World Unit) _ :=
    Reaches.tail (e := .processOne "mail") hregister trivial rfl
  exact ⟨_, noStrandedJob_of_reaches hstep, _, rfl, by decide⟩

/-- The step of `start` runs before `register`: the job stays pending behind no step. -/
theorem not_noStrandedJob_registerAfterStep :
    ¬ ∀ w : World Unit, Reaches step anyEvent initialWorld w → NoStrandedJob w := by
  intro hkeep
  have hrun :
      (runEvents step (initialWorld : World Unit)
          [.enqueue "mail" "j1" (), .start, .processOne "mail", .register "mail"]).isSome =
        true := by
    decide
  obtain ⟨w, hw⟩ := Option.isSome_iff_exists.mp hrun
  have hidle := (hkeep w (reaches_of_runEvents hw)).idle "mail"
  have hqueue :
      ((runEvents step (initialWorld : World Unit)
          [.enqueue "mail" "j1" (), .start, .processOne "mail", .register "mail"]).bind
        fun w => w.inProcessQueues.get "mail").map (fun q =>
          (q.running, q.handler, q.scheduled, q.executing, q.pendingIds)) =
        some (true, true, 0, none, ["j1"]) := by
    decide
  rw [hw, Option.bind_some, Option.map_eq_some_iff] at hqueue
  obtain ⟨q, hget, hq⟩ := hqueue
  simp only [Prod.mk.injEq] at hq
  obtain ⟨hrunning, hhandler, hscheduled, hexecuting, hpending⟩ := hq
  have hempty := hidle q hget hrunning hhandler hscheduled hexecuting
  rw [hpending] at hempty
  cases hempty

end Jobs
end NestBase
