import NestBase.Core.RealtimeChannels
import NestBase.Lib.OrderedMap
import NestBase.Lib.Transition

/-!
# The registry of the realtime gateway

`handleConnection` starts `authenticateConnection`, which waits for the
session and then for the ability before `acceptConnection` registers the
socket.  The socket is connected all the while.  Disconnects, messages and
broadcasts fall between any two of these steps.

An emission is logged with the state its recipient had: whether the session
was validated.  The log is read by no code.

The registry is sound as long as no socket is accepted after its
`handleDisconnect`, and nothing is broadcast to a socket that waits for its
session (`OnTime`).
-/

namespace NestBase
namespace Realtime
namespace Registry

open Lib
open Permissions

/-! ## Sockets -/

/-- Where `authenticateConnection` is. -/
inductive Handshake where
  | notStarted
  /-- Waiting for `getSession`. -/
  | lookingUp
  /-- The session is there; waiting for `abilityFor`. -/
  | resolving (userId tenantId : String)
  | rejected
  | accepted
deriving DecidableEq, Repr

structure SocketState where
  handshake : Handshake
  /-- In the namespace of the server. -/
  connected : Bool
  /-- `handleDisconnect` has run. -/
  disconnectHandled : Bool
  rooms : List String
  ability : Option Ability
  /-- The listeners for `subscribe`, and as many for `unsubscribe`. -/
  listeners : Nat

def SocketState.validated (socket : SocketState) : Bool :=
  match socket.handshake with
  | .resolving _ _ => true
  | .accepted => true
  | _ => false

/-- A socket before its connection. -/
def newSocket : SocketState where
  handshake := .notStarted
  connected := false
  disconnectHandled := false
  rooms := []
  ability := none
  listeners := 0

/-- What the inspector keeps of a socket. -/
structure SocketRecord where
  userId : String
  tenantId : String
  channels : List String
deriving DecidableEq, Repr

structure Emission where
  socketId : String
  event : String
  validated : Bool
deriving DecidableEq, Repr

structure World where
  sockets : String → SocketState
  /-- The ids of the sockets that have ever connected. -/
  ids : List String
  liveSockets : List String
  /-- `InspectorState.sockets` -/
  inspector : List (String × SocketRecord)
  emissions : List Emission

def initialWorld : World where
  sockets := fun _ => newSocket
  ids := []
  liveSockets := []
  inspector := []
  emissions := []

inductive Event where
  | handleConnection (id : String)
  /-- `getSession` ends; a failure counts as no session. -/
  | sessionResolved (id : String) (session : Option SessionLookup)
  /-- `abilityFor` ends; a failure leaves no ability. -/
  | abilityResolved (id : String) (ability : Option Ability)
  | message (id : String) (message : Message)
  | handleDisconnect (id : String)
  | disconnectSocket (id : String)
  | broadcast (channel event : String)
  | broadcastGlobal (event : String)

namespace World

def setSocket (w : World) (id : String) (socket : SocketState) : World :=
  { w with sockets := Function.update w.sockets id socket }

/-- `client.disconnect(true)`: the socket leaves the namespace and its rooms. -/
def disconnect (w : World) (id : String) : World :=
  w.setSocket id { w.sockets id with connected := false, rooms := [] }

/-- `liveSockets.delete` and `recordDisconnect` -/
def forget (w : World) (id : String) : World :=
  { w with
    liveSockets := w.liveSockets.filter fun live => live ≠ id
    inspector := OrderedMap.delete id w.inspector }

def acceptConnection (w : World) (id userId tenantId : String) (ability : Option Ability) : World :=
  let socket := w.sockets id
  { w with
    sockets :=
      Function.update w.sockets id
        { socket with
          handshake := .accepted
          ability := ability
          listeners := socket.listeners + 1 }
    liveSockets := w.liveSockets.insert id
    inspector :=
      OrderedMap.set id { userId := userId, tenantId := tenantId, channels := [] } w.inspector }

/-- A change of the channels the inspector has for a socket. -/
def recordChannels (w : World) (id : String) (change : List String → List String) : World :=
  match OrderedMap.get id w.inspector with
  | none => w
  | some record =>
      { w with
        inspector :=
          OrderedMap.set id { record with channels := change record.channels } w.inspector }

def inRoom (w : World) (room id : String) : Bool :=
  (w.sockets id).connected && decide (room ∈ (w.sockets id).rooms)

def emitTo (w : World) (event : String) (recipients : List String) : World :=
  { w with
    emissions :=
      w.emissions ++
        recipients.map fun id =>
          { socketId := id, event := event, validated := (w.sockets id).validated } }

end World

section Step

variable (test : String → String → Json → TenantSubject → Bool)
variable (permissionService : Bool)

/-- The listeners of `acceptConnection`; the argument of a message is any value. -/
def receive (w : World) (id : String) : Message → World
  | .subscribe (.str channel) =>
      let socket := w.sockets id
      if channel = "" then w
      else if subscriptionAllowed test socket.ability channel then
        (w.setSocket id { socket with rooms := socket.rooms.insert channel }).recordChannels id
          fun channels => channels.insert channel
      else w
  | .unsubscribe (.str channel) =>
      let socket := w.sockets id
      if channel = "" then w
      else
        (w.setSocket id
          { socket with rooms := socket.rooms.filter fun room => room ≠ channel }).recordChannels id
            fun channels => channels.filter fun name => name ≠ channel
  | _ => w

/--
One event; `none` when it cannot happen.  A socket is in the room of its id
from the start.  `disconnect(true)` is followed by a `handleDisconnect`.
-/
def step (w : World) : Event → Option World
  | .handleConnection id =>
      let socket := w.sockets id
      if socket.handshake = .notStarted then
        some
          { w.setSocket id
              { socket with handshake := .lookingUp, connected := true, rooms := [id] } with
            ids := w.ids ++ [id] }
      else none
  | .sessionResolved id session =>
      let socket := w.sockets id
      if socket.handshake = .lookingUp then
        match session with
        | none => some ((w.setSocket id { socket with handshake := .rejected }).disconnect id)
        | some session =>
            if permissionService then
              some
                (w.setSocket id
                  { socket with handshake := .resolving session.userId session.tenantId })
            else some (w.acceptConnection id session.userId session.tenantId none)
      else none
  | .abilityResolved id ability =>
      match (w.sockets id).handshake with
      | .resolving userId tenantId => some (w.acceptConnection id userId tenantId ability)
      | _ => none
  | .message id message =>
      if (w.sockets id).connected ∧ 0 < (w.sockets id).listeners then
        some (receive test w id message)
      else none
  | .handleDisconnect id =>
      let socket := w.sockets id
      if socket.handshake ≠ .notStarted ∧ socket.disconnectHandled = false then
        some
          ((w.forget id).setSocket id
            { socket with
              connected := false
              rooms := []
              disconnectHandled := true
              listeners := 0 })
      else none
  | .disconnectSocket id =>
      match OrderedMap.get id w.inspector with
      | none => some w
      | some _ =>
          if id ∈ w.liveSockets then some ((w.disconnect id).forget id) else some (w.forget id)
  | .broadcast channel event => some (w.emitTo event (w.ids.filter (w.inRoom channel)))
  | .broadcastGlobal event =>
      some (w.emitTo event (w.ids.filter fun id => (w.sockets id).connected))

end Step

/-! ## Soundness -/

/-- The socket is authenticated and its `handleDisconnect` has not run. -/
def Registered (socket : SocketState) : Prop :=
  socket.handshake = .accepted ∧ socket.disconnectHandled = false

structure RegistrySound (w : World) : Prop where
  live : ∀ id ∈ w.liveSockets, Registered (w.sockets id)
  inspected : ∀ entry ∈ w.inspector, Registered (w.sockets entry.1)
  listeners :
    ∀ id, (w.sockets id).disconnectHandled = true → (w.sockets id).listeners = 0
  emissions : ∀ emission ∈ w.emissions, emission.validated = true

/--
A socket is accepted before its `handleDisconnect`.  A broadcast does not name
the id of a connected socket without a session, and a global one is made while
there is none.
-/
def OnTime (permissionService : Bool) (w : World) : Event → Prop
  | .sessionResolved id (some _) =>
      permissionService = false → (w.sockets id).disconnectHandled = false
  | .abilityResolved id _ => (w.sockets id).disconnectHandled = false
  | .broadcast channel _ =>
      (w.sockets channel).connected = true → (w.sockets channel).validated = true
  | .broadcastGlobal _ =>
      ∀ id, (w.sockets id).connected = true → (w.sockets id).validated = true
  | _ => True

/-! ## The invariant -/

/-- What is registered under an id, and the rooms of its socket. -/
structure SocketInv (w : World) (id : String) : Prop where
  live : id ∈ w.liveSockets → Registered (w.sockets id)
  inspected : ∀ record, (id, record) ∈ w.inspector → Registered (w.sockets id)
  listeners : 0 < (w.sockets id).listeners → Registered (w.sockets id)
  /-- Before its acceptance a socket is in the room of its id only. -/
  rooms : ∀ room ∈ (w.sockets id).rooms, room = id ∨ (w.sockets id).handshake = .accepted

structure Inv (w : World) : Prop where
  socket : ∀ id, SocketInv w id
  emissions : ∀ emission ∈ w.emissions, emission.validated = true

theorem inv_initialWorld : Inv initialWorld where
  socket := by
    intro id
    constructor
    · intro hlive
      cases hlive
    · intro record hrecord
      cases hrecord
    · intro hlisteners
      exact absurd hlisteners (Nat.lt_irrefl 0)
    · intro room hroom
      cases hroom
  emissions := by
    intro emission hemission
    cases hemission

variable {w w' : World}

theorem Inv.sound (h : Inv w) : RegistrySound w where
  live := fun id hlive => (h.socket id).live hlive
  inspected := fun entry hentry => (h.socket entry.1).inspected entry.2 hentry
  listeners := by
    intro id hhandled
    by_contra hne
    have hregistered := (h.socket id).listeners (Nat.pos_of_ne_zero hne)
    rw [hregistered.2] at hhandled
    cases hhandled
  emissions := h.emissions

/-- Apart from one id nothing is new. -/
structure ChangesOnly (id : String) (w w' : World) : Prop where
  sockets : ∀ other, other ≠ id → w'.sockets other = w.sockets other
  live : ∀ other, other ≠ id → other ∈ w'.liveSockets → other ∈ w.liveSockets
  inspector :
    ∀ entry, entry.1 ≠ id → entry ∈ w'.inspector → entry ∈ w.inspector
  emissions : w'.emissions = w.emissions

theorem Inv.change
    {id : String}
    (h : Inv w)
    (hchange : ChangesOnly id w w')
    (hid : SocketInv w' id) :
    Inv w' where
  socket := by
    intro other
    by_cases hother : other = id
    · rw [hother]
      exact hid
    · have hsocket := hchange.sockets other hother
      constructor
      · intro hlive
        rw [hsocket]
        exact (h.socket other).live (hchange.live other hother hlive)
      · intro record hrecord
        rw [hsocket]
        exact (h.socket other).inspected record (hchange.inspector _ hother hrecord)
      · rw [hsocket]
        exact (h.socket other).listeners
      · rw [hsocket]
        exact (h.socket other).rooms
  emissions := by
    rw [hchange.emissions]
    exact h.emissions

@[simp] theorem setSocket_self (w : World) (id : String) (socket : SocketState) :
    (w.setSocket id socket).sockets id = socket :=
  Function.update_self _ _ _

theorem changesOnly_setSocket (w : World) (id : String) (socket : SocketState) :
    ChangesOnly id w (w.setSocket id socket) where
  sockets := fun _ hother => Function.update_of_ne hother _ _
  live := fun _ _ hlive => hlive
  inspector := fun _ _ hentry => hentry
  emissions := rfl

theorem ChangesOnly.trans
    {id : String} {w'' : World}
    (h : ChangesOnly id w w')
    (h' : ChangesOnly id w' w'') :
    ChangesOnly id w w'' where
  sockets := fun other hother => (h'.sockets other hother).trans (h.sockets other hother)
  live := fun other hother hlive => h.live other hother (h'.live other hother hlive)
  inspector := fun entry hother hentry => h.inspector entry hother (h'.inspector entry hother hentry)
  emissions := h'.emissions.trans h.emissions

theorem changesOnly_forget (w : World) (id : String) : ChangesOnly id w (w.forget id) where
  sockets := fun _ _ => rfl
  live := fun _ _ hlive => (List.mem_filter.mp hlive).1
  inspector := fun _ _ hentry => (OrderedMap.mem_delete_iff.mp hentry).1
  emissions := rfl

theorem not_mem_forget (w : World) (id : String) :
    id ∉ (w.forget id).liveSockets ∧ ∀ record, (id, record) ∉ (w.forget id).inspector := by
  constructor
  · intro hlive
    have hne := (List.mem_filter.mp hlive).2
    simp at hne
  · intro record hentry
    exact (OrderedMap.mem_delete_iff.mp hentry).2 rfl

theorem changesOnly_recordChannels (w : World) (id : String) (change : List String → List String) :
    ChangesOnly id w (w.recordChannels id change) := by
  unfold World.recordChannels
  split
  · exact ⟨fun _ _ => rfl, fun _ _ hlive => hlive, fun _ _ hentry => hentry, rfl⟩
  · refine ⟨fun _ _ => rfl, fun _ _ hlive => hlive, ?_, rfl⟩
    intro entry hother hentry
    rcases OrderedMap.mem_set hentry with rfl | hold
    · exact absurd rfl hother
    · exact hold

/-- A socket that is not registered has left no trace. -/
theorem Inv.untraced {id : String} (h : Inv w) (hnot : ¬ Registered (w.sockets id)) :
    id ∉ w.liveSockets ∧ (∀ record, (id, record) ∉ w.inspector) ∧
      (w.sockets id).listeners = 0 := by
  refine ⟨fun hlive => hnot ((h.socket id).live hlive), ?_, ?_⟩
  · intro record hrecord
    exact hnot ((h.socket id).inspected record hrecord)
  · by_contra hne
    exact hnot ((h.socket id).listeners (Nat.pos_of_ne_zero hne))

/-- A step of the handshake that does not end it. -/
theorem Inv.setSocket_waiting
    {id : String}
    (h : Inv w)
    (hnot : ¬ Registered (w.sockets id))
    (socket : SocketState)
    (hlisteners : socket.listeners = (w.sockets id).listeners)
    (hrooms : ∀ room ∈ socket.rooms, room = id) :
    Inv (w.setSocket id socket) := by
  obtain ⟨hlive, hinspected, hnone⟩ := h.untraced hnot
  have hsocket := setSocket_self w id socket
  refine h.change (changesOnly_setSocket w id socket) ?_
  constructor
  · exact fun hmem => absurd hmem hlive
  · exact fun record hmem => absurd hmem (hinspected record)
  · rw [hsocket, hlisteners, hnone]
    exact fun hpos => absurd hpos (Nat.lt_irrefl 0)
  · rw [hsocket]
    exact fun room hroom => Or.inl (hrooms room hroom)

theorem Inv.acceptConnection
    {id : String}
    (h : Inv w)
    (hhandled : (w.sockets id).disconnectHandled = false)
    (userId tenantId : String)
    (ability : Option Ability) :
    Inv (w.acceptConnection id userId tenantId ability) := by
  have hchange : ChangesOnly id w (w.acceptConnection id userId tenantId ability) := by
    refine ⟨fun other hother => Function.update_of_ne hother _ _, ?_, ?_, rfl⟩
    · intro other hother hlive
      exact (List.mem_insert_iff.mp hlive).resolve_left hother
    · intro entry hother hentry
      rcases OrderedMap.mem_set hentry with rfl | hold
      · exact absurd rfl hother
      · exact hold
  have hregistered :
      Registered ((w.acceptConnection id userId tenantId ability).sockets id) := by
    have hself :
        (w.acceptConnection id userId tenantId ability).sockets id =
          { w.sockets id with
            handshake := .accepted
            ability := ability
            listeners := (w.sockets id).listeners + 1 } :=
      Function.update_self _ _ _
    rw [hself]
    exact ⟨rfl, hhandled⟩
  refine h.change hchange ?_
  exact
    ⟨fun _ => hregistered, fun _ _ => hregistered, fun _ => hregistered,
      fun _ _ => Or.inr hregistered.1⟩

/-- A change of the rooms of a registered socket. -/
theorem Inv.changeRooms
    {id : String}
    (h : Inv w)
    (hregistered : Registered (w.sockets id))
    (rooms : List String)
    (change : List String → List String) :
    Inv ((w.setSocket id { w.sockets id with rooms := rooms }).recordChannels id change) := by
  have hsockets :
      ((w.setSocket id { w.sockets id with rooms := rooms }).recordChannels id change).sockets id =
        { w.sockets id with rooms := rooms } := by
    unfold World.recordChannels
    split <;> exact Function.update_self _ _ _
  have hstill :
      Registered
        (((w.setSocket id { w.sockets id with rooms := rooms }).recordChannels id
          change).sockets id) := by
    rw [hsockets]
    exact hregistered
  refine
    h.change
      ((changesOnly_setSocket w id _).trans (changesOnly_recordChannels _ id change)) ?_
  exact ⟨fun _ => hstill, fun _ _ => hstill, fun _ => hstill, fun _ _ => Or.inr hstill.1⟩

theorem Inv.receive
    {test : String → String → Json → TenantSubject → Bool} {id : String}
    (h : Inv w)
    (hregistered : Registered (w.sockets id))
    (message : Message) :
    Inv (receive test w id message) := by
  unfold Registry.receive
  split
  · dsimp only
    split
    · exact h
    · split
      · exact h.changeRooms hregistered _ _
      · exact h
  · dsimp only
    split
    · exact h
    · exact h.changeRooms hregistered _ _
  · exact h

/-- What is forgotten may be in any state without listeners or still registered. -/
theorem Inv.forget
    {id : String}
    (h : Inv w)
    (hchange : ChangesOnly id (w.forget id) w')
    (hlive : w'.liveSockets = (w.forget id).liveSockets)
    (hinspector : w'.inspector = (w.forget id).inspector)
    (hlisteners : 0 < (w'.sockets id).listeners → Registered (w'.sockets id))
    (hrooms : ∀ room ∈ (w'.sockets id).rooms, room = id ∨ (w'.sockets id).handshake = .accepted) :
    Inv w' := by
  obtain ⟨hnotLive, hnotInspected⟩ := not_mem_forget w id
  refine h.change ((changesOnly_forget w id).trans hchange) ⟨?_, ?_, hlisteners, hrooms⟩
  · rw [hlive]
    exact fun hmem => absurd hmem hnotLive
  · rw [hinspector]
    exact fun record hmem => absurd hmem (hnotInspected record)

theorem Inv.withIds (h : Inv w) (ids : List String) : Inv { w with ids := ids } where
  socket := fun id => ⟨(h.socket id).live, (h.socket id).inspected, (h.socket id).listeners,
    (h.socket id).rooms⟩
  emissions := h.emissions

theorem Inv.emitTo
    {event : String} {recipients : List String}
    (h : Inv w)
    (hvalidated : ∀ id ∈ recipients, (w.sockets id).validated = true) :
    Inv (w.emitTo event recipients) where
  socket := fun id => ⟨(h.socket id).live, (h.socket id).inspected, (h.socket id).listeners,
    (h.socket id).rooms⟩
  emissions := by
    intro emission hemission
    rcases List.mem_append.mp hemission with hold | hnew
    · exact h.emissions emission hold
    · obtain ⟨id, hid, rfl⟩ := List.mem_map.mp hnew
      exact hvalidated id hid

section Runs

variable {test : String → String → Json → TenantSubject → Bool}
variable {permissionService : Bool}

/-- Every event on time keeps the invariant. -/
theorem inv_step
    {w w' : World} {event : Event}
    (h : Inv w)
    (honTime : OnTime permissionService w event)
    (hstep : step test permissionService w event = some w') :
    Inv w' := by
  cases event with
  | handleConnection id =>
      simp only [step] at hstep
      split at hstep
      · next hnew =>
        cases hstep
        have hnot : ¬ Registered (w.sockets id) := by
          intro hregistered
          rw [hregistered.1] at hnew
          cases hnew
        have hset :=
          h.setSocket_waiting hnot
            { w.sockets id with handshake := .lookingUp, connected := true, rooms := [id] } rfl
            fun room hroom => List.mem_singleton.mp hroom
        exact hset.withIds _
      · cases hstep
  | sessionResolved id session =>
      simp only [step] at hstep
      split at hstep
      · next hwaiting =>
        have hnot : ¬ Registered (w.sockets id) := by
          intro hregistered
          rw [hregistered.1] at hwaiting
          cases hwaiting
        cases session with
        | none =>
            cases hstep
            have hset :=
              h.setSocket_waiting hnot
                { w.sockets id with handshake := .rejected, connected := false, rooms := [] } rfl
                fun room hroom => absurd hroom List.not_mem_nil
            have hworld :
                (w.setSocket id { w.sockets id with handshake := .rejected }).disconnect id =
                  w.setSocket id
                    { w.sockets id with handshake := .rejected, connected := false, rooms := [] } := by
              simp only [World.disconnect, World.setSocket, Function.update_self,
                Function.update_idem]
            rw [hworld]
            exact hset
        | some session =>
            simp only at hstep
            split at hstep
            · cases hstep
              refine h.setSocket_waiting hnot _ rfl fun room hroom => ?_
              rcases (h.socket id).rooms room hroom with hown | haccepted
              · exact hown
              · rw [hwaiting] at haccepted
                cases haccepted
            · next hunbound =>
              cases hstep
              exact h.acceptConnection (honTime (Bool.eq_false_iff.mpr hunbound)) _ _ _
      · cases hstep
  | abilityResolved id ability =>
      simp only [step] at hstep
      split at hstep
      · cases hstep
        exact h.acceptConnection honTime _ _ _
      · cases hstep
  | message id message =>
      simp only [step] at hstep
      split at hstep
      · next hlistening =>
        cases hstep
        exact h.receive ((h.socket id).listeners hlistening.2) message
      · cases hstep
  | handleDisconnect id =>
      simp only [step] at hstep
      split at hstep
      · cases hstep
        refine h.forget (changesOnly_setSocket _ id _) rfl rfl ?_ ?_
        · rw [setSocket_self]
          exact fun hpos => absurd hpos (Nat.lt_irrefl 0)
        · rw [setSocket_self]
          exact fun room hroom => absurd hroom List.not_mem_nil
      · cases hstep
  | disconnectSocket id =>
      simp only [step] at hstep
      split at hstep
      · cases hstep
        exact h
      · split at hstep
        · cases hstep
          have hsocket :
              ((w.disconnect id).forget id).sockets id =
                { w.sockets id with connected := false, rooms := [] } :=
            setSocket_self w id _
          refine
            h.forget
              ⟨(changesOnly_setSocket w id _).sockets, fun _ _ hlive => hlive,
                fun _ _ hentry => hentry, rfl⟩
              rfl rfl ?_ ?_
          · rw [hsocket]
            exact (h.socket id).listeners
          · rw [hsocket]
            exact fun room hroom => absurd hroom List.not_mem_nil
        · cases hstep
          exact
            h.forget ⟨fun _ _ => rfl, fun _ _ hlive => hlive, fun _ _ hentry => hentry, rfl⟩ rfl
              rfl (h.socket id).listeners (h.socket id).rooms
  | broadcast channel event =>
      cases hstep
      refine h.emitTo fun id hid => ?_
      have hroom := (List.mem_filter.mp hid).2
      simp only [World.inRoom, Bool.and_eq_true, decide_eq_true_eq] at hroom
      rcases (h.socket id).rooms channel hroom.2 with rfl | haccepted
      · exact honTime hroom.1
      · simp only [SocketState.validated, haccepted]
  | broadcastGlobal event =>
      cases hstep
      exact h.emitTo fun id hid => honTime id (List.mem_filter.mp hid).2

/-- The registry lists connected, authenticated sockets in every run on time. -/
theorem registrySound_of_reaches
    {w : World}
    (hrun : Reaches (step test permissionService) (OnTime permissionService) initialWorld w) :
    RegistrySound w :=
  (hrun.invariant inv_initialWorld fun _ _ _ hinv honTime hstep =>
    inv_step hinv honTime hstep).sound

end Runs

/-! ## Runs of one socket -/

def memberSession : SessionLookup where
  userId := "u1"
  activeOrganizationId := some "t1"

/-- A socket is accepted, then everybody is told something. -/
theorem registrySound_accepted :
    ∃ w, Reaches (step textTest true) (OnTime true) initialWorld w ∧
      w.emissions = [{ socketId := "s1", event := "news", validated := true }] ∧
        RegistrySound w := by
  obtain ⟨w₁, h₁⟩ : ∃ w, step textTest true initialWorld (.handleConnection "s1") = some w :=
    ⟨_, rfl⟩
  obtain ⟨w₂, h₂⟩ :
      ∃ w, step textTest true w₁ (.sessionResolved "s1" (some memberSession)) = some w := by
    cases h₁
    exact ⟨_, rfl⟩
  obtain ⟨w₃, h₃⟩ : ∃ w, step textTest true w₂ (.abilityResolved "s1" (some [])) = some w := by
    cases h₁
    cases h₂
    exact ⟨_, rfl⟩
  obtain ⟨w₄, h₄⟩ : ∃ w, step textTest true w₃ (.broadcastGlobal "news") = some w :=
    ⟨_, rfl⟩
  have hrun : Reaches (step textTest true) (OnTime true) initialWorld w₄ := by
    refine Reaches.tail (Reaches.tail (Reaches.tail (Reaches.tail (Reaches.refl _) ?_ h₁) ?_ h₂)
      ?_ h₃) ?_ h₄
    · exact trivial
    · exact fun hunbound => absurd hunbound (by decide)
    · cases h₁
      cases h₂
      rfl
    · cases h₁
      cases h₂
      cases h₃
      intro id hconnected
      by_cases hid : id = "s1"
      · subst hid
        rfl
      · exfalso
        revert hconnected
        simp [World.setSocket, World.acceptConnection, hid, initialWorld, newSocket]
  refine ⟨w₄, hrun, ?_, registrySound_of_reaches hrun⟩
  cases h₁
  cases h₂
  cases h₃
  cases h₄
  rfl

/--
A socket that leaves while its ability is resolved is registered for good; and
one that waits for its session gets what is broadcast to everybody.
-/
theorem not_registrySound_late :
    (∃ w, Reaches (step textTest true) anyEvent initialWorld w ∧
      (w.sockets "s1").disconnectHandled = true ∧ w.liveSockets = ["s1"] ∧
        (w.sockets "s1").listeners = 1 ∧ ¬ RegistrySound w) ∧
      ∃ w, Reaches (step textTest true) anyEvent initialWorld w ∧
        w.emissions = [{ socketId := "s1", event := "news", validated := false }] ∧
          ¬ RegistrySound w := by
  constructor
  · obtain ⟨w, hrun⟩ :
        ∃ w, runEvents (step textTest true) initialWorld
          [.handleConnection "s1", .sessionResolved "s1" (some memberSession),
            .handleDisconnect "s1", .abilityResolved "s1" (some [])] = some w :=
      ⟨_, rfl⟩
    refine ⟨w, reaches_of_runEvents hrun, ?_⟩
    cases hrun
    refine ⟨rfl, rfl, rfl, fun hsound => ?_⟩
    exact absurd (hsound.live "s1" (by decide)).2 (by decide)
  · obtain ⟨w, hrun⟩ :
        ∃ w, runEvents (step textTest true) initialWorld
          [.handleConnection "s1", .broadcastGlobal "news"] = some w :=
      ⟨_, rfl⟩
    refine ⟨w, reaches_of_runEvents hrun, ?_⟩
    cases hrun
    refine ⟨rfl, fun hsound => ?_⟩
    exact
      absurd
        (hsound.emissions { socketId := "s1", event := "news", validated := false } (by decide))
        (by decide)

end Registry
end Realtime
end NestBase
