import NestBase.Core.Outbox
import NestBase.Core.RealtimeChannels

/-!
# Broadcasts recorded in the outbox

`RealtimeOutboxDispatcher` turns an outbox entry into a record, plans the
emission and hands it to the gateway.  The record is the type of the entry
under `kind` with the payload spread over it, so a key `kind` of the payload
replaces the type.  The room of a scope is `tenant:<id>` or `user:<id>`; a
subscribe message joins a room only when its name has three parts.
-/

namespace NestBase
namespace Realtime

open Lib
open Permissions

/-! ## The record -/

/-- What the planner reads of the record; `none` is `undefined`. -/
structure OutboxRealtimeRecord where
  kind : Json
  channel : Option Json
  payload : Option Json
  scope : Option Json

/-- `{ kind: entry.type, ...entry.payload }`; only an object has keys of these names. -/
def recordOf (entry : Outbox.OutboxEntry Json) : OutboxRealtimeRecord where
  kind := (entry.payload.field? "kind").getD (.str entry.type)
  channel := entry.payload.field? "channel"
  payload := entry.payload.field? "payload"
  scope := entry.payload.field? "scope"

def broadcastKind : String := "realtime.broadcast"

/-! ## The planner -/

mutual

/-- Whether `String(value)` returns; an own `toString` of an object is no function. -/
def convertible : Json → Bool
  | .arr items => allConvertible items
  | .obj entries => !entries.any fun entry => entry.1 == "toString"
  | _ => true

def allConvertible : List Json → Bool
  | [] => true
  | item :: rest => convertible item && allConvertible rest

end

/-- The value in a template text. -/
def templateText : Option Json → Except String String
  | none => .ok "undefined"
  | some value =>
      if convertible value then .ok value.toText
      else .error "Cannot convert object to primitive value"

inductive Room where
  | named (name : String)
  /-- `null`: every socket. -/
  | everyone
  /-- `undefined`: no case of the switch. -/
  | undefined
deriving DecidableEq, Repr

structure RealtimeEmission where
  channel : String
  payload : Option Json
  room : Room

def roomFor (scope : Option Json) : Except String Room :=
  match scope with
  | none => .error "Cannot read properties of undefined (reading 'kind')"
  | some .null => .error "Cannot read properties of null (reading 'kind')"
  | some scope =>
      match scope.field? "kind" with
      | some (.str "tenant") =>
          (templateText (scope.field? "tenantId")).map fun id => .named ("tenant:" ++ id)
      | some (.str "user") =>
          (templateText (scope.field? "userId")).map fun id => .named ("user:" ++ id)
      | some (.str "global") => .ok .everyone
      | _ => .ok .undefined

def isBlank (s : String) : Bool :=
  s.toList.all Text.isWhiteSpace

/-- The channel, a text that is not blank. -/
def channelOf (channel : Option Json) : Except String String :=
  match channel with
  | some (.str channel) =>
      if isBlank channel then .error "realtime.broadcast: channel must not be empty"
      else .ok channel
  | some value =>
      if value.truthy then .error "broadcast.channel.trim is not a function"
      else .error "realtime.broadcast: channel must not be empty"
  | none => .error "realtime.broadcast: channel must not be empty"

/-- `null` for a record of another kind. -/
def planRealtimeEmission
    (record : OutboxRealtimeRecord) : Except String (Option RealtimeEmission) :=
  match record.kind with
  | .str kind =>
      if kind ≠ broadcastKind then .ok none
      else
        match channelOf record.channel with
        | .error message => .error message
        | .ok channel =>
            (roomFor record.scope).map fun room =>
              some { channel := channel, payload := record.payload, room := room }
  | _ => .ok none

/-! ## The dispatcher -/

/-- A call of the gateway; `undefined` as a room is `none`. -/
inductive Sent where
  | broadcast (room : Option String) (event : String) (payload : Option Json)
  | broadcastGlobal (event : String) (payload : Option Json)

def emit (emission : RealtimeEmission) : Sent :=
  match emission.room with
  | .everyone => .broadcastGlobal emission.channel emission.payload
  | .named room => .broadcast (some room) emission.channel emission.payload
  | .undefined => .broadcast none emission.channel emission.payload

/-- `dispatch`; what the planner throws is logged and the entry dropped. -/
def dispatch (gateway : Bool) (entry : Outbox.OutboxEntry Json) : Option Sent :=
  match planRealtimeEmission (recordOf entry) with
  | .error _ => none
  | .ok none => none
  | .ok (some emission) => if gateway then some (emit emission) else none

/-! ## What is promised -/

/-- The channel of the payload is a text with something in it. -/
def HasChannel (payload : Json) : Prop :=
  ∃ channel, payload.field? "channel" = some (.str channel) ∧ isBlank channel = false

def scopeKinds : List String := ["tenant", "user", "global"]

/-- The scope of the payload is of a known kind. -/
def HasKnownScope (payload : Json) : Prop :=
  ∃ scope kind, payload.field? "scope" = some scope ∧ scope.field? "kind" = some (.str kind) ∧
    kind ∈ scopeKinds

/-- The ability allows reading whatever it is asked about. -/
def ReadsEverything
    (test : String → String → Json → TenantSubject → Bool) (ability : Ability) : Prop :=
  ∀ subject item, can test ability "read" subject item = some true

/-- Broadcasts go out, nothing else does, and the rooms can be joined. -/
structure Deliverable
    (test : String → String → Json → TenantSubject → Bool)
    (entry : Outbox.OutboxEntry Json) : Prop where
  emits :
    (dispatch true entry).isSome = true ↔
      entry.type = broadcastKind ∧ HasChannel entry.payload ∧ HasKnownScope entry.payload
  joinable :
    ∀ room event payload, dispatch true entry = some (.broadcast (some room) event payload) →
      ∀ (client : Socket) (ability : Ability), client.ability = some ability →
        ReadsEverything test ability →
          ∃ message, room ∈ (listener test client message).rooms

/-! ## When it holds -/

/-- An id with one colon and something on both sides. -/
def TwoParts (id : String) : Prop :=
  ∃ front back, IsSegment front ∧ IsSegment back ∧ id = front ++ ":" ++ back

/-- The id of the scope under its name is a text of two parts. -/
def HasTwoPartId (name : String) (scope : Json) : Prop :=
  ∃ id, templateText (scope.field? name) = .ok id ∧ TwoParts id

/-- No scope to read a kind from. -/
def NoScope (payload : Json) : Prop :=
  payload.field? "scope" = none ∨ payload.field? "scope" = some .null

/-- A scope with a room of its own, and the name of its id. -/
inductive HasRoomScope (payload : Json) : Json → String → Prop
  | tenant
      {scope : Json}
      (hscope : payload.field? "scope" = some scope)
      (hkind : scope.field? "kind" = some (.str "tenant")) :
      HasRoomScope payload scope "tenantId"
  | user
      {scope : Json}
      (hscope : payload.field? "scope" = some scope)
      (hkind : scope.field? "kind" = some (.str "user")) :
      HasRoomScope payload scope "userId"

def HasGlobalScope (payload : Json) : Prop :=
  ∃ scope, payload.field? "scope" = some scope ∧ scope.field? "kind" = some (.str "global")

/-- Everybody, or a room with a name of three parts. -/
def HasJoinableScope (payload : Json) : Prop :=
  HasGlobalScope payload ∨
    ∃ scope name, HasRoomScope payload scope name ∧ HasTwoPartId name scope

/-- The id of the room has no text. -/
def HasUnreadableId (payload : Json) : Prop :=
  ∃ scope name message, HasRoomScope payload scope name ∧
    templateText (scope.field? name) = .error message

/-- What the planner takes for the kind: a key of the payload wins over the type. -/
def ActsAsBroadcast (entry : Outbox.OutboxEntry Json) : Prop :=
  (recordOf entry).kind = .str broadcastKind

/--
There is no channel; or the entry acts as a broadcast, and has no scope, is
one with a scope that can be joined, or is none and has no room; or it does
not act as a broadcast, and is none or has no known scope.
-/
def DispatchedAsMeant (entry : Outbox.OutboxEntry Json) : Prop :=
  ¬ HasChannel entry.payload ∨
    (ActsAsBroadcast entry ∧
      (NoScope entry.payload ∨
        (entry.type = broadcastKind ∧ HasJoinableScope entry.payload) ∨
          (entry.type ≠ broadcastKind ∧ HasUnreadableId entry.payload))) ∨
      (¬ ActsAsBroadcast entry ∧
        (entry.type ≠ broadcastKind ∨ ¬ HasKnownScope entry.payload))

/-! ## Rooms that can be joined -/

/-- A channel name made of a segment and an id has three parts when the id has two. -/
theorem parseChannelName_isOk_iff {name id : String} (hname : IsSegment name) :
    (∃ channel, parseChannelName (name ++ ":" ++ id) = .ok channel) ↔ TwoParts id := by
  constructor
  · rintro ⟨channel, hparsed⟩
    have hsplit :
        (name ++ ":" ++ id).toList.splitOn ':' = name.toList :: id.toList.splitOn ':' := by
      have hlist : (name ++ ":" ++ id).toList = name.toList ++ ':' :: id.toList := by
        simp
      rw [hlist, List.splitOn_append_cons_self_of_not_mem hname.2]
    have hparts := parseChannelName_parts hparsed
    unfold parseChannelName at hparsed
    rw [hsplit] at hparsed
    split at hparsed
    · next subject scope part hthree =>
      split at hparsed
      · cases hparsed
      · cases hparsed
        have hid : id.toList.splitOn ':' = [scope, part] := (List.cons.inj hthree).2
        have hjoin : [':'].intercalate (id.toList.splitOn ':') = id.toList :=
          List.intercalate_splitOn ':'
        rw [hid] at hjoin
        refine ⟨String.ofList scope, String.ofList part, hparts.2.1, hparts.2.2, ?_⟩
        rw [← String.toList_inj, ← hjoin]
        simp
    · cases hparsed
  · rintro ⟨front, back, hfront, hback, rfl⟩
    refine ⟨{ subject := name, scope := front, id := back }, ?_⟩
    have hassoc : name ++ ":" ++ (front ++ ":" ++ back) = name ++ ":" ++ front ++ ":" ++ back := by
      simp only [String.append_assoc]
    rw [hassoc]
    exact parseChannelName_join hname hfront hback

section Joining

variable {test : String → String → Json → TenantSubject → Bool}

/-- Every socket that may read everything can enter the room. -/
def CanJoin (test : String → String → Json → TenantSubject → Bool) (room : String) : Prop :=
  ∀ (client : Socket) (ability : Ability), client.ability = some ability →
    ReadsEverything test ability → ∃ message, room ∈ (listener test client message).rooms

/-- The rule that lets a socket read everything. -/
def readAll : Ability :=
  [{ action := ["read"], subject := ["all"], conditions := none, fields := [],
     inverted := false }]

theorem readsEverything_readAll : ReadsEverything test readAll := by
  intro subject item
  unfold can rulesFor
  simp [readAll, AbilityRule.names, relevantRule, matchesConditions]

/-- A message puts a socket without rooms into the room it names only, if that can be parsed. -/
theorem parsed_of_mem_rooms
    {userId tenantId room : String} {ability : Ability} {message : Message}
    (hmem :
      room ∈ (listener test (acceptConnection userId tenantId (some ability)) message).rooms) :
    ∃ channel, parseChannelName room = .ok channel := by
  have hallowed :=
    joinedAllowed_listener (joinedAllowed_acceptConnection userId tenantId (some ability)) message
      room hmem
  rw [listener_ability] at hallowed
  cases hparsed : parseChannelName room with
  | ok channel => exact ⟨channel, rfl⟩
  | error text =>
      simp only [acceptConnection, subscriptionAllowed, hparsed] at hallowed
      cases hallowed

theorem canJoin_iff {room : String} (hroom : room ≠ "") :
    CanJoin test room ↔ ∃ channel, parseChannelName room = .ok channel := by
  constructor
  · intro hjoin
    obtain ⟨message, hmem⟩ :=
      hjoin (acceptConnection "u" "t" (some readAll)) readAll rfl readsEverything_readAll
    exact parsed_of_mem_rooms hmem
  · rintro ⟨channel, hparsed⟩ client ability hability hreads
    refine ⟨.subscribe (.str room), ?_⟩
    have hallowed : subscriptionAllowed test client.ability room = true := by
      rw [hability]
      simp only [subscriptionAllowed, hparsed, canSubscribeToChannel]
      split
      · rw [hreads]
        rfl
      · rw [hreads]
        rfl
    simp only [listener, if_neg hroom, if_pos hallowed, Socket.join]
    split
    · next hmem =>
      exact hmem
    · exact List.mem_append_right _ List.mem_cons_self

/-- Of the rooms the planner names, those with an id of two parts can be joined. -/
theorem canJoin_named_iff {name id : String} (hname : IsSegment name) :
    CanJoin test (name ++ ":" ++ id) ↔ TwoParts id := by
  have hroom : name ++ ":" ++ id ≠ "" := by
    intro hempty
    have hlist := congrArg String.toList hempty
    simp at hlist
  exact (canJoin_iff hroom).trans (parseChannelName_isOk_iff hname)

end Joining

/-! ## The planner, scope by scope -/

theorem channelOf_eq_ok_iff {channel : Option Json} {name : String} :
    channelOf channel = .ok name ↔ channel = some (.str name) ∧ isBlank name = false := by
  constructor
  · intro h
    unfold channelOf at h
    split at h
    · next text =>
      split at h
      · cases h
      · next hblank =>
        cases h
        exact ⟨rfl, Bool.eq_false_iff.mpr hblank⟩
    · split at h <;> cases h
    · cases h
  · rintro ⟨rfl, hblank⟩
    simp only [channelOf, hblank, Bool.false_eq_true, if_false]

/-- The scopes, as `roomFor` tells them apart. -/
inductive ScopeCase (payload : Json) : Prop
  | absent
      (hnone : NoScope payload)
  | room
      {scope : Json}
      {name : String}
      (hroom : HasRoomScope payload scope name)
  | global
      (hglobal : HasGlobalScope payload)
  | unknown
      {scope : Json}
      (hscope : payload.field? "scope" = some scope)
      (hnull : scope ≠ .null)
      (hkind : ∀ kind ∈ scopeKinds, scope.field? "kind" ≠ some (.str kind))

theorem scopeCase (payload : Json) : ScopeCase payload := by
  cases hscope : payload.field? "scope" with
  | none => exact .absent (Or.inl hscope)
  | some scope =>
      by_cases htenant : scope.field? "kind" = some (.str "tenant")
      · exact .room (.tenant hscope htenant)
      by_cases huser : scope.field? "kind" = some (.str "user")
      · exact .room (.user hscope huser)
      by_cases hglobal : scope.field? "kind" = some (.str "global")
      · exact .global ⟨scope, hscope, hglobal⟩
      by_cases hnull : scope = .null
      · exact .absent (Or.inr (by rw [hscope, hnull]))
      · refine .unknown hscope hnull fun kind hkind => ?_
        rcases List.mem_cons.mp hkind with rfl | hrest
        · exact htenant
        · rcases List.mem_pair.mp hrest with rfl | rfl
          · exact huser
          · exact hglobal

variable {scope : Json}

theorem not_noScope_of_kind
    {payload kind : Json}
    (hscope : payload.field? "scope" = some scope)
    (hkind : scope.field? "kind" = some kind) :
    ¬ NoScope payload := by
  rintro (hnone | hnull)
  · rw [hscope] at hnone
    cases hnone
  · rw [hscope] at hnull
    cases hnull
    cases hkind

/-- A scope with a room is of no other kind and has one name. -/
theorem HasRoomScope.unique
    {payload scope' : Json} {name name' : String}
    (hroom : HasRoomScope payload scope name)
    (hroom' : HasRoomScope payload scope' name') :
    scope' = scope ∧ name' = name := by
  cases hroom with
  | tenant hscope hkind =>
      cases hroom' with
      | tenant hscope' hkind' =>
          rw [hscope] at hscope'
          cases hscope'
          exact ⟨rfl, rfl⟩
      | user hscope' hkind' =>
          rw [hscope] at hscope'
          cases hscope'
          rw [hkind] at hkind'
          exact absurd (Json.str.inj (Option.some.inj hkind')) (by decide)
  | user hscope hkind =>
      cases hroom' with
      | tenant hscope' hkind' =>
          rw [hscope] at hscope'
          cases hscope'
          rw [hkind] at hkind'
          exact absurd (Json.str.inj (Option.some.inj hkind')) (by decide)
      | user hscope' hkind' =>
          rw [hscope] at hscope'
          cases hscope'
          exact ⟨rfl, rfl⟩

/-- A scope of a kind of its own is known, and not the global one. -/
theorem known_of_kind
    {payload : Json} {kind : String}
    (hscope : payload.field? "scope" = some scope)
    (hkind : scope.field? "kind" = some (.str kind))
    (hknown : kind ∈ scopeKinds)
    (hother : kind ≠ "global") :
    ¬ NoScope payload ∧ HasKnownScope payload ∧ ¬ HasGlobalScope payload := by
  refine ⟨not_noScope_of_kind hscope hkind, ⟨scope, kind, hscope, hkind, hknown⟩, ?_⟩
  rintro ⟨other, hsame, hglobal⟩
  rw [hscope] at hsame
  cases hsame
  rw [hkind] at hglobal
  exact hother (Json.str.inj (Option.some.inj hglobal))

theorem HasRoomScope.known
    {payload : Json} {name : String}
    (hroom : HasRoomScope payload scope name) :
    ¬ NoScope payload ∧ HasKnownScope payload ∧ ¬ HasGlobalScope payload := by
  cases hroom with
  | tenant hscope hkind => exact known_of_kind hscope hkind (by decide) (by decide)
  | user hscope hkind => exact known_of_kind hscope hkind (by decide) (by decide)

/-- The room is a segment and the text of the id. -/
theorem roomFor_room {payload : Json} {name : String} (hroom : HasRoomScope payload scope name) :
    ∃ segment, IsSegment segment ∧
      roomFor (payload.field? "scope") =
        (templateText (scope.field? name)).map fun id => .named (segment ++ ":" ++ id) := by
  cases hroom with
  | tenant hscope hkind =>
      refine ⟨"tenant", ⟨by decide, by decide⟩, ?_⟩
      rw [hscope]
      cases scope with
      | obj entries =>
          simp only [roomFor, hkind]
          rfl
      | _ => cases hkind
  | user hscope hkind =>
      refine ⟨"user", ⟨by decide, by decide⟩, ?_⟩
      rw [hscope]
      cases scope with
      | obj entries =>
          simp only [roomFor, hkind]
          rfl
      | _ => cases hkind

theorem roomFor_global {payload : Json} (hglobal : HasGlobalScope payload) :
    roomFor (payload.field? "scope") = .ok .everyone := by
  obtain ⟨scope, hscope, hkind⟩ := hglobal
  rw [hscope]
  cases scope with
  | obj entries => simp only [roomFor, hkind]
  | _ => cases hkind

theorem roomFor_unknown
    (hnull : scope ≠ .null)
    (hkind : ∀ kind ∈ scopeKinds, scope.field? "kind" ≠ some (.str kind)) :
    roomFor (some scope) = .ok .undefined := by
  unfold roomFor
  split
  · next h => cases h
  · next h =>
    cases h
    exact absurd rfl hnull
  · next h =>
    cases h
    split
    · next h => exact absurd h (hkind "tenant" (by decide))
    · next h => exact absurd h (hkind "user" (by decide))
    · next h => exact absurd h (hkind "global" (by decide))
    · rfl

theorem roomFor_absent {payload : Json} (hnone : NoScope payload) :
    ∃ message, roomFor (payload.field? "scope") = .error message := by
  rcases hnone with h | h
  · rw [h]
    exact ⟨_, rfl⟩
  · rw [h]
    exact ⟨_, rfl⟩

/-! ## The dispatcher, entry by entry -/

section Dispatch

variable {test : String → String → Json → TenantSubject → Bool}
variable {entry : Outbox.OutboxEntry Json}

theorem dispatch_of_not_acts (hacts : ¬ ActsAsBroadcast entry) : dispatch true entry = none := by
  have hplan : planRealtimeEmission (recordOf entry) = .ok none := by
    unfold planRealtimeEmission
    split
    · next kind hkind =>
      rw [if_pos]
      rintro rfl
      exact hacts hkind
    · rfl
  rw [dispatch, hplan]

variable {channel : String}

theorem dispatch_of_acts
    (hacts : ActsAsBroadcast entry)
    (hchannel : channelOf (entry.payload.field? "channel") = .ok channel) :
    dispatch true entry =
      match roomFor (entry.payload.field? "scope") with
      | .error _ => none
      | .ok room =>
          some (emit { channel := channel, payload := entry.payload.field? "payload", room := room })
    := by
  have hkind : (recordOf entry).kind = .str broadcastKind := hacts
  have hplan :
      planRealtimeEmission (recordOf entry) =
        (roomFor (entry.payload.field? "scope")).map fun room =>
          some
            { channel := channel, payload := entry.payload.field? "payload", room := room } := by
    simp only [planRealtimeEmission, hkind, ne_eq, not_true, if_false]
    simp only [recordOf, hchannel]
  rw [dispatch, hplan]
  cases roomFor (entry.payload.field? "scope") with
  | error message => rfl
  | ok room => rfl

theorem dispatch_of_no_channel (hchannel : ¬ HasChannel entry.payload) :
    dispatch true entry = none := by
  by_cases hacts : ActsAsBroadcast entry
  · have hkind : (recordOf entry).kind = .str broadcastKind := hacts
    have hplan : ∃ message, planRealtimeEmission (recordOf entry) = .error message := by
      simp only [planRealtimeEmission, hkind, ne_eq, not_true, if_false]
      cases hname : channelOf (recordOf entry).channel with
      | error message => exact ⟨message, rfl⟩
      | ok name =>
          obtain ⟨htext, hblank⟩ := channelOf_eq_ok_iff.mp hname
          exact absurd ⟨name, htext, hblank⟩ hchannel
    obtain ⟨message, hplan⟩ := hplan
    rw [dispatch, hplan]
  · exact dispatch_of_not_acts hacts

/-- An entry that is dropped should not have been a broadcast. -/
theorem deliverable_iff_of_none (hnone : dispatch true entry = none) :
    Deliverable test entry ↔
      ¬ (entry.type = broadcastKind ∧ HasChannel entry.payload ∧
        HasKnownScope entry.payload) := by
  constructor
  · intro hdeliverable hbroadcast
    have hsome := hdeliverable.emits.mpr hbroadcast
    rw [hnone] at hsome
    cases hsome
  · intro hnot
    constructor
    · rw [hnone]
      exact iff_of_false Bool.false_ne_true hnot
    · intro room event payload hsent
      rw [hnone] at hsent
      cases hsent

/-- An entry that goes out should have been a broadcast, into a room that can be joined. -/
theorem deliverable_iff_of_emit {payload : Option Json} {room : Room}
    (hsent :
      dispatch true entry = some (emit { channel := channel, payload := payload, room := room })) :
    Deliverable test entry ↔
      (entry.type = broadcastKind ∧ HasChannel entry.payload ∧ HasKnownScope entry.payload) ∧
        ∀ name, room = .named name → CanJoin test name := by
  constructor
  · intro hdeliverable
    refine ⟨hdeliverable.emits.mp (by rw [hsent]; rfl), ?_⟩
    rintro name rfl
    exact hdeliverable.joinable name channel payload hsent
  · rintro ⟨hbroadcast, hjoin⟩
    constructor
    · rw [hsent]
      exact iff_of_true rfl hbroadcast
    · intro name event sent heq
      rw [hsent] at heq
      cases room with
      | named other =>
          cases heq
          exact hjoin name rfl
      | everyone => cases heq
      | undefined => cases heq

/-- With a channel and acting as a broadcast, the scope decides. -/
theorem dispatchedAsMeant_of_acts
    (hchannel : HasChannel entry.payload)
    (hacts : ActsAsBroadcast entry) :
    DispatchedAsMeant entry ↔
      NoScope entry.payload ∨
        (entry.type = broadcastKind ∧ HasJoinableScope entry.payload) ∨
          (entry.type ≠ broadcastKind ∧ HasUnreadableId entry.payload) := by
  constructor
  · rintro (hno | ⟨-, hscope⟩ | ⟨hnot, -⟩)
    · exact absurd hchannel hno
    · exact hscope
    · exact absurd hacts hnot
  · intro hscope
    exact Or.inr (Or.inl ⟨hacts, hscope⟩)

/-- A scope with a room is meant as it is read when its id has two parts. -/
theorem dispatchedAsMeant_of_room
    {scope : Json} {name : String}
    (hchannel : HasChannel entry.payload)
    (hacts : ActsAsBroadcast entry)
    (hroom : HasRoomScope entry.payload scope name) :
    DispatchedAsMeant entry ↔
      (entry.type = broadcastKind ∧ HasTwoPartId name scope) ∨
        (entry.type ≠ broadcastKind ∧
          ∃ message, templateText (scope.field? name) = .error message) := by
  obtain ⟨hscope, -, hglobal⟩ := hroom.known
  have hjoinable : HasJoinableScope entry.payload ↔ HasTwoPartId name scope := by
    constructor
    · rintro (h | ⟨scope', name', hroom', hid⟩)
      · exact absurd h hglobal
      · obtain ⟨rfl, rfl⟩ := hroom.unique hroom'
        exact hid
    · intro hid
      exact Or.inr ⟨scope, name, hroom, hid⟩
  have hunreadable :
      HasUnreadableId entry.payload ↔
        ∃ message, templateText (scope.field? name) = .error message := by
    constructor
    · rintro ⟨scope', name', message, hroom', hid⟩
      obtain ⟨rfl, rfl⟩ := hroom.unique hroom'
      exact ⟨message, hid⟩
    · rintro ⟨message, hid⟩
      exact ⟨scope, name, message, hroom, hid⟩
  rw [dispatchedAsMeant_of_acts hchannel hacts, hjoinable, hunreadable]
  exact or_iff_right hscope

/-- Into a room the dispatcher sends well when the id has two parts. -/
theorem deliverable_iff_of_room
    {scope : Json} {name : String}
    (hchannel : HasChannel entry.payload)
    (hname : channelOf (entry.payload.field? "channel") = .ok channel)
    (hacts : ActsAsBroadcast entry)
    (hroom : HasRoomScope entry.payload scope name) :
    Deliverable test entry ↔
      (entry.type = broadcastKind ∧ HasTwoPartId name scope) ∨
        (entry.type ≠ broadcastKind ∧
          ∃ message, templateText (scope.field? name) = .error message) := by
  obtain ⟨-, hknown, -⟩ := hroom.known
  obtain ⟨segment, hsegment, hplanned⟩ := roomFor_room hroom
  have hsent := dispatch_of_acts hacts hname
  rw [hplanned] at hsent
  unfold HasTwoPartId
  cases hid : templateText (scope.field? name) with
  | error message =>
      rw [hid] at hsent
      rw [deliverable_iff_of_none hsent]
      constructor
      · intro hnot
        exact Or.inr ⟨fun htype => hnot ⟨htype, hchannel, hknown⟩, message, rfl⟩
      · rintro (⟨-, id, hother, -⟩ | ⟨htype, -⟩)
        · cases hother
        · exact fun hbroadcast => htype hbroadcast.1
  | ok id =>
      rw [hid] at hsent
      rw [deliverable_iff_of_emit hsent]
      constructor
      · rintro ⟨⟨htype, -, -⟩, hjoin⟩
        exact Or.inl ⟨htype, id, rfl, (canJoin_named_iff hsegment).mp (hjoin _ rfl)⟩
      · rintro (⟨htype, id', hother, htwo⟩ | ⟨-, message, hother⟩)
        · cases hother
          refine ⟨⟨htype, hchannel, hknown⟩, ?_⟩
          rintro name hnamed
          cases hnamed
          exact (canJoin_named_iff hsegment).mpr htwo
        · cases hother

/-- What is recorded is deliverable exactly when it is dispatched as meant. -/
theorem deliverable_iff
    (test : String → String → Json → TenantSubject → Bool)
    (entry : Outbox.OutboxEntry Json) :
    Deliverable test entry ↔ DispatchedAsMeant entry := by
  by_cases hchannel : HasChannel entry.payload
  swap
  · rw [deliverable_iff_of_none (dispatch_of_no_channel hchannel)]
    exact iff_of_true (fun hbroadcast => hchannel hbroadcast.2.1) (Or.inl hchannel)
  obtain ⟨channel, htext, hblank⟩ := hchannel
  have hchannel : HasChannel entry.payload := ⟨channel, htext, hblank⟩
  have hname := channelOf_eq_ok_iff.mpr ⟨htext, hblank⟩
  by_cases hacts : ActsAsBroadcast entry
  swap
  · rw [deliverable_iff_of_none (dispatch_of_not_acts hacts)]
    constructor
    · intro hnot
      refine Or.inr (Or.inr ⟨hacts, ?_⟩)
      by_cases htype : entry.type = broadcastKind
      · exact Or.inr fun hknown => hnot ⟨htype, hchannel, hknown⟩
      · exact Or.inl htype
    · rintro (hno | ⟨hyes, -⟩ | ⟨-, htype | hknown⟩)
      · exact absurd hchannel hno
      · exact absurd hyes hacts
      · exact fun hbroadcast => htype hbroadcast.1
      · exact fun hbroadcast => hknown hbroadcast.2.2
  have hsent := dispatch_of_acts hacts hname
  cases scopeCase entry.payload with
  | absent hnone =>
      obtain ⟨message, herror⟩ := roomFor_absent hnone
      rw [herror] at hsent
      rw [deliverable_iff_of_none hsent]
      refine
        iff_of_true ?_ ((dispatchedAsMeant_of_acts hchannel hacts).mpr (Or.inl hnone))
      rintro ⟨-, -, scope, kind, hscope, hkind, -⟩
      exact not_noScope_of_kind hscope hkind hnone
  | room hroom =>
      exact
        (deliverable_iff_of_room hchannel hname hacts hroom).trans
          (dispatchedAsMeant_of_room hchannel hacts hroom).symm
  | global hglobal =>
      rw [roomFor_global hglobal] at hsent
      rw [deliverable_iff_of_emit hsent, dispatchedAsMeant_of_acts hchannel hacts]
      obtain ⟨scope, hscope, hkind⟩ := hglobal
      constructor
      · rintro ⟨⟨htype, -, -⟩, -⟩
        exact Or.inr (Or.inl ⟨htype, Or.inl ⟨scope, hscope, hkind⟩⟩)
      · rintro (hnone | ⟨htype, -⟩ | ⟨-, other, name, message, hroom, -⟩)
        · exact absurd hnone (not_noScope_of_kind hscope hkind)
        · refine ⟨⟨htype, hchannel, scope, "global", hscope, hkind, by decide⟩, ?_⟩
          rintro name hnamed
          cases hnamed
        · exact absurd ⟨scope, hscope, hkind⟩ hroom.known.2.2
  | unknown hscope hnull hkind =>
      rw [hscope, roomFor_unknown hnull hkind] at hsent
      rw [deliverable_iff_of_emit hsent, dispatchedAsMeant_of_acts hchannel hacts]
      have hunknown : ¬ HasKnownScope entry.payload := by
        rintro ⟨other, kind, hother, hkinds, hmem⟩
        rw [hscope] at hother
        cases hother
        exact hkind kind hmem hkinds
      refine iff_of_false (fun h => hunknown h.1.2.2) ?_
      rintro (hnone | ⟨-, hglobal | ⟨other, name, hroom, -⟩⟩ | ⟨-, other, name, message, hroom, -⟩)
      · rcases hnone with h | h
        · rw [hscope] at h
          cases h
        · rw [hscope] at h
          cases h
          exact hnull rfl
      · obtain ⟨other, hother, hkinds⟩ := hglobal
        exact hunknown ⟨other, "global", hother, hkinds, by decide⟩
      · exact hunknown hroom.known.2.1
      · exact hunknown hroom.known.2.1

end Dispatch

/-! ## A broadcast to a tenant -/

/-- A recorded broadcast with the given keys in its payload. -/
def broadcastEntry (keys : List (String × Json)) : Outbox.OutboxEntry Json where
  id := "outbox-1"
  seq := 1
  tenantId := "t1"
  type := "realtime.broadcast"
  payload := .obj (("channel", .str "item.updated") :: keys)
  occurredAt := 0
  processedAt := none
  claimedAt := none
  dispatchAttemptCount := none

def tenantScope : Json :=
  .obj [("kind", .str "tenant"), ("tenantId", .str "t1")]

/--
No socket can be in the room of a tenant, whatever it may read; and a payload
with a `kind` of its own is not sent at all.
-/
theorem not_deliverable_tenant :
    dispatch true (broadcastEntry [("scope", tenantScope)]) =
        some (.broadcast (some "tenant:t1") "item.updated" none) ∧
      ¬ Deliverable textTest (broadcastEntry [("scope", tenantScope)]) ∧
        dispatch true (broadcastEntry [("scope", tenantScope), ("kind", .str "note")]) = none ∧
          ¬ Deliverable textTest
            (broadcastEntry [("scope", tenantScope), ("kind", .str "note")]) := by
  have hsent :
      dispatch true (broadcastEntry [("scope", tenantScope)]) =
        some (.broadcast (some "tenant:t1") "item.updated" none) := by
    rfl
  have hdropped :
      dispatch true (broadcastEntry [("scope", tenantScope), ("kind", .str "note")]) = none := by
    rfl
  refine ⟨hsent, fun hdeliverable => ?_, hdropped, fun hdeliverable => ?_⟩
  · obtain ⟨message, hmem⟩ :=
      hdeliverable.joinable "tenant:t1" _ _ hsent (acceptConnection "u" "t1" (some readAll))
        readAll rfl readsEverything_readAll
    obtain ⟨channel, hparsed⟩ := parsed_of_mem_rooms hmem
    have hmalformed :
        parseChannelName "tenant:t1" = .error "channel: malformed name \"tenant:t1\"" := by
      rfl
    rw [hmalformed] at hparsed
    cases hparsed
  · have hsome :=
      hdeliverable.emits.mpr
        ⟨rfl, ⟨"item.updated", rfl, by decide⟩, tenantScope, "tenant", rfl, rfl, by decide⟩
    rw [hdropped] at hsome
    cases hsome

end Realtime
end NestBase
