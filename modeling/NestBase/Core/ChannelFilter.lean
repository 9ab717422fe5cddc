import NestBase.Core.CaslAbility
import NestBase.Core.RealtimeChannels
import NestBase.Lib.OrderedMap

/-!
# The channel filter

The filter keeps the subscribers of each channel, by the id of their socket.  A
broadcast asks the ability of each subscriber about the record, taken as an
instance of the subject that the name of the channel begins with.

The question is put as an object: the marker `__caslSubjectType__`, over which
the fields of the record are spread.  A record with a field of that name says
itself what it is an instance of.

The check of an ability is a parameter; it may throw, and the broadcast then
ends where it is.
-/

namespace NestBase
namespace Realtime
namespace ChannelFilter

open Lib OrderedMap

/-! ## The filter -/

structure SocketClient where
  id : String

structure SocketSession (Ability : Type) where
  ability : Ability

structure ChannelSubscriber (Ability : Type) where
  socket : SocketClient
  session : SocketSession Ability

/-- An emission of the filter, with the payload's record. -/
structure Emission where
  socketId : String
  event : String
  record : Record String Json

inductive BroadcastError where
  | malformedName (message : String)
  | abilityThrew

structure BroadcastResult where
  emissions : List Emission
  outcome : Except BroadcastError Nat

section Filter

variable {Ability : Type}

/-- The subscribers by channel name and socket id. -/
abbrev Subscribers (Ability : Type) : Type :=
  Record String (Record String (ChannelSubscriber Ability))

def register (subscribers : Subscribers Ability) (channelName : String)
    (sub : ChannelSubscriber Ability) : Subscribers Ability :=
  let channel := (subscribers.get channelName).getD Record.empty
  subscribers.set channelName (channel.set sub.socket.id sub)

def unregister (subscribers : Subscribers Ability) (channelName socketId : String) :
    Subscribers Ability :=
  match subscribers.get channelName with
  | none => subscribers
  | some channel =>
      let left := channel.remove socketId
      if left.entries.isEmpty then subscribers.remove channelName
      else subscribers.set channelName left

/-- Each channel in turn; a channel that is left empty is deleted on the way. -/
def unregisterAll (subscribers : Subscribers Ability) (socketId : String) : Subscribers Ability :=
  subscribers.keys.foldl (fun subscribers name => unregister subscribers name socketId) subscribers

def marker : String := "__caslSubjectType__"

/-- `{ __caslSubjectType__: subject, ...record }` -/
def subjectShape (subject : String) (record : Record String Json) : Record String Json :=
  (Record.empty.set marker (.str subject)).assign record

/-- What the ability takes the type of a marked object from. -/
def detectSubjectType (shape : Record String Json) : Json :=
  (shape.get marker).getD .null

variable (check : Ability → String → Json → (String → Option Json) → Option Bool)

/-- `ability.can(action, shape)`; `none` when it throws. -/
def can (ability : Ability) (action : String) (shape : Record String Json) : Option Bool :=
  check ability action (detectSubjectType shape) shape.get

/-- The loop over the subscribers of a channel. -/
def deliver (event : String) (record shape : Record String Json) :
    List (ChannelSubscriber Ability) → BroadcastResult
  | [] => ⟨[], .ok 0⟩
  | sub :: rest =>
      match can check sub.session.ability "read" shape with
      | none => ⟨[], .error .abilityThrew⟩
      | some false => deliver event record shape rest
      | some true =>
          let later := deliver event record shape rest
          ⟨⟨sub.socket.id, event, record⟩ :: later.emissions, later.outcome.map (· + 1)⟩

def broadcast (subscribers : Subscribers Ability) (channelName event : String)
    (record : Record String Json) : BroadcastResult :=
  match parseChannelName channelName with
  | .error message => ⟨[], .error (.malformedName message)⟩
  | .ok descriptor =>
      match subscribers.get channelName with
      | none => ⟨[], .ok 0⟩
      | some channel =>
          if channel.entries.isEmpty then ⟨[], .ok 0⟩
          else
            deliver check event record (subjectShape descriptor.subject record)
              (channel.entries.map Prod.snd)

end Filter

/-! ## Runs -/

section Runs

variable {Ability : Type}

inductive Operation (Ability : Type) where
  | register (channelName : String) (sub : ChannelSubscriber Ability)
  | unregister (channelName socketId : String)
  | unregisterAll (socketId : String)
  | broadcast (channelName event : String) (record : Record String Json)

/-- A broadcast changes no subscription. -/
def step (subscribers : Subscribers Ability) : Operation Ability → Subscribers Ability
  | .register channelName sub => register subscribers channelName sub
  | .unregister channelName socketId => unregister subscribers channelName socketId
  | .unregisterAll socketId => unregisterAll subscribers socketId
  | .broadcast _ _ _ => subscribers

def run (operations : List (Operation Ability)) : Subscribers Ability :=
  operations.foldl step Record.empty

/-- The operation ends or replaces the registration of the socket on the channel. -/
def Operation.ends (channelName socketId : String) : Operation Ability → Prop
  | .register name sub => name = channelName ∧ sub.socket.id = socketId
  | .unregister name id => name = channelName ∧ id = socketId
  | .unregisterAll id => id = socketId
  | .broadcast _ _ _ => False

/-- The last registration of the subscriber's socket on the channel is `sub`, and no operation
behind it ends it. -/
def Subscribed (operations : List (Operation Ability)) (channelName : String)
    (sub : ChannelSubscriber Ability) : Prop :=
  ∃ before after, operations = before ++ .register channelName sub :: after ∧
    ∀ operation ∈ after, ¬ operation.ends channelName sub.socket.id

/-- The subscriber that is kept for a socket on a channel. -/
def lookup (subscribers : Subscribers Ability) (channelName socketId : String) :
    Option (ChannelSubscriber Ability) :=
  (subscribers.get channelName).bind fun channel => channel.get socketId

theorem lookup_register
    (subscribers : Subscribers Ability)
    (channelName : String)
    (sub : ChannelSubscriber Ability)
    (name id : String) :
    lookup (register subscribers channelName sub) name id =
      if channelName = name ∧ sub.socket.id = id then some sub
      else lookup subscribers name id := by
  unfold lookup register
  rw [Record.get_set]
  by_cases hname : channelName = name
  · subst hname
    rw [if_pos rfl, Option.bind_some, Record.get_set]
    by_cases hid : sub.socket.id = id
    · simp [hid]
    · cases subscribers.get channelName <;> simp [hid]
  · simp [hname]

theorem lookup_unregister
    (subscribers : Subscribers Ability)
    (channelName socketId name id : String) :
    lookup (unregister subscribers channelName socketId) name id =
      if channelName = name ∧ socketId = id then none else lookup subscribers name id := by
  unfold lookup unregister
  cases hchannel : subscribers.get channelName with
  | none =>
      by_cases hname : channelName = name
      · subst hname
        simp [hchannel]
      · simp [hname]
  | some channel =>
      have hleft : ∀ other, (channel.remove socketId).get other =
          if other = socketId then none else channel.get other :=
        Record.get_remove channel socketId
      cases hempty : (channel.remove socketId).entries.isEmpty with
      | true =>
          have hnone : ∀ other, (channel.remove socketId).get other = none := by
            intro other
            rw [Record.get_eq_none_iff, Record.keys, List.isEmpty_iff.mp hempty]
            exact List.not_mem_nil
          simp only [hempty, if_true, Record.get_remove]
          by_cases hname : channelName = name
          · subst hname
            have hsame := (hleft id).symm.trans (hnone id)
            by_cases hid : socketId = id
            · simp [hid]
            · rw [if_neg (Ne.symm hid)] at hsame
              simp [hid, hchannel, hsame]
          · simp [hname, Ne.symm hname]
      | false =>
          simp only [hempty, Bool.false_eq_true, if_false, Record.get_set]
          by_cases hname : channelName = name
          · subst hname
            by_cases hid : socketId = id
            · subst hid
              simp [hleft]
            · simp [hid, hleft, hchannel, Ne.symm hid]
          · simp [hname]

/-- The loop visits every channel, so the socket is left on none. -/
theorem lookup_unregisterAll (subscribers : Subscribers Ability) (socketId name id : String) :
    lookup (unregisterAll subscribers socketId) name id =
      if socketId = id then none else lookup subscribers name id := by
  have hfold : ∀ (names : List String) (current : Subscribers Ability),
      lookup (names.foldl (fun subscribers name => unregister subscribers name socketId) current)
          name id =
        if name ∈ names ∧ socketId = id then none else lookup current name id := by
    intro names
    induction names with
    | nil => simp
    | cons first rest ih =>
        intro current
        rw [List.foldl_cons, ih, lookup_unregister]
        by_cases hid : socketId = id
        · by_cases hfirst : first = name
          · simp [hid, hfirst]
          · simp [hid, hfirst, Ne.symm hfirst]
        · simp [hid]
  unfold unregisterAll
  rw [hfold]
  by_cases hid : socketId = id
  · by_cases hname : name ∈ subscribers.keys
    · simp [hid, hname]
    · have hnone : lookup subscribers name id = none := by
        rw [lookup, Record.get_eq_none_iff.mpr hname, Option.bind_none]
      simp [hid, hname, hnone]
  · simp [hid]

/-- The last operation replaces a registration, ends it, or leaves it. -/
theorem subscribed_concat_iff
    {operations : List (Operation Ability)} {operation : Operation Ability} {channelName : String}
    {sub : ChannelSubscriber Ability} :
    Subscribed (operations ++ [operation]) channelName sub ↔
      operation = .register channelName sub ∨
        Subscribed operations channelName sub ∧ ¬ operation.ends channelName sub.socket.id := by
  constructor
  · rintro ⟨before, after, hsplit, hkept⟩
    obtain rfl | ⟨after, last, rfl⟩ := List.eq_nil_or_concat after
    · exact Or.inl (List.singleton_inj.mp (List.append_inj' hsplit rfl).2)
    · rw [List.concat_eq_append, List.forall_mem_append, List.forall_mem_singleton] at hkept
      have hlast : operations ++ [operation] =
          (before ++ .register channelName sub :: after) ++ [last] := by
        simpa using hsplit
      obtain ⟨hsame, hlast⟩ := List.append_inj' hlast rfl
      obtain rfl : operation = last := List.singleton_inj.mp hlast
      exact Or.inr ⟨⟨before, after, hsame, hkept.1⟩, hkept.2⟩
  · rintro (rfl | ⟨⟨before, after, rfl, hkept⟩, hlast⟩)
    · exact ⟨operations, [], rfl, by simp⟩
    · refine ⟨before, after ++ [operation], by simp, ?_⟩
      rw [List.forall_mem_append, List.forall_mem_singleton]
      exact ⟨hkept, hlast⟩

/-- An operation that only ends registrations leaves the others. -/
theorem lookup_ended_iff
    {operations : List (Operation Ability)} {operation : Operation Ability}
    {channelName id : String} {sub : ChannelSubscriber Ability}
    {kept : Option (ChannelSubscriber Ability)}
    {ended : Prop} [Decidable ended]
    (hended : ended ↔ operation.ends channelName id)
    (h : kept = some sub ↔ Subscribed operations channelName sub ∧ sub.socket.id = id)
    (hother : operation ≠ .register channelName sub) :
    (if ended then none else kept) = some sub ↔
      (operation = .register channelName sub ∨
        Subscribed operations channelName sub ∧ ¬ operation.ends channelName sub.socket.id) ∧
          sub.socket.id = id := by
  by_cases hends : operation.ends channelName id
  · rw [if_pos (hended.mpr hends)]
    constructor
    · exact nofun
    · rintro ⟨hsame | ⟨-, hkept⟩, rfl⟩
      · exact absurd hsame hother
      · exact absurd hends hkept
  · rw [if_neg (hended.not.mpr hends), h]
    constructor
    · rintro ⟨hold, rfl⟩
      exact ⟨Or.inr ⟨hold, hends⟩, rfl⟩
    · rintro ⟨hsame | ⟨hold, -⟩, hid⟩
      · exact absurd hsame hother
      · exact ⟨hold, hid⟩

/-- The filter keeps exactly the registrations that were not ended. -/
theorem lookup_run_iff
    (operations : List (Operation Ability))
    (channelName id : String)
    (sub : ChannelSubscriber Ability) :
    lookup (run operations) channelName id = some sub ↔
      Subscribed operations channelName sub ∧ sub.socket.id = id := by
  induction operations using List.reverseRecOn with
  | nil =>
      constructor
      · exact nofun
      · rintro ⟨⟨before, after, hsplit, -⟩, -⟩
        exact absurd hsplit (by simp)
  | append_singleton operations operation ih =>
      have hrun : run (operations ++ [operation]) = step (run operations) operation := by
        simp [run]
      rw [hrun, subscribed_concat_iff]
      cases operation with
      | register name registered =>
          rw [step, lookup_register]
          by_cases hhere : name = channelName ∧ registered.socket.id = id
          · rw [if_pos hhere]
            constructor
            · rintro hsame
              obtain rfl := Option.some.inj hsame
              exact ⟨Or.inl (by rw [hhere.1]), hhere.2⟩
            · rintro ⟨hsame | ⟨-, hkept⟩, hid⟩
              · rw [(Operation.register.inj hsame).2]
              · exact absurd ⟨hhere.1, hhere.2.trans hid.symm⟩ hkept
          · rw [if_neg hhere, ih]
            constructor
            · rintro ⟨hold, hid⟩
              exact ⟨Or.inr ⟨hold, hid ▸ hhere⟩, hid⟩
            · rintro ⟨hsame | ⟨hold, -⟩, hid⟩
              · obtain ⟨hname, rfl⟩ := Operation.register.inj hsame
                exact absurd ⟨hname, hid⟩ hhere
              · exact ⟨hold, hid⟩
      | unregister name socketId =>
          rw [step, lookup_unregister]
          exact lookup_ended_iff Iff.rfl ih nofun
      | unregisterAll socketId =>
          rw [step, lookup_unregisterAll]
          exact lookup_ended_iff Iff.rfl ih nofun
      | broadcast name event record => simpa [step, Operation.ends] using ih

end Runs

/-! ## Deliveries -/

section Deliveries

variable {Ability : Type}
variable (check : Ability → String → Json → (String → Option Json) → Option Bool)

/-- The fields of the record, taken as an instance of the subject. -/
def asInstance (subject : String) (record : Record String Json) : String → Option Json :=
  fun key => if key = marker then some (.str subject) else record.get key

/-- The ability permits `read` on the record as an instance of the subject. -/
def Permits (subject : String) (record : Record String Json)
    (sub : ChannelSubscriber Ability) : Prop :=
  check sub.session.ability "read" (.str subject) (asInstance subject record) = some true

/-- Each permitted subscriber is emitted to once, nobody else is, and the number is returned. -/
structure Delivered (operations : List (Operation Ability)) (channelName subject event : String)
    (record : Record String Json) (result : BroadcastResult) : Prop where
  counted : result.outcome = .ok result.emissions.length
  once : (result.emissions.map Emission.socketId).Nodup
  payload : ∀ emission ∈ result.emissions, emission.event = event ∧ emission.record = record
  permitted : ∀ id, id ∈ result.emissions.map Emission.socketId ↔
    ∃ sub, Subscribed operations channelName sub ∧ sub.socket.id = id ∧
      Permits check subject record sub

/-- The record does not say that it is an instance of something else, and no ability throws. -/
structure Answers (operations : List (Operation Ability)) (channelName subject : String)
    (record : Record String Json) : Prop where
  marked : ∀ value, record.get marker = some value → value = .str subject
  answers : ∀ sub, Subscribed operations channelName sub →
    check sub.session.ability "read" (.str subject) (asInstance subject record) ≠ none

theorem get_subjectShape
    {subject : String} {record : Record String Json}
    (hmarked : ∀ value, record.get marker = some value → value = .str subject) :
    (subjectShape subject record).get = asInstance subject record := by
  funext key
  unfold subjectShape asInstance
  rw [Record.get_assign, Record.get_set, Record.get_empty]
  by_cases hkey : key = marker
  · subst hkey
    cases hvalue : record.get marker with
    | none => simp
    | some value => simp [hmarked value hvalue]
  · simp [hkey, Ne.symm hkey]

theorem can_subjectShape
    {subject : String} {record : Record String Json}
    (hmarked : ∀ value, record.get marker = some value → value = .str subject)
    (ability : Ability) :
    can check ability "read" (subjectShape subject record) =
      check ability "read" (.str subject) (asInstance subject record) := by
  have hget := get_subjectShape hmarked
  have htype : detectSubjectType (subjectShape subject record) = .str subject := by
    rw [detectSubjectType, hget]
    simp [asInstance]
  rw [can, htype, hget]

/-- When no check throws, the loop emits to those that pass. -/
theorem deliver_eq
    {shape : Record String Json} {subs : List (ChannelSubscriber Ability)}
    (hanswers : ∀ sub ∈ subs, can check sub.session.ability "read" shape ≠ none)
    (event : String)
    (record : Record String Json) :
    (deliver check event record shape subs).emissions =
        (subs.filter fun sub => can check sub.session.ability "read" shape == some true).map
          (fun sub => ⟨sub.socket.id, event, record⟩) ∧
      (deliver check event record shape subs).outcome =
        .ok (deliver check event record shape subs).emissions.length := by
  induction subs with
  | nil => exact ⟨rfl, rfl⟩
  | cons sub rest ih =>
      obtain ⟨hsub, hrest⟩ := List.forall_mem_cons.mp hanswers
      obtain ⟨hemissions, houtcome⟩ := ih hrest
      cases hcan : can check sub.session.ability "read" shape with
      | none => exact absurd hcan hsub
      | some permitted =>
          cases permitted with
          | false => simpa [deliver, hcan] using ⟨hemissions, houtcome⟩
          | true => simp [deliver, hcan, hemissions, houtcome, Except.map]

/-- The subscribers of a channel, in the order of its entries. -/
def channelSubscribers (subscribers : Subscribers Ability) (channelName : String) :
    List (ChannelSubscriber Ability) :=
  match subscribers.get channelName with
  | none => []
  | some channel => channel.entries.map Prod.snd

variable {channelName : String}

theorem broadcast_eq
    {descriptor : ChannelDescriptor}
    (hname : parseChannelName channelName = .ok descriptor)
    (subscribers : Subscribers Ability)
    (event : String)
    (record : Record String Json) :
    broadcast check subscribers channelName event record =
      deliver check event record (subjectShape descriptor.subject record)
        (channelSubscribers subscribers channelName) := by
  unfold broadcast channelSubscribers
  rw [hname]
  cases subscribers.get channelName with
  | none => rfl
  | some channel =>
      cases hentries : channel.entries with
      | nil => simp [hentries, deliver]
      | cons entry rest => simp [hentries]

/-- The entries of a channel are the subscribers that the filter keeps for it. -/
theorem mem_entries_iff
    {operations : List (Operation Ability)} {channel : Record String (ChannelSubscriber Ability)}
    (hchannel : (run operations).get channelName = some channel)
    (id : String)
    (sub : ChannelSubscriber Ability) :
    (id, sub) ∈ channel.entries ↔ Subscribed operations channelName sub ∧ sub.socket.id = id := by
  rw [← lookup_run_iff, lookup, hchannel, Option.bind_some]
  exact Record.get_eq_some_iff_mem.symm

theorem mem_channelSubscribers_iff
    (operations : List (Operation Ability))
    (channelName : String)
    (sub : ChannelSubscriber Ability) :
    sub ∈ channelSubscribers (run operations) channelName ↔
      Subscribed operations channelName sub := by
  unfold channelSubscribers
  cases hchannel : (run operations).get channelName with
  | none =>
      have hnone : ¬ Subscribed operations channelName sub := by
        intro hsub
        have hlookup := (lookup_run_iff operations channelName _ sub).mpr ⟨hsub, rfl⟩
        rw [lookup, hchannel, Option.bind_none] at hlookup
        exact nomatch hlookup
      exact iff_of_false List.not_mem_nil hnone
  | some channel =>
      rw [List.mem_map]
      constructor
      · rintro ⟨⟨id, kept⟩, hentry, rfl⟩
        exact ((mem_entries_iff hchannel id kept).mp hentry).1
      · intro hsub
        exact ⟨_, (mem_entries_iff hchannel _ sub).mpr ⟨hsub, rfl⟩, rfl⟩

/-- A socket has one subscription to a channel. -/
theorem nodup_channelSubscribers (operations : List (Operation Ability)) (channelName : String) :
    ((channelSubscribers (run operations) channelName).map fun sub => sub.socket.id).Nodup := by
  unfold channelSubscribers
  cases hchannel : (run operations).get channelName with
  | none => exact List.nodup_nil
  | some channel =>
      have hids : (channel.entries.map Prod.snd).map (fun sub => sub.socket.id) =
          channel.entries.map Prod.fst := by
        rw [List.map_map]
        refine List.map_congr_left fun entry hentry => ?_
        exact ((mem_entries_iff hchannel entry.1 entry.2).mp hentry).2
      simp only [hids]
      exact channel.distinct

theorem delivered_of_answers
    {operations : List (Operation Ability)} {descriptor : ChannelDescriptor}
    (hname : parseChannelName channelName = .ok descriptor)
    (event : String)
    {record : Record String Json}
    (hanswers : Answers check operations channelName descriptor.subject record) :
    Delivered check operations channelName descriptor.subject event record
      (broadcast check (run operations) channelName event record) := by
  obtain ⟨hmarked, hnone⟩ := hanswers
  have hcan := can_subjectShape check hmarked
  have hsubs := mem_channelSubscribers_iff operations channelName
  have hall : ∀ sub ∈ channelSubscribers (run operations) channelName,
      can check sub.session.ability "read" (subjectShape descriptor.subject record) ≠ none := by
    intro sub hsub
    rw [hcan]
    exact hnone sub ((hsubs sub).mp hsub)
  obtain ⟨hemissions, houtcome⟩ := deliver_eq check hall event record
  rw [broadcast_eq check hname]
  have hids : (deliver check event record (subjectShape descriptor.subject record)
      (channelSubscribers (run operations) channelName)).emissions.map Emission.socketId =
        ((channelSubscribers (run operations) channelName).filter fun sub =>
          can check sub.session.ability "read" (subjectShape descriptor.subject record) ==
            some true).map fun sub => sub.socket.id := by
    rw [hemissions, List.map_map]
    rfl
  refine ⟨houtcome, ?_, ?_, ?_⟩
  · rw [hids]
    exact (nodup_channelSubscribers operations channelName).sublist (List.filter_sublist.map _)
  · intro emission hemission
    rw [hemissions] at hemission
    obtain ⟨sub, -, rfl⟩ := List.mem_map.mp hemission
    exact ⟨rfl, rfl⟩
  · intro id
    rw [hids, List.mem_map]
    constructor
    · rintro ⟨sub, hsub, rfl⟩
      obtain ⟨hmem, hpermits⟩ := List.mem_filter.mp hsub
      rw [beq_iff_eq, hcan] at hpermits
      exact ⟨sub, (hsubs sub).mp hmem, rfl, hpermits⟩
    · rintro ⟨sub, hsub, rfl, hpermits⟩
      refine ⟨sub, List.mem_filter.mpr ⟨(hsubs sub).mpr hsub, ?_⟩, rfl⟩
      rw [beq_iff_eq, hcan]
      exact hpermits

/-- What a broadcast answers; the other operations answer nothing. -/
def response (subscribers : Subscribers Ability) : Operation Ability → Option BroadcastResult
  | .broadcast channelName event record =>
      some (broadcast check subscribers channelName event record)
  | _ => none

def responses (subscribers : Subscribers Ability) :
    List (Operation Ability) → List (Option BroadcastResult)
  | [] => []
  | operation :: rest =>
      response check subscribers operation :: responses (step subscribers operation) rest

/-- Each operation answers in the state that the ones before it leave. -/
theorem getElem?_responses
    (operations : List (Operation Ability))
    (subscribers : Subscribers Ability)
    (i : Nat) :
    (responses check subscribers operations)[i]? =
      operations[i]?.map (response check ((operations.take i).foldl step subscribers)) := by
  induction operations generalizing subscribers i with
  | nil => rfl
  | cons operation rest ih =>
      cases i with
      | zero => rfl
      | succ i => exact ih (step subscribers operation) i

/-- The broadcasts of a run that meet the condition. -/
def RunAnswers (operations : List (Operation Ability)) : Prop :=
  ∀ i channelName event record descriptor,
    operations[i]? = some (.broadcast channelName event record) →
    parseChannelName channelName = .ok descriptor →
    Answers check (operations.take i) channelName descriptor.subject record

/-- Every broadcast of the run on a well-formed channel delivers. -/
def RunDelivers (operations : List (Operation Ability)) : Prop :=
  ∀ i channelName event record descriptor,
    operations[i]? = some (.broadcast channelName event record) →
    parseChannelName channelName = .ok descriptor →
    ∃ result, (responses check Record.empty operations)[i]? = some (some result) ∧
      Delivered check (operations.take i) channelName descriptor.subject event record result

theorem runDelivers_of_runAnswers
    {operations : List (Operation Ability)}
    (hanswers : RunAnswers check operations) :
    RunDelivers check operations := by
  intro i channelName event record descriptor hoperation hname
  refine ⟨broadcast check (run (operations.take i)) channelName event record, ?_, ?_⟩
  · rw [getElem?_responses, hoperation]
    rfl
  · exact delivered_of_answers check hname event
      (hanswers i channelName event record descriptor hoperation hname)

end Deliveries

/-! ## Runs on fixed channels -/

section Examples

open Permissions

/-- Conditions that compare fields with texts. -/
def fieldCasl : Casl (String → Option Json) where
  matchesConditions := fun conditions item =>
    conditions.all fun condition =>
      match condition.2, item condition.1 with
      | .str value, some (.str found) => value == found
      | _, _ => false
  matchesField := fun fields field => fields.contains field

def fieldCheck (ability : Permissions.Ability) (action : String) (type : Json)
    (item : String → Option Json) : Option Bool :=
  match type with
  | .str subject =>
      some (fieldCasl.can ability
        { action := action, subject := subject, item := some item, field := none })
  | _ => none

def reader (subject : String) : ChannelSubscriber Permissions.Ability where
  socket := ⟨"s1"⟩
  session := ⟨[⟨["read"], [subject], none, [], false⟩]⟩

def oneBroadcast (subject : String) (record : Record String Json) :
    List (Operation Permissions.Ability) :=
  [.register "Project:item:1" (reader subject), .broadcast "Project:item:1" "changed" record]

theorem parse_projectChannel :
    parseChannelName "Project:item:1" = .ok ⟨"Project", "item", "1"⟩ :=
  rfl

theorem runDelivers_plainRecord :
    RunDelivers fieldCheck (oneBroadcast "Project" (Record.empty.set "name" (.str "a"))) := by
  refine runDelivers_of_runAnswers fieldCheck ?_
  intro i channelName event record descriptor hoperation hname
  match i with
  | 0 => exact nomatch hoperation
  | 1 =>
      obtain ⟨rfl, rfl, rfl⟩ := Operation.broadcast.inj (Option.some.inj hoperation)
      rw [parse_projectChannel] at hname
      obtain rfl := Except.ok.inj hname
      exact ⟨fun value hvalue => (nomatch hvalue), fun sub _ => nofun⟩
  | i + 2 => exact nomatch hoperation

theorem not_runDelivers_markedRecord :
    ¬ RunDelivers fieldCheck (oneBroadcast "Secret" (Record.empty.set marker (.str "Secret"))) := by
  intro hdelivers
  obtain ⟨result, hresult, hdelivered⟩ :=
    hdelivers 1 "Project:item:1" "changed" _ _ rfl parse_projectChannel
  have hids : result.emissions.map Emission.socketId = ["s1"] := by
    rw [getElem?_responses] at hresult
    obtain rfl := Option.some.inj (Option.some.inj hresult)
    rw [broadcast_eq fieldCheck parse_projectChannel]
    rfl
  obtain ⟨sub, hsub, -, hpermits⟩ := (hdelivered.permitted "s1").mp (by rw [hids]; simp)
  have hreader : Operation.register "Project:item:1" (reader "Secret") =
      .register "Project:item:1" sub := by
    have honly : Subscribed ([] ++ [.register "Project:item:1" (reader "Secret")])
        "Project:item:1" sub := hsub
    obtain hsame | ⟨⟨before, after, hsplit, -⟩, -⟩ := subscribed_concat_iff.mp honly
    · exact hsame
    · exact absurd hsplit (by simp)
  obtain rfl := (Operation.register.inj hreader).2
  have hrefused : some false = some true := hpermits
  exact nomatch hrefused

end Examples

end ChannelFilter
end Realtime
end NestBase
