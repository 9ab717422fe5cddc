import NestBase.Core.FilterMeaning
import NestBase.Lib.Text

/-!
# Rooms of the realtime gateway

A socket asks for a channel `subject:scope:id` by a `subscribe` message.  The
gateway parses the name and asks the ability the socket was given at its
connection; on the scope `tenant` the question carries the id as the
`tenantId` of a synthetic subject, so that conditions can refuse it.

A rule without conditions refuses no id.  The rows of the user decide: a
socket is kept in its own tenant exactly when no row lets the id of another
tenant in (`ForeignTenantsShut`).

The matcher may throw on the conditions of a rule.  The gateway then denies,
also when a rule that is looked at later would have allowed.
-/

namespace NestBase
namespace Realtime

open Lib
open Permissions

/-! ## Channel names -/

structure ChannelDescriptor where
  subject : String
  scope : String
  id : String

/-- Three parts without a colon, none of them empty. -/
def parseChannelName (name : String) : Except String ChannelDescriptor :=
  match name.toList.splitOn ':' with
  | [subject, scope, id] =>
      if subject = [] ∨ scope = [] ∨ id = [] then
        .error ("channel: malformed name \"" ++ name ++ "\"")
      else
        .ok
          { subject := String.ofList subject
            scope := String.ofList scope
            id := String.ofList id }
  | _ => .error ("channel: malformed name \"" ++ name ++ "\"")

/-- The object a tenant channel is asked about. -/
abbrev TenantSubject : Type := List (String × String)

def tenantSubject (subject tenantId : String) : TenantSubject :=
  [("__caslSubjectType__", subject), ("tenantId", tenantId)]

section Gateway

variable (test : String → String → Json → TenantSubject → Bool)

/-! ## The ability of a socket -/

/-- Whether the conditions match; `none` when the matcher throws. -/
def matchesConditions (item : Option TenantSubject) (rule : AbilityRule) : Option Bool :=
  match rule.conditions with
  | none => some true
  | some conditions =>
      match item with
      | none => some (!rule.inverted)
      | some item => (mongoQueryMatcher test).run conditions item

/-- The rules for the action and subject without a field, the last one first. -/
def rulesFor (ability : Ability) (action subject : String) : List AbilityRule :=
  ability.reverse.filter fun rule =>
    rule.names action subject && (decide (rule.fields = []) || !rule.inverted)

/-- The first of the rules that matches. -/
def relevantRule (item : Option TenantSubject) : List AbilityRule → Option (Option AbilityRule)
  | [] => some none
  | rule :: rest =>
      match matchesConditions test item rule with
      | none => none
      | some true => some (some rule)
      | some false => relevantRule item rest

/-- `ability.can(...)`; `none` when it throws. -/
def can (ability : Ability) (action subject : String) (item : Option TenantSubject) :
    Option Bool :=
  (relevantRule test item (rulesFor ability action subject)).map fun relevant =>
    relevant.any fun rule => !rule.inverted

def canSubscribeToChannel (ability : Ability) (channel : ChannelDescriptor) : Option Bool :=
  if channel.scope = "tenant" then
    can test ability "read" channel.subject (some (tenantSubject channel.subject channel.id))
  else can test ability "read" channel.subject none

/-! ## The gateway -/

/-- The answer of the session lookup. -/
structure SessionLookup where
  userId : String
  activeOrganizationId : Option String

def SessionLookup.tenantId (session : SessionLookup) : String :=
  session.activeOrganizationId.getD ""

/-- A connected socket: its data and the channels it is in. -/
structure Socket where
  userId : String
  tenantId : String
  ability : Option Ability
  rooms : List String

/-- The argument of a client's message is any value. -/
inductive Message where
  | subscribe (channel : Json)
  | unsubscribe (channel : Json)

def Socket.join (channel : String) (client : Socket) : Socket :=
  if channel ∈ client.rooms then client else { client with rooms := client.rooms ++ [channel] }

def Socket.leave (channel : String) (client : Socket) : Socket :=
  { client with rooms := client.rooms.filter fun room => decide (room ≠ channel) }

/-- `server.to(channel)` reaches the socket. -/
def Socket.receives (client : Socket) (channel : String) : Bool :=
  decide (channel ∈ client.rooms)

/-- Without an ability, with a malformed name and when the check throws, the answer is no. -/
def subscriptionAllowed (ability : Option Ability) (channel : String) : Bool :=
  match ability with
  | none => false
  | some ability =>
      match parseChannelName channel with
      | .error _ => false
      | .ok parsed => (canSubscribeToChannel test ability parsed).getD false

/-- The listeners of `acceptConnection`. -/
def listener (client : Socket) : Message → Socket
  | .subscribe (.str channel) =>
      if channel = "" then client
      else if subscriptionAllowed test client.ability channel then client.join channel
      else client
  | .unsubscribe (.str channel) => if channel = "" then client else client.leave channel
  | _ => client

/-- The listeners take the messages one after the other. -/
def receiveAll (client : Socket) (messages : List Message) : Socket :=
  messages.foldl (listener test) client

def acceptConnection (userId tenantId : String) (ability : Option Ability) : Socket where
  userId := userId
  tenantId := tenantId
  ability := ability
  rooms := []

/-- What is rejected leaves the socket without an ability; no session disconnects it. -/
def authenticateConnection
    (abilityFor : Option (String → String → Except String Ability))
    (session : Option SessionLookup) : Option Socket :=
  session.map fun session =>
    acceptConnection session.userId session.tenantId
      (abilityFor.bind fun abilityFor => (abilityFor session.userId session.tenantId).toOption)

/-- `PermissionService.abilityFor` on the rows it reads for the user and tenant. -/
def PermissionService.abilityFor
    (rows : String → String → List DbPermissionRow)
    (now userId tenantId : String) : Except String Ability :=
  (resolveDbRules { userId := userId, now := now, tenantId := some tenantId }
    (rows userId tenantId)).map buildAbility

/-! ## What is promised -/

/-- Every tenant channel the socket has joined, or that reaches it, is of its tenant. -/
structure StaysInTenant (client : Socket) : Prop where
  joined :
    ∀ name channel, name ∈ client.rooms → parseChannelName name = .ok channel →
      channel.scope = "tenant" → channel.id = client.tenantId
  reached :
    ∀ name channel, parseChannelName name = .ok channel → channel.scope = "tenant" →
      channel.id ≠ client.tenantId → client.receives name = false

/-- The row is about reading the subject. -/
def isAbout (subject : String) (row : DbPermissionRow) : Prop :=
  (row.action = .READ ∨ row.action = .MANAGE) ∧
    (row.resource = subject ∨ row.resource = "all")

/-- The row has no filter, or one that matches the item. -/
def Admits (ctx : ResolveContext) (item : TenantSubject) (row : DbPermissionRow) : Prop :=
  ∀ filter, row.itemFilter = some filter →
    ∃ conditions, resolveFilter ctx filter = .ok conditions ∧
      (mongoQueryMatcher test).run conditions item = some true

/-- The matcher throws on the filter of the row. -/
def Throws (ctx : ResolveContext) (item : TenantSubject) (row : DbPermissionRow) : Prop :=
  ∃ filter conditions, row.itemFilter = some filter ∧
    resolveFilter ctx filter = .ok conditions ∧
      (mongoQueryMatcher test).run conditions item = none

/-- A row about the subject admits the item, and none behind it throws. -/
def LetsIn (ctx : ResolveContext) (subject : String) (item : TenantSubject)
    (rows : List DbPermissionRow) : Prop :=
  ∃ before row after, rows = before ++ row :: after ∧
    isAbout subject row ∧ Admits test ctx item row ∧
      ∀ later ∈ after, isAbout subject later → ¬ Throws test ctx item later

/-- A part of a channel name. -/
def IsSegment (s : String) : Prop :=
  s ≠ "" ∧ ':' ∉ s.toList

/-- No row lets the id of another tenant in, on no subject a channel can name. -/
def ForeignTenantsShut (ctx : ResolveContext) (tenantId : String) (rows : List DbPermissionRow) :
    Prop :=
  ∀ subject id, IsSegment subject → IsSegment id → id ≠ tenantId →
    ¬ LetsIn test ctx subject (tenantSubject subject id) rows

/-- The rows cannot be resolved, so that there is no ability, or they let no other tenant in. -/
def RowsKeepTenant (ctx : ResolveContext) (tenantId : String) (rows : List DbPermissionRow) :
    Prop :=
  ∀ rules, resolveDbRules ctx rows = .ok rules → ForeignTenantsShut test ctx tenantId rows

variable {test}

/-! ## Channel names and their parts -/

theorem parseChannelName_parts
    {name : String} {channel : ChannelDescriptor}
    (h : parseChannelName name = .ok channel) :
    IsSegment channel.subject ∧ IsSegment channel.scope ∧ IsSegment channel.id := by
  unfold parseChannelName at h
  split at h
  · next subject scope id hsplit =>
      split at h
      · cases h
      · next hfull =>
          push Not at hfull
          cases h
          have hpart : ∀ part ∈ name.toList.splitOn ':', part ≠ [] → IsSegment (String.ofList part) := by
            intro part hpart hne
            refine ⟨fun hempty => hne ?_, fun hcolon => ?_⟩
            · simpa using congrArg String.toList hempty
            · rw [String.toList_ofList] at hcolon
              exact Text.not_mem_of_mem_splitOn hpart hcolon
          rw [hsplit] at hpart
          exact ⟨hpart subject (by simp) hfull.1, hpart scope (by simp) hfull.2.1,
            hpart id (by simp) hfull.2.2⟩
  · cases h

variable {subject : String}

/-- Three parts joined by colons are read back. -/
theorem parseChannelName_join
    {scope id : String}
    (hsubject : IsSegment subject)
    (hscope : IsSegment scope)
    (hid : IsSegment id) :
    parseChannelName (subject ++ ":" ++ scope ++ ":" ++ id) =
      .ok { subject := subject, scope := scope, id := id } := by
  have hsplit :
      (subject ++ ":" ++ scope ++ ":" ++ id).toList.splitOn ':' =
        [subject.toList, scope.toList, id.toList] := by
    have hlist :
        (subject ++ ":" ++ scope ++ ":" ++ id).toList =
          subject.toList ++ ':' :: (scope.toList ++ ':' :: id.toList) := by
      simp
    rw [hlist, List.splitOn_append_cons_self_of_not_mem hsubject.2,
      List.splitOn_append_cons_self_of_not_mem hscope.2, List.splitOn_eq_singleton hid.2]
  have hne : ∀ {s : String}, IsSegment s → s.toList ≠ [] := by
    intro s hs hempty
    exact hs.1 (String.toList_inj.mp (hempty.trans rfl))
  unfold parseChannelName
  rw [hsplit]
  simp [hne hsubject, hne hscope, hne hid]

/-! ## The answer of the ability, row by row -/

variable {rule : AbilityRule}

/-- An empty list of fields or a rule that allows passes a check without a field. -/
theorem rulesFor_cons
    {rest : List AbilityRule}
    (hallows : rule.inverted = false)
    (action subject : String) :
    rulesFor (rule :: rest) action subject =
      rulesFor rest action subject ++ (if rule.names action subject then [rule] else []) := by
  unfold rulesFor
  rw [List.reverse_cons, List.filter_append]
  cases hnames : rule.names action subject with
  | true => simp [hnames, hallows]
  | false => simp [hnames]

/-- The rules in front decide unless none of them matches. -/
theorem relevantRule_append (item : Option TenantSubject) (front back : List AbilityRule) :
    relevantRule test item (front ++ back) =
      match relevantRule test item front with
      | some none => relevantRule test item back
      | decided => decided := by
  induction front with
  | nil => rfl
  | cons rule rest ih =>
      rw [List.cons_append, relevantRule, relevantRule]
      cases matchesConditions test item rule with
      | none => rfl
      | some matched =>
          cases matched with
          | true => rfl
          | false => exact ih

variable {rules : List AbilityRule}

theorem mem_of_relevantRule
    {item : Option TenantSubject} {found : AbilityRule}
    (h : relevantRule test item rules = some (some found)) :
    found ∈ rules := by
  induction rules with
  | nil => cases h
  | cons rule rest ih =>
      rw [relevantRule] at h
      split at h
      · cases h
      · cases h
        exact List.mem_cons_self
      · exact List.mem_cons_of_mem _ (ih h)

/-- The rules behind a rule decide; the rule itself is asked when none of them matches. -/
theorem can_cons
    {rest : List AbilityRule}
    (hallows : rule.inverted = false)
    (hrest : ∀ other ∈ rest, other.inverted = false)
    (action subject : String)
    (item : Option TenantSubject) :
    can test (rule :: rest) action subject item =
      match can test rest action subject item with
      | some false =>
          if rule.names action subject then matchesConditions test item rule else some false
      | decided => decided := by
  unfold can
  rw [rulesFor_cons hallows, relevantRule_append]
  cases hrelevant : relevantRule test item (rulesFor rest action subject) with
  | none => rfl
  | some found =>
      cases found with
      | none =>
          simp only [Option.map_some, Option.any_none]
          split
          · simp only [relevantRule]
            cases matchesConditions test item rule with
            | none => rfl
            | some matched => cases matched <;> simp [hallows]
          · rfl
      | some other =>
          have hother : other.inverted = false := by
            have hmem := (List.mem_filter.mp (mem_of_relevantRule hrelevant)).1
            exact hrest other (List.mem_reverse.mp hmem)
          simp [hother]

variable {row : DbPermissionRow}
variable {ctx : ResolveContext}

theorem names_iff_isAbout (h : resolveDbRule ctx row = .ok rule) (subject : String) :
    rule.names "read" subject = true ↔ isAbout subject row := by
  obtain ⟨haction, hresource, -⟩ := resolveDbRule_ok h
  have hread :
      (row.action.toLowerCase = "read" ∨ row.action.toLowerCase = "manage") ↔
        row.action = .READ ∨ row.action = .MANAGE := by
    cases row.action <;> decide
  simp only [AbilityRule.names, haction, hresource, Bool.and_eq_true, Bool.or_eq_true,
    List.contains_iff_mem, List.mem_singleton, isAbout]
  rw [← hread]
  simp only [eq_comm]

theorem conditions_of_resolveDbRule (h : resolveDbRule ctx row = .ok rule) :
    (row.itemFilter = none ∧ rule.conditions = none) ∨
      ∃ filter conditions, row.itemFilter = some filter ∧
        resolveFilter ctx filter = .ok conditions ∧ rule.conditions = some conditions := by
  unfold resolveDbRule at h
  simp only at h
  split at h
  · next hfilter =>
      cases h
      exact Or.inl ⟨hfilter, rfl⟩
  · next filter hfilter =>
      cases hresolved : resolveFilter ctx filter with
      | error message =>
          rw [hresolved] at h
          cases h
      | ok conditions =>
          rw [hresolved] at h
          cases h
          exact Or.inr ⟨filter, conditions, hfilter, hresolved, rfl⟩

theorem matches_iff_admits (h : resolveDbRule ctx row = .ok rule) (item : TenantSubject) :
    matchesConditions test (some item) rule = some true ↔ Admits test ctx item row := by
  rcases conditions_of_resolveDbRule h with
    ⟨hfilter, hnone⟩ | ⟨filter, conditions, hfilter, hresolved, hsome⟩
  · simp [matchesConditions, Admits, hfilter, hnone]
  · simp [matchesConditions, Admits, hfilter, hresolved, hsome]

theorem throws_iff (h : resolveDbRule ctx row = .ok rule) (item : TenantSubject) :
    matchesConditions test (some item) rule = none ↔ Throws test ctx item row := by
  rcases conditions_of_resolveDbRule h with
    ⟨hfilter, hnone⟩ | ⟨filter, conditions, hfilter, hresolved, hsome⟩
  · simp [matchesConditions, Throws, hfilter, hnone]
  · simp [matchesConditions, Throws, hfilter, hresolved, hsome]

theorem letsIn_cons_iff {item : TenantSubject} {rest : List DbPermissionRow} :
    LetsIn test ctx subject item (row :: rest) ↔
      LetsIn test ctx subject item rest ∨
        (isAbout subject row ∧ Admits test ctx item row ∧
          ∀ later ∈ rest, isAbout subject later → ¬ Throws test ctx item later) := by
  constructor
  · rintro ⟨before, admitting, after, hsplit, habout, hadmits, hlater⟩
    cases before with
    | nil =>
        obtain ⟨rfl, rfl⟩ := List.cons.inj hsplit
        exact Or.inr ⟨habout, hadmits, hlater⟩
    | cons first before =>
        obtain ⟨rfl, rfl⟩ := List.cons.inj hsplit
        exact Or.inl ⟨before, admitting, after, rfl, habout, hadmits, hlater⟩
  · rintro (⟨before, admitting, after, rfl, hadmitting⟩ | hrow)
    · exact ⟨row :: before, admitting, after, rfl, hadmitting⟩
    · exact ⟨[], row, rest, rfl, hrow⟩

/-- What each answer of the ability says about the rows it was resolved from. -/
def AnswerMeans (test : String → String → Json → TenantSubject → Bool) (ctx : ResolveContext) (subject : String) (item : TenantSubject)
    (rows : List DbPermissionRow) : Option Bool → Prop
  | none =>
      (∃ row ∈ rows, isAbout subject row ∧ Throws test ctx item row) ∧
        ¬ LetsIn test ctx subject item rows
  | some false =>
      (∀ row ∈ rows, isAbout subject row → ¬ Throws test ctx item row) ∧
        ¬ LetsIn test ctx subject item rows
  | some true => LetsIn test ctx subject item rows

variable {rows : List DbPermissionRow}

theorem allows_of_resolveDbRules (h : resolveDbRules ctx rows = .ok rules) :
    ∀ rule ∈ rules, rule.inverted = false := by
  intro rule hrule
  obtain ⟨row, -, hrow⟩ := exists_row_of_resolveDbRules h rule hrule
  exact (resolveDbRule_ok hrow).2.2

/-- By induction on the rows, from the last one to the first. -/
theorem answerMeans_can
    (h : resolveDbRules ctx rows = .ok rules)
    (subject : String)
    (item : TenantSubject) :
    AnswerMeans test ctx subject item rows
      (can test rules "read" subject (some item)) := by
  induction rows generalizing rules with
  | nil =>
      cases h
      refine ⟨fun row hrow => absurd hrow List.not_mem_nil, ?_⟩
      rintro ⟨before, row, after, hsplit, -⟩
      simp at hsplit
  | cons row rest ih =>
      have hallows := allows_of_resolveDbRules h
      obtain ⟨rule, others, hrow, hrest, rfl⟩ := resolveDbRules_cons_ok h
      have hothers := ih hrest
      rw [can_cons (hallows rule List.mem_cons_self)
        fun other hother => hallows other (List.mem_cons_of_mem _ hother)]
      cases hanswer : can test others "read" subject (some item) with
      | none =>
          -- a later row throws, which keeps this one from admitting
          rw [hanswer] at hothers
          obtain ⟨⟨later, hlater, habout, hthrows⟩, hclosed⟩ := hothers
          refine ⟨⟨later, List.mem_cons_of_mem _ hlater, habout, hthrows⟩, ?_⟩
          rw [letsIn_cons_iff]
          rintro (hin | ⟨-, -, hquiet⟩)
          · exact hclosed hin
          · exact hquiet later hlater habout hthrows
      | some allowed =>
          rw [hanswer] at hothers
          cases allowed with
          | true => exact letsIn_cons_iff.mpr (Or.inl hothers)
          | false =>
              obtain ⟨hquiet, hclosed⟩ := hothers
              simp only
              split
              · next hnames =>
                  have habout := (names_iff_isAbout hrow subject).mp hnames
                  cases hmatches : matchesConditions test (some item) rule with
                  | none =>
                      have hthrows := (throws_iff hrow item).mp hmatches
                      refine ⟨⟨row, List.mem_cons_self, habout, hthrows⟩, ?_⟩
                      rw [letsIn_cons_iff]
                      rintro (hin | ⟨-, hadmits, -⟩)
                      · exact hclosed hin
                      · rw [← matches_iff_admits hrow item, hmatches] at hadmits
                        cases hadmits
                  | some matched =>
                      cases matched with
                      | true =>
                          have hadmits := (matches_iff_admits hrow item).mp hmatches
                          exact letsIn_cons_iff.mpr (Or.inr ⟨habout, hadmits, hquiet⟩)
                      | false =>
                          constructor
                          · intro later hlater hlaterAbout hthrows
                            rcases List.mem_cons.mp hlater with rfl | hlater
                            · rw [← throws_iff hrow item, hmatches] at hthrows
                              cases hthrows
                            · exact hquiet later hlater hlaterAbout hthrows
                          · rw [letsIn_cons_iff]
                            rintro (hin | ⟨-, hadmits, -⟩)
                            · exact hclosed hin
                            · rw [← matches_iff_admits hrow item, hmatches] at hadmits
                              cases hadmits
              · next hunnamed =>
                  have hother : ¬ isAbout subject row := fun habout =>
                    hunnamed ((names_iff_isAbout hrow subject).mpr habout)
                  constructor
                  · intro later hlater hlaterAbout hthrows
                    rcases List.mem_cons.mp hlater with rfl | hlater
                    · exact hother hlaterAbout
                    · exact hquiet later hlater hlaterAbout hthrows
                  · rw [letsIn_cons_iff]
                    rintro (hin | ⟨habout, -⟩)
                    · exact hclosed hin
                    · exact hother habout

/-- The ability allows reading the item when the rows let it in. -/
theorem can_eq_true_iff
    (h : resolveDbRules ctx rows = .ok rules)
    (subject : String)
    (item : TenantSubject) :
    can test rules "read" subject (some item) = some true ↔
      LetsIn test ctx subject item rows := by
  have hmeans : AnswerMeans test ctx subject item rows _ := answerMeans_can h subject item
  constructor
  · intro hallowed
    rw [hallowed] at hmeans
    exact hmeans
  · intro hin
    cases hanswer : can test rules "read" subject (some item) with
    | none =>
        rw [hanswer] at hmeans
        exact absurd hin hmeans.2
    | some allowed =>
        cases allowed with
        | true => rfl
        | false =>
            rw [hanswer] at hmeans
            exact absurd hin hmeans.2

/-! ## Runs of a socket -/

/-- Every channel the socket is in was allowed by the ability it still has. -/
def JoinedAllowed (test : String → String → Json → TenantSubject → Bool) (client : Socket) : Prop :=
  ∀ name ∈ client.rooms, subscriptionAllowed test client.ability name = true

theorem joinedAllowed_acceptConnection (userId tenantId : String) (ability : Option Ability) :
    JoinedAllowed test (acceptConnection userId tenantId ability) := by
  intro name hname
  cases hname

@[simp] theorem listener_ability (client : Socket) (message : Message) :
    (listener test client message).ability = client.ability := by
  unfold listener Socket.join Socket.leave
  repeat' split
  all_goals rfl

@[simp] theorem listener_tenantId (client : Socket) (message : Message) :
    (listener test client message).tenantId = client.tenantId := by
  unfold listener Socket.join Socket.leave
  repeat' split
  all_goals rfl

variable {client : Socket}

theorem mem_join {channel name : String} (h : name ∈ (client.join channel).rooms) :
    name ∈ client.rooms ∨ name = channel := by
  unfold Socket.join at h
  split at h
  · exact Or.inl h
  · simpa using h

theorem joinedAllowed_listener (h : JoinedAllowed test client) (message : Message) :
    JoinedAllowed test (listener test client message) := by
  intro name hname
  rw [listener_ability]
  unfold listener at hname
  split at hname
  · next channel =>
      split at hname
      · exact h name hname
      · split at hname
        · next hallowed =>
            rcases mem_join hname with hold | rfl
            · exact h name hold
            · exact hallowed
        · exact h name hname
  · next channel =>
      split at hname
      · exact h name hname
      · exact h name (List.mem_filter.mp hname).1
  · exact h name hname

/-- The data of the socket stay, and so does what its channels were allowed by. -/
theorem receiveAll_keeps (h : JoinedAllowed test client) (messages : List Message) :
    JoinedAllowed test (receiveAll test client messages) ∧
      (receiveAll test client messages).ability = client.ability ∧
        (receiveAll test client messages).tenantId = client.tenantId := by
  induction messages generalizing client with
  | nil => exact ⟨h, rfl, rfl⟩
  | cons message rest ih =>
      obtain ⟨hallowed, hability, htenant⟩ := ih (joinedAllowed_listener h message)
      refine ⟨hallowed, ?_, ?_⟩
      · exact hability.trans (listener_ability client message)
      · exact htenant.trans (listener_tenantId client message)

/-- An allowed tenant channel was asked about with its id. -/
theorem can_of_subscriptionAllowed
    {ability : Option Ability} {name : String} {channel : ChannelDescriptor}
    (hparse : parseChannelName name = .ok channel)
    (hscope : channel.scope = "tenant")
    (hallowed : subscriptionAllowed test ability name = true) :
    ∃ rules, ability = some rules ∧
      can test rules "read" channel.subject (some (tenantSubject channel.subject channel.id)) =
        some true := by
  unfold subscriptionAllowed at hallowed
  split at hallowed
  · cases hallowed
  · next rules =>
      simp only [hparse, canSubscribeToChannel, if_pos hscope] at hallowed
      refine ⟨rules, rfl, ?_⟩
      cases hanswer : can test rules "read" channel.subject
          (some (tenantSubject channel.subject channel.id)) with
      | none =>
          rw [hanswer] at hallowed
          cases hallowed
      | some answer =>
          rw [hanswer] at hallowed
          rw [Option.getD_some] at hallowed
          rw [hallowed]

/-- A subscribe message for an allowed channel joins it. -/
theorem mem_rooms_of_subscribe
    {rules : Ability} {id : String}
    (hability : client.ability = some rules)
    (hsubject : IsSegment subject)
    (hid : IsSegment id)
    (hcan :
      can test rules "read" subject (some (tenantSubject subject id)) = some true) :
    subject ++ ":" ++ "tenant" ++ ":" ++ id ∈
      (listener test client
        (.subscribe (.str (subject ++ ":" ++ "tenant" ++ ":" ++ id)))).rooms := by
  have hscope : IsSegment "tenant" := ⟨by decide, by decide⟩
  have hparse := parseChannelName_join hsubject hscope hid
  have hallowed :
      subscriptionAllowed test client.ability (subject ++ ":" ++ "tenant" ++ ":" ++ id) = true := by
    simp [subscriptionAllowed, hability, hparse, canSubscribeToChannel, hcan]
  have hnonempty : subject ++ ":" ++ "tenant" ++ ":" ++ id ≠ "" := by
    intro hempty
    have hlist := congrArg String.toList hempty
    simp at hlist
  simp only [listener, if_neg hnonempty, if_pos hallowed, Socket.join]
  split
  · next hmem => exact hmem
  · simp

theorem staysInTenant_of_shut
    (hjoined : JoinedAllowed test client)
    (hability : ∀ rules, client.ability = some rules → resolveDbRules ctx rows = .ok rules)
    (hrows : RowsKeepTenant test ctx client.tenantId rows) :
    StaysInTenant client := by
  have hroom :
      ∀ name channel, name ∈ client.rooms → parseChannelName name = .ok channel →
        channel.scope = "tenant" → channel.id = client.tenantId := by
    intro name channel hname hparse hscope
    by_contra hforeign
    obtain ⟨rules, hrules, hcan⟩ := can_of_subscriptionAllowed hparse hscope (hjoined name hname)
    have hresolved := hability rules hrules
    obtain ⟨hsubject, -, hid⟩ := parseChannelName_parts hparse
    exact hrows rules hresolved channel.subject channel.id hsubject hid hforeign
      ((can_eq_true_iff hresolved _ _).mp hcan)
  constructor
  · exact hroom
  · intro name channel hparse hscope hforeign
    rw [Socket.receives, decide_eq_false_iff_not]
    exact fun hname => hforeign (hroom name channel hname hparse hscope)

/--
An authenticated socket stays in its tenant, whatever it sends, exactly when
the rows of its user let the id of no other tenant in.
-/
theorem staysInTenant_iff
    (test : String → String → Json → TenantSubject → Bool)
    (rows : String → String → List DbPermissionRow)
    (now : String)
    (session : SessionLookup) :
    (∀ client messages,
      authenticateConnection (some (PermissionService.abilityFor rows now)) (some session) =
        some client →
      StaysInTenant (receiveAll test client messages)) ↔
      RowsKeepTenant test
        { userId := session.userId, now := now, tenantId := some session.tenantId }
        session.tenantId (rows session.userId session.tenantId) := by
  constructor
  · intro hstays rules hresolved subject id hsubject hid hforeign hin
    have hcan := (can_eq_true_iff hresolved _ _).mpr hin
    have hability :
        (acceptConnection session.userId session.tenantId (some rules)).ability = some rules := rfl
    have hjoins := mem_rooms_of_subscribe hability hsubject hid hcan
    have hclient :
        authenticateConnection (some (PermissionService.abilityFor rows now)) (some session) =
          some (acceptConnection session.userId session.tenantId (some rules)) := by
      simp [authenticateConnection, PermissionService.abilityFor, hresolved, Except.map,
        Except.toOption, buildAbility]
    have hsame :=
      (hstays _ [.subscribe (.str (subject ++ ":" ++ "tenant" ++ ":" ++ id))] hclient).joined _ _
        hjoins (parseChannelName_join hsubject ⟨by decide, by decide⟩ hid) rfl
    have hfirst : JoinedAllowed test _ :=
      joinedAllowed_acceptConnection session.userId session.tenantId (some rules)
    have htenant :=
      (receiveAll_keeps hfirst
        [.subscribe (.str (subject ++ ":" ++ "tenant" ++ ":" ++ id))]).2.2
    exact hforeign (hsame.trans htenant)
  · intro hrows client messages hclient
    simp only [authenticateConnection, Option.map_some, Option.some.injEq] at hclient
    subst hclient
    obtain ⟨hjoined, hability, htenant⟩ :=
      receiveAll_keeps (joinedAllowed_acceptConnection _ _ _) messages
    have hkeep :
        RowsKeepTenant test
          { userId := session.userId, now := now, tenantId := some session.tenantId }
          (receiveAll test
            (acceptConnection session.userId session.tenantId
              ((some (PermissionService.abilityFor rows now)).bind fun abilityFor =>
                (abilityFor session.userId session.tenantId).toOption)) messages).tenantId
          (rows session.userId session.tenantId) := by
      rw [htenant]
      exact hrows
    refine staysInTenant_of_shut hjoined ?_ hkeep
    intro rules hrules
    rw [hability] at hrules
    cases hresolved : resolveDbRules
        { userId := session.userId, now := now, tenantId := some session.tenantId }
        (rows session.userId session.tenantId) with
    | error message =>
        simp [acceptConnection, PermissionService.abilityFor, hresolved, Except.map,
          Except.toOption] at hrules
    | ok resolved =>
        simp [acceptConnection, PermissionService.abilityFor, hresolved, Except.map,
          Except.toOption, buildAbility] at hrules
        rw [hrules]

end Gateway

/-! ## Rows without a filter -/

def projectReader : DbPermissionRow where
  resource := "Project"
  action := .READ
  itemFilter := none
  fields := []

/-- A reader of every project joins the project channel of a foreign tenant. -/
theorem unfiltered_joins_foreign :
    ¬ ∀ (test : String → String → Json → TenantSubject → Bool)
        (rows : String → String → List DbPermissionRow) (now : String) (session : SessionLookup)
        (client : Socket) (messages : List Message),
      authenticateConnection (some (PermissionService.abilityFor rows now)) (some session) =
        some client →
      StaysInTenant (receiveAll test client messages) := by
  intro hstays
  have hjoined :=
    (hstays textTest (fun _ _ => [projectReader]) "2026-01-01T00:00:00.000Z"
      { userId := "u1", activeOrganizationId := some "t1" } _
      [.subscribe (.str "Project:tenant:t2")] rfl).joined
      "Project:tenant:t2" { subject := "Project", scope := "tenant", id := "t2" }
      (by decide) rfl rfl
  revert hjoined
  decide

end Realtime
end NestBase
