import NestBase.Core.StorageAdapterDataStore
import NestBase.Lib.Transition

/-!
# Uploads that stay resumable

Calls on one data store overlap, and any put may fail.  The chunks of the
accepted writes are kept beside the state.  The stored offset is the length of
these chunks, they are the bytes before it, and what lies behind it is owed by
a call under way, in every run in which each put still finds what its call
relies on (`PutInPlace`).
-/

namespace NestBase
namespace Files
namespace DataStore

open Lib

section Uploads

variable (reader : JsonReader)
variable (ids : String → Prop)

/-! ## Calls in flight -/

inductive Request where
  | create (file : Upload) (now : String)
  | write (request : WriteRequest)
  | declareUploadLength (id : String) (uploadLength : Nat)

inductive Call where
  | create (file : Upload) (now : String) (state : CreateState)
  | write (request : WriteRequest) (state : WriteState)
  | declareUploadLength (id : String) (uploadLength : Nat) (state : DeclareState)

def Request.start : Request → Call
  | .create file now => .create file now .called
  | .write request => .write request .called
  | .declareUploadLength id uploadLength => .declareUploadLength id uploadLength .called

def Call.id : Call → String
  | .create file _ _ => file.id
  | .write request _ => request.id
  | .declareUploadLength id _ _ => id

def WriteState.isFinished : WriteState → Bool
  | .finished _ => true
  | _ => false

def Call.isFinished : Call → Bool
  | .create _ _ (.finished _) => true
  | .write _ state => state.isFinished
  | .declareUploadLength _ _ (.finished _) => true
  | _ => false

structure World where
  storage : Storage
  calls : Nat → Option Call
  /-- The chunks of the accepted writes since the upload was created. -/
  accepted : String → List Bytes

def initialWorld : World where
  storage _ := none
  calls _ := none
  accepted _ := []

inductive Event where
  | call (c : Nat) (request : Request)
  | turn (c : Nat) (turn : Turn)

/-- An upload starts over with its metadata. -/
def acceptedByCreate (file : Upload) (accepted : String → List Bytes) :
    CreateState → String → List Bytes
  | .described => Function.update accepted file.id []
  | _ => accepted

def acceptedByWrite (request : WriteRequest) (accepted : String → List Bytes) :
    WriteState → String → List Bytes
  | .finished (.ok _) =>
      Function.update accepted request.id (accepted request.id ++ [request.incoming])
  | _ => accepted

def advance (w : World) (c : Nat) (turn : Turn) : Call → Option World
  | .create file now state =>
      (create file now w.storage state turn).map fun next =>
        { storage := next.1
          calls := Function.update w.calls c (some (.create file now next.2))
          accepted := acceptedByCreate file w.accepted next.2 }
  | .write request state =>
      (write reader request w.storage state turn).map fun next =>
        { storage := next.1
          calls := Function.update w.calls c (some (.write request next.2))
          accepted := acceptedByWrite request w.accepted next.2 }
  | .declareUploadLength id uploadLength state =>
      (declareUploadLength reader id uploadLength w.storage state turn).map fun next =>
        { w with
          storage := next.1
          calls := Function.update w.calls c (some (.declareUploadLength id uploadLength next.2)) }

def step (w : World) : Event → Option World
  | .call c request =>
      if (w.calls c).isNone then
        some { w with calls := Function.update w.calls c (some request.start) }
      else none
  | .turn c turn => (w.calls c).bind (advance reader w c turn)

/-! ## What stays in the store -/

/-- The bytes stored for an upload. -/
def bodyOf (storage : Storage) (id : String) : Bytes :=
  match storage (bodyKey id) with
  | none => []
  | some entry => entry.body

/-- The offset stored for an upload. -/
def offsetOf (storage : Storage) (id : String) : Nat :=
  match readMeta reader storage id with
  | .error _ => 0
  | .ok uploadMeta => uploadMeta.offset

/-- A write at the offset that is reported is not a mismatch. -/
def Resumable (storage : Storage) (id : String) : Prop :=
  ∀ upload, getUpload reader storage id = .ok upload →
    ∀ message, checkOffset storage id upload.offset ≠ .error (.offsetMismatch message)

def Idle (w : World) (id : String) : Prop :=
  ∀ c call, w.calls c = some call → call.id = id → call.isFinished = true

/-- Two writes of one upload at one offset, both under way. -/
structure Concurrent (w : World) (a b : Nat) (r s : WriteRequest) : Prop where
  ne : a ≠ b
  first : ∃ state, w.calls a = some (.write r state) ∧ state.isFinished = false
  second : ∃ state, w.calls b = some (.write s state) ∧ state.isFinished = false
  id : r.id = s.id
  offset : r.offset = s.offset

def Succeeded (w : World) (c : Nat) : Prop :=
  ∃ request newOffset, w.calls c = some (.write request (.finished (.ok newOffset)))

/-- No upload's metadata lie where the body of another does. -/
def Uncollided : Prop :=
  ∀ id id', ids id → ids id' → id ≠ id' ++ META_SUFFIX

/-- The put of a call finds what the call relies on, and fails where nothing is lost. -/
def PutInPlace (w : World) (fails : Bool) : Call → Prop
  | .create file _ .described =>
      if fails then bodyOf w.storage file.id = []
      else
        offsetOf reader w.storage file.id = 0 ∧
          ∀ c request state, w.calls c = some (.write request state) → request.id = file.id →
            state.isFinished = true
  | .write request (.described existing _) =>
      fails = false → bodyOf w.storage request.id = existing
  | .write request (.stored _ _) =>
      if fails then request.incoming = []
      else offsetOf reader w.storage request.id = request.offset
  | .declareUploadLength id _ (.described uploadMeta) =>
      fails = false → offsetOf reader w.storage id = uploadMeta.offset
  | _ => True

def InPlace (w : World) : Event → Prop
  | .call _ request => ids request.start.id
  | .turn c (.put fails) => ∀ call, w.calls c = some call → PutInPlace reader w fails call
  | _ => True

/-! ## Objects apart -/

variable {reader ids}
variable {storage : Storage}

theorem bodyOf_put (storage : Storage) (id id' : String) (body : Bytes) (mimeType : String) :
    bodyOf (put storage (bodyKey id) body mimeType) id' =
      if id' = id then body else bodyOf storage id' := by
  unfold bodyOf put
  by_cases hid : id' = id
  · subst hid
    rw [Function.update_self, if_pos rfl]
  · rw [Function.update_of_ne (fun h => hid (bodyKey_inj.mp h)), if_neg hid]

theorem bodyOf_writeMeta
    (hids : Uncollided ids)
    {id id' : String} (hid : ids id) (hid' : ids id')
    (storage : Storage) (uploadMeta : UploadMetadata) :
    bodyOf (writeMeta storage id uploadMeta) id' = bodyOf storage id' := by
  unfold bodyOf writeMeta put
  rw [Function.update_of_ne fun h => hids id' id hid' hid (bodyKey_eq_metaKey_iff.mp h)]

theorem readMeta_writeMeta (storage : Storage) (id id' : String) (uploadMeta : UploadMetadata) :
    readMeta reader (writeMeta storage id uploadMeta) id' =
      if id' = id then .ok uploadMeta else readMeta reader storage id' := by
  unfold readMeta writeMeta get put
  by_cases hid : id' = id
  · subst hid
    rw [Function.update_self, if_pos rfl]
    dsimp only
    rw [reader.parse_encodeJson]
  · rw [Function.update_of_ne (fun h => hid (metaKey_inj.mp h)), if_neg hid]

theorem readMeta_put
    (hids : Uncollided ids)
    {id id' : String} (hid : ids id) (hid' : ids id')
    (storage : Storage) (body : Bytes) (mimeType : String) :
    readMeta reader (put storage (bodyKey id) body mimeType) id' = readMeta reader storage id' := by
  unfold readMeta get put
  rw [Function.update_of_ne fun h => hids id id' hid hid' (bodyKey_eq_metaKey_iff.mp h.symm)]

theorem offsetOf_writeMeta (storage : Storage) (id id' : String) (uploadMeta : UploadMetadata) :
    offsetOf reader (writeMeta storage id uploadMeta) id' =
      if id' = id then uploadMeta.offset else offsetOf reader storage id' := by
  unfold offsetOf
  rw [readMeta_writeMeta]
  by_cases hid : id' = id
  · rw [if_pos hid, if_pos hid]
  · rw [if_neg hid, if_neg hid]

theorem offsetOf_put
    (hids : Uncollided ids)
    {id id' : String} (hid : ids id) (hid' : ids id')
    (storage : Storage) (body : Bytes) (mimeType : String) :
    offsetOf reader (put storage (bodyKey id) body mimeType) id' =
      offsetOf reader storage id' := by
  unfold offsetOf
  rw [readMeta_put hids hid hid']

theorem checkOffset_ok
    {id : String} {offset : Nat} {existing : Bytes}
    (h : checkOffset storage id offset = .ok existing) :
    bodyOf storage id = existing ∧ existing.length = offset := by
  unfold checkOffset get at h
  unfold bodyOf
  cases hentry : storage (bodyKey id) with
  | none =>
      rw [hentry] at h
      cases h
  | some entry =>
      rw [hentry] at h
      dsimp only at h ⊢
      split at h
      · cases h
      · next hlength =>
        cases h
        exact ⟨rfl, not_not.mp hlength⟩

/-! ## What a turn of a call does -/

variable {storage' : Storage}

theorem create_cases
    {file : Upload} {now : String} {state state' : CreateState} {turn : Turn}
    (h : create file now storage state turn = some (storage', state')) :
    (∃ error, turn = .put true ∧ storage' = storage ∧ state' = .finished (.error error)) ∨
    (state = .called ∧ turn = .put false ∧
      storage' = writeMeta storage file.id (initialMeta file now) ∧ state' = .described) ∨
    (state = .described ∧ turn = .put false ∧
      storage' = put storage (bodyKey file.id) [] (fileType file.metadata) ∧
        state' = .finished (.ok file)) := by
  cases state with
  | called =>
      cases turn with
      | get => cases h
      | stream => cases h
      | put fails =>
          cases fails with
          | true =>
              cases h
              exact Or.inl ⟨_, rfl, rfl, rfl⟩
          | false =>
              cases h
              exact Or.inr (Or.inl ⟨rfl, rfl, rfl, rfl⟩)
  | described =>
      cases turn with
      | get => cases h
      | stream => cases h
      | put fails =>
          cases fails with
          | true =>
              cases h
              exact Or.inl ⟨_, rfl, rfl, rfl⟩
          | false =>
              cases h
              exact Or.inr (Or.inr ⟨rfl, rfl, rfl, rfl⟩)
  | finished => cases h

/-- The body a write has read, while nothing is stored for it. -/
def WriteState.existing? : WriteState → Option Bytes
  | .checked existing => some existing
  | .collected existing => some existing
  | .described existing _ => some existing
  | _ => none

variable {request : WriteRequest}
variable {state : WriteState}

theorem write_cases
    {state' : WriteState} {turn : Turn}
    (h : write reader request storage state turn = some (storage', state')) :
    (∃ error, storage' = storage ∧ state' = .finished (.error error) ∧
      ∀ existing uploadMeta, state = .stored existing uploadMeta → turn = .put true) ∨
    (∃ existing, storage' = storage ∧ state'.existing? = some existing ∧
      (state = .called ∧ bodyOf storage request.id = existing ∧
          existing.length = request.offset ∨
        state.existing? = some existing)) ∨
    (∃ existing uploadMeta, state = .described existing uploadMeta ∧ turn = .put false ∧
      storage' =
          put storage (bodyKey request.id) (existing ++ request.incoming)
            (fileType uploadMeta.metadata) ∧
        state' = .stored existing uploadMeta) ∨
    (∃ existing uploadMeta, state = .stored existing uploadMeta ∧ turn = .put false ∧
      storage' =
          writeMeta storage request.id
            { uploadMeta with offset := (existing ++ request.incoming).length } ∧
        state' = .finished (.ok (existing ++ request.incoming).length)) := by
  cases state with
  | called =>
      cases turn with
      | get =>
          simp only [write] at h
          cases hcheck : checkOffset storage request.id request.offset with
          | error error =>
              rw [hcheck] at h
              cases h
              exact Or.inl ⟨error, rfl, rfl, nofun⟩
          | ok existing =>
              rw [hcheck] at h
              cases h
              exact Or.inr (Or.inl ⟨existing, rfl, rfl, Or.inl ⟨rfl, checkOffset_ok hcheck⟩⟩)
      | stream => cases h
      | put => cases h
  | checked existing =>
      cases turn with
      | get => cases h
      | stream aborted =>
          cases aborted with
          | true =>
              cases h
              exact Or.inl ⟨_, rfl, rfl, nofun⟩
          | false =>
              cases h
              exact Or.inr (Or.inl ⟨existing, rfl, rfl, Or.inr rfl⟩)
      | put => cases h
  | collected existing =>
      cases turn with
      | get =>
          simp only [write] at h
          cases hmeta : readMeta reader storage request.id with
          | error error =>
              rw [hmeta] at h
              cases h
              exact Or.inl ⟨error, rfl, rfl, nofun⟩
          | ok uploadMeta =>
              rw [hmeta] at h
              cases h
              exact Or.inr (Or.inl ⟨existing, rfl, rfl, Or.inr rfl⟩)
      | stream => cases h
      | put => cases h
  | described existing uploadMeta =>
      cases turn with
      | get => cases h
      | stream => cases h
      | put fails =>
          cases fails with
          | true =>
              cases h
              exact Or.inl ⟨_, rfl, rfl, nofun⟩
          | false =>
              cases h
              exact Or.inr (Or.inr (Or.inl ⟨existing, uploadMeta, rfl, rfl, rfl, rfl⟩))
  | stored existing uploadMeta =>
      cases turn with
      | get => cases h
      | stream => cases h
      | put fails =>
          cases fails with
          | true =>
              cases h
              exact Or.inl ⟨_, rfl, rfl, fun _ _ _ => rfl⟩
          | false =>
              cases h
              exact Or.inr (Or.inr (Or.inr ⟨existing, uploadMeta, rfl, rfl, rfl, rfl⟩))
  | finished => cases h

theorem declareUploadLength_cases
    {id : String} {uploadLength : Nat} {state state' : DeclareState} {turn : Turn}
    (h : declareUploadLength reader id uploadLength storage state turn = some (storage', state')) :
    storage' = storage ∨
    (∃ uploadMeta, state = .described uploadMeta ∧ turn = .put false ∧
      storage' = writeMeta storage id { uploadMeta with size := some uploadLength }) := by
  cases state with
  | called =>
      cases turn with
      | get =>
          simp only [declareUploadLength] at h
          cases hmeta : readMeta reader storage id with
          | error error =>
              rw [hmeta] at h
              cases h
              exact Or.inl rfl
          | ok uploadMeta =>
              rw [hmeta] at h
              cases h
              exact Or.inl rfl
      | stream => cases h
      | put => cases h
  | described uploadMeta =>
      cases turn with
      | get => cases h
      | stream => cases h
      | put fails =>
          cases fails with
          | true =>
              cases h
              exact Or.inl rfl
          | false =>
              cases h
              exact Or.inr ⟨uploadMeta, rfl, rfl, rfl⟩
  | finished => cases h

/-! ## The invariant -/

/-- What a call under way relies on. -/
def Sound (storage : Storage) : Call → Prop
  | .write request (.stored existing _) =>
      existing.length = request.offset ∧
        existing ++ request.incoming <+: bodyOf storage request.id
  | .write request state =>
      ∀ existing, state.existing? = some existing → existing.length = request.offset
  | _ => True

/-- The call is yet to put the offset of the body. -/
def Owes (storage : Storage) : Call → Prop
  | .create _ _ .described => True
  | .write request (.stored existing _) =>
      request.incoming ≠ [] ∧
        (existing ++ request.incoming).length = (bodyOf storage request.id).length
  | _ => False

/-- The writes that have stored more than nothing began at different offsets. -/
def Apart (calls : Nat → Option Call) : Prop :=
  ∀ a b r s existing existing' uploadMeta uploadMeta', a ≠ b →
    calls a = some (.write r (.stored existing uploadMeta)) →
      calls b = some (.write s (.stored existing' uploadMeta')) → r.id = s.id →
        r.incoming ≠ [] → s.incoming ≠ [] → r.offset ≠ s.offset

variable (reader ids) in
structure Inv (w : World) : Prop where
  known : ∀ c call, w.calls c = some call → ids call.id
  sound : ∀ c call, w.calls c = some call → Sound w.storage call
  apart : Apart w.calls
  whole :
    ∀ id, ids id →
      (w.accepted id).flatten = (bodyOf w.storage id).take (offsetOf reader w.storage id)
  offset_le : ∀ id, ids id → offsetOf reader w.storage id ≤ (bodyOf w.storage id).length
  settled :
    ∀ id, ids id → (bodyOf w.storage id).length = offsetOf reader w.storage id ∨
      ∃ c call, w.calls c = some call ∧ call.id = id ∧ Owes w.storage call

variable {w w' : World}

theorem inv_initialWorld : Inv reader ids initialWorld where
  known := nofun
  sound := nofun
  apart := nofun
  whole := by
    intro id _
    rfl
  offset_le := by
    intro id _
    exact le_rfl
  settled := by
    intro id _
    exact Or.inl rfl

/-! ## Calls that change -/

variable {c : Nat}

/-- What holds of the other calls and of the new one holds of all. -/
theorem of_update
    {P : Call → Prop} {calls : Nat → Option Call} {call : Call}
    (hothers : ∀ c' other, c' ≠ c → calls c' = some other → P other)
    (hcall : P call)
    {c' : Nat} {other : Call}
    (h : Function.update calls c (some call) c' = some other) :
    P other := by
  by_cases hc : c' = c
  · subst hc
    rw [Function.update_self] at h
    cases h
    exact hcall
  · rw [Function.update_of_ne hc] at h
    exact hothers c' other hc h

theorem Apart.update {calls : Nat → Option Call} {call : Call} (h : Apart calls)
    (hcall :
      ∀ r existing uploadMeta, call = .write r (.stored existing uploadMeta) → r.incoming ≠ [] →
        ∀ b s existing' uploadMeta', calls b = some (.write s (.stored existing' uploadMeta')) →
          r.id = s.id → s.incoming ≠ [] → r.offset ≠ s.offset) :
    Apart (Function.update calls c (some call)) := by
  intro a b r s existing existing' uploadMeta uploadMeta' hne ha hb hid hr hs
  by_cases hac : a = c
  · subst hac
    rw [Function.update_self] at ha
    rw [Function.update_of_ne hne.symm] at hb
    exact hcall r existing uploadMeta (Option.some.inj ha) hr b s existing' uploadMeta' hb hid hs
  · rw [Function.update_of_ne hac] at ha
    by_cases hbc : b = c
    · subst hbc
      rw [Function.update_self] at hb
      exact
        (hcall s existing' uploadMeta' (Option.some.inj hb) hs a r existing uploadMeta ha hid.symm
          hr).symm
    · rw [Function.update_of_ne hbc] at hb
      exact h a b r s existing existing' uploadMeta uploadMeta' hne ha hb hid hr hs

/-- A call with nothing stored is apart from the others. -/
theorem Apart.update_of_unstored
    {calls : Nat → Option Call} {call : Call}
    (h : Apart calls)
    (hcall : ∀ r existing uploadMeta, call ≠ .write r (.stored existing uploadMeta)) :
    Apart (Function.update calls c (some call)) :=
  h.update fun r existing uploadMeta hstored => absurd hstored (hcall r existing uploadMeta)

theorem Sound.mono
    {call : Call}
    (h : Sound storage call)
    (hbody : bodyOf storage call.id <+: bodyOf storage' call.id) :
    Sound storage' call := by
  cases call with
  | create => exact h
  | declareUploadLength => exact h
  | write request state =>
      cases state with
      | stored existing uploadMeta => exact ⟨h.1, h.2.trans hbody⟩
      | called => exact h
      | checked => exact h
      | collected => exact h
      | described => exact h
      | finished => exact h

theorem Owes.mono
    {call : Call}
    (h : Owes storage call)
    (hbody : (bodyOf storage' call.id).length = (bodyOf storage call.id).length) :
    Owes storage' call := by
  cases call with
  | create file now state =>
      cases state with
      | described => exact h
      | called => exact h
      | finished => exact h
  | declareUploadLength => exact h
  | write request state =>
      cases state with
      | stored existing uploadMeta => exact ⟨h.1, h.2.trans hbody.symm⟩
      | called => exact h
      | checked => exact h
      | collected => exact h
      | described => exact h
      | finished => exact h

/-- The storage stays, and the call owes nothing that is missing. -/
theorem Inv.quiet
    (h : Inv reader ids w)
    {call : Call}
    (hknown : ids call.id)
    (hsound : Sound w.storage call)
    (hcall : ∀ r existing uploadMeta, call ≠ .write r (.stored existing uploadMeta))
    (hold :
      ∀ old, w.calls c = some old → Owes w.storage old →
        (bodyOf w.storage old.id).length = offsetOf reader w.storage old.id) :
    Inv reader ids { w with calls := Function.update w.calls c (some call) } where
  known c' other := of_update (fun c' other _ => h.known c' other) hknown
  sound c' other := of_update (fun c' other _ => h.sound c' other) hsound
  apart := h.apart.update_of_unstored hcall
  whole := h.whole
  offset_le := h.offset_le
  settled := by
    intro id hid
    rcases h.settled id hid with hsame | ⟨c', other, hother, rfl, howes⟩
    · exact Or.inl hsame
    · by_cases hc : c' = c
      · subst hc
        exact Or.inl (hold other hother howes)
      · exact Or.inr ⟨c', other, (Function.update_of_ne hc _ _).trans hother, rfl, howes⟩

/-- A put of one call: the objects of the other uploads stay. -/
theorem Inv.turn
    (h : Inv reader ids w)
    {c : Nat} (old call : Call) {storage' : Storage} {accepted' : String → List Bytes}
    (hold : w.calls c = some old)
    (hsame : call.id = old.id)
    (hbody : ∀ id, ids id → id ≠ old.id → bodyOf storage' id = bodyOf w.storage id)
    (hoffset :
      ∀ id, ids id → id ≠ old.id → offsetOf reader storage' id = offsetOf reader w.storage id)
    (haccepted : ∀ id, id ≠ old.id → accepted' id = w.accepted id)
    (hsound : Sound storage' call)
    (hothers :
      ∀ c' other, c' ≠ c → w.calls c' = some other → other.id = old.id → Sound storage' other)
    (hapart : Apart (Function.update w.calls c (some call)))
    (hwhole :
      (accepted' old.id).flatten =
        (bodyOf storage' old.id).take (offsetOf reader storage' old.id))
    (hle : offsetOf reader storage' old.id ≤ (bodyOf storage' old.id).length)
    (hsettled :
      (bodyOf storage' old.id).length = offsetOf reader storage' old.id ∨ Owes storage' call ∨
        ∃ c' other, c' ≠ c ∧ w.calls c' = some other ∧ other.id = old.id ∧ Owes storage' other) :
    Inv reader ids
      { storage := storage'
        calls := Function.update w.calls c (some call)
        accepted := accepted' } := by
  have hid := h.known c old hold
  refine ⟨?_, ?_, hapart, ?_, ?_, ?_⟩
  · intro c' other
    exact of_update (fun c' other _ => h.known c' other) (hsame ▸ hid)
  · intro c' other
    refine of_update (fun c' other hc hother => ?_) hsound
    by_cases hmine : other.id = old.id
    · exact hothers c' other hc hother hmine
    · exact
        (h.sound c' other hother).mono
          (by rw [hbody _ (h.known c' other hother) hmine])
  · intro id hid'
    by_cases hmine : id = old.id
    · subst hmine
      exact hwhole
    · dsimp only
      rw [haccepted id hmine, hbody id hid' hmine, hoffset id hid' hmine]
      exact h.whole id hid'
  · intro id hid'
    by_cases hmine : id = old.id
    · subst hmine
      exact hle
    · dsimp only
      rw [hbody id hid' hmine, hoffset id hid' hmine]
      exact h.offset_le id hid'
  · intro id hid'
    by_cases hmine : id = old.id
    · subst hmine
      rcases hsettled with hdone | howes | ⟨c', other, hc, hother, hotherId, howes⟩
      · exact Or.inl hdone
      · exact Or.inr ⟨c, call, Function.update_self _ _ _, hsame, howes⟩
      · exact
          Or.inr ⟨c', other, (Function.update_of_ne hc _ _).trans hother, hotherId, howes⟩
    · dsimp only
      rw [hbody id hid' hmine, hoffset id hid' hmine]
      rcases h.settled id hid' with hdone | ⟨c', other, hother, rfl, howes⟩
      · exact Or.inl hdone
      · refine Or.inr ⟨c', other, ?_, rfl, howes.mono (by rw [hbody _ hid' hmine])⟩
        rw [Function.update_of_ne]
        · exact hother
        · rintro rfl
          rw [hold] at hother
          cases hother
          exact hmine rfl

/-- New metadata of an upload: they fit the body, and the calls that owe it an offset are kept. -/
theorem Inv.writeMeta
    (hids : Uncollided ids)
    (h : Inv reader ids w)
    {c : Nat} (old call : Call) (uploadMeta : UploadMetadata) (chunks : List Bytes)
    (hold : w.calls c = some old)
    (hsame : call.id = old.id)
    (hsound : Sound w.storage call)
    (hcall : ∀ r existing uploadMeta, call ≠ .write r (.stored existing uploadMeta))
    (hwhole : chunks.flatten = (bodyOf w.storage old.id).take uploadMeta.offset)
    (hle : uploadMeta.offset ≤ (bodyOf w.storage old.id).length)
    (hsettled :
      (bodyOf w.storage old.id).length = uploadMeta.offset ∨ Owes w.storage call ∨
        ∃ c' other, c' ≠ c ∧ w.calls c' = some other ∧ other.id = old.id ∧
          Owes w.storage other) :
    Inv reader ids
      { storage := DataStore.writeMeta w.storage old.id uploadMeta
        calls := Function.update w.calls c (some call)
        accepted := Function.update w.accepted old.id chunks } := by
  have hid := h.known c old hold
  have hbody :
      ∀ id, ids id → bodyOf (DataStore.writeMeta w.storage old.id uploadMeta) id =
        bodyOf w.storage id :=
    fun id hid' => bodyOf_writeMeta hids hid hid' w.storage uploadMeta
  have hoffset :
      offsetOf reader (DataStore.writeMeta w.storage old.id uploadMeta) old.id =
        uploadMeta.offset := by
    rw [offsetOf_writeMeta, if_pos rfl]
  refine
    h.turn old call hold hsame (fun id hid' _ => hbody id hid') ?_
      (fun id hne => Function.update_of_ne hne _ _) ?_ ?_ (h.apart.update_of_unstored hcall) ?_ ?_ ?_
  · intro id _ hne
    rw [offsetOf_writeMeta, if_neg hne]
  · exact hsound.mono (by rw [hbody _ (hsame ▸ hid)])
  · intro c' other _ hother _
    exact (h.sound c' other hother).mono (by rw [hbody _ (h.known c' other hother)])
  · rw [Function.update_self, hbody _ hid, hoffset]
    exact hwhole
  · rw [hbody _ hid, hoffset]
    exact hle
  · rw [hbody _ hid, hoffset]
    rcases hsettled with hdone | howes | ⟨c', other, hc, hother, hotherId, howes⟩
    · exact Or.inl hdone
    · exact Or.inr (Or.inl (howes.mono (by rw [hbody _ (hsame ▸ hid)])))
    · exact
        Or.inr
          (Or.inr
            ⟨c', other, hc, hother, hotherId, howes.mono (by rw [hbody _ (hotherId ▸ hid)])⟩)

/-! ## One turn -/

/-- A call that owes nothing leaves nothing owed. -/
theorem settled_of_free {old : Call} (hold : w.calls c = some old) (hfree : ¬ Owes w.storage old) :
    ∀ old', w.calls c = some old' → Owes w.storage old' →
      (bodyOf w.storage old'.id).length = offsetOf reader w.storage old'.id := by
  intro old' hold' howes
  rw [hold] at hold'
  cases hold'
  exact absurd howes hfree

theorem Inv.create
    (hids : Uncollided ids)
    (h : Inv reader ids w)
    {file : Upload} {now : String} {state state' : CreateState} {turn : Turn}
    (hcall : w.calls c = some (.create file now state))
    (hguard : InPlace reader ids w (.turn c turn))
    (hturn : DataStore.create file now w.storage state turn = some (storage', state')) :
    Inv reader ids
      { storage := storage'
        calls := Function.update w.calls c (some (.create file now state'))
        accepted := acceptedByCreate file w.accepted state' } := by
  have hid : ids file.id := h.known c _ hcall
  have hle := h.offset_le file.id hid
  rcases create_cases hturn with
    ⟨error, rfl, rfl, rfl⟩ | ⟨rfl, rfl, rfl, rfl⟩ | ⟨rfl, rfl, rfl, rfl⟩
  · -- A put that fails.
    refine h.quiet hid trivial nofun ?_
    intro old hold howes
    rw [hcall] at hold
    cases hold
    cases state with
    | called => exact absurd howes id
    | finished => exact absurd howes id
    | described =>
        have hempty : bodyOf w.storage file.id = [] := hguard _ hcall
        change (bodyOf w.storage file.id).length = offsetOf reader w.storage file.id
        rw [hempty] at hle ⊢
        exact (Nat.le_zero.mp hle).symm
  · -- The metadata of an upload that starts over.
    exact
      h.writeMeta hids (.create file now .called) _ (initialMeta file now) [] hcall rfl trivial
        nofun rfl (Nat.zero_le _) (Or.inr (Or.inl trivial))
  · -- The empty body.
    obtain ⟨hzero, hfinished⟩ := hguard _ hcall
    have hoffset :
        ∀ id, ids id →
          offsetOf reader (put w.storage (bodyKey file.id) [] (fileType file.metadata)) id =
            offsetOf reader w.storage id :=
      fun id hid' => offsetOf_put hids hid hid' w.storage [] _
    have hbody :
        bodyOf (put w.storage (bodyKey file.id) [] (fileType file.metadata)) file.id = [] := by
      rw [bodyOf_put, if_pos rfl]
    refine
      h.turn (.create file now .described) (.create file now (.finished (.ok file))) hcall rfl ?_
        (fun id hid' _ => hoffset id hid') (fun _ _ => rfl) trivial ?_
        (h.apart.update_of_unstored nofun) ?_ ?_ ?_
    · intro id _ hne
      exact (bodyOf_put _ _ _ _ _).trans (if_neg hne)
    · intro c' other _ hother hotherId
      cases other with
      | create => trivial
      | declareUploadLength => trivial
      | write request state =>
          have hdone := hfinished c' request state hother hotherId
          cases state with
          | finished => exact nofun
          | called => cases hdone
          | checked => cases hdone
          | collected => cases hdone
          | described => cases hdone
          | stored => cases hdone
    · have hwhole := h.whole file.id hid
      rw [hzero, List.take_zero] at hwhole
      change (w.accepted file.id).flatten = (bodyOf _ file.id).take _
      rw [hbody, List.take_nil]
      exact hwhole
    · change offsetOf reader _ file.id ≤ (bodyOf _ file.id).length
      rw [hoffset _ hid, hbody, hzero]
      exact le_rfl
    · left
      change (bodyOf _ file.id).length = offsetOf reader _ file.id
      rw [hoffset _ hid, hbody, hzero]
      rfl

/-- What a write has read has the length of its offset. -/
theorem Sound.length_existing
    {existing : Bytes}
    (h : Sound storage (.write request state))
    (hexisting : state.existing? = some existing) :
    existing.length = request.offset := by
  cases state with
  | stored => cases hexisting
  | called => exact h existing hexisting
  | checked => exact h existing hexisting
  | collected => exact h existing hexisting
  | described => exact h existing hexisting
  | finished => exact h existing hexisting

theorem not_owes_of_existing? {existing : Bytes} (hexisting : state.existing? = some existing) :
    ¬ Owes storage (.write request state) := by
  intro howes
  cases state with
  | stored => cases hexisting
  | called => exact howes
  | checked => exact howes
  | collected => exact howes
  | described => exact howes
  | finished => exact howes

theorem Inv.write_body
    (hids : Uncollided ids)
    (h : Inv reader ids w)
    {existing : Bytes} {uploadMeta : UploadMetadata}
    (hcall : w.calls c = some (.write request (.described existing uploadMeta)))
    (hguard : InPlace reader ids w (.turn c (.put false)))
    (mimeType : String) :
    Inv reader ids
      { w with
        storage := put w.storage (bodyKey request.id) (existing ++ request.incoming) mimeType
        calls := Function.update w.calls c (some (.write request (.stored existing uploadMeta))) } := by
  have hid : ids request.id := h.known c _ hcall
  have hread : bodyOf w.storage request.id = existing := hguard _ hcall rfl
  have hlength : existing.length = request.offset :=
    Sound.length_existing (h.sound c _ hcall) rfl
  have hle := h.offset_le request.id hid
  rw [hread] at hle
  have hoffset :
      ∀ id, ids id →
        offsetOf reader
            (put w.storage (bodyKey request.id) (existing ++ request.incoming) mimeType) id =
          offsetOf reader w.storage id :=
    fun id hid' => offsetOf_put hids hid hid' w.storage _ _
  have hbody :
      bodyOf (put w.storage (bodyKey request.id) (existing ++ request.incoming) mimeType)
          request.id =
        existing ++ request.incoming := by
    rw [bodyOf_put, if_pos rfl]
  refine
    h.turn (.write request (.described existing uploadMeta))
      (.write request (.stored existing uploadMeta)) hcall rfl ?_
      (fun id hid' _ => hoffset id hid') (fun _ _ => rfl) ?_ ?_ (h.apart.update ?_) ?_ ?_ ?_
  · intro id _ hne
    exact (bodyOf_put _ _ _ _ _).trans (if_neg hne)
  · refine ⟨hlength, ?_⟩
    rw [hbody]
  · intro c' other _ hother hotherId
    refine (h.sound c' other hother).mono ?_
    rw [hotherId]
    change bodyOf w.storage request.id <+: bodyOf _ request.id
    rw [hread, hbody]
    exact List.prefix_append _ _
  · -- The others that have stored something began before the end of the body.
    intro r existing' uploadMeta' hsame _ b s other' uploadMeta'' hother hsid hs
    cases hsame
    obtain ⟨hbegin, hstored⟩ := h.sound b _ hother
    rw [← hsid, hread] at hstored
    have hshort := hstored.length_le
    rw [List.length_append, hbegin, hlength] at hshort
    have hpos := List.length_pos_iff.mpr hs
    omega
  · change
      (w.accepted request.id).flatten =
        (bodyOf _ request.id).take (offsetOf reader _ request.id)
    rw [hbody, hoffset _ hid, List.take_append_of_le_length hle, h.whole request.id hid, hread]
  · change offsetOf reader _ request.id ≤ (bodyOf _ request.id).length
    rw [hbody, hoffset _ hid, List.length_append]
    exact Nat.le_add_right_of_le hle
  · by_cases hincoming : request.incoming = []
    · -- Nothing new is stored, and what was owed is still owed.
      have hlengths :
          (bodyOf (put w.storage (bodyKey request.id) (existing ++ request.incoming) mimeType)
              request.id).length =
            (bodyOf w.storage request.id).length := by
        rw [hbody, hread, hincoming, List.append_nil]
      rcases h.settled request.id hid with hdone | ⟨c', other, hother, hotherId, howes⟩
      · left
        change (bodyOf _ request.id).length = offsetOf reader _ request.id
        rw [hlengths, hoffset _ hid]
        exact hdone
      · refine Or.inr (Or.inr ⟨c', other, ?_, hother, hotherId, howes.mono ?_⟩)
        · rintro rfl
          rw [hcall] at hother
          cases hother
          exact howes
        · rw [hotherId]
          exact hlengths
    · exact Or.inr (Or.inl ⟨hincoming, by rw [hbody]⟩)

theorem Inv.write_meta
    (hids : Uncollided ids)
    (h : Inv reader ids w)
    {existing : Bytes} {uploadMeta : UploadMetadata}
    (hcall : w.calls c = some (.write request (.stored existing uploadMeta)))
    (hguard : InPlace reader ids w (.turn c (.put false))) :
    Inv reader ids
      { storage :=
          DataStore.writeMeta w.storage request.id
            { uploadMeta with offset := (existing ++ request.incoming).length }
        calls :=
          Function.update w.calls c
            (some (.write request (.finished (.ok (existing ++ request.incoming).length))))
        accepted :=
          Function.update w.accepted request.id
            (w.accepted request.id ++ [request.incoming]) } := by
  have hid : ids request.id := h.known c _ hcall
  have hoffset : offsetOf reader w.storage request.id = request.offset := hguard _ hcall
  obtain ⟨hlength, hstored⟩ := h.sound c _ hcall
  refine
    h.writeMeta hids (.write request (.stored existing uploadMeta)) _ _ _ hcall rfl nofun nofun
      ?_ hstored.length_le ?_
  · have hwhole := h.whole request.id hid
    obtain ⟨back, hback⟩ := hstored
    rw [hoffset, ← hlength, ← hback, List.append_assoc, List.take_left] at hwhole
    change _ = (bodyOf w.storage request.id).take (existing ++ request.incoming).length
    rw [← hback, List.take_left, List.flatten_append, hwhole, List.flatten_singleton]
  · change
      (bodyOf w.storage request.id).length = (existing ++ request.incoming).length ∨ False ∨ _
    rcases h.settled request.id hid with hdone | ⟨c', other, hother, hotherId, howes⟩
    · left
      rw [hoffset, ← hlength] at hdone
      refine le_antisymm ?_ hstored.length_le
      rw [hdone, List.length_append]
      exact Nat.le_add_right _ _
    · by_cases hc : c' = c
      · subst hc
        rw [hcall] at hother
        cases hother
        exact Or.inl howes.2.symm
      · exact Or.inr (Or.inr ⟨c', other, hc, hother, hotherId, howes⟩)

theorem Inv.write
    (hids : Uncollided ids)
    (h : Inv reader ids w)
    {state' : WriteState} {turn : Turn}
    (hcall : w.calls c = some (.write request state))
    (hguard : InPlace reader ids w (.turn c turn))
    (hturn : DataStore.write reader request w.storage state turn = some (storage', state')) :
    Inv reader ids
      { storage := storage'
        calls := Function.update w.calls c (some (.write request state'))
        accepted := acceptedByWrite request w.accepted state' } := by
  have hid : ids request.id := h.known c _ hcall
  rcases write_cases hturn with
    ⟨error, rfl, rfl, hfails⟩ | ⟨existing, rfl, hexisting, hread⟩ |
      ⟨existing, uploadMeta, rfl, rfl, rfl, rfl⟩ | ⟨existing, uploadMeta, rfl, rfl, rfl, rfl⟩
  · refine h.quiet hid nofun nofun (settled_of_free hcall ?_)
    intro howes
    cases state with
    | stored existing uploadMeta =>
        obtain rfl := hfails existing uploadMeta rfl
        exact howes.1 (hguard _ hcall)
    | called => exact howes
    | checked => exact howes
    | collected => exact howes
    | described => exact howes
    | finished => exact howes
  · have hlength : existing.length = request.offset := by
      rcases hread with ⟨-, -, hlength⟩ | hbefore
      · exact hlength
      · exact Sound.length_existing (h.sound c _ hcall) hbefore
    have hfree : ¬ Owes w.storage (.write request state) := by
      rcases hread with ⟨rfl, -⟩ | hbefore
      · exact fun howes => howes
      · exact not_owes_of_existing? hbefore
    cases state' with
    | checked existing' =>
        cases hexisting
        exact h.quiet hid (fun _ hsame => Option.some.inj hsame ▸ hlength) nofun
          (settled_of_free hcall hfree)
    | collected existing' =>
        cases hexisting
        exact h.quiet hid (fun _ hsame => Option.some.inj hsame ▸ hlength) nofun
          (settled_of_free hcall hfree)
    | described existing' uploadMeta =>
        cases hexisting
        exact h.quiet hid (fun _ hsame => Option.some.inj hsame ▸ hlength) nofun
          (settled_of_free hcall hfree)
    | called => cases hexisting
    | stored => cases hexisting
    | finished => cases hexisting
  · exact h.write_body hids hcall hguard _
  · exact h.write_meta hids hcall hguard

theorem Inv.declareUploadLength
    (hids : Uncollided ids)
    (h : Inv reader ids w)
    {id : String} {uploadLength : Nat} {state state' : DeclareState} {turn : Turn}
    (hcall : w.calls c = some (.declareUploadLength id uploadLength state))
    (hguard : InPlace reader ids w (.turn c turn))
    (hturn :
      DataStore.declareUploadLength reader id uploadLength w.storage state turn =
        some (storage', state')) :
    Inv reader ids
      { w with
        storage := storage'
        calls := Function.update w.calls c (some (.declareUploadLength id uploadLength state')) } := by
  have hid : ids id := h.known c _ hcall
  rcases declareUploadLength_cases hturn with rfl | ⟨uploadMeta, rfl, rfl, rfl⟩
  · exact h.quiet hid trivial nofun (settled_of_free hcall fun howes => howes)
  · have hoffset : offsetOf reader w.storage id = uploadMeta.offset := hguard _ hcall rfl
    have hwhole := h.whole id hid
    have hle := h.offset_le id hid
    have hsettled := h.settled id hid
    rw [hoffset] at hwhole hle hsettled
    have hput :=
      h.writeMeta hids (.declareUploadLength id uploadLength (.described uploadMeta))
        (.declareUploadLength id uploadLength state')
        { uploadMeta with size := some uploadLength } (w.accepted id) hcall rfl trivial nofun
        hwhole hle ?_
    · rw [show Call.id (.declareUploadLength id uploadLength (.described uploadMeta)) = id from rfl,
        Function.update_eq_self] at hput
      exact hput
    · rcases hsettled with hdone | ⟨c', other, hother, hotherId, howes⟩
      · exact Or.inl hdone
      · refine Or.inr (Or.inr ⟨c', other, ?_, hother, hotherId, howes⟩)
        rintro rfl
        rw [hcall] at hother
        cases hother
        exact howes

theorem step_call {request : Request} (hstep : step reader w (.call c request) = some w') :
    w.calls c = none ∧
      w' = { w with calls := Function.update w.calls c (some request.start) } := by
  rw [step] at hstep
  split at hstep
  · next hnone => exact ⟨Option.isNone_iff_eq_none.mp hnone, (Option.some.inj hstep).symm⟩
  · cases hstep

theorem step_turn {turn : Turn} (hstep : step reader w (.turn c turn) = some w') :
    ∃ call, w.calls c = some call ∧ advance reader w c turn call = some w' := by
  rw [step] at hstep
  exact Option.bind_eq_some_iff.mp hstep

theorem inv_step
    (hids : Uncollided ids)
    (h : Inv reader ids w)
    {event : Event}
    (hguard : InPlace reader ids w event)
    (hstep : step reader w event = some w') :
    Inv reader ids w' := by
  cases event with
  | call c request =>
      obtain ⟨hfree, rfl⟩ := step_call hstep
      refine h.quiet hguard ?_ ?_ ?_
      · cases request with
        | create => trivial
        | write => exact nofun
        | declareUploadLength => trivial
      · cases request with
        | create => exact nofun
        | write => exact nofun
        | declareUploadLength => exact nofun
      · intro old hold
        rw [hfree] at hold
        cases hold
  | turn c turn =>
      obtain ⟨call, hcall, hadvance⟩ := step_turn hstep
      cases call with
      | create file now state =>
          obtain ⟨⟨storage', state'⟩, hturn, hnext⟩ := Option.map_eq_some_iff.mp hadvance
          cases hnext
          exact h.create hids hcall hguard hturn
      | write request state =>
          obtain ⟨⟨storage', state'⟩, hturn, hnext⟩ := Option.map_eq_some_iff.mp hadvance
          cases hnext
          exact h.write hids hcall hguard hturn
      | declareUploadLength id uploadLength state =>
          obtain ⟨⟨storage', state'⟩, hturn, hnext⟩ := Option.map_eq_some_iff.mp hadvance
          cases hnext
          exact h.declareUploadLength hids hcall hguard hturn

theorem inv_of_reaches
    (hids : Uncollided ids)
    (hrun : Reaches (step reader) (InPlace reader ids) initialWorld w) :
    Inv reader ids w :=
  hrun.invariant inv_initialWorld fun _ _ _ h hguard hstep => inv_step hids h hguard hstep

end Uploads

end DataStore
end Files
end NestBase
