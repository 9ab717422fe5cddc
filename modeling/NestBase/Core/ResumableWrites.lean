import NestBase.Core.ResumableUploads

/-!
# Writes at one offset

Of two writes that are under way at one offset the one that puts its body first
makes the body longer than the other has read.  From this and the invariant of
the uploads follows what a client may rely on (`resumable_of_reaches`); the
runs of one note show what is lost where a put is not in place.
-/

namespace NestBase
namespace Files
namespace DataStore

open Lib

section Uploads

variable {reader : JsonReader}
variable {ids : String → Prop}
variable {storage : Storage}
variable {w w' : World}

/-! ## Two writes at one offset -/

/-- The merged body of the write was put. -/
def WriteState.isPut : WriteState → Bool
  | .stored _ _ => true
  | .finished (.ok _) => true
  | _ => false

variable {event : Event}
variable {request r s : WriteRequest}
variable {c a b : Nat}
variable {state : WriteState}

/-- A write is changed by its own turns only. -/
theorem write_step
    (hcall : w.calls c = some (.write request state))
    (hstep : step reader w event = some w') :
    w'.calls c = some (.write request state) ∨
      ∃ turn state', event = .turn c turn ∧
        write reader request w.storage state turn = some (w'.storage, state') ∧
          w'.calls c = some (.write request state') := by
  cases event with
  | call c' request' =>
      obtain ⟨hfree, rfl⟩ := step_call hstep
      left
      refine (Function.update_of_ne ?_ _ _).trans hcall
      rintro rfl
      rw [hfree] at hcall
      cases hcall
  | turn c' turn =>
      obtain ⟨call, hcall', hadvance⟩ := step_turn hstep
      by_cases hc : c = c'
      · subst hc
        rw [hcall] at hcall'
        cases hcall'
        obtain ⟨⟨storage', state'⟩, hturn, hnext⟩ := Option.map_eq_some_iff.mp hadvance
        cases hnext
        exact Or.inr ⟨turn, state', rfl, hturn, Function.update_self _ _ _⟩
      · left
        cases call with
        | create file now state' =>
            obtain ⟨next, hturn, rfl⟩ := Option.map_eq_some_iff.mp hadvance
            exact (Function.update_of_ne hc _ _).trans hcall
        | write request' state' =>
            obtain ⟨next, hturn, rfl⟩ := Option.map_eq_some_iff.mp hadvance
            exact (Function.update_of_ne hc _ _).trans hcall
        | declareUploadLength id uploadLength state' =>
            obtain ⟨next, hturn, rfl⟩ := Option.map_eq_some_iff.mp hadvance
            exact (Function.update_of_ne hc _ _).trans hcall

/-- While a write is under way the body of its upload only grows. -/
theorem bodyOf_prefix_step
    (hids : Uncollided ids)
    (h : Inv reader ids w)
    (hcall : w.calls c = some (.write request state))
    (hunder : state.isFinished = false)
    (hguard : InPlace reader ids w event)
    (hstep : step reader w event = some w') :
    bodyOf w.storage request.id <+: bodyOf w'.storage request.id := by
  have hid : ids request.id := h.known c _ hcall
  cases event with
  | call c' request' =>
      obtain ⟨-, rfl⟩ := step_call hstep
      exact List.prefix_rfl
  | turn c' turn =>
      obtain ⟨call, hcall', hadvance⟩ := step_turn hstep
      cases call with
      | create file now state' =>
          have hother : ids file.id := h.known c' _ hcall'
          obtain ⟨⟨storage', next⟩, hturn, rfl⟩ := Option.map_eq_some_iff.mp hadvance
          rcases create_cases hturn with
            ⟨error, rfl, rfl, rfl⟩ | ⟨rfl, rfl, rfl, rfl⟩ | ⟨rfl, rfl, rfl, rfl⟩
          · exact List.prefix_rfl
          · dsimp only
            rw [bodyOf_writeMeta hids hother hid]
          · have hne : request.id ≠ file.id := by
              intro hsame
              have hfinished := (hguard _ hcall').2 c request state hcall hsame
              rw [hunder] at hfinished
              cases hfinished
            dsimp only
            rw [bodyOf_put, if_neg hne]
      | write request' state' =>
          have hother : ids request'.id := h.known c' _ hcall'
          obtain ⟨⟨storage', next⟩, hturn, rfl⟩ := Option.map_eq_some_iff.mp hadvance
          rcases write_cases hturn with
            ⟨error, rfl, rfl, -⟩ | ⟨existing, rfl, -, -⟩ |
              ⟨existing, uploadMeta, rfl, rfl, rfl, rfl⟩ |
                ⟨existing, uploadMeta, rfl, rfl, rfl, rfl⟩
          · exact List.prefix_rfl
          · exact List.prefix_rfl
          · have hread : bodyOf w.storage request'.id = existing := hguard _ hcall' rfl
            dsimp only
            rw [bodyOf_put]
            split
            · next hsame =>
              rw [hsame, hread]
              exact List.prefix_append _ _
            · exact List.prefix_rfl
          · dsimp only
            rw [bodyOf_writeMeta hids hother hid]
      | declareUploadLength id uploadLength state' =>
          have hother : ids id := h.known c' _ hcall'
          obtain ⟨⟨storage', next⟩, hturn, rfl⟩ := Option.map_eq_some_iff.mp hadvance
          rcases declareUploadLength_cases hturn with rfl | ⟨uploadMeta, rfl, rfl, rfl⟩
          · exact List.prefix_rfl
          · dsimp only
            rw [bodyOf_writeMeta hids hother hid]

/-- The write has put nothing, and what it would put does not fit the body. -/
def Beaten (storage : Storage) (request : WriteRequest) (state : WriteState) : Prop :=
  state.isPut = false ∧
    (state.isFinished = false → request.offset < (bodyOf storage request.id).length)

/-- The other write has put its body. -/
theorem beaten_step
    (hids : Uncollided ids)
    (h : Inv reader ids w)
    {first second first' second' : WriteState}
    (hne : a ≠ b)
    (hid : r.id = s.id)
    (hoffset : r.offset = s.offset)
    (hs : s.incoming ≠ [])
    (ha : w.calls a = some (.write r first))
    (hb : w.calls b = some (.write s second))
    (hfirst : second.isPut = true → Beaten w.storage r first)
    (hsecond : first.isPut = true → Beaten w.storage s second)
    (hguard : InPlace reader ids w event)
    (hstep : step reader w event = some w')
    (ha' : w'.calls a = some (.write r first'))
    (hb' : w'.calls b = some (.write s second')) :
    second'.isPut = true → Beaten w'.storage r first' := by
  have hgrow : first.isFinished = false → bodyOf w.storage r.id <+: bodyOf w'.storage r.id :=
    fun hunder => bodyOf_prefix_step hids h ha hunder hguard hstep
  have hkeep : Beaten w.storage r first → Beaten w'.storage r first := fun hbeaten =>
    ⟨hbeaten.1, fun hunder => (hbeaten.2 hunder).trans_le (hgrow hunder).length_le⟩
  intro hput
  rcases write_step ha hstep with hsame | ⟨turn, state', rfl, hturn, hnew⟩
  · rw [hsame] at ha'
    cases ha'
    rcases write_step hb hstep with hsame' | ⟨turn, state', rfl, hturn, hnew⟩
    · rw [hsame'] at hb'
      cases hb'
      exact hkeep (hfirst hput)
    · -- The second write's turn: its put is the first of the two.
      rw [hnew] at hb'
      cases hb'
      rcases write_cases hturn with
        ⟨error, -, rfl, -⟩ | ⟨existing, -, hexisting, -⟩ |
          ⟨existing, uploadMeta, rfl, rfl, hstorage, rfl⟩ |
            ⟨existing, uploadMeta, rfl, rfl, -, rfl⟩
      · cases hput
      · cases second' <;> cases hexisting <;> cases hput
      · have hread : bodyOf w.storage s.id = existing := hguard _ hb rfl
        have hlength : existing.length = s.offset := Sound.length_existing (h.sound b _ hb) rfl
        refine ⟨?_, fun _ => ?_⟩
        · by_contra hfirstPut
          have hlonger := (hsecond (Bool.of_not_eq_false hfirstPut)).2 rfl
          rw [hread, hlength] at hlonger
          exact lt_irrefl _ hlonger
        · rw [hstorage, hid, bodyOf_put, if_pos rfl, List.length_append, hlength, hoffset]
          have hpos := List.length_pos_iff.mpr hs
          omega
      · exact hkeep (hfirst rfl)
  · -- The first write's turn: its put would not find the body it has read.
    have hsame : w'.calls b = some (.write s second) := by
      rcases write_step hb hstep with hsame | ⟨turn', state'', hevent, -, -⟩
      · exact hsame
      · cases hevent
        exact absurd rfl hne
    rw [hsame] at hb'
    cases hb'
    rw [hnew] at ha'
    cases ha'
    obtain ⟨hfirstPut, hlonger⟩ := hfirst hput
    rcases write_cases hturn with
      ⟨error, hstorage, rfl, -⟩ | ⟨existing, hstorage, hexisting, hread⟩ |
        ⟨existing, uploadMeta, rfl, rfl, -, rfl⟩ | ⟨existing, uploadMeta, rfl, rfl, -, rfl⟩
    · exact ⟨rfl, nofun⟩
    · have hunder : first.isFinished = false := by
        rcases hread with ⟨rfl, -⟩ | hbefore
        · rfl
        · cases first <;> first | rfl | cases hbefore
      refine ⟨?_, fun _ => ?_⟩
      · cases first' <;> first | rfl | cases hexisting
      · rw [hstorage]
        exact hlonger hunder
    · have hread : bodyOf w.storage r.id = existing := hguard _ ha rfl
      have hlength : existing.length = r.offset := Sound.length_existing (h.sound a _ ha) rfl
      have hlonger := hlonger rfl
      rw [hread, hlength] at hlonger
      exact absurd hlonger (lt_irrefl _)
    · cases hfirstPut

/-- Not both of the writes have put their bodies. -/
def Rivals (w : World) (a b : Nat) (r s : WriteRequest) : Prop :=
  ∃ first second, w.calls a = some (.write r first) ∧ w.calls b = some (.write s second) ∧
    (second.isPut = true → Beaten w.storage r first) ∧
      (first.isPut = true → Beaten w.storage s second)

/-- A write that has put its body and is under way has made the body longer. -/
theorem Inv.lt_length
    (h : Inv reader ids w)
    (hcall : w.calls c = some (.write request state))
    (hunder : state.isFinished = false)
    (hput : state.isPut = true)
    (hincoming : request.incoming ≠ []) :
    request.offset < (bodyOf w.storage request.id).length := by
  cases state with
  | stored existing uploadMeta =>
      obtain ⟨hlength, hstored⟩ := h.sound c _ hcall
      have hle := hstored.length_le
      rw [List.length_append, hlength] at hle
      have hpos := List.length_pos_iff.mpr hincoming
      omega
  | finished => cases hunder
  | called => cases hput
  | checked => cases hput
  | collected => cases hput
  | described => cases hput

theorem Inv.rivals
    (h : Inv reader ids w)
    (hconcurrent : Concurrent w a b r s)
    (hr : r.incoming ≠ [])
    (hs : s.incoming ≠ []) :
    Rivals w a b r s := by
  obtain ⟨first, ha, hfirst⟩ := hconcurrent.first
  obtain ⟨second, hb, hsecond⟩ := hconcurrent.second
  have hapart : first.isPut = true → second.isPut = true → False := by
    intro hput hput'
    cases first with
    | stored existing uploadMeta =>
        cases second with
        | stored existing' uploadMeta' =>
            exact
              h.apart a b r s existing existing' uploadMeta uploadMeta' hconcurrent.ne ha hb
                hconcurrent.id hr hs hconcurrent.offset
        | finished => cases hsecond
        | called => cases hput'
        | checked => cases hput'
        | collected => cases hput'
        | described => cases hput'
    | finished => cases hfirst
    | called => cases hput
    | checked => cases hput
    | collected => cases hput
    | described => cases hput
  refine ⟨first, second, ha, hb, fun hput => ⟨?_, fun _ => ?_⟩, fun hput => ⟨?_, fun _ => ?_⟩⟩
  · exact Bool.eq_false_of_not_eq_true fun hboth => hapart hboth hput
  · rw [hconcurrent.offset, hconcurrent.id]
    exact h.lt_length hb hsecond hput hs
  · exact Bool.eq_false_of_not_eq_true fun hboth => hapart hput hboth
  · rw [← hconcurrent.offset, ← hconcurrent.id]
    exact h.lt_length ha hfirst hput hr

theorem rivals_step
    (hids : Uncollided ids)
    (h : Inv reader ids w)
    (hne : a ≠ b)
    (hid : r.id = s.id)
    (hoffset : r.offset = s.offset)
    (hr : r.incoming ≠ [])
    (hs : s.incoming ≠ [])
    (hrivals : Rivals w a b r s)
    (hguard : InPlace reader ids w event)
    (hstep : step reader w event = some w') :
    Rivals w' a b r s := by
  obtain ⟨first, second, ha, hb, hfirst, hsecond⟩ := hrivals
  have hcalls :
      ∀ {c : Nat} {request : WriteRequest} {state : WriteState},
        w.calls c = some (.write request state) →
          ∃ state', w'.calls c = some (.write request state') := by
    intro c request state hcall
    rcases write_step hcall hstep with hsame | ⟨turn, state', -, -, hnew⟩
    · exact ⟨state, hsame⟩
    · exact ⟨state', hnew⟩
  obtain ⟨first', ha'⟩ := hcalls ha
  obtain ⟨second', hb'⟩ := hcalls hb
  exact
    ⟨first', second', ha', hb',
      beaten_step hids h hne hid hoffset hs ha hb hfirst hsecond hguard hstep ha' hb',
      beaten_step hids h hne.symm hid.symm hoffset.symm hr hb ha hsecond hfirst hguard hstep hb'
        ha'⟩

theorem Rivals.not_both (h : Rivals w a b r s) :
    ¬ (Succeeded w a ∧ Succeeded w b) := by
  rintro ⟨⟨request, newOffset, ha⟩, ⟨request', newOffset', hb⟩⟩
  obtain ⟨first, second, hfirst, hsecond, hbeaten, -⟩ := h
  rw [ha] at hfirst
  cases hfirst
  rw [hb] at hsecond
  cases hsecond
  have hput := (hbeaten rfl).1
  cases hput

/-! ## Uploads -/

theorem Inv.length_of_idle (h : Inv reader ids w) {id : String} (hid : ids id) (hidle : Idle w id) :
    (bodyOf w.storage id).length = offsetOf reader w.storage id := by
  rcases h.settled id hid with hdone | ⟨c, call, hcall, hmine, howes⟩
  · exact hdone
  · have hfinished := hidle c call hcall hmine
    cases call with
    | create file now state =>
        cases state with
        | described => cases hfinished
        | called => exact absurd howes fun h => h
        | finished => exact absurd howes fun h => h
    | declareUploadLength => exact absurd howes fun h => h
    | write request state =>
        cases state with
        | stored => cases hfinished
        | called => exact absurd howes fun h => h
        | checked => exact absurd howes fun h => h
        | collected => exact absurd howes fun h => h
        | described => exact absurd howes fun h => h
        | finished => exact absurd howes fun h => h

/-- A body as long as the offset that is stored is not a mismatch. -/
theorem resumable_of_length
    {id : String}
    (h : (bodyOf storage id).length = offsetOf reader storage id) :
    Resumable reader storage id := by
  intro upload hupload message hcheck
  unfold getUpload at hupload
  unfold offsetOf at h
  cases hmeta : readMeta reader storage id with
  | error error =>
      rw [hmeta] at hupload
      cases hupload
  | ok uploadMeta =>
      rw [hmeta] at hupload h
      cases hupload
      unfold checkOffset get at hcheck
      unfold bodyOf at h
      cases hentry : storage (bodyKey id) with
      | none =>
          rw [hentry] at hcheck
          cases hcheck
      | some entry =>
          rw [hentry] at hcheck h
          dsimp only at hcheck h
          rw [if_neg (not_not.mpr h)] at hcheck
          cases hcheck

/--
Between calls an upload is resumable and its body is what was accepted, and of
two writes under way at one offset at most one succeeds.
-/
theorem resumable_of_reaches
    (hids : Uncollided ids)
    (hrun : Reaches (step reader) (InPlace reader ids) initialWorld w) :
    (∀ id, ids id → Idle w id →
      Resumable reader w.storage id ∧ bodyOf w.storage id = (w.accepted id).flatten) ∧
    (∀ w' a b r s, Reaches (step reader) (InPlace reader ids) w w' → Concurrent w a b r s →
      r.incoming ≠ [] → s.incoming ≠ [] → ¬ (Succeeded w' a ∧ Succeeded w' b)) := by
  have h := inv_of_reaches hids hrun
  constructor
  · intro id hid hidle
    have hlength := h.length_of_idle hid hidle
    refine ⟨resumable_of_length hlength, ?_⟩
    rw [h.whole id hid, ← hlength, List.take_length]
  · intro w' a b r s hlater hconcurrent hr hs
    have hboth : Inv reader ids w' ∧ Rivals w' a b r s := by
      refine
        hlater.invariant (I := fun t => Inv reader ids t ∧ Rivals t a b r s)
          ⟨h, h.rivals hconcurrent hr hs⟩ ?_
      rintro t event t' ⟨hinv, hrivals⟩ hguard hstep
      exact
        ⟨inv_step hids hinv hguard hstep,
          rivals_step hids hinv hconcurrent.ne hconcurrent.id hconcurrent.offset hr hs hrivals
            hguard hstep⟩
    exact hboth.2.not_both

end Uploads

/-! ## One note -/

section Note

variable {reader : JsonReader}
variable {w w' : World}

def note : Upload where
  id := "note"
  size := some 2
  offset := 0
  metadata := none
  creation_date := none

def noteTime : String := "2026-01-01T00:00:00.000Z"

def isNote (id : String) : Prop := id = "note"

theorem uncollided_isNote : Uncollided isNote := by
  rintro id id' rfl rfl
  decide

/-- The first byte of the note, and another one for its place. -/
def firstByte : WriteRequest where
  id := "note"
  offset := 0
  incoming := [1]

def otherByte : WriteRequest where
  id := "note"
  offset := 0
  incoming := [2]

def createdNote : World where
  storage :=
    put (writeMeta (fun _ => none) "note" (initialMeta note noteTime)) (bodyKey "note") []
      "application/octet-stream"
  calls := Function.update (fun _ => none) 0 (some (.create note noteTime (.finished (.ok note))))
  accepted _ := []

theorem reaches_createdNote :
    Reaches (step reader) (InPlace reader isNote) initialWorld createdNote := by
  have hcalled :
      step reader initialWorld (.call 0 (.create note noteTime)) =
        some
          { initialWorld with
            calls :=
              Function.update initialWorld.calls 0 (some (.create note noteTime .called)) } :=
    rfl
  have hdescribed :
      step reader
          { initialWorld with
            calls := Function.update initialWorld.calls 0 (some (.create note noteTime .called)) }
          (.turn 0 (.put false)) =
        some
          { storage := writeMeta (fun _ => none) "note" (initialMeta note noteTime)
            calls := Function.update (fun _ => none) 0 (some (.create note noteTime .described))
            accepted := fun _ => [] } := by
    simp [step, advance, create, acceptedByCreate, initialWorld, note]
  have hcreated :
      step reader
          { storage := writeMeta (fun _ => none) "note" (initialMeta note noteTime)
            calls := Function.update (fun _ => none) 0 (some (.create note noteTime .described))
            accepted := fun _ => [] }
          (.turn 0 (.put false)) =
        some createdNote := by
    simp [step, advance, create, acceptedByCreate, createdNote, note, fileType]
  have hknown : InPlace reader isNote initialWorld (.call 0 (.create note noteTime)) := rfl
  refine (((Reaches.refl _).tail hknown hcalled).tail ?_ hdescribed).tail ?_ hcreated
  · intro call hcall
    cases hcall
    trivial
  · intro call hcall
    cases hcall
    refine ⟨?_, ?_⟩
    · exact (offsetOf_writeMeta _ _ _ _).trans (if_pos rfl)
    · intro c request state hcall
      dsimp only at hcall
      by_cases hc : c = 0
      · subst hc
        rw [Function.update_self] at hcall
        cases hcall
      · rw [Function.update_of_ne hc] at hcall
        cases hcall

theorem checkOffset_createdNote : checkOffset createdNote.storage "note" 0 = .ok [] := by
  simp [checkOffset, get, put, createdNote]

theorem readMeta_createdNote :
    readMeta reader createdNote.storage "note" = .ok (initialMeta note noteTime) := by
  have hput :
      readMeta reader createdNote.storage "note" =
        readMeta reader (writeMeta (fun _ => none) "note" (initialMeta note noteTime)) "note" :=
    readMeta_put uncollided_isNote rfl rfl _ _ _
  exact hput.trans ((readMeta_writeMeta _ _ _ _).trans (if_pos rfl))

/-! ### The turns of a write -/

def setWrite (w : World) (c : Nat) (request : WriteRequest) (state : WriteState) : World :=
  { w with calls := Function.update w.calls c (some (.write request state)) }

variable {c : Nat}
variable {state : WriteState}
variable {request : WriteRequest}

/-- One turn of a write. -/
theorem step_setWrite
    {state' : WriteState} {turn : Turn} {storage' : Storage}
    (hturn : write reader request w.storage state turn = some (storage', state')) :
    step reader (setWrite w c request state) (.turn c turn) =
      some
        (setWrite
          { w with storage := storage', accepted := acceptedByWrite request w.accepted state' } c
          request state') := by
  have hcall : (setWrite w c request state).calls c = some (.write request state) :=
    Function.update_self _ _ _
  rw [step, hcall, Option.bind_some, advance]
  change (write reader request w.storage state turn).map _ = _
  rw [hturn, Option.map_some]
  unfold setWrite
  dsimp only
  rw [Function.update_idem]

/-- A write reads the body, its stream and the metadata. -/
theorem reaches_described
    {ids : String → Prop} {existing : Bytes} {uploadMeta : UploadMetadata}
    (hcheck : checkOffset w.storage request.id request.offset = .ok existing)
    (hmeta : readMeta reader w.storage request.id = .ok uploadMeta) :
    Reaches (step reader) (InPlace reader ids)
      (setWrite w c request .called) (setWrite w c request (.described existing uploadMeta)) := by
  have hchecked :
      step reader (setWrite w c request .called) (.turn c .get) =
        some (setWrite w c request (.checked existing)) :=
    step_setWrite (by rw [write, hcheck])
  have hcollected :
      step reader (setWrite w c request (.checked existing)) (.turn c (.stream false)) =
        some (setWrite w c request (.collected existing)) :=
    step_setWrite rfl
  have hdescribed :
      step reader (setWrite w c request (.collected existing)) (.turn c .get) =
        some (setWrite w c request (.described existing uploadMeta)) :=
    step_setWrite (by rw [write, hmeta])
  exact
    ((Reaches.tail (e := .turn c .get) (Reaches.refl _) trivial hchecked).tail
      (e := .turn c (.stream false)) trivial hcollected).tail (e := .turn c .get) trivial hdescribed

theorem step_put_body (hid : request.id = "note") :
    step reader (setWrite w c request (.described [] (initialMeta note noteTime)))
        (.turn c (.put false)) =
      some
        (setWrite
          { w with
            storage :=
              put w.storage (bodyKey "note") request.incoming "application/octet-stream" }
          c request (.stored [] (initialMeta note noteTime))) :=
  hid ▸ step_setWrite rfl

theorem step_put_meta (hid : request.id = "note") :
    step reader
        (setWrite w c request (.stored [] (initialMeta note noteTime))) (.turn c (.put false)) =
      some
        (setWrite
          { w with
            storage :=
              writeMeta w.storage "note"
                { initialMeta note noteTime with offset := request.incoming.length }
            accepted :=
              Function.update w.accepted "note" (w.accepted "note" ++ [request.incoming]) }
          c request (.finished (.ok request.incoming.length))) :=
  hid ▸ step_setWrite rfl

theorem setWrite_comm {a b : Nat} {r s : WriteRequest} {state' : WriteState} (hne : a ≠ b) :
    setWrite (setWrite w a r state) b s state' = setWrite (setWrite w b s state') a r state := by
  unfold setWrite
  rw [Function.update_comm hne.symm]

theorem step_call_write (hfree : w.calls c = none) :
    step reader w (.call c (.write request)) = some (setWrite w c request .called) := by
  rw [step, hfree]
  rfl

/-- The put of a write in place. -/
theorem reaches_put
    {ids : String → Prop}
    (hrun : Reaches (step reader) (InPlace reader ids) w (setWrite w' c request state))
    (hguard : PutInPlace reader (setWrite w' c request state) false (.write request state))
    {next : World}
    (hstep : step reader (setWrite w' c request state) (.turn c (.put false)) = some next) :
    Reaches (step reader) (InPlace reader ids) w next := by
  refine Reaches.tail (e := .turn c (.put false)) hrun ?_ hstep
  intro call hcall
  rw [show (setWrite w' c request state).calls c = some (.write request state) from
    Function.update_self _ _ _] at hcall
  cases hcall
  exact hguard

/-! ### Two writes -/

theorem bodyOf_createdNote : bodyOf createdNote.storage "note" = [] :=
  (checkOffset_ok checkOffset_createdNote).1

def bothCalled : World :=
  setWrite (setWrite createdNote 2 otherByte .called) 1 firstByte .called

theorem reaches_bothCalled :
    Reaches (step reader) (InPlace reader isNote) initialWorld bothCalled := by
  have hother :
      step reader createdNote (.call 2 (.write otherByte)) =
        some (setWrite createdNote 2 otherByte .called) :=
    step_call_write rfl
  have hfirst :
      step reader (setWrite createdNote 2 otherByte .called) (.call 1 (.write firstByte)) =
        some bothCalled :=
    step_call_write rfl
  have hcalled :
      Reaches (step reader) (InPlace reader isNote) initialWorld
        (setWrite createdNote 2 otherByte .called) :=
    Reaches.tail (e := .call 2 (.write otherByte)) reaches_createdNote rfl hother
  exact Reaches.tail (e := .call 1 (.write firstByte)) hcalled rfl hfirst

theorem concurrent_bothCalled : Concurrent bothCalled 1 2 firstByte otherByte where
  ne := by decide
  first := ⟨.called, rfl, rfl⟩
  second := ⟨.called, rfl, rfl⟩
  id := rfl
  offset := rfl

/-- The storage after the put of a body, and after the puts of a write. -/
def bodyPut (request : WriteRequest) : Storage :=
  put createdNote.storage (bodyKey "note") request.incoming "application/octet-stream"

def bothPut (request : WriteRequest) : Storage :=
  writeMeta (bodyPut request) "note"
    { initialMeta note noteTime with offset := request.incoming.length }

theorem offsetOf_bodyPut (request : WriteRequest) :
    offsetOf reader (bodyPut request) "note" = 0 := by
  have hput :
      readMeta reader (bodyPut request) "note" = readMeta reader createdNote.storage "note" :=
    readMeta_put uncollided_isNote rfl rfl _ _ _
  unfold offsetOf
  rw [hput, readMeta_createdNote]
  rfl

theorem bodyOf_bodyPut (request : WriteRequest) :
    bodyOf (bodyPut request) "note" = request.incoming :=
  (bodyOf_put _ _ _ _ _).trans (if_pos rfl)

theorem bodyOf_bothPut (request : WriteRequest) :
    bodyOf (bothPut request) "note" = request.incoming :=
  (bodyOf_writeMeta uncollided_isNote rfl rfl _ _).trans (bodyOf_bodyPut request)

theorem get_bodyPut (request : WriteRequest) :
    get (bodyPut request) (bodyKey "note") = .ok request.incoming := by
  unfold get bodyPut put
  rw [Function.update_self]

theorem checkOffset_bodyPut :
    checkOffset (bodyPut firstByte) "note" 0 = .error (offsetMismatch 1 0) := by
  rw [checkOffset, get_bodyPut]
  rfl

theorem get_bothPut (request : WriteRequest) :
    get (bothPut request) (bodyKey "note") = .ok request.incoming := by
  unfold get bothPut writeMeta bodyPut put
  rw [Function.update_of_ne (by decide), Function.update_self]

theorem checkOffset_bothPut :
    checkOffset (bothPut firstByte) "note" 0 = .error (offsetMismatch 1 0) := by
  rw [checkOffset, get_bothPut]
  rfl

theorem write_called_error
    {storage : Storage} {error : DataStoreError}
    (hcheck : checkOffset storage request.id request.offset = .error error) :
    write reader request storage .called .get = some (storage, .finished (.error error)) := by
  rw [write, hcheck]

/-- The note with the first write accepted. -/
def firstAccepted (w : World) : World :=
  setWrite
    { w with
      storage := bothPut firstByte
      accepted := Function.update w.accepted "note" [[1]] }
    1 firstByte (.finished (.ok 1))

/-- The second write's body is read after the first one's puts. -/
def noteWritten : World :=
  setWrite (firstAccepted createdNote) 2 otherByte (.finished (.error (offsetMismatch 1 0)))

theorem reaches_noteWritten :
    Reaches (step reader) (InPlace reader isNote) bothCalled noteWritten := by
  have hdescribed :
      Reaches (step reader) (InPlace reader isNote) bothCalled
        (setWrite (setWrite createdNote 2 otherByte .called) 1 firstByte
          (.described [] (initialMeta note noteTime))) :=
    reaches_described checkOffset_createdNote readMeta_createdNote
  have hstored := reaches_put hdescribed (fun _ => bodyOf_createdNote) (step_put_body rfl)
  have hfinished :
      Reaches (step reader) (InPlace reader isNote) bothCalled
        (firstAccepted (setWrite createdNote 2 otherByte .called)) :=
    reaches_put hstored (offsetOf_bodyPut firstByte) (step_put_meta rfl)
  have hcomm :
      firstAccepted (setWrite createdNote 2 otherByte .called) =
        setWrite (firstAccepted createdNote) 2 otherByte .called := by
    unfold firstAccepted setWrite
    rw [Function.update_comm (show (1 : Nat) ≠ 2 by decide)]
  have hmismatch :
      step reader (setWrite (firstAccepted createdNote) 2 otherByte .called) (.turn 2 .get) =
        some noteWritten :=
    step_setWrite (write_called_error checkOffset_bothPut)
  rw [hcomm] at hfinished
  exact Reaches.tail (e := .turn 2 .get) hfinished trivial hmismatch

theorem idle_noteWritten : Idle noteWritten "note" := by
  intro c call hcall _
  by_cases h2 : c = 2
  · subst h2
    cases hcall
    rfl
  by_cases h1 : c = 1
  · subst h1
    cases hcall
    rfl
  by_cases h0 : c = 0
  · subst h0
    cases hcall
    rfl
  simp [noteWritten, firstAccepted, setWrite, createdNote, h0, h1, h2] at hcall

/-- The note is resumable, and only the first of the two writes succeeds. -/
theorem resumable_note :
    ∃ (reader : JsonReader) (w : World),
      Reaches (step reader) (InPlace reader isNote) initialWorld w ∧ Idle w "note" ∧
        Resumable reader w.storage "note" ∧ bodyOf w.storage "note" = [1] ∧
          Succeeded w 1 ∧ ¬ Succeeded w 2 := by
  obtain ⟨reader⟩ := nonempty_jsonReader
  have hfirst : Reaches (step reader) (InPlace reader isNote) initialWorld bothCalled :=
    reaches_bothCalled
  have hrun := hfirst.trans reaches_noteWritten
  have hsucceeded : Succeeded noteWritten 1 := ⟨firstByte, 1, rfl⟩
  obtain ⟨hresumable, -⟩ :=
    (resumable_of_reaches uncollided_isNote hrun).1 "note" rfl idle_noteWritten
  have hexclusive :=
    (resumable_of_reaches uncollided_isNote hfirst).2 noteWritten 1 2 firstByte otherByte
      reaches_noteWritten concurrent_bothCalled (by decide) (by decide)
  exact
    ⟨reader, noteWritten, hrun, idle_noteWritten, hresumable, bodyOf_bothPut firstByte, hsucceeded,
      fun hother => hexclusive ⟨hsucceeded, hother⟩⟩

/-! ### Runs that lose a byte -/

theorem anyEvent_of_inPlace
    {ids : String → Prop}
    (hrun : Reaches (step reader) (InPlace reader ids) w w') :
    Reaches (step reader) Lib.anyEvent w w' :=
  Relation.ReflTransGen.mono (fun _ _ ⟨event, _, hstep⟩ => ⟨event, trivial, hstep⟩) _ _ hrun

/-- The put of the first write's metadata has failed. -/
def noteBehind : World :=
  setWrite { createdNote with storage := bodyPut firstByte } 1 firstByte
    (.finished (.error .putFailed))

theorem reaches_noteBehind : Reaches (step reader) Lib.anyEvent initialWorld noteBehind := by
  have hcall :
      step reader createdNote (.call 1 (.write firstByte)) =
        some (setWrite createdNote 1 firstByte .called) :=
    step_call_write rfl
  have hcalled :
      Reaches (step reader) (InPlace reader isNote) initialWorld
        (setWrite createdNote 1 firstByte .called) :=
    Reaches.tail (e := .call 1 (.write firstByte)) reaches_createdNote rfl hcall
  have hdescribed :=
    hcalled.trans (reaches_described checkOffset_createdNote readMeta_createdNote)
  have hstored := reaches_put hdescribed (fun _ => bodyOf_createdNote) (step_put_body rfl)
  have hfailed :
      step reader
          (setWrite { createdNote with storage := bodyPut firstByte } 1 firstByte
            (.stored [] (initialMeta note noteTime)))
          (.turn 1 (.put true)) =
        some noteBehind :=
    step_setWrite rfl
  exact Reaches.tail (e := .turn 1 (.put true)) (anyEvent_of_inPlace hstored) trivial hfailed

theorem idle_noteBehind : Idle noteBehind "note" := by
  intro c call hcall _
  by_cases h1 : c = 1
  · subst h1
    cases hcall
    rfl
  by_cases h0 : c = 0
  · subst h0
    cases hcall
    rfl
  simp [noteBehind, setWrite, createdNote, h0, h1] at hcall

theorem not_resumable_noteBehind : ¬ Resumable reader noteBehind.storage "note" := by
  intro h
  have hmeta : readMeta reader noteBehind.storage "note" = .ok (initialMeta note noteTime) :=
    (readMeta_put uncollided_isNote rfl rfl _ _ _).trans readMeta_createdNote
  have hupload :
      getUpload reader noteBehind.storage "note" =
        .ok { note with creation_date := some noteTime } := by
    rw [getUpload, hmeta]
    rfl
  exact h _ hupload _ checkOffset_bodyPut

/-- Both writes have read the empty body. -/
def bothRead : World :=
  setWrite (setWrite createdNote 1 firstByte (.described [] (initialMeta note noteTime))) 2
    otherByte (.described [] (initialMeta note noteTime))

theorem reaches_bothRead :
    Reaches (step reader) (InPlace reader isNote) bothCalled bothRead := by
  have hfirst :
      Reaches (step reader) (InPlace reader isNote) bothCalled
        (setWrite (setWrite createdNote 2 otherByte .called) 1 firstByte
          (.described [] (initialMeta note noteTime))) :=
    reaches_described checkOffset_createdNote readMeta_createdNote
  rw [setWrite_comm (show (2 : Nat) ≠ 1 by decide)] at hfirst
  exact hfirst.trans (reaches_described checkOffset_createdNote readMeta_createdNote)

/-- The other write is accepted. -/
def otherAccepted (w : World) : World :=
  setWrite
    { w with
      storage := bothPut otherByte
      accepted := Function.update w.accepted "note" [[2]] }
    2 otherByte (.finished (.ok 1))

/-- Both writes are accepted, and the body is that of the one which put it last. -/
def noteLost : World :=
  setWrite
    { otherAccepted createdNote with
      storage :=
        writeMeta (put (bothPut otherByte) (bodyKey "note") [1] "application/octet-stream") "note"
          { initialMeta note noteTime with offset := 1 }
      accepted := Function.update (otherAccepted createdNote).accepted "note" [[2], [1]] }
    1 firstByte (.finished (.ok 1))

theorem reaches_noteLost : Reaches (step reader) Lib.anyEvent bothCalled noteLost := by
  have hother :
      Reaches (step reader) (InPlace reader isNote) bothCalled
        (otherAccepted
          (setWrite createdNote 1 firstByte (.described [] (initialMeta note noteTime)))) := by
    have hread : Reaches (step reader) (InPlace reader isNote) bothCalled bothRead :=
      reaches_bothRead
    have hstored := reaches_put hread (fun _ => bodyOf_createdNote) (step_put_body rfl)
    exact reaches_put hstored (offsetOf_bodyPut otherByte) (step_put_meta rfl)
  have hcomm :
      otherAccepted (setWrite createdNote 1 firstByte (.described [] (initialMeta note noteTime))) =
        setWrite (otherAccepted createdNote) 1 firstByte
          (.described [] (initialMeta note noteTime)) := by
    unfold otherAccepted setWrite
    rw [Function.update_comm (show (2 : Nat) ≠ 1 by decide)]
  rw [hcomm] at hother
  have hstored :
      Reaches (step reader) Lib.anyEvent bothCalled
        (setWrite
          { otherAccepted createdNote with
            storage :=
              put (bothPut otherByte) (bodyKey "note") [1] "application/octet-stream" }
          1 firstByte (.stored [] (initialMeta note noteTime))) :=
    Reaches.tail (e := .turn 1 (.put false)) (anyEvent_of_inPlace hother) trivial
      (step_put_body rfl)
  exact Reaches.tail (e := .turn 1 (.put false)) hstored trivial (step_put_meta rfl)

/--
A put of metadata that fails leaves an upload that rejects its own offset, and
two writes at one offset are both accepted.
-/
theorem not_resumable_note :
    ∃ reader : JsonReader,
      (∃ w, Reaches (step reader) Lib.anyEvent initialWorld w ∧ Idle w "note" ∧
        ¬ Resumable reader w.storage "note" ∧
          bodyOf w.storage "note" ≠ (w.accepted "note").flatten) ∧
      (∃ w w', Reaches (step reader) Lib.anyEvent initialWorld w ∧
        Reaches (step reader) Lib.anyEvent w w' ∧ Concurrent w 1 2 firstByte otherByte ∧
          Succeeded w' 1 ∧ Succeeded w' 2 ∧
            bodyOf w'.storage "note" ≠ (w'.accepted "note").flatten) := by
  obtain ⟨reader⟩ := nonempty_jsonReader
  have hlost : bodyOf noteLost.storage "note" = [1] :=
    (bodyOf_writeMeta uncollided_isNote rfl rfl _ _).trans
      ((bodyOf_put _ _ _ _ _).trans (if_pos rfl))
  refine
    ⟨reader, ⟨noteBehind, reaches_noteBehind, idle_noteBehind, not_resumable_noteBehind, ?_⟩,
      ⟨bothCalled, noteLost, anyEvent_of_inPlace reaches_bothCalled, reaches_noteLost,
        concurrent_bothCalled, ⟨firstByte, 1, rfl⟩, ⟨otherByte, 1, rfl⟩, ?_⟩⟩
  · rw [show bodyOf noteBehind.storage "note" = [1] from bodyOf_bodyPut firstByte]
    exact List.cons_ne_nil _ _
  · have haccepted : noteLost.accepted "note" = [[2], [1]] := by
      rw [show noteLost.accepted = Function.update (otherAccepted createdNote).accepted "note"
        [[2], [1]] from rfl, Function.update_self]
    rw [hlost, haccepted]
    decide

end Note

end DataStore
end Files
end NestBase
