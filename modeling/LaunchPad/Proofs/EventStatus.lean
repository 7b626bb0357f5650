import LaunchPad.Catalog
import LaunchPad.Lib.Machine
import LaunchPad.Lib.Serial

/-!
# The status of an event

`UpdateEventStatusUseCase` reads the event, moves it, and writes its status whatever is stored by
then. An event goes from DRAFT over SCHEDULED and LIVE to CANCELLED, and never back, so calls that
are not interrupted only go on. An UPDATE that finds a later status than the one it writes takes the
event back, and then no order of the calls explains their answers; if none does, the UPDATEs and the
reads of the calls that wrote nothing, in the order they were executed, are one.
-/

namespace LaunchPad

open Interleave PostgresEventRepository

namespace EventStatus

/-- What an event with this status is read back as. -/
def readBack : EventStatus → EventStatus
  | .ended => .draft
  | status => status

/-- How far an event that is read back with this status has got. -/
def rank : EventStatus → ℕ
  | .draft => 0
  | .ended => 0
  | .scheduled => 1
  | .live => 2
  | .cancelled => 3

/-- The statuses a call can move an event to. -/
def IsTarget (status : EventStatus) : Prop :=
  status = .scheduled ∨ status = .live ∨ status = .cancelled

/-- To write the status would take an event that has the other back. -/
def TakesBack (status stored : EventStatus) : Prop :=
  stored = .cancelled ∧ status ≠ .cancelled ∨ stored = .live ∧ status = .scheduled

theorem takesBack_iff {status stored : EventStatus} (h : status.IsTarget) :
    status.TakesBack stored ↔ status.rank < stored.rank := by
  rcases h with rfl | rfl | rfl <;> cases stored <;> simp [TakesBack, rank]

theorem name_inj {s s' : EventStatus} (h : s.name = s'.name) : s = s' := by
  cases s <;> cases s' <;> first | rfl | exact absurd h (by decide)

theorem rank_readBack (s : EventStatus) : s.readBack.rank = s.rank := by
  cases s <;> rfl

theorem IsTarget.readBack {s : EventStatus} (h : s.IsTarget) : s.readBack = s := by
  rcases h with rfl | rfl | rfl <;> rfl

theorem eq_of_rank {s s' : EventStatus} (h : s'.IsTarget) (hs : s.rank = s'.rank) : s = s' := by
  rcases h with rfl | rfl | rfl <;> cases s <;> simp_all [rank]

end EventStatus

/-! ## Reading and moving -/

theorem createEvent_ok {id : String} {row : EventRow} {event : Event}
    (h : createEvent id row = .ok event) : event.status = .draft ∧ event.id = id := by
  unfold createEvent TimeWindow.create at h
  split at h
  · simp only [bind, Except.bind, Event.create] at h
    split_ifs at h
    cases h
    exact ⟨rfl, rfl⟩
  · cases h

theorem addTicketTypes_ok {toUpperCase : String → String} :
    ∀ {ttRows : List TicketTypeRow} {event event' : Event},
      addTicketTypes toUpperCase ttRows event = .ok event' →
        event'.status = event.status ∧ event'.id = event.id
  | [], event, event', h => by
    obtain rfl := Except.ok.inj h
    exact ⟨rfl, rfl⟩
  | ttRow :: ttRows, event, event', h => by
    simp only [addTicketTypes, bind, Except.bind] at h
    split at h
    · cases h
    split at h
    · cases h
    rename_i event₁ hadd
    obtain ⟨hstatus, hid⟩ := addTicketTypes_ok h
    unfold Event.addTicketType at hadd
    split at hadd
    · cases hadd
    simp only [bind, Except.bind] at hadd
    split at hadd
    · cases hadd
    obtain rfl := Except.ok.inj hadd
    exact ⟨hstatus, hid⟩

/-- A new aggregate takes any status it is read back with, if it need not have ticket types or has
some. -/
theorem applyStatus_eq {status : EventStatus} {event : Event} (h : event.status = .draft) :
    applyStatus status event
      = if (status = .scheduled ∨ status = .live) ∧ event.ticketTypes.isEmpty then
          .error emptyTicketTypesError
        else .ok { event with status := status.readBack } := by
  rcases event with ⟨id, organizerId, title, saleWindow, status', ticketTypes⟩
  obtain rfl : status' = .draft := h
  rcases ticketTypes with _ | ⟨tt, tts⟩ <;> cases status <;>
    simp [applyStatus, Event.schedule, Event.publish, Event.cancel, EventStatus.readBack, bind,
      Except.bind, pure, Except.pure]

/-- The status can be given to the event. -/
def Event.Takes (event : Event) (status : EventStatus) : Prop :=
  status = .scheduled ∨ status = .live → event.ticketTypes.isEmpty = false

namespace UpdateEventStatusUseCase

/-- A call moves an event forward, to the status it is asked for. -/
theorem move_ok {event event' : Event} {target : String} (h : move event target = .ok event') :
    ∃ status : EventStatus, target = status.name ∧ status.IsTarget
      ∧ event' = { event with status := status } ∧ event.status.rank < status.rank
      ∧ event.Takes status := by
  unfold move at h
  split_ifs at h with hscheduled hlive hcancelled
  · unfold Event.schedule at h
    split_ifs at h with hstatus hempty
    obtain rfl := Except.ok.inj h
    refine ⟨.scheduled, hscheduled, .inl rfl, rfl, ?_, fun _ => by simpa using hempty⟩
    rw [not_not.1 hstatus]
    decide
  · unfold Event.publish at h
    split_ifs at h with hstatus hempty
    obtain rfl := Except.ok.inj h
    refine ⟨.live, hlive, .inr (.inl rfl), rfl, ?_, fun _ => by simpa using hempty⟩
    revert hstatus
    cases event.status <;> simp [EventStatus.rank]
  · unfold Event.cancel at h
    split_ifs at h with hstatus
    obtain rfl := Except.ok.inj h
    refine ⟨.cancelled, hcancelled, .inr (.inr rfl), rfl, ?_, by simp [Event.Takes]⟩
    revert hstatus
    cases event.status <;> simp [EventStatus.rank]

theorem move_eq {event : Event} {status : EventStatus} (hs : status.IsTarget)
    (hended : event.status ≠ .ended) (hrank : event.status.rank < status.rank)
    (htakes : event.Takes status) :
    move event status.name = .ok { event with status := status } := by
  rcases hs with rfl | rfl | rfl
  · have hempty := htakes (.inl rfl)
    have hdraft : event.status = .draft := by
      revert hended hrank
      cases event.status <;> simp [EventStatus.rank]
    simp [move, Event.schedule, hdraft, hempty]
  · have hempty := htakes (.inr rfl)
    have hopen : event.status = .draft ∨ event.status = .scheduled := by
      revert hended hrank
      cases event.status <;> simp [EventStatus.rank]
    have hname : EventStatus.live.name ≠ EventStatus.scheduled.name := by decide
    rcases hopen with hs | hs <;> simp [move, hname, Event.publish, hs, hempty]
  · have hopen : ¬ (event.status = .cancelled ∨ event.status = .ended) := by
      rintro (hs | hs)
      · rw [hs] at hrank
        exact absurd hrank (by decide)
      · exact hended hs
    have hname : EventStatus.cancelled.name ≠ EventStatus.scheduled.name
        ∧ EventStatus.cancelled.name ≠ EventStatus.live.name := by decide
    simp [move, hname.1, hname.2, Event.cancel, hopen]

end UpdateEventStatusUseCase

/-! ## The steps of a call -/

/-- Where a call is: it has yet to read the event, has its row, or has moved it and is to write the
status. -/
inductive UpdatePhase
  | start
  | selected (row : EventRow) (event : Event)
  | writing (event : Event)
  | ended (r : Except CatalogError (Option EventResponseDTO))

namespace UpdatePhase

/-- Once the row is there. -/
def ofRow : Option (String × EventRow) → UpdatePhase
  | none => .ended (.ok none)
  | some (id, row) => match createEvent id row with
    | .error e => .ended (.error e)
    | .ok event => .selected row event

/-- Once `findById` has answered. -/
def found (target : String) : Except CatalogError (Option Event) → UpdatePhase
  | .error e => .ended (.error e)
  | .ok none => .ended (.ok none)
  | .ok (some event) =>
    if event.status.name = target then .ended (.ok (some event.toDTO))
    else match UpdateEventStatusUseCase.move event target with
      | .error e => .ended (.error e)
      | .ok event => .writing event

end UpdatePhase

section Calls

variable {τ ι : Type} (uuid : UuidReading) (toUpperCase : String → String) {id : String}
  (ids targets : τ → String)

/-- The calls, each with the text of its event and the status it is asked for. -/
def updateCalls : Machine τ UpdatePhase (CatalogWorld τ ι) where
  start _ := .start
  move t
    | .start => Machine.segment (selectEvent uuid t (ids t)) .ofRow fun e => .ended (.error e)
    | .selected row event => Machine.segment (selectTicketTypes uuid (ids t))
        (fun ttRows => .found (targets t)
          ((addTicketTypes toUpperCase ttRows event >>= applyStatus row.status).map some))
        fun e => .ended (.error e)
    | .writing event => Machine.segment (updateStatus uuid t event)
        (fun _ => .ended (.ok (some event.toDTO))) fun e => .ended (.error e)
    | .ended _ => fun _ => none

variable {uuid toUpperCase ids targets}

section Statements

variable {text : String} {t : τ} {w : CatalogWorld τ ι}

theorem selectEvent_of_read (h : uuid.read text = some id) :
    selectEvent uuid t text w
      = some (.ok ((w.events id).map (id, ·)), { w with log := w.log ++ [.selectEvent t id] }) := by
  rw [selectEvent, withUuid_of_read h]
  rfl

theorem selectEvent_of_none (h : uuid.read text = none) :
    selectEvent uuid t text w = some (.error .statementFailed, w) := by
  rw [selectEvent, withUuid_of_none h]
  rfl

theorem selectTicketTypes_of_read (h : uuid.read text = some id) :
    selectTicketTypes uuid text w
      = some (.ok (w.ticketTypes.filter fun row => row.eventId = id), w) := by
  rw [selectTicketTypes, withUuid_of_read h]
  rfl

theorem selectTicketTypes_of_none (h : uuid.read text = none) :
    selectTicketTypes uuid text w = some (.error .statementFailed, w) := by
  rw [selectTicketTypes, withUuid_of_none h]
  rfl

theorem updateStatus_of_read {event : Event} (h : uuid.read event.id = some id) :
    updateStatus uuid t event w = some (.ok (), { w with
      events := Function.update w.events id
        ((w.events id).map fun row => { row with status := event.status })
      log := w.log ++ [.updateStatus t id event.status] }) := by
  rw [updateStatus, withUuid_of_read h]
  rfl

theorem updateStatus_of_none {event : Event} (h : uuid.read event.id = none) :
    updateStatus uuid t event w = some (.error .statementFailed, w) := by
  rw [updateStatus, withUuid_of_none h]
  rfl

end Statements

theorem runs_findById (t : τ) :
    (updateCalls (ι := ι) uuid toUpperCase ids targets).Runs t (fun r p => p = .found (targets t) r)
      (findById uuid toUpperCase t (ids t)) .start := by
  unfold findById
  refine Machine.Runs.await_bind (o := .ofRow) (e := fun e => .ended (.error e)) rfl
    (fun found => ?_) fun _ => rfl
  rcases found with _ | ⟨id, row⟩
  · exact Machine.Runs.pure rfl
  simp only [UpdatePhase.ofRow]
  rcases createEvent id row with e | event
  · exact Machine.Runs.throw rfl
  refine Machine.Runs.await_bind
    (o := fun ttRows => .found (targets t)
      ((addTicketTypes toUpperCase ttRows event >>= applyStatus row.status).map some))
    (e := fun e => .ended (.error e)) rfl (fun ttRows => ?_) fun _ => rfl
  rcases addTicketTypes toUpperCase ttRows event >>= applyStatus row.status with e | event
  · exact Machine.Runs.throw rfl
  · exact Machine.Runs.pure rfl

theorem runs_execute (t : τ) :
    (updateCalls (ι := ι) uuid toUpperCase ids targets).Runs t (fun r p => p = .ended r)
      (UpdateEventStatusUseCase.execute uuid toUpperCase t (ids t) (targets t)) .start := by
  unfold UpdateEventStatusUseCase.execute
  refine Machine.Runs.bind (runs_findById t) ?_ ?_
  · rintro found _ rfl
    rcases found with _ | event
    · exact Machine.Runs.pure rfl
    simp only [UpdatePhase.found]
    split_ifs with hsame
    · exact Machine.Runs.pure rfl
    rcases UpdateEventStatusUseCase.move event (targets t) with e | event
    · exact Machine.Runs.throw rfl
    · exact Machine.Runs.await_bind (o := fun _ => .ended (.ok (some event.toDTO)))
        (e := fun e => .ended (.error e)) rfl (fun _ => Machine.Runs.pure rfl) fun _ => rfl
  · rintro e _ rfl
    rfl

/-- The ticket types of the event, which stay as they are. -/
def CatalogWorld.ticketTypesOf (w : CatalogWorld τ ι) (id : String) : List TicketTypeRow :=
  w.ticketTypes.filter fun row => row.eventId = id

/-- What a step of a call does: it reads the row, it reads the ticket types, or it writes. A
statement that does not take the text ends it. -/
theorem updateCalls_move {t : τ} {p p' : UpdatePhase} {w w' : CatalogWorld τ ι}
    (hm : (updateCalls uuid toUpperCase ids targets).move t p w = some (w', p')) :
    (w' = w ∧ p' = .ended (.error .statementFailed) ∧ (∀ r, p ≠ .ended r)
        ∧ (uuid.read (ids t) = none ∨ ∃ event, p = .writing event))
      ∨ (∃ id, uuid.read (ids t) = some id ∧ p = .start
          ∧ w' = { w with log := w.log ++ [.selectEvent t id] }
          ∧ p' = .ofRow ((w.events id).map (id, ·)))
      ∨ (∃ id row event, uuid.read (ids t) = some id ∧ p = .selected row event ∧ w' = w
          ∧ p' = .found (targets t)
            ((addTicketTypes toUpperCase (w.ticketTypesOf id) event
              >>= applyStatus row.status).map some))
      ∨ ∃ event, p = .writing event ∧ updateStatus uuid t event w = some (.ok (), w')
          ∧ p' = .ended (.ok (some event.toDTO)) := by
  rcases p with _ | ⟨row, event⟩ | event | r <;>
    simp only [updateCalls, Machine.segment_eq_some] at hm
  · rcases hid : uuid.read (ids t) with _ | id
    · rw [selectEvent_of_none hid] at hm
      obtain ⟨found, hs, -⟩ | ⟨e, hs, rfl⟩ := hm <;> cases hs
      exact .inl ⟨rfl, rfl, by simp, .inl rfl⟩
    · rw [selectEvent_of_read hid] at hm
      obtain ⟨found, hs, rfl⟩ | ⟨e, hs, -⟩ := hm <;> cases hs
      exact .inr (.inl ⟨id, rfl, rfl, rfl, rfl⟩)
  · rcases hid : uuid.read (ids t) with _ | id
    · rw [selectTicketTypes_of_none hid] at hm
      obtain ⟨ttRows, hs, -⟩ | ⟨e, hs, rfl⟩ := hm <;> cases hs
      exact .inl ⟨rfl, rfl, by simp, .inl rfl⟩
    · rw [selectTicketTypes_of_read hid] at hm
      obtain ⟨ttRows, hs, rfl⟩ | ⟨e, hs, -⟩ := hm <;> cases hs
      exact .inr (.inr (.inl ⟨id, row, event, rfl, rfl, rfl, rfl⟩))
  · obtain ⟨_, hs, rfl⟩ | ⟨e, hs, rfl⟩ := hm
    · exact .inr (.inr (.inr ⟨event, rfl, hs, rfl⟩))
    · rcases hid : uuid.read event.id with _ | id
      · rw [updateStatus_of_none hid] at hs
        cases hs
        exact .inl ⟨rfl, rfl, by simp, .inr ⟨event, rfl⟩⟩
      · rw [updateStatus_of_read hid] at hs
        cases hs
  · cases hm

/-! ## A call alone -/

/-- The event of a row with its ticket types, before it has the row's status. -/
def draftEvent (toUpperCase : String → String) (ttRows : List TicketTypeRow) (id : String)
    (row : EventRow) : Except CatalogError Event := do
  let event ← createEvent id row
  addTicketTypes toUpperCase ttRows event

/-- The event of a row, as `findById` reads it. -/
def readEvent (toUpperCase : String → String) (ttRows : List TicketTypeRow) (id : String)
    (row : EventRow) : Except CatalogError Event :=
  draftEvent toUpperCase ttRows id row >>= applyStatus row.status

theorem draftEvent_ok {ttRows : List TicketTypeRow} {row : EventRow} {event : Event}
    (h : draftEvent toUpperCase ttRows id row = .ok event) :
    event.status = .draft ∧ event.id = id := by
  simp only [draftEvent, bind, Except.bind] at h
  split at h
  · cases h
  rename_i event₀ hcreate
  obtain ⟨hstatus, hid⟩ := addTicketTypes_ok h
  obtain ⟨hstatus₀, hid₀⟩ := createEvent_ok hcreate
  exact ⟨hstatus.trans hstatus₀, hid.trans hid₀⟩

theorem readEvent_eq_ok {ttRows : List TicketTypeRow} {row : EventRow} {event : Event} :
    readEvent toUpperCase ttRows id row = .ok event ↔ ∃ draft,
      draftEvent toUpperCase ttRows id row = .ok draft ∧ draft.Takes row.status
        ∧ event = { draft with status := row.status.readBack } := by
  unfold readEvent
  rcases hdraft : draftEvent toUpperCase ttRows id row with e | draft
  · simp [bind, Except.bind]
  have happly : applyStatus row.status draft = _ := applyStatus_eq (draftEvent_ok hdraft).1
  simp only [bind, Except.bind, happly, Except.ok.injEq, exists_eq_left', Event.Takes]
  split_ifs with hempty
  · simp [hempty.1, hempty.2]
  · have htakes : row.status = .scheduled ∨ row.status = .live →
        draft.ticketTypes.isEmpty = false := by
      intro hstatus
      simpa [hstatus] using hempty
    constructor
    · intro h
      exact ⟨htakes, (Except.ok.inj h).symm⟩
    · rintro ⟨-, rfl⟩
      rfl

/-- What a call that succeeds, run alone, makes of the row, and whether it writes. -/
inductive UpdatesAlone (toUpperCase : String → String) (ttRows : List TicketTypeRow)
    (id target : String) : Option EventResponseDTO → Bool → Option EventRow → Option EventRow → Prop
  | missing : UpdatesAlone toUpperCase ttRows id target none false none none
  | same {row : EventRow} {event : Event} (hread : readEvent toUpperCase ttRows id row = .ok event)
      (htarget : event.status.name = target) :
      UpdatesAlone toUpperCase ttRows id target (some event.toDTO) false (some row) (some row)
  | moved {row : EventRow} {event event' : Event}
      (hread : readEvent toUpperCase ttRows id row = .ok event)
      (htarget : event.status.name ≠ target)
      (hmove : UpdateEventStatusUseCase.move event target = .ok event') :
      UpdatesAlone toUpperCase ttRows id target (some event'.toDTO) true (some row)
        (some { row with status := event'.status })

theorem findById_run {text : String} (hid : uuid.read text = some id) (t : τ)
    (w : CatalogWorld τ ι) :
    (findById uuid toUpperCase t text).run w = some (match w.events id with
        | none => .ok none
        | some row => (readEvent toUpperCase (w.ticketTypesOf id) id
            row).map some, { w with log := w.log ++ [.selectEvent t id] }) := by
  simp only [findById, Async.run_bind, Async.run_await, Sync.bind_apply, selectEvent_of_read hid]
  rcases w.events id with _ | row
  · rfl
  simp only [readEvent, draftEvent, Async.run_bind, Async.run_await, Sync.bind_apply, Async.run_ret,
    selectTicketTypes_of_read hid, CatalogWorld.ticketTypesOf, Option.map_some]
  rcases createEvent id row with e | event
  · rfl
  simp only [bind, Except.bind]
  rcases addTicketTypes toUpperCase (w.ticketTypes.filter fun row => row.eventId = id) event
    with e | event
  · rfl
  simp only []
  rcases applyStatus row.status event with e | event
  · rfl
  · rfl

theorem readEvent_of_create {ttRows : List TicketTypeRow} {row : EventRow} {event : Event}
    (h : createEvent id row = .ok event) : readEvent toUpperCase ttRows id row
      = addTicketTypes toUpperCase ttRows event >>= applyStatus row.status := by
  simp only [readEvent, draftEvent, h, bind, Except.bind]

theorem UpdatePhase.found_writing {target : String} {r : Except CatalogError Event} {event' : Event}
    (h : UpdatePhase.found target (r.map some) = .writing event') :
    ∃ event, r = .ok event ∧ event.status.name ≠ target
      ∧ UpdateEventStatusUseCase.move event target = .ok event' := by
  rcases r with e | event
  · cases h
  simp only [Except.map, found] at h
  split_ifs at h with htarget
  rcases hmove : UpdateEventStatusUseCase.move event target with e | event'' <;>
    simp only [hmove] at h
  · cases h
  · cases h
    exact ⟨event, rfl, htarget, hmove⟩

theorem UpdatePhase.found_ended {target : String} {r : Except CatalogError Event}
    {a : Option EventResponseDTO} (h : UpdatePhase.found target (r.map some) = .ended (.ok a)) :
    ∃ event, r = .ok event ∧ event.status.name = target ∧ a = some event.toDTO := by
  rcases r with e | event
  · cases h
  simp only [Except.map, found] at h
  split_ifs at h with htarget
  · cases h
    exact ⟨event, rfl, htarget, rfl⟩
  · rcases hmove : UpdateEventStatusUseCase.move event target with e | event'' <;>
      simp only [hmove] at h <;> cases h

theorem UpdatePhase.found_cases (target : String) (r : Except CatalogError (Option Event)) :
    (∃ event, found target r = .writing event) ∨ ∃ a, found target r = .ended a := by
  rcases r with e | _ | event
  · exact .inr ⟨_, rfl⟩
  · exact .inr ⟨_, rfl⟩
  · simp only [found]
    split_ifs
    · exact .inr ⟨_, rfl⟩
    · rcases UpdateEventStatusUseCase.move event target with e | event'
      · exact .inr ⟨_, rfl⟩
      · exact .inl ⟨_, rfl⟩

theorem UpdatePhase.ofRow_cases (id : String) (found : Option EventRow) :
    (found = none ∧ UpdatePhase.ofRow (found.map (id, ·)) = .ended (.ok none))
      ∨ (∃ row e, found = some row
          ∧ UpdatePhase.ofRow (found.map (id, ·)) = .ended (.error e))
      ∨ ∃ row event, found = some row ∧ createEvent id row = .ok event
          ∧ UpdatePhase.ofRow (found.map (id, ·)) = .selected row event := by
  rcases found with _ | row
  · exact .inl ⟨rfl, rfl⟩
  · simp only [ofRow, Option.map_some]
    rcases hcreate : createEvent id row with e | event
    · exact .inr (.inl ⟨row, e, rfl, rfl⟩)
    · exact .inr (.inr ⟨row, event, rfl, hcreate, rfl⟩)

theorem moved_id {ttRows : List TicketTypeRow} {row : EventRow} {event event' : Event}
    {target : String} (hread : readEvent toUpperCase ttRows id row = .ok event)
    (hmove : UpdateEventStatusUseCase.move event target = .ok event') : event'.id = id := by
  obtain ⟨draft, hdraft, -, rfl⟩ := readEvent_eq_ok.1 hread
  obtain ⟨_, -, -, rfl, -⟩ := UpdateEventStatusUseCase.move_ok hmove
  exact (draftEvent_ok hdraft).2

theorem findById_run_none {text : String} (hid : uuid.read text = none) (t : τ)
    (w : CatalogWorld τ ι) :
    (findById uuid toUpperCase t text).run w = some (.error .statementFailed, w) := by
  simp only [findById, Async.run_bind, Async.run_await, Sync.bind_apply, selectEvent_of_none hid]

/-- A call that succeeds, run alone, names an event. -/
theorem read_of_execute_run {text : String} {t : τ} {target : String} {w w' : CatalogWorld τ ι}
    {r : Option EventResponseDTO}
    (h : (UpdateEventStatusUseCase.execute uuid toUpperCase t text target).run w
      = some (.ok r, w')) : ∃ id, uuid.read text = some id := by
  rcases hid : uuid.read text with _ | id
  · simp only [UpdateEventStatusUseCase.execute, Async.run_bind, Sync.bind_apply,
      findById_run_none hid] at h
    cases h
  · exact ⟨id, rfl⟩

/-- A call that succeeds, run alone. -/
theorem execute_run_ok {text : String} (hid : uuid.read text = some id) (t : τ) (target : String)
    {w w' : CatalogWorld τ ι} {r : Option EventResponseDTO} :
    (UpdateEventStatusUseCase.execute uuid toUpperCase t text target).run w = some (.ok r, w')
      → ∃ wrote, UpdatesAlone toUpperCase (w.ticketTypesOf id) id target r
          wrote (w.events id) (w'.events id) ∧ w'.ticketTypes = w.ticketTypes := by
  intro h
  simp only [UpdateEventStatusUseCase.execute, Async.run_bind, Sync.bind_apply,
    findById_run hid] at h
  rcases hrow : w.events id with _ | row <;> simp only [hrow] at h
  · cases h
    exact ⟨false, by rw [hrow]; exact .missing, rfl⟩
  rcases hread : readEvent toUpperCase (w.ticketTypesOf id) id row
    with e | event <;> simp only [hread, Except.map] at h
  · cases h
  split_ifs at h with htarget
  · cases h
    exact ⟨false, by rw [hrow]; exact .same hread htarget, rfl⟩
  simp only [Async.run_bind, Async.run_await, Sync.bind_apply, Async.run_ret] at h
  rcases hmove : UpdateEventStatusUseCase.move event target with e | event' <;>
    simp only [hmove] at h
  · cases h
  have hevent : uuid.read event'.id = some id := by
    rw [moved_id hread hmove]
    exact uuid.read_read _ _ hid
  simp only [updateStatus_of_read hevent, Async.run_pure, Sync.pure_apply] at h
  cases h
  refine ⟨true, ?_, rfl⟩
  simp only [hrow, Function.update_self, Option.map_some]
  exact .moved hread htarget hmove

theorem UpdatesAlone.run {text : String} (hid : uuid.read text = some id) (t : τ) {target : String}
    {w : CatalogWorld τ ι} {r : Option EventResponseDTO} {wrote : Bool} {row' : Option EventRow}
    (h : UpdatesAlone toUpperCase (w.ticketTypesOf id) id target r
      wrote (w.events id) row') :
    ∃ w', (UpdateEventStatusUseCase.execute uuid toUpperCase t text target).run w
        = some (.ok r, w')
      ∧ w'.events id = row' ∧ w'.ticketTypes = w.ticketTypes := by
  generalize hrow : w.events id = found at h
  simp only [UpdateEventStatusUseCase.execute, Async.run_bind, Sync.bind_apply, findById_run hid,
    hrow]
  cases h with
  | missing => exact ⟨_, rfl, hrow, rfl⟩
  | same hread htarget =>
    simp only [hread, Except.map, if_pos htarget]
    exact ⟨_, rfl, hrow, rfl⟩
  | moved hread htarget hmove =>
    rename_i event event'
    have hevent : uuid.read event'.id = some id := by
      rw [moved_id hread hmove]
      exact uuid.read_read _ _ hid
    simp only [hread, Except.map, if_neg htarget, Async.run_bind, Async.run_await, Sync.bind_apply,
      Async.run_ret, hmove, updateStatus_of_read hevent]
    refine ⟨_, rfl, ?_, rfl⟩
    simp only [hrow, Function.update_self, Option.map_some]

/-! ## The calls in some order -/

/-- The calls that have returned gave the answers they give one after the other, each alone, in some
order, and left the event as that order leaves it. -/
def InSomeOrder (uuid : UuidReading) (toUpperCase : String → String) (id : String)
    (ids targets : τ → String) (w₀ : CatalogWorld τ ι)
    (c : Config τ (CatalogWorld τ ι) CatalogError (Option EventResponseDTO)) : Prop :=
  ∃ order w', Serial (fun (x : τ × Option EventResponseDTO) w w' =>
      (UpdateEventStatusUseCase.execute uuid toUpperCase x.1 (ids x.1) (targets x.1)).run w
        = some (.ok x.2, w')) w₀ order w'
    ∧ (order.map Prod.fst).Nodup
    ∧ (∀ t r, (t, r) ∈ order ↔ (c.thread t).result = some (.ok r))
    ∧ w'.events id = c.world.events id

/-- Where some call has returned CANCELLED, the event is stored CANCELLED. -/
def CancelledStays (id : String)
    (c : Config τ (CatalogWorld τ ι) CatalogError (Option EventResponseDTO)) : Prop :=
  ∀ t dto, (c.thread t).result = some (.ok (some dto)) → dto.status = .cancelled →
    (c.world.events id).map EventRow.status = some .cancelled

/-- How far the event has got. -/
def rowRank (row : Option EventRow) : ℕ := (row.map fun row => row.status.rank).getD 0

theorem UpdatesAlone.idle {ttRows : List TicketTypeRow} {target : String}
    {r : Option EventResponseDTO} {wrote : Bool} {row row' : Option EventRow}
    (h : UpdatesAlone toUpperCase ttRows id target r wrote row row') (hwrote : wrote = false) :
    row' = row := by
  cases h with
  | missing => rfl
  | same => rfl
  | moved => cases hwrote

theorem UpdatesAlone.rank_le {ttRows : List TicketTypeRow} {target : String}
    {r : Option EventResponseDTO} {wrote : Bool} {row row' : Option EventRow}
    (h : UpdatesAlone toUpperCase ttRows id target r wrote row row') :
    rowRank row ≤ rowRank row' ∧ (r.map fun dto => dto.status.rank).getD 0 ≤ rowRank row' := by
  cases h with
  | missing => exact ⟨le_rfl, le_rfl⟩
  | same hread =>
    obtain ⟨draft, -, -, rfl⟩ := readEvent_eq_ok.1 hread
    exact ⟨le_rfl, (EventStatus.rank_readBack _).le⟩
  | moved hread _ hmove =>
    obtain ⟨draft, -, -, rfl⟩ := readEvent_eq_ok.1 hread
    obtain ⟨status, -, -, rfl, hrank, -⟩ := UpdateEventStatusUseCase.move_ok hmove
    simp only [EventStatus.rank_readBack] at hrank
    exact ⟨hrank.le, le_rfl⟩

/-- In any order no answer is ahead of what is stored at the end. -/
theorem InSomeOrder.rank_le (hids : ∀ t key, uuid.read (ids t) = some key → key = id)
    {w₀ : CatalogWorld τ ι}
    {c : Config τ (CatalogWorld τ ι) CatalogError (Option EventResponseDTO)}
    (h : InSomeOrder uuid toUpperCase id ids targets w₀ c) {t : τ} {dto : EventResponseDTO}
    (ht : (c.thread t).result = some (.ok (some dto))) :
    dto.status.rank ≤ rowRank (c.world.events id) := by
  obtain ⟨order, w', hserial, -, hmem, hevents⟩ := h
  have hle := (hserial.le_of_mem (fun w => rowRank (w.events id))
    (fun x => (x.2.map fun dto => dto.status.rank).getD 0)
    fun x w w' hrun => by
      obtain ⟨key, hkey⟩ := read_of_execute_run hrun
      obtain rfl := (hids x.1 key hkey).symm
      obtain ⟨_, halone, -⟩ := execute_run_ok hkey x.1 _ hrun
      exact halone.rank_le).2
    (t, some dto) ((hmem t (some dto)).2 ht)
  rwa [hevents] at hle

theorem InSomeOrder.cancelledStays (hids : ∀ t key, uuid.read (ids t) = some key → key = id)
    {w₀ : CatalogWorld τ ι}
    {c : Config τ (CatalogWorld τ ι) CatalogError (Option EventResponseDTO)}
    (h : InSomeOrder uuid toUpperCase id ids targets w₀ c) : CancelledStays id c := by
  intro t dto ht hdto
  have hle := h.rank_le hids ht
  rw [hdto] at hle
  rcases hrow : c.world.events id with _ | row <;> simp only [hrow, rowRank] at hle ⊢
  · exact absurd hle (by decide)
  · simp only [Option.map_some, Option.getD_some] at hle ⊢
    rcases hs : row.status <;> simp_all [EventStatus.rank]

/-! ## What the calls know -/

/-- All of a row but its status. -/
def EventRow.plain (row : EventRow) : EventRow := { row with status := .draft }

variable (toUpperCase id targets) in
/-- The call has moved the event to the status it is asked for, one the event can take. -/
structure HasMoved (w₀ : CatalogWorld τ ι) (t : τ) (event : Event) (row₀ : EventRow)
    (draft : Event) : Prop where
  first : w₀.events id = some row₀
  drafted : draftEvent toUpperCase (w₀.ticketTypesOf id) id row₀ = .ok draft
  event_eq : event = { draft with status := event.status }
  isTarget : event.status.IsTarget
  target : targets t = event.status.name
  takes : draft.Takes event.status

variable (uuid toUpperCase id ids targets) in
/-- What a call goes by, once it has found that its text is one of the event. -/
def UpdatePhase.Knows (w₀ : CatalogWorld τ ι) (t : τ) : UpdatePhase → Prop
  | .selected row event => uuid.read (ids t) = some id ∧ createEvent id row = .ok event
    ∧ (w₀.events id).map EventRow.plain = some row.plain
  | .writing event => uuid.read (ids t) = some id
    ∧ ∃ row₀ draft, HasMoved toUpperCase id targets w₀ t event row₀ draft
  | .ended (.ok _) => uuid.read (ids t) = some id
  | _ => True

variable (toUpperCase id) in
/-- The call goes by what it has read from the first row. -/
def UpdatePhase.FromFirst (w₀ : CatalogWorld τ ι) : UpdatePhase → Prop
  | .selected row _ => w₀.events id = some row
  | .writing event => ∀ row₀ draft, w₀.events id = some row₀ →
      draftEvent toUpperCase (w₀.ticketTypesOf id) id row₀ = .ok draft →
        row₀.status.rank < event.status.rank ∧ draft.Takes row₀.status
  | _ => True

variable (uuid toUpperCase id ids targets) in
/-- The row changes its status only. Either nobody has written, or what is stored is a status some
call has returned. -/
structure UpdateInv (w₀ : CatalogWorld τ ι) (φ : τ → UpdatePhase) (w : CatalogWorld τ ι) :
    Prop where
  tickets : w.ticketTypes = w₀.ticketTypes
  row : (w.events id).map EventRow.plain = (w₀.events id).map EventRow.plain
  knows : ∀ t, (φ t).Knows uuid toUpperCase id ids targets w₀ t
  progress : (w.events id = w₀.events id ∧ ∀ t, (φ t).FromFirst toUpperCase id w₀)
    ∨ ∃ t dto, φ t = .ended (.ok (some dto))
      ∧ (w.events id).map EventRow.status = some dto.status
      ∧ ∀ row₀ draft, w₀.events id = some row₀ →
        draftEvent toUpperCase (w₀.ticketTypesOf id) id row₀ = .ok draft → draft.Takes dto.status

theorem draftEvent_of_plain {ttRows : List TicketTypeRow} {row row' : EventRow}
    (h : row.plain = row'.plain) :
    draftEvent toUpperCase ttRows id row = draftEvent toUpperCase ttRows id row' := by
  change draftEvent toUpperCase ttRows id row.plain = draftEvent toUpperCase ttRows id row'.plain
  rw [h]

section Step

variable [DecidableEq τ] {w₀ w w' : CatalogWorld τ ι} {φ : τ → UpdatePhase} {t : τ}

/-- A step that leaves the tables as they are. -/
theorem UpdateInv.reads (hI : UpdateInv uuid toUpperCase id ids targets w₀ φ w) {p : UpdatePhase}
    (htickets : w'.ticketTypes = w.ticketTypes) (hevents : w'.events = w.events)
    (hended : ∀ r, φ t ≠ .ended r) (hknows : p.Knows uuid toUpperCase id ids targets w₀ t)
    (hfirst : w.events id = w₀.events id → (φ t).FromFirst toUpperCase id w₀ →
      p.FromFirst toUpperCase id w₀) :
    UpdateInv uuid toUpperCase id ids targets w₀ (Function.update φ t p) w' where
  tickets := htickets.trans hI.tickets
  row := by rw [hevents, hI.row]
  knows := (Function.forall_update_iff φ fun t p => p.Knows uuid toUpperCase id ids targets w₀ t).2
    ⟨hknows, fun t' _ => hI.knows t'⟩
  progress := by
    rw [hevents]
    rcases hI.progress with ⟨hrow, hall⟩ | ⟨t', dto, ht', hstored⟩
    · exact .inl ⟨hrow, (Function.forall_update_iff φ fun _ p => p.FromFirst toUpperCase id w₀).2
        ⟨hfirst hrow (hall t), fun t' _ => hall t'⟩⟩
    · have hne : t' ≠ t := by
        rintro rfl
        exact hended _ ht'
      exact .inr ⟨t', dto, by rwa [Function.update_of_ne hne], hstored⟩

theorem UpdateInv.select (hI : UpdateInv uuid toUpperCase id ids targets w₀ φ w)
    (hid : uuid.read (ids t) = some id) (ht : φ t = .start) :
    UpdateInv uuid toUpperCase id ids targets w₀
      (Function.update φ t (.ofRow ((w.events id).map (id, ·))))
      { w with log := w.log ++ [.selectEvent t id] } := by
  rcases UpdatePhase.ofRow_cases id (w.events id) with ⟨-, hp⟩ | ⟨_, _, -, hp⟩ |
    ⟨row, event, hsome, hcreate, hp⟩ <;> rw [hp]
  · exact hI.reads rfl rfl (by simp [ht]) hid fun _ _ => trivial
  · exact hI.reads rfl rfl (by simp [ht]) trivial fun _ _ => trivial
  · refine hI.reads rfl rfl (by simp [ht]) ⟨hid, hcreate, ?_⟩ fun hrow _ => hrow.symm.trans hsome
    rw [← hI.row, hsome]
    rfl

omit [DecidableEq τ] in
/-- A call that goes on to write has moved the event it read. -/
theorem UpdatePhase.Knows.hasMoved {row : EventRow} {event event' : Event}
    (hknows : (UpdatePhase.selected row event).Knows uuid toUpperCase id ids targets w₀ t)
    (hp : UpdatePhase.found (targets t)
      ((addTicketTypes toUpperCase (w₀.ticketTypesOf id) event >>= applyStatus row.status).map
        some) = .writing event') :
    ∃ row₀ draft, HasMoved toUpperCase id targets w₀ t event' row₀ draft
      ∧ row.status.rank < event'.status.rank ∧ draft.Takes row.status := by
  obtain ⟨-, hcreate, hplain⟩ := hknows
  obtain ⟨row₀, hrow₀, hrow⟩ : ∃ row₀, w₀.events id = some row₀ ∧ row₀.plain = row.plain := by
    simpa using hplain
  rw [← readEvent_of_create hcreate] at hp
  obtain ⟨event₁, hread, -, hmove⟩ := UpdatePhase.found_writing hp
  obtain ⟨draft, hdraft, htakes, rfl⟩ := readEvent_eq_ok.1 hread
  obtain ⟨status, htarget, his, rfl, hrank, htakes'⟩ := UpdateEventStatusUseCase.move_ok hmove
  exact ⟨row₀, draft, ⟨hrow₀, (draftEvent_of_plain hrow).trans hdraft, rfl, his, htarget, htakes'⟩,
    by simpa only [EventStatus.rank_readBack] using hrank, htakes⟩

theorem UpdateInv.decide (hI : UpdateInv uuid toUpperCase id ids targets w₀ φ w) {row : EventRow}
    {event : Event} (ht : φ t = .selected row event) :
    UpdateInv uuid toUpperCase id ids targets w₀ (Function.update φ t (.found (targets t)
      ((addTicketTypes toUpperCase (w.ticketTypesOf id) event >>= applyStatus row.status).map
        some))) w := by
  have hknows := hI.knows t
  rw [ht] at hknows
  have htypes : w.ticketTypesOf id = w₀.ticketTypesOf id := by
    rw [CatalogWorld.ticketTypesOf, hI.tickets, CatalogWorld.ticketTypesOf]
  rw [htypes]
  rcases UpdatePhase.found_cases (targets t) ((addTicketTypes toUpperCase (w₀.ticketTypesOf id)
    event >>= applyStatus row.status).map some) with ⟨event', hp⟩ | ⟨a, hp⟩
  · obtain ⟨row₀, draft, hmoved, hrank, htakes⟩ := hknows.hasMoved hp
    rw [hp]
    refine hI.reads rfl rfl (by simp [ht]) ⟨hknows.1, row₀, draft, hmoved⟩ fun _ hfirst => ?_
    -- the row read is the first one
    rw [ht] at hfirst
    obtain rfl := Option.some.inj (hmoved.first.symm.trans hfirst)
    intro row₁ draft₁ hrow₁ hdraft₁
    obtain rfl := Option.some.inj (hmoved.first.symm.trans hrow₁)
    obtain rfl := Except.ok.inj (hmoved.drafted.symm.trans hdraft₁)
    exact ⟨hrank, htakes⟩
  · rw [hp]
    refine hI.reads rfl rfl (by simp [ht]) ?_ fun _ _ => trivial
    rcases a with e | r
    · trivial
    · exact hknows.1

omit [DecidableEq τ] in
/-- A call that is about to write has read a row, and no row goes away. -/
theorem UpdateInv.exists_row (hI : UpdateInv uuid toUpperCase id ids targets w₀ φ w) {event : Event}
    (ht : φ t = .writing event) : ∃ row, w.events id = some row := by
  have hknows := hI.knows t
  rw [ht] at hknows
  obtain ⟨hread, row₀, draft, hmoved⟩ := hknows
  have h := congrArg Option.isSome hI.row
  rw [← Option.isSome_iff_exists]
  simpa [hmoved.first] using h

theorem UpdateInv.write (hI : UpdateInv uuid toUpperCase id ids targets w₀ φ w) {event : Event}
    (ht : φ t = .writing event) (hw : updateStatus uuid t event w = some (.ok (), w')) :
    UpdateInv uuid toUpperCase id ids targets w₀
        (Function.update φ t (.ended (.ok (some event.toDTO)))) w'
      ∧ w'.events id = (w.events id).map (fun row => { row with status := event.status })
      ∧ w'.log = w.log ++ [.updateStatus t id event.status] := by
  have hknows := hI.knows t
  rw [ht] at hknows
  obtain ⟨hread, row₀, draft, hmoved⟩ := hknows
  have hid : event.id = id := by
    rw [hmoved.event_eq]
    exact (draftEvent_ok hmoved.drafted).2
  have hevent : uuid.read event.id = some id := by
    rw [hid]
    exact uuid.read_read _ _ hread
  rw [updateStatus_of_read hevent] at hw
  cases hw
  have hevents : Function.update w.events id
      ((w.events id).map fun row => { row with status := event.status }) id
        = (w.events id).map fun row => { row with status := event.status } :=
    Function.update_self _ _ _
  refine ⟨⟨hI.tickets, ?_, ?_, .inr ⟨t, event.toDTO, Function.update_self _ _ _, ?_, ?_⟩⟩, hevents,
    rfl⟩
  · simp only [hevents]
    rw [← hI.row, Option.map_map]
    rfl
  · exact (Function.forall_update_iff φ
      fun t p => p.Knows uuid toUpperCase id ids targets w₀ t).2 ⟨hread, fun t' _ => hI.knows t'⟩
  · obtain ⟨row, hrow⟩ := hI.exists_row ht
    simp only [hevents]
    rw [hrow]
    rfl
  · intro row₁ draft₁ hrow₁ hdraft₁
    obtain rfl := Option.some.inj (hmoved.first.symm.trans hrow₁)
    obtain rfl := Except.ok.inj (hmoved.drafted.symm.trans hdraft₁)
    exact hmoved.takes

theorem UpdateInv.move (hids : ∀ t key, uuid.read (ids t) = some key → key = id)
    (hI : UpdateInv uuid toUpperCase id ids targets w₀ φ w) {p : UpdatePhase}
    (hm : (updateCalls uuid toUpperCase ids targets).move t (φ t) w = some (w', p)) :
    UpdateInv uuid toUpperCase id ids targets w₀ (Function.update φ t p) w' := by
  obtain ⟨rfl, rfl, hended, -⟩ | ⟨key, hkey, ht, rfl, rfl⟩ | ⟨key, row, event, hkey, ht, rfl, rfl⟩ |
    ⟨event, ht, hw, rfl⟩ := updateCalls_move hm
  · exact hI.reads rfl rfl hended trivial fun _ _ => trivial
  · obtain rfl := (hids t key hkey).symm
    exact hI.select hkey ht
  · obtain rfl := (hids t key hkey).symm
    exact hI.decide ht
  · exact (hI.write ht hw).1

/-! ## An order for the calls -/

omit [DecidableEq τ] in
/-- A call that writes what takes no event back does what it would do alone now. -/
theorem UpdateInv.alone (hI : UpdateInv uuid toUpperCase id ids targets w₀ φ w) {event : Event}
    (ht : φ t = .writing event) {row : EventRow} (hrow : w.events id = some row)
    (hgood : ¬ event.status.TakesBack row.status) :
    ∃ wrote, UpdatesAlone toUpperCase (w₀.ticketTypesOf id) id (targets t) (some event.toDTO) wrote
      (some row) (some { row with status := event.status }) := by
  have hknows := hI.knows t
  rw [ht] at hknows
  obtain ⟨hread, row₀, draft, hmoved⟩ := hknows
  have hplain : row.plain = row₀.plain := by
    have h := hI.row
    rw [hrow, hmoved.first] at h
    exact Option.some.inj h
  have htakes : draft.Takes row.status := by
    rcases hI.progress with ⟨heq, hfirst⟩ | ⟨_, dto, -, hstored, htakes⟩
    · have hfrom := hfirst t
      rw [ht] at hfrom
      rw [hrow, hmoved.first] at heq
      obtain rfl := Option.some.inj heq
      exact (hfrom row draft hmoved.first hmoved.drafted).2
    · rw [hrow] at hstored
      rw [Option.some.inj hstored]
      exact htakes row₀ draft hmoved.first hmoved.drafted
  have hread : readEvent toUpperCase (w₀.ticketTypesOf id) id row
      = .ok { draft with status := row.status.readBack } :=
    readEvent_eq_ok.2 ⟨draft, (draftEvent_of_plain hplain).trans hmoved.drafted, htakes, rfl⟩
  rw [EventStatus.takesBack_iff hmoved.isTarget, not_lt] at hgood
  rw [hmoved.target]
  rcases hgood.eq_or_lt with heq | hlt
  · -- the status is stored already
    have hstatus : row.status = event.status := EventStatus.eq_of_rank hmoved.isTarget heq
    have hback : row.status.readBack = event.status := by rw [hstatus, hmoved.isTarget.readBack]
    have hevent : event = { draft with status := row.status.readBack } := by
      rw [hback]
      exact hmoved.event_eq
    have hsame : { row with status := event.status } = row := by rw [← hstatus]
    rw [hsame]
    exact ⟨false, hevent ▸ .same hread (by rw [hback])⟩
  · have hback : row.status.readBack.rank < event.status.rank := by
      rwa [EventStatus.rank_readBack]
    have hname : row.status.readBack.name ≠ event.status.name := fun h =>
      hback.ne (congrArg EventStatus.rank (EventStatus.name_inj h))
    have hended : row.status.readBack ≠ .ended := by
      rcases row.status <;> simp [EventStatus.readBack]
    have hmove : UpdateEventStatusUseCase.move { draft with status := row.status.readBack }
        event.status.name = .ok { draft with status := event.status } :=
      UpdateEventStatusUseCase.move_eq hmoved.isTarget hended hback hmoved.takes
    rw [← hmoved.event_eq] at hmove
    exact ⟨true, .moved hread hname hmove⟩

/-- The answer the call will give, where it is known to write no more. -/
def UpdatePhase.answer (toUpperCase : String → String) (ttRows : List TicketTypeRow)
    (target : String) : UpdatePhase → Option (Option EventResponseDTO)
  | .selected row event =>
    match found target
        ((addTicketTypes toUpperCase ttRows event >>= applyStatus row.status).map some) with
    | .ended (.ok r) => some r
    | _ => none
  | .ended (.ok r) => some r
  | _ => none

/-- Reading the ticket types tells nothing new about it. -/
theorem UpdatePhase.answer_found (toUpperCase : String → String) (ttRows : List TicketTypeRow)
    (target : String) (row : EventRow) (event : Event) :
    (found target ((addTicketTypes toUpperCase ttRows event >>= applyStatus row.status).map
        some)).answer toUpperCase ttRows target
      = (selected row event).answer toUpperCase ttRows target := by
  rcases found_cases target ((addTicketTypes toUpperCase ttRows event
    >>= applyStatus row.status).map some) with ⟨event', hp⟩ | ⟨e | r, hp⟩ <;> simp [answer, hp]

theorem UpdatePhase.selected_answer {ttRows : List TicketTypeRow} {target : String} {row : EventRow}
    {event : Event} {r : Option EventResponseDTO} (hcreate : createEvent id row = .ok event)
    (h : (selected row event).answer toUpperCase ttRows target = some r) :
    ∃ event', readEvent toUpperCase ttRows id row = .ok event' ∧ event'.status.name = target
      ∧ r = some event'.toDTO := by
  simp only [answer, ← readEvent_of_create hcreate] at h
  split at h
  · rename_i a hp
    obtain rfl := Option.some.inj h
    exact found_ended hp
  · cases h

def UpdatePhase.hasEnded : UpdatePhase → Bool
  | .ended _ => true
  | _ => false

theorem UpdatePhase.eq_ended {p : UpdatePhase} {ttRows : List TicketTypeRow} {target : String}
    {r : Option EventResponseDTO} (hended : p.hasEnded)
    (hanswer : p.answer toUpperCase ttRows target = some r) : p = .ended (.ok r) := by
  rcases p with _ | _ | _ | e | a
  · cases hanswer
  · cases hended
  · cases hanswer
  · cases hanswer
  · obtain rfl := Option.some.inj hanswer
    rfl

variable (uuid toUpperCase id ids targets) in
/-- The calls whose answer is known, in an order that gives these answers. Those that have not ended
yet do not write. -/
structure OrderedSo (w₀ : CatalogWorld τ ι) (order : List (τ × Option EventResponseDTO × Bool))
    (φ : τ → UpdatePhase) (row : Option EventRow) : Prop where
  serial : Serial (fun x row row' => uuid.read (ids x.1) = some id
    ∧ UpdatesAlone toUpperCase (w₀.ticketTypesOf id) id (targets x.1) x.2.1 x.2.2 row row')
    (w₀.events id) order row
  nodup : (order.map Prod.fst).Nodup
  sound : ∀ x ∈ order,
    (φ x.1).answer toUpperCase (w₀.ticketTypesOf id) (targets x.1) = some x.2.1
      ∧ (x.2.2 = true → (φ x.1).hasEnded)
  complete : ∀ t r, (φ t).answer toUpperCase (w₀.ticketTypesOf id) (targets t) = some r →
    ∃ wrote, (t, r, wrote) ∈ order

section Order

variable {order : List (τ × Option EventResponseDTO × Bool)} {row row' : Option EventRow}
  {p : UpdatePhase}

/-- A step that brings no new answer. -/
theorem OrderedSo.keep (h : OrderedSo uuid toUpperCase id ids targets w₀ order φ row)
    (hanswer : p.answer toUpperCase (w₀.ticketTypesOf id) (targets t)
      = (φ t).answer toUpperCase (w₀.ticketTypesOf id) (targets t))
    (hended : (φ t).hasEnded → p.hasEnded) :
    OrderedSo uuid toUpperCase id ids targets w₀ order (Function.update φ t p) row where
  serial := h.serial
  nodup := h.nodup
  sound x hx := by
    rcases eq_or_ne x.1 t with hxt | hxt
    · rw [hxt, Function.update_self, hanswer, ← hxt]
      exact ⟨(h.sound x hx).1, fun hwrote => hended (hxt ▸ (h.sound x hx).2 hwrote)⟩
    · rw [Function.update_of_ne hxt]
      exact h.sound x hx
  complete t' r hr := by
    rcases eq_or_ne t' t with rfl | ht'
    · rw [Function.update_self, hanswer] at hr
      exact h.complete t' r hr
    · rw [Function.update_of_ne ht'] at hr
      exact h.complete t' r hr

/-- A step after which the answer is known comes last in the order. -/
theorem OrderedSo.snoc (h : OrderedSo uuid toUpperCase id ids targets w₀ order φ row)
    {r : Option EventResponseDTO} {wrote : Bool} (hid : uuid.read (ids t) = some id)
    (hbefore : (φ t).answer toUpperCase (w₀.ticketTypesOf id) (targets t) = none)
    (hafter : p.answer toUpperCase (w₀.ticketTypesOf id) (targets t) = some r)
    (halone : UpdatesAlone toUpperCase (w₀.ticketTypesOf id) id (targets t) r wrote row row')
    (hended : wrote = true → p.hasEnded) :
    OrderedSo uuid toUpperCase id ids targets w₀ (order ++ [(t, r, wrote)]) (Function.update φ t p)
      row' := by
  have hnew : ∀ x ∈ order, x.1 ≠ t := by
    rintro x hx rfl
    rw [(h.sound x hx).1] at hbefore
    cases hbefore
  refine ⟨h.serial.snoc ⟨hid, halone⟩, ?_, fun x hx => ?_, fun t' r' hr' => ?_⟩
  · rw [List.map_append, List.nodup_append]
    refine ⟨h.nodup, by simp, ?_⟩
    intro a ha b hb
    obtain ⟨x, hx, rfl⟩ := List.mem_map.1 ha
    obtain rfl : b = t := by simpa using hb
    exact hnew x hx
  · rcases List.mem_append.1 hx with hx | hx
    · rw [Function.update_of_ne (hnew x hx)]
      exact h.sound x hx
    · obtain rfl := List.mem_singleton.1 hx
      rw [Function.update_self]
      exact ⟨hafter, hended⟩
  · rcases eq_or_ne t' t with rfl | ht'
    · rw [Function.update_self, hafter] at hr'
      obtain rfl := Option.some.inj hr'
      exact ⟨wrote, by simp⟩
    · rw [Function.update_of_ne ht'] at hr'
      obtain ⟨wrote', hmem⟩ := h.complete t' r' hr'
      exact ⟨wrote', List.mem_append_left _ hmem⟩

omit [DecidableEq τ] in
theorem UpdateInv.ticketTypesOf (hI : UpdateInv uuid toUpperCase id ids targets w₀ φ w) :
    w.ticketTypesOf id = w₀.ticketTypesOf id := by
  rw [CatalogWorld.ticketTypesOf, hI.tickets, CatalogWorld.ticketTypesOf]

/-- One step of the calls, which takes no event back, keeps them in an order. -/
theorem OrderedSo.move (hids : ∀ t key, uuid.read (ids t) = some key → key = id)
    (h : OrderedSo uuid toUpperCase id ids targets w₀ order φ (w.events id))
    (hI : UpdateInv uuid toUpperCase id ids targets w₀ φ w)
    (hm : (updateCalls uuid toUpperCase ids targets).move t (φ t) w = some (w', p))
    (hgood : ∀ event row, φ t = .writing event → updateStatus uuid t event w = some (.ok (), w') →
      w.events id = some row → ¬ event.status.TakesBack row.status) :
    ∃ order', OrderedSo uuid toUpperCase id ids targets w₀ order' (Function.update φ t p)
      (w'.events id) := by
  obtain ⟨rfl, rfl, hended, hfailed⟩ | ⟨key, hkey, ht, rfl, rfl⟩ |
    ⟨key, row, event, hkey, ht, rfl, rfl⟩ | ⟨event, ht, hw, rfl⟩ := updateCalls_move hm
  · have hknown : (φ t).answer toUpperCase (w₀.ticketTypesOf id) (targets t) = none := by
      rcases hfailed with hnone | ⟨event, ht⟩
      · have hknows := hI.knows t
        rcases hphase : φ t with _ | ⟨row, event⟩ | event | r <;> rw [hphase] at hknows
        · rfl
        · exact absurd hknows.1 (by simp [hnone])
        · rfl
        · exact absurd hphase (hended r)
      · rw [ht]
        rfl
    exact ⟨order, h.keep (by rw [hknown]; rfl) fun _ => rfl⟩
  · obtain rfl := (hids t key hkey).symm
    rcases UpdatePhase.ofRow_cases id (w.events id) with ⟨hnone, hp⟩ | ⟨_, _, -, hp⟩ |
      ⟨row, event, hsome, hcreate, hp⟩ <;> rw [hp]
    · have halone : UpdatesAlone toUpperCase (w₀.ticketTypesOf id) id (targets t) none false
          (w.events id) (w.events id) := by
        rw [hnone]
        exact .missing
      exact ⟨_, h.snoc hkey (by rw [ht]; rfl) rfl halone fun _ => rfl⟩
    · exact ⟨order, h.keep (by rw [ht]; rfl) (by simp [ht, UpdatePhase.hasEnded])⟩
    · -- a call that finds the status it is asked for takes effect here
      rcases hanswer : (UpdatePhase.selected row event).answer toUpperCase (w₀.ticketTypesOf id)
        (targets t) with _ | r
      · exact ⟨order, h.keep (by rw [hanswer, ht]; rfl) (by simp [ht, UpdatePhase.hasEnded])⟩
      · have halone : UpdatesAlone toUpperCase (w₀.ticketTypesOf id) id (targets t) r false
            (w.events id) (w.events id) := by
          rw [hsome]
          obtain ⟨event', hread, htarget, rfl⟩ := UpdatePhase.selected_answer hcreate hanswer
          exact .same hread htarget
        exact ⟨_, h.snoc hkey (by rw [ht]; rfl) hanswer halone (by simp)⟩
  · obtain rfl := (hids t key hkey).symm
    refine ⟨order, h.keep ?_ (by simp [ht, UpdatePhase.hasEnded])⟩
    rw [ht, hI.ticketTypesOf, UpdatePhase.answer_found]
  · obtain ⟨-, hevents, -⟩ := hI.write ht hw
    obtain ⟨row, hrow⟩ := hI.exists_row ht
    obtain ⟨wrote, halone⟩ := hI.alone ht hrow (hgood event row ht hw hrow)
    have hknows := hI.knows t
    rw [ht] at hknows
    have hkey := hknows.1
    rw [hrow] at h
    rw [hevents, hrow]
    exact ⟨_, h.snoc hkey (by rw [ht]; rfl) rfl halone fun _ => rfl⟩

omit [DecidableEq τ] in
/-- The calls that have ended are in an order without the others. -/
theorem OrderedSo.inSomeOrder
    {c : Config τ (CatalogWorld τ ι) CatalogError (Option EventResponseDTO)}
    (h : OrderedSo uuid toUpperCase id ids targets w₀ order φ (c.world.events id))
    (hresult : ∀ t r, (c.thread t).result = some r ↔ φ t = .ended r) :
    InSomeOrder uuid toUpperCase id ids targets w₀ c := by
  have hidle : ∀ x ∈ order, (φ x.1).hasEnded = false → ∀ row row',
      uuid.read (ids x.1) = some id
        ∧ UpdatesAlone toUpperCase (w₀.ticketTypesOf id) id (targets x.1) x.2.1 x.2.2 row row' →
        row' = row := by
    rintro x hx hended row row' ⟨-, halone⟩
    refine halone.idle (Bool.eq_false_iff.2 fun hwrote => ?_)
    rw [(h.sound x hx).2 hwrote] at hended
    cases hended
  have hstep : ∀ (x : τ × Option EventResponseDTO × Bool) row row' (w : CatalogWorld τ ι),
      uuid.read (ids x.1) = some id
        ∧ UpdatesAlone toUpperCase (w₀.ticketTypesOf id) id (targets x.1) x.2.1 x.2.2 row row' →
        w.events id = row ∧ w.ticketTypes = w₀.ticketTypes →
        ∃ w', (UpdateEventStatusUseCase.execute uuid toUpperCase x.1 (ids x.1) (targets x.1)).run w
            = some (.ok x.2.1, w') ∧ w'.events id = row' ∧ w'.ticketTypes = w₀.ticketTypes := by
    rintro x row row' w ⟨hid, halone⟩ ⟨rfl, htickets⟩
    rw [CatalogWorld.ticketTypesOf, ← htickets] at halone
    obtain ⟨w', hrun, hevents, htickets'⟩ := halone.run hid x.1
    exact ⟨w', hrun, hevents, htickets'.trans htickets⟩
  obtain ⟨w', hruns, hevents, -⟩ := (h.serial.filter hidle).simulate
    (B := fun (x : τ × Option EventResponseDTO) w w' =>
      (UpdateEventStatusUseCase.execute uuid toUpperCase x.1 (ids x.1) (targets x.1)).run w
        = some (.ok x.2, w'))
    (R := fun row w => w.events id = row ∧ w.ticketTypes = w₀.ticketTypes)
    (f := fun x => (x.1, x.2.1)) (t := w₀) hstep ⟨rfl, rfl⟩
  refine ⟨_, w', hruns, ?_, fun t r => ?_, hevents⟩
  · rw [List.map_map]
    exact h.nodup.sublist (List.filter_sublist.map _)
  · rw [hresult]
    constructor
    · intro hmem
      obtain ⟨x, hx, hxt⟩ := List.mem_map.1 hmem
      obtain ⟨hx, hended⟩ := List.mem_filter.1 hx
      cases hxt
      exact UpdatePhase.eq_ended hended (h.sound x hx).1
    · intro ht
      obtain ⟨wrote, hmem⟩ := h.complete t r (by rw [ht]; rfl)
      exact List.mem_map.2 ⟨_, List.mem_filter.2 ⟨hmem, by simp [ht, UpdatePhase.hasEnded]⟩, rfl⟩

end Order

end Step

/-- A statement that takes the text never waits, nor does one that refuses it. -/
theorem isSome_withUuid {α : Type} {failed : CatalogError} {text : String}
    {f : String → Sync (CatalogWorld τ ι) CatalogError α} {w : CatalogWorld τ ι}
    (h : ∀ id, (f id w).isSome) : (withUuid uuid failed text f w).isSome := by
  rcases hid : uuid.read text with _ | id
  · rw [withUuid_of_none hid]
    rfl
  · rw [withUuid_of_read hid]
    exact h id

theorem each_execute (w : CatalogWorld τ ι) (t : τ) :
    (UpdateEventStatusUseCase.execute uuid toUpperCase t (ids t) (targets t)).Each fun _ act =>
      ∃ w : CatalogWorld τ ι, (act w).isSome := by
  have hfind : (findById uuid toUpperCase t (ids t)).Each fun _ act =>
      ∃ w : CatalogWorld τ ι, (act w).isSome := by
    refine Async.each_bind (Async.each_await ⟨w, isSome_withUuid fun _ => rfl⟩) fun found => ?_
    rcases found with _ | row
    · exact Async.each_pure _
    · exact Async.each_bind trivial fun event =>
        Async.each_bind (Async.each_await ⟨w, isSome_withUuid fun _ => rfl⟩)
          fun ttRows => Async.each_bind trivial fun event => Async.each_pure _
  refine Async.each_bind hfind fun found => ?_
  rcases found with _ | event
  · exact Async.each_pure _
  simp only []
  split_ifs
  · exact Async.each_pure _
  · exact Async.each_bind trivial fun event =>
      Async.each_bind (Async.each_await ⟨w, isSome_withUuid fun _ => rfl⟩)
        fun _ => Async.each_pure _

variable [DecidableEq τ] {w₀ : CatalogWorld τ ι}
  {c : Config τ (CatalogWorld τ ι) CatalogError (Option EventResponseDTO)}
  {h : List (Taken τ (CatalogWorld τ ι))}

/-- A call has returned just if it is in the phase that says so. -/
theorem result_iff_ended
    (hrun : Config.Run
      ⟨w₀, fun t => UpdateEventStatusUseCase.execute uuid toUpperCase t (ids t) (targets t)⟩ h c)
    (t : τ) (r : Except CatalogError (Option EventResponseDTO)) :
    (c.thread t).result = some r
      ↔ (updateCalls uuid toUpperCase ids targets).phases h t = .ended r := by
  obtain ⟨-, hruns⟩ := Machine.trace_of_run runs_execute hrun
  constructor
  · exact (hruns t).of_result
  · intro ht
    have heach := Config.each_reach (each_execute w₀) hrun.reach t
    obtain ⟨r', hr', hphase⟩ := (hruns t).ended heach fun w => by rw [ht]; rfl
    rw [ht] at hphase
    cases hphase
    exact hr'

theorem updateInv_of_trace {w : CatalogWorld τ ι}
    (hids : ∀ t key, uuid.read (ids t) = some key → key = id)
    (ht : (updateCalls uuid toUpperCase ids targets).Trace w₀ h w) :
    UpdateInv uuid toUpperCase id ids targets w₀
      ((updateCalls uuid toUpperCase ids targets).phases h) w := by
  induction ht with
  | nil => exact ⟨rfl, rfl, fun _ => trivial, .inl ⟨rfl, fun _ => trivial⟩⟩
  | snoc _ hm ih =>
    rw [Machine.phases_snoc, Machine.advance_of_move hm]
    exact ih.move hids hm

variable (id) in
/-- The step is an UPDATE that takes the event back. -/
def TakesEventBack (s : Taken τ (CatalogWorld τ ι)) : Prop :=
  ∃ status row, s.after.log = s.before.log ++ [.updateStatus s.thread id status]
    ∧ s.before.events id = some row ∧ status.TakesBack row.status

theorem orderedSo_of_trace {w : CatalogWorld τ ι}
    (hids : ∀ t key, uuid.read (ids t) = some key → key = id)
    (ht : (updateCalls uuid toUpperCase ids targets).Trace w₀ h w)
    (hgood : ∀ h₁ s, h₁ ++ [s] <+: h → ¬ TakesEventBack id s) :
    ∃ order, OrderedSo uuid toUpperCase id ids targets w₀ order
      ((updateCalls uuid toUpperCase ids targets).phases h) (w.events id) := by
  induction ht with
  | nil => exact ⟨[], .nil, by simp, by simp, fun _ _ hr => by cases hr⟩
  | @snoc h w w' t p ht hm ih =>
    obtain ⟨order, horder⟩ := ih fun h₁ s hp => hgood h₁ s (hp.trans (List.prefix_append _ _))
    rw [Machine.phases_snoc, Machine.advance_of_move hm]
    have hI := updateInv_of_trace hids ht
    exact horder.move hids hI hm fun event row hwriting hw hrow hback =>
      hgood h ⟨t, w, w'⟩ List.prefix_rfl
        ⟨event.status, row, (hI.write hwriting hw).2.2, hrow, hback⟩

/-- Once an event has been taken back, no order explains the answers. -/
theorem not_takesEventBack {s : Taken τ (CatalogWorld τ ι)}
    (hids : ∀ t key, uuid.read (ids t) = some key → key = id)
    (hrun : Config.Run
      ⟨w₀, fun t => UpdateEventStatusUseCase.execute uuid toUpperCase t (ids t) (targets t)⟩
      (h ++ [s]) c) (horder : InSomeOrder uuid toUpperCase id ids targets w₀ c) :
    ¬ TakesEventBack id s := by
  rintro ⟨status, row, hlog, hrow, hback⟩
  obtain ⟨htrace, -⟩ := Machine.trace_of_run runs_execute hrun
  obtain ⟨ht, p, hm⟩ := htrace.step_of_prefix List.prefix_rfl
  have hI := updateInv_of_trace hids ht
  obtain ⟨hw', -⟩ | ⟨_, -, -, hw', -⟩ | ⟨_, _, _, -, -, hw', -⟩ | ⟨event, hwriting, hw, hp⟩ :=
    updateCalls_move hm
  · rw [hw'] at hlog
    simp at hlog
  · rw [hw'] at hlog
    simp at hlog
  · rw [hw'] at hlog
    simp at hlog
  obtain ⟨-, hevents, hlog'⟩ := hI.write hwriting hw
  obtain rfl : event.status = status := by
    rw [hlog'] at hlog
    simpa using hlog
  have hknows := hI.knows s.thread
  rw [hwriting] at hknows
  obtain ⟨hread, row₀, draft, hmoved⟩ := hknows
  rw [EventStatus.takesBack_iff hmoved.isTarget] at hback
  rcases hI.progress with ⟨hfirst, hall⟩ | ⟨t', dto, ht', hstored, -⟩
  · -- nobody has written since the call read the row
    have hfrom := hall s.thread
    rw [hwriting] at hfrom
    obtain rfl := Option.some.inj (hrow.symm.trans (hfirst.trans hmoved.first))
    have hlt := (hfrom row draft hmoved.first hmoved.drafted).1
    omega
  · -- the status that is overwritten is one a call has returned
    have hne : t' ≠ s.thread := by
      rintro rfl
      rw [hwriting] at ht'
      cases ht'
    have hresult : (c.thread t').result = some (.ok (some dto)) := by
      rw [result_iff_ended hrun, Machine.phases_snoc, Machine.advance, Function.update_of_ne hne]
      exact ht'
    have hle := horder.rank_le hids hresult
    rw [hrun.world_of_snoc, hevents, hrow] at hle
    rw [hrow] at hstored
    rw [← Option.some.inj hstored] at hle
    simp only [rowRank, Option.map_some, Option.getD_some] at hle
    omega

end Calls

section Serializable

variable {τ ι : Type} [DecidableEq τ]

/-- In every state of a run of calls on one event a returned CANCELLED is what is stored, and the
calls that have returned are explained by some order of theirs, if and only if no UPDATE of the run
takes the event back. -/
theorem serializable_iff_none_taken_back (uuid : UuidReading) (toUpperCase : String → String)
    (w₀ : CatalogWorld τ ι) (id : String) {ids : τ → String}
    (hids : ∀ t key, uuid.read (ids t) = some key → key = id) (targets : τ → String)
    {h : List (Taken τ (CatalogWorld τ ι))}
    {c : Config τ (CatalogWorld τ ι) CatalogError (Option EventResponseDTO)}
    (hrun : Config.Run
      ⟨w₀, fun t => UpdateEventStatusUseCase.execute uuid toUpperCase t (ids t) (targets t)⟩ h c) :
    (∀ h₁ c₁, h₁ <+: h → Config.Run
        ⟨w₀, fun t => UpdateEventStatusUseCase.execute uuid toUpperCase t (ids t) (targets t)⟩
        h₁ c₁ → CancelledStays id c₁ ∧ InSomeOrder uuid toUpperCase id ids targets w₀ c₁)
      ↔ ∀ h₁ s, h₁ ++ [s] <+: h → ¬ TakesEventBack id s := by
  constructor
  · intro hall h₁ s hp
    obtain ⟨c₁, hrun₁⟩ := hrun.initial hp
    exact not_takesEventBack hids hrun₁ (hall _ c₁ hp hrun₁).2
  · intro hgood h₁ c₁ hp hrun₁
    obtain ⟨htrace, -⟩ := Machine.trace_of_run runs_execute hrun₁
    obtain ⟨order, horder⟩ :=
      orderedSo_of_trace hids htrace fun h₂ s hp₂ => hgood h₂ s (hp₂.trans hp)
    have hexplained := horder.inSomeOrder (result_iff_ended hrun₁)
    exact ⟨hexplained.cancelledStays hids, hexplained⟩

end Serializable

/-- The id of a concert, and the same in capitals. -/
def concertId : String := "9d2f6c1e-7b34-4f0a-8a55-2c6d1e90b7f3"

def concertId' : String := "9D2F6C1E-7B34-4F0A-8A55-2C6D1E90B7F3"

def sampleUuid : UuidReading := .ofIds [concertId]

theorem read_concertId : sampleUuid.read concertId = some concertId := by decide +kernel

/-- A draft with one ticket type. -/
def sampleCatalog (τ ι : Type) : CatalogWorld τ ι where
  events id := if id = concertId then some ⟨"org-1", "Concert", .draft, 0, 3600000⟩ else none
  ticketTypes :=
    [⟨"1c0b7d52-3e0f-4a1b-9d6e-5f7a8b9c0d1e", concertId, "General", 5000, "USD", 100⟩]
  cache _ := none
  inFlight _ _ := none
  settled _ := none
  log := []

/-- One call schedules the event, another cancels it. -/
def scheduleOrCancel (t : Fin 2) : String := if t.val = 0 then "SCHEDULED" else "CANCELLED"

def sampleUpdates :
    Config (Fin 2) (CatalogWorld (Fin 2) Unit) CatalogError (Option EventResponseDTO) :=
  ⟨sampleCatalog _ _, fun t => UpdateEventStatusUseCase.execute sampleUuid String.toUpper t
    concertId (scheduleOrCancel t)⟩

theorem sampleUpdates_isSome : (sampleUpdates.history [0, 0, 1, 1, 1, 0]).isSome := by
  decide +kernel

/-- The event is scheduled by a call that read it before it was cancelled. -/
theorem sampleUpdates_overwritten :
    ∃ h c, sampleUpdates.Run h c ∧ ¬ CancelledStays concertId c := by
  refine ⟨_, _, Config.run_of_history _ (Option.eq_some_of_isSome sampleUpdates_isSome),
    fun hstays => ?_⟩
  have h := hstays 1 _ rfl rfl
  exact absurd h (by decide +kernel)

theorem serializable_iff_scheduleOrCancel : ∃ h c, sampleUpdates.Run h c
    ∧ ∃ h₁ s, h₁ ++ [s] <+: h ∧ TakesEventBack concertId s := by
  obtain ⟨h, c, hrun, hstays⟩ := sampleUpdates_overwritten
  refine ⟨h, c, hrun, ?_⟩
  by_contra hno
  push Not at hno
  have hids : ∀ (_ : Fin 2) key, sampleUuid.read concertId = some key → key = concertId :=
    fun _ _ hkey => Option.some.inj (hkey.symm.trans read_concertId)
  exact hstays ((serializable_iff_none_taken_back sampleUuid String.toUpper _ concertId hids
    scheduleOrCancel hrun).2 hno h c List.prefix_rfl hrun).1

theorem cancelled_overwritten :
    ¬ ∀ h c, sampleUpdates.Run h c → CancelledStays concertId c := by
  intro hall
  obtain ⟨h, c, hrun, hstays⟩ := sampleUpdates_overwritten
  exact hstays (hall h c hrun)

end LaunchPad
