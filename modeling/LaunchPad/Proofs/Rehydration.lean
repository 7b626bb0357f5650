import LaunchPad.Proofs.Creation
import LaunchPad.Proofs.EventStatus
import Mathlib.Data.List.DropRight

/-!
# Reading an event back

`findById` builds the aggregate anew and then brings it to the stored status by the transitions of
the domain. Every value that was written is accepted again as it is (`TicketTypeRow.Written`), so the
aggregate has the stored ticket types. No transition leads to ENDED, and an event that is stored as
ENDED is read back as a DRAFT.
-/

namespace LaunchPad

open Interleave PostgresEventRepository

/-! ## What is written -/

/-- A row of `events` as `save` writes it. -/
structure EventRow.Written (id : String) (row : EventRow) : Prop where
  id_nonblank : ¬ Blank id
  organizerId_nonblank : ¬ Blank row.organizerId
  title_nonblank : ¬ Blank row.title
  title_trimmed : trim row.title = row.title
  window : row.saleStartAt < row.saleEndAt

/-- A row of `ticket_types` as `save` writes it. -/
structure TicketTypeRow.Written (toUpperCase : String → String) (row : TicketTypeRow) : Prop where
  id_nonblank : ¬ Blank row.id
  name_nonblank : ¬ Blank row.name
  name_trimmed : trim row.name = row.name
  price_nonneg : 0 ≤ row.priceCents
  currency_nonblank : ¬ Blank row.currency
  currency_upper : toUpperCase row.currency = row.currency
  capacity_pos : 0 < row.capacity

section Trim

theorem trim_eq (s : String) :
    trim s = String.ofList ((s.toList.dropWhile isWhiteSpace).rdropWhile isWhiteSpace) := rfl

/-- What is trimmed has nothing to trim. -/
theorem trim_trim (s : String) : trim (trim s) = trim s := by
  set m := s.toList.dropWhile isWhiteSpace
  have hm : m.dropWhile isWhiteSpace = m := List.dropWhile_idempotent _ _
  have hn : (m.rdropWhile isWhiteSpace).dropWhile isWhiteSpace = m.rdropWhile isWhiteSpace := by
    refine List.dropWhile_eq_self_iff.2 fun hlen => ?_
    have hinit := List.rdropWhile_prefix isWhiteSpace m
    rw [hinit.getElem hlen]
    exact List.dropWhile_eq_self_iff.1 hm (hlen.trans_le hinit.length_le)
  rw [trim_eq s, trim_eq, String.toList_ofList, hn, List.rdropWhile_idempotent]

theorem not_blank_trim {s : String} (h : ¬ Blank s) : ¬ Blank (trim s) := by
  intro hblank
  set m := s.toList.dropWhile isWhiteSpace
  have hm : ¬ ∀ c ∈ m, isWhiteSpace c = true := by
    intro hall
    have hnil : m = [] := by
      rw [← List.dropWhile_eq_nil_iff.2 hall]
      exact (List.dropWhile_idempotent _ _).symm
    exact h (List.dropWhile_eq_nil_iff.1 hnil)
  have hn : m.rdropWhile isWhiteSpace ≠ [] := fun hnil => hm (List.rdropWhile_eq_nil_iff.1 hnil)
  refine List.rdropWhile_last_not isWhiteSpace m hn (hblank _ ?_)
  rw [trim_eq, String.toList_ofList]
  exact List.getLast_mem hn

end Trim

/-- What is inserted of a new event. -/
theorem Event.row_written {id organizerId title : String} {window : TimeWindow} {event : Event}
    (h : Event.create id organizerId title window = .ok event) : event.row.Written event.id := by
  unfold Event.create at h
  split_ifs at h with hid horganizer htitle
  obtain rfl := Except.ok.inj h
  exact ⟨hid, horganizer, not_blank_trim htitle, trim_trim title, window.ordered⟩

/-- What is inserted of a ticket type, where `toUpperCase` leaves what is in upper case, and makes
no text blank. -/
theorem TicketType.row_written {toUpperCase : String → String}
    (hupper : ∀ s, toUpperCase (toUpperCase s) = toUpperCase s)
    (hblank : ∀ s, Blank (toUpperCase s) → Blank s) {id eventId name currency key eventKey : String}
    {amountCents capacity : Number} {price : Money} {tt : TicketType}
    (hprice : Money.create toUpperCase amountCents currency = .ok price)
    (h : TicketType.create id eventId name price capacity = .ok tt) (hkey : ¬ Blank key) :
    (tt.row key eventKey).Written toUpperCase := by
  obtain ⟨-, hcurrency⟩ := Money.create_ok hprice
  obtain ⟨-, -, hname, rfl, -⟩ := TicketType.create_ok h
  have hnonblank : ¬ Blank currency := by
    unfold Money.create at hprice
    split at hprice
    · cases hprice
    · split_ifs at hprice with hb
      exact hb
  have hname' : ¬ Blank name := by
    unfold TicketType.create at h
    split_ifs at h with hid hb
    exact hb
  refine ⟨hkey, ?_, ?_, Int.natCast_nonneg _, ?_, ?_, tt.capacity_pos⟩
  · change ¬ Blank tt.name
    rw [hname]
    exact not_blank_trim hname'
  · change trim tt.name = tt.name
    rw [hname, trim_trim]
  · change ¬ Blank tt.price.currency
    rw [hcurrency]
    exact fun hb => hnonblank (hblank _ hb)
  · change toUpperCase tt.price.currency = tt.price.currency
    rw [hcurrency, hupper]

/-! ## What is read back -/

/-- The aggregate has what the rows have. -/
structure Event.Reflects (event : Event) (id : String) (row : EventRow)
    (ttRows : List TicketTypeRow) : Prop where
  id : event.id = id
  row : event.row = row
  ticketTypes : event.ticketTypes.map (fun tt => tt.row tt.id tt.eventId) = ttRows

section Read

variable {toUpperCase : String → String} {id : String} {row : EventRow}

theorem createEvent_written (h : row.Written id) :
    createEvent id row = .ok ⟨id, row.organizerId, row.title,
      ⟨row.saleStartAt, row.saleEndAt, h.window⟩, .draft, []⟩ := by
  simp only [createEvent, TimeWindow.create, h.window, dif_pos, bind, Except.bind, Event.create,
    if_neg h.id_nonblank, if_neg h.organizerId_nonblank, if_neg h.title_nonblank, h.title_trimmed]

/-- The price and the ticket type accept what is stored of them. -/
theorem addTicketType_written {ttRow : TicketTypeRow} (h : ttRow.Written toUpperCase)
    {event : Event} (hdraft : event.status = .draft) (heventId : ttRow.eventId = event.id) :
    ∃ price tt, Money.create toUpperCase (.ofInt ttRow.priceCents) ttRow.currency = .ok price
      ∧ event.addTicketType ttRow.id ttRow.name price (.ofInt ttRow.capacity)
        = .ok { event with ticketTypes := Event.setTicketType tt event.ticketTypes }
      ∧ tt.row tt.id tt.eventId = ttRow := by
  have hprice : Money.create toUpperCase (.ofInt ttRow.priceCents) ttRow.currency
      = .ok ⟨ttRow.priceCents.toNat, ttRow.currency⟩ := by
    simp [Money.create, Number.ofInt, Option.filter, h.price_nonneg, h.currency_nonblank,
      h.currency_upper]
  have hcapacity : InventoryPool.positiveInteger (.ofInt ttRow.capacity) = some ttRow.capacity := by
    simp [InventoryPool.positiveInteger, Number.ofInt, h.capacity_pos]
  refine ⟨⟨ttRow.priceCents.toNat, ttRow.currency⟩, ⟨ttRow.id, event.id, ttRow.name,
    ⟨ttRow.priceCents.toNat, ttRow.currency⟩, ttRow.capacity, h.capacity_pos⟩, hprice, ?_, ?_⟩
  · unfold Event.addTicketType TicketType.create
    rw [if_neg (not_not.2 hdraft), if_neg h.id_nonblank, if_neg h.name_nonblank]
    split
    · rename_i hnone
      rw [hcapacity] at hnone
      cases hnone
    · rename_i n hn
      obtain rfl := Option.some.inj (hcapacity.symm.trans hn)
      simp only [h.name_trimmed]
      rfl
  · simp only [TicketType.row, ← heventId, Int.toNat_of_nonneg h.price_nonneg]

/-- Rows with different ids become ticket types in their order. -/
theorem addTicketTypes_written : ∀ {ttRows : List TicketTypeRow} (event : Event),
    event.status = .draft → (∀ ttRow ∈ ttRows, ttRow.Written toUpperCase ∧ ttRow.eventId = event.id) →
    (event.ticketTypes.map TicketType.id ++ ttRows.map TicketTypeRow.id).Nodup →
    ∃ tts, addTicketTypes toUpperCase ttRows event
        = .ok { event with ticketTypes := event.ticketTypes ++ tts }
      ∧ tts.map (fun tt => tt.row tt.id tt.eventId) = ttRows
  | [], event, _, _, _ => ⟨[], by rw [List.append_nil]; rfl, rfl⟩
  | ttRow :: ttRows, event, hdraft, hrows, hnd => by
    obtain ⟨hwritten, heventId⟩ := hrows ttRow List.mem_cons_self
    obtain ⟨price, tt, hprice, hadd, hrow⟩ := addTicketType_written hwritten hdraft heventId
    have hid : tt.id = ttRow.id := congrArg TicketTypeRow.id hrow
    have hnew : tt.id ∉ event.ticketTypes.map TicketType.id := by
      rw [hid]
      exact fun hmem => (List.nodup_append'.1 hnd).2.2 hmem List.mem_cons_self
    rw [setTicketType_of_notMem hnew] at hadd
    obtain ⟨tts, hrest, htts⟩ := addTicketTypes_written
      { event with ticketTypes := event.ticketTypes ++ [tt] } hdraft
      (fun x hx => hrows x (List.mem_cons_of_mem _ hx)) (by simpa [hid] using hnd)
    refine ⟨tt :: tts, ?_, by rw [List.map_cons, hrow, htts]⟩
    simp only [addTicketTypes, hprice, hadd, bind, Except.bind, hrest, List.append_assoc,
      List.singleton_append]

end Read

section Rehydrate

variable {τ ι : Type} {uuid : UuidReading} {toUpperCase : String → String} {text id : String}
  {row : EventRow} {w : CatalogWorld τ ι}

/-- `findById` gives an aggregate that has what the rows have, and to write its status at once
leaves the status that is stored. -/
def RehydratesFaithfully (uuid : UuidReading) (toUpperCase : String → String) (self : τ)
    (text id : String) (row : EventRow) (w : CatalogWorld τ ι) : Prop :=
  ∃ event w₁ w₂, (findById uuid toUpperCase self text).run w = some (.ok (some event), w₁)
    ∧ event.Reflects id row (w.ticketTypesOf id)
    ∧ updateStatus uuid self event w₁ = some (.ok (), w₂)
    ∧ (w₂.events id).map EventRow.status = some row.status

/-- The event that is read of rows as they are written. -/
theorem readEvent_written (hwritten : row.Written id) {ttRows : List TicketTypeRow}
    (htts : ∀ ttRow ∈ ttRows, ttRow.Written toUpperCase ∧ ttRow.eventId = id)
    (hkeys : (ttRows.map TicketTypeRow.id).Nodup) (hne : ttRows ≠ []) :
    ∃ event, readEvent toUpperCase ttRows id row = .ok event
      ∧ event.Reflects id { row with status := row.status.readBack } ttRows := by
  obtain ⟨tts, hadd, hrows⟩ := addTicketTypes_written
    ⟨id, row.organizerId, row.title, ⟨row.saleStartAt, row.saleEndAt, hwritten.window⟩, .draft, []⟩
    rfl htts hkeys
  have hdraft : draftEvent toUpperCase ttRows id row = .ok ⟨id, row.organizerId, row.title,
      ⟨row.saleStartAt, row.saleEndAt, hwritten.window⟩, .draft, tts⟩ := by
    simp only [draftEvent, createEvent_written hwritten, bind, Except.bind, hadd, List.nil_append]
  have hsome : tts.isEmpty = false := by
    rcases tts with _ | ⟨tt, tts⟩
    · exact absurd hrows.symm hne
    · rfl
  exact ⟨_, readEvent_eq_ok.2 ⟨_, hdraft, fun _ => hsome, rfl⟩, rfl, rfl, hrows⟩

/-- What is read back has no other status than the one it is read back with. -/
theorem RehydratesFaithfully.not_ended {self : τ} (hid : uuid.read text = some id)
    (hrow : w.events id = some row)
    (h : RehydratesFaithfully uuid toUpperCase self text id row w) : row.status ≠ .ended := by
  obtain ⟨event, w₁, w₂, hrun, hreflects, -⟩ := h
  rw [findById_run hid, hrow] at hrun
  rcases hread : readEvent toUpperCase (w.ticketTypesOf id) id row with e | event' <;>
    simp only [hread, Except.map, Option.some.injEq, Prod.mk.injEq, Except.ok.injEq,
      reduceCtorEq, false_and] at hrun
  obtain ⟨rfl, -⟩ := hrun
  obtain ⟨draft, -, -, rfl⟩ := readEvent_eq_ok.1 hread
  have hstatus : row.status.readBack = row.status := congrArg EventRow.status hreflects.row
  intro hended
  rw [hended] at hstatus
  cases hstatus

/-- Rows as they are written are read back faithfully, whatever the status, but for ENDED. -/
theorem rehydrates_faithfully_iff (self : τ) (hid : uuid.read text = some id)
    (hrow : w.events id = some row)
    (hwritten : row.Written id) (htts : ∀ ttRow ∈ w.ticketTypesOf id, ttRow.Written toUpperCase)
    (hkeys : ((w.ticketTypesOf id).map TicketTypeRow.id).Nodup) (hne : w.ticketTypesOf id ≠ []) :
    RehydratesFaithfully uuid toUpperCase self text id row w ↔ row.status ≠ .ended := by
  have hevents : ∀ ttRow ∈ w.ticketTypesOf id, ttRow.eventId = id := fun ttRow h => by
    simpa using (List.mem_filter.1 h).2
  obtain ⟨event, hread, hreflects⟩ := readEvent_written hwritten
    (fun ttRow h => ⟨htts ttRow h, hevents ttRow h⟩) hkeys hne
  refine ⟨fun h => h.not_ended hid hrow, fun hended => ?_⟩
  have hback : row.status.readBack = row.status := by
    revert hended
    cases row.status <;> simp [EventStatus.readBack]
  rw [hback] at hreflects
  have hrun : (findById uuid toUpperCase self text).run w = _ := findById_run hid self w
  rw [hrow] at hrun
  simp only [hread, Except.map] at hrun
  have hevent : uuid.read event.id = some id := by
    rw [hreflects.id]
    exact uuid.read_read _ _ hid
  refine ⟨event, _, _, hrun, hreflects, updateStatus_of_read hevent, ?_⟩
  have hstatus : event.status = row.status := congrArg EventRow.status hreflects.row
  simp only [Function.update_self, hrow, Option.map_some, hstatus]

end Rehydrate

/-- A conference with one ticket type, stored with this status. -/
def conferenceRow (status : EventStatus) : EventRow := ⟨"org-99", "Conference", status, 9, 18⟩

def passRow : TicketTypeRow := ⟨vipId.val, conferenceId.val, "VIP Pass", 15000, "USD", 20⟩

def conferenceWorld (status : EventStatus) : CatalogWorld Unit Unit where
  events id := if id = conferenceId.val then some (conferenceRow status) else none
  ticketTypes := [passRow]
  cache _ := none
  inFlight _ _ := none
  settled _ := none
  log := []

theorem read_conferenceId : conferenceReading.read conferenceId.val = some conferenceId.val := by
  decide +kernel

theorem rehydrates_faithfully_iff_live :
    RehydratesFaithfully conferenceReading id () conferenceId.val conferenceId.val
      (conferenceRow .live) (conferenceWorld .live) :=
  (rehydrates_faithfully_iff () read_conferenceId rfl
    ⟨by decide, by decide, by decide, by decide, by decide⟩
    (fun ttRow h => by
      obtain rfl : ttRow = passRow := by simpa [conferenceWorld] using (List.mem_filter.1 h).1
      exact ⟨by decide, by decide, by decide, by decide, by decide, rfl, by decide⟩)
    (by decide) (by decide)).2 (by decide)

/-- The ended conference is read back as a draft. -/
theorem ended_conference_drafted :
    ¬ RehydratesFaithfully conferenceReading id () conferenceId.val conferenceId.val
      (conferenceRow .ended) (conferenceWorld .ended) :=
  fun h => h.not_ended read_conferenceId rfl rfl

end LaunchPad
