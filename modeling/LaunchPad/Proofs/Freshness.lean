import LaunchPad.Proofs.CatalogRequests
import Mathlib.Data.List.TakeWhile

/-!
# Reads after an update

A GET that starts once a PATCH has responded finds the event deleted from the cache, or put back by
a load; or it joins a load. Loads that read the row after the UPDATE show what it wrote, or later
statuses. One that read it before and is still under way when the PATCH deletes the event puts an
older status back into the cache, or hands it to those who join it. And the PATCH deletes the event
as its own path spells its id: under another spelling it stays in the cache as it was. If at the DEL
those loads are over and nothing older is left, every later GET is fresh.

In what follows `id` is how the GET spells the event and `key` is the key of its row.
-/

namespace LaunchPad

open Interleave PostgresEventRepository CachedGetEventByIdUseCase

section Requests

variable {τ ι : Type} [DecidableEq τ] [DecidableEq ι] {uuid : UuidReading}
  {toUpperCase : String → String} {requests : τ → CatalogRequest ι}

/-! ## What has happened since an UPDATE -/

def CatalogStep.self : CatalogStep τ → τ
  | .selectEvent self _ => self
  | .updateStatus self _ _ => self
  | .set self _ => self
  | .del self _ => self
  | .settle self => self

def CatalogStep.isUpdateOf (p : τ) (key : String) : CatalogStep τ → Bool
  | .updateStatus self i _ => self = p && i = key
  | _ => false

/-- What has been executed from the UPDATE of the call on. -/
def sinceUpdate (p : τ) (key : String) (log : List (CatalogStep τ)) : List (CatalogStep τ) :=
  log.dropWhile fun s => !s.isUpdateOf p key

/-- Since its UPDATE the call has deleted the event, as it spells it, from the cache. -/
def Deleted (p : τ) (key : String) (log : List (CatalogStep τ)) : Prop :=
  ∃ deleted, .del p deleted ∈ sinceUpdate p key log

/-- The status is what the call wrote, or what one wrote after it. -/
def WrittenSince (p : τ) (key : String) (log : List (CatalogStep τ)) (status : EventStatus) :
    Prop :=
  ∃ t, .updateStatus t key status ∈ sinceUpdate p key log

section Since

omit [DecidableEq ι]

variable {p : τ} {key : String} {log l : List (CatalogStep τ)} {x : CatalogStep τ}

theorem sinceUpdate_ne_nil :
    sinceUpdate p key log ≠ [] ↔ ∃ status, .updateStatus p key status ∈ log := by
  rw [sinceUpdate, Ne, List.dropWhile_eq_nil_iff]
  constructor
  · intro h
    push Not at h
    obtain ⟨x, hx, hupdate⟩ := h
    rcases x with _ | ⟨t, i, status⟩ | _ | _ | _ <;> simp [CatalogStep.isUpdateOf] at hupdate
    obtain ⟨rfl, rfl⟩ := hupdate
    exact ⟨status, hx⟩
  · rintro ⟨status, hmem⟩ hall
    have h := hall _ hmem
    simp [CatalogStep.isUpdateOf] at h

theorem sinceUpdate_ne_nil_of_append (h : sinceUpdate p key (log ++ l) ≠ [])
    (hl : ∀ status, .updateStatus p key status ∉ l) : sinceUpdate p key log ≠ [] := by
  obtain ⟨status, hmem⟩ := sinceUpdate_ne_nil.1 h
  rcases List.mem_append.1 hmem with hmem | hmem
  · exact sinceUpdate_ne_nil.2 ⟨status, hmem⟩
  · exact absurd hmem (hl status)

theorem sinceUpdate_append : sinceUpdate p key (log ++ l)
    = if sinceUpdate p key log = [] then sinceUpdate p key l else sinceUpdate p key log ++ l := by
  simp only [sinceUpdate, List.dropWhile_append, List.isEmpty_iff]
  congr

theorem mem_of_mem_sinceUpdate (h : x ∈ sinceUpdate p key log) : x ∈ log :=
  (List.dropWhile_suffix _).subset h

theorem mem_sinceUpdate_append (h : x ∈ sinceUpdate p key log) :
    x ∈ sinceUpdate p key (log ++ l) := by
  rw [sinceUpdate_append, if_neg (List.ne_nil_of_mem h)]
  exact List.mem_append_left _ h

theorem of_mem_sinceUpdate_append (h : x ∈ sinceUpdate p key (log ++ l)) :
    x ∈ sinceUpdate p key log ∨ x ∈ l := by
  rw [sinceUpdate_append] at h
  split_ifs at h with hnil
  · exact .inr (mem_of_mem_sinceUpdate h)
  · exact List.mem_append.1 h

/-- Once the call has written, what is executed last has been executed since. -/
theorem last_mem_sinceUpdate (h : sinceUpdate p key (log ++ [x]) ≠ []) :
    x ∈ sinceUpdate p key (log ++ [x]) := by
  rw [sinceUpdate_append] at h ⊢
  split_ifs at h ⊢ with hnil
  · obtain ⟨y, hy⟩ := List.exists_mem_of_ne_nil _ h
    rwa [List.mem_singleton.1 (mem_of_mem_sinceUpdate hy)] at hy
  · simp

theorem Deleted.append (h : Deleted p key log) : Deleted p key (log ++ l) := by
  obtain ⟨deleted, hdeleted⟩ := h
  exact ⟨deleted, mem_sinceUpdate_append hdeleted⟩

theorem Deleted.of_append (h : Deleted p key (log ++ l)) (hl : ∀ deleted, .del p deleted ∉ l) :
    Deleted p key log := by
  obtain ⟨deleted, hmem⟩ := h
  rcases of_mem_sinceUpdate_append hmem with hmem | hmem
  · exact ⟨deleted, hmem⟩
  · exact absurd hmem (hl deleted)

theorem Deleted.wrote (h : Deleted p key log) : sinceUpdate p key log ≠ [] := by
  obtain ⟨deleted, hdeleted⟩ := h
  exact List.ne_nil_of_mem hdeleted

theorem WrittenSince.append {status : EventStatus} (h : WrittenSince p key log status) :
    WrittenSince p key (log ++ l) status := by
  obtain ⟨t, ht⟩ := h
  exact ⟨t, mem_sinceUpdate_append ht⟩

end Since

/-- The load of a GET is over: its promise has settled, or without one the event is cached. -/
def LoadOver (t : τ) (coalescing : Bool) (id : String) (log : List (CatalogStep τ)) : Prop :=
  if coalescing then .settle t ∈ log else .set t (getCacheKey id) ∈ log

variable (requests) in
/-- The load read the row before the UPDATE, and is not over. -/
def BehindUpdate (p : τ) (id key : String) (log : List (CatalogStep τ)) (t : τ) : Prop :=
  ∃ inst coalescing, requests t = .get inst coalescing id ∧ .selectEvent t key ∈ log
    ∧ .selectEvent t key ∉ sinceUpdate p key log ∧ ¬ LoadOver t coalescing id log

variable (requests) in
/-- The step is the DEL of a PATCH that has written. It leaves an older event in the cache, as it
deletes another spelling of the id, or it meets a load that is behind. -/
def LeavesStale (p : τ) (id key : String) (s : Taken τ (CatalogWorld τ ι)) : Prop :=
  ∃ deleted, s.after.log = s.before.log ++ [.del p deleted]
    ∧ (∃ status, .updateStatus p key status ∈ s.before.log)
    ∧ ((deleted ≠ getCacheKey id ∧ ∃ dto, s.before.cache (getCacheKey id) = some dto
        ∧ ¬ WrittenSince p key s.before.log dto.status)
      ∨ ∃ t, BehindUpdate requests p id key s.before.log t)

theorem getCacheKey_inj {id id' : String} (h : getCacheKey id = getCacheKey id') : id = id' := by
  have h' := congrArg String.toList h
  simp only [getCacheKey, String.toList_append, List.append_cancel_left_eq] at h'
  exact String.toList_injective h'

/-! ## What the requests know -/

variable (toUpperCase) in
/-- The row shows what has been written since, and is read. -/
structure FreshRow (ttRows : List TicketTypeRow) (p : τ) (key : String)
    (log : List (CatalogStep τ)) (row : EventRow) : Prop where
  isTarget : row.status.IsTarget
  written : WrittenSince p key log row.status
  read : ∃ event, readEvent toUpperCase ttRows key row = .ok event

variable (toUpperCase) in
/-- What the load has shows what has been written since. -/
def LoadStage.Fresh (ttRows : List TicketTypeRow) (p : τ) (key : String)
    (log : List (CatalogStep τ)) : LoadStage → Prop
  | .select => True
  | .tickets row event =>
    createEvent key row = .ok event ∧ FreshRow toUpperCase ttRows p key log row
  | .set dto => WrittenSince p key log dto.status
  | .settle r => ∃ dto, r = .ok (some dto) ∧ WrittenSince p key log dto.status

section Fresh

omit [DecidableEq ι]

variable {ttRows : List TicketTypeRow} {p : τ} {key : String} {log l : List (CatalogStep τ)}

theorem FreshRow.append {row : EventRow} (h : FreshRow toUpperCase ttRows p key log row) :
    FreshRow toUpperCase ttRows p key (log ++ l) row :=
  ⟨h.isTarget, h.written.append, h.read⟩

theorem LoadStage.Fresh.append {stage : LoadStage}
    (h : stage.Fresh toUpperCase ttRows p key log) :
    stage.Fresh toUpperCase ttRows p key (log ++ l) := by
  rcases stage with _ | ⟨row, event⟩ | dto | r
  · trivial
  · exact ⟨h.1, h.2.append⟩
  · exact WrittenSince.append h
  · obtain ⟨dto, hr, hwritten⟩ := h
    exact ⟨dto, hr, hwritten.append⟩

end Fresh

variable (uuid toUpperCase requests) in
/-- What is known of a request from where it is. Once the PATCH has written it deletes its key
before it ends. A load that read the row since the UPDATE has what was written since, and since the
DEL every load has. -/
structure Fits (w₀ : CatalogWorld τ ι) (p : τ) (id key : String) (log : List (CatalogStep τ))
    (t : τ) (phase : RequestPhase τ) : Prop where
  knows : ∀ {i status update}, requests t = .patch i status → phase = .patching update →
    ∃ j, update.Knows uuid toUpperCase j (fun _ => i) (fun _ => status.getD "") w₀ t
  deletes : t = p → sinceUpdate p key log ≠ [] →
    (∃ dto, phase = .deleting dto) ∨ (∃ r, phase = .ended r) ∧ Deleted p key log
  coalesces : ∀ {inst coalescing}, requests t = .get inst coalescing id → phase = .missed →
    coalescing = true
  finished : ∀ {inst coalescing}, requests t = .get inst coalescing id →
    LoadOver t coalescing id log → ∃ r, phase = .ended r
  selected : ∀ {inst coalescing stage}, requests t = .get inst coalescing id →
    phase = .loading stage → stage ≠ .select → .selectEvent t key ∈ log
  fresh : ∀ {inst coalescing stage}, requests t = .get inst coalescing id →
    phase = .loading stage → .selectEvent t key ∈ sinceUpdate p key log ∨ Deleted p key log →
    stage.Fresh toUpperCase (w₀.ticketTypesOf key) p key log

section Fits

variable {w₀ : CatalogWorld τ ι} {p t : τ} {id key : String} {log l : List (CatalogStep τ)}
  {phase : RequestPhase τ}

omit [DecidableEq ι] [DecidableEq τ] in
theorem LoadOver.of_append {coalescing : Bool} (h : LoadOver t coalescing id (log ++ l))
    (hset : coalescing = false → .set t (getCacheKey id) ∉ l) (hsettle : .settle t ∉ l) :
    LoadOver t coalescing id log := by
  rcases coalescing with _ | _ <;> rcases List.mem_append.1 h with hmem | hmem
  · exact hmem
  · exact absurd hmem (hset rfl)
  · exact hmem
  · exact absurd hmem hsettle

omit [DecidableEq ι] in
/-- What others do leaves it as it is, if no load is behind at the DEL. -/
theorem Fits.append (h : Fits uuid toUpperCase requests w₀ p id key log t phase)
    (hl : ∀ x ∈ l, x.self ≠ t)
    (hdel : ∀ deleted, .del p deleted ∈ l → sinceUpdate p key (log ++ l) ≠ [] →
      ¬ BehindUpdate requests p id key log t) :
    Fits uuid toUpperCase requests w₀ p id key (log ++ l) t phase where
  knows := h.knows
  deletes hp hsince := by
    have hwrote : sinceUpdate p key log ≠ [] :=
      sinceUpdate_ne_nil_of_append hsince fun _ hmem => hl _ hmem hp.symm
    rcases h.deletes hp hwrote with hdeleting | ⟨hended, hdeleted⟩
    · exact .inl hdeleting
    · exact .inr ⟨hended, hdeleted.append⟩
  coalesces := h.coalesces
  finished hget hover := h.finished hget
    (hover.of_append (fun _ hmem => hl _ hmem rfl) fun hmem => hl _ hmem rfl)
  selected hget hphase hstage := List.mem_append_left _ (h.selected hget hphase hstage)
  fresh := by
    intro inst coalescing stage hget hphase hsince
    by_cases hstage : stage = .select
    · rw [hstage]
      trivial
    refine (h.fresh hget hphase ?_).append
    rcases hsince with hmem | ⟨deleted, hmem⟩
    · rcases of_mem_sinceUpdate_append hmem with hmem | hmem
      · exact .inl hmem
      · exact absurd rfl (hl _ hmem)
    · rcases of_mem_sinceUpdate_append hmem with hold | hnew
      · exact .inr ⟨deleted, hold⟩
      · refine .inl (not_not.1 fun hearly => hdel deleted hnew (List.ne_nil_of_mem hmem)
          ⟨inst, coalescing, hget, h.selected hget hphase hstage, hearly, fun hover => ?_⟩)
        obtain ⟨r, hr⟩ := h.finished hget hover
        rw [hphase] at hr
        cases hr

end Fits

/-! ## The tables, the cache and the promises -/

variable (toUpperCase) in
/-- The rows change their status only. Since the UPDATE the row shows what was written since, and
since the DEL the cache does. -/
structure TablesFit (w₀ : CatalogWorld τ ι) (p : τ) (id key : String) (w : CatalogWorld τ ι) :
    Prop where
  tickets : w.ticketTypes = w₀.ticketTypes
  rows : ∀ i, (w.events i).map EventRow.plain = (w₀.events i).map EventRow.plain
  stored : sinceUpdate p key w.log ≠ [] → ∃ row, w.events key = some row
    ∧ FreshRow toUpperCase (w₀.ticketTypesOf key) p key w.log row
  cached : Deleted p key w.log → ∀ dto,
    w.cache (getCacheKey id) = some dto → WrittenSince p key w.log dto.status

section Tables

omit [DecidableEq ι]

variable {w₀ w w' : CatalogWorld τ ι} {p t : τ} {id key : String} {l : List (CatalogStep τ)}

theorem TablesFit.ticketTypesOf (h : TablesFit toUpperCase w₀ p id key w) (i : String) :
    w.ticketTypesOf i = w₀.ticketTypesOf i := by
  rw [CatalogWorld.ticketTypesOf, h.tickets, CatalogWorld.ticketTypesOf]

/-- A step that writes no status, and puts nothing into the cache that is not fresh. -/
theorem TablesFit.step (h : TablesFit toUpperCase w₀ p id key w)
    (htickets : w'.ticketTypes = w.ticketTypes) (hevents : w'.events = w.events)
    (hlog : w'.log = w.log ++ l) (hl : ∀ status, .updateStatus p key status ∉ l)
    (hcached : Deleted p key w'.log → ∀ dto,
      w'.cache (getCacheKey id) = some dto → WrittenSince p key w'.log dto.status) :
    TablesFit toUpperCase w₀ p id key w' where
  tickets := htickets.trans h.tickets
  rows i := by rw [hevents, h.rows]
  stored hsince := by
    rw [hlog] at hsince ⊢
    obtain ⟨row, hrow, hfresh⟩ := h.stored (sinceUpdate_ne_nil_of_append hsince hl)
    exact ⟨row, by rw [hevents, hrow], hfresh.append⟩
  cached := hcached

/-- A step that leaves the cache as it is, but for other keys. -/
theorem TablesFit.quiet (h : TablesFit toUpperCase w₀ p id key w)
    (htickets : w'.ticketTypes = w.ticketTypes) (hevents : w'.events = w.events)
    (hcache : w'.cache (getCacheKey id) = w.cache (getCacheKey id)) (hlog : w'.log = w.log ++ l)
    (hl : ∀ status, .updateStatus p key status ∉ l) (hdel : ∀ deleted, .del p deleted ∉ l) :
    TablesFit toUpperCase w₀ p id key w' := by
  refine h.step htickets hevents hlog hl fun hsince dto hdto => ?_
  rw [hlog] at hsince ⊢
  rw [hcache] at hdto
  exact (h.cached (hsince.of_append hdel) dto hdto).append

/-- An UPDATE of the event or of another. -/
theorem TablesFit.update (h : TablesFit toUpperCase w₀ p id key w) {i : String}
    {ids targets : τ → String} {event : Event}
    (hknows : (UpdatePhase.writing event).Knows uuid toUpperCase i ids targets w₀ t)
    (hw : updateStatus uuid t event w = some (.ok (), w')) :
    TablesFit toUpperCase w₀ p id key w' ∧ w'.log = w.log ++ [.updateStatus t i event.status]
      ∧ w'.inFlight = w.inFlight ∧ w'.settled = w.settled := by
  obtain ⟨hread, row₀, draft, hmoved⟩ := hknows
  have hid : event.id = i := by
    rw [hmoved.event_eq]
    exact (draftEvent_ok hmoved.drafted).2
  have hevent : uuid.read event.id = some i := by
    rw [hid]
    exact uuid.read_read _ _ hread
  rw [updateStatus_of_read hevent] at hw
  cases hw
  refine ⟨⟨h.tickets, fun j => ?_, fun hsince => ?_, fun hsince dto hdto => ?_⟩, rfl, rfl, rfl⟩
  · rcases eq_or_ne j i with rfl | hj
    · simp only [Function.update_self]
      rw [← h.rows, Option.map_map]
      rfl
    · simp only [Function.update_of_ne hj]
      exact h.rows j
  · rcases eq_or_ne i key with rfl | hi
    · obtain ⟨row, hrow, hplain⟩ : ∃ row, w.events i = some row ∧ row.plain = row₀.plain := by
        have hrows := h.rows i
        rw [hmoved.first] at hrows
        simpa using hrows
      simp only [Function.update_self, hrow]
      refine ⟨_, rfl, hmoved.isTarget, ⟨t, last_mem_sinceUpdate hsince⟩, _,
        readEvent_eq_ok.2 ⟨draft, ?_, hmoved.takes, rfl⟩⟩
      rw [← hmoved.drafted]
      exact draftEvent_of_plain hplain
    · have hwrote : sinceUpdate p key w.log ≠ [] :=
        sinceUpdate_ne_nil_of_append hsince fun status hmem => by
          obtain ⟨-, rfl, -⟩ : p = t ∧ key = i ∧ status = event.status := by simpa using hmem
          exact hi rfl
      obtain ⟨row, hrow, hfresh⟩ := h.stored hwrote
      simp only [Function.update_of_ne hi.symm, hrow]
      exact ⟨row, rfl, hfresh.append⟩
  · exact (h.cached (hsince.of_append (by simp)) dto hdto).append

end Tables

variable (requests) in
/-- A promise that is in flight is a load under way, and one that has settled was a load's. -/
structure PromisesFit (id : String) (φ : τ → RequestPhase τ) (w : CatalogWorld τ ι) : Prop where
  inFlight : ∀ inst t, w.inFlight inst (getCacheKey id) = some t →
    requests t = .get inst true id ∧ ∃ stage, φ t = .loading stage
  settled : ∀ t, w.settled t ≠ none → ∃ r, φ t = .ended r

section Promises

variable {w w' : CatalogWorld τ ι} {t : τ} {id : String} {φ : τ → RequestPhase τ}
  {phase : RequestPhase τ}

omit [DecidableEq ι] in
theorem PromisesFit.keep (h : PromisesFit requests id φ w) (hinFlight : w'.inFlight = w.inFlight)
    (hsettled : w'.settled = w.settled) (hended : ∀ r, φ t ≠ .ended r)
    (hloading : ∀ inst stage, requests t = .get inst true id → φ t = .loading stage →
      ∃ stage', phase = .loading stage') :
    PromisesFit requests id (Function.update φ t phase) w' where
  inFlight inst t' ht' := by
    rw [hinFlight] at ht'
    obtain ⟨hget, stage, hstage⟩ := h.inFlight inst t' ht'
    refine ⟨hget, ?_⟩
    rcases eq_or_ne t' t with rfl | hne
    · rw [Function.update_self]
      exact hloading inst stage hget hstage
    · rw [Function.update_of_ne hne]
      exact ⟨stage, hstage⟩
  settled t' ht' := by
    rw [hsettled] at ht'
    obtain ⟨r, hr⟩ := h.settled t' ht'
    have hne : t' ≠ t := by
      rintro rfl
      exact hended r hr
    rw [Function.update_of_ne hne]
    exact ⟨r, hr⟩

end Promises

/-! ## A GET -/

section Own

omit [DecidableEq ι]

variable {w₀ w w' : CatalogWorld τ ι} {p t : τ} {pid id key : String}
  {log : List (CatalogStep τ)} {inst : ι} {coalescing : Bool} {status : Option String}
  {phase phase' : RequestPhase τ}

/-- What is to be known of a GET on the event. -/
theorem Fits.of_get (hp : requests p = .patch pid status)
    (ht : requests t = .get inst coalescing id) (hmissed : phase = .missed → coalescing = true)
    (hover : LoadOver t coalescing id log → ∃ r, phase = .ended r)
    (hload : ∀ stage, phase = .loading stage →
      (stage ≠ .select → .selectEvent t key ∈ log)
        ∧ (.selectEvent t key ∈ sinceUpdate p key log ∨ Deleted p key log →
            stage.Fresh toUpperCase (w₀.ticketTypesOf key) p key log)) :
    Fits uuid toUpperCase requests w₀ p id key log t phase := by
  have heq : ∀ {inst' coalescing'}, requests t = .get inst' coalescing' id →
      coalescing' = coalescing := by
    intro inst' coalescing' hget
    rw [ht] at hget
    cases hget
    rfl
  refine ⟨fun hpatch => ?_, fun htp => ?_, fun hget hphase => ?_, fun hget h => ?_,
    fun _ hphase => (hload _ hphase).1, fun _ hphase => (hload _ hphase).2⟩
  · rw [ht] at hpatch
    cases hpatch
  · rw [← htp, ht] at hp
    cases hp
  · rw [heq hget]
    exact hmissed hphase
  · rw [heq hget] at h
    exact hover h

/-- Nothing is to be known of a GET that has ended, or of one that spells its id otherwise. -/
theorem Fits.of_ended (hp : requests p = .patch pid status)
    (ht : requests t = .get inst coalescing id) {r : Except CatalogError EventResponse} :
    Fits uuid toUpperCase requests w₀ p id key log t (.ended r) :=
  .of_get hp ht (fun h => by cases h) (fun _ => ⟨r, rfl⟩) fun _ h => by cases h

theorem Fits.of_other (hp : requests p = .patch pid status) {i : String} (hi : i ≠ id)
    (ht : requests t = .get inst coalescing i) :
    Fits uuid toUpperCase requests w₀ p id key log t phase := by
  have hne : ∀ {inst' coalescing'}, requests t ≠ .get inst' coalescing' id := by
    intro inst' coalescing' hget
    rw [ht] at hget
    cases hget
    exact hi rfl
  refine ⟨fun hpatch => ?_, fun htp => ?_, fun hget => absurd hget hne,
    fun hget => absurd hget hne, fun hget => absurd hget hne, fun hget => absurd hget hne⟩
  · rw [ht] at hpatch
    cases hpatch
  · rw [← htp, ht] at hp
    cases hp

theorem createEvent_of_read {ttRows : List TicketTypeRow} {row : EventRow} {event : Event}
    (h : readEvent toUpperCase ttRows key row = .ok event) :
    ∃ created, createEvent key row = .ok created := by
  simp only [readEvent, draftEvent, bind, Except.bind] at h
  rcases hcreate : createEvent key row with e | created
  · rw [hcreate] at h
    cases h
  · exact ⟨created, rfl⟩

theorem FreshRow.written_of_read {ttRows : List TicketTypeRow} {row : EventRow} {event : Event}
    (h : FreshRow toUpperCase ttRows p key log row)
    (hread : readEvent toUpperCase ttRows key row = .ok event) :
    WrittenSince p key log event.toDTO.status := by
  obtain ⟨draft, -, -, rfl⟩ := readEvent_eq_ok.1 hread
  have hstatus : row.status.readBack = row.status := h.isTarget.readBack
  simp only [Event.toDTO, hstatus]
  exact h.written

/-- Since the UPDATE a load reads what was written since. -/
theorem TablesFit.ofRow (h : TablesFit toUpperCase w₀ p id key w) (coalescing : Bool)
    (hsince : sinceUpdate p key w.log ≠ []) : ∃ row event,
      RequestPhase.ofRow (τ := τ) coalescing id ((w.events key).map (key, ·))
          = .loading (.tickets row event)
        ∧ createEvent key row = .ok event
        ∧ FreshRow toUpperCase (w₀.ticketTypesOf key) p key w.log row := by
  obtain ⟨row, hrow, hfresh⟩ := h.stored hsince
  obtain ⟨event', hread⟩ := hfresh.read
  obtain ⟨event, hcreate⟩ := createEvent_of_read hread
  refine ⟨row, event, ?_, hcreate, hfresh⟩
  simp only [hrow, Option.map_some, RequestPhase.ofRow, hcreate]

/-- A load that has a fresh row goes on to a fresh event. -/
theorem TablesFit.found (h : TablesFit toUpperCase w₀ p id key w) (coalescing : Bool)
    {row : EventRow} {event : Event} (hcreate : createEvent key row = .ok event)
    (hfresh : FreshRow toUpperCase (w₀.ticketTypesOf key) p key w.log row) : ∃ dto,
      RequestPhase.found (τ := τ) coalescing id
          ((addTicketTypes toUpperCase (w.ticketTypesOf key) event >>= applyStatus row.status).map
            fun event => some event.toDTO) = .loading (.set dto)
        ∧ WrittenSince p key w.log dto.status := by
  obtain ⟨event', hread⟩ := hfresh.read
  refine ⟨event'.toDTO, ?_, hfresh.written_of_read hread⟩
  rw [h.ticketTypesOf, ← readEvent_of_create hcreate, hread]
  rfl

end Own

/-! ## A PATCH -/

section Patch

omit [DecidableEq ι]

variable {w₀ w w' : CatalogWorld τ ι} {p t : τ} {id key i : String} {log : List (CatalogStep τ)}
  {target : Option String} {phase : RequestPhase τ}

/-- What is to be known of a PATCH. -/
theorem Fits.of_patch (ht : requests t = .patch i target)
    (hknows : ∀ update, phase = .patching update →
      ∃ j, update.Knows uuid toUpperCase j (fun _ => i) (fun _ => target.getD "") w₀ t)
    (hdeletes : t = p → sinceUpdate p key log ≠ [] →
      (∃ dto, phase = .deleting dto) ∨ (∃ r, phase = .ended r) ∧ Deleted p key log) :
    Fits uuid toUpperCase requests w₀ p id key log t phase := by
  have hne : ∀ {inst coalescing}, requests t ≠ .get inst coalescing id := by
    intro inst coalescing hget
    rw [ht] at hget
    cases hget
  refine ⟨fun hpatch => ?_, hdeletes, fun hget => absurd hget hne, fun hget => absurd hget hne,
    fun hget => absurd hget hne, fun hget => absurd hget hne⟩
  rw [ht] at hpatch
  cases hpatch
  exact hknows _

/-- A PATCH that is in its use case has not written. -/
theorem Fits.not_written {update : UpdatePhase}
    (h : Fits uuid toUpperCase requests w₀ p id key log t (.patching update)) (htp : t = p) :
    sinceUpdate p key log = [] := by
  by_contra hsince
  rcases h.deletes htp hsince with ⟨dto, hdto⟩ | ⟨⟨r, hr⟩, -⟩
  · cases hdto
  · cases hr

/-- A step of the use case in a PATCH keeps what is known of it, and writes a status or leaves the
tables as they are. -/
theorem Fits.update_move (hT : TablesFit toUpperCase w₀ p id key w)
    (ht : requests t = .patch i target)
    {update update' : UpdatePhase}
    (h : Fits uuid toUpperCase requests w₀ p id key w.log t (.patching update))
    (hm : (updateCalls uuid toUpperCase (fun _ => i) fun _ => target.getD "").move t update w
      = some (w', update')) :
    TablesFit toUpperCase w₀ p id key w'
      ∧ Fits uuid toUpperCase requests w₀ p id key w'.log t (.ofUpdate i update')
      ∧ w'.inFlight = w.inFlight ∧ w'.settled = w.settled
      ∧ ∃ l, w'.log = w.log ++ l ∧ ∀ x ∈ l, x.self = t ∧ ∀ key, x ≠ .del p key := by
  have hsilent : ∀ {log'}, log' = w.log ++ [] → ∃ l, log' = w.log ++ l
      ∧ ∀ x ∈ l, x.self = t ∧ ∀ deleted, x ≠ .del p deleted := by
    rintro _ rfl
    exact ⟨[], rfl, by simp⟩
  obtain ⟨j, hknows⟩ := h.knows ht rfl
  obtain ⟨rfl, rfl, -⟩ | ⟨key', hkey', rfl, rfl, rfl⟩ | ⟨key', row, event, hkey', rfl, rfl, rfl⟩ |
    ⟨event, rfl, hw, rfl⟩ := updateCalls_move hm
  · refine ⟨hT, ?_, rfl, rfl, hsilent (by simp)⟩
    exact .of_patch ht (fun _ hupdate => by cases hupdate) fun htp hsince =>
      absurd (h.not_written htp) hsince
  · refine ⟨hT.quiet (l := [.selectEvent t key']) rfl rfl rfl rfl (by simp) (by simp), ?_, rfl, rfl,
      _, rfl, by simp [CatalogStep.self]⟩
    refine .of_patch ht (fun update hupdate => ?_) fun htp hsince => ?_
    · obtain rfl := RequestPhase.ofUpdate_eq_patching hupdate
      refine ⟨key', ?_⟩
      rcases UpdatePhase.ofRow_cases key' (w.events key') with ⟨-, hrow⟩ | ⟨_, _, -, hrow⟩ |
        ⟨row, event, hsome, hcreate, hrow⟩ <;> rw [hrow]
      · exact hkey'
      · trivial
      · refine ⟨hkey', hcreate, ?_⟩
        rw [← hT.rows, hsome]
        rfl
    · exact absurd (h.not_written htp) (sinceUpdate_ne_nil_of_append hsince (by simp))
  · refine ⟨hT, ?_, rfl, rfl, hsilent (by simp)⟩
    refine .of_patch ht (fun update hupdate => ?_) fun htp hsince =>
      absurd (h.not_written htp) hsince
    obtain rfl := RequestPhase.ofUpdate_eq_patching hupdate
    obtain rfl := Option.some.inj (hkey'.symm.trans hknows.1)
    refine ⟨key', ?_⟩
    rw [hT.ticketTypesOf]
    rcases UpdatePhase.found_cases (target.getD "") ((addTicketTypes toUpperCase
      (w₀.ticketTypesOf key') event >>= applyStatus row.status).map some) with ⟨event', hfound⟩ |
      ⟨a, hfound⟩
    · obtain ⟨row₀, draft, hmoved, -⟩ := hknows.hasMoved hfound
      rw [hfound]
      exact ⟨hkey', row₀, draft, hmoved⟩
    · rw [hfound]
      rcases a with e | r
      · trivial
      · exact hkey'
  · obtain ⟨hT', hlog, hinFlight, hsettled⟩ := hT.update hknows hw
    refine ⟨hT', ?_, hinFlight, hsettled, _, hlog, by simp [CatalogStep.self]⟩
    exact .of_patch ht (fun _ hupdate => by cases hupdate) fun _ _ => .inl ⟨_, rfl⟩

end Patch

/-! ## A step -/

section Step

variable {w₀ w w' : CatalogWorld τ ι} {p t : τ} {pid id key i : String} {inst : ι}
  {coalescing : Bool} {status : Option String} {φ : τ → RequestPhase τ}
  {phase phase' : RequestPhase τ}

/-- A step of a GET on the event keeps what is known of it. -/
theorem Fits.get_move (hp : requests p = .patch pid status) (hkey : uuid.read id = some key)
    (hT : TablesFit toUpperCase w₀ p id key w) (ht : requests t = .get inst coalescing id)
    (h : Fits uuid toUpperCase requests w₀ p id key w.log t phase)
    (hm : GetMoves uuid toUpperCase t inst coalescing id w phase w' phase') :
    Fits uuid toUpperCase requests w₀ p id key w'.log t phase' := by
  have hover : (∀ r, phase ≠ .ended r) → ¬ LoadOver t coalescing id w.log := by
    intro hphase hover
    obtain ⟨r, hr⟩ := h.finished ht hover
    exact hphase r hr
  cases hm with
  | hit hcache => exact .of_ended hp ht
  | miss =>
    refine .of_get hp ht (fun hphase => ?_) (fun hloaded => absurd hloaded (hover (by simp)))
      fun stage hstage => ?_
    · by_contra hne
      simp [hne] at hphase
    · split_ifs at hstage
      cases hstage
      exact ⟨fun hne => absurd rfl hne, fun _ => trivial⟩
  | join hinFlight =>
    exact .of_get hp ht (fun hphase => by cases hphase)
      (fun hloaded => absurd hloaded (hover (by simp))) fun stage hstage => by cases hstage
  | lead =>
    refine .of_get hp ht (fun hphase => by cases hphase)
      (fun hloaded => absurd hloaded (hover (by simp))) fun stage hstage => ?_
    cases hstage
    exact ⟨fun hne => absurd rfl hne, fun _ => trivial⟩
  | await hsettled => exact .of_ended hp ht
  | select hkey' =>
    obtain rfl := Option.some.inj (hkey'.symm.trans hkey)
    refine .of_get hp ht (fun hphase => absurd hphase (RequestPhase.ofRow_ne_missed _ _ _))
      (fun hloaded => absurd (hloaded.of_append (by simp) (by simp)) (hover (by simp)))
      fun stage hstage => ⟨fun _ => by simp, fun hsince => ?_⟩
    have hwrote := sinceUpdate_ne_nil_of_append
      (hsince.elim List.ne_nil_of_mem Deleted.wrote) (by simp)
    obtain ⟨row, event, hrow, hcreate, hfresh⟩ := hT.ofRow coalescing hwrote
    rw [hrow] at hstage
    cases hstage
    exact ⟨hcreate, hfresh.append⟩
  | tickets hkey' =>
    obtain rfl := Option.some.inj (hkey'.symm.trans hkey)
    refine .of_get hp ht (fun hphase => absurd hphase (RequestPhase.found_ne_missed _ _ _))
      (fun hloaded => absurd hloaded (hover (by simp)))
      fun stage hstage => ⟨fun _ => h.selected ht rfl (by simp), fun hsince => ?_⟩
    obtain ⟨hcreate, hfresh⟩ := h.fresh ht rfl hsince
    obtain ⟨dto, hfound, hwritten⟩ := hT.found coalescing hcreate hfresh
    rw [hfound] at hstage
    cases hstage
    exact hwritten
  | refused hkey' =>
    rw [hkey] at hkey'
    cases hkey'
  | @set dto =>
    have hstage : ∀ stage, RequestPhase.loaded (τ := τ) coalescing id (.ok (some dto))
        = .loading stage → stage = .settle (.ok (some dto)) := by
      intro stage hstage
      rcases coalescing with _ | _ <;> cases hstage
      rfl
    refine .of_get hp ht (fun hphase => absurd hphase (RequestPhase.loaded_ne_missed _ _ _))
      (fun hloaded => ?_) fun stage hphase => ?_
    · rcases coalescing with _ | _
      · exact ⟨_, rfl⟩
      · exact absurd (hloaded.of_append (by simp) (by simp)) (hover (by simp))
    · obtain rfl := hstage stage hphase
      refine ⟨fun _ => List.mem_append_left _ (h.selected ht rfl (by simp)), fun hsince => ?_⟩
      have hbefore : .selectEvent t key ∈ sinceUpdate p key w.log ∨ Deleted p key w.log :=
        hsince.imp (fun hmem => by simpa using of_mem_sinceUpdate_append hmem)
          fun hdeleted => hdeleted.of_append (by simp)
      exact ⟨dto, rfl, WrittenSince.append (h.fresh ht rfl hbefore)⟩
  | settle => exact .of_ended hp ht

/-- A GET executes statements of its own, and writes no status. -/
theorem GetMoves.log_eq (hm : GetMoves uuid toUpperCase t inst coalescing i w phase w' phase') :
    ∃ l, w'.log = w.log ++ l ∧ (∀ x ∈ l, x.self = t)
      ∧ (∀ t' j status, .updateStatus t' j status ∉ l) ∧ ∀ t' key, .del t' key ∉ l := by
  cases hm with
  | select => exact ⟨_, rfl, by simp [CatalogStep.self], by simp, by simp⟩
  | set => exact ⟨_, rfl, by simp [CatalogStep.self], by simp, by simp⟩
  | settle => exact ⟨_, rfl, by simp [CatalogStep.self], by simp, by simp⟩
  | _ => exact ⟨[], by simp, by simp, by simp, by simp⟩

theorem TablesFit.get_move (h : TablesFit toUpperCase w₀ p id key w)
    (ht : requests t = .get inst coalescing i)
    (hfits : Fits uuid toUpperCase requests w₀ p id key w.log t phase)
    (hm : GetMoves uuid toUpperCase t inst coalescing i w phase w' phase') :
    TablesFit toUpperCase w₀ p id key w' := by
  obtain ⟨l, hlog, -, hupdate, hdel⟩ := hm.log_eq
  cases hm with
  | @set dto =>
    rcases eq_or_ne i id with rfl | hi
    · refine h.step rfl rfl hlog (fun status => hupdate p key status) fun hsince dto' hdto => ?_
      simp only [Function.update_self, Option.some.injEq] at hdto
      subst hdto
      exact WrittenSince.append (hfits.fresh ht rfl (.inr (hsince.of_append (by simp))))
    · refine h.quiet rfl rfl ?_ hlog (fun status => hupdate p key status) (hdel p)
      exact Function.update_of_ne (fun hkey => hi (getCacheKey_inj hkey).symm) _ _
  | _ => exact h.quiet rfl rfl rfl hlog (fun status => hupdate p key status) (hdel p)

omit [DecidableEq τ] in
/-- A coalescer's promises, with one of them put or taken away. -/
theorem inFlight_update {inFlight : ι → String → Option τ} {inst' : ι} {v : Option τ} {t' : τ}
    (h : Function.update inFlight inst (Function.update (inFlight inst) (getCacheKey i) v) inst'
      (getCacheKey id) = some t') :
    inst' = inst ∧ i = id ∧ v = some t'
      ∨ inFlight inst' (getCacheKey id) = some t' ∧ ¬ (inst' = inst ∧ i = id) := by
  rcases eq_or_ne inst' inst with rfl | hinst
  · rw [Function.update_self] at h
    rcases eq_or_ne i id with rfl | hi
    · rw [Function.update_self] at h
      exact .inl ⟨rfl, rfl, h⟩
    · rw [Function.update_of_ne fun hkey => hi (getCacheKey_inj hkey).symm] at h
      exact .inr ⟨h, fun hand => hi hand.2⟩
  · rw [Function.update_of_ne hinst] at h
    exact .inr ⟨h, fun hand => hinst hand.1⟩

theorem PromisesFit.get_move (h : PromisesFit requests id φ w)
    (ht : requests t = .get inst coalescing i) (hphase : φ t = phase)
    (hfits : Fits uuid toUpperCase requests w₀ p id key w.log t phase)
    (hm : GetMoves uuid toUpperCase t inst coalescing i w phase w' phase') :
    PromisesFit requests id (Function.update φ t phase') w' := by
  -- a coalesced load stays a load until it settles
  have hcoalescing : ∀ {inst'}, requests t = .get inst' true id → coalescing = true := by
    intro inst' hget
    rw [ht] at hget
    cases hget
    rfl
  cases hm with
  | hit | miss | join | await =>
    exact h.keep rfl rfl (by simp [hphase]) fun _ _ _ hstage => by simp [hphase] at hstage
  | select =>
    refine h.keep rfl rfl (by simp [hphase]) fun _ _ hget _ => ?_
    rw [hcoalescing hget]
    exact RequestPhase.ofRow_true _ _
  | refused =>
    refine h.keep rfl rfl (by simp [hphase]) fun _ _ hget _ => ?_
    rw [hcoalescing hget]
    exact ⟨_, rfl⟩
  | tickets =>
    refine h.keep rfl rfl (by simp [hphase]) fun _ _ hget _ => ?_
    rw [hcoalescing hget]
    exact RequestPhase.found_true _ _
  | set =>
    refine h.keep rfl rfl (by simp [hphase]) fun _ _ hget _ => ?_
    rw [hcoalescing hget]
    exact ⟨_, rfl⟩
  | lead =>
    refine ⟨fun inst' t' hinFlight => ?_, fun t' hsettled => ?_⟩
    · rcases inFlight_update hinFlight with ⟨rfl, rfl, ht'⟩ | ⟨hold, -⟩
      · obtain rfl := Option.some.inj ht'
        rw [Function.update_self, ht, hfits.coalesces ht rfl]
        exact ⟨rfl, _, rfl⟩
      · obtain ⟨hget, stage, hstage⟩ := h.inFlight inst' t' hold
        have hne : t' ≠ t := ne_of_apply_ne φ (by simp [hstage, hphase])
        rw [Function.update_of_ne hne]
        exact ⟨hget, stage, hstage⟩
    · obtain ⟨r, hr⟩ := h.settled t' hsettled
      have hne : t' ≠ t := ne_of_apply_ne φ (by simp [hr, hphase])
      rw [Function.update_of_ne hne]
      exact ⟨r, hr⟩
  | settle =>
    refine ⟨fun inst' t' hinFlight => ?_, fun t' hsettled => ?_⟩
    · rcases inFlight_update hinFlight with ⟨-, -, ht'⟩ | ⟨hold, hother⟩
      · cases ht'
      · obtain ⟨hget, stage, hstage⟩ := h.inFlight inst' t' hold
        have hne : t' ≠ t := by
          rintro rfl
          rw [ht] at hget
          cases hget
          exact hother ⟨rfl, rfl⟩
        rw [Function.update_of_ne hne]
        exact ⟨hget, stage, hstage⟩
    · rcases eq_or_ne t' t with rfl | hne
      · rw [Function.update_self]
        exact ⟨_, rfl⟩
      · simp only [Function.update_of_ne hne] at hsettled ⊢
        exact h.settled t' hsettled

variable (uuid toUpperCase requests) in
structure FreshInv (w₀ : CatalogWorld τ ι) (p : τ) (id key : String) (φ : τ → RequestPhase τ)
    (w : CatalogWorld τ ι) : Prop where
  tables : TablesFit toUpperCase w₀ p id key w
  promises : PromisesFit requests id φ w
  fits : ∀ t, Fits uuid toUpperCase requests w₀ p id key w.log t (φ t)

omit [DecidableEq ι] in
theorem FreshInv.fits_update (hI : FreshInv uuid toUpperCase requests w₀ p id key φ w)
    {l : List (CatalogStep τ)} (hlog : w'.log = w.log ++ l) (hself : ∀ x ∈ l, x.self = t)
    (hdel : ∀ deleted, .del p deleted ∈ l → sinceUpdate p key (w.log ++ l) ≠ [] →
      ∀ t', ¬ BehindUpdate requests p id key w.log t')
    (hown : Fits uuid toUpperCase requests w₀ p id key w'.log t phase) (t' : τ) :
    Fits uuid toUpperCase requests w₀ p id key w'.log t' (Function.update φ t phase t') := by
  rcases eq_or_ne t' t with rfl | hne
  · rwa [Function.update_self]
  · rw [Function.update_of_ne hne, hlog]
    exact (hI.fits t').append (fun x hx hxt => hne (hxt.symm.trans (hself x hx)))
      fun deleted hmem hsince => hdel deleted hmem hsince t'

theorem FreshInv.get_move (hp : requests p = .patch pid status) (hkey : uuid.read id = some key)
    (hI : FreshInv uuid toUpperCase requests w₀ p id key φ w)
    (ht : requests t = .get inst coalescing i)
    (hm : GetMoves uuid toUpperCase t inst coalescing i w (φ t) w' phase) :
    FreshInv uuid toUpperCase requests w₀ p id key (Function.update φ t phase) w' := by
  obtain ⟨l, hlog, hself, -, hdel⟩ := hm.log_eq
  refine ⟨hI.tables.get_move ht (hI.fits t) hm, hI.promises.get_move ht rfl (hI.fits t) hm,
    hI.fits_update hlog hself (fun deleted hmem => absurd hmem (hdel p deleted)) ?_⟩
  rcases eq_or_ne i id with rfl | hi
  · exact (hI.fits t).get_move hp hkey hI.tables ht hm
  · exact .of_other hp hi ht

omit [DecidableEq ι] in
/-- The DEL of a PATCH, of this spelling or of another. -/
theorem FreshInv.del (hI : FreshInv uuid toUpperCase requests w₀ p id key φ w)
    {target : Option String} (ht : requests t = .patch i target) {dto : EventResponseDTO}
    (hphase : φ t = .deleting dto) {r : Except CatalogError EventResponse}
    (hw' : w' = { w with
      cache := Function.update w.cache (getCacheKey i) none
      log := w.log ++ [.del t (getCacheKey i)] })
    (hgood : ¬ LeavesStale requests p id key ⟨t, w, w'⟩) :
    FreshInv uuid toUpperCase requests w₀ p id key (Function.update φ t (.ended r)) w' := by
  subst hw'
  have hwrote : ∀ status', .updateStatus p key status' ∉ [CatalogStep.del t (getCacheKey i)] := by
    simp
  refine ⟨?_, hI.promises.keep rfl rfl (by simp [hphase]) fun _ _ _ hstage => ?_,
    hI.fits_update rfl (by simp [CatalogStep.self]) (fun deleted hmem hsince t' hbehind => ?_) ?_⟩
  · refine hI.tables.step rfl rfl rfl hwrote fun hdeleted dto' hdto => ?_
    rcases eq_or_ne i id with rfl | hi
    · simp at hdto
    have hne : getCacheKey i ≠ getCacheKey id := fun hkey => hi (getCacheKey_inj hkey)
    simp only [Function.update_of_ne hne.symm] at hdto
    obtain ⟨deleted, hmem⟩ := hdeleted
    rcases of_mem_sinceUpdate_append hmem with hold | hnew
    · exact (hI.tables.cached ⟨deleted, hold⟩ dto' hdto).append
    · obtain ⟨rfl, -⟩ : p = t ∧ deleted = getCacheKey i := by simpa using hnew
      have hbefore := sinceUpdate_ne_nil_of_append (List.ne_nil_of_mem hmem) hwrote
      refine WrittenSince.append (not_not.1 fun hstale => hgood ⟨getCacheKey i, rfl,
        sinceUpdate_ne_nil.1 hbefore, .inl ⟨hne, dto', hdto, hstale⟩⟩)
  · rw [hphase] at hstage
    cases hstage
  · obtain ⟨rfl, -⟩ : p = t ∧ deleted = getCacheKey i := by simpa using hmem
    have hbefore := sinceUpdate_ne_nil_of_append hsince hwrote
    exact hgood ⟨getCacheKey i, rfl, sinceUpdate_ne_nil.1 hbefore, .inr ⟨t', hbehind⟩⟩
  · refine .of_patch ht (fun _ hupdate => by cases hupdate) fun htp hsince => ?_
    subst htp
    exact .inr ⟨⟨r, rfl⟩, _, last_mem_sinceUpdate hsince⟩

/-- One step of the requests, which leaves nothing stale, keeps what is known. -/
theorem FreshInv.move (hp : requests p = .patch pid status) (hkey : uuid.read id = some key)
    (hI : FreshInv uuid toUpperCase requests w₀ p id key φ w)
    (hm : (requestCalls uuid toUpperCase requests).move t (φ t) w = some (w', phase))
    (hgood : ¬ LeavesStale requests p id key ⟨t, w, w'⟩) :
    FreshInv uuid toUpperCase requests w₀ p id key (Function.update φ t phase) w' := by
  rcases ht : requests t with ⟨inst, coalescing, i⟩ | ⟨i, target⟩ <;>
    simp only [requestCalls, ht] at hm
  · exact hI.get_move hp hkey ht (getMoves hm)
  · obtain ⟨update, update', hphase, rfl, hupdate⟩ | ⟨dto, hphase, rfl, hw'⟩ := patchMoves hm
    · have hfits := hI.fits t
      rw [hphase] at hfits
      obtain ⟨htables, hown, hinFlight, hsettled, l, hlog, hl⟩ :=
        hfits.update_move hI.tables ht hupdate
      refine ⟨htables,
        hI.promises.keep hinFlight hsettled (by simp [hphase]) fun _ _ _ hstage => ?_,
        hI.fits_update hlog (fun x hx => (hl x hx).1) (fun deleted hmem => ?_) hown⟩
      · rw [hphase] at hstage
        cases hstage
      · exact absurd rfl ((hl _ hmem).2 deleted)
    · exact hI.del ht hphase hw' hgood

/-! ## A GET that started later -/

variable (requests) in
/-- A GET that started since the DEL has joined a load that is under way or fresh, or has answered
what was written since. -/
def AnswersFresh (p : τ) (id key : String) (φ : τ → RequestPhase τ) (w : CatalogWorld τ ι) :
    RequestPhase τ → Prop
  | .joined existing => ∃ inst, requests existing = .get inst true id
      ∧ ((∃ stage, φ existing = .loading stage)
        ∨ ∃ dto, w.settled existing = some (.ok (some dto)) ∧ WrittenSince p key w.log dto.status)
  | .ended r => ∃ dto source, r = .ok (.ok dto (some source)) ∧ WrittenSince p key w.log dto.status
  | _ => True

theorem AnswersFresh.own (hkey : uuid.read id = some key)
    (hI : FreshInv uuid toUpperCase requests w₀ p id key φ w)
    (hdel : Deleted p key w.log)
    (h : AnswersFresh requests p id key φ w (φ t)) (ht : requests t = .get inst coalescing id)
    (hphase : φ t = phase) (hm : GetMoves uuid toUpperCase t inst coalescing id w phase w' phase') :
    AnswersFresh requests p id key (Function.update φ t phase') w' phase' := by
  have hfits := hI.fits t
  rw [hphase] at hfits h
  cases hm with
  | @hit dto hcache => exact ⟨dto, .cache, rfl, hI.tables.cached hdel dto hcache⟩
  | miss =>
    split_ifs
    · trivial
    · trivial
  | @join existing hinFlight =>
    obtain ⟨hget, stage, hstage⟩ := hI.promises.inFlight inst existing hinFlight
    have hne : existing ≠ t := ne_of_apply_ne φ (by simp [hstage, hphase])
    exact ⟨inst, hget, .inl ⟨stage, by rwa [Function.update_of_ne hne]⟩⟩
  | lead => trivial
  | @await existing r hsettled =>
    obtain ⟨_, -, ⟨stage, hstage⟩ | ⟨dto, hdto, hwritten⟩⟩ := h
    · obtain ⟨r', hr'⟩ := hI.promises.settled existing (by simp [hsettled])
      rw [hstage] at hr'
      cases hr'
    · obtain rfl := Option.some.inj (hdto.symm.trans hsettled)
      exact ⟨dto, .db, rfl, hwritten⟩
  | select hkey' =>
    obtain rfl := Option.some.inj (hkey'.symm.trans hkey)
    obtain ⟨row, event, hrow, -⟩ := hI.tables.ofRow coalescing hdel.wrote
    rw [hrow]
    trivial
  | refused hkey' =>
    rw [hkey] at hkey'
    cases hkey'
  | tickets hkey' =>
    obtain rfl := Option.some.inj (hkey'.symm.trans hkey)
    obtain ⟨hcreate, hfresh⟩ := hfits.fresh ht rfl (.inr hdel)
    obtain ⟨dto, hfound, -⟩ := hI.tables.found coalescing hcreate hfresh
    rw [hfound]
    trivial
  | @set dto =>
    have hwritten : WrittenSince p key w.log dto.status := hfits.fresh ht rfl (.inr hdel)
    rcases coalescing with _ | _
    · exact ⟨dto, .db, rfl, hwritten.append⟩
    · trivial
  | settle =>
    obtain ⟨dto, rfl, hwritten⟩ := hfits.fresh ht rfl (.inr hdel)
    exact ⟨dto, .db, rfl, hwritten.append⟩

/-- What any step leaves as it is. -/
theorem requestCalls_move
    (hm : (requestCalls uuid toUpperCase requests).move t phase w = some (w', phase')) :
    (∃ l, w'.log = w.log ++ l) ∧ ∀ t', t' ≠ t → w'.settled t' = w.settled t' := by
  rcases ht : requests t with ⟨inst, coalescing, i⟩ | ⟨i, target⟩ <;>
    simp only [requestCalls, ht] at hm
  · obtain ⟨l, hlog, -⟩ := (getMoves hm).log_eq
    refine ⟨⟨l, hlog⟩, fun t' hne => ?_⟩
    cases getMoves hm with
    | settle => exact Function.update_of_ne hne _ _
    | _ => rfl
  · obtain ⟨update, update', -, -, hupdate⟩ | ⟨dto, -, -, rfl⟩ := patchMoves hm
    · obtain ⟨rfl, -⟩ | ⟨_, -, -, rfl, -⟩ | ⟨_, _, _, -, -, rfl, -⟩ | ⟨event, -, hw, -⟩ :=
        updateCalls_move hupdate
      · exact ⟨⟨[], by simp⟩, fun _ _ => rfl⟩
      · exact ⟨⟨_, rfl⟩, fun _ _ => rfl⟩
      · exact ⟨⟨[], by simp⟩, fun _ _ => rfl⟩
      · rcases hread : uuid.read event.id with _ | key'
        · rw [updateStatus_of_none hread] at hw
          cases hw
        · rw [updateStatus_of_read hread] at hw
          cases hw
          exact ⟨⟨_, rfl⟩, fun _ _ => rfl⟩
    · exact ⟨⟨_, rfl⟩, fun _ _ => rfl⟩

theorem AnswersFresh.other (hI : FreshInv uuid toUpperCase requests w₀ p id key φ w)
    (hdel : Deleted p key w.log)
    (h : AnswersFresh requests p id key φ w phase')
    (hm : (requestCalls uuid toUpperCase requests).move t (φ t) w = some (w', phase)) :
    AnswersFresh requests p id key (Function.update φ t phase) w' phase' := by
  obtain ⟨⟨l, hlog⟩, hsettled⟩ := requestCalls_move hm
  cases phase' with
  | joined existing =>
    obtain ⟨inst, hget, hstate⟩ := h
    refine ⟨inst, hget, ?_⟩
    rcases eq_or_ne existing t with rfl | hne
    · -- the load itself goes on, or settles
      simp only [requestCalls, hget] at hm
      have hfits := hI.fits existing
      generalize hphase : φ existing = phase₀ at hfits hm hstate
      rw [Function.update_self]
      cases getMoves hm with
      | hit | miss | join | lead | await =>
        rcases hstate with ⟨stage, hstage⟩ | ⟨dto, hdto, -⟩
        · cases hstage
        · obtain ⟨r, hr⟩ := hI.promises.settled existing (by simp [hdto])
          rw [hphase] at hr
          cases hr
      | select => exact .inl (RequestPhase.ofRow_true _ _)
      | refused => exact .inl ⟨_, rfl⟩
      | tickets => exact .inl (RequestPhase.found_true _ _)
      | set => exact .inl ⟨_, rfl⟩
      | settle =>
        obtain ⟨dto, rfl, hwritten⟩ := hfits.fresh hget rfl (.inr hdel)
        exact .inr ⟨dto, Function.update_self _ _ _, hwritten.append⟩
    · rw [Function.update_of_ne hne, hsettled existing hne, hlog]
      rcases hstate with hloading | ⟨dto, hdto, hwritten⟩
      · exact .inl hloading
      · exact .inr ⟨dto, hdto, hwritten.append⟩
  | ended r =>
    obtain ⟨dto, source, hr, hwritten⟩ := h
    refine ⟨dto, source, hr, ?_⟩
    rw [hlog]
    exact hwritten.append
  | _ => trivial

end Step

/-! ## Runs -/

/-- No request has been served yet. -/
structure CatalogWorld.IsIdle (w : CatalogWorld τ ι) : Prop where
  inFlight : ∀ inst key, w.inFlight inst key = none
  settled : ∀ t, w.settled t = none
  log : w.log = []

variable (uuid toUpperCase requests) in
def catalogRequests (w₀ : CatalogWorld τ ι) :
    Config τ (CatalogWorld τ ι) CatalogError EventResponse :=
  ⟨w₀, fun t => (requests t).run uuid toUpperCase t⟩

section Runs

variable {w₀ w : CatalogWorld τ ι} {p g : τ} {pid id key : String} {status : Option String}
  {h h₁ : List (Taken τ (CatalogWorld τ ι))}

theorem FreshInv.initial (hw₀ : w₀.IsIdle) :
    FreshInv uuid toUpperCase requests w₀ p id key
      (requestCalls uuid toUpperCase requests).start w₀ := by
  have hsince : sinceUpdate p key w₀.log = [] := by
    rw [hw₀.log]
    rfl
  refine ⟨⟨rfl, fun _ => rfl, fun hne => absurd hsince hne,
    fun hdeleted => absurd hsince hdeleted.wrote⟩,
    ⟨fun inst t ht => ?_, fun t ht => absurd (hw₀.settled t) ht⟩, fun t => ?_⟩
  · rw [hw₀.inFlight] at ht
    cases ht
  rcases ht : requests t with ⟨inst, coalescing, i⟩ | ⟨i, target⟩
  · have hstart : (requestCalls uuid toUpperCase requests).start t = .start := by
      simp only [requestCalls, ht, CatalogRequest.start]
    rw [hstart]
    refine ⟨fun _ hphase => ?_, fun _ hne => absurd hsince hne, fun _ hphase => ?_,
      fun _ hover => ?_, fun _ hphase => ?_, fun _ hphase => ?_⟩
    · cases hphase
    · cases hphase
    · rw [hw₀.log] at hover
      unfold LoadOver at hover
      split_ifs at hover <;> cases hover
    · cases hphase
    · cases hphase
  · refine .of_patch ht (fun update hupdate => ?_) fun _ hne => absurd hsince hne
    simp only [requestCalls, ht, CatalogRequest.start] at hupdate
    split at hupdate <;> cases hupdate
    exact ⟨i, trivial⟩

theorem freshInv_of_trace (hw₀ : w₀.IsIdle) (hp : requests p = .patch pid status)
    (hkey : uuid.read id = some key)
    (ht : (requestCalls uuid toUpperCase requests).Trace w₀ h w)
    (hgood : ∀ s ∈ h, ¬ LeavesStale requests p id key s) :
    FreshInv uuid toUpperCase requests w₀ p id key
      ((requestCalls uuid toUpperCase requests).phases h) w := by
  induction ht with
  | nil => exact .initial hw₀
  | snoc _ hm ih =>
    rw [Machine.phases_snoc, Machine.advance_of_move hm]
    exact (ih fun s hs => hgood s (List.mem_append_left _ hs)).move hp hkey hm
      (hgood _ (by simp))

/-- A GET that has taken no step when the PATCH has deleted the key answers what was written since
the UPDATE. -/
theorem answersFresh_of_trace (hw₀ : w₀.IsIdle) (hp : requests p = .patch pid status)
    (hkey : uuid.read id = some key) {inst : ι} {coalescing : Bool}
    (hg : requests g = .get inst coalescing id) {w₁ : CatalogWorld τ ι}
    (ht₁ : (requestCalls uuid toUpperCase requests).Trace w₀ h₁ w₁)
    (hdel : Deleted p key w₁.log) (hsteps : stepsOf g h₁ = [])
    (ht : (requestCalls uuid toUpperCase requests).Trace w₀ h w) (hinitial : h₁ <+: h)
    (hgood : ∀ s ∈ h, ¬ LeavesStale requests p id key s) :
    Deleted p key w.log
      ∧ AnswersFresh requests p id key ((requestCalls uuid toUpperCase requests).phases h) w
        ((requestCalls uuid toUpperCase requests).phases h g) := by
  -- after those steps the GET has yet to start
  have hstart : ∀ w, (requestCalls uuid toUpperCase requests).Trace w₀ h₁ w →
      Deleted p key w.log
        ∧ AnswersFresh requests p id key ((requestCalls uuid toUpperCase requests).phases h₁) w
          ((requestCalls uuid toUpperCase requests).phases h₁ g) := by
    intro w ht
    obtain rfl := ht.world_unique ht₁
    refine ⟨hdel, ?_⟩
    rw [Machine.phases_of_stepsOf_nil hsteps]
    simp only [requestCalls, hg, CatalogRequest.start]
    trivial
  induction ht with
  | nil =>
    obtain rfl := List.prefix_nil.1 hinitial
    exact hstart _ .nil
  | @snoc h w w' t phase ht hm ih =>
    rcases List.prefix_concat_iff.1 hinitial with rfl | hinitial
    · exact hstart _ (.snoc ht hm)
    have hgood' : ∀ s ∈ h, ¬ LeavesStale requests p id key s :=
      fun s hs => hgood s (List.mem_append_left _ hs)
    obtain ⟨hdel', hanswers⟩ := ih hinitial hgood'
    have hI := freshInv_of_trace hw₀ hp hkey ht hgood'
    obtain ⟨⟨l, hlog⟩, -⟩ := requestCalls_move hm
    refine ⟨by rw [hlog]; exact hdel'.append, ?_⟩
    rw [Machine.phases_snoc, Machine.advance_of_move hm]
    rcases eq_or_ne g t with rfl | hne
    · rw [Function.update_self]
      simp only [requestCalls, hg] at hm
      exact hanswers.own hkey hI hdel' hg rfl (getMoves hm)
    · rw [Function.update_of_ne hne]
      exact hanswers.other hI hdel' hm

end Runs

end Requests

section AfterUpdate

variable {τ ι : Type} [DecidableEq τ] [DecidableEq ι]

/-- If the GET starts once the PATCH has written and has responded, it answers with the status that
PATCH wrote, or with one that was written later. -/
def FreshAfter (c₀ : Config τ (CatalogWorld τ ι) CatalogError EventResponse) (p g : τ)
    (key : String) (h : List (Taken τ (CatalogWorld τ ι)))
    (c : Config τ (CatalogWorld τ ι) CatalogError EventResponse) : Prop :=
  ∀ h₁ c₁ r, h₁ <+: h → c₀.Run h₁ c₁ → (c₁.thread p).result.isSome →
    (∃ status, .updateStatus p key status ∈ c₁.world.log) → stepsOf g h₁ = [] →
    (c.thread g).result = some r →
      ∃ dto source, r = .ok (.ok dto (some source)) ∧ WrittenSince p key c.world.log dto.status

/-- A GET of an event is fresh after a PATCH of it in every run in which the PATCH, when it deletes
its key, leaves nothing older in the cache where the GET looks, and no load that read the event
before the UPDATE is still under way there. -/
theorem fresh_unless_left_stale (uuid : UuidReading) (toUpperCase : String → String)
    (requests : τ → CatalogRequest ι) {w₀ : CatalogWorld τ ι} (hw₀ : w₀.IsIdle) {p g : τ}
    {pid : String} {status : Option String} (hp : requests p = .patch pid status) {inst : ι}
    {coalescing : Bool} {id key : String} (hg : requests g = .get inst coalescing id)
    (hkey : uuid.read id = some key) {h : List (Taken τ (CatalogWorld τ ι))}
    {c : Config τ (CatalogWorld τ ι) CatalogError EventResponse}
    (hrun : (catalogRequests uuid toUpperCase requests w₀).Run h c)
    (hgood : ∀ s ∈ h, ¬ LeavesStale requests p id key s) :
    FreshAfter (catalogRequests uuid toUpperCase requests w₀) p g key h c := by
  intro h₁ c₁ r hinitial hrun₁ hended hwrote hsteps hr
  obtain ⟨ht₁, hfollows₁⟩ := Machine.trace_of_follows follows_run hrun₁
  obtain ⟨ht, hfollows⟩ := Machine.trace_of_follows follows_run hrun
  obtain ⟨r₁, hr₁⟩ := Option.isSome_iff_exists.1 hended
  have hI := freshInv_of_trace hw₀ hp hkey ht₁ fun s hs => hgood s (hinitial.subset hs)
  have hdel : Deleted p key c₁.world.log := by
    rcases (hI.fits p).deletes rfl (sinceUpdate_ne_nil.2 hwrote) with ⟨dto, hdto⟩ | ⟨-, hdel⟩
    · rw [(hfollows₁ p).of_result hr₁] at hdto
      cases hdto
    · exact hdel
  obtain ⟨-, hanswers⟩ :=
    answersFresh_of_trace hw₀ hp hkey hg ht₁ hdel hsteps ht hinitial hgood
  rw [(hfollows g).of_result hr] at hanswers
  exact hanswers

end AfterUpdate

/-- Two GETs of a concert, which spell its id so, and a PATCH. -/
def readAndSchedule (text : String) (t : Fin 3) : CatalogRequest Unit :=
  if t = 1 then .patch concertId (some "SCHEDULED") else .get () true text

def sampleReads (text : String) :
    Config (Fin 3) (CatalogWorld (Fin 3) Unit) CatalogError EventResponse :=
  catalogRequests sampleUuid String.toUpper (readAndSchedule text) (sampleCatalog _ _)

theorem isIdle_sampleCatalog : (sampleCatalog (Fin 3) Unit).IsIdle :=
  ⟨fun _ _ => rfl, fun _ => rfl, rfl⟩

theorem readThenSchedule_isSome :
    ((sampleReads concertId).history [0, 0, 0, 0, 0, 0, 1, 1, 1, 1]).isSome := by
  decide +kernel

/-- The PATCH comes after the first load is over. -/
def readThenSchedule : List (Taken (Fin 3) (CatalogWorld (Fin 3) Unit))
    × Config (Fin 3) (CatalogWorld (Fin 3) Unit) CatalogError EventResponse :=
  ((sampleReads concertId).history [0, 0, 0, 0, 0, 0, 1, 1, 1, 1]).get readThenSchedule_isSome

theorem readThenSchedule_run :
    (sampleReads concertId).Run readThenSchedule.1 readThenSchedule.2 :=
  Config.run_of_history _ (Option.eq_some_of_isSome readThenSchedule_isSome)

theorem readThenSchedule_read_isSome :
    (readThenSchedule.2.history [2, 2, 2, 2, 2, 2]).isSome := by
  decide +kernel

/-- What the PATCH executes leaves nothing stale, if its DEL comes once the first load is over and
before the second GET reads. -/
theorem not_leavesStale_readAndSchedule {s : Taken (Fin 3) (CatalogWorld (Fin 3) Unit)}
    (hs : (∀ x ∈ s.after.log.drop s.before.log.length, x.self ≠ 1
        ∨ x = .selectEvent 1 concertId ∨ x = .updateStatus 1 concertId .scheduled)
      ∨ s.after.log = s.before.log ++ [.del 1 (getCacheKey concertId)]
        ∧ .settle 0 ∈ s.before.log ∧ .selectEvent 2 concertId ∉ s.before.log) :
    ¬ LeavesStale (readAndSchedule concertId) 1 concertId concertId s := by
  rintro ⟨deleted, hlog, -, hstale⟩
  rcases hs with hnone | ⟨hdel, hfirst, hsecond⟩
  · simp [hlog, CatalogStep.self] at hnone
  obtain rfl : deleted = getCacheKey concertId := by simpa [hlog] using hdel
  rcases hstale with ⟨hne, -⟩ | ⟨t, inst, coalescing, hget, hselected, -, hover⟩
  · exact hne rfl
  match t, hget with
  | 0, hget =>
    cases hget
    exact hover hfirst
  | 1, hget => cases hget
  | 2, _ => exact hsecond hselected

theorem fresh_readThenSchedule : ∃ h c, (sampleReads concertId).Run h c ∧ ∃ dto source,
    (c.thread 2).result = some (.ok (.ok dto (some source)))
      ∧ WrittenSince 1 concertId c.world.log dto.status := by
  have hrun := readThenSchedule_run.trans
    (Config.run_of_history _ (Option.eq_some_of_isSome readThenSchedule_read_isSome))
  have hsteps : ∀ s ∈ readThenSchedule.1 ++ ((readThenSchedule.2.history [2, 2, 2, 2, 2, 2]).get
        readThenSchedule_read_isSome).1,
      (∀ x ∈ s.after.log.drop s.before.log.length, x.self ≠ 1
        ∨ x = .selectEvent 1 concertId ∨ x = .updateStatus 1 concertId .scheduled)
      ∨ s.after.log = s.before.log ++ [.del 1 (getCacheKey concertId)]
        ∧ .settle 0 ∈ s.before.log ∧ .selectEvent 2 concertId ∉ s.before.log := by
    decide +kernel
  obtain ⟨dto, source, hr, hwritten⟩ := fresh_unless_left_stale sampleUuid String.toUpper
    (readAndSchedule concertId) isIdle_sampleCatalog (p := 1) (g := 2) rfl rfl read_concertId hrun
    (fun s hs => not_leavesStale_readAndSchedule (hsteps s hs)) readThenSchedule.1
    readThenSchedule.2 _ (List.prefix_append _ _) readThenSchedule_run (by decide +kernel)
    ⟨.scheduled, by decide +kernel⟩ (by decide +kernel) rfl
  exact ⟨_, _, hrun, dto, source, congrArg some hr, hwritten⟩

theorem scheduleWhileReading_isSome :
    ((sampleReads concertId).history [0, 0, 0, 0, 1, 1, 1, 1]).isSome := by
  decide +kernel

/-- The PATCH comes between a load's read and its SET. -/
def scheduleWhileReading : List (Taken (Fin 3) (CatalogWorld (Fin 3) Unit))
    × Config (Fin 3) (CatalogWorld (Fin 3) Unit) CatalogError EventResponse :=
  ((sampleReads concertId).history [0, 0, 0, 0, 1, 1, 1, 1]).get scheduleWhileReading_isSome

theorem scheduleWhileReading_run :
    (sampleReads concertId).Run scheduleWhileReading.1 scheduleWhileReading.2 :=
  Config.run_of_history _ (Option.eq_some_of_isSome scheduleWhileReading_isSome)

theorem scheduleWhileReading_read_isSome :
    (scheduleWhileReading.2.history [0, 0, 2]).isSome := by
  decide +kernel

theorem readOtherwise_isSome :
    ((sampleReads concertId').history [0, 0, 0, 0, 0, 0, 1, 1, 1, 1]).isSome := by
  decide +kernel

/-- The GETs spell the id in capitals, and the PATCH does not. -/
def readOtherwise : List (Taken (Fin 3) (CatalogWorld (Fin 3) Unit))
    × Config (Fin 3) (CatalogWorld (Fin 3) Unit) CatalogError EventResponse :=
  ((sampleReads concertId').history [0, 0, 0, 0, 0, 0, 1, 1, 1, 1]).get readOtherwise_isSome

theorem readOtherwise_run :
    (sampleReads concertId').Run readOtherwise.1 readOtherwise.2 :=
  Config.run_of_history _ (Option.eq_some_of_isSome readOtherwise_isSome)

theorem readOtherwise_read_isSome : (readOtherwise.2.history [2]).isSome := by
  decide +kernel

/-- A GET that starts after the PATCH and shows a status that was not written since. -/
theorem not_freshAfter {text : String} {h₁ h₂ : List (Taken (Fin 3) (CatalogWorld (Fin 3) Unit))}
    {c₁ c₂ : Config (Fin 3) (CatalogWorld (Fin 3) Unit) CatalogError EventResponse}
    (hrun₁ : (sampleReads text).Run h₁ c₁) (hended : (c₁.thread 1).result.isSome = true)
    (hwrote : .updateStatus 1 concertId .scheduled ∈ c₁.world.log) (hsteps : stepsOf 2 h₁ = [])
    (hread : (c₂.thread 2).result.isSome = true) (hstale : ∀ dto source,
      (c₂.thread 2).result = some (.ok (.ok dto (some source))) →
        ∀ t, .updateStatus t concertId dto.status ∉ sinceUpdate 1 concertId c₂.world.log) :
    ¬ FreshAfter (sampleReads text) 1 2 concertId (h₁ ++ h₂) c₂ := by
  intro hfresh
  obtain ⟨r, hr⟩ := Option.isSome_iff_exists.1 hread
  obtain ⟨dto, source, rfl, t, hwritten⟩ :=
    hfresh h₁ c₁ r (List.prefix_append _ _) hrun₁ hended ⟨_, hwrote⟩ hsteps hr
  exact hstale dto source hr t hwritten

/-- The load puts the draft back into the cache once its key is deleted, and the second GET shows
it. Or the load is over, and the draft stays in the cache under the spelling of the GETs. -/
theorem draft_read_after_schedule :
    (∃ h c, (sampleReads concertId).Run h c
      ∧ ¬ FreshAfter (sampleReads concertId) 1 2 concertId h c)
    ∧ ∃ h c, (sampleReads concertId').Run h c
      ∧ (∀ s ∈ h, s.after.log = s.before.log ++ [.del 1 (getCacheKey concertId)] →
        .settle 0 ∈ s.before.log ∧ .selectEvent 2 concertId ∉ s.before.log)
      ∧ ¬ FreshAfter (sampleReads concertId') 1 2 concertId h c := by
  constructor
  · refine ⟨_, _, scheduleWhileReading_run.trans
      (Config.run_of_history _ (Option.eq_some_of_isSome scheduleWhileReading_read_isSome)),
      not_freshAfter scheduleWhileReading_run (by decide +kernel) (by decide +kernel)
        (by decide +kernel) (by decide +kernel) fun dto source hr => ?_⟩
    cases hr
    decide +kernel
  · refine ⟨_, _, readOtherwise_run.trans
      (Config.run_of_history _ (Option.eq_some_of_isSome readOtherwise_read_isSome)),
      by decide +kernel,
      not_freshAfter readOtherwise_run (by decide +kernel) (by decide +kernel)
        (by decide +kernel) (by decide +kernel) fun dto source hr => ?_⟩
    cases hr
    decide +kernel

end LaunchPad
