import LaunchPad.Proofs.EventStatus

/-!
# The steps of the requests

What a request on the catalog does next, from where it is. A GET looks in the cache, joins a load
of its instance or starts one, and a load reads the row and its ticket types, puts the event into
the cache and settles its promise. A PATCH follows the use case (`updateCalls`) and then deletes the
key.
-/

namespace LaunchPad

open Interleave PostgresEventRepository CachedGetEventByIdUseCase

/-! ## Where a request is -/

/-- Where a load is: it has yet to read the row, has it, has the event, or has its result. -/
inductive LoadStage
  | select
  | tickets (row : EventRow) (event : Event)
  | set (dto : EventResponseDTO)
  | settle (r : Except CatalogError (Option EventResponseDTO))

inductive RequestPhase (τ : Type)
  | start
  | missed
  | joined (existing : τ)
  | loading (stage : LoadStage)
  | patching (phase : UpdatePhase)
  | deleting (dto : EventResponseDTO)
  | ended (r : Except CatalogError EventResponse)

namespace RequestPhase

variable {τ : Type}

/-- What a GET responds. -/
def respond (id : String) (source : CacheSource) : Option EventResponseDTO → EventResponse
  | none => eventNotFound id
  | some dto => .ok dto (some source)

/-- Once a load has its result: a promise is settled. -/
def loaded (coalescing : Bool) (id : String) (r : Except CatalogError (Option EventResponseDTO)) :
    RequestPhase τ :=
  if coalescing then .loading (.settle r) else .ended (r.map (respond id .db))

/-- Once a load has the event. -/
def found (coalescing : Bool) (id : String) :
    Except CatalogError (Option EventResponseDTO) → RequestPhase τ
  | .ok (some dto) => .loading (.set dto)
  | r => loaded coalescing id r

/-- Once a load has the row. -/
def ofRow (coalescing : Bool) (id : String) : Option (String × EventRow) → RequestPhase τ
  | none => loaded coalescing id (.ok none)
  | some (rowId, row) => match createEvent rowId row with
    | .error e => loaded coalescing id (.error e)
    | .ok event => .loading (.tickets row event)

/-- Once a PATCH is so far with the use case. -/
def ofUpdate (id : String) : UpdatePhase → RequestPhase τ
  | .ended (.ok (some dto)) => .deleting dto
  | .ended (.ok none) => .ended (.ok (eventNotFound id))
  | .ended (.error e) => .ended (.error e)
  | phase => .patching phase

theorem loaded_ne_missed (coalescing : Bool) (id : String)
    (r : Except CatalogError (Option EventResponseDTO)) :
    (loaded coalescing id r : RequestPhase τ) ≠ .missed := by
  rcases coalescing with _ | _ <;> simp [loaded]

theorem found_ne_missed (coalescing : Bool) (id : String)
    (r : Except CatalogError (Option EventResponseDTO)) :
    (found coalescing id r : RequestPhase τ) ≠ .missed := by
  rcases r with e | _ | dto
  · exact loaded_ne_missed coalescing id _
  · exact loaded_ne_missed coalescing id _
  · simp [found]

theorem ofRow_ne_missed (coalescing : Bool) (id : String) (row : Option (String × EventRow)) :
    (ofRow coalescing id row : RequestPhase τ) ≠ .missed := by
  rcases row with _ | ⟨rowId, row⟩
  · exact loaded_ne_missed coalescing id _
  · simp only [ofRow]
    rcases createEvent rowId row with e | event
    · exact loaded_ne_missed coalescing id _
    · simp

theorem ofUpdate_eq_patching {id : String} {update update' : UpdatePhase}
    (h : (ofUpdate id update : RequestPhase τ) = .patching update') : update = update' := by
  rcases update with _ | ⟨row, event⟩ | event | e | _ | dto <;> cases h <;> rfl

/-- A load that is coalesced goes on to settle its promise. -/
theorem loaded_true (id : String) (r : Except CatalogError (Option EventResponseDTO)) :
    (loaded true id r : RequestPhase τ) = .loading (.settle r) := rfl

theorem found_true (id : String) (r : Except CatalogError (Option EventResponseDTO)) :
    ∃ stage, (found true id r : RequestPhase τ) = .loading stage := by
  rcases r with e | _ | dto
  · exact ⟨_, loaded_true id _⟩
  · exact ⟨_, loaded_true id _⟩
  · exact ⟨_, rfl⟩

theorem ofRow_true (id : String) (row : Option (String × EventRow)) :
    ∃ stage, (ofRow true id row : RequestPhase τ) = .loading stage := by
  rcases row with _ | ⟨rowId, row⟩
  · exact ⟨_, loaded_true id _⟩
  · simp only [ofRow]
    rcases createEvent rowId row with e | event
    · exact ⟨_, loaded_true id _⟩
    · exact ⟨_, rfl⟩

end RequestPhase

section Requests

variable {τ ι : Type} [DecidableEq τ] [DecidableEq ι] (uuid : UuidReading)
  (toUpperCase : String → String)

def CatalogRequest.start : CatalogRequest ι → RequestPhase τ
  | .get _ _ _ => .start
  | .patch _ status => match truthy status with
    | none => .ended (.ok (.validationError "Target status field is required"))
    | some _ => .patching .start

open RequestPhase in
def CatalogRequest.move (t : τ) : CatalogRequest ι → RequestPhase τ → CatalogWorld τ ι →
    Option (CatalogWorld τ ι × RequestPhase τ)
  | .get inst coalescing id => fun
    | .start => Machine.segment (RedisCacheService.get (getCacheKey id)) (fun
        | some dto => .ended (.ok (.ok dto (some .cache)))
        | none => if coalescing then .missed else .loading .select) fun e => .ended (.error e)
    | .missed => Machine.segment (RequestCoalescer.join t inst (getCacheKey id)) (fun
        | some existing => .joined existing
        | none => .loading .select) fun e => .ended (.error e)
    | .joined existing => Machine.segment (RequestCoalescer.promise existing)
        (fun event => .ended (.ok (respond id .db event))) fun e => .ended (.error e)
    | .loading .select => Machine.segment (selectEvent uuid t id) (ofRow coalescing id)
        fun e => loaded coalescing id (.error e)
    | .loading (.tickets row event) => Machine.segment (selectTicketTypes uuid id)
        (fun ttRows => found coalescing id
          ((addTicketTypes toUpperCase ttRows event >>= applyStatus row.status).map
            fun event => some event.toDTO))
        fun e => loaded coalescing id (.error e)
    | .loading (.set dto) => Machine.segment (RedisCacheService.set t (getCacheKey id) dto)
        (fun _ => loaded coalescing id (.ok (some dto))) fun e => loaded coalescing id (.error e)
    | .loading (.settle r) => Machine.segment (RequestCoalescer.settle t inst (getCacheKey id) r)
        (fun _ => .ended (r.map (respond id .db))) fun e => .ended (.error e)
    | _ => fun _ => none
  | .patch id status => fun
    | .patching phase => fun w =>
        ((updateCalls uuid toUpperCase (fun _ => id) fun _ => status.getD "").move t phase w).map
          fun q =>
          (q.1, ofUpdate id q.2)
    | .deleting dto => Machine.segment (RedisCacheService.del t (getCacheKey id))
        (fun _ => .ended (.ok (.ok dto none))) fun e => .ended (.error e)
    | _ => fun _ => none

variable (requests : τ → CatalogRequest ι)

/-- The requests of all instances. -/
def requestCalls : Machine τ (RequestPhase τ) (CatalogWorld τ ι) where
  start t := (requests t).start
  move t := (requests t).move uuid toUpperCase t

variable {uuid toUpperCase requests}

variable (uuid toUpperCase) in
theorem requestCalls_move_eq {t : τ} {request : CatalogRequest ι} (ht : requests t = request)
    (p : RequestPhase τ) :
    (requestCalls uuid toUpperCase requests).move t p = request.move uuid toUpperCase t p := by
  simp only [requestCalls, ht]

section Get

variable {t : τ} {inst : ι} {coalescing : Bool} {id : String}

theorem runs_load (ht : requests t = .get inst coalescing id) :
    (requestCalls uuid toUpperCase requests).Runs t (fun r p => p = .loaded coalescing id r)
      (load uuid toUpperCase t id) (.loading .select) := by
  have hmove := requestCalls_move_eq uuid toUpperCase ht
  have hfind : (requestCalls uuid toUpperCase requests).Runs t
      (fun r p => p = .found coalescing id (r.map (Option.map Event.toDTO)))
      (findById uuid toUpperCase t id) (.loading .select) := by
    unfold findById
    refine Machine.Runs.await_bind (hmove _) (fun found => ?_) fun _ => rfl
    rcases found with _ | ⟨rowId, row⟩
    · exact Machine.Runs.pure rfl
    simp only [RequestPhase.ofRow]
    rcases createEvent rowId row with e | event
    · exact Machine.Runs.throw rfl
    refine Machine.Runs.await_bind (hmove _) (fun ttRows => ?_) fun _ => rfl
    rcases addTicketTypes toUpperCase ttRows event >>= applyStatus row.status with e | event
    · exact Machine.Runs.throw rfl
    · exact Machine.Runs.pure rfl
  have hget : (requestCalls uuid toUpperCase requests).Runs t
      (fun r p => p = .found coalescing id r)
      (GetEventByIdUseCase.execute uuid toUpperCase t id) (.loading .select) := by
    unfold GetEventByIdUseCase.execute
    refine Machine.Runs.bind hfind ?_ ?_
    · rintro found _ rfl
      rcases found with _ | event
      · exact Machine.Runs.pure rfl
      · exact Machine.Runs.pure rfl
    · rintro e _ rfl
      rfl
  unfold load
  refine Machine.Runs.bind hget ?_ ?_
  · rintro dbEvent _ rfl
    rcases dbEvent with _ | dto
    · exact Machine.Runs.pure rfl
    · exact Machine.Runs.await_bind (hmove _) (fun _ => Machine.Runs.pure rfl) fun _ => rfl
  · rintro e _ rfl
    rfl

theorem runs_coalesced (ht : requests t = .get inst true id) :
    (requestCalls uuid toUpperCase requests).Runs t
      (fun r p => p = .ended (r.map (RequestPhase.respond id .db)))
      (RequestCoalescer.run t inst (getCacheKey id) (load uuid toUpperCase t id)) .missed := by
  have hmove := requestCalls_move_eq uuid toUpperCase ht
  unfold RequestCoalescer.run
  refine Machine.Runs.await_bind (hmove _) (fun found => ?_) fun _ => rfl
  rcases found with _ | existing
  · have hload : (requestCalls uuid toUpperCase requests).Runs t
        (fun r p => ∃ a, r = .ok a ∧ p = .loaded true id a)
        (tryCatch (do let a ← load uuid toUpperCase t id; pure (Except.ok a))
          fun e => pure (Except.error e)) (.loading .select) := by
      refine Machine.Runs.tryCatch (K := fun r p => p = .loaded true id (r.bind fun a => a))
        (Machine.Runs.bind (runs_load ht) ?_ ?_) ?_ ?_
      · rintro a _ rfl
        exact Machine.Runs.pure rfl
      · rintro e _ rfl
        rfl
      · rintro a _ rfl
        exact ⟨a, rfl, rfl⟩
      · rintro e _ rfl
        exact Machine.Runs.pure ⟨_, rfl, rfl⟩
    refine Machine.Runs.bind hload ?_ ?_
    · rintro r _ ⟨a, ha, rfl⟩
      obtain rfl := Except.ok.inj ha
      exact Machine.Runs.await_bind (hmove _) (fun _ => rfl) fun _ => rfl
    · rintro e _ ⟨a, ha, -⟩
      cases ha
  · exact Machine.Runs.await (hmove _) (fun _ => rfl) fun _ => rfl

theorem runs_getEvent (ht : requests t = .get inst coalescing id) :
    (requestCalls uuid toUpperCase requests).Runs t (fun r p => p = .ended r)
      (getEvent uuid toUpperCase t inst coalescing id) .start := by
  have hmove := requestCalls_move_eq uuid toUpperCase ht
  have hexecute : (requestCalls uuid toUpperCase requests).Runs t
      (fun r p =>
        p = .ended (r.map fun result => RequestPhase.respond id result.source result.event))
      (CachedGetEventByIdUseCase.execute uuid toUpperCase t inst coalescing id) .start := by
    unfold CachedGetEventByIdUseCase.execute
    refine Machine.Runs.await_bind (hmove _) (fun cached => ?_) fun _ => rfl
    rcases cached with _ | dto
    · rcases coalescing with _ | _
      · refine Machine.Runs.bind (runs_load ht) ?_ ?_
        · rintro a _ rfl
          exact Machine.Runs.pure rfl
        · rintro e _ rfl
          rfl
      · refine Machine.Runs.bind (runs_coalesced ht) ?_ ?_
        · rintro a _ rfl
          exact Machine.Runs.pure rfl
        · rintro e _ rfl
          rfl
    · exact Machine.Runs.pure rfl
  unfold getEvent
  refine Machine.Runs.bind hexecute ?_ ?_
  · rintro ⟨event, source⟩ _ rfl
    rcases event with _ | dto
    · exact Machine.Runs.pure rfl
    · exact Machine.Runs.pure rfl
  · rintro e _ rfl
    rfl

end Get

/-- A PATCH follows the use case, and then deletes the key. -/
theorem follows_patchEventStatus {t : τ} {id : String} {status : Option String}
    (ht : requests t = .patch id status) :
    Follows (fun p w w' p' => (requestCalls uuid toUpperCase requests).move t p w = some (w', p'))
      (fun r p => p = .ended r) (patchEventStatus (ι := ι) uuid toUpperCase t id status)
      (CatalogRequest.patch id status : CatalogRequest ι).start := by
  have hmove := requestCalls_move_eq uuid toUpperCase ht
  simp only [patchEventStatus, CatalogRequest.start]
  rcases htruthy : truthy status with _ | target
  · exact Follows.pure rfl
  obtain rfl : status = some target := truthy_eq_some htruthy
  have hexecute : (updateCalls (ι := ι) uuid toUpperCase (fun _ => id) fun _ => target).Runs t
      (fun r p => p = .ended r)
      (UpdateEventStatusUseCase.execute uuid toUpperCase t id target) .start :=
    runs_execute t
  have hupdate : Follows (fun p w w' p' =>
        (requestCalls uuid toUpperCase requests).move t p w = some (w', p'))
      (fun r p => p = .ofUpdate id (.ended r))
      (UpdateEventStatusUseCase.execute uuid toUpperCase t id target) (.patching .start) := by
    refine hexecute.follows.map (RequestPhase.ofUpdate id) (fun p w w' p' hm => ?_) ?_
    · have hpatching : RequestPhase.ofUpdate (τ := τ) id p = .patching p := by
        rcases p with _ | _ | _ | _
        · rfl
        · rfl
        · rfl
        · cases hm
      rw [hpatching, hmove]
      simp only [CatalogRequest.move, Option.getD_some, hm, Option.map_some]
    · rintro r _ rfl
      rfl
  refine Follows.bind hupdate ?_ ?_
  · rintro a _ rfl
    rcases a with _ | dto
    · exact Follows.pure rfl
    · have hdel : (requestCalls uuid toUpperCase requests).Runs t (fun r p => p = .ended r)
          (do Async.await (RedisCacheService.del t (getCacheKey id))
              pure (EventResponse.ok dto none)) (.deleting dto) :=
        Machine.Runs.await_bind (hmove _) (fun _ => Machine.Runs.pure rfl) fun _ => rfl
      exact hdel.follows
  · rintro e _ rfl
    rfl

theorem follows_run (t : τ) :
    Follows (fun p w w' p' => (requestCalls uuid toUpperCase requests).move t p w = some (w', p'))
      (fun r p => p = .ended r) ((requests t).run uuid toUpperCase t)
      ((requestCalls uuid toUpperCase requests).start t) := by
  change Follows _ _ _ (requests t).start
  rcases ht : requests t with ⟨inst, coalescing, id⟩ | ⟨id, status⟩
  · exact (runs_getEvent ht).follows
  · exact follows_patchEventStatus ht

/-! ## What a step does -/

variable (uuid toUpperCase) in
/-- What a step of a GET does. -/
inductive GetMoves (t : τ) (inst : ι) (coalescing : Bool) (id : String) (w : CatalogWorld τ ι) :
    RequestPhase τ → CatalogWorld τ ι → RequestPhase τ → Prop
  | hit {dto : EventResponseDTO} (hcache : w.cache (getCacheKey id) = some dto) :
      GetMoves t inst coalescing id w .start w (.ended (.ok (.ok dto (some .cache))))
  | miss : GetMoves t inst coalescing id w .start w
      (if coalescing then .missed else .loading .select)
  | join {existing : τ} (hinFlight : w.inFlight inst (getCacheKey id) = some existing) :
      GetMoves t inst coalescing id w .missed w (.joined existing)
  | lead : GetMoves t inst coalescing id w .missed
      { w with
        inFlight := Function.update w.inFlight inst
          (Function.update (w.inFlight inst) (getCacheKey id) (some t)) } (.loading .select)
  | await {existing : τ} {r : Except CatalogError (Option EventResponseDTO)}
      (hsettled : w.settled existing = some r) :
      GetMoves t inst coalescing id w (.joined existing) w
        (.ended (r.map (RequestPhase.respond id .db)))
  | select {key : String} (hkey : uuid.read id = some key) :
      GetMoves t inst coalescing id w (.loading .select)
        { w with log := w.log ++ [.selectEvent t key] }
        (.ofRow coalescing id ((w.events key).map (key, ·)))
  | tickets {key : String} {row : EventRow} {event : Event} (hkey : uuid.read id = some key) :
      GetMoves t inst coalescing id w (.loading (.tickets row event)) w
        (.found coalescing id ((addTicketTypes toUpperCase (w.ticketTypesOf key) event
          >>= applyStatus row.status).map fun event => some event.toDTO))
  | refused {stage : LoadStage} (hkey : uuid.read id = none) :
      GetMoves t inst coalescing id w (.loading stage) w
        (.loaded coalescing id (.error .statementFailed))
  | set {dto : EventResponseDTO} : GetMoves t inst coalescing id w (.loading (.set dto))
      { w with
        cache := Function.update w.cache (getCacheKey id) (some dto)
        log := w.log ++ [.set t (getCacheKey id)] } (.loaded coalescing id (.ok (some dto)))
  | settle {r : Except CatalogError (Option EventResponseDTO)} :
      GetMoves t inst coalescing id w (.loading (.settle r))
        { w with
          inFlight := Function.update w.inFlight inst
            (Function.update (w.inFlight inst) (getCacheKey id) none)
          settled := Function.update w.settled t (some r)
          log := w.log ++ [.settle t] } (.ended (r.map (RequestPhase.respond id .db)))

section Moves

variable {t : τ} {p p' : RequestPhase τ} {w w' : CatalogWorld τ ι}

theorem getMoves {inst : ι} {coalescing : Bool} {id : String}
    (hm : (CatalogRequest.get inst coalescing id).move uuid toUpperCase t p w = some (w', p')) :
    GetMoves uuid toUpperCase t inst coalescing id w p w' p' := by
  rcases p with _ | _ | existing | (_ | ⟨row, event⟩ | dto | r) | phase | dto | r <;>
    simp only [CatalogRequest.move, Machine.segment_eq_some] at hm
  · obtain ⟨cached, hs, rfl⟩ | ⟨e, hs, -⟩ := hm
    · obtain ⟨hcache, rfl⟩ : w.cache (getCacheKey id) = cached ∧ w = w' := by
        simpa [RedisCacheService.get] using hs
      rcases hdto : w.cache (getCacheKey id) with _ | dto <;> rw [hdto] at hcache <;> subst hcache
      · exact .miss
      · exact .hit hdto
    · cases hs
  · unfold RequestCoalescer.join at hm
    rcases hkey : w.inFlight inst (getCacheKey id) with _ | existing <;> rw [hkey] at hm <;>
      obtain ⟨found, hs, rfl⟩ | ⟨e, hs, -⟩ := hm <;> cases hs
    · exact .lead
    · exact .join hkey
  · unfold RequestCoalescer.promise at hm
    rcases hsettled : w.settled existing with _ | e | event <;> rw [hsettled] at hm <;>
      obtain ⟨found, hs, rfl⟩ | ⟨e, hs, rfl⟩ := hm <;> cases hs
    · exact .await hsettled
    · exact .await hsettled
  · rcases hkey : uuid.read id with _ | key
    · rw [selectEvent_of_none hkey] at hm
      obtain ⟨found, hs, -⟩ | ⟨e, hs, rfl⟩ := hm <;> cases hs
      exact .refused hkey
    · rw [selectEvent_of_read hkey] at hm
      obtain ⟨found, hs, rfl⟩ | ⟨e, hs, -⟩ := hm <;> cases hs
      exact .select hkey
  · rcases hkey : uuid.read id with _ | key
    · rw [selectTicketTypes_of_none hkey] at hm
      obtain ⟨found, hs, -⟩ | ⟨e, hs, rfl⟩ := hm <;> cases hs
      exact .refused hkey
    · rw [selectTicketTypes_of_read hkey] at hm
      obtain ⟨found, hs, rfl⟩ | ⟨e, hs, -⟩ := hm <;> cases hs
      exact .tickets hkey
  · obtain ⟨found, hs, rfl⟩ | ⟨e, hs, -⟩ := hm <;> cases hs
    exact .set
  · obtain ⟨found, hs, rfl⟩ | ⟨e, hs, -⟩ := hm <;> cases hs
    exact .settle
  · cases hm
  · cases hm
  · cases hm

theorem patchMoves {id : String} {status : Option String}
    (hm : (CatalogRequest.patch id status : CatalogRequest ι).move uuid toUpperCase t p w
      = some (w', p')) :
    (∃ phase phase', p = .patching phase ∧ p' = .ofUpdate id phase'
        ∧ (updateCalls uuid toUpperCase (fun _ => id) fun _ => status.getD "").move t phase w
          = some (w', phase'))
      ∨ ∃ dto, p = .deleting dto ∧ p' = .ended (.ok (.ok dto none)) ∧ w' = { w with
          cache := Function.update w.cache (getCacheKey id) none
          log := w.log ++ [.del t (getCacheKey id)] } := by
  rcases p with _ | _ | existing | stage | phase | dto | r <;>
    simp only [CatalogRequest.move, Machine.segment_eq_some] at hm
  · cases hm
  · cases hm
  · cases hm
  · cases hm
  · obtain ⟨⟨w₁, phase'⟩, hphase, hq⟩ := Option.map_eq_some_iff.1 hm
    cases hq
    exact .inl ⟨phase, phase', rfl, rfl, hphase⟩
  · obtain ⟨_, hs, rfl⟩ | ⟨e, hs, -⟩ := hm <;> cases hs
    exact .inr ⟨dto, rfl, rfl, rfl⟩
  · cases hm

end Moves

end Requests

end LaunchPad
