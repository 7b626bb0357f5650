import LaunchPad.CreateEvent
import LaunchPad.Lib.Hoare
import Mathlib.Data.List.Find

/-!
# What is stored of a created event

The aggregate keeps the last ticket type of each id (`Built`), and so does the response. Of the rows
and the pools the database keeps the first of each key, and what was there before (`Saved`). So the
three agree if no key was there before, a key has one id in the request, and the last entry with an
id has the capacity of the first.
-/

namespace LaunchPad

open Interleave Rows PostgresEventRepository

/-- What is offered under an id. -/
structure Offer where
  name : String
  priceCents : ℤ
  currency : String
  capacity : ℤ
deriving DecidableEq

def TicketTypeRequestDTO.offer (toUpperCase : String → String) (ttDto : TicketTypeRequestDTO) :
    Offer where
  name := trim ttDto.name
  priceCents := ttDto.priceCents.integer.getD 0
  currency := toUpperCase ((truthy ttDto.currency).getD "USD")
  capacity := ttDto.capacity.integer.getD 0

def TicketType.offer (tt : TicketType) : Offer where
  name := tt.name
  priceCents := tt.price.amountCents
  currency := tt.price.currency
  capacity := tt.capacity

def Offer.row (o : Offer) (id eventId : String) : TicketTypeRow where
  id := id
  eventId := eventId
  name := o.name
  priceCents := o.priceCents
  currency := o.currency
  capacity := o.capacity

theorem TicketType.row_eq (tt : TicketType) (id eventId : String) :
    tt.row id eventId = tt.offer.row id eventId := rfl

/-- The row the response tells of. -/
def TicketTypeDTO.row (tt : TicketTypeDTO) (id eventId : String) : TicketTypeRow where
  id := id
  eventId := eventId
  name := tt.name
  priceCents := tt.priceCents
  currency := tt.currency
  capacity := tt.capacity

/-- A pool with all its seats available. -/
def fullPool (capacity : ℤ) : PoolRow := ⟨capacity, capacity, 0, 0⟩

/-- The rows of the event are those in the response, each of them there once and with a pool of its
capacity. -/
structure StoredAsPromised (uuid : UuidReading) (response : EventResponseDTO)
    (T : CatalogTables) : Prop where
  once : (response.ticketTypes.map fun tt => uuid.read tt.id).Nodup
  stored : ∀ tt ∈ response.ticketTypes, ∃ id eventId, uuid.read tt.id = some id
    ∧ uuid.read response.id = some eventId ∧ T.ticketTypes.row id = some (tt.row id eventId)
    ∧ T.pools.row id = some (fullPool tt.capacity)
  nothingElse : ∀ id row, T.ticketTypes.row id = some row →
    uuid.read response.id = some row.eventId →
    ∃ tt ∈ response.ticketTypes, uuid.read tt.id = some id ∧ row = tt.row id row.eventId

/-! ## The request -/

/-- The entries from the `n`-th on, under the ids they are given. -/
def offersFrom (toUpperCase : String → String) (env : CreateEnv) :
    ℕ → List TicketTypeRequestDTO → List (String × Offer)
  | _, [] => []
  | n, ttDto :: rest =>
    (CreateEventUseCase.ticketTypeId env n ttDto, ttDto.offer toUpperCase)
      :: offersFrom toUpperCase env (n + 1) rest

def CreateEventRequestDTO.offers (toUpperCase : String → String) (env : CreateEnv)
    (dto : CreateEventRequestDTO) : List (String × Offer) :=
  offersFrom toUpperCase env 0 (dto.ticketTypes.getD [])

/-- The last entry with an id. -/
def lastWith (id : String) (offers : List (String × Offer)) : Option (String × Offer) :=
  offers.reverse.find? fun o => o.1 = id

/-- The first entry with an id. -/
def firstWith (id : String) (offers : List (String × Offer)) : Option (String × Offer) :=
  offers.find? fun o => o.1 = id

/-- No key of the request is there yet, entries with one key have one id, and of those with one id
the first has the capacity of the last. -/
structure Unambiguous (uuid : UuidReading) (offers : List (String × Offer))
    (T : CatalogTables) : Prop where
  fresh : ∀ o ∈ offers, ∀ key, uuid.read o.1 = some key → T.ticketTypes.row key = none
  distinct : ∀ o ∈ offers, ∀ o' ∈ offers, uuid.read o.1 = uuid.read o'.1 → o.1 = o'.1
  pooled : ∀ o ∈ offers, (firstWith o.1 offers).map (fun o' => o'.2.capacity)
    = (lastWith o.1 offers).map fun o' => o'.2.capacity

/-! ## The aggregate -/

section Aggregate

variable {toUpperCase : String → String} {env : CreateEnv}

theorem mem_setTicketType {new tt : TicketType} : ∀ {tts : List TicketType},
    (tts.map TicketType.id).Nodup →
      (tt ∈ Event.setTicketType new tts ↔ tt = new ∨ tt ∈ tts ∧ tt.id ≠ new.id)
  | [], _ => by simp [Event.setTicketType]
  | tt' :: tts, hnd => by
    rw [List.map_cons, List.nodup_cons] at hnd
    unfold Event.setTicketType
    split_ifs with hid
    · have hother : ∀ x ∈ tts, x.id ≠ new.id := fun x hx he =>
        hnd.1 (List.mem_map.2 ⟨x, hx, he.trans hid.symm⟩)
      simp only [List.mem_cons]
      constructor
      · rintro (rfl | htt)
        · exact .inl rfl
        · exact .inr ⟨.inr htt, hother tt htt⟩
      · rintro (rfl | ⟨rfl | htt, hne⟩)
        · exact .inl rfl
        · exact absurd hid hne
        · exact .inr htt
    · rw [List.mem_cons, mem_setTicketType hnd.2, List.mem_cons]
      constructor
      · rintro (rfl | rfl | ⟨htt, hne⟩)
        · exact .inr ⟨.inl rfl, hid⟩
        · exact .inl rfl
        · exact .inr ⟨.inr htt, hne⟩
      · rintro (rfl | ⟨rfl | htt, hne⟩)
        · exact .inr (.inl rfl)
        · exact .inl rfl
        · exact .inr (.inr ⟨htt, hne⟩)

/-- A new id comes last. -/
theorem setTicketType_of_notMem {new : TicketType} : ∀ {tts : List TicketType},
    new.id ∉ tts.map TicketType.id → Event.setTicketType new tts = tts ++ [new]
  | [], _ => rfl
  | tt :: tts, h => by
    rw [List.map_cons, List.mem_cons, not_or] at h
    rw [Event.setTicketType, if_neg (Ne.symm h.1), setTicketType_of_notMem h.2]
    rfl

theorem ids_setTicketType {new : TicketType} : ∀ {tts : List TicketType},
    new.id ∈ tts.map TicketType.id →
      (Event.setTicketType new tts).map TicketType.id = tts.map TicketType.id
  | tt :: tts, h => by
    unfold Event.setTicketType
    split_ifs with hid
    · rw [List.map_cons, List.map_cons, hid]
    · rw [List.map_cons, List.mem_cons] at h
      rw [List.map_cons, List.map_cons, ids_setTicketType (h.resolve_left (Ne.symm hid))]

theorem nodup_setTicketType {new : TicketType} {tts : List TicketType}
    (h : (tts.map TicketType.id).Nodup) :
    ((Event.setTicketType new tts).map TicketType.id).Nodup := by
  by_cases hnew : new.id ∈ tts.map TicketType.id
  · rwa [ids_setTicketType hnew]
  · rw [setTicketType_of_notMem hnew, List.map_append, List.map_singleton,
      List.nodup_append_comm]
    exact List.nodup_cons.2 ⟨hnew, h⟩

/-- What the loop has made of the entries so far. -/
structure Built (offers : List (String × Offer)) (event : Event)
    (inventoryPools : List InventoryPool) : Prop where
  draft : event.status = .draft
  nodup : (event.ticketTypes.map TicketType.id).Nodup
  eventId : ∀ tt ∈ event.ticketTypes, tt.eventId = event.id
  last : ∀ id o, lastWith id offers = some (id, o)
    ↔ ∃ tt ∈ event.ticketTypes, tt.id = id ∧ tt.offer = o
  pools : inventoryPools
    = offers.map fun o => ⟨o.1, o.2.capacity, o.2.capacity, 0, 0⟩

theorem lastWith_snoc (id : String) (offers : List (String × Offer)) (o : String × Offer) :
    lastWith id (offers ++ [o]) = if o.1 = id then some o else lastWith id offers := by
  unfold lastWith
  rw [List.reverse_append, List.reverse_singleton, List.singleton_append, List.find?_cons]
  by_cases h : o.1 = id <;> simp [h]

theorem TicketType.create_ok {id eventId name : String} {price : Money} {capacity : Number}
    {tt : TicketType} (h : TicketType.create id eventId name price capacity = .ok tt) :
    tt.id = id ∧ tt.eventId = eventId ∧ tt.name = trim name ∧ tt.price = price
      ∧ capacity.integer = some tt.capacity := by
  unfold TicketType.create at h
  split_ifs at h
  split at h
  · cases h
  · rename_i n hn
    obtain rfl := Except.ok.inj h
    exact ⟨rfl, rfl, rfl, rfl, InventoryPool.integer_of_positiveInteger hn⟩

theorem Money.create_ok {amountCents : Number} {currency : String} {price : Money}
    (h : Money.create toUpperCase amountCents currency = .ok price) :
    amountCents.integer = some (price.amountCents : ℤ) ∧ price.currency = toUpperCase currency := by
  unfold Money.create at h
  split at h
  · cases h
  · rename_i n hn
    split_ifs at h
    obtain rfl := Except.ok.inj h
    obtain ⟨hn, hpos⟩ := Option.filter_eq_some_iff.1 hn
    have hn0 : 0 ≤ n := by simpa using hpos
    exact ⟨by rw [hn, Int.toNat_of_nonneg hn0], rfl⟩

theorem Event.addTicketType_ok {event event' : Event} {id name : String} {price : Money}
    {capacity : Number} (h : event.addTicketType id name price capacity = .ok event') :
    ∃ tt, TicketType.create id event.id name price capacity = .ok tt
      ∧ event' = { event with ticketTypes := setTicketType tt event.ticketTypes } := by
  unfold Event.addTicketType at h
  split_ifs at h
  rcases htt : TicketType.create id event.id name price capacity with e | tt <;> rw [htt] at h
  · cases h
  · exact ⟨tt, rfl, (Except.ok.inj h).symm⟩

/-- The ticket type of an entry offers what the entry says. -/
theorem TicketType.offer_of_create {ttDto : TicketTypeRequestDTO} {id eventId : String}
    {price : Money} {tt : TicketType}
    (hprice : Money.create toUpperCase ttDto.priceCents ((truthy ttDto.currency).getD "USD")
      = .ok price)
    (htt : TicketType.create id eventId ttDto.name price ttDto.capacity = .ok tt) :
    tt.offer = ttDto.offer toUpperCase := by
  obtain ⟨-, -, hname, hprice', hcapacity⟩ := TicketType.create_ok htt
  obtain ⟨hcents, hcurrency⟩ := Money.create_ok hprice
  simp only [TicketType.offer, TicketTypeRequestDTO.offer, hname, hprice', hcents, hcurrency,
    hcapacity, Option.getD_some]

/-- The last entries with their ids, after one more. -/
theorem Built.last_snoc {offers : List (String × Offer)} {event : Event}
    {inventoryPools : List InventoryPool} (h : Built offers event inventoryPools) (tt : TicketType)
    (id : String) (o : Offer) : lastWith id (offers ++ [(tt.id, tt.offer)]) = some (id, o)
      ↔ ∃ x ∈ Event.setTicketType tt event.ticketTypes, x.id = id ∧ x.offer = o := by
  rw [lastWith_snoc]
  simp only [mem_setTicketType h.nodup]
  split_ifs with hlast
  · constructor
    · intro ho
      obtain rfl := (Prod.mk.inj (Option.some.inj ho)).2
      exact ⟨tt, .inl rfl, hlast, rfl⟩
    · rintro ⟨x, rfl | ⟨-, hne⟩, hx, rfl⟩
      · rw [← hx]
      · exact absurd (hx.trans hlast.symm) hne
  · rw [h.last]
    constructor
    · rintro ⟨x, hx, rfl, rfl⟩
      exact ⟨x, .inr ⟨hx, fun he => hlast he.symm⟩, rfl, rfl⟩
    · rintro ⟨x, rfl | ⟨hx, -⟩, hx', rfl⟩
      · exact absurd hx' hlast
      · exact ⟨x, hx, hx', rfl⟩

theorem Built.snoc {offers : List (String × Offer)} {event event' : Event}
    {inventoryPools : List InventoryPool} {n : ℕ} {ttDto : TicketTypeRequestDTO} {price : Money}
    {pool : InventoryPool} (h : Built offers event inventoryPools)
    (hprice : Money.create toUpperCase ttDto.priceCents ((truthy ttDto.currency).getD "USD")
      = .ok price)
    (hadd : event.addTicketType (CreateEventUseCase.ticketTypeId env n ttDto) ttDto.name price
      ttDto.capacity = .ok event')
    (hpool : InventoryPool.create (CreateEventUseCase.ticketTypeId env n ttDto) ttDto.capacity
      = .ok pool) :
    Built (offers ++ [(CreateEventUseCase.ticketTypeId env n ttDto, ttDto.offer toUpperCase)])
      event' (inventoryPools ++ [pool]) ∧ event'.id = event.id := by
  obtain ⟨tt, htt, rfl⟩ := Event.addTicketType_ok hadd
  obtain ⟨hid, heventId, -, -, hcapacity⟩ := TicketType.create_ok htt
  obtain ⟨n', hn, rfl⟩ := InventoryPool.create_ok hpool
  obtain rfl : tt.capacity = n' :=
    Option.some.inj (hcapacity.symm.trans (InventoryPool.integer_of_positiveInteger hn))
  rw [← hid, ← TicketType.offer_of_create hprice htt]
  refine ⟨⟨h.draft, nodup_setTicketType h.nodup, fun x hx => ?_, h.last_snoc tt, ?_⟩, rfl⟩
  · rcases (mem_setTicketType h.nodup).1 hx with rfl | ⟨hx, -⟩
    · exact heventId
    · exact h.eventId x hx
  · rw [h.pools, List.map_append, List.map_singleton]
    rfl

theorem Except.mapError_ok {ε ε' α : Type} {f : ε → ε'} {x : Except ε α} {a : α}
    (h : x.mapError f = .ok a) : x = .ok a := by
  cases x with
  | error e => cases h
  | ok b =>
    obtain rfl := Except.ok.inj h
    rfl

theorem addTicketTypes_built : ∀ {ttDtos : List TicketTypeRequestDTO} {n : ℕ}
    {offers : List (String × Offer)} {event event' : Event}
    {inventoryPools inventoryPools' : List InventoryPool}, Built offers event inventoryPools →
    CreateEventUseCase.addTicketTypes toUpperCase env n ttDtos event inventoryPools
      = .ok (event', inventoryPools') →
    Built (offers ++ offersFrom toUpperCase env n ttDtos) event' inventoryPools'
      ∧ event'.id = event.id
  | [], _, offers, event, event', inventoryPools, _, h, hadd => by
    cases hadd
    exact ⟨by rwa [offersFrom, List.append_nil], rfl⟩
  | ttDto :: rest, n, offers, event, event', inventoryPools, inventoryPools', h, hadd => by
    simp only [CreateEventUseCase.addTicketTypes, bind, Except.bind] at hadd
    split at hadd
    · cases hadd
    rename_i price hprice
    split at hadd
    · cases hadd
    rename_i event₁ hevent
    split at hadd
    · cases hadd
    rename_i pool hpool
    obtain ⟨h₁, hid⟩ := h.snoc (n := n) (Except.mapError_ok hprice) (Except.mapError_ok hevent)
      (Except.mapError_ok hpool)
    obtain ⟨h', hid'⟩ := addTicketTypes_built h₁ hadd
    rw [List.append_assoc] at h'
    exact ⟨h', hid'.trans hid⟩

theorem build_built {dto : CreateEventRequestDTO} {event : Event}
    {inventoryPools : List InventoryPool}
    (h : CreateEventUseCase.build toUpperCase env dto = .ok (event, inventoryPools)) :
    Built (dto.offers toUpperCase env) event inventoryPools ∧ event.id = env.eventId.val := by
  simp only [CreateEventUseCase.build, bind, Except.bind] at h
  split at h
  · cases h
  rename_i window hwindow
  split at h
  · cases h
  rename_i event₀ hcreate
  have hcreate := Except.mapError_ok hcreate
  unfold Event.create at hcreate
  split_ifs at hcreate
  obtain rfl := Except.ok.inj hcreate
  have hempty : Built [] (⟨env.eventId.val, dto.organizerId, trim dto.title, window, .draft, []⟩ :
      Event) [] := ⟨rfl, List.nodup_nil, by simp, by simp [lastWith], rfl⟩
  unfold CreateEventRequestDTO.offers
  rcases hdto : dto.ticketTypes with _ | ttDtos <;> rw [hdto] at h
  · cases h
    exact ⟨hempty, rfl⟩
  · exact addTicketTypes_built hempty h

end Aggregate

/-! ## The rows -/

section Rows

variable {uuid : UuidReading} {env : CreateEnv} {event : Event}
  {inventoryPools : List InventoryPool} {T : CatalogTables} {s : CatalogSession}

/-- The row of the first of these with the key. -/
def firstRow {α ρ : Type} (uuid : UuidReading) (idOf : α → String) (rowOf : α → ρ)
    (key : String) (as : List α) : Option ρ :=
  (as.find? fun a => uuid.read (idOf a) = some key).map rowOf

theorem firstRow_cons {α ρ : Type} {idOf : α → String} {rowOf : α → ρ} {key : String} {a : α}
    {as : List α} : firstRow uuid idOf rowOf key (a :: as)
      = (if uuid.read (idOf a) = some key then some (rowOf a) else none).or
        (firstRow uuid idOf rowOf key as) := by
  unfold firstRow
  rw [List.find?_cons]
  by_cases h : uuid.read (idOf a) = some key <;> simp [h]

/-- What a committed `save` leaves of the ticket types and the pools. -/
structure Saved (uuid : UuidReading) (event : Event)
    (inventoryPools : List InventoryPool) (T T' : CatalogTables) : Prop where
  keyed : ∀ tt ∈ event.ticketTypes, (uuid.read tt.id).isSome
  ticketTypes : ∃ eventId, uuid.read event.id = some eventId ∧ ∀ key, T'.ticketTypes.row key
    = (T.ticketTypes.row key).or
      (firstRow uuid TicketType.id (fun tt => tt.row key eventId) key event.ticketTypes)
  pools : ∀ key, T'.pools.row key = (T.pools.row key).or
    (firstRow uuid InventoryPool.ticketTypeId InventoryPool.row key inventoryPools)

theorem wp_withUuid {id : String} {f : String → Sync CatalogSession CreateError Unit}
    {P : Unit → CatalogSession → Prop}
    (h : ∀ key, uuid.read id = some key → (f key).wp (onOk P) s) :
    (withUuid uuid .statementFailed id f).wp (onOk P) s := by
  rcases hid : uuid.read id with _ | key
  · rw [withUuid_of_none hid]
    simp
  · rw [withUuid_of_read hid]
    exact h key hid

theorem insertTicketType_spec {tt : TicketType} {eventId : String}
    (hevent : uuid.read tt.eventId = some eventId) :
    (insertTicketType uuid tt).wp (onOk fun _ s' => (uuid.read tt.id).isSome
      ∧ s'.current.pools = s.current.pools
      ∧ ∀ key, s'.current.ticketTypes.row key = (s.current.ticketTypes.row key).or
          (if uuid.read tt.id = some key then some (tt.row key eventId) else none)) s := by
  refine wp_withUuid fun id hid => wp_withUuid fun eventId' hevent' => ?_
  obtain rfl := Option.some.inj (hevent.symm.trans hevent')
  rw [hid]
  intro r s' hs
  beta_reduce at hs
  split_ifs at hs with hrow hfk <;> simp only [Option.some.injEq, Prod.mk.injEq] at hs <;>
    obtain ⟨rfl, rfl⟩ := hs
  · refine ⟨rfl, rfl, fun key => ?_⟩
    simp only [Option.some.injEq, Table.row_or_of_isSome hrow]
  · refine ⟨rfl, rfl, fun key => ?_⟩
    have hkey : (if id = key then some (tt.row key eventId) else none)
        = if id = key then some (tt.row id eventId) else none :=
      ite_congr rfl (fun h => by rw [h]) fun _ => rfl
    simp only [Option.some.injEq, hkey]
    exact Table.set_row_of_none (Option.not_isSome_iff_eq_none.1 hrow) key _
  · trivial

theorem insertInventoryPool_spec {pool : InventoryPool} :
    (insertInventoryPool uuid pool).wp (onOk fun _ s' =>
      s'.current.ticketTypes = s.current.ticketTypes
      ∧ ∀ key, s'.current.pools.row key = (s.current.pools.row key).or
          (if uuid.read pool.ticketTypeId = some key then some pool.row else none)) s := by
  refine wp_withUuid fun id hid => ?_
  rw [hid]
  intro r s' hs
  beta_reduce at hs
  split_ifs at hs with hviol hrow hfk <;> simp only [Option.some.injEq, Prod.mk.injEq] at hs <;>
    obtain ⟨rfl, rfl⟩ := hs
  · trivial
  · refine ⟨rfl, fun key => ?_⟩
    simp only [Option.some.injEq, Table.row_or_of_isSome hrow]
  · refine ⟨rfl, fun key => ?_⟩
    simp only [Option.some.injEq]
    exact Table.set_row_of_none (Option.not_isSome_iff_eq_none.1 hrow) key _
  · trivial

/-- What each statement of a loop keeps, with what is left of the list, the loop keeps. -/
theorem wp_insertAll {α β : Type} {fate : ℕ → Fate}
    {insert : α → Sync CatalogSession CreateError Unit} {P : List α → CatalogSession → Prop}
    {f : Unit → Async CatalogSession CreateError β} {Q : β → CatalogSession → Prop}
    (hstep : ∀ a as s, P (a :: as) s → (insert a).wp (onOk fun _ => P as) s)
    (hf : ∀ s, P [] s → (f ()).wp (post Q fun _ _ => ∀ _ : CreateError, True) s) :
    ∀ (as : List α) (n : ℕ) (s : CatalogSession), P as s →
      (insertAll fate insert n as >>= f).wp (post Q fun _ _ => ∀ _ : CreateError, True) s
  | [], _, s, h => hf s h
  | a :: as, n, s, h => by
    rw [insertAll, Async.bind_assoc]
    exact TxEnds.wp_statement_bind (fun _ => True) (hstep a as s h)
      (fun _ s' h' => wp_insertAll hstep hf as (n + 1) s' h') trivial (by simp)

/-- In the loop over the ticket types: those there, with those still to be inserted, make those that
will be there. -/
structure TicketTypesToInsert (uuid : UuidReading) (event : Event) (eventId : String)
    (T : CatalogTables) (tts : List TicketType) (s : CatalogSession) : Prop where
  pools : s.current.pools = T.pools
  ofEvent : ∀ tt ∈ tts, uuid.read tt.eventId = some eventId
  keyed : ∀ tt ∈ event.ticketTypes, tt ∈ tts ∨ (uuid.read tt.id).isSome
  rows : ∀ key, (s.current.ticketTypes.row key).or
      (firstRow uuid TicketType.id (fun tt => tt.row key eventId) key tts)
    = (T.ticketTypes.row key).or
      (firstRow uuid TicketType.id (fun tt => tt.row key eventId) key event.ticketTypes)

theorem TicketTypesToInsert.insert {eventId : String} {tt : TicketType} {tts : List TicketType}
    (h : TicketTypesToInsert uuid event eventId T (tt :: tts) s) :
    (insertTicketType uuid tt).wp
      (onOk fun _ => TicketTypesToInsert uuid event eventId T tts) s := by
  refine Sync.wp_mono (insertTicketType_spec (h.ofEvent tt List.mem_cons_self)) ?_
  rintro (e | _) s' hs'
  · trivial
  obtain ⟨hkey, hpools, hrows⟩ := hs'
  refine ⟨hpools.trans h.pools, fun x hx => h.ofEvent x (List.mem_cons_of_mem _ hx), fun x hx => ?_,
    fun key => ?_⟩
  · rcases h.keyed x hx with hx | hx
    · rcases List.mem_cons.1 hx with rfl | hx
      · exact .inr hkey
      · exact .inl hx
    · exact .inr hx
  · rw [← h.rows key, firstRow_cons, hrows, Option.or_assoc]

/-- In the loop over the pools. -/
structure PoolsToInsert (uuid : UuidReading) (inventoryPools : List InventoryPool)
    (R : Table String TicketTypeRow) (T : CatalogTables) (pools : List InventoryPool)
    (s : CatalogSession) : Prop where
  ticketTypes : s.current.ticketTypes = R
  rows : ∀ key, (s.current.pools.row key).or
      (firstRow uuid InventoryPool.ticketTypeId InventoryPool.row key pools)
    = (T.pools.row key).or
      (firstRow uuid InventoryPool.ticketTypeId InventoryPool.row key inventoryPools)

theorem PoolsToInsert.insert {R : Table String TicketTypeRow} {pool : InventoryPool}
    {pools : List InventoryPool} (h : PoolsToInsert uuid inventoryPools R T (pool :: pools) s) :
    (insertInventoryPool uuid pool).wp
      (onOk fun _ => PoolsToInsert uuid inventoryPools R T pools) s := by
  refine Sync.wp_mono insertInventoryPool_spec ?_
  rintro (e | _) s' hs'
  · trivial
  obtain ⟨htickets, hpools⟩ := hs'
  refine ⟨htickets.trans h.ticketTypes, fun key => ?_⟩
  rw [← h.rows key, firstRow_cons, hpools, Option.or_assoc]

theorem save_spec (hids : ∀ tt ∈ event.ticketTypes, tt.eventId = event.id) :
    (save uuid env event inventoryPools).wp
      (onOk fun _ s => ∃ T', s = .ofTables T' ∧ Saved uuid event inventoryPools T T')
      (.ofTables T) := by
  unfold save
  refine TxEnds.wp_catch (TxEnds.wp_statement_bind (P := fun _ s => s = .ofTables T)
    (fun _ => True) ((Sync.wp_pure ()).2 rfl) ?_ trivial (by simp))
  rintro _ s rfl
  refine TxEnds.wp_statement_bind (P := fun _ s => (uuid.read event.id).isSome
      ∧ s.current.ticketTypes = T.ticketTypes ∧ s.current.pools = T.pools)
    (fun _ => True) (wp_withUuid fun id hid => ?_) ?_ trivial (by simp)
  · rw [Sync.wp_modify]
    exact ⟨by rw [hid]; rfl, rfl, rfl⟩
  rintro _ s ⟨hevent, htickets, hpools⟩
  obtain ⟨eventId, hevent⟩ := Option.isSome_iff_exists.1 hevent
  refine wp_insertAll (P := TicketTypesToInsert uuid event eventId T) (fun _ _ _ h => h.insert)
    (fun s₁ h₁ => ?_) _ 0 s ⟨hpools, fun tt htt => by rw [hids tt htt, hevent],
      fun _ htt => .inl htt, fun key => by rw [htickets]⟩
  refine wp_insertAll (P := PoolsToInsert uuid inventoryPools s₁.current.ticketTypes T)
    (fun _ _ _ h => h.insert) (fun s₂ h₂ => ?_) _ 0 s₁ ⟨rfl, fun key => by rw [h₁.pools]⟩
  -- nothing is left to be inserted
  rw [Async.wp_await, TxEnds.wp_commitTx]
  refine ⟨fun _ => ⟨s₂.current, rfl, fun tt htt => (h₁.keyed tt htt).resolve_left (by simp),
    ⟨eventId, hevent, fun key => ?_⟩, fun key => ?_⟩, fun _ => by simp, fun _ => by simp⟩
  · rw [h₂.ticketTypes, ← h₁.rows key]
    simp [firstRow]
  · rw [← h₂.rows key]
    simp [firstRow]

end Rows

/-! ## The response and the rows -/

section Agreement

variable {uuid : UuidReading} {toUpperCase : String → String} {env : CreateEnv}
  {offers : List (String × Offer)} {event : Event} {inventoryPools : List InventoryPool}
  {T T' : CatalogTables}

theorem lastWith_some {id : String} {o : String × Offer} (h : lastWith id offers = some o) :
    o ∈ offers ∧ o.1 = id :=
  ⟨List.mem_reverse.1 (List.mem_of_find?_eq_some h), by simpa using List.find?_some h⟩

/-- An entry of the request has a ticket type under its id. -/
theorem Built.exists_of_mem (h : Built offers event inventoryPools) {o : String × Offer}
    (ho : o ∈ offers) : ∃ tt ∈ event.ticketTypes, tt.id = o.1 := by
  rcases hlast : lastWith o.1 offers with _ | ⟨id, o'⟩
  · simpa using List.find?_eq_none.1 hlast o (List.mem_reverse.2 ho)
  · obtain rfl := (lastWith_some hlast).2
    obtain ⟨tt, htt, hid, -⟩ := (h.last _ o').1 hlast
    exact ⟨tt, htt, hid⟩

theorem Built.lastWith_of_mem (h : Built offers event inventoryPools) {tt : TicketType}
    (htt : tt ∈ event.ticketTypes) : lastWith tt.id offers = some (tt.id, tt.offer) :=
  (h.last _ _).2 ⟨tt, htt, rfl, rfl⟩

/-- The pool inserted first under a key is that of the entry that comes first. -/
theorem Built.firstRow_pools (h : Built offers event inventoryPools) (key : String) :
    firstRow uuid InventoryPool.ticketTypeId InventoryPool.row key inventoryPools
      = (offers.find? fun o => uuid.read o.1 = some key).map fun o => fullPool o.2.capacity := by
  rw [h.pools, firstRow, List.find?_map, Option.map_map]
  rfl

/-- Where a key has one id, what comes first under the key is what comes first under the id. -/
theorem find?_key_eq_firstWith {id key : String} (hkey : uuid.read id = some key)
    (hone : ∀ o ∈ offers, uuid.read o.1 = some key → o.1 = id) :
    offers.find? (fun o => uuid.read o.1 = some key) = firstWith id offers := by
  refine List.find?_congr fun o ho => decide_eq_decide.2 ⟨hone o ho, ?_⟩
  rintro rfl
  exact hkey

theorem firstRow_eq_some {α ρ : Type} {idOf : α → String} {rowOf : α → ρ} {key : String}
    {as : List α} {row : ρ} (h : firstRow uuid idOf rowOf key as = some row) :
    ∃ a ∈ as, uuid.read (idOf a) = some key ∧ rowOf a = row := by
  obtain ⟨a, ha, hrow⟩ := Option.map_eq_some_iff.1 h
  exact ⟨a, List.mem_of_find?_eq_some ha, by simpa using List.find?_some ha, hrow⟩

theorem exists_firstRow {α ρ : Type} (idOf : α → String) (rowOf : α → ρ) {key : String}
    {as : List α} {a : α} (ha : a ∈ as) (hkey : uuid.read (idOf a) = some key) :
    ∃ row, firstRow uuid idOf rowOf key as = some row := by
  unfold firstRow
  rcases hfind : as.find? fun a => uuid.read (idOf a) = some key with _ | a'
  · simpa [hkey] using List.find?_eq_none.1 hfind a ha
  · exact ⟨rowOf a', rfl⟩

/-- Where a key was not there, no pool was. -/
theorem CatalogTables.pools_none {key : String} (h : T.ticketTypes.row key = none) :
    T.pools.row key = none := by
  rcases hp : T.pools.row key with _ | p
  · rfl
  · simpa [h] using T.ticketType_of key p hp

/-- No row refers to an event that is not there. -/
theorem CatalogTables.ne_of_fresh (hfresh : ∀ key, uuid.read event.id = some key →
    T.events.row key = none) {id : String} {row : TicketTypeRow}
    (hrow : T.ticketTypes.row id = some row) : uuid.read event.id ≠ some row.eventId := by
  intro hkey
  simpa [hfresh _ hkey] using T.event_of id row hrow

/-- An entry is in the request under the id of its ticket type. -/
theorem Built.mem_offers (h : Built offers event inventoryPools) {tt : TicketType}
    (htt : tt ∈ event.ticketTypes) : (tt.id, tt.offer) ∈ offers :=
  (lastWith_some (h.lastWith_of_mem htt)).1

theorem Unambiguous.eq_of_key (hU : Unambiguous uuid offers T)
    (hbuilt : Built offers event inventoryPools) {tt tt' : TicketType} {key : String}
    (htt : tt ∈ event.ticketTypes) (htt' : tt' ∈ event.ticketTypes)
    (hkey : uuid.read tt.id = some key) (hkey' : uuid.read tt'.id = some key) : tt = tt' :=
  List.inj_on_of_nodup_map hbuilt.nodup htt htt'
    (hU.distinct _ (hbuilt.mem_offers htt) _ (hbuilt.mem_offers htt') (hkey.trans hkey'.symm))

theorem Saved.storedAsPromised (hbuilt : Built offers event inventoryPools)
    (h : Saved uuid event inventoryPools T T')
    (hfresh : ∀ key, uuid.read event.id = some key → T.events.row key = none)
    (hU : Unambiguous uuid offers T) : StoredAsPromised uuid event.toDTO T' := by
  obtain ⟨eventId, hevent, hrows⟩ := h.ticketTypes
  refine ⟨?_, fun dto hdto => ?_, fun id row hrow hkey => ?_⟩
  · simp only [Event.toDTO, List.map_map]
    refine (List.Nodup.of_map _ hbuilt.nodup).map_on fun tt htt tt' htt' heq => ?_
    obtain ⟨key, hkey⟩ := Option.isSome_iff_exists.1 (h.keyed tt htt)
    exact hU.eq_of_key hbuilt htt htt' hkey (heq.symm.trans hkey)
  · obtain ⟨tt, htt, rfl⟩ := List.mem_map.1 hdto
    obtain ⟨key, hkey⟩ := Option.isSome_iff_exists.1 (h.keyed tt htt)
    have hmem := hbuilt.mem_offers htt
    have hnone := hU.fresh _ hmem key hkey
    refine ⟨key, eventId, hkey, hevent, ?_, ?_⟩
    · obtain ⟨row, hfirst⟩ := exists_firstRow TicketType.id (fun tt => tt.row key eventId) htt hkey
      obtain ⟨tt', htt', hkey', rfl⟩ := firstRow_eq_some hfirst
      obtain rfl := hU.eq_of_key hbuilt htt' htt hkey' hkey
      rw [hrows, hnone, hfirst, Option.none_or]
      rfl
    · have hone : ∀ o ∈ offers, uuid.read o.1 = some key → o.1 = tt.id :=
        fun o ho hkey' => hU.distinct o ho _ hmem (hkey'.trans hkey.symm)
      have hcapacity := hU.pooled _ hmem
      rw [hbuilt.lastWith_of_mem htt, Option.map_some] at hcapacity
      obtain ⟨o, hfirst, hcapacity⟩ := Option.map_eq_some_iff.1 hcapacity
      rw [h.pools, CatalogTables.pools_none hnone, Option.none_or, hbuilt.firstRow_pools,
        find?_key_eq_firstWith hkey hone, hfirst, Option.map_some, hcapacity]
      rfl
  · rw [hrows] at hrow
    rcases hold : T.ticketTypes.row id with _ | old <;> rw [hold] at hrow
    · obtain ⟨tt, htt, hid, rfl⟩ := firstRow_eq_some (Option.none_or.symm.trans hrow)
      exact ⟨_, List.mem_map.2 ⟨tt, htt, rfl⟩, hid, rfl⟩
    · obtain rfl := Option.some.inj hrow
      exact absurd hkey (T.ne_of_fresh hfresh hold)

theorem Saved.unambiguous (hbuilt : Built offers event inventoryPools)
    (h : Saved uuid event inventoryPools T T')
    (hfresh : ∀ key, uuid.read event.id = some key → T.events.row key = none)
    (hS : StoredAsPromised uuid event.toDTO T') : Unambiguous uuid offers T := by
  obtain ⟨eventId, hevent, hrows⟩ := h.ticketTypes
  have hstored : ∀ tt ∈ event.ticketTypes, ∀ key, uuid.read tt.id = some key →
      T'.ticketTypes.row key = some (tt.offer.row key eventId)
        ∧ T'.pools.row key = some (fullPool tt.capacity) := by
    intro tt htt key hkey
    obtain ⟨key', eventId', hkey', hevent', hrow, hpool⟩ :=
      hS.stored _ (List.mem_map.2 ⟨tt, htt, rfl⟩)
    obtain rfl := Option.some.inj (hkey'.symm.trans hkey)
    obtain rfl := Option.some.inj (hevent'.symm.trans hevent)
    exact ⟨hrow, hpool⟩
  have hnone : ∀ tt ∈ event.ticketTypes, ∀ key, uuid.read tt.id = some key →
      T.ticketTypes.row key = none := by
    intro tt htt key hkey
    rcases hold : T.ticketTypes.row key with _ | old
    · rfl
    · -- the row that was there refers to another event
      have hrow := (hstored tt htt key hkey).1
      rw [hrows, hold, Option.some_or] at hrow
      have hne := T.ne_of_fresh hfresh hold
      rw [Option.some.inj hrow] at hne
      exact absurd hevent hne
  have hdistinct : ∀ o ∈ offers, ∀ o' ∈ offers, uuid.read o.1 = uuid.read o'.1 → o.1 = o'.1 := by
    intro o ho o' ho' hkey
    obtain ⟨tt, htt, hid⟩ := hbuilt.exists_of_mem ho
    obtain ⟨tt', htt', hid'⟩ := hbuilt.exists_of_mem ho'
    have hdto := List.inj_on_of_nodup_map hS.once (List.mem_map.2 ⟨tt, htt, rfl⟩)
      (List.mem_map.2 ⟨tt', htt', rfl⟩) (by rw [hid, hid', hkey])
    rw [← hid, ← hid']
    exact congrArg TicketTypeDTO.id hdto
  refine ⟨fun o ho key hkey => ?_, hdistinct, fun o ho => ?_⟩
  · obtain ⟨tt, htt, hid⟩ := hbuilt.exists_of_mem ho
    exact hnone tt htt key (hid ▸ hkey)
  · obtain ⟨tt, htt, hid⟩ := hbuilt.exists_of_mem ho
    obtain ⟨key, hkey⟩ := Option.isSome_iff_exists.1 (h.keyed tt htt)
    have hpool := (hstored tt htt key hkey).2
    have hone : ∀ o' ∈ offers, uuid.read o'.1 = some key → o'.1 = tt.id :=
      fun o' ho' hkey' => hid ▸ hdistinct o' ho' o ho (by rw [hkey', ← hid, hkey])
    rw [h.pools, CatalogTables.pools_none (hnone tt htt key hkey), Option.none_or,
      hbuilt.firstRow_pools, find?_key_eq_firstWith hkey hone] at hpool
    obtain ⟨o', hfirst, hfull⟩ := Option.map_eq_some_iff.1 hpool
    rw [← hid, hfirst, hbuilt.lastWith_of_mem htt, Option.map_some, Option.map_some]
    exact congrArg some (congrArg PoolRow.totalCapacity hfull)

theorem execute_spec (dto : CreateEventRequestDTO) :
    (CreateEventUseCase.execute uuid toUpperCase env dto).wp
      (onOk fun response s => ∃ event inventoryPools T',
        Built (dto.offers toUpperCase env) event inventoryPools ∧ event.id = env.eventId.val
          ∧ response = event.toDTO ∧ s = .ofTables T' ∧ Saved uuid event inventoryPools T T')
      (.ofTables T) := by
  unfold CreateEventUseCase.execute
  rw [Async.wp_bind]
  rcases hbuild : CreateEventUseCase.build toUpperCase env dto with e | ⟨event, inventoryPools⟩
  · exact (Async.wp_throw e).2 trivial
  refine (Async.wp_pure _).2 ?_
  obtain ⟨hbuilt, hid⟩ := build_built hbuild
  simp only [post_ok]
  rw [Async.wp_bind]
  refine Async.wp_mono (save_spec (T := T) hbuilt.eventId) ?_
  rintro (e | _) s hs
  · trivial
  obtain ⟨T', rfl, hsaved⟩ := hs
  exact (Async.wp_pure _).2 ⟨event, inventoryPools, T', hbuilt, hid, rfl, rfl, hsaved⟩

end Agreement

/-- Tables without rows. -/
def CatalogTables.empty : CatalogTables :=
  ⟨.empty, .empty, .empty, by simp, by simp, by simp⟩

def conferenceId : Uuid := ⟨"3a9856f2-e568-45b0-9844-0b73c242c748", by decide⟩

def vipId : Uuid := ⟨"5b2c9f0e-4c1d-4f67-9a55-0d8f7c3f1a20", by decide⟩

def standardId : Uuid := ⟨"c0a4e1d7-2f3b-4e86-8b1d-7f60a95c2e34", by decide⟩

/-- Every statement is answered, and one id is drawn for all ticket types without one. -/
def answeredCreate : CreateEnv :=
  ⟨conferenceId, fun _ => vipId, .answered, .answered, fun _ => .answered, fun _ => .answered,
    .answered, .answered⟩

/-- A conference with these ticket types. -/
def conferenceWith (ttDtos : List TicketTypeRequestDTO) : CreateEventRequestDTO :=
  ⟨"org-99", "Launchpad Systems Conference 2026", some 9, some 18, some ttDtos⟩

def vipPass (capacity : ℤ) : TicketTypeRequestDTO :=
  ⟨none, "VIP Pass", .ofInt 15000, some "USD", .ofInt capacity⟩

/-- The ids of the examples, as the database reads them. -/
def conferenceReading : UuidReading := .ofIds [conferenceId.val, vipId.val, standardId.val]

/-- The call as it runs on empty tables. -/
def createConference (ttDtos : List TicketTypeRequestDTO) :
    Option (Except CreateError EventResponseDTO × CatalogSession) :=
  (CreateEventUseCase.execute conferenceReading id answeredCreate (conferenceWith ttDtos)).run
    (.ofTables .empty)

theorem createConference_returns (ttDtos : List TicketTypeRequestDTO)
    (h : (createConference ttDtos).any (fun p => p.1.toBool) = true) :
    ∃ response s, createConference ttDtos = some (.ok response, s) := by
  obtain ⟨⟨e | response, s⟩, hrun, hok⟩ := (Option.any_eq_true _ _).1 h
  · cases hok
  · exact ⟨response, s, hrun⟩

/-- Two ticket types; the request has an entry for the second that a later one replaces. -/
def passes : List TicketTypeRequestDTO :=
  [vipPass 20, ⟨some standardId.val, "Early Bird", .ofInt 4000, none, .ofInt 100⟩,
    ⟨some standardId.val, "Standard Pass", .ofInt 5000, none, .ofInt 100⟩]

theorem passes_unambiguous :
    Unambiguous conferenceReading ((conferenceWith passes).offers id answeredCreate) .empty :=
  ⟨fun _ _ _ _ => rfl, by decide +kernel, by decide +kernel⟩

theorem createConference_parts {ttDtos : List TicketTypeRequestDTO}
    (hok : (createConference ttDtos).any (fun p => p.1.toBool) = true)
    (hU : ¬ Unambiguous conferenceReading ((conferenceWith ttDtos).offers id answeredCreate)
      .empty) :
    ∃ response s, createConference ttDtos = some (.ok response, s)
      ∧ ¬ StoredAsPromised conferenceReading response s.committed := by
  obtain ⟨response, s, hrun⟩ := createConference_returns ttDtos hok
  obtain ⟨event, inventoryPools, T', hbuilt, -, rfl, rfl, hsaved⟩ := execute_spec _ _ _ hrun
  exact ⟨_, _, hrun, fun hS => hU (hsaved.unambiguous hbuilt (fun _ _ => rfl) hS)⟩

end LaunchPad
