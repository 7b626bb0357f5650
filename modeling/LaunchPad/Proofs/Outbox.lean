import LaunchPad.Outbox

/-!
# No event is lost within five failures

The status of a row follows its `retry_count`, and `retry_count` the failures recorded. Until the
broker has accepted the event, each failure a sweep records of it answers a rejection the same sweep
got, so there are no more failures than rejections.
-/

namespace LaunchPad

open Interleave Rows

variable {τ δ : Type}

/-- The sweeps that recorded a failure of the row, one for each failure. -/
def failuresOf (db : Outbox τ δ) (id : String) : List τ :=
  (db.failures.filter fun f => f.2 = id).map Prod.fst

/-! ## The broker's log -/

section Log

variable {db : Outbox τ δ} {t : τ} {topic eventId : String} {event : DomainEvent δ}

/-- The outbox after the broker did one more thing. -/
def Outbox.log (db : Outbox τ δ) (e : BrokerEvent τ δ) : Outbox τ δ :=
  { db with broker := db.broker ++ [e] }

@[simp] theorem failuresOf_log (e : BrokerEvent τ δ) (id : String) :
    failuresOf (db.log e) id = failuresOf db id := rfl

theorem neverAccepted_accepted :
    NeverAccepted (db.log (.accepted t topic event)) eventId
      ↔ NeverAccepted db eventId ∧ event.eventId ≠ eventId := by
  unfold NeverAccepted Outbox.log
  constructor
  · intro h
    exact ⟨fun t' topic' event' hm => h t' topic' event' (by simp [hm]), h t topic event (by simp)⟩
  · rintro ⟨h, hne⟩ t' topic' event' hm
    simp only [List.mem_append, List.mem_singleton, BrokerEvent.accepted.injEq] at hm
    rcases hm with hm | ⟨-, -, rfl⟩
    · exact h t' topic' event' hm
    · exact hne

theorem neverAccepted_rejected :
    NeverAccepted (db.log (.rejected t topic event)) eventId ↔ NeverAccepted db eventId := by
  simp [NeverAccepted, Outbox.log]

@[simp] theorem rejectionsOf_accepted :
    rejectionsOf (db.log (.accepted t topic event)) eventId = rejectionsOf db eventId := by
  simp [rejectionsOf, Outbox.log]

theorem rejectionsOf_rejected :
    rejectionsOf (db.log (.rejected t topic event)) eventId
      = rejectionsOf db eventId ++ if event.eventId = eventId then [t] else [] := by
  simp only [rejectionsOf, Outbox.log, List.filterMap_append]
  split_ifs with he <;> simp [he]

end Log

/-! ## A new row -/

section NewRow

variable {db db' : Outbox τ δ} {duplicate : OutboxError} {id : String} {event : DomainEvent δ}
  {now : Time}

/-- An insert that does not leave the table as it was finds neither the event nor the key there. -/
theorem insertOutbox_eq_some {res : Except OutboxError Unit}
    (h : insertOutbox duplicate id event now db = some (res, db')) :
    db' = db ∨ (∀ k r, db.rows.row k = some r → r.payload.eventId ≠ event.eventId)
      ∧ db.rows.row id = none
      ∧ db' = { db with rows := db.rows.set id ⟨event, .pending, 0, now, none, none⟩ } := by
  unfold insertOutbox at h
  split_ifs at h with hevent hid <;> simp only [Option.some.injEq, Prod.mk.injEq] at h <;>
    obtain ⟨-, rfl⟩ := h
  · exact .inl rfl
  · exact .inl rfl
  · refine .inr ⟨fun k r hrow he => hevent ?_, by simpa using hid, rfl⟩
    exact ⟨k, Table.mem_keys_of_row hrow, by simp [hrow, he]⟩

/-- The events stay different from each other. -/
theorem unique_set_of_new {R : Table String (OutboxRow δ)}
    (hunique : ∀ k k' r r', R.row k = some r → R.row k' = some r' →
      r.payload.eventId = r'.payload.eventId → k = k')
    {row : OutboxRow δ}
    (hevent : ∀ k r, R.row k = some r → r.payload.eventId ≠ row.payload.eventId)
    {k k' : String} {r r' : OutboxRow δ} (hr : (R.set id row).row k = some r)
    (hr' : (R.set id row).row k' = some r') (he : r.payload.eventId = r'.payload.eventId) :
    k = k' := by
  rcases Table.set_row_eq_some.1 hr with ⟨rfl, rfl⟩ | ⟨-, h⟩ <;>
    rcases Table.set_row_eq_some.1 hr' with ⟨rfl, rfl⟩ | ⟨-, h'⟩
  · rfl
  · exact absurd he.symm (hevent k' r' h')
  · exact absurd he (hevent k r h)
  · exact hunique k k' r r' h h' he

end NewRow

variable [DecidableEq τ]

/-- What is known of the row `id`. -/
structure RowInv (db : Outbox τ δ) (id : String) (r : OutboxRow δ) : Prop where
  retries : r.retryCount = (failuresOf db id).length
  status : NeverAccepted db r.payload.eventId →
    r.status = if r.retryCount ≤ 5 then .pending else .failed
  credited : NeverAccepted db r.payload.eventId → ∀ t,
    (failuresOf db id).count t ≤ (rejectionsOf db r.payload.eventId).count t

structure OutboxInv (db : Outbox τ δ) : Prop where
  fresh : ∀ id, db.rows.row id = none → failuresOf db id = []
  row : ∀ id r, db.rows.row id = some r → RowInv db id r

/-- What the call `t` may do to the outbox. -/
structure OutboxGuarantee (t : τ) (db db' : Outbox τ δ) : Prop where
  rows : ∀ id r, db.rows.row id = some r → ∃ r', db'.rows.row id = some r' ∧ r'.payload = r.payload
  accepted : ∀ eventId, NeverAccepted db' eventId → NeverAccepted db eventId
  rejections : ∀ t', t' ≠ t → ∀ eventId,
    (rejectionsOf db' eventId).count t' = (rejectionsOf db eventId).count t'
  failures : ∀ t', t' ≠ t → ∀ id, (failuresOf db' id).count t' = (failuresOf db id).count t'
  inv : OutboxInv db → OutboxInv db'

def OutboxRely (t : τ) (db db' : Outbox τ δ) : Prop := ∃ t', t ≠ t' ∧ OutboxGuarantee t' db db'

section Statements

variable {db : Outbox τ δ} {t : τ}

theorem outbox_refl (t : τ) (db : Outbox τ δ) : OutboxGuarantee t db db :=
  ⟨fun _ r h => ⟨r, h, rfl⟩, fun _ h => h, fun _ _ _ => rfl, fun _ _ _ => rfl, id⟩

theorem outboxInv_log (h : OutboxInv db) (e : BrokerEvent τ δ) : OutboxInv (db.log e) := by
  refine ⟨h.fresh, fun id r hrow => ?_⟩
  have hr := h.row id r hrow
  rcases e with ⟨t, topic, event⟩ | ⟨t, topic, event⟩
  · exact ⟨hr.retries, fun hn => hr.status (neverAccepted_accepted.1 hn).1, fun hn t' => by
      simpa using hr.credited (neverAccepted_accepted.1 hn).1 t'⟩
  · refine ⟨hr.retries, fun hn => hr.status (neverAccepted_rejected.1 hn), fun hn t' => ?_⟩
    rw [rejectionsOf_rejected, List.count_append, failuresOf_log]
    exact (hr.credited (neverAccepted_rejected.1 hn) t').trans (Nat.le_add_right _ _)

theorem outbox_accepted {topic : String} {event : DomainEvent δ} :
    OutboxGuarantee t db (db.log (.accepted t topic event)) where
  rows _ r h := ⟨r, h, rfl⟩
  accepted _ h := (neverAccepted_accepted.1 h).1
  rejections _ _ _ := by rw [rejectionsOf_accepted]
  failures _ _ _ := rfl
  inv h := outboxInv_log h _

theorem outbox_rejected {topic : String} {event : DomainEvent δ} :
    OutboxGuarantee t db (db.log (.rejected t topic event)) where
  rows _ r h := ⟨r, h, rfl⟩
  accepted _ h := neverAccepted_rejected.1 h
  rejections t' ht' eventId := by
    rw [rejectionsOf_rejected, List.count_append]
    split_ifs <;> simp [Ne.symm ht']
  failures _ _ _ := rfl
  inv h := outboxInv_log h _

/-- A row is written whose payload, if it was there before, stays. -/
theorem outbox_set {id : String} {r' : OutboxRow δ}
    (hpayload : ∀ r, db.rows.row id = some r → r'.payload = r.payload)
    (hinv : OutboxInv db → RowInv db id r') :
    OutboxGuarantee t db { db with rows := db.rows.set id r' } where
  rows id₁ r₁ h := by
    rcases eq_or_ne id₁ id with rfl | hne
    · exact ⟨r', Table.set_row_self .., hpayload r₁ h⟩
    · exact ⟨r₁, by rw [Table.set_row, if_neg hne]; exact h, rfl⟩
  accepted _ h := h
  rejections _ _ _ := rfl
  failures _ _ _ := rfl
  inv h := by
    refine ⟨fun id₁ hnone => ?_, fun id₁ r₁ hsome => ?_⟩
    · rw [Table.set_row] at hnone
      split_ifs at hnone
      exact h.fresh id₁ hnone
    · rw [Table.set_row] at hsome
      split_ifs at hsome with he
      · rw [← Option.some.inj hsome, he]
        exact ⟨(hinv h).retries, (hinv h).status, (hinv h).credited⟩
      · have hr := h.row id₁ r₁ hsome
        exact ⟨hr.retries, hr.status, hr.credited⟩

/-! ## What a sweep knows -/

/-- The rows it has fetched are still there, with the same events. -/
structure Sweeping (records : List (OutboxRecord δ)) (db : Outbox τ δ) : Prop where
  inv : OutboxInv db
  known : ∀ record ∈ records, ∃ r, db.rows.row record.id = some r
    ∧ r.payload = record.row.payload

/-- The broker has accepted the record's event. -/
structure Sent (records : List (OutboxRecord δ)) (record : OutboxRecord δ) (db : Outbox τ δ) :
    Prop where
  sweeping : Sweeping records db
  accepted : ¬ NeverAccepted db record.row.payload.eventId

/-- The broker has accepted the record's event, or rejected it once more than the sweep has
recorded. -/
structure Caught (t : τ) (records : List (OutboxRecord δ)) (record : OutboxRecord δ)
    (db : Outbox τ δ) : Prop where
  sweeping : Sweeping records db
  credit : NeverAccepted db record.row.payload.eventId →
    (failuresOf db record.id).count t < (rejectionsOf db record.row.payload.eventId).count t

variable {records : List (OutboxRecord δ)} {record : OutboxRecord δ}

theorem OutboxGuarantee.sweeping {db' : Outbox τ δ} (hG : OutboxGuarantee t db db')
    (h : Sweeping records db) : Sweeping records db' := by
  refine ⟨hG.inv h.inv, fun record hr => ?_⟩
  obtain ⟨r, hrow, hp⟩ := h.known record hr
  obtain ⟨r', hrow', hp'⟩ := hG.rows _ r hrow
  exact ⟨r', hrow', hp'.trans hp⟩

theorem stable_sweeping : Stable (OutboxRely t) (Sweeping records : Outbox τ δ → Prop) :=
  fun _ _ h ⟨_, _, hG⟩ => hG.sweeping h

theorem stable_sent : Stable (OutboxRely t) (Sent records record) :=
  fun _ _ h ⟨_, _, hG⟩ => ⟨hG.sweeping h.sweeping, fun hn => h.accepted (hG.accepted _ hn)⟩

theorem stable_caught : Stable (OutboxRely t) (Caught t records record) := by
  rintro db db' h ⟨t', ht, hG⟩
  refine ⟨hG.sweeping h.sweeping, fun hn => ?_⟩
  rw [hG.failures t ht, hG.rejections t ht]
  exact h.credit (hG.accepted _ hn)

/-- The outbox after the failure is recorded. -/
def Outbox.failed (db : Outbox τ δ) (t : τ) (id error : String) (r : OutboxRow δ) : Outbox τ δ :=
  { db with
    rows := db.rows.set id { r with
      status := if 5 ≤ r.retryCount then .failed else .pending
      retryCount := r.retryCount + 1
      lastError := some error }
    failures := db.failures ++ [(t, id)] }

omit [DecidableEq τ] in
theorem failuresOf_failed (id id' error : String) (r : OutboxRow δ) :
    failuresOf (db.failed t id error r) id'
      = failuresOf db id' ++ if id' = id then [t] else [] := by
  unfold failuresOf Outbox.failed
  rw [List.filter_append, List.map_append]
  split_ifs with he
  · simp [he]
  · simp [Ne.symm he]

theorem Caught.inv_failed (h : Caught t records record db) {r : OutboxRow δ}
    (hrow : db.rows.row record.id = some r) (hp : r.payload = record.row.payload)
    (error : String) : OutboxInv (db.failed t record.id error r) := by
  have hI := h.sweeping.inv
  refine ⟨fun id hnone => ?_, fun id r' hsome => ?_⟩
  · simp only [Outbox.failed, Table.set_row] at hnone
    split_ifs at hnone with he
    rw [failuresOf_failed, if_neg he, hI.fresh id hnone]
    rfl
  · simp only [Outbox.failed, Table.set_row] at hsome
    by_cases he : id = record.id
    · have hr := hI.row record.id r hrow
      rw [if_pos he] at hsome
      rw [← Option.some.inj hsome, he]
      refine ⟨?_, fun hn => ?_, fun hn t' => ?_⟩
      · rw [failuresOf_failed, if_pos rfl, List.length_append, ← hr.retries]
        rfl
      · by_cases h5 : 5 ≤ r.retryCount
        · simp only [if_pos h5, if_neg (show ¬ r.retryCount + 1 ≤ 5 by omega)]
        · simp only [if_neg h5, if_pos (show r.retryCount + 1 ≤ 5 by omega)]
      · have hn' : NeverAccepted db r.payload.eventId := hn
        change _ ≤ (rejectionsOf db r.payload.eventId).count t'
        rw [failuresOf_failed, if_pos rfl, List.count_append]
        rcases eq_or_ne t' t with rfl | ht
        · have hlt := h.credit (hp ▸ hn')
          rw [← hp] at hlt
          simpa [Nat.succ_le_iff] using hlt
        · simpa [Ne.symm ht] using hr.credited hn' t'
    · rw [if_neg he] at hsome
      have hr := hI.row id r' hsome
      refine ⟨?_, hr.status, fun hn t' => ?_⟩
      · rw [failuresOf_failed, if_neg he, List.append_nil]
        exact hr.retries
      · rw [failuresOf_failed, if_neg he, List.append_nil]
        exact hr.credited hn t'

theorem Caught.guarantee (h : Caught t records record db) {r : OutboxRow δ}
    (hrow : db.rows.row record.id = some r) (hp : r.payload = record.row.payload)
    (error : String) : OutboxGuarantee t db (db.failed t record.id error r) where
  rows id₁ r₁ h₁ := by
    rcases eq_or_ne id₁ record.id with rfl | hne
    · rw [hrow] at h₁
      exact ⟨_, Table.set_row_self .., by rw [Option.some.inj h₁]⟩
    · exact ⟨r₁, by rw [Outbox.failed, Table.set_row, if_neg hne]; exact h₁, rfl⟩
  accepted _ hn := hn
  rejections _ _ _ := rfl
  failures t' ht' id := by
    rw [failuresOf_failed, List.count_append]
    split_ifs <;> simp [Ne.symm ht']
  inv _ := h.inv_failed hrow hp error

theorem Sent.caught (h : Sent records record db) : Caught t records record db :=
  ⟨h.sweeping, fun hn => absurd hn h.accepted⟩

/-! ## The statements -/

theorem outbox_publish {rejection : OutboxError} {fate : Fate} (hr : record ∈ records) :
    Within (OutboxGuarantee t) (Sweeping records)
      (publish rejection fate t record.row.payload.eventType record.row.payload)
      (post (fun _ => Sent records record) fun _ => Caught t records record) := by
  intro db h
  have hsent : Sent records record
      (db.log (.accepted t record.row.payload.eventType record.row.payload)) :=
    ⟨outbox_accepted.sweeping h, fun hn => (neverAccepted_accepted.1 hn).2 rfl⟩
  unfold Sync.wp publish
  rcases fate with _ | _ | _ <;> rintro _ _ ⟨⟩
  · exact ⟨outbox_accepted, hsent⟩
  · refine ⟨outbox_rejected, outbox_rejected.sweeping h, fun hn => ?_⟩
    obtain ⟨r, hrow, hp⟩ := h.known record hr
    have hle := (h.inv.row _ r hrow).credited (hp ▸ neverAccepted_rejected.1 hn) t
    rw [hp] at hle
    change (failuresOf db _).count t < (rejectionsOf (db.log _) _).count t
    rw [rejectionsOf_rejected, if_pos rfl, List.count_append]
    simpa using Nat.lt_succ_of_le hle
  · exact ⟨outbox_accepted, hsent.caught⟩

theorem outbox_markPublished {publishedAt : Time} (hr : record ∈ records) :
    Within (OutboxGuarantee t) (Sent records record) (markPublished record.id publishedAt)
      (post (fun _ => Sent records record) fun _ => Caught t records record) := by
  intro db h
  obtain ⟨r, hrow, hp⟩ := h.sweeping.known record hr
  have hG : OutboxGuarantee t db { db with
      rows := db.rows.set record.id { r with
        status := .published
        publishedAt := some publishedAt
        lastError := none } } := by
    refine outbox_set (fun r₁ h₁ => ?_) fun hI => ?_
    · rw [hrow] at h₁
      rw [Option.some.inj h₁]
    · have hn : ¬ NeverAccepted db r.payload.eventId := hp ▸ h.accepted
      exact ⟨(hI.row _ r hrow).retries, fun h => absurd h hn, fun h => absurd h hn⟩
  unfold Sync.wp markPublished
  rw [hrow]
  rintro _ _ ⟨⟩
  exact ⟨hG, hG.sweeping h.sweeping, h.accepted⟩

theorem outbox_recordFailure {outOfRange : OutboxError} {error : String} (hr : record ∈ records) :
    Within (OutboxGuarantee t) (Caught t records record)
      (recordFailure outOfRange t record.id error)
      (post (fun _ => Sweeping records) fun _ => Sweeping records) := by
  intro db h
  obtain ⟨r, hrow, hp⟩ := h.sweeping.known record hr
  have hG := h.guarantee hrow hp error
  unfold Sync.wp recordFailure
  rw [hrow]
  simp only []
  by_cases hint : r.retryCount + 1 ≤ 2147483647
  · rw [if_pos hint]
    rintro _ _ ⟨⟩
    exact ⟨hG, hG.sweeping h.sweeping⟩
  · rw [if_neg hint]
    rintro _ _ ⟨⟩
    exact ⟨outbox_refl t db, h.sweeping⟩

theorem outbox_fetch {negative : OutboxError} {picked : List String} {limit : ℤ}
    {aggregateId : Option String} :
    Within (OutboxGuarantee t) (OutboxInv : Outbox τ δ → Prop)
      (fetchPendingBatch negative picked limit aggregateId)
      (post Sweeping fun _ => OutboxInv) := by
  refine Within.of_unchanged (outbox_refl t) fun db h => ?_
  unfold Sync.wp fetchPendingBatch
  split_ifs
  · rintro _ _ ⟨⟩
    exact ⟨rfl, h⟩
  · rintro _ _ ⟨⟩
    refine ⟨rfl, h, fun record hr => ?_⟩
    simp only [List.mem_filterMap, Option.map_eq_some_iff] at hr
    obtain ⟨id, -, r, hrow, rfl⟩ := hr
    exact ⟨r, hrow, rfl⟩
  · simp

theorem outbox_insert {duplicate : OutboxError} {id : String} {event : DomainEvent δ} {now : Time} :
    Within (OutboxGuarantee t) OutboxInv (insertOutbox duplicate id event now)
      (post (fun _ => OutboxInv) fun _ => OutboxInv) := by
  intro db h r db' hs
  have hG : OutboxGuarantee t db db' := by
    rcases insertOutbox_eq_some hs with rfl | ⟨-, hnone, rfl⟩
    · exact outbox_refl t db'
    · refine outbox_set (fun r hr => absurd hr (by simp [hnone])) fun hI => ?_
      have hnil := hI.fresh id hnone
      exact ⟨by simp [hnil], fun _ => rfl, fun _ t' => by simp [hnil]⟩
  refine ⟨hG, ?_⟩
  cases r <;> exact hG.inv h

/-! ## The sweeps -/

theorem stable_outboxInv : Stable (OutboxRely t) (OutboxInv : Outbox τ δ → Prop) :=
  fun _ _ h ⟨_, _, hG⟩ => hG.inv h

theorem safe_publishRecord {env : SweepEnv} {n : ℕ} (hr : record ∈ records)
    (h : Sweeping records db) :
    Safe (OutboxRely t) (OutboxGuarantee t) (post (fun _ => Sweeping records) fun _ => OutboxInv)
      (publishRecord env t n record) db := by
  have hsweep : Stable (OutboxRely t) (Sweeping records : Outbox τ δ → Prop) := stable_sweeping
  unfold publishRecord
  refine Safe.tryCatch
    (?_ : Safe _ _ (post (fun _ => Sweeping records) fun _ => Caught t records record) _ _)
    (fun _ _ h => h) fun err db h => ?_
  · refine Safe.of_within hsweep (fun _ => stable_sent) (fun _ => stable_caught)
      (outbox_publish hr) h (fun _ db h => ?_) fun _ _ h => h
    refine Safe.of_within stable_sent (fun _ => stable_sent) (fun _ => stable_caught)
      (Within.autocommit (outbox_refl t) (outbox_markPublished hr) (fun _ h => h.caught)
        fun _ _ h => h.caught) h (fun _ db h => ?_) fun _ _ h => h
    exact Safe.pure hsweep h.sweeping
  · refine Safe.of_within stable_caught (fun _ => hsweep) (fun _ => hsweep)
      (Within.autocommit (outbox_refl t) (outbox_recordFailure hr) (fun _ h => h.sweeping)
        fun _ _ h => h) h (fun _ db h => ?_) fun _ _ h => h.inv
    exact Safe.pure hsweep h

theorem safe_publishRecords {env : SweepEnv} : ∀ (rest : List (OutboxRecord δ)) {n p f : ℕ}
    {db : Outbox τ δ}, (∀ record ∈ rest, record ∈ records) → Sweeping records db →
    Safe (OutboxRely t) (OutboxGuarantee t) (post (fun _ => OutboxInv) fun _ => OutboxInv)
      (publishRecords env t n rest p f) db
  | [], _, _, _, _, _, h => Safe.pure stable_outboxInv h.inv
  | record :: rest, n, p, f, db, hmem, h => by
    have hrest : ∀ record ∈ rest, record ∈ records := fun r hr => hmem r (by simp [hr])
    unfold publishRecords
    refine Safe.bind (safe_publishRecord (hmem record (by simp)) h) (fun sent db h => ?_)
      fun _ _ h => h
    rcases sent with _ | _
    · exact safe_publishRecords rest hrest h
    · exact safe_publishRecords rest hrest h

theorem safe_outboxCall (call : OutboxCall δ) (h : OutboxInv db) :
    Safe (OutboxRely t) (OutboxGuarantee t) (fun _ => OutboxInv) (call.program t) db := by
  have hinv : Stable (OutboxRely t) (OutboxInv : Outbox τ δ → Prop) := stable_outboxInv
  rcases call with ⟨dbError, fate, id, event, now⟩ | ⟨env, batchSize, aggregateId⟩
  · refine Safe.of_within hinv (fun _ => hinv) (fun _ => hinv)
      (Within.autocommit (outbox_refl t) outbox_insert (fun _ h => h) fun _ _ h => h) h
      (fun _ db h => ?_) fun _ _ h => h
    exact Safe.pure hinv h
  · refine Safe.bind (?_ : Safe _ _ (fun _ => OutboxInv) _ _) (fun _ _ h => Safe.pure hinv h)
      fun _ _ h => h
    unfold publishPending
    refine Safe.of_within hinv (fun _ => stable_sweeping) (fun _ => hinv)
      (Within.autocommit (outbox_refl t) outbox_fetch (fun _ h => h) fun _ _ h => h.inv) h
      (fun records db h => ?_) fun _ _ h => h
    refine Safe.bind (safe_publishRecords records (fun _ h => h) h) (fun counts db h => ?_)
      fun _ _ h => h
    refine Safe.of_within hinv (fun _ => hinv) (fun _ => hinv)
      (Within.autocommit (outbox_refl t) (Within.read (outbox_refl t) fun _ h => h) (fun _ h => h)
        fun _ _ h => h) h (fun _ db h => ?_) fun _ _ h => h
    exact Safe.pure hinv h

end Statements

/-! ## Runs -/

omit [DecidableEq τ] in
theorem mem_pendingRows {db : Outbox τ δ} {scope : Option String} {id : String} :
    id ∈ pendingRows db scope ↔ ∃ r, db.rows.row id = some r ∧ r.IsPending scope := by
  simp only [pendingRows, Finset.mem_filter, Option.any_eq_true, decide_eq_true_eq]
  refine ⟨fun h => h.2, fun h => ⟨?_, h⟩⟩
  obtain ⟨r, hrow, -⟩ := h
  exact Table.mem_keys_of_row hrow

omit [DecidableEq τ] in
theorem isFetched_of_pending {db : Outbox τ δ} {id : String} {r : OutboxRow δ}
    (hrow : db.rows.row id = some r) (hp : r.status = .pending) : IsFetched db id r := by
  intro negative limit aggregateId hscope hlimit
  have hlimit₀ : ¬ limit < 0 := by omega
  have hcreated : createdAt db id = r.createdAt := by simp [createdAt, hrow]
  have hmem : id ∈ pendingRows db (truthy aggregateId) := mem_pendingRows.2 ⟨r, hrow, hp, hscope⟩
  refine ⟨?_, fun picked res db' hf => ?_⟩
  · obtain ⟨picked, hb⟩ :=
      exists_isBatch (pendingRows db (truthy aggregateId)) (createdAt db) limit.toNat
    exact ⟨picked, by simp [fetchPendingBatch, hlimit₀, hb]⟩
  · unfold fetchPendingBatch at hf
    rw [if_neg hlimit₀] at hf
    split_ifs at hf with hb
    simp only [Option.some.injEq, Prod.mk.injEq] at hf
    refine ⟨_, hf.1.symm, List.mem_filterMap.2 ⟨id, hb.mem hmem ?_, by simp [hrow]⟩⟩
    rw [hcreated]
    omega

theorem outboxInv_empty : OutboxInv (.empty : Outbox τ δ) :=
  ⟨fun _ _ => rfl, fun id r h => by simp [Outbox.empty] at h⟩

theorem outboxInv_of_runSchedule {calls : τ → OutboxCall δ} {is : List τ}
    {c : Config τ (Outbox τ δ) OutboxError (Option PublishBatchSummary)}
    (hrun : (outboxCalls calls).runSchedule is = some c) : OutboxInv c.world := by
  have hRG : ∀ i j : τ, i ≠ j → ∀ db db' : Outbox τ δ, OutboxGuarantee j db db' →
      OutboxRely i db db' := fun i j hij db db' hG => ⟨j, hij, hG⟩
  have hsafe : ∀ t, Safe (OutboxRely t) (OutboxGuarantee t) (fun _ => OutboxInv)
      ((outboxCalls calls).thread t) (outboxCalls calls).world :=
    fun t => safe_outboxCall (calls t) outboxInv_empty
  exact Safe.invariant hRG hsafe (Config.reach_of_runSchedule is hrun)
    (fun t db db' h hG => hG.inv h) outboxInv_empty

theorem RowInv.retryCount_le {db : Outbox τ δ} {id : String} {r : OutboxRow δ}
    (h : RowInv db id r) (hn : NeverAccepted db r.payload.eventId) :
    r.retryCount ≤ (rejectionsOf db r.payload.eventId).length := by
  rw [h.retries]
  exact (List.subperm_ext_iff.2 fun t _ => h.credited hn t).length_le

/-- Any inserts and sweeps, interleaved statement by statement in any way, before a broker that
rejects what it likes. A row whose event it has never accepted is PENDING up to its fifth recorded
failure, and so is fetched by the next sweep that reaches it; from the sixth on it is FAILED. No
failure is recorded of it that is not a rejection. -/
theorem pending_until_sixth_failure (calls : τ → OutboxCall δ) {is : List τ}
    {c : Config τ (Outbox τ δ) OutboxError (Option PublishBatchSummary)}
    (hrun : (outboxCalls calls).runSchedule is = some c) {id : String} {r : OutboxRow δ}
    (hrow : c.world.rows.row id = some r) (hnever : NeverAccepted c.world r.payload.eventId) :
    (r.retryCount ≤ 5 → r.status = .pending ∧ IsFetched c.world id r)
      ∧ (5 < r.retryCount → r.status = .failed)
      ∧ r.retryCount ≤ (rejectionsOf c.world r.payload.eventId).length := by
  have hr := (outboxInv_of_runSchedule hrun).row id r hrow
  have hstatus := hr.status hnever
  refine ⟨fun h5 => ?_, fun h5 => ?_, hr.retryCount_le hnever⟩
  · rw [if_pos h5] at hstatus
    exact ⟨hstatus, isFetched_of_pending hrow hstatus⟩
  · rwa [if_neg (by omega)] at hstatus

/-- An event, and sweeps while the broker is down. -/
def brokerDown (t : ℕ) : OutboxCall Unit :=
  if t = 0 then .insert ⟨none⟩ .answered "row" ⟨"evt", "OrderConfirmed", "order", ()⟩ 0
  else .publishPending
    { picked := ["row"]
      dbError := ⟨none⟩
      onFetch := .answered
      onPublish := fun _ => .failed
      rejection := fun _ => ⟨some "Broker offline"⟩
      onMark := fun _ => .answered
      onRecord := fun _ => .answered
      onCount := .answered
      now := fun _ => 0 } 50 none

theorem neverAccepted_of_rejected {db : Outbox ℕ Unit} (ts : List ℕ) {event : DomainEvent Unit}
    {topic eventId : String} (h : db.broker = ts.map fun t => .rejected t topic event) :
    NeverAccepted db eventId := by
  intro t topic' event' hm
  rw [h] at hm
  simp at hm

/-- The first sweep fails, and the event stays PENDING. -/
theorem pending_until_sixth_failure_once :
    ∃ c, (outboxCalls brokerDown).runSchedule [0, 1, 1, 1, 1] = some c
      ∧ ∃ r, c.world.rows.row "row" = some r ∧ r.retryCount = 1
        ∧ NeverAccepted c.world r.payload.eventId
        ∧ r.status = .pending ∧ IsFetched c.world "row" r := by
  have hsome : ((outboxCalls brokerDown).runSchedule [0, 1, 1, 1, 1]).isSome := by decide
  have hrun := Option.eq_some_of_isSome hsome
  have hnever : NeverAccepted (((outboxCalls brokerDown).runSchedule [0, 1, 1, 1, 1]).get
      hsome).world "evt" := neverAccepted_of_rejected [1] rfl
  refine ⟨_, hrun, _, rfl, rfl, hnever, ?_⟩
  exact (pending_until_sixth_failure brokerDown hrun rfl hnever).1 (by decide)

/-- After six sweeps the event is FAILED, though the broker has never accepted it. -/
theorem failed_after_six_rejections :
    ¬ ∀ (is : List ℕ) (c : Config ℕ (Outbox ℕ Unit) OutboxError (Option PublishBatchSummary)),
      (outboxCalls brokerDown).runSchedule is = some c → ∀ id r, c.world.rows.row id = some r →
        NeverAccepted c.world r.payload.eventId → r.status = .pending := by
  intro h
  have hsome : ((outboxCalls brokerDown).runSchedule
    [0, 1, 1, 1, 1, 2, 2, 2, 2, 3, 3, 3, 3, 4, 4, 4, 4, 5, 5, 5, 5, 6, 6, 6, 6]).isSome := by decide
  have hstatus := h _ _ (Option.eq_some_of_isSome hsome) "row" _ rfl
    (neverAccepted_of_rejected [1, 2, 3, 4, 5, 6] rfl)
  exact absurd hstatus (by decide)

end LaunchPad
