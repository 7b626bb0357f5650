import LaunchPad.Proofs.Sweeps

/-!
# The order of the events of one aggregate

A sweep is given the oldest PENDING rows, so an event it publishes comes after every earlier PENDING
event of its aggregate (`Batch`). But the loop goes on after a rejection, and a row that is FAILED is
fetched no more: an event is accepted out of turn just if an earlier one was rejected in the same
sweep, or is FAILED.
-/

namespace LaunchPad

open Interleave Rows

variable {τ δ : Type}

/-- Each sweep begins after the last step of the one before, and no sweep goes on once another has
begun. -/
def NonOverlapping [DecidableEq τ] (h : List (Taken τ (Outbox τ δ))) : Prop :=
  ∀ h₁ s, h₁ ++ [s] <+: h →
    stepsOf s.thread h₁ = [] ∨ h₁.getLast?.map Taken.thread = some s.thread

/-- The event is among those accepted. -/
def IsAccepted (log : List (BrokerEvent τ δ)) (eventId : String) : Prop :=
  ∃ t topic event, .accepted t topic event ∈ log ∧ event.eventId = eventId

/-- No event of the aggregate was accepted before an earlier one of it. -/
def InOrder (aggregateId : String) (db : Outbox τ δ) : Prop :=
  ∀ log t topic event, log ++ [.accepted t topic event] <+: db.broker →
    ∀ id id' r r', db.rows.row id = some r → db.rows.row id' = some r' →
      r.payload.aggregateId = aggregateId → r'.payload.aggregateId = aggregateId →
      r.createdAt < r'.createdAt → r'.payload.eventId = event.eventId →
      IsAccepted log r.payload.eventId

/-- The sweep has been told that the event was rejected. -/
def IsRejected (t : τ) (db : Outbox τ δ) (eventId : String) : Prop :=
  ∃ topic event, .rejected t topic event ∈ db.broker ∧ event.eventId = eventId

/-- If the broker is about to accept an event of the aggregate, no earlier one that it has not
accepted is FAILED, or was rejected in the same sweep. -/
def OutboxCall.Orderly (call : OutboxCall δ) (aggregateId : String) (t : τ) (phase : SweepPhase δ)
    (db : Outbox τ δ) : Prop :=
  match call, phase with
  | .publishPending env _ _, .publishing n record _ =>
    env.onPublish n ≠ .failed → record.row.payload.aggregateId = aggregateId →
      ∀ id r, db.rows.row id = some r → r.payload.aggregateId = aggregateId →
        r.createdAt < record.row.createdAt → ¬ IsAccepted db.broker r.payload.eventId →
        r.status ≠ .failed ∧ ¬ IsRejected t db r.payload.eventId
  | _, _ => True

def OutboxCall.IsInsert : OutboxCall δ → Prop
  | .insert _ _ _ _ _ => True
  | .publishPending _ _ _ => False

/-- The records whose turn has not come. -/
def SweepPhase.todo : SweepPhase δ → List (OutboxRecord δ)
  | .publishing _ record rest => record :: rest
  | .marking _ _ rest => rest
  | .recording _ _ _ rest => rest
  | _ => []

@[simp] theorem SweepPhase.todo_loop (n : ℕ) (records : List (OutboxRecord δ)) :
    (SweepPhase.loop n records).todo = records := by
  cases records <;> rfl

/-- What is known of a sweep that runs alone: its turns come in order, and every earlier PENDING
event of the aggregate has had its turn, or is still to have it. -/
structure Batch (aggregateId : String) (t : τ) (p : SweepPhase δ) (db : Outbox τ δ) : Prop where
  sorted : p.todo.Pairwise fun x y => x.row.createdAt ≤ y.row.createdAt
  complete : ∀ record ∈ p.todo, record.row.payload.aggregateId = aggregateId →
    ∀ id r, db.rows.row id = some r → r.payload.aggregateId = aggregateId →
      r.createdAt < record.row.createdAt → r.status = .pending →
      ¬ IsAccepted db.broker r.payload.eventId → ¬ IsRejected t db r.payload.eventId →
      ∃ record' ∈ p.todo, record'.id = id
  tried : ∀ n err record rest, p = .recording n err record rest →
    IsAccepted db.broker record.row.payload.eventId
      ∨ IsRejected t db record.row.payload.eventId

/-- What the sweeps keep: the ids of events are unique, and a PUBLISHED event was accepted. -/
structure FifoInv (db : Outbox τ δ) : Prop where
  unique : ∀ id id' r r', db.rows.row id = some r → db.rows.row id' = some r' →
    r.payload.eventId = r'.payload.eventId → id = id'
  published : ∀ id r, db.rows.row id = some r → r.status = .published →
    IsAccepted db.broker r.payload.eventId

/-! ## The batch -/

section Batch

variable {aggregateId : String} {t : τ} {p p' : SweepPhase δ} {db db' : Outbox τ δ}
  {call : OutboxCall δ}

theorem batch_of_todo_nil (htodo : p.todo = [])
    (hp : ∀ n err record rest, p ≠ .recording n err record rest) : Batch aggregateId t p db :=
  ⟨by simp [htodo], by simp [htodo], fun n err record rest he => absurd he (hp n err record rest)⟩

/-- The rows fetched are the oldest PENDING ones. -/
theorem batch_fetched {scope : Option String} {limit : ℕ} {picked : List String}
    (hb : IsBatch (pendingRows db scope) (createdAt db) limit picked) :
    Batch aggregateId t (.loop 0 (db.records picked)) db := by
  have hcreated : ∀ record ∈ db.records picked, createdAt db record.id = record.row.createdAt := by
    intro record hr
    simp [createdAt, (mem_records.1 hr).2]
  refine ⟨?_, fun record hr hagg id r hrow hagg' hlt hpending _ _ => ?_, ?_⟩
  · rw [SweepPhase.todo_loop]
    have hsorted : ((db.records picked).map OutboxRecord.id).Pairwise
        fun a b => createdAt db a ≤ createdAt db b := hb.2.2.2.1.sublist (records_sublist db picked)
    rw [List.pairwise_map] at hsorted
    refine hsorted.imp_of_mem fun {x y} hx hy hle => ?_
    rwa [hcreated x hx, hcreated y hy] at hle
  · rw [SweepPhase.todo_loop] at hr ⊢
    have hmem := mem_records.1 hr
    have hscope := (pending_of_mem_pendingRows (hb.2.1 _ hmem.1) hmem.2).2
    rw [hagg, ← hagg'] at hscope
    have hcand : id ∈ pendingRows db scope := mem_pendingRows.2 ⟨r, hrow, hpending, hscope⟩
    have hid : id ∈ picked := by
      by_contra hno
      have hle := hb.2.2.2.2 _ hmem.1 id hcand hno
      rw [hcreated record hr] at hle
      simp only [createdAt, hrow, Option.map_some, Option.getD_some] at hle
      exact absurd hlt hle.not_gt
    exact ⟨⟨id, r⟩, mem_records.2 ⟨hid, hrow⟩, rfl⟩
  · intro n err record rest he
    cases hrec : db.records picked <;> rw [hrec] at he <;> cases he

/-- The sweep moves on with the same records still to come. -/
theorem Batch.same (h : Batch aggregateId t p db) (htodo : p'.todo = p.todo)
    (htried : ∀ n err record rest, p' = .recording n err record rest →
      IsAccepted db.broker record.row.payload.eventId) : Batch aggregateId t p' db := by
  refine ⟨htodo ▸ h.sorted, ?_, fun n err record rest he => .inl (htried n err record rest he)⟩
  rw [htodo]
  exact h.complete

theorem SweepPhase.loop_ne_recording (k n : ℕ) (err : OutboxError) (record : OutboxRecord δ)
    (records rest : List (OutboxRecord δ)) : loop k records ≠ .recording n err record rest := by
  cases records <;> simp [loop]

/-- The outbox in which nothing has changed but the rows of records that had their turn. -/
theorem Batch.rows (h : Batch aggregateId t p db) (hbroker : db'.broker = db.broker)
    (hrows : ∀ id r, db'.rows.row id = some r → r.status = .pending →
      ¬ IsAccepted db.broker r.payload.eventId → ¬ IsRejected t db r.payload.eventId →
      db.rows.row id = some r) : Batch aggregateId t p db' := by
  have hrej : ∀ eventId, IsRejected t db' eventId ↔ IsRejected t db eventId := by
    simp [IsRejected, hbroker]
  refine ⟨h.sorted, fun record hr hagg id r hrow hagg' hlt hpending hacc hno => ?_,
    fun n err record rest he => ?_⟩
  · rw [hbroker] at hacc
    rw [hrej] at hno
    exact h.complete record hr hagg id r (hrows id r hrow hpending hacc hno) hagg' hlt hpending
      hacc hno
  · rw [hbroker, hrej]
    exact h.tried n err record rest he

/-- The record whose turn it was is accepted or rejected. -/
theorem Batch.turn (h : Batch aggregateId t p db) {record : OutboxRecord δ}
    {rest : List (OutboxRecord δ)} (htodo : p.todo = record :: rest) (htodo' : p'.todo = rest)
    {e : BrokerEvent τ δ} (hinHand : ∃ r, db.rows.row record.id = some r
      ∧ r.payload = record.row.payload)
    (he : e = .accepted t record.row.payload.eventType record.row.payload
      ∨ e = .rejected t record.row.payload.eventType record.row.payload)
    (hp' : ∀ n err record' rest', p' = .recording n err record' rest' → record' = record) :
    Batch aggregateId t p' (db.log e) := by
  have hmono : ∀ eventId, IsAccepted db.broker eventId → IsAccepted (db.log e).broker eventId :=
    fun _ ⟨t', topic, event, hm, hid⟩ => ⟨t', topic, event, List.mem_append_left _ hm, hid⟩
  have hmono' : ∀ eventId, IsRejected t db eventId → IsRejected t (db.log e) eventId :=
    fun _ ⟨topic, event, hm, hid⟩ => ⟨topic, event, List.mem_append_left _ hm, hid⟩
  have htried : IsAccepted (db.log e).broker record.row.payload.eventId
      ∨ IsRejected t (db.log e) record.row.payload.eventId := by
    rcases he with rfl | rfl
    · exact .inl ⟨t, _, _, List.mem_append_right _ (List.mem_singleton_self _), rfl⟩
    · exact .inr ⟨_, _, List.mem_append_right _ (List.mem_singleton_self _), rfl⟩
  have hsorted := h.sorted
  rw [htodo, List.pairwise_cons] at hsorted
  refine ⟨htodo' ▸ hsorted.2, fun record' hr hagg id r hrow hagg' hlt hpending hacc hno => ?_,
    fun n err record' rest' hrec => ?_⟩
  · rw [htodo'] at hr ⊢
    obtain ⟨record₁, hr₁, hid⟩ := h.complete record' (htodo ▸ List.mem_cons_of_mem _ hr) hagg id r
      hrow hagg' hlt hpending (fun ha => hacc (hmono _ ha)) fun ha => hno (hmono' _ ha)
    rw [htodo, List.mem_cons] at hr₁
    rcases hr₁ with rfl | hr₁
    · obtain ⟨r₀, hrow₀, hpay⟩ := hinHand
      change db.rows.row id = some r at hrow
      rw [hid, hrow] at hrow₀
      rw [Option.some.inj hrow₀, hpay] at hacc hno
      exact (htried.elim hacc hno).elim
    · exact ⟨record₁, hr₁, hid⟩
  · rw [hp' n err record' rest' hrec]
    exact htried

theorem SweepMove.batch (hm : SweepMove t db call p db' p') (hcall : ¬ call.IsInsert)
    (hhand : InHand t p db) (h : Batch aggregateId t p db) : Batch aggregateId t p' db' := by
  have hknown : ∀ record ∈ p.held, ∃ r, db.rows.row record.id = some r
      ∧ r.payload = record.row.payload := fun record hr =>
    (hhand.known record hr).imp fun _ hr => ⟨hr.1, hr.2.1⟩
  cases hm with
  | quit => exact batch_of_todo_nil rfl (by simp)
  | inserted => exact absurd trivial hcall
  | fetched hb => exact batch_fetched hb
  | @sent _ _ _ n record rest _ hp =>
    refine h.turn rfl ?_ (hknown record (by simp)) (.inl rfl) ?_ <;>
      rcases hp with ⟨-, rfl⟩ | ⟨-, err, rfl⟩ <;> simp +contextual [SweepPhase.todo]
  | @rejected _ _ _ n record rest _ hf =>
    exact h.turn rfl rfl (hknown record (by simp)) (.inr rfl) (by simp +contextual)
  | @marked env _ _ n record rest _ hp =>
    have hsent : IsAccepted db.broker record.row.payload.eventId :=
      ⟨t, _, _, hhand.sent _ _ _ rfl, rfl⟩
    obtain ⟨r₀, hrow₀, hpay₀⟩ := hknown record (by simp)
    have hbatch : Batch aggregateId t (.marking n record rest)
        (db.markRow record.id (env.now n)) := by
      refine h.rows ?_ fun id r hrow hpending _ _ => ?_ <;> rw [markRow_of_row hrow₀] at *
      rcases Table.set_row_eq_some.1 hrow with ⟨rfl, rfl⟩ | ⟨-, hrow⟩
      · cases hpending
      · exact hrow
    rcases hp with ⟨-, rfl⟩ | ⟨-, err, rfl⟩
    · exact hbatch.same (SweepPhase.todo_loop _ _) fun _ _ _ _ he =>
        absurd he (SweepPhase.loop_ne_recording _ _ _ _ _ _)
    · refine hbatch.same rfl fun n' err' record' rest' he => ?_
      cases he
      rwa [markRow_of_row hrow₀]
  | @unmarked _ _ _ n record rest err hf =>
    refine h.same rfl fun n' err' record' rest' he => ?_
    cases he
    exact ⟨t, _, _, hhand.sent _ _ _ rfl, rfl⟩
  | @recorded _ _ _ n err record rest _ hf hp =>
    obtain ⟨r₀, hrow₀, hpay₀⟩ := hknown record (by simp)
    have htried := h.tried n err record rest rfl
    have hbatch : Batch aggregateId t (.recording n err record rest)
        (db.failRow t record.id err.text) := by
      refine h.rows ?_ fun id r hrow hpending hacc hno => ?_ <;>
        simp only [Outbox.failRow, hrow₀] at * <;> split_ifs at *
      · rfl
      · rfl
      · rcases Table.set_row_eq_some.1 hrow with ⟨rfl, rfl⟩ | ⟨-, hrow⟩
        · rw [← hpay₀] at htried
          exact (htried.elim hacc hno).elim
        · exact hrow
      · exact hrow
    rcases hp with rfl | rfl
    · exact hbatch.same (SweepPhase.todo_loop _ _) fun _ _ _ _ he =>
        absurd he (SweepPhase.loop_ne_recording _ _ _ _ _ _)
    · exact batch_of_todo_nil rfl (by simp)
  | unrecorded => exact batch_of_todo_nil rfl (by simp)

end Batch

/-! ## The order -/

section Order

variable {aggregateId : String} {t : τ} {p p' : SweepPhase δ} {db db' : Outbox τ δ}
  {call : OutboxCall δ}

/-- A sweep brings no new rows. -/
theorem SweepMove.row_before (hm : SweepMove t db call p db' p') (hcall : ¬ call.IsInsert)
    {id : String} {r' : OutboxRow δ} (hrow : db'.rows.row id = some r') :
    ∃ r, db.rows.row id = some r ∧ r.payload = r'.payload ∧ r.createdAt = r'.createdAt := by
  have hset : ∀ {id₀ : String} {r₀ r₁ : OutboxRow δ}, db.rows.row id₀ = some r₀ →
      (db.rows.set id₀ r₁).row id = some r' →
      r₀.payload = r₁.payload ∧ r₀.createdAt = r₁.createdAt →
      ∃ r, db.rows.row id = some r ∧ r.payload = r'.payload ∧ r.createdAt = r'.createdAt := by
    intro id₀ r₀ r₁ hrow₀ hrow' hsame
    rcases Table.set_row_eq_some.1 hrow' with ⟨rfl, rfl⟩ | ⟨-, hrow'⟩
    · exact ⟨r₀, hrow₀, hsame⟩
    · exact ⟨r', hrow', rfl, rfl⟩
  cases hm with
  | quit => exact ⟨r', hrow, rfl, rfl⟩
  | inserted => exact absurd trivial hcall
  | fetched => exact ⟨r', hrow, rfl, rfl⟩
  | sent => exact ⟨r', hrow, rfl, rfl⟩
  | rejected => exact ⟨r', hrow, rfl, rfl⟩
  | @marked _ _ _ _ record =>
    unfold Outbox.markRow at hrow
    cases hrow₀ : db.rows.row record.id <;> simp only [hrow₀] at hrow
    · exact ⟨r', hrow, rfl, rfl⟩
    · exact hset hrow₀ hrow ⟨rfl, rfl⟩
  | unmarked => exact ⟨r', hrow, rfl, rfl⟩
  | @recorded _ _ _ _ _ record =>
    unfold Outbox.failRow at hrow
    cases hrow₀ : db.rows.row record.id <;> simp only [hrow₀] at hrow
    · exact ⟨r', hrow, rfl, rfl⟩
    · split_ifs at hrow
      · exact hset hrow₀ hrow ⟨rfl, rfl⟩
      · exact ⟨r', hrow, rfl, rfl⟩
  | unrecorded => exact ⟨r', hrow, rfl, rfl⟩

/-- The order is kept where no row is new and no more is accepted. -/
theorem InOrder.of_rows (h : InOrder aggregateId db)
    (hrows : ∀ id r', db'.rows.row id = some r' → ∃ r, db.rows.row id = some r
      ∧ r.payload = r'.payload ∧ r.createdAt = r'.createdAt)
    (hbroker : ∀ log t topic event, log ++ [.accepted t topic event] <+: db'.broker →
      log ++ [.accepted t topic event] <+: db.broker) : InOrder aggregateId db' := by
  intro log t topic event hlog id id' r r' hrow hrow' hagg hagg' hlt he
  obtain ⟨r₁, hrow₁, hpay₁, hat₁⟩ := hrows id r hrow
  obtain ⟨r₂, hrow₂, hpay₂, hat₂⟩ := hrows id' r' hrow'
  rw [← hpay₁] at hagg ⊢
  rw [← hpay₂] at hagg' he
  rw [← hat₁, ← hat₂] at hlt
  exact h log t topic event (hbroker _ _ _ _ hlog) id id' r₁ r₂ hrow₁ hrow₂ hagg hagg' hlt he

theorem prefix_of_prefix_rejected {log l : List (BrokerEvent τ δ)} {t t' : τ}
    {topic topic' : String} {event event' : DomainEvent δ}
    (h : log ++ [.accepted t topic event] <+: l ++ [.rejected t' topic' event']) :
    log ++ [.accepted t topic event] <+: l := by
  rcases List.prefix_concat_iff.1 h with he | h
  · obtain ⟨-, he⟩ := List.append_inj' he rfl
    cases he
  · exact h

/-- Nothing is accepted in this step. -/
theorem SweepMove.inOrder_iff_of_broker (aggregateId : String) (hm : SweepMove t db call p db' p')
    (hcall : ¬ call.IsInsert) (hgrown : db.broker <+: db'.broker)
    (hbroker : ∀ log t topic event, log ++ [.accepted t topic event] <+: db'.broker →
      log ++ [.accepted t topic event] <+: db.broker) :
    InOrder aggregateId db' ↔ InOrder aggregateId db :=
  ⟨fun h => h.of_rows hm.grows.rows fun _ _ _ _ hlog => hlog.trans hgrown,
    fun h => h.of_rows (fun _ _ => hm.row_before hcall) hbroker⟩

/-- An event may be accepted when no earlier one of the aggregate is FAILED or was rejected in the
sweep: the other ones have had their turn. -/
theorem Batch.accepted_of_orderly {n : ℕ} {record : OutboxRecord δ}
    {rest : List (OutboxRecord δ)} (h : Batch aggregateId t (.publishing n record rest) db)
    (hhand : InHand t (.publishing n record rest) db) (hinv : FifoInv db)
    (hagg : record.row.payload.aggregateId = aggregateId) {id : String} {r : OutboxRow δ}
    (hrow : db.rows.row id = some r) (hagg' : r.payload.aggregateId = aggregateId)
    (hlt : r.createdAt < record.row.createdAt)
    (horderly : ¬ IsAccepted db.broker r.payload.eventId →
      r.status ≠ .failed ∧ ¬ IsRejected t db r.payload.eventId) :
    IsAccepted db.broker r.payload.eventId := by
  by_contra hno
  obtain ⟨hfailed, hrejected⟩ := horderly hno
  have hpending : r.status = .pending := by
    rcases hs : r.status with _ | _ | _
    · rfl
    · exact absurd (hinv.published id r hrow hs) hno
    · exact absurd hs hfailed
  obtain ⟨record', hr', hid⟩ := h.complete record (List.mem_cons_self ..) hagg id r hrow hagg' hlt
    hpending hno hrejected
  obtain ⟨r', hrow', -, hat⟩ := hhand.known record' hr'
  rw [hid, hrow] at hrow'
  rw [Option.some.inj hrow', hat] at hlt
  rcases List.mem_cons.1 hr' with rfl | hr'
  · exact absurd hlt (lt_irrefl _)
  · exact absurd hlt ((List.pairwise_cons.1 h.sorted).1 record' hr').not_gt

theorem inOrder_accepted_iff {n : ℕ} {record : OutboxRecord δ} {rest : List (OutboxRecord δ)}
    (hb : Batch aggregateId t (.publishing n record rest) db)
    (hhand : InHand t (.publishing n record rest) db) (hinv : FifoInv db) :
    InOrder aggregateId (db.log (.accepted t record.row.payload.eventType record.row.payload))
      ↔ InOrder aggregateId db ∧ (record.row.payload.aggregateId = aggregateId →
        ∀ id r, db.rows.row id = some r → r.payload.aggregateId = aggregateId →
          r.createdAt < record.row.createdAt → ¬ IsAccepted db.broker r.payload.eventId →
          r.status ≠ .failed ∧ ¬ IsRejected t db r.payload.eventId) := by
  obtain ⟨r₀, hrow₀, hpay₀, hat₀⟩ := hhand.known record (by simp)
  constructor
  · refine fun h => ⟨h.of_rows (grows_log db _).rows fun _ _ _ _ hlog =>
      hlog.trans (List.prefix_append _ _), fun hagg id r hrow hagg' hlt hno => absurd ?_ hno⟩
    exact h db.broker t _ record.row.payload (List.prefix_refl _) id record.id r r₀ hrow hrow₀
      hagg' (hpay₀ ▸ hagg) (hat₀ ▸ hlt) (by rw [hpay₀])
  · rintro ⟨h, horderly⟩ log t' topic event hlog id id' r r' hrow hrow' hagg hagg' hlt he
    rcases List.prefix_concat_iff.1 hlog with heq | hlog
    · obtain ⟨rfl, heq'⟩ := List.append_inj' heq rfl
      cases heq'
      have hid : id' = record.id := hinv.unique _ _ _ _ hrow' hrow₀ (by rw [he, hpay₀])
      have hr' : r' = r₀ := by
        rw [hid] at hrow'
        exact Option.some.inj (hrow'.symm.trans hrow₀)
      rw [hr', hpay₀] at hagg'
      rw [hr', hat₀] at hlt
      exact hb.accepted_of_orderly hhand hinv hagg' hrow hagg hlt
        (horderly hagg' id r hrow hagg hlt)
    · exact h log t' topic event hlog id id' r r' hrow hrow' hagg hagg' hlt he

theorem SweepMove.inOrder_iff (hm : SweepMove t db call p db' p') (hcall : ¬ call.IsInsert)
    (hhand : InHand t p db) (hinv : FifoInv db) (hb : Batch aggregateId t p db) :
    InOrder aggregateId db' ↔ InOrder aggregateId db ∧ call.Orderly aggregateId t p db := by
  have hquiet := hm.inOrder_iff_of_broker aggregateId hcall
  cases hm with
  | quit hp =>
    rw [hquiet (List.prefix_refl _) fun _ _ _ _ h => h]
    rcases hp with rfl | rfl <;> cases call <;> simp [OutboxCall.Orderly]
  | inserted => exact absurd trivial hcall
  | fetched =>
    rw [hquiet (List.prefix_refl _) fun _ _ _ _ h => h]
    simp [OutboxCall.Orderly]
  | sent hp =>
    rw [inOrder_accepted_iff hb hhand hinv]
    rcases hp with ⟨hf, -⟩ | ⟨hf, -⟩ <;> simp [OutboxCall.Orderly, hf]
  | rejected hf =>
    rw [hquiet (List.prefix_append _ _) fun _ _ _ _ h => prefix_of_prefix_rejected h]
    simp [OutboxCall.Orderly, hf]
  | @marked env _ _ n record =>
    have hbroker : (db.markRow record.id (env.now n)).broker = db.broker := by
      unfold Outbox.markRow
      cases db.rows.row record.id <;> rfl
    rw [hquiet (hbroker ▸ List.prefix_refl _) fun _ _ _ _ h => hbroker ▸ h]
    simp [OutboxCall.Orderly]
  | unmarked =>
    rw [hquiet (List.prefix_refl _) fun _ _ _ _ h => h]
    simp [OutboxCall.Orderly]
  | @recorded env _ _ n err record =>
    have hbroker : (db.failRow t record.id err.text).broker = db.broker := by
      unfold Outbox.failRow
      cases db.rows.row record.id with
      | none => rfl
      | some r => simp only; split_ifs <;> rfl
    rw [hquiet (hbroker ▸ List.prefix_refl _) fun _ _ _ _ h => hbroker ▸ h]
    simp [OutboxCall.Orderly]
  | unrecorded =>
    rw [hquiet (List.prefix_refl _) fun _ _ _ _ h => h]
    simp [OutboxCall.Orderly]

/-- A row that is PUBLISHED was so before, or has just been marked. -/
theorem SweepMove.published_cases (hm : SweepMove t db call p db' p') (hcall : ¬ call.IsInsert)
    {id : String} {r' : OutboxRow δ} (hrow : db'.rows.row id = some r')
    (hpub : r'.status = .published) :
    (∃ r, db.rows.row id = some r ∧ r.payload = r'.payload ∧ r.status = .published)
      ∨ ∃ n record rest, p = .marking n record rest ∧ record.id = id := by
  cases hm with
  | quit => exact .inl ⟨r', hrow, rfl, hpub⟩
  | inserted => exact absurd trivial hcall
  | fetched => exact .inl ⟨r', hrow, rfl, hpub⟩
  | sent => exact .inl ⟨r', hrow, rfl, hpub⟩
  | rejected => exact .inl ⟨r', hrow, rfl, hpub⟩
  | @marked _ _ _ n record rest =>
    unfold Outbox.markRow at hrow
    cases hrow₀ : db.rows.row record.id <;> simp only [hrow₀] at hrow
    · exact .inl ⟨r', hrow, rfl, hpub⟩
    · rcases Table.set_row_eq_some.1 hrow with ⟨rfl, -⟩ | ⟨-, hrow⟩
      · exact .inr ⟨n, record, rest, rfl, rfl⟩
      · exact .inl ⟨r', hrow, rfl, hpub⟩
  | unmarked => exact .inl ⟨r', hrow, rfl, hpub⟩
  | @recorded _ _ _ _ _ record =>
    unfold Outbox.failRow at hrow
    cases hrow₀ : db.rows.row record.id <;> simp only [hrow₀] at hrow
    · exact .inl ⟨r', hrow, rfl, hpub⟩
    · split_ifs at hrow
      · rcases Table.set_row_eq_some.1 hrow with ⟨-, rfl⟩ | ⟨-, hrow⟩
        · simp only at hpub
          split_ifs at hpub
        · exact .inl ⟨r', hrow, rfl, hpub⟩
      · exact .inl ⟨r', hrow, rfl, hpub⟩
  | unrecorded => exact .inl ⟨r', hrow, rfl, hpub⟩

theorem SweepMove.fifoInv (hm : SweepMove t db call p db' p') (hcall : ¬ call.IsInsert)
    (hhand : InHand t p db) (h : FifoInv db) : FifoInv db' := by
  refine ⟨fun id id' r r' hr hr' he => ?_, fun id r hrow hpub => ?_⟩
  · obtain ⟨r₁, hr₁, hpay₁, -⟩ := hm.row_before hcall hr
    obtain ⟨r₂, hr₂, hpay₂, -⟩ := hm.row_before hcall hr'
    exact h.unique id id' r₁ r₂ hr₁ hr₂ (by rw [hpay₁, hpay₂, he])
  · rcases hm.published_cases hcall hrow hpub with ⟨r₁, hrow₁, hpay₁, hpub₁⟩ | hsent
    · obtain ⟨t', topic, event, hacc, he⟩ := h.published id r₁ hrow₁ hpub₁
      exact ⟨t', topic, event, hm.grows.broker _ hacc, by rw [he, hpay₁]⟩
    · obtain ⟨n, record, rest, rfl, rfl⟩ := hsent
      obtain ⟨r₁, hrow₁, hpay₁, -⟩ := hm.row_before hcall hrow
      obtain ⟨r₂, hrow₂, hpay₂, -⟩ := hhand.known record (by simp)
      have hr : r₂ = r₁ := Option.some.inj (hrow₂.symm.trans hrow₁)
      refine ⟨t, _, _, hm.grows.broker _ (hhand.sent n record rest rfl), ?_⟩
      rw [← hpay₁, ← hr, hpay₂]

end Order

/-! ## Histories -/

section Histories

variable [DecidableEq τ] {calls : τ → OutboxCall δ} {db₀ db : Outbox τ δ} {aggregateId : String}
  {h : List (Taken τ (Outbox τ δ))}

/-- What is known along a history of sweeps one after the other, of the outbox and of the sweep
that made the last step. -/
theorem batch_of_trace (hcalls : ∀ t, ¬ (calls t).IsInsert) (h₀ : FifoInv db₀)
    (ht : (sweeps calls).Trace db₀ h db) (hno : NonOverlapping h) :
    FifoInv db ∧ ∀ t, stepsOf t h = [] ∨ h.getLast?.map Taken.thread = some t →
      Batch aggregateId t ((sweeps calls).phases h t) db := by
  induction ht with
  | nil => exact ⟨h₀, fun t _ => batch_of_todo_nil rfl (by simp [sweeps])⟩
  | @snoc h db db' t p ht hm ih =>
    obtain ⟨hinv, hbatch⟩ := ih fun h₁ s hp => hno h₁ s (hp.trans (List.prefix_append _ _))
    have hmove := sweepMove_of_move hm
    have hhand := inHand_of_trace ht t
    refine ⟨hmove.fifoInv (hcalls t) hhand hinv, fun t' ht' => ?_⟩
    rw [Machine.phases_snoc, Machine.advance_of_move hm]
    rcases eq_or_ne t' t with rfl | hne
    · rw [Function.update_self]
      exact hmove.batch (hcalls t') hhand (hbatch t' (hno h _ (List.prefix_refl _)))
    · rw [Function.update_of_ne hne]
      have hsteps : stepsOf t' h = [] := by
        rcases ht' with ht' | ht'
        · rwa [stepsOf_snoc_of_ne (Ne.symm hne)] at ht'
        · simp [Ne.symm hne] at ht'
      rw [Machine.phases_of_stepsOf_nil hsteps]
      exact batch_of_todo_nil rfl (by simp [sweeps])

theorem inOrder_iff_of_trace (hcalls : ∀ t, ¬ (calls t).IsInsert) (h₀ : FifoInv db₀)
    (horder : InOrder aggregateId db₀) (ht : (sweeps calls).Trace db₀ h db)
    (hno : NonOverlapping h) :
    InOrder aggregateId db ↔ ∀ h₁ s, h₁ ++ [s] <+: h →
      (calls s.thread).Orderly aggregateId s.thread ((sweeps calls).phases h₁ s.thread)
        s.before := by
  induction ht with
  | nil => simpa using horder
  | @snoc h db db' t p ht hm ih =>
    have hno' : NonOverlapping h := fun h₁ s hp => hno h₁ s (hp.trans (List.prefix_append _ _))
    obtain ⟨hinv, hbatch⟩ := batch_of_trace hcalls h₀ ht hno'
    rw [(sweepMove_of_move hm).inOrder_iff (hcalls t) (inHand_of_trace ht t) hinv
      (hbatch t (hno h _ (List.prefix_refl _))), ih hno', forall_step_snoc]

/-- Sweeps of one publisher, one after the other, each of which may stop at any statement, on any
outbox in which events have been accepted in order so far, before a broker that rejects what it
likes. The events of an aggregate are accepted in order just if none is ever accepted while an
earlier one that was not is FAILED, or after it was rejected in the same sweep. -/
theorem in_order_iff_orderly (hcalls : ∀ t, ¬ (calls t).IsInsert) (h₀ : FifoInv db₀)
    (horder : InOrder aggregateId db₀)
    {c : Config τ (Outbox τ δ) OutboxError (Option PublishBatchSummary)}
    (hrun : (outboxFrom db₀ calls).Run h c) (hno : NonOverlapping h) :
    InOrder aggregateId c.world ↔ ∀ h₁ s, h₁ ++ [s] <+: h →
      (calls s.thread).Orderly aggregateId s.thread ((sweeps calls).phases h₁ s.thread)
        s.before :=
  inOrder_iff_of_trace hcalls h₀ horder (trace_of_outbox_run hrun) hno

end Histories

/-- An outbox with two events of one order. -/
def twoEvents : Outbox ℕ Unit :=
  ⟨(Table.empty.set "a" ⟨⟨"evt-a", "order.confirmed", "order", ()⟩, .pending, 0, 0, none, none⟩).set
    "b" ⟨⟨"evt-b", "order.refunded", "order", ()⟩, .pending, 0, 1, none, none⟩, [], []⟩

/-- A sweep of both events, which the broker answers as it likes. -/
def bothEvents (onPublish : ℕ → Fate) (_ : ℕ) : OutboxCall Unit :=
  .publishPending
    { picked := ["a", "b"]
      dbError := ⟨none⟩
      onFetch := .answered
      onPublish := onPublish
      rejection := fun _ => ⟨some "Broker offline"⟩
      onMark := fun _ => .answered
      onRecord := fun _ => .answered
      onCount := .answered
      now := fun _ => 7 } 50 none

theorem twoEvents_row {id : String} {r : OutboxRow Unit} (h : twoEvents.rows.row id = some r) :
    id = "b" ∧ r.createdAt = 1 ∧ r.payload.eventId = "evt-b" ∧ r.status = .pending
      ∨ id = "a" ∧ r.createdAt = 0 ∧ r.payload.eventId = "evt-a" ∧ r.status = .pending := by
  rcases Table.set_row_eq_some.1 h with ⟨rfl, rfl⟩ | ⟨-, h⟩
  · exact .inl ⟨rfl, rfl, rfl, rfl⟩
  · rcases Table.set_row_eq_some.1 h with ⟨rfl, rfl⟩ | ⟨-, h⟩
    · exact .inr ⟨rfl, rfl, rfl, rfl⟩
    · cases h

theorem fifoInv_twoEvents : FifoInv twoEvents where
  unique id id' r r' hr hr' he := by
    rcases twoEvents_row hr with ⟨rfl, -, h, -⟩ | ⟨rfl, -, h, -⟩ <;>
      rcases twoEvents_row hr' with ⟨rfl, -, h', -⟩ | ⟨rfl, -, h', -⟩ <;>
      first | rfl | exact absurd (h.symm.trans (he.trans h')) (by decide)
  published id r hr hpub := by
    rcases twoEvents_row hr with ⟨-, -, -, h⟩ | ⟨-, -, -, h⟩ <;> rw [h] at hpub <;> cases hpub

theorem inOrder_twoEvents : InOrder "order" twoEvents := by
  intro log t topic event hlog
  simp [twoEvents] at hlog

theorem nonOverlapping_of_history {ε α : Type} [DecidableEq τ]
    {c c' : Config τ (Outbox τ δ) ε α} {is : List τ} {h : List (Taken τ (Outbox τ δ))} {t : τ}
    (hh : c.history is = some (h, c')) (his : ∀ i ∈ is, i = t) : NonOverlapping h := by
  have hall : ∀ s ∈ h, s.thread = t := by
    intro s hs
    have hmem := List.mem_map_of_mem (f := Taken.thread) hs
    rw [Config.history_threads is hh] at hmem
    exact his _ hmem
  intro h₁ s hp
  rcases List.eq_nil_or_concat' h₁ with rfl | ⟨h₂, s₂, rfl⟩
  · exact .inl rfl
  · have hs := hall s (hp.subset (by simp))
    have hs₂ := hall s₂ (hp.subset (by simp))
    exact .inr (by simp [hs, hs₂])

theorem bothEvents_accepted_isSome :
    ((outboxFrom twoEvents (bothEvents fun _ => .answered)).history [0, 0, 0, 0, 0]).isSome := by
  decide

/-- The first event is accepted first, and then the second. -/
theorem in_order_accepted :
    ∃ h c, (outboxFrom twoEvents (bothEvents fun _ => .answered)).Run h c ∧ NonOverlapping h
      ∧ IsAccepted c.world.broker "evt-a" ∧ IsAccepted c.world.broker "evt-b"
      ∧ InOrder "order" c.world := by
  have hrun := Config.run_of_history _ (Option.eq_some_of_isSome bothEvents_accepted_isSome)
  have hno := nonOverlapping_of_history (t := 0)
    (Option.eq_some_of_isSome bothEvents_accepted_isSome) (by simp)
  refine ⟨_, _, hrun, hno, ⟨0, _, _, List.mem_cons_self, rfl⟩,
    ⟨0, _, _, List.mem_cons_of_mem _ List.mem_cons_self, rfl⟩, ?_⟩
  refine (in_order_iff_orderly (fun _ => id) fifoInv_twoEvents inOrder_twoEvents hrun hno).2 ?_
  refine forall_step_cons.2 ⟨trivial, forall_step_cons.2 ⟨?_, forall_step_cons.2 ⟨trivial,
    forall_step_cons.2 ⟨?_, forall_step_cons.2 ⟨trivial, forall_step_nil⟩⟩⟩⟩⟩
  · rintro - - id r hrow - hlt
    change r.createdAt < 0 at hlt
    rcases twoEvents_row hrow with ⟨-, h, -⟩ | ⟨-, h, -⟩ <;> rw [h] at hlt <;>
      exact absurd hlt (by decide)
  · -- what is earlier has been accepted by then
    rintro - - id r hrow - hlt hnot
    change r.createdAt < 1 at hlt
    have hid : r.payload.eventId = "evt-a" := by
      rcases Table.set_row_eq_some.1 hrow with ⟨-, rfl⟩ | ⟨-, hrow⟩
      · rfl
      · rcases twoEvents_row hrow with ⟨-, h, -⟩ | ⟨-, -, h, -⟩
        · rw [h] at hlt
          exact absurd hlt (by decide)
        · exact h
    exact absurd ⟨0, _, _, List.mem_cons_self, hid.symm⟩ hnot

theorem bothEvents_rejected_isSome :
    ((outboxFrom twoEvents (bothEvents fun n => if n = 0 then .failed else .answered)).history
      [0, 0, 0, 0]).isSome := by decide

/-- The first event is rejected, and the sweep goes on to publish the second. -/
theorem out_of_order :
    ¬ ∀ (h : List (Taken ℕ (Outbox ℕ Unit)))
        (c : Config ℕ (Outbox ℕ Unit) OutboxError (Option PublishBatchSummary)),
      (outboxFrom twoEvents (bothEvents fun n => if n = 0 then .failed else .answered)).Run h c →
        NonOverlapping h → InOrder "order" c.world := by
  intro horder
  have hrun := Config.run_of_history _ (Option.eq_some_of_isSome bothEvents_rejected_isSome)
  have hno := nonOverlapping_of_history (t := 0)
    (Option.eq_some_of_isSome bothEvents_rejected_isSome) (by simp)
  obtain ⟨t, topic, event, hmem, he⟩ := horder _ _ hrun hno
    [.rejected 0 "order.confirmed" ⟨"evt-a", "order.confirmed", "order", ()⟩] 0 "order.refunded"
    ⟨"evt-b", "order.refunded", "order", ()⟩ (List.prefix_refl _) "a" "b" _ _ rfl rfl rfl rfl
    (by decide) rfl
  simp at hmem

end LaunchPad
