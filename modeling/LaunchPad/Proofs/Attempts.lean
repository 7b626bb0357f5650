import LaunchPad.Lib.Noninterference
import LaunchPad.Proofs.Published
import Mathlib.Algebra.BigOperators.Group.Finset.Piecewise
import Mathlib.Algebra.BigOperators.Ring.Finset

/-!
# The outbox drains in bounded attempts

One publisher, whose sweeps do not overlap. Until a row's event has been accepted its counter tells
how many publishes of it were rejected, and `recordFailure` reads the counter before it counts, so
the sixth rejection is the one that makes the row FAILED (`Counted`). Each turn of a sweep uses up
one of the six attempts of a PENDING row. So `attemptsLeft`, the attempts of all of them, goes down
with every sweep that finds one, whatever the broker answers and however few rows the batch holds.
-/

namespace LaunchPad

open Interleave Rows
open scoped BigOperators

variable {δ : Type}

/-- The first `k` sweeps of a publisher: the `t`-th has the batch size `sizes t`. -/
def publisher (envs : ℕ → SweepEnv) (sizes : ℕ → ℤ) :
    ℕ → Async (Outbox ℕ δ) OutboxError (List PublishBatchSummary)
  | 0 => pure []
  | k + 1 => do
    let summaries ← publisher envs sizes k
    let summary ← publishPending (envs k) k (sizes k) none
    pure (summaries ++ [summary])

/-- No statement of the sweep fails. -/
structure SweepEnv.DbAnswers (env : SweepEnv) : Prop where
  fetch : env.onFetch = .answered
  mark : ∀ n, env.onMark n = .answered
  record : ∀ n, env.onRecord n = .answered
  count : env.onCount = .answered

theorem SweepEnv.DbAnswers.pick {env : SweepEnv} (h : env.DbAnswers) (picked : List String) :
    ({ env with picked := picked } : SweepEnv).DbAnswers :=
  ⟨h.fetch, h.mark, h.record, h.count⟩

/-- The rows are newly inserted, and nothing has been sent. -/
structure Outbox.Fresh (db : Outbox ℕ δ) : Prop where
  rows : ∀ id r, db.rows.row id = some r → r.status = .pending ∧ r.retryCount = 0
  unique : ∀ id id' r r', db.rows.row id = some r → db.rows.row id' = some r' →
    r.payload.eventId = r'.payload.eventId → id = id'
  broker : db.broker = []

def BrokerEvent.sweep : BrokerEvent ℕ δ → ℕ
  | .accepted t _ _ => t
  | .rejected t _ _ => t

def BrokerEvent.event : BrokerEvent ℕ δ → DomainEvent δ
  | .accepted _ _ event => event
  | .rejected _ _ event => event

/-- What the sweep `t` has sent, in order. -/
def Outbox.sentBy (db : Outbox ℕ δ) (t : ℕ) : List (DomainEvent δ) :=
  (db.broker.filter fun e => e.sweep = t).map BrokerEvent.event

/-- The publishes of the event by the first `k` sweeps that were rejected, or so it looked to the
publisher. -/
def rejectedPublishes (envs : ℕ → SweepEnv) (k : ℕ) (db : Outbox ℕ δ) (eventId : String) : ℕ :=
  ∑ t ∈ Finset.range k, (db.sentBy t).zipIdx.countP fun p =>
    p.1.eventId = eventId ∧ (envs t).onPublish p.2 ≠ .answered

/-- A PENDING row has had at most five failures, and a FAILED one six, all of them rejections. -/
def WithinAttempts (envs : ℕ → SweepEnv) (k : ℕ) (db : Outbox ℕ δ) : Prop :=
  ∀ id r, db.rows.row id = some r →
    (r.status = .pending → r.retryCount ≤ 5)
      ∧ (r.status = .failed → r.retryCount = 6
        ∧ rejectedPublishes envs k db r.payload.eventId = 6)

/-- The sweeps with these surroundings and batch sizes, from `db` on. -/
structure DrainsInAttempts (envs : ℕ → SweepEnv) (sizes : ℕ → ℤ) (db : Outbox ℕ δ) : Prop where
  /-- Also in the middle of a sweep. -/
  attempts : ∀ k c, Config.Reach ⟨db, fun _ : Unit => publisher envs sizes k⟩ c →
    WithinAttempts envs k c.world
  /-- Each sweep returns, given the rows that the database may give it. -/
  answers : ∀ k summaries db₁, (publisher envs sizes k).run db = some (.ok summaries, db₁) →
    ∃ picked, ((publishPending { envs k with picked := picked } k (sizes k) none).run db₁).isSome
  returns : ∀ k r db₁, (publisher envs sizes k).run db = some (r, db₁) → ∃ summaries,
    r = .ok summaries
  summary : ∀ k summaries db₁ s db₂, (publisher envs sizes k).run db = some (.ok summaries, db₁) →
    (publishPending (envs k) k (sizes k) none).run db₁ = some (.ok s, db₂) →
    (∃ records, fetchPendingBatch (envs k).dbError (envs k).picked (sizes k) none db₁
        = some (.ok records, db₁) ∧ s.published + s.failed = records.length)
      ∧ s.remaining = (pendingRows db₂ none).card
  drained : ∀ k summaries db₁, 6 * (pendingRows db none).card ≤ k →
    (publisher envs sizes k).run db = some (.ok summaries, db₁) → pendingRows db₁ none = ∅

/-! ## New rows -/

theorem fresh_empty : (.empty : Outbox ℕ δ).Fresh :=
  ⟨fun id r hr => by simp [Outbox.empty] at hr, fun id _ r _ hr => by simp [Outbox.empty] at hr, rfl⟩

/-- Inserts make no other rows. -/
theorem Outbox.Fresh.insert {db : Outbox ℕ δ} (h : db.Fresh) {duplicate : OutboxError} {id : String}
    {event : DomainEvent δ} {now : Time} :
    (insertOutbox duplicate id event now).wp (fun _ db' => db'.Fresh) db := by
  intro r db' hs
  rcases insertOutbox_eq_some hs with rfl | ⟨hevent, -, rfl⟩
  · exact h
  · refine ⟨fun k r hr => ?_, fun k k' r r' => unique_set_of_new h.unique hevent, h.broker⟩
    rcases Table.set_row_eq_some.1 hr with ⟨rfl, rfl⟩ | ⟨-, hrow⟩
    · exact ⟨rfl, rfl⟩
    · exact h.rows k r hrow

/-! ## What was rejected -/

section Log

variable {db : Outbox ℕ δ} {envs : ℕ → SweepEnv} {k : ℕ} {e : BrokerEvent ℕ δ}

theorem sentBy_log (t : ℕ) :
    (db.log e).sentBy t = db.sentBy t ++ if e.sweep = t then [e.event] else [] := by
  unfold Outbox.sentBy Outbox.log
  rw [List.filter_append, List.map_append]
  split_ifs with he <;> simp [he]

/-- The publish logged is the next one of its sweep. -/
theorem rejectedPublishes_log (hk : e.sweep < k) (eventId : String) :
    rejectedPublishes envs k (db.log e) eventId = rejectedPublishes envs k db eventId
      + if e.event.eventId = eventId
          ∧ (envs e.sweep).onPublish (db.sentBy e.sweep).length ≠ .answered then 1 else 0 := by
  set d := if e.event.eventId = eventId
    ∧ (envs e.sweep).onPublish (db.sentBy e.sweep).length ≠ .answered then 1 else 0 with hd
  have hterm : ∀ t ∈ Finset.range k, (((db.log e).sentBy t).zipIdx.countP fun p =>
      p.1.eventId = eventId ∧ (envs t).onPublish p.2 ≠ .answered)
        = ((db.sentBy t).zipIdx.countP fun p =>
          p.1.eventId = eventId ∧ (envs t).onPublish p.2 ≠ .answered)
            + if t = e.sweep then d else 0 := by
    intro t _
    rw [sentBy_log]
    by_cases ht : e.sweep = t
    · subst ht
      rw [if_pos rfl, if_pos rfl, List.zipIdx_append, List.countP_append]
      simp [hd]
    · rw [if_neg ht, if_neg (Ne.symm ht), List.append_nil, Nat.add_zero]
  unfold rejectedPublishes
  rw [Finset.sum_congr rfl hterm, Finset.sum_add_distrib, Finset.sum_ite_eq',
    if_pos (Finset.mem_range.2 hk)]

end Log

/-! ## A turn -/

/-- What the counter of a row tells, where `m` of its publishes were rejected. -/
structure Counted (r : OutboxRow δ) (m : ℕ) : Prop where
  pending : r.status = .pending → r.retryCount ≤ 5 ∧ m = r.retryCount
  failed : r.status = .failed → r.retryCount = 6 ∧ m = 6

/-- The attempts a row has left. -/
def OutboxRow.attemptsLeft (r : OutboxRow δ) : ℤ :=
  if r.status = .pending then 6 - r.retryCount else 0

def attemptsLeft (db : Outbox ℕ δ) : ℤ := db.rows.sum OutboxRow.attemptsLeft

/-- The sweep `t` has sent `n` events and has the records left in hand, as they are in the table. -/
structure Turning (t n : ℕ) (records : List (OutboxRecord δ)) (db : Outbox ℕ δ) : Prop where
  unique : ∀ id id' r r', db.rows.row id = some r → db.rows.row id' = some r' →
    r.payload.eventId = r'.payload.eventId → id = id'
  sent : (db.sentBy t).length = n
  later : ∀ t', t < t' → db.sentBy t' = []
  nodup : (records.map OutboxRecord.id).Nodup
  held : ∀ record ∈ records, db.rows.row record.id = some record.row ∧ record.row.status = .pending

/-- It is at the head of the loop. -/
structure AtTurn (envs : ℕ → SweepEnv) (k t n : ℕ) (records : List (OutboxRecord δ))
    (db : Outbox ℕ δ) : Prop extends Turning t n records db where
  counted : ∀ id r, db.rows.row id = some r →
    Counted r (rejectedPublishes envs k db r.payload.eventId)

/-- It has sent the record's event. -/
structure JustSent (envs : ℕ → SweepEnv) (k t n : ℕ) (record : OutboxRecord δ)
    (rest : List (OutboxRecord δ)) (db : Outbox ℕ δ) : Prop
    extends Turning t (n + 1) (record :: rest) db where
  others : ∀ id r, db.rows.row id = some r → id ≠ record.id →
    Counted r (rejectedPublishes envs k db r.payload.eventId)
  room : record.row.retryCount ≤ 5
  rejected : rejectedPublishes envs k db record.row.payload.eventId
    = record.row.retryCount + if (envs t).onPublish n = .answered then 0 else 1

section Turn

variable {db : Outbox ℕ δ} {envs : ℕ → SweepEnv} {k t n : ℕ} {record : OutboxRecord δ}
  {records rest : List (OutboxRecord δ)}

theorem AtTurn.within (h : AtTurn envs k t n records db) : WithinAttempts envs k db :=
  fun id r hrow => ⟨fun hp => ((h.counted id r hrow).pending hp).1, (h.counted id r hrow).failed⟩

theorem JustSent.within (h : JustSent envs k t n record rest db) : WithinAttempts envs k db := by
  intro id r hrow
  rcases eq_or_ne id record.id with rfl | hne
  · obtain ⟨hrow', hpending⟩ := h.held record List.mem_cons_self
    obtain rfl := Option.some.inj (hrow'.symm.trans hrow)
    exact ⟨fun _ => h.room, fun hf => absurd (hpending.symm.trans hf) (by simp)⟩
  · have hr := h.others id r hrow hne
    exact ⟨fun hp => (hr.pending hp).1, hr.failed⟩

theorem AtTurn.send (h : AtTurn envs k t n (record :: rest) db) (hk : t < k)
    {e : BrokerEvent ℕ δ} (ht : e.sweep = t) (he : e.event = record.row.payload) :
    JustSent envs k t n record rest (db.log e) := by
  subst ht
  obtain ⟨hrow, hpending⟩ := h.held record List.mem_cons_self
  obtain ⟨hroom, hm⟩ := (h.counted _ _ hrow).pending hpending
  refine ⟨⟨h.unique, ?_, fun t' ht' => ?_, h.nodup, h.held⟩, fun id r hr hne => ?_, hroom, ?_⟩
  · rw [sentBy_log, if_pos rfl, List.length_append, h.sent]
    rfl
  · rw [sentBy_log, if_neg ht'.ne, h.later t' ht']
    rfl
  · have hid : e.event.eventId ≠ r.payload.eventId := fun hid =>
      hne (h.unique id record.id r record.row hr hrow (hid.symm.trans (congrArg _ he)))
    rw [rejectedPublishes_log hk, if_neg fun hc => hid hc.1]
    exact h.counted id r hr
  · rw [rejectedPublishes_log hk, h.sent, hm, he]
    by_cases hans : (envs e.sweep).onPublish n = .answered <;> simp [hans]

/-- The outcome is written, and the sweep is done with the record. -/
theorem JustSent.settle (h : JustSent envs k t n record rest db) {r' : OutboxRow δ}
    (hpayload : r'.payload = record.row.payload)
    (hcounted : Counted r' (rejectedPublishes envs k db record.row.payload.eventId))
    (hleft : r'.attemptsLeft < record.row.attemptsLeft) (failures : List (ℕ × String)) :
    AtTurn envs k t (n + 1) rest
        { db with rows := db.rows.set record.id r', failures := failures }
      ∧ attemptsLeft { db with rows := db.rows.set record.id r', failures := failures }
        < attemptsLeft db := by
  obtain ⟨hrow, -⟩ := h.held record List.mem_cons_self
  have hnd := List.nodup_cons.1 (List.map_cons .. ▸ h.nodup)
  -- The row written has the event it had.
  have hold : ∀ id r, (db.rows.set record.id r').row id = some r →
      ∃ r₀, db.rows.row id = some r₀ ∧ r.payload = r₀.payload := by
    intro id r hr
    rcases Table.set_row_eq_some.1 hr with ⟨rfl, rfl⟩ | ⟨-, hr⟩
    · exact ⟨_, hrow, hpayload⟩
    · exact ⟨r, hr, rfl⟩
  refine ⟨⟨⟨fun id id' r₁ r₂ h₁ h₂ he => ?_, h.sent, h.later, hnd.2, fun record' hr' => ?_⟩,
    fun id r hr => ?_⟩, ?_⟩
  · obtain ⟨r₁', h₁', hp₁⟩ := hold id r₁ h₁
    obtain ⟨r₂', h₂', hp₂⟩ := hold id' r₂ h₂
    exact h.unique id id' r₁' r₂' h₁' h₂' (by rw [← hp₁, ← hp₂, he])
  · have hne : record'.id ≠ record.id := fun he => hnd.1 (he ▸ List.mem_map_of_mem hr')
    obtain ⟨hrow', hpending⟩ := h.held record' (List.mem_cons_of_mem _ hr')
    exact ⟨by rw [Table.set_row, if_neg hne]; exact hrow', hpending⟩
  · rcases Table.set_row_eq_some.1 hr with ⟨rfl, rfl⟩ | ⟨hne, hr⟩
    · rw [hpayload]
      exact hcounted
    · exact h.others id r hr hne
  · unfold attemptsLeft
    rw [Table.sum_set, hrow, Option.elim_some]
    omega

theorem JustSent.mark (h : JustSent envs k t n record rest db) (publishedAt : Time) :
    AtTurn envs k t (n + 1) rest (db.markRow record.id publishedAt)
      ∧ attemptsLeft (db.markRow record.id publishedAt) < attemptsLeft db := by
  obtain ⟨hrow, hpending⟩ := h.held record List.mem_cons_self
  have hroom := h.room
  rw [markRow_of_row hrow]
  refine h.settle ?_ ⟨?_, ?_⟩ ?_ _
  · rfl
  · simp
  · simp
  · simp only [OutboxRow.attemptsLeft, hpending, if_true, reduceCtorEq, if_false]
    omega

/-- The CASE reads the counter before it is counted. -/
theorem JustSent.fail (h : JustSent envs k t n record rest db)
    (hans : (envs t).onPublish n ≠ .answered) (error : String) :
    AtTurn envs k t (n + 1) rest (db.failed t record.id error record.row)
      ∧ attemptsLeft (db.failed t record.id error record.row) < attemptsLeft db := by
  obtain ⟨-, hpending⟩ := h.held record List.mem_cons_self
  have hroom := h.room
  have hm := h.rejected
  rw [if_neg hans] at hm
  refine h.settle ?_ ?_ ?_ _
  · rfl
  · rcases hroom.lt_or_eq with hlt | h5
    · have hno : ¬ 5 ≤ record.row.retryCount := by omega
      exact ⟨fun _ => ⟨hlt, hm⟩, by simp [hno]⟩
    · exact ⟨by simp [h5], fun _ => ⟨by simp [h5], by omega⟩⟩
  · simp only [OutboxRow.attemptsLeft, hpending, if_true]
    split_ifs <;> push_cast <;> omega

/-! ## A sweep -/

theorem AtTurn.wp_publish (h : AtTurn envs k t n (record :: rest) db) (hk : t < k)
    (rejection : OutboxError) : (publish rejection ((envs t).onPublish n) t
      record.row.payload.eventType record.row.payload).wp (fun r db' =>
        JustSent envs k t n record rest db' ∧ attemptsLeft db' = attemptsLeft db
          ∧ (r = .ok () ∨ (envs t).onPublish n ≠ .answered)) db := by
  have hsent := fun e => h.send (e := e) hk
  unfold Sync.wp publish
  rcases (envs t).onPublish n with _ | _ | _ <;> rintro _ _ ⟨⟩
  · exact ⟨hsent (.accepted t _ _) rfl rfl, rfl, .inl rfl⟩
  · exact ⟨hsent (.rejected t _ _) rfl rfl, rfl, .inr (by simp)⟩
  · exact ⟨hsent (.accepted t _ _) rfl rfl, rfl, .inr (by simp)⟩

theorem recordFailure_of_row {outOfRange : OutboxError} {id error : String} {r : OutboxRow δ}
    (hrow : db.rows.row id = some r) (hroom : r.retryCount ≤ 5) :
    recordFailure outOfRange t id error db = some (.ok (), db.failed t id error r) := by
  unfold recordFailure
  rw [hrow]
  simp only [Outbox.failed]
  rw [if_pos (by omega)]

/-- Whatever the broker answers, an attempt is used up. -/
theorem along_publishRecord (henv : (envs t).DbAnswers) (hk : t < k)
    (h : AtTurn envs k t n (record :: rest) db) :
    Along (WithinAttempts envs k) (post (fun _ db' => AtTurn envs k t (n + 1) rest db'
        ∧ attemptsLeft db' < attemptsLeft db) fun _ _ => False)
      (publishRecord (envs t) t n record) db := by
  unfold publishRecord
  refine Along.tryCatch (R := post (fun _ db' => AtTurn envs k t (n + 1) rest db'
      ∧ attemptsLeft db' < attemptsLeft db) fun _ db' => JustSent envs k t n record rest db'
        ∧ attemptsLeft db' = attemptsLeft db ∧ (envs t).onPublish n ≠ .answered)
    (Along.await_bind ?_) (fun _ _ h => h) ?_
  · refine Sync.wp_mono (h.wp_publish hk _) ?_
    rintro r db₁ ⟨hsent, hleft, hr⟩
    refine ⟨hsent.within, ?_⟩
    rcases r with e | ⟨⟩
    · exact ⟨hsent, hleft, hr.resolve_left (by simp)⟩
    refine Along.await_bind ?_
    rw [henv.mark]
    intro r db₂ hs
    obtain ⟨rfl, rfl⟩ := markPublished_world hs
    obtain ⟨hturn, hless⟩ := hsent.mark ((envs t).now n)
    exact ⟨hturn.within, Along.pure ⟨hturn, hleft ▸ hless⟩⟩
  · rintro err db₁ ⟨hsent, hleft, hans⟩
    refine Along.await_bind ?_
    rw [henv.record]
    intro r db₂ hs
    change recordFailure _ _ _ _ _ = _ at hs
    rw [recordFailure_of_row (hsent.held record List.mem_cons_self).1 hsent.room] at hs
    obtain ⟨rfl, rfl⟩ := Prod.mk.inj (Option.some.inj hs)
    obtain ⟨hturn, hless⟩ := hsent.fail hans err.text
    exact ⟨hturn.within, Along.pure ⟨hturn, hleft ▸ hless⟩⟩

/-- Each turn counts one of the records, as published or as failed. -/
theorem along_publishRecords (henv : (envs t).DbAnswers) (hk : t < k) {left : ℤ} {total : ℕ} :
    ∀ {records : List (OutboxRecord δ)} {n p f : ℕ} {db : Outbox ℕ δ},
      AtTurn envs k t n records db → p + f + records.length = total →
      attemptsLeft db + (p + f) ≤ left →
        Along (WithinAttempts envs k) (post (fun counts db' => counts.1 + counts.2 = total
            ∧ (∃ n', AtTurn envs k t n' [] db') ∧ attemptsLeft db' + total ≤ left)
          fun _ _ => False) (publishRecords (envs t) t n records p f) db
  | [], n, p, f, db, h, htotal, hleft => by
    simp only [List.length_nil, Nat.add_zero] at htotal
    exact Along.pure ⟨htotal, ⟨n, h⟩, by omega⟩
  | record :: rest, n, p, f, db, h, htotal, hleft => by
    unfold publishRecords
    refine Along.bind (along_publishRecord henv hk h) ?_ fun _ _ hf => hf
    rw [List.length_cons] at htotal
    rintro b db₁ ⟨h₁, hless⟩
    cases b
    · exact along_publishRecords henv hk h₁ (by omega) (by push_cast; omega)
    · exact along_publishRecords henv hk h₁ (by omega) (by push_cast; omega)

/-- Between two sweeps, `t` of them made. -/
def Idling (envs : ℕ → SweepEnv) (k t : ℕ) (db : Outbox ℕ δ) : Prop := AtTurn envs k t 0 [] db

theorem AtTurn.idling (h : AtTurn envs k t n [] db) : Idling envs k (t + 1) db :=
  ⟨⟨h.unique, by rw [h.later (t + 1) (Nat.lt_succ_self t)]; rfl,
    fun t' ht' => h.later t' (by omega), by simp, by simp⟩, h.counted⟩

/-- A batch is fetched of the rows that are PENDING, each of which is there. -/
theorem Idling.fetched {envs : ℕ → SweepEnv} (h : Idling envs k t db) {ids : List String}
    {limit : ℕ} (hb : IsBatch (pendingRows db none) (createdAt db) limit ids) :
    AtTurn envs k t 0 (db.records ids) db
      ∧ (db.records ids).length = min limit (pendingRows db none).card := by
  obtain ⟨hnd, hsub, hlen, -, -⟩ := hb
  refine ⟨⟨⟨h.unique, h.sent, h.later, hnd.sublist (records_sublist db ids),
    fun record hr => ?_⟩, h.counted⟩, ?_⟩
  · obtain ⟨hid, hrow⟩ := mem_records.1 hr
    exact ⟨hrow, (pending_of_mem_pendingRows (hsub _ hid) hrow).1⟩
  · rw [← hlen]
    unfold Outbox.records
    rw [List.length_filterMap_eq_countP, List.countP_eq_length]
    intro id hid
    obtain ⟨r, hrow, -⟩ := mem_pendingRows.1 (hsub id hid)
    simp [hrow]

/-- Every sweep uses up an attempt, or finds none left. -/
theorem along_publishPending (henv : (envs t).DbAnswers) (hk : t < k) {batchSize : ℤ}
    (hsize : 1 ≤ batchSize) (h : Idling envs k t db) :
    Along (WithinAttempts envs k) (post (fun s db' => Idling envs k (t + 1) db'
        ∧ (∃ records, fetchPendingBatch (envs t).dbError (envs t).picked batchSize none db
            = some (.ok records, db) ∧ s.published + s.failed = records.length
            ∧ attemptsLeft db' + records.length ≤ attemptsLeft db
            ∧ (records = [] → pendingRows db none = ∅))
        ∧ s.remaining = (pendingRows db' none).card) fun _ _ => False)
      (publishPending (envs t) t batchSize none) db := by
  unfold publishPending
  refine Along.await_bind ?_
  rw [henv.fetch]
  intro r db₁ hs
  change fetchPendingBatch (envs t).dbError (envs t).picked batchSize none db = _ at hs
  obtain ⟨rfl, hfetch⟩ := fetchPendingBatch_eq_some hs
  have hno : ¬ batchSize < 0 := by omega
  rcases r with e | records
  · unfold fetchPendingBatch at hs
    rw [if_neg hno] at hs
    split_ifs at hs
    cases hs
  obtain ⟨hrecords, hb⟩ := hfetch records rfl
  obtain ⟨hturn, hlen⟩ := h.fetched hb
  refine ⟨h.within, Along.bind (along_publishRecords henv hk (hrecords ▸ hturn) rfl le_rfl) ?_
    fun _ _ hf => hf⟩
  rintro ⟨published, failed⟩ db₂ ⟨hcount, ⟨n, hend⟩, hleft⟩
  refine Along.await_bind ?_
  rw [henv.count]
  intro r db₃ hs'
  obtain ⟨rfl, rfl⟩ := Prod.mk.inj (Option.some.inj hs')
  refine ⟨hend.within, Along.pure ⟨hend.idling, ⟨records, hs, ?_, ?_, fun hnil => ?_⟩, rfl⟩⟩
  · simpa using hcount
  · simpa using hleft
  · rw [← hrecords, hnil, List.length_nil] at hlen
    exact Finset.card_eq_zero.1 (by omega)

end Turn

/-! ## All sweeps -/

section Sweeps

variable {db db' : Outbox ℕ δ} {envs : ℕ → SweepEnv} {sizes : ℕ → ℤ} {k t n : ℕ}
  {records : List (OutboxRecord δ)}

/-- Only PENDING rows have attempts left. -/
theorem attemptsLeft_eq (db : Outbox ℕ δ) : attemptsLeft db
    = ∑ id ∈ pendingRows db none, (db.rows.row id).elim 0 OutboxRow.attemptsLeft := by
  refine (Finset.sum_subset (Finset.filter_subset _ _) fun id _ hid => ?_).symm
  rcases hrow : db.rows.row id with _ | r
  · rfl
  · have hr : r.status ≠ .pending := fun hp => hid (mem_pendingRows.2 ⟨r, hrow, hp, .inl rfl⟩)
    simp [OutboxRow.attemptsLeft, hr]

theorem AtTurn.card_le_attemptsLeft (h : AtTurn envs k t n records db) :
    ((pendingRows db none).card : ℤ) ≤ attemptsLeft db := by
  rw [attemptsLeft_eq, Finset.card_eq_sum_ones, Nat.cast_sum]
  refine Finset.sum_le_sum fun id hid => ?_
  obtain ⟨r, hrow, hr, -⟩ := mem_pendingRows.1 hid
  obtain ⟨h5, -⟩ := (h.counted id r hrow).pending hr
  rw [hrow, Option.elim_some, OutboxRow.attemptsLeft, if_pos hr]
  omega

theorem attemptsLeft_of_empty (h : pendingRows db none = ∅) : attemptsLeft db = 0 := by
  rw [attemptsLeft_eq, h, Finset.sum_empty]

theorem Outbox.Fresh.attemptsLeft_eq (h : db.Fresh) :
    attemptsLeft db = 6 * (pendingRows db none).card := by
  rw [LaunchPad.attemptsLeft_eq, Finset.sum_congr rfl (g := fun _ => 6) fun id hid => ?_]
  · rw [Finset.sum_const, nsmul_eq_mul, mul_comm]
  · obtain ⟨r, hrow, hr, -⟩ := mem_pendingRows.1 hid
    rw [hrow, Option.elim_some, OutboxRow.attemptsLeft, if_pos hr, (h.rows id r hrow).2]
    rfl

theorem Outbox.Fresh.idling (h : db.Fresh) (envs : ℕ → SweepEnv) (k : ℕ) : Idling envs k 0 db := by
  have hsent : ∀ t, db.sentBy t = [] := fun t => by rw [Outbox.sentBy, h.broker]; rfl
  refine ⟨⟨h.unique, by rw [hsent]; rfl, fun t _ => hsent t, by simp, by simp⟩, fun id r hrow => ?_⟩
  obtain ⟨hr, hzero⟩ := h.rows id r hrow
  have hnone : rejectedPublishes envs k db r.payload.eventId = 0 :=
    Finset.sum_eq_zero fun t _ => by rw [hsent]; rfl
  exact ⟨fun _ => ⟨by omega, by omega⟩, fun hf => by simp [hr] at hf⟩

/-- Each sweep uses up an attempt until none is left. -/
theorem along_publisher (henvs : ∀ t, (envs t).DbAnswers) (hsizes : ∀ t, 1 ≤ sizes t)
    (h : db.Fresh) : ∀ m ≤ k, Along (WithinAttempts envs k) (post (fun _ db' =>
        Idling envs k m db' ∧ (attemptsLeft db' + m ≤ attemptsLeft db ∨ attemptsLeft db' ≤ 0))
      fun _ _ => False) (publisher envs sizes m) db
  | 0, _ => Along.pure ⟨h.idling envs k, .inl (by simp)⟩
  | m + 1, hm => by
    unfold publisher
    refine Along.bind (along_publisher henvs hsizes h m (by omega)) ?_ fun _ _ hf => hf
    rintro summaries db₁ ⟨hidle, hleft⟩
    refine Along.bind (along_publishPending (henvs m) hm (hsizes m) hidle) ?_ fun _ _ hf => hf
    rintro s db₂ ⟨hidle₂, ⟨records, -, -, hless, hnil⟩, -⟩
    refine Along.pure ⟨hidle₂, ?_⟩
    rcases records with _ | ⟨record, rest⟩
    · have hzero := attemptsLeft_of_empty (hnil rfl)
      exact .inr (by simpa [hzero] using hless)
    · rw [List.length_cons] at hless
      push_cast at hless ⊢
      omega

/-- No statement of the loop waits. -/
theorem each_publishRecords (env : SweepEnv) (t : ℕ) :
    ∀ (records : List (OutboxRecord δ)) (n p f : ℕ),
      (publishRecords env t n records p f).Each fun _ act => ∀ db : Outbox ℕ δ, (act db).isSome
  | [], _, _, _ => Async.each_pure _
  | record :: rest, n, p, f => by
    have hauto : ∀ {fate : Fate} {s : Sync (Outbox ℕ δ) OutboxError Unit},
        (∀ db, (s db).isSome) → ∀ db, (autocommit env.dbError fate s db).isSome := by
      intro fate s hs db
      rcases fate with _ | _ | _
      · exact hs db
      · rfl
      · simpa [autocommit] using hs db
    have hturn : (publishRecord env t n record).Each
        fun _ act => ∀ db : Outbox ℕ δ, (act db).isSome := by
      refine Async.each_tryCatch (Async.each_bind (Async.each_await fun db => ?_) fun _ =>
        Async.each_bind (Async.each_await (hauto fun db => ?_)) fun _ => Async.each_pure _)
        fun err => Async.each_bind (Async.each_await (hauto fun db => ?_)) fun _ =>
          Async.each_pure _
      · cases env.onPublish n <;> rfl
      · cases hrow : db.rows.row record.id <;> simp [markPublished, hrow]
      · cases hrow : db.rows.row record.id with
        | none => simp [recordFailure, hrow]
        | some r =>
          simp only [recordFailure, hrow]
          split_ifs <;> rfl
    refine Async.each_bind hturn fun b => ?_
    cases b
    · exact each_publishRecords env t rest (n + 1) p (f + 1)
    · exact each_publishRecords env t rest (n + 1) (p + 1) f

/-- Given a batch, a sweep returns. -/
theorem publishPending_isSome {env : SweepEnv} (henv : env.DbAnswers) {batchSize : ℤ}
    (hsize : 0 ≤ batchSize) (t : ℕ) (hb : IsBatch (pendingRows db none) (createdAt db)
      batchSize.toNat env.picked) : ((publishPending env t batchSize none).run db).isSome := by
  have hfetch : autocommit env.dbError env.onFetch
      (fetchPendingBatch env.dbError env.picked batchSize none) db
        = some (.ok (db.records env.picked), db) := by
    rw [henv.fetch]
    unfold autocommit fetchPendingBatch
    rw [if_neg (not_lt.2 hsize)]
    exact if_pos hb
  rw [publishPending, Async.run_bind, Async.run_await, Sync.bind_apply, hfetch]
  refine Async.run_isSome_of_each (Async.each_bind (each_publishRecords env t _ 0 0 0) fun counts =>
    Async.each_bind (Async.each_await fun db₁ => ?_) fun _ => Async.each_pure _) db
  rw [henv.count]
  rfl

/-- For every number of newly inserted rows, all batch sizes from 1 on, and whatever the broker
answers, the outbox drains in six sweeps for each row at most. -/
theorem outbox_drains (h : db.Fresh) (henvs : ∀ t, (envs t).DbAnswers)
    (hsizes : ∀ t, 1 ≤ sizes t) : DrainsInAttempts envs sizes db := by
  have halong := fun k => along_publisher (k := k) henvs hsizes h k le_rfl
  have hafter : ∀ {K k summaries db₁}, k ≤ K → (publisher envs sizes k).run db
      = some (.ok summaries, db₁) → Idling envs K k db₁
        ∧ (attemptsLeft db₁ + k ≤ attemptsLeft db ∨ attemptsLeft db₁ ≤ 0) :=
    fun hK hrun => (along_publisher henvs hsizes h _ hK).wp _ _ hrun
  refine ⟨fun k c hreach => (halong k).reach (h.idling envs k).within hreach,
    fun k _ db₁ _ => ?_, fun k r db₁ hrun => ?_, fun k _ db₁ s db₂ hrun hs => ?_,
    fun k _ db₁ hk hrun => ?_⟩
  · obtain ⟨picked, hb⟩ := exists_isBatch (pendingRows db₁ none) (createdAt db₁) (sizes k).toNat
    exact ⟨picked, publishPending_isSome ((henvs k).pick picked) (zero_le_one.trans (hsizes k)) k
      hb⟩
  · rcases r with e | summaries
    · exact ((halong k).wp _ _ hrun).elim
    · exact ⟨summaries, rfl⟩
  · obtain ⟨hidle, -⟩ := hafter k.le_succ hrun
    obtain ⟨-, ⟨records, hfetch, hcount, -, -⟩, hremaining⟩ :=
      (along_publishPending (henvs k) k.lt_succ_self (hsizes k) hidle).wp _ _ hs
    exact ⟨⟨records, hfetch, hcount⟩, hremaining⟩
  · obtain ⟨hidle, hleft⟩ := hafter le_rfl hrun
    have hcard := hidle.card_le_attemptsLeft
    have hstart := h.attemptsLeft_eq
    exact Finset.card_eq_zero.1 (by omega)

end Sweeps

/-- Sweeps while the broker is down; the last one finds the row FAILED. -/
def downEnvs (t : ℕ) : SweepEnv where
  picked := if t < 6 then ["row"] else []
  dbError := ⟨none⟩
  onFetch := .answered
  onPublish _ := .failed
  rejection _ := ⟨some "Broker offline"⟩
  onMark _ := .answered
  onRecord _ := .answered
  onCount := .answered
  now _ := 0

theorem outbox_drains_down :
    ((publisher downEnvs (fun _ => 1) 7).run oneEvent).isSome
      ∧ DrainsInAttempts downEnvs (fun _ => 1) oneEvent := by
  have hinsert : insertOutbox ⟨none⟩ "row" ⟨"evt", "order.confirmed", "order", ()⟩ 0 .empty
      = some (.ok (), oneEvent) := rfl
  exact ⟨by decide +kernel, outbox_drains (fresh_empty.insert _ _ hinsert)
    (fun _ => ⟨rfl, fun _ => rfl, fun _ => rfl, rfl⟩) fun _ => le_rfl⟩

end LaunchPad
