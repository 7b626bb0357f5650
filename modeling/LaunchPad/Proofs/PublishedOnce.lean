import LaunchPad.Proofs.Published

/-!
# Who publishes a row

The lock of `FOR UPDATE SKIP LOCKED` ends with the statement, so two sweeps may fetch the same row,
and then both publish it. Where nothing fails, a row is published once just if no two sweeps have it
in hand at the same time: from its fetch to its mark, a row in one hand only is PENDING, and has
been accepted only if its sweep is about to mark it (`OnceInv`).
-/

namespace LaunchPad

open Interleave Rows

variable {τ δ : Type}

/-- The broker has accepted this event. -/
def BrokerEvent.accepts (eventId : String) : BrokerEvent τ δ → Bool
  | .accepted _ _ event => event.eventId = eventId
  | .rejected _ _ _ => false

/-- How often the broker has accepted the event. -/
def acceptances (db : Outbox τ δ) (eventId : String) : ℕ :=
  db.broker.countP (BrokerEvent.accepts eventId)

/-- The broker accepts what the sweep publishes, and what it marks is marked. -/
def OutboxCall.Faultless : OutboxCall δ → Prop
  | .insert _ _ _ _ _ => True
  | .publishPending env _ _ => ∀ n, env.onPublish n = .answered ∧ env.onMark n = .answered

/-- No row is published twice, and a PUBLISHED one has been published. -/
def PublishedOnce (db : Outbox τ δ) : Prop :=
  ∀ id r, db.rows.row id = some r → acceptances db r.payload.eventId ≤ 1
    ∧ (r.status = .published → acceptances db r.payload.eventId = 1)

/-- No two sweeps have the same row in hand. -/
def OneHand (φ : τ → SweepPhase δ) : Prop :=
  ∀ t t', t ≠ t' → ∀ record ∈ (φ t).held, ∀ record' ∈ (φ t').held, record.id ≠ record'.id

/-- What a table and a broker's log agree on: the ids of events are unique, only events of the table
have been accepted, the PUBLISHED ones once and the others never. -/
structure SentOnce (db : Outbox τ δ) : Prop where
  unique : ∀ id id' r r', db.rows.row id = some r → db.rows.row id' = some r' →
    r.payload.eventId = r'.payload.eventId → id = id'
  sent : ∀ eventId, acceptances db eventId ≠ 0 →
    ∃ id r, db.rows.row id = some r ∧ r.payload.eventId = eventId
  count : ∀ id r, db.rows.row id = some r →
    acceptances db r.payload.eventId = if r.status = .published then 1 else 0

/-- The sweep has published the row, and has not marked it yet. -/
def SweepPhase.IsMarking (p : SweepPhase δ) (id : String) : Prop :=
  ∃ n record rest, p = .marking n record rest ∧ record.id = id

/-- The sweep is about to record a failure. -/
def SweepPhase.IsRecording : SweepPhase δ → Prop
  | .recording _ _ _ _ => True
  | _ => False

/-- The event has been published: its row is marked, or about to be. -/
def IsOut (φ : τ → SweepPhase δ) (id : String) (r : OutboxRow δ) : Prop :=
  r.status = .published ∨ ∃ t, (φ t).IsMarking id

/-- What is known while no two sweeps have the same row in hand and nothing fails. -/
structure OnceInv (φ : τ → SweepPhase δ) (db : Outbox τ δ) : Prop where
  unique : ∀ id id' r r', db.rows.row id = some r → db.rows.row id' = some r' →
    r.payload.eventId = r'.payload.eventId → id = id'
  sent : ∀ eventId, acceptances db eventId ≠ 0 →
    ∃ id r, db.rows.row id = some r ∧ r.payload.eventId = eventId
  known : ∀ t, ∀ record ∈ (φ t).held, ∃ r, db.rows.row record.id = some r
    ∧ r.payload = record.row.payload ∧ r.status ≠ .published
  nodup : ∀ t, ((φ t).held.map OutboxRecord.id).Nodup
  out : ∀ id r, db.rows.row id = some r → IsOut φ id r → acceptances db r.payload.eventId = 1
  waiting : ∀ id r, db.rows.row id = some r → ¬ IsOut φ id r →
    acceptances db r.payload.eventId = 0

section Log

variable {db : Outbox τ δ} {t : τ} {topic eventId : String} {event : DomainEvent δ}

theorem acceptances_accepted :
    acceptances (db.log (.accepted t topic event)) eventId
      = acceptances db eventId + if event.eventId = eventId then 1 else 0 := by
  simp [acceptances, Outbox.log, List.countP_append, BrokerEvent.accepts]

end Log

/-! ## The steps -/

section Steps

variable {φ : τ → SweepPhase δ} {db db' : Outbox τ δ} {t : τ} {call : OutboxCall δ}
  {p : SweepPhase δ}

theorem not_isMarking_loop (n : ℕ) (records : List (OutboxRecord δ)) (id : String) :
    ¬ (SweepPhase.loop n records).IsMarking id := by
  cases records <;> simp [SweepPhase.IsMarking, SweepPhase.loop]

theorem isMarking_marking {n : ℕ} {record : OutboxRecord δ} {rest : List (OutboxRecord δ)}
    {id : String} : (SweepPhase.marking n record rest).IsMarking id ↔ record.id = id := by
  unfold SweepPhase.IsMarking
  constructor
  · rintro ⟨_, _, _, ⟨⟩, h⟩
    exact h
  · exact fun h => ⟨n, record, rest, rfl, h⟩

/-- Another sweep is not marking a row this one has in hand. -/
theorem OneHand.not_isMarking (hone : OneHand φ) {record : OutboxRecord δ}
    (hr : record ∈ (φ t).held) {t' : τ} (ht : t' ≠ t) : ¬ (φ t').IsMarking record.id := by
  rintro ⟨n, record', rest, hp, he⟩
  exact hone t' t ht record' (by simp [hp]) record hr he

variable [DecidableEq τ]

/-- A sweep moves on and marks what it marked before. -/
theorem OnceInv.phase (h : OnceInv φ db) (hmark : ∀ id, p.IsMarking id ↔ (φ t).IsMarking id)
    (hknown : ∀ record ∈ p.held, ∃ r, db.rows.row record.id = some r
      ∧ r.payload = record.row.payload ∧ r.status ≠ .published)
    (hnodup : (p.held.map OutboxRecord.id).Nodup) :
    OnceInv (Function.update φ t p) db := by
  have hout : ∀ id r, IsOut (Function.update φ t p) id r ↔ IsOut φ id r := by
    intro id r
    refine or_congr_right (exists_congr fun t' => ?_)
    rcases eq_or_ne t' t with rfl | hne
    · rw [Function.update_self, hmark]
    · rw [Function.update_of_ne hne]
  refine ⟨h.unique, h.sent, fun t' => ?_, fun t' => ?_, fun id r hrow ho => ?_,
    fun id r hrow ho => ?_⟩
  · rcases eq_or_ne t' t with rfl | hne
    · rwa [Function.update_self]
    · rw [Function.update_of_ne hne]
      exact h.known t'
  · rcases eq_or_ne t' t with rfl | hne
    · rwa [Function.update_self]
    · rw [Function.update_of_ne hne]
      exact h.nodup t'
  · exact h.out id r hrow ((hout id r).1 ho)
  · exact h.waiting id r hrow fun hr => ho ((hout id r).2 hr)

omit [DecidableEq τ] in
/-- An event is inserted that the table has not seen. -/
theorem OnceInv.insert (h : OnceInv φ db) {id : String} {event : DomainEvent δ} {now : Time}
    (hevent : ∀ k r, db.rows.row k = some r → r.payload.eventId ≠ event.eventId)
    (hid : db.rows.row id = none) :
    OnceInv φ { db with rows := db.rows.set id ⟨event, .pending, 0, now, none, none⟩ } := by
  have hheld : ∀ t', ∀ record ∈ (φ t').held, record.id ≠ id := by
    intro t' record hr he
    obtain ⟨r, hrow, -⟩ := h.known t' record hr
    rw [he, hid] at hrow
    cases hrow
  have hzero : acceptances db event.eventId = 0 := by
    by_contra hne
    obtain ⟨k, r, hrow, he⟩ := h.sent _ hne
    exact hevent k r hrow he
  refine ⟨fun k k' r r' => unique_set_of_new h.unique hevent, fun eventId hne => ?_,
    fun t' record hr => ?_, h.nodup, fun k r hrow ho => ?_, fun k r hrow ho => ?_⟩
  · obtain ⟨k, r, hrow, he⟩ := h.sent eventId hne
    have hk : k ≠ id := by
      rintro rfl
      rw [hid] at hrow
      cases hrow
    exact ⟨k, r, by rw [Table.set_row, if_neg hk]; exact hrow, he⟩
  · obtain ⟨r, hrow, hrest⟩ := h.known t' record hr
    exact ⟨r, by rw [Table.set_row, if_neg (hheld t' record hr)]; exact hrow, hrest⟩
  · rcases Table.set_row_eq_some.1 hrow with ⟨rfl, rfl⟩ | ⟨hk, hrow⟩
    · rcases ho with ho | ⟨t', n, record, rest, hp, he⟩
      · cases ho
      · exact absurd he (hheld t' record (by simp [hp]))
    · exact h.out k r hrow ho
  · rcases Table.set_row_eq_some.1 hrow with ⟨rfl, rfl⟩ | ⟨hk, hrow⟩
    · exact hzero
    · exact h.waiting k r hrow ho

/-- The broker accepts the event of a row that only this sweep has in hand. -/
theorem OnceInv.publish (h : OnceInv φ db) (hone : OneHand φ) {n : ℕ} {record : OutboxRecord δ}
    {rest : List (OutboxRecord δ)} (hp : φ t = .publishing n record rest) {topic : String} :
    OnceInv (Function.update φ t (.marking n record rest))
      (db.log (.accepted t topic record.row.payload)) := by
  have hmem : record ∈ (φ t).held := by simp [hp]
  obtain ⟨r₀, hrow₀, hpay₀, hstatus₀⟩ := h.known t record hmem
  have hne : ∀ id r, db.rows.row id = some r → id ≠ record.id →
      record.row.payload.eventId ≠ r.payload.eventId := by
    intro id r hrow hid he
    rw [← hpay₀] at he
    exact hid (h.unique _ _ _ _ hrow hrow₀ he.symm)
  have hwait : acceptances db record.row.payload.eventId = 0 := by
    rw [← hpay₀]
    refine h.waiting _ _ hrow₀ ?_
    rintro (hpub | ⟨t', hmark⟩)
    · exact hstatus₀ hpub
    · rcases eq_or_ne t' t with rfl | ht
      · obtain ⟨_, _, _, hp', -⟩ := hmark
        rw [hp] at hp'
        cases hp'
      · exact hone.not_isMarking hmem ht hmark
  have hheld : ∀ t', (Function.update φ t (.marking n record rest) t').held = (φ t').held := by
    intro t'
    rcases eq_or_ne t' t with rfl | ht
    · simp [hp]
    · rw [Function.update_of_ne ht]
  have hout : ∀ id r, id ≠ record.id →
      (IsOut (Function.update φ t (.marking n record rest)) id r ↔ IsOut φ id r) := by
    intro id r hid
    refine or_congr_right (exists_congr fun t' => ?_)
    rcases eq_or_ne t' t with rfl | ht
    · rw [Function.update_self, isMarking_marking, hp]
      simp [SweepPhase.IsMarking, Ne.symm hid]
    · rw [Function.update_of_ne ht]
  refine ⟨h.unique, fun eventId hacc => ?_, fun t' => ?_, fun t' => ?_, fun id r hrow ho => ?_,
    fun id r hrow ho => ?_⟩
  · rw [acceptances_accepted] at hacc
    split_ifs at hacc with he
    · exact ⟨record.id, r₀, hrow₀, by rw [hpay₀, he]⟩
    · exact h.sent eventId hacc
  · rw [hheld]
    exact h.known t'
  · rw [hheld]
    exact h.nodup t'
  · rw [acceptances_accepted]
    rcases eq_or_ne id record.id with rfl | hid
    · have hr : r = r₀ := Option.some.inj (hrow.symm.trans hrow₀)
      rw [hr, hpay₀, hwait, if_pos rfl]
    · rw [if_neg (hne id r hrow hid), h.out id r hrow ((hout id r hid).1 ho)]
  · rw [acceptances_accepted]
    rcases eq_or_ne id record.id with rfl | hid
    · exact absurd (.inr ⟨t, by rw [Function.update_self, isMarking_marking]⟩) ho
    · rw [if_neg (hne id r hrow hid), h.waiting id r hrow fun hr => ho ((hout id r hid).2 hr)]

/-- The row is marked, and its sweep goes on to the next. -/
theorem OnceInv.mark (h : OnceInv φ db) (hone : OneHand φ) {n : ℕ} {record : OutboxRecord δ}
    {rest : List (OutboxRecord δ)} (hp : φ t = .marking n record rest) {publishedAt : Time} :
    OnceInv (Function.update φ t (.loop (n + 1) rest)) (db.markRow record.id publishedAt) := by
  have hmem : record ∈ (φ t).held := by simp [hp]
  obtain ⟨r₀, hrow₀, hpay₀, hstatus₀⟩ := h.known t record hmem
  have hacc : acceptances db r₀.payload.eventId = 1 :=
    h.out _ _ hrow₀ (.inr ⟨t, by rw [hp, isMarking_marking]⟩)
  have hnodup := h.nodup t
  rw [hp, SweepPhase.held_marking, List.map_cons, List.nodup_cons] at hnodup
  rw [markRow_of_row hrow₀]
  set r₁ : OutboxRow δ := { r₀ with
    status := .published
    publishedAt := some publishedAt
    lastError := none }
  have hset : ∀ k r, db.rows.row k = some r →
      ∃ r', (db.rows.set record.id r₁).row k = some r' ∧ r'.payload = r.payload := by
    intro k r hrow
    rcases eq_or_ne k record.id with rfl | hk
    · rw [hrow₀] at hrow
      obtain rfl := Option.some.inj hrow
      exact ⟨r₁, Table.set_row_self .., rfl⟩
    · exact ⟨r, by rw [Table.set_row, if_neg hk]; exact hrow, rfl⟩
  have hheld : ∀ t', ∀ record' ∈ (Function.update φ t (.loop (n + 1) rest) t').held,
      record'.id ≠ record.id ∧ record' ∈ (φ t').held := by
    intro t' record' hr
    rcases eq_or_ne t' t with rfl | ht
    · rw [Function.update_self, SweepPhase.held_loop] at hr
      exact ⟨fun he => hnodup.1 (he ▸ List.mem_map_of_mem hr), by simp [hp, hr]⟩
    · rw [Function.update_of_ne ht] at hr
      exact ⟨hone t' t ht record' hr record hmem, hr⟩
  have hout : ∀ id r, id ≠ record.id →
      (IsOut (Function.update φ t (.loop (n + 1) rest)) id r ↔ IsOut φ id r) := by
    intro id r hid
    refine or_congr_right (exists_congr fun t' => ?_)
    rcases eq_or_ne t' t with rfl | ht
    · rw [Function.update_self, hp, isMarking_marking]
      exact iff_of_false (not_isMarking_loop _ _ _) (Ne.symm hid)
    · rw [Function.update_of_ne ht]
  refine ⟨fun k k' r r' hr hr' he => ?_, fun eventId hne => ?_, fun t' record' hr => ?_,
    fun t' => ?_, fun id r hrow ho => ?_, fun id r hrow ho => ?_⟩
  · rcases Table.set_row_eq_some.1 hr with ⟨rfl, rfl⟩ | ⟨-, h₁⟩ <;>
      rcases Table.set_row_eq_some.1 hr' with ⟨rfl, rfl⟩ | ⟨-, h₂⟩
    · rfl
    · exact h.unique _ _ _ _ hrow₀ h₂ he
    · exact h.unique _ _ _ _ h₁ hrow₀ he
    · exact h.unique k k' r r' h₁ h₂ he
  · obtain ⟨k, r, hrow, he⟩ := h.sent eventId hne
    obtain ⟨r', hrow', hpay⟩ := hset k r hrow
    exact ⟨k, r', hrow', by rw [hpay, he]⟩
  · obtain ⟨hid, hr⟩ := hheld t' record' hr
    obtain ⟨r, hrow, hrest⟩ := h.known t' record' hr
    exact ⟨r, by rw [Table.set_row, if_neg hid]; exact hrow, hrest⟩
  · rcases eq_or_ne t' t with rfl | ht
    · rw [Function.update_self, SweepPhase.held_loop]
      exact hnodup.2
    · rw [Function.update_of_ne ht]
      exact h.nodup t'
  · rcases Table.set_row_eq_some.1 hrow with ⟨rfl, rfl⟩ | ⟨hid, hrow⟩
    · exact hacc
    · exact h.out id r hrow ((hout id r hid).1 ho)
  · rcases Table.set_row_eq_some.1 hrow with ⟨rfl, rfl⟩ | ⟨hid, hrow⟩
    · exact absurd (.inl rfl) ho
    · exact h.waiting id r hrow fun hr => ho ((hout id r hid).2 hr)

theorem OnceInv.step (h : OnceInv φ db) (hone : OneHand φ) (hcall : call.Faultless)
    (hfault : ¬ (φ t).IsRecording) (hm : SweepMove t db call (φ t) db' p) :
    OnceInv (Function.update φ t p) db' := by
  generalize hp : φ t = q at hm hfault
  cases hm with
  | quit hq =>
    refine h.phase (fun id => ?_) (by simp) (by simp)
    rcases hq with rfl | rfl <;> simp [hp, SweepPhase.IsMarking]
  | inserted hfate hevent hid =>
    refine (h.insert hevent hid).phase (fun id => ?_) (by simp) (by simp)
    simp [hp, SweepPhase.IsMarking]
  | @fetched env batchSize aggregateId hb =>
    refine h.phase (fun id => ?_) (fun record hr => ?_) ?_
    · rw [hp]
      exact iff_of_false (not_isMarking_loop _ _ _) (by simp [SweepPhase.IsMarking])
    · rw [SweepPhase.held_loop, mem_records] at hr
      have hpending := pending_of_mem_pendingRows (hb.2.1 _ hr.1) hr.2
      exact ⟨record.row, hr.2, rfl, by simp [hpending.1]⟩
    · rw [SweepPhase.held_loop]
      exact hb.1.sublist (records_sublist db _)
  | sent hsent =>
    rcases hsent with ⟨-, rfl⟩ | ⟨hf, -⟩
    · exact h.publish hone hp
    · simp [(hcall _).1] at hf
  | rejected hf => simp [(hcall _).1] at hf
  | marked hmarked =>
    rcases hmarked with ⟨-, rfl⟩ | ⟨hf, -⟩
    · exact h.mark hone hp
    · simp [(hcall _).2] at hf
  | unmarked hf => simp [(hcall _).2] at hf
  | recorded => exact absurd trivial hfault
  | unrecorded => exact absurd trivial hfault

omit [DecidableEq τ] in
/-- Where nothing fails, no failure is recorded. -/
theorem SweepMove.not_isRecording {q : SweepPhase δ} (hm : SweepMove t db call q db' p)
    (hcall : call.Faultless) (hq : ¬ q.IsRecording) : ¬ p.IsRecording := by
  cases hm with
  | quit => exact id
  | inserted => exact id
  | fetched => cases db.records _ <;> exact id
  | sent hp =>
    rcases hp with ⟨-, rfl⟩ | ⟨hf, -⟩
    · exact id
    · simp [(hcall _).1] at hf
  | rejected hf => simp [(hcall _).1] at hf
  | @marked env _ _ n record rest _ hp =>
    rcases hp with ⟨-, rfl⟩ | ⟨hf, -⟩
    · cases rest <;> exact id
    · simp [(hcall _).2] at hf
  | unmarked hf => simp [(hcall _).2] at hf
  | recorded => exact absurd trivial hq
  | unrecorded => exact absurd trivial hq

omit [DecidableEq τ] in
/-- A sweep lets go of a row only when its event has been accepted. -/
theorem SweepMove.held_or_accepted {q : SweepPhase δ} (hm : SweepMove t db call q db' p)
    (h : InHand t q db) (hq : ¬ q.IsRecording) {record : OutboxRecord δ} (hr : record ∈ q.held) :
    record ∈ p.held
      ∨ .accepted t record.row.payload.eventType record.row.payload ∈ db'.broker := by
  have hgrows := hm.grows
  cases hm with
  | quit hp => rcases hp with rfl | rfl <;> simp at hr
  | inserted => simp at hr
  | fetched => simp at hr
  | sent hp => rcases hp with ⟨-, rfl⟩ | ⟨-, err, rfl⟩ <;> exact .inl hr
  | rejected => exact .inl hr
  | marked hp =>
    rcases hp with ⟨-, rfl⟩ | ⟨-, err, rfl⟩
    · rw [SweepPhase.held_marking, List.mem_cons] at hr
      rcases hr with rfl | hr
      · exact .inr (hgrows.broker _ (h.sent _ _ _ rfl))
      · exact .inl (by simpa using hr)
    · exact .inl hr
  | unmarked => exact .inl hr
  | recorded => exact absurd trivial hq
  | unrecorded => exact absurd trivial hq

end Steps

/-! ## Runs -/

section Runs

variable {calls : τ → OutboxCall δ} {db₀ db : Outbox τ δ} {h h₁ : List (Taken τ (Outbox τ δ))}

theorem OnceInv.publishedOnce {φ : τ → SweepPhase δ} (hinv : OnceInv φ db) :
    PublishedOnce db := by
  intro id r hrow
  by_cases ho : IsOut φ id r
  · have hacc := hinv.out id r hrow ho
    exact ⟨hacc.le, fun _ => hacc⟩
  · have hacc := hinv.waiting id r hrow ho
    exact ⟨by omega, fun hr => absurd (.inl hr) ho⟩

theorem onceInv_start (h₀ : SentOnce db₀) : OnceInv (fun _ : τ => .start) db₀ := by
  refine ⟨h₀.unique, h₀.sent, by simp, by simp, fun id r hrow ho => ?_, fun id r hrow ho => ?_⟩
  · rcases ho with hr | ⟨t, _, _, _, hp, -⟩
    · rw [h₀.count id r hrow, if_pos hr]
    · cases hp
  · rw [h₀.count id r hrow, if_neg fun hr => ho (.inl hr)]

variable [DecidableEq τ]

theorem not_isRecording_of_trace (hcalls : ∀ t, (calls t).Faultless)
    (ht : (sweeps calls).Trace db₀ h db) (t : τ) : ¬ ((sweeps calls).phases h t).IsRecording := by
  induction ht with
  | nil => exact id
  | @snoc h db db' t' p ht hm ih =>
    rw [Machine.phases_snoc, Machine.advance_of_move hm]
    rcases eq_or_ne t t' with rfl | hne
    · rw [Function.update_self]
      exact (sweepMove_of_move hm).not_isRecording (hcalls t) ih
    · rwa [Function.update_of_ne hne]

theorem onceInv_of_trace (hcalls : ∀ t, (calls t).Faultless) (h₀ : SentOnce db₀)
    (ht : (sweeps calls).Trace db₀ h db)
    (hone : ∀ h₁, h₁ <+: h → OneHand ((sweeps calls).phases h₁)) :
    OnceInv ((sweeps calls).phases h) db := by
  induction ht with
  | nil => exact onceInv_start h₀
  | snoc ht hm ih =>
    have hinv := ih fun h₁ hp => hone h₁ (hp.trans (List.prefix_append _ _))
    rw [Machine.phases_snoc, Machine.advance_of_move hm]
    exact hinv.step (hone _ (List.prefix_append _ _)) (hcalls _)
      (not_isRecording_of_trace hcalls ht _) (sweepMove_of_move hm)

/-- A row that was in hand still is, or its event has been accepted from this sweep. -/
theorem held_or_accepted_of_trace (hcalls : ∀ t, (calls t).Faultless) {t : τ}
    {record : OutboxRecord δ} (hr : record ∈ ((sweeps calls).phases h₁ t).held)
    (ht : (sweeps calls).Trace db₀ h db) (hp : h₁ <+: h) :
    record ∈ ((sweeps calls).phases h t).held
      ∨ .accepted t record.row.payload.eventType record.row.payload ∈ db.broker := by
  induction ht with
  | nil =>
    obtain rfl := List.prefix_nil.1 hp
    exact .inl hr
  | @snoc h db db' t' p ht hm ih =>
    rcases List.prefix_concat_iff.1 hp with rfl | hp'
    · exact .inl hr
    · have hmove := sweepMove_of_move hm
      rcases ih hp' with hheld | hacc
      · rw [Machine.phases_snoc, Machine.advance_of_move hm]
        rcases eq_or_ne t t' with rfl | hne
        · rw [Function.update_self]
          exact hmove.held_or_accepted (inHand_of_trace ht t)
            (not_isRecording_of_trace hcalls ht t) hheld
        · rw [Function.update_of_ne hne]
          exact .inl hheld
      · exact .inr (hmove.grows.broker _ hacc)

omit [DecidableEq τ] in
/-- What two sweeps have each published has been accepted twice. -/
theorem two_le_acceptances {t t' : τ} (hne : t ≠ t') {topic topic' : String}
    {event event' : DomainEvent δ} (he : event.eventId = event'.eventId)
    (hm : .accepted t topic event ∈ db.broker) (hm' : .accepted t' topic' event' ∈ db.broker) :
    2 ≤ acceptances db event.eventId := by
  have hsub : [.accepted t topic event, .accepted t' topic' event'].Subperm db.broker :=
    List.Nodup.subperm (by simp [hne]) (by simp [hm, hm'])
  have hle := hsub.countP_le (BrokerEvent.accepts event.eventId)
  simpa [acceptances, BrokerEvent.accepts, he] using hle

/-- Two sweeps that have had the same row in hand have both published it when they are done. -/
theorem oneHand_of_publishedOnce (hcalls : ∀ t, (calls t).Faultless)
    (ht : (sweeps calls).Trace db₀ h db) (hdone : ∀ t, ((sweeps calls).phases h t).held = [])
    (honce : PublishedOnce db) (hp : h₁ <+: h) : OneHand ((sweeps calls).phases h₁) := by
  intro t t' hne record hr record' hr' hid
  have hacc := (held_or_accepted_of_trace hcalls hr ht hp).resolve_left (by simp [hdone])
  have hacc' := (held_or_accepted_of_trace hcalls hr' ht hp).resolve_left (by simp [hdone])
  obtain ⟨db₁, ht₁⟩ := ht.initial hp
  obtain ⟨r, hrow, hpay, -⟩ := (inHand_of_trace ht₁ t).known record hr
  obtain ⟨r', hrow', hpay', -⟩ := (inHand_of_trace ht₁ t').known record' hr'
  rw [← hid, hrow] at hrow'
  have hevent : record.row.payload = record'.row.payload := by
    rw [← hpay, ← hpay', Option.some.inj hrow']
  obtain ⟨r₂, hrow₂, hpay₂, -⟩ := (grows_of_trace ht₁ ht hp).rows _ r hrow
  have hle := (honce _ r₂ hrow₂).1
  rw [hpay₂, hpay] at hle
  have htwo := two_le_acceptances hne (congrArg DomainEvent.eventId hevent) hacc hacc'
  omega

/-- Sweeps of any number of workers on one outbox, interleaved statement by statement in any way,
before a broker that accepts everything, with nothing failing. While no two of them have the same
row in hand, no event is published twice, and a PUBLISHED one has been published; and once they are
all done, this was so only if no two of them ever had. -/
theorem published_once_iff_oneHand (hcalls : ∀ t, (calls t).Faultless) (h₀ : SentOnce db₀)
    {c : Config τ (Outbox τ δ) OutboxError (Option PublishBatchSummary)}
    (hrun : (outboxFrom db₀ calls).Run h c) :
    ((∀ h₁, h₁ <+: h → OneHand ((sweeps calls).phases h₁)) → PublishedOnce c.world)
      ∧ ((∀ t, ((sweeps calls).phases h t).held = []) → PublishedOnce c.world →
        ∀ h₁, h₁ <+: h → OneHand ((sweeps calls).phases h₁)) := by
  have ht := trace_of_outbox_run hrun
  refine ⟨fun hone => (onceInv_of_trace hcalls h₀ ht hone).publishedOnce, ?_⟩
  exact fun hdone honce h₁ hp => oneHand_of_publishedOnce hcalls ht hdone honce hp

end Runs

theorem twoOrders_row {id : String} {r : OutboxRow Unit} (h : twoOrders.rows.row id = some r) :
    r.status = .pending ∧ (id = "first" ∧ r.payload.eventId = "evt-1"
      ∨ id = "second" ∧ r.payload.eventId = "evt-2") := by
  rcases Table.set_row_eq_some.1 h with ⟨rfl, rfl⟩ | ⟨-, h⟩
  · exact ⟨rfl, .inr ⟨rfl, rfl⟩⟩
  · rcases Table.set_row_eq_some.1 h with ⟨rfl, rfl⟩ | ⟨-, h⟩
    · exact ⟨rfl, .inl ⟨rfl, rfl⟩⟩
    · cases h

theorem sentOnce_twoOrders : SentOnce twoOrders where
  unique id id' r r' hr hr' he := by
    rcases (twoOrders_row hr).2 with ⟨rfl, h⟩ | ⟨rfl, h⟩ <;>
      rcases (twoOrders_row hr').2 with ⟨rfl, h'⟩ | ⟨rfl, h'⟩ <;> simp_all
  sent eventId h := absurd rfl h
  count id r hr := by
    rw [(twoOrders_row hr).1]
    rfl

/-- One of the two workers has nothing in hand, at every moment. -/
theorem oneHand_of_all {calls : Bool → OutboxCall Unit} {h : List (Taken Bool (Outbox Bool Unit))}
    (hall : (h.inits.all fun h₁ => ((sweeps calls).phases h₁ false).held.isEmpty
      || ((sweeps calls).phases h₁ true).held.isEmpty) = true)
    {h₁ : List (Taken Bool (Outbox Bool Unit))} (hp : h₁ <+: h) :
    OneHand ((sweeps calls).phases h₁) := by
  have hone := List.all_eq_true.1 hall h₁ ((List.mem_inits h₁ h).2 hp)
  simp only [Bool.or_eq_true, List.isEmpty_iff] at hone
  intro t t' hne record hr record' hr'
  rcases hone with hheld | hheld <;> cases t <;> cases t' <;> simp_all

/-- The second worker fetches when the first has marked its row: both rows are published once. -/
theorem published_once_alone :
    ∃ h c, (outboxFrom twoOrders (oneEach .answered)).Run h c ∧ PublishedOnce c.world
      ∧ ∀ id ∈ ["first", "second"],
        (c.world.rows.row id).any fun r => r.status = .published := by
  have hany : ((outboxFrom twoOrders (oneEach .answered)).history
      [false, false, false, true, false, true, true, true]).any fun p =>
        (p.1.inits.all fun h₁ => ((sweeps (oneEach .answered)).phases h₁ false).held.isEmpty
          || ((sweeps (oneEach .answered)).phases h₁ true).held.isEmpty)
        && ["first", "second"].all fun id =>
          (p.2.world.rows.row id).any fun r => r.status = .published := by
    decide +kernel
  obtain ⟨⟨h, c⟩, hp, hfacts⟩ := (Option.any_eq_true _ _).1 hany
  obtain ⟨hall, hrows⟩ := Bool.and_eq_true_iff.1 hfacts
  have hrun := Config.run_of_history _ hp
  have hfaultless : ∀ t, (oneEach .answered t).Faultless := fun t _ => by
    cases t <;> exact ⟨rfl, rfl⟩
  exact ⟨h, c, hrun, (published_once_iff_oneHand hfaultless sentOnce_twoOrders hrun).1
    fun _ hp => oneHand_of_all hall hp, List.all_eq_true.1 hrows⟩

/-- Sweeps of two workers, given the one row there is. -/
def bothWorkers (_ : ℕ) : OutboxCall Unit :=
  .publishPending
    { picked := ["row"]
      dbError := ⟨none⟩
      onFetch := .answered
      onPublish := fun _ => .answered
      rejection := fun _ => ⟨none⟩
      onMark := fun _ => .answered
      onRecord := fun _ => .answered
      onCount := .answered
      now := fun _ => 7 } 50 none

theorem bothWorkers_isSome :
    ((outboxFrom oneEvent bothWorkers).history [0, 1, 0, 0, 1, 1, 0, 1]).isSome := by decide

/-- Both workers fetch the row before either has marked it, and both publish it. -/
theorem published_twice :
    ¬ ∀ (h : List (Taken ℕ (Outbox ℕ Unit)))
        (c : Config ℕ (Outbox ℕ Unit) OutboxError (Option PublishBatchSummary)),
      (outboxFrom oneEvent bothWorkers).Run h c → PublishedOnce c.world := by
  intro honce
  have hrun := Config.run_of_history _ (Option.eq_some_of_isSome bothWorkers_isSome)
  exact absurd (honce _ _ hrun "row" _ rfl).1 (by decide)

end LaunchPad
