import LaunchPad.OutboxTransaction
import LaunchPad.Proofs.Fifo

/-!
# At least once, and no ghosts

A row is marked only by a sweep whose publish of it was answered, so what is PUBLISHED has been
accepted; a sweep publishes only what it was given from the committed table, so what is accepted has
been committed. Rows are never deleted, and an event that is in the table, or in a transaction that
has not ended, is not inserted again (`SharedInv`).
-/

namespace LaunchPad

open Interleave Rows

variable {τ δ : Type} [DecidableEq τ]

omit [DecidableEq τ] in
/-- The call inserts the event under this id, if it comes to that. -/
def SharedCall.Inserts (id : String) (event : DomainEvent δ) : SharedCall δ → Prop
  | .insert _ _ id' event' _ => id' = id ∧ event' = event
  | .transaction _ events _ => (id, event) ∈ events
  | .publishPending _ _ _ => False

omit [DecidableEq τ] in
/-- What is known of the outbox while calls are under way on it. -/
structure SharedInv (calls : τ → SharedCall δ) (φ : τ → SweepPhase δ) (v : SharedOutbox τ δ) :
    Prop where
  unique : ∀ id id' r r', v.outbox.rows.row id = some r → v.outbox.rows.row id' = some r' →
    r.payload.eventId = r'.payload.eventId → id = id'
  fresh : ∀ p ∈ v.uncommitted, v.outbox.rows.row p.2.id = none ∧ p.2.row.status ≠ .published
    ∧ ∀ id r, v.outbox.rows.row id = some r → r.payload.eventId ≠ p.2.row.payload.eventId
  apart : v.uncommitted.Pairwise fun p q =>
    p.2.id ≠ q.2.id ∧ p.2.row.payload.eventId ≠ q.2.row.payload.eventId
  origin : ∀ p ∈ v.uncommitted, (calls p.1).Inserts p.2.id p.2.row.payload
  committed : ∀ id r, v.outbox.rows.row id = some r → ∃ t, (calls t).Commits id r.payload
  published : ∀ id r, v.outbox.rows.row id = some r → r.status = .published →
    ∃ t, .accepted t r.payload.eventType r.payload ∈ v.outbox.broker
  sent : ∀ t topic event, .accepted t topic event ∈ v.outbox.broker → topic = event.eventType
    ∧ ∃ id r, v.outbox.rows.row id = some r ∧ r.payload = event
  hands : ∀ t, InHand t (φ t) v.outbox

/-! ## The ends of a transaction -/

section Statements

variable {calls : τ → SharedCall δ} {φ : τ → SweepPhase δ} {v : SharedOutbox τ δ} {t : τ}

theorem SharedInv.rollback (h : SharedInv calls φ v) (t : τ) :
    SharedInv calls φ (v.rollback t) :=
  ⟨h.unique, fun p hp => h.fresh p (List.mem_of_mem_filter hp), h.apart.filter _,
    fun p hp => h.origin p (List.mem_of_mem_filter hp), h.committed, h.published, h.sent, h.hands⟩

omit [DecidableEq τ] in
/-- An event that nobody has inserted is. -/
theorem SharedInv.insert (h : SharedInv calls φ v) {id : String} {event : DomainEvent δ}
    {now : Time} (horigin : (calls t).Inserts id event)
    (hevent : ∀ k r, v.outbox.rows.row k = some r → r.payload.eventId ≠ event.eventId)
    (hid : v.outbox.rows.row id = none)
    (hother : ∀ p ∈ v.uncommitted, p.2.row.payload.eventId ≠ event.eventId ∧ p.2.id ≠ id) :
    SharedInv calls φ { v with
      uncommitted := v.uncommitted ++ [(t, ⟨id, ⟨event, .pending, 0, now, none, none⟩⟩)] } := by
  refine ⟨h.unique, fun p hp => ?_, ?_, fun p hp => ?_, h.committed, h.published, h.sent, h.hands⟩
  · rcases List.mem_append.1 hp with hp | hp
    · exact h.fresh p hp
    · obtain rfl := List.mem_singleton.1 hp
      exact ⟨hid, by simp, hevent⟩
  · refine List.pairwise_append.2 ⟨h.apart, List.pairwise_singleton _ _, fun p hp q hq => ?_⟩
    obtain rfl := List.mem_singleton.1 hq
    exact ⟨(hother p hp).2, (hother p hp).1⟩
  · rcases List.mem_append.1 hp with hp | hp
    · exact h.origin p hp
    · obtain rfl := List.mem_singleton.1 hp
      exact horigin

omit [DecidableEq τ] in
/-- Two rows of transactions under way differ in their ids and their events. -/
theorem SharedInv.apart_of_ne (h : SharedInv calls φ v) {p q : τ × OutboxRecord δ}
    (hp : p ∈ v.uncommitted) (hq : q ∈ v.uncommitted) (hne : p ≠ q) :
    p.2.id ≠ q.2.id ∧ p.2.row.payload.eventId ≠ q.2.row.payload.eventId := by
  obtain ⟨i, hi, rfl⟩ := List.getElem_of_mem hp
  obtain ⟨j, hj, rfl⟩ := List.getElem_of_mem hq
  have hall := List.pairwise_iff_getElem.1 h.apart
  rcases lt_trichotomy i j with hlt | rfl | hlt
  · exact hall i j hi hj hlt
  · exact absurd rfl hne
  · have hji := hall j i hj hi hlt
    exact ⟨hji.1.symm, hji.2.symm⟩

theorem mem_rowsOf {id : String} {r : OutboxRow δ} :
    (id, r) ∈ v.rowsOf t ↔ (t, ⟨id, r⟩) ∈ v.uncommitted := by
  simp only [SharedOutbox.rowsOf, List.mem_map, List.mem_filter, decide_eq_true_eq, Prod.mk.injEq]
  constructor
  · rintro ⟨⟨t', record⟩, ⟨hp, rfl⟩, rfl, rfl⟩
    exact hp
  · exact fun hp => ⟨_, ⟨hp, rfl⟩, rfl, rfl⟩

theorem SharedInv.rowsOf_apart (h : SharedInv calls φ v) :
    (v.rowsOf t).Pairwise fun a b => a.1 ≠ b.1 := by
  rw [SharedOutbox.rowsOf, List.pairwise_map]
  exact (h.apart.filter _).imp fun h => h.1

/-- A committed row is an old one, or the transaction's. -/
theorem SharedInv.commit_row (h : SharedInv calls φ v) {id : String} {r : OutboxRow δ} :
    (v.commit t).outbox.rows.row id = some r
      ↔ (t, ⟨id, r⟩) ∈ v.uncommitted ∨ v.outbox.rows.row id = some r := by
  change (v.outbox.rows.setAll (v.rowsOf t)).row id = some r ↔ _
  rw [Table.setAll_row_eq_some h.rowsOf_apart, mem_rowsOf]
  refine or_congr_right ⟨fun hr => hr.2, fun hr => ⟨fun p hp he => ?_, hr⟩⟩
  have hnone := (h.fresh _ (mem_rowsOf.1 hp)).1
  rw [show p.1 = id from he, hr] at hnone
  cases hnone

theorem SharedInv.grows_commit (h : SharedInv calls φ v) (t : τ) :
    Grows v.outbox (v.commit t).outbox :=
  ⟨fun _ r hrow => ⟨r, h.commit_row.2 (.inr hrow), rfl, rfl⟩, fun _ he => he⟩

theorem SharedInv.commit (h : SharedInv calls φ v)
    (hcommits : ∀ id event, (calls t).Inserts id event → (calls t).Commits id event) :
    SharedInv calls φ (v.commit t) := by
  -- A row of another transaction is not one of those that are committed now.
  have hother : ∀ p ∈ v.uncommitted, p.1 ≠ t → ∀ id r, (t, ⟨id, r⟩) ∈ v.uncommitted →
      id ≠ p.2.id ∧ r.payload.eventId ≠ p.2.row.payload.eventId :=
    fun p hp hpt id r hr => h.apart_of_ne hr hp fun he => hpt (congrArg Prod.fst he).symm
  refine ⟨fun id id' r r' hr hr' he => ?_, fun p hp => ⟨?_, ?_, fun id r hr => ?_⟩,
    h.apart.filter _, fun p hp => h.origin p (List.mem_of_mem_filter hp), fun id r hr => ?_,
    fun id r hr hpub => ?_, fun t' topic event hacc => ?_,
    fun t' => (h.hands t').mono (h.grows_commit t)⟩
  · rcases h.commit_row.1 hr with hr | hr <;> rcases h.commit_row.1 hr' with hr' | hr'
    · by_contra hne
      exact (h.apart_of_ne hr hr' fun hp => hne (congrArg (fun p => p.2.id) hp)).2 he
    · exact absurd he.symm ((h.fresh _ hr).2.2 id' r' hr')
    · exact absurd he ((h.fresh _ hr').2.2 id r hr)
    · exact h.unique id id' r r' hr hr' he
  · obtain ⟨hp, hpt⟩ := List.mem_filter.1 hp
    rcases hrow : (v.commit t).outbox.rows.row p.2.id with _ | r
    · rfl
    · rcases h.commit_row.1 hrow with hr | hr
      · exact absurd rfl (hother p hp (by simpa using hpt) _ r hr).1
      · rw [(h.fresh p hp).1] at hr
        cases hr
  · exact (h.fresh p (List.mem_of_mem_filter hp)).2.1
  · obtain ⟨hp, hpt⟩ := List.mem_filter.1 hp
    rcases h.commit_row.1 hr with hr | hr
    · exact (hother p hp (by simpa using hpt) id r hr).2
    · exact (h.fresh p hp).2.2 id r hr
  · rcases h.commit_row.1 hr with hr | hr
    · exact ⟨t, hcommits id r.payload (h.origin _ hr)⟩
    · exact h.committed id r hr
  · rcases h.commit_row.1 hr with hr | hr
    · exact absurd hpub (h.fresh _ hr).2.1
    · exact h.published id r hr hpub
  · obtain ⟨htopic, id, r, hrow, hpay⟩ := h.sent t' topic event hacc
    exact ⟨htopic, id, r, h.commit_row.2 (.inr hrow), hpay⟩

omit [DecidableEq τ] in
/-- What a statement of a sweep has accepted is the record whose turn it is. -/
theorem SweepMove.accepted_cases {db db' : Outbox τ δ} {call : OutboxCall δ}
    {p p' : SweepPhase δ} (hm : SweepMove t db call p db' p') {t' : τ} {topic : String}
    {event : DomainEvent δ} (hacc : .accepted t' topic event ∈ db'.broker) :
    .accepted t' topic event ∈ db.broker
      ∨ ∃ record ∈ p.held, topic = record.row.payload.eventType
        ∧ event = record.row.payload := by
  cases hm with
  | quit => exact .inl hacc
  | inserted => exact .inl hacc
  | fetched => exact .inl hacc
  | @sent _ _ _ _ record =>
    rcases List.mem_append.1 hacc with hacc | hacc
    · exact .inl hacc
    · simp only [List.mem_singleton, BrokerEvent.accepted.injEq] at hacc
      exact .inr ⟨record, by simp, hacc.2.1, hacc.2.2⟩
  | rejected =>
    rcases List.mem_append.1 hacc with hacc | hacc
    · exact .inl hacc
    · simp at hacc
  | @marked _ _ _ _ record =>
    unfold Outbox.markRow at hacc
    cases hrow : db.rows.row record.id <;> simp only [hrow] at hacc <;> exact .inl hacc
  | unmarked => exact .inl hacc
  | @recorded _ _ _ _ _ record =>
    unfold Outbox.failRow at hacc
    cases hrow : db.rows.row record.id <;> simp only [hrow] at hacc
    · exact .inl hacc
    · split_ifs at hacc <;> exact .inl hacc
  | unrecorded => exact .inl hacc

theorem SharedInv.sweep (h : SharedInv calls φ v) {db' : Outbox τ δ} {call : OutboxCall δ}
    {p : SweepPhase δ} (hm : SweepMove t v.outbox call (φ t) db' p) (hcall : ¬ call.IsInsert) :
    SharedInv calls (Function.update φ t p) { v with outbox := db' } := by
  have hnone : ∀ id, v.outbox.rows.row id = none → db'.rows.row id = none := by
    intro id hid
    rcases hrow : db'.rows.row id with _ | r
    · rfl
    · obtain ⟨r', hr', -⟩ := hm.row_before hcall hrow
      rw [hid] at hr'
      cases hr'
  refine ⟨fun id id' r r' hr hr' he => ?_, fun q hq => ⟨?_, ?_, fun id r hr => ?_⟩, h.apart,
    h.origin, fun id r hr => ?_, fun id r hr hpub => ?_, fun t' topic event hacc => ?_,
    fun t' => ?_⟩
  · obtain ⟨r₁, hr₁, hpay₁, -⟩ := hm.row_before hcall hr
    obtain ⟨r₂, hr₂, hpay₂, -⟩ := hm.row_before hcall hr'
    exact h.unique id id' r₁ r₂ hr₁ hr₂ (by rw [hpay₁, hpay₂, he])
  · exact hnone _ (h.fresh q hq).1
  · exact (h.fresh q hq).2.1
  · obtain ⟨r₁, hr₁, hpay₁, -⟩ := hm.row_before hcall hr
    rw [← hpay₁]
    exact (h.fresh q hq).2.2 id r₁ hr₁
  · obtain ⟨r₁, hr₁, hpay₁, -⟩ := hm.row_before hcall hr
    rw [← hpay₁]
    exact h.committed id r₁ hr₁
  · rcases hm.published_cases hcall hr hpub with ⟨r₁, hr₁, hpay₁, hpub₁⟩ | ⟨n, record, rest, hp, rfl⟩
    · obtain ⟨t', hacc⟩ := h.published id r₁ hr₁ hpub₁
      exact ⟨t', hm.grows.broker _ (hpay₁ ▸ hacc)⟩
    · obtain ⟨r₁, hr₁, hpay₁, -⟩ := hm.row_before hcall hr
      obtain ⟨r₂, hr₂, hpay₂, -⟩ := (h.hands t).known record (by simp [hp])
      have hpay : record.row.payload = r.payload := by
        rw [← hpay₂, ← hpay₁, Option.some.inj (hr₂.symm.trans hr₁)]
      exact ⟨t, hm.grows.broker _ (hpay ▸ (h.hands t).sent n record rest hp)⟩
  · have hrow : ∀ {id r}, v.outbox.rows.row id = some r → r.payload = event →
        ∃ id r, db'.rows.row id = some r ∧ r.payload = event := by
      intro id r hr hpay
      obtain ⟨r', hr', hpay', -⟩ := hm.grows.rows id r hr
      exact ⟨id, r', hr', hpay'.trans hpay⟩
    rcases hm.accepted_cases hacc with hacc | ⟨record, hheld, rfl, rfl⟩
    · obtain ⟨htopic, id, r, hr, hpay⟩ := h.sent t' topic event hacc
      exact ⟨htopic, hrow hr hpay⟩
    · obtain ⟨r, hr, hpay, -⟩ := (h.hands t).known record hheld
      exact ⟨rfl, hrow hr hpay⟩
  · rcases eq_or_ne t' t with rfl | hne
    · rw [Function.update_self]
      exact hm.inHand (h.hands t')
    · rw [Function.update_of_ne hne]
      exact (h.hands t').mono hm.grows

end Statements

/-! ## The calls -/

section Calls

variable {calls : τ → SharedCall δ} {v v' : SharedOutbox τ δ} {t : τ}

/-- The segment keeps what is known, and takes the call from one phase to the other. -/
def KeepsShared (calls : τ → SharedCall δ) (t : τ) (s : SweepPhase δ) (v v' : SharedOutbox τ δ)
    (s' : SweepPhase δ) : Prop :=
  ∀ φ, φ t = s → SharedInv calls φ v →
    SharedInv calls (Function.update φ t s') v' ∧ Grows v.outbox v'.outbox

/-- A statement that is no part of a sweep. -/
theorem keeps_same {s : SweepPhase δ}
    (h : ∀ φ, SharedInv calls φ v → SharedInv calls φ v' ∧ Grows v.outbox v'.outbox) :
    KeepsShared calls t s v v' s := by
  rintro φ rfl hinv
  rw [Function.update_eq_self]
  exact h φ hinv

theorem keeps_rollback {s : SweepPhase δ} : KeepsShared calls t s v (v.rollback t) s :=
  keeps_same fun _ h => ⟨h.rollback t, .refl _⟩

theorem keeps_commit {s : SweepPhase δ}
    (hcommits : ∀ id event, (calls t).Inserts id event → (calls t).Commits id event) :
    KeepsShared calls t s v (v.commit t) s :=
  keeps_same fun _ h => ⟨h.commit hcommits, h.grows_commit t⟩

/-- An insert adds a row of its own, or changes nothing. -/
theorem insertWithinTransaction_keeps {duplicate : OutboxError} {id : String}
    {event : DomainEvent δ} {now : Time} (horigin : (calls t).Inserts id event)
    {r : Except OutboxError Unit}
    (h : insertWithinTransaction duplicate t id event now v = some (r, v')) (φ : τ → SweepPhase δ)
    (hinv : SharedInv calls φ v) : SharedInv calls φ v' ∧ v'.outbox = v.outbox := by
  unfold insertWithinTransaction at h
  split_ifs at h with hwait hevent hid <;> simp only [Option.some.injEq, Prod.mk.injEq] at h <;>
    obtain ⟨-, rfl⟩ := h
  · exact ⟨hinv, rfl⟩
  · exact ⟨hinv, rfl⟩
  · push Not at hevent hid
    refine ⟨hinv.insert horigin (fun k r hr he => ?_) (by simpa using hid.1) fun p hp => ?_, rfl⟩
    · exact hevent.1 k (Table.mem_keys_of_row hr) (by simp [hr, he])
    · exact ⟨hevent.2 p hp, hid.2 p hp⟩

/-- A statement of a transaction answers only if it was answered. -/
theorem keeps_statement {env : InsertEnv} {fate : Fate} {x : Sync (SharedOutbox τ δ) OutboxError Unit}
    (hx : ∀ v r v', x v = some (r, v') → ∀ φ, SharedInv calls φ v →
      SharedInv calls φ v' ∧ v'.outbox = v.outbox)
    {r : Except OutboxError Unit} (h : (outboxTx env t).statement fate x v = some (r, v')) :
    KeepsShared calls t .start v v' .start ∧ (∀ u, r = .ok u → fate = .answered) := by
  unfold TxEnds.statement at h
  rcases fate with _ | _ | _
  · refine ⟨keeps_same fun φ hinv => ?_, fun _ _ => rfl⟩
    rcases hxv : x v with _ | ⟨e | u, v₁⟩ <;> rw [hxv] at h <;>
      simp only [reduceCtorEq, Option.some.injEq, Prod.mk.injEq] at h <;> obtain ⟨-, rfl⟩ := h
    · obtain ⟨hinv₁, ho⟩ := hx _ _ _ hxv φ hinv
      exact ⟨hinv₁.rollback t, by rw [← ho]; exact .refl _⟩
    · obtain ⟨hinv₁, ho⟩ := hx _ _ _ hxv φ hinv
      exact ⟨hinv₁, by rw [ho]; exact .refl _⟩
  · simp only [Option.some.injEq, Prod.mk.injEq] at h
    obtain ⟨rfl, rfl⟩ := h
    exact ⟨keeps_rollback, by simp⟩
  · simp only [Option.some.injEq, Prod.mk.injEq] at h
    obtain ⟨rfl, rfl⟩ := h
    exact ⟨keeps_rollback, by simp⟩

theorem keeps_rollbackTx {env : InsertEnv} {fate : Fate} {r : Except OutboxError Unit}
    (h : (outboxTx env t).rollbackTx fate v = some (r, v')) : KeepsShared calls t .start v v' .start := by
  have hv : v' = v.rollback t := by
    unfold TxEnds.rollbackTx at h
    rcases fate with _ | _ | _ <;> simp only [Option.some.injEq, Prod.mk.injEq] at h <;>
      exact h.2.symm
  rw [hv]
  exact keeps_rollback

/-- A call outside the sweeps stays in its first phase. -/
def StaysOut (calls : τ → SharedCall δ) (t : τ) {α : Type} (K : Except OutboxError α → Prop)
    (p : Async (SharedOutbox τ δ) OutboxError α) : Prop :=
  Follows (KeepsShared calls t) (fun r s => s = .start ∧ K r) p .start

theorem stays_insertEvents (env : InsertEnv) (now : Time) :
    ∀ (events : List (String × DomainEvent δ)) (n : ℕ),
      (∀ p ∈ events, (calls t).Inserts p.1 p.2) →
      StaysOut calls t (fun r => ∀ u, r = .ok u → ∀ k < events.length, env.onInsert (n + k) = .answered)
        (insertEvents env t now n events)
  | [], n, _ => Follows.pure ⟨rfl, by simp⟩
  | (id, event) :: rest, n, horigin => by
    unfold insertEvents
    refine Follows.await_bind (K := fun r s => s = .start ∧ ∀ u, r = .ok u →
      env.onInsert n = .answered) (fun v r v' h => ?_) ?_ ?_
    · have hk := keeps_statement (fun v r v' h φ hinv =>
        insertWithinTransaction_keeps (horigin (id, event) (by simp)) h φ hinv) h
      exact ⟨.start, hk.1, rfl, hk.2⟩
    · rintro u s ⟨rfl, hn⟩
      have hrest := stays_insertEvents env now rest (n + 1)
        fun p hp => horigin p (List.mem_cons_of_mem _ hp)
      refine hrest.mono (fun _ _ _ _ h => h) fun r s hs => ⟨hs.1, fun u hu k hk => ?_⟩
      rcases k with _ | k
      · exact hn _ rfl
      · rw [show n + (k + 1) = n + 1 + k by omega]
        exact hs.2 u hu k (by simpa using hk)
    · exact fun e s hs => ⟨hs.1, by simp⟩

theorem stays_transaction {env : InsertEnv} {events : List (String × DomainEvent δ)} {now : Time}
    (hc : calls t = .transaction env events now) :
    StaysOut calls t (fun _ => True) (insertingTransaction env t events now) := by
  unfold insertingTransaction
  refine Follows.tryCatch (K := fun _ s => s = .start) ?_ (fun _ _ h => ⟨h, trivial⟩) ?_
  · refine Follows.await_bind (K := fun r s => s = .start ∧ ∀ u, r = .ok u →
      env.onBegin = .answered) (fun v r v' h => ?_) ?_ fun _ _ hs => hs.1
    · have hk : KeepsShared calls t .start v v' .start ∧ _ :=
        keeps_statement (fun v r v' h φ hinv => ?_) h
      · exact ⟨.start, hk.1, rfl, hk.2⟩
      · simp only [Sync.pure_apply, Option.some.injEq, Prod.mk.injEq] at h
        rw [← h.2]
        exact ⟨hinv, rfl⟩
    · rintro u s ⟨rfl, hbegin⟩
      refine Follows.bind (stays_insertEvents env now events 0 fun p hp => ?_) ?_ fun _ _ hs => hs.1
      · rw [hc]
        exact hp
      · rintro u' s ⟨rfl, hinserts⟩
        split_ifs with hroll
        · exact Follows.await fun v r v' h => ⟨.start, keeps_rollbackTx h, rfl⟩
        · refine Follows.await fun v r v' h => ⟨.start, ?_, rfl⟩
          have hcommits : env.onCommit ≠ .failed → ∀ id event, (calls t).Inserts id event →
              (calls t).Commits id event := by
            intro hf id event hi
            rw [hc] at hi ⊢
            exact ⟨hi, hbegin u rfl, fun n hn => by simpa using hinserts u' rfl n hn,
              by simpa using hroll, hf⟩
          unfold TxEnds.commitTx at h
          rcases hf : env.onCommit with _ | _ | _ <;> rw [hf] at h <;>
            simp only [Option.some.injEq, Prod.mk.injEq] at h <;> obtain ⟨-, rfl⟩ := h
          · exact keeps_commit (hcommits (by simp [hf]))
          · exact keeps_rollback
          · exact keeps_commit (hcommits (by simp [hf]))
  · rintro err s rfl
    refine Follows.await_bind (K := fun _ s => s = .start) (fun v r v' h => ?_) ?_
      fun _ _ h => ⟨h, trivial⟩
    · exact ⟨.start, keeps_rollbackTx h, rfl⟩
    · exact fun _ _ h => Follows.throw ⟨h, trivial⟩

theorem stays_insert {dbError : OutboxError} {fate : Fate} {id : String} {event : DomainEvent δ}
    {now : Time} (hc : calls t = .insert dbError fate id event now) :
    StaysOut calls t (fun _ => True)
      (Async.await (autocommit dbError fate (insertAlone dbError t id event now))) := by
  have hinserts : (calls t).Inserts id event := by
    rw [hc]
    exact ⟨rfl, rfl⟩
  have halone : fate ≠ .failed → ∀ v r v', insertAlone dbError t id event now v = some (r, v') →
      KeepsShared calls t .start v v' .start := by
    intro hf v r v' h
    have hcommits : ∀ id event, (calls t).Inserts id event → (calls t).Commits id event := by
      intro id' event' hi
      rw [hc] at hi ⊢
      exact ⟨hi.1, hi.2, hf⟩
    refine keeps_same fun φ hinv => ?_
    rcases Sync.bind_eq_some.1 h with ⟨u, v₁, h₁, h₂⟩ | ⟨e, h₁, rfl⟩
    · obtain ⟨hinv₁, ho⟩ := insertWithinTransaction_keeps hinserts h₁ φ hinv
      simp only [Sync.modify_apply, Option.some.injEq, Prod.mk.injEq] at h₂
      rw [← h₂.2, ← ho]
      exact ⟨hinv₁.commit hcommits, hinv₁.grows_commit t⟩
    · obtain ⟨hinv₁, ho⟩ := insertWithinTransaction_keeps hinserts h₁ φ hinv
      rw [ho]
      exact ⟨hinv₁, .refl _⟩
  refine Follows.await fun v r v' h => ⟨.start, ?_, rfl, trivial⟩
  rcases autocommit_eq_some.1 h with ⟨hf, h⟩ | ⟨-, -, rfl⟩ | ⟨hf, -, _, h⟩
  · exact halone (by simp [hf]) v r v' h
  · exact keeps_same fun φ hinv => ⟨hinv, .refl _⟩
  · exact halone (by simp [hf]) v _ v' h

theorem follows_sharedCall (t : τ) :
    Follows (KeepsShared calls t) (fun _ _ => True) ((calls t).program t) .start := by
  rcases hc : calls t with ⟨dbError, fate, id, event, now⟩ | ⟨env, events, now⟩ |
    ⟨env, batchSize, aggregateId⟩
  · exact Follows.bind (stays_insert hc) (fun _ _ _ => Follows.pure trivial) fun _ _ _ => trivial
  · exact Follows.bind (stays_transaction hc) (fun _ _ _ => Follows.pure trivial)
      fun _ _ _ => trivial
  · have hruns : (sweeps (τ := τ) (δ := δ) fun _ => .publishPending env batchSize aggregateId).Runs t
        (fun _ s => s = .ended)
        ((OutboxCall.publishPending env batchSize aggregateId).program t) .start :=
      runs_outboxCall t
    refine (Follows.zoom SharedOutbox.outbox (fun v outbox => { v with outbox := outbox })
      hruns.follows).mono (fun s v v' s' hm => ?_) fun _ _ _ => trivial
    obtain ⟨db', hm, rfl⟩ := hm
    rintro φ rfl hinv
    have hmove := sweepMove_of_move hm
    exact ⟨hinv.sweep hmove id, hmove.grows⟩

end Calls

/-! ## Runs -/

section Runs

variable {calls : τ → SharedCall δ}

omit [DecidableEq τ] in
theorem sharedInv_empty : SharedInv calls (fun _ => .start) .empty := by
  refine ⟨?_, ?_, ?_, ?_, ?_, ?_, ?_, fun t => ⟨?_, ?_⟩⟩ <;>
    simp [SharedOutbox.empty, Outbox.empty]

theorem sharedInv_of_run {h : List (Taken τ (SharedOutbox τ δ))}
    {c : Config τ (SharedOutbox τ δ) OutboxError (Option PublishBatchSummary)}
    (hrun : (sharedCalls calls).Run h c) :
    (∃ φ, SharedInv calls φ c.world)
      ∧ ∀ h₁ c₁, h₁ <+: h → (sharedCalls calls).Run h₁ c₁ →
        Grows c₁.world.outbox c.world.outbox := by
  have hall := Follows.run (T := KeepsShared calls) (F := fun _ _ _ => True) (p := fun _ => .start)
    (I := fun h φ v => SharedInv calls φ v ∧ ∀ h₁ c₁, h₁ <+: h →
      (sharedCalls calls).Run h₁ c₁ → Grows c₁.world.outbox v.outbox)
    (fun t => follows_sharedCall t) ⟨sharedInv_empty, fun h₁ c₁ hp hrun₁ => ?_⟩
    (fun h φ v t v' s' hI hT => ?_) hrun
  · obtain ⟨φ, -, hinv, hgrows⟩ := hall
    exact ⟨⟨φ, hinv⟩, hgrows⟩
  · obtain rfl := List.prefix_nil.1 hp
    rw [hrun₁.eq_of_nil]
    exact .refl _
  · obtain ⟨hinv, hgrows⟩ := hI
    obtain ⟨hinv', hgrows'⟩ := hT φ rfl hinv
    refine ⟨hinv', fun h₁ c₁ hp hrun₁ => ?_⟩
    rcases List.prefix_concat_iff.1 hp with rfl | hp
    · rw [hrun₁.world_of_snoc]
      exact .refl _
    · exact (hgrows h₁ c₁ hp hrun₁).trans hgrows'

/-- Any inserts, alone or within transactions that commit or roll back, and any sweeps, interleaved
statement by statement in any way, each stopping where it likes, before a broker that answers as it
likes. What is PUBLISHED has been accepted as it was inserted. What is accepted is a committed row,
put there by an insert that took effect. An event has one row, which keeps its event for ever, and
which another insert of the event does not touch. -/
theorem at_least_once_no_ghosts {h : List (Taken τ (SharedOutbox τ δ))}
    {c : Config τ (SharedOutbox τ δ) OutboxError (Option PublishBatchSummary)}
    (hrun : (sharedCalls calls).Run h c) :
    (∀ id r, c.world.outbox.rows.row id = some r → r.status = .published →
        ∃ t, .accepted t r.payload.eventType r.payload ∈ c.world.outbox.broker)
      ∧ (∀ t topic event, .accepted t topic event ∈ c.world.outbox.broker →
        topic = event.eventType ∧ ∃ id r, c.world.outbox.rows.row id = some r
          ∧ r.payload = event ∧ ∃ t', (calls t').Commits id event)
      ∧ (∀ id id' r r', c.world.outbox.rows.row id = some r →
        c.world.outbox.rows.row id' = some r' → r.payload.eventId = r'.payload.eventId → id = id')
      ∧ (∀ h₁ c₁, h₁ <+: h → (sharedCalls calls).Run h₁ c₁ → ∀ id r,
        c₁.world.outbox.rows.row id = some r →
        ∃ r', c.world.outbox.rows.row id = some r' ∧ r'.payload = r.payload)
      ∧ ∀ id r, c.world.outbox.rows.row id = some r → ∀ duplicate t id' event now,
        event.eventId = r.payload.eventId → ∀ res v,
        insertWithinTransaction duplicate t id' event now c.world = some (res, v) →
          res = .ok () ∧ v = c.world := by
  obtain ⟨⟨φ, hinv⟩, hgrows⟩ := sharedInv_of_run hrun
  refine ⟨hinv.published, fun t topic event hacc => ?_, hinv.unique,
    fun h₁ c₁ hp hrun₁ id r hrow => ?_, fun id r hrow duplicate t id' event now he res v hv => ?_⟩
  · obtain ⟨htopic, id, r, hrow, rfl⟩ := hinv.sent t topic event hacc
    exact ⟨htopic, id, r, hrow, rfl, hinv.committed id r hrow⟩
  · obtain ⟨r', hrow', hpay, -⟩ := (hgrows h₁ c₁ hp hrun₁).rows id r hrow
    exact ⟨r', hrow', hpay⟩
  · have hthere : ∃ k ∈ c.world.outbox.rows.keys,
        (c.world.outbox.rows.row k).any (fun r => r.payload.eventId = event.eventId) :=
      ⟨id, Table.mem_keys_of_row hrow, by simp [hrow, he]⟩
    unfold insertWithinTransaction at hv
    by_cases hwait : ∃ p ∈ c.world.uncommitted, p.1 ≠ t
        ∧ (p.2.row.payload.eventId = event.eventId ∨ p.2.id = id')
    · rw [if_pos hwait] at hv
      cases hv
    · rw [if_neg hwait, if_pos (.inl hthere)] at hv
      simp only [Option.some.injEq, Prod.mk.injEq] at hv
      exact ⟨hv.1.symm, hv.2.symm⟩

/-- A transaction that commits an event, one that rolls the same event back, and a sweep. -/
def eventAndGhost (t : ℕ) : SharedCall Unit :=
  match t with
  | 0 => .transaction ⟨⟨none⟩, .answered, fun _ => .answered, false, .answered, .answered⟩
      [("row", ⟨"evt", "order.confirmed", "order", ()⟩)] 0
  | 1 => .transaction ⟨⟨none⟩, .answered, fun _ => .answered, true, .answered, .answered⟩
      [("ghost", ⟨"evt-ghost", "order.confirmed", "order", ()⟩)] 0
  | _ => .publishPending
      { picked := ["row"]
        dbError := ⟨none⟩
        onFetch := .answered
        onPublish := fun _ => .answered
        rejection := fun _ => ⟨none⟩
        onMark := fun _ => .answered
        onRecord := fun _ => .answered
        onCount := .answered
        now := fun _ => 7 } 50 none

theorem eventAndGhost_isSome :
    ((sharedCalls eventAndGhost).history [1, 0, 1, 0, 0, 2, 2, 1, 2, 2]).isSome := by decide

/-- The event is published, and the ghost is not in the table. -/
theorem at_least_once_published :
    ∃ h c, (sharedCalls eventAndGhost).Run h c
      ∧ (∃ r, c.world.outbox.rows.row "row" = some r ∧ r.status = .published
        ∧ ∃ t, .accepted t r.payload.eventType r.payload ∈ c.world.outbox.broker)
      ∧ c.world.outbox.rows.row "ghost" = none := by
  have hrun := Config.run_of_history _ (Option.eq_some_of_isSome eventAndGhost_isSome)
  exact ⟨_, _, hrun, ⟨_, rfl, rfl, (at_least_once_no_ghosts hrun).1 "row" _ rfl rfl⟩, rfl⟩

end Runs

end LaunchPad
