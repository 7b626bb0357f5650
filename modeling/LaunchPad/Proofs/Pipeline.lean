import LaunchPad.Pipeline
import LaunchPad.Proofs.AtLeastOnce
import LaunchPad.Proofs.ConsumedOnce

/-!
# At least once delivered, once in effect

The broker's log only grows, so a task that it has made stays the task it is. A run of the pipeline
is then a run of the calls on the outbox, and a run of deliveries through `consume`; the events of
the one are those that the other delivers.
-/

namespace LaunchPad

open Interleave Rows

variable {τ δ ω : Type}

/-! ## The log of the broker -/

/-- The segment only appends to the log. -/
def AppendsLog (β : Type) (act : Outbox τ δ → Option (β × Outbox τ δ)) : Prop :=
  ∀ db b db', act db = some (b, db') → db.broker <+: db'.broker

/-- The same, of a segment that runs among transactions. -/
def AppendsSharedLog (β : Type) (act : SharedOutbox τ δ → Option (β × SharedOutbox τ δ)) : Prop :=
  ∀ v b v', act v = some (b, v') → v.outbox.broker <+: v'.outbox.broker

section Log

variable {α : Type}

theorem appends_autocommit {failure : OutboxError} {fate : Fate}
    {s : Sync (Outbox τ δ) OutboxError α} (h : AppendsLog _ s) :
    AppendsLog _ (autocommit failure fate s) := by
  intro db r db' hr
  rcases autocommit_eq_some.1 hr with ⟨-, hs⟩ | ⟨-, -, rfl⟩ | ⟨-, -, r', hs⟩
  · exact h _ _ _ hs
  · exact List.prefix_refl _
  · exact h _ _ _ hs

theorem appends_publish (rejection : OutboxError) (fate : Fate) (t : τ) (topic : String)
    (event : DomainEvent δ) : AppendsLog _ (publish rejection fate t topic event) := by
  intro db r db' hr
  unfold publish at hr
  rcases fate with _ | _ | _ <;> simp only [Option.some.injEq, Prod.mk.injEq] at hr <;>
    obtain ⟨-, rfl⟩ := hr <;> exact List.prefix_append _ _

theorem appends_fetchPendingBatch (negative : OutboxError) (picked : List String) (limit : ℤ)
    (aggregateId : Option String) :
    AppendsLog _ (fetchPendingBatch negative picked limit aggregateId :
      Sync (Outbox τ δ) OutboxError _) := by
  intro db r db' hr
  unfold fetchPendingBatch at hr
  split_ifs at hr <;> simp only [Option.some.injEq, Prod.mk.injEq] at hr <;> rw [hr.2]

theorem appends_markPublished (id : String) (publishedAt : Time) :
    AppendsLog _ (markPublished id publishedAt : Sync (Outbox τ δ) OutboxError _) := by
  intro db r db' hr
  unfold markPublished at hr
  split at hr <;> simp only [Option.some.injEq, Prod.mk.injEq] at hr <;> rw [← hr.2]

theorem appends_recordFailure (outOfRange : OutboxError) (t : τ) (id error : String) :
    AppendsLog _ (recordFailure outOfRange t id error : Sync (Outbox τ δ) OutboxError _) := by
  intro db r db' hr
  unfold recordFailure at hr
  split at hr
  · simp only [Option.some.injEq, Prod.mk.injEq] at hr
    rw [hr.2]
  · split_ifs at hr <;> simp only [Option.some.injEq, Prod.mk.injEq] at hr <;> rw [← hr.2]

theorem appends_publishRecord (env : SweepEnv) (t : τ) (n : ℕ) (record : OutboxRecord δ) :
    (publishRecord env t n record).Each AppendsLog := by
  refine Async.each_tryCatch ?_ fun e => ?_
  · refine Async.each_bind (Async.each_await (appends_publish _ _ _ _ _)) fun _ => ?_
    exact Async.each_bind (Async.each_await (appends_autocommit (appends_markPublished _ _)))
      fun _ => Async.each_pure _
  · exact Async.each_bind (Async.each_await (appends_autocommit (appends_recordFailure _ _ _ _)))
      fun _ => Async.each_pure _

theorem appends_publishRecords (env : SweepEnv) (t : τ) :
    ∀ (records : List (OutboxRecord δ)) (n published failed : ℕ),
      (publishRecords env t n records published failed).Each AppendsLog
  | [], _, _, _ => Async.each_pure _
  | record :: rest, n, published, failed => by
    refine Async.each_bind (appends_publishRecord env t n record) fun ok => ?_
    split_ifs
    · exact appends_publishRecords env t rest (n + 1) (published + 1) failed
    · exact appends_publishRecords env t rest (n + 1) published (failed + 1)

theorem appends_publishPending (env : SweepEnv) (t : τ) (batchSize : ℤ)
    (aggregateId : Option String) :
    (publishPending env t batchSize aggregateId : Async (Outbox τ δ) OutboxError _).Each
      AppendsLog := by
  refine Async.each_bind (Async.each_await (appends_autocommit
    (appends_fetchPendingBatch _ _ _ _))) fun pending => ?_
  refine Async.each_bind (appends_publishRecords env t pending 0 0 0) fun counts => ?_
  refine Async.each_bind (Async.each_await (appends_autocommit fun db r db' hr => ?_))
    fun _ => Async.each_pure _
  obtain ⟨-, rfl⟩ := Prod.mk.inj (Option.some.inj hr)
  exact List.prefix_refl _

variable [DecidableEq τ]

/-- The statements of a transaction leave the log alone. -/
theorem outbox_insertWithinTransaction {duplicate : OutboxError} {t : τ} {id : String}
    {event : DomainEvent δ} {now : Time} {v v' : SharedOutbox τ δ} {r : Except OutboxError Unit}
    (hr : insertWithinTransaction duplicate t id event now v = some (r, v')) :
    v'.outbox = v.outbox := by
  unfold insertWithinTransaction at hr
  split_ifs at hr <;> simp only [Option.some.injEq, Prod.mk.injEq] at hr <;> rw [← hr.2]

theorem appends_statement {env : InsertEnv} {t : τ} {fate : Fate}
    {s : Sync (SharedOutbox τ δ) OutboxError Unit}
    (hs : ∀ v r v', s v = some (r, v') → v'.outbox = v.outbox) :
    AppendsSharedLog _ ((outboxTx env t).statement fate s) := by
  intro v r v' hr
  have hwp : ((outboxTx env t).statement fate s).wp (fun _ v' => v.outbox.broker = v'.outbox.broker)
      v := by
    refine TxEnds.wp_statement (fun r v₁ hsv => ?_) rfl
    have ho := hs v r v₁ hsv
    rcases r with e | u
    · exact congrArg Outbox.broker ho.symm
    · exact congrArg Outbox.broker ho.symm
  rw [hwp r v' hr]

theorem each_insertEvents (env : InsertEnv) (t : τ) (now : Time) :
    ∀ (events : List (String × DomainEvent δ)) (n : ℕ),
      (insertEvents env t now n events).Each AppendsSharedLog
  | [], _ => Async.each_pure _
  | _ :: rest, n =>
    Async.each_bind (Async.each_await (appends_statement fun _ _ _ =>
      outbox_insertWithinTransaction)) fun _ => each_insertEvents env t now rest (n + 1)

theorem appends_rollbackTx {env : InsertEnv} {t : τ} {fate : Fate} :
    AppendsSharedLog _ ((outboxTx env t).rollbackTx fate : Sync (SharedOutbox τ δ) _ _) := by
  intro v r v' hr
  have hwp : ((outboxTx env t).rollbackTx fate).wp
      (fun _ v' => v.outbox.broker = v'.outbox.broker) v := TxEnds.wp_rollbackTx fun _ => rfl
  rw [hwp r v' hr]

theorem appends_commitTx {env : InsertEnv} {t : τ} {fate : Fate} :
    AppendsSharedLog _ ((outboxTx env t).commitTx fate : Sync (SharedOutbox τ δ) _ _) := by
  intro v r v' hr
  have hwp : ((outboxTx env t).commitTx fate).wp
      (fun _ v' => v.outbox.broker = v'.outbox.broker) v :=
    TxEnds.wp_commitTx.2 ⟨fun _ => rfl, fun _ => rfl, fun _ => rfl⟩
  rw [hwp r v' hr]

theorem each_sharedCall (t : τ) (call : SharedCall δ) :
    (call.program t).Each AppendsSharedLog := by
  rcases call with ⟨dbError, fate, id, event, now⟩ | ⟨env, events, now⟩ |
    ⟨env, batchSize, aggregateId⟩
  · refine Async.each_bind (Async.each_await fun v r v' hr => ?_) fun _ => Async.each_pure _
    have halone : ∀ r v', insertAlone dbError t id event now v = some (r, v') →
        v.outbox.broker <+: v'.outbox.broker := by
      intro r v' h
      rcases Sync.bind_eq_some.1 h with ⟨u, v₁, h₁, h₂⟩ | ⟨e, h₁, -⟩
      · simp only [Sync.modify_apply, Option.some.injEq, Prod.mk.injEq] at h₂
        rw [← h₂.2, ← outbox_insertWithinTransaction h₁]
        exact List.prefix_refl _
      · rw [outbox_insertWithinTransaction h₁]
    rcases autocommit_eq_some.1 hr with ⟨-, h⟩ | ⟨-, -, rfl⟩ | ⟨-, -, r', h⟩
    · exact halone _ _ h
    · exact List.prefix_refl _
    · exact halone _ _ h
  · refine Async.each_bind (Async.each_tryCatch ?_ fun e => ?_) fun _ => Async.each_pure _
    · refine Async.each_bind (Async.each_await (appends_statement fun v r v' hr => ?_)) fun _ => ?_
      · simp only [Sync.pure_apply, Option.some.injEq, Prod.mk.injEq] at hr
        rw [hr.2]
      refine Async.each_bind (each_insertEvents env t now events 0) fun _ => ?_
      split_ifs
      · exact Async.each_await appends_rollbackTx
      · exact Async.each_await appends_commitTx
    · exact Async.each_bind (Async.each_await appends_rollbackTx) fun _ => Async.each_throw e
  · refine Async.each_zoom (A := AppendsLog) (Async.each_bind (appends_publishPending env t batchSize
      aggregateId) fun _ => Async.each_pure _) fun β act hact v b v' hv => ?_
    obtain ⟨⟨b, db'⟩, hb, he⟩ := Option.map_eq_some_iff.1 hv
    obtain ⟨-, rfl⟩ := Prod.mk.inj he
    exact hact _ _ _ hb

end Log

/-! ## Tasks -/

section Dispatch

variable {η : Type} {handlers : String → List η}

theorem mem_dispatches {log : List (BrokerEvent τ δ)} {task : η × DomainEvent δ} :
    task ∈ dispatches handlers log
      ↔ ∃ t topic, .accepted t topic task.2 ∈ log ∧ task.1 ∈ handlers topic := by
  simp only [dispatches, List.mem_flatMap]
  constructor
  · rintro ⟨e, he, htask⟩
    cases e with
    | accepted t topic event =>
      obtain ⟨handler, hh, rfl⟩ := List.mem_map.1 htask
      exact ⟨t, topic, he, hh⟩
    | rejected t topic event => cases htask
  · rintro ⟨t, topic, he, hh⟩
    exact ⟨_, he, List.mem_map.2 ⟨task.1, hh, rfl⟩⟩

theorem dispatches_append (log log' : List (BrokerEvent τ δ)) :
    dispatches handlers (log ++ log') = dispatches handlers log ++ dispatches handlers log' :=
  List.flatMap_append ..

/-- What the broker has made, it has made for good. -/
theorem dispatches_getElem? {log log' : List (BrokerEvent τ δ)} (h : log <+: log') {n : ℕ}
    {task : η × DomainEvent δ} (hn : (dispatches handlers log)[n]? = some task) :
    (dispatches handlers log')[n]? = some task := by
  obtain ⟨rest, rfl⟩ := h
  obtain ⟨hlt, -⟩ := List.getElem?_eq_some_iff.1 hn
  rw [dispatches_append, List.getElem?_append_left hlt, hn]

variable [DecidableEq τ]

theorem keeps_dispatches (calls : τ → SharedCall δ) : Keeps (sharedCalls calls)
    fun (n : ℕ) v => (dispatches handlers v.outbox.broker)[n]? := by
  intro h₁ d₁ i d₂ hrun hs n task hn
  have heach := Config.each_reach (A := fun _ => AppendsSharedLog)
    (fun t => each_sharedCall t (calls t)) hrun.reach
  obtain ⟨β, act, b, hact, hb⟩ := (Config.each_step heach hs).1
  exact dispatches_getElem? (hact _ _ _ hb) hn

omit [DecidableEq τ] in
/-- The in-memory broker does what the sweeps' broker does: where it throws, the message is
rejected, and where it does not, accepted; and it makes the tasks of those accepted. -/
theorem publish_inMemoryMessageBroker {broker broker' : InMemoryMessageBroker η δ} {topic : String}
    {event : DomainEvent δ} {r : Except String Unit}
    (hr : InMemoryMessageBroker.publish topic event broker = some (r, broker')) (t : τ)
    (db : Outbox τ δ) (rejection : OutboxError)
    (htasks : broker.tasks = dispatches broker.handlers db.broker) :
    ∃ fate db', publish rejection fate t topic event db
        = some (r.mapError fun _ => rejection, db')
      ∧ fate ≠ .answerLost ∧ broker'.handlers = broker.handlers
      ∧ broker'.tasks = dispatches broker'.handlers db'.broker := by
  have hrejected : dispatches broker.handlers (db.broker ++ [.rejected t topic event])
      = dispatches broker.handlers db.broker := by simp [dispatches]
  unfold InMemoryMessageBroker.publish at hr
  split_ifs at hr <;> simp only [Option.some.injEq, Prod.mk.injEq] at hr <;> obtain ⟨rfl, rfl⟩ := hr
  · exact ⟨.failed, _, rfl, nofun, rfl, by rw [htasks]; exact hrejected.symm⟩
  · exact ⟨.failed, _, rfl, nofun, rfl, by simp only [htasks]; exact hrejected.symm⟩
  · refine ⟨.answered, _, rfl, nofun, rfl, ?_⟩
    simp only [htasks, dispatches_append]
    simp [dispatches]

end Dispatch

/-! ## Runs -/

section Runs

variable [DecidableEq τ] {handlers : String → List (Consumer δ ω)} {calls : τ → SharedCall δ}
  {envs : ℕ → TaskEnv}

theorem steady_delivery (consumer : Consumer δ ω) (event : DomainEvent δ) (env : TaskEnv) :
    (consumer.delivery event env).Steady := ⟨fun _ => rfl, fun _ => rfl⟩

/-- What has become of a task that has ended. -/
def TaskEnded (handlers : String → List (Consumer δ ω)) (env : TaskEnv)
    (w : SharedOutbox τ δ × ConsumerDb ℕ ω) (task : Consumer δ ω × DomainEvent δ) :
    Except InboxError ConsumeResult → Prop
  | .ok a => a.status = .success ∧ (effectsFor handlers w (taskKey task)).length = 1
    ∨ a.status = .dlqDiverted ∧ ∃ errorMessage, w.2.deadLetters.row env.deadLetterId
      = some ⟨task.2.eventId, task.1.consumerName, errorMessage, a.attempts, .dead⟩
  | .error e => env.onMove ≠ .answered ∨ e = .duplicateKey

/-- What the pipeline has done. -/
structure OnceInEffect (handlers : String → List (Consumer δ ω)) (calls : τ → SharedCall δ)
    (envs : ℕ → TaskEnv) (c : Config (τ ⊕ ℕ) (SharedOutbox τ δ × ConsumerDb ℕ ω) Empty
      (Except OutboxError (Option PublishBatchSummary) ⊕ Except InboxError ConsumeResult)) :
    Prop where
  at_most_once : ∀ k, (effectsFor handlers c.world k).length ≤ 1
  /-- What is in effect is a consumer's whole side effect for an event that a transaction has
  committed. -/
  no_ghosts : ∀ p ∈ c.world.2.inbox.commits, ∃ consumer event,
    (dispatches handlers c.world.1.outbox.broker)[p.1]? = some (consumer, event)
      ∧ p.2 = consumer.sideEffect event ∧ consumer ∈ handlers event.eventType
      ∧ ∃ id r, c.world.1.outbox.rows.row id = some r ∧ r.payload = event
        ∧ ∃ t, (calls t).Commits id event
  dispatched : ∀ id r, c.world.1.outbox.rows.row id = some r → r.status = .published →
    ∀ consumer ∈ handlers r.payload.eventType, ∃ n : ℕ,
      (dispatches handlers c.world.1.outbox.broker)[n]? = some (consumer, r.payload)
  ended : ∀ n r, (c.thread (.inr n)).result = some (.ok (.inr r)) → ∃ task,
    (dispatches handlers c.world.1.outbox.broker)[n]? = some task
      ∧ TaskEnded handlers (envs n) c.world task r

/-- What the tasks that have been given their events have done. -/
structure TasksDone (handlers : String → List (Consumer δ ω)) (envs : ℕ → TaskEnv)
    (c : Config (τ ⊕ ℕ) (SharedOutbox τ δ × ConsumerDb ℕ ω) Empty
      (Except OutboxError (Option PublishBatchSummary) ⊕ Except InboxError ConsumeResult)) :
    Prop where
  at_most_once : ∀ k, (effectsFor handlers c.world k).length ≤ 1
  whole : ∀ p ∈ c.world.2.inbox.commits, ∃ task,
    (dispatches handlers c.world.1.outbox.broker)[p.1]? = some task
      ∧ p.2 = task.1.sideEffect task.2
  ended : ∀ n r, (c.thread (.inr n)).result = some (.ok (.inr r)) → ∃ task,
    (dispatches handlers c.world.1.outbox.broker)[n]? = some task
      ∧ TaskEnded handlers (envs n) c.world task r

variable {c : Config (τ ⊕ ℕ) (SharedOutbox τ δ × ConsumerDb ℕ ω) Empty
  (Except OutboxError (Option PublishBatchSummary) ⊕ Except InboxError ConsumeResult)}
  {given : ℕ → Option (Consumer δ ω × DomainEvent δ)}

/-- A pipeline that has come to `c`, with these tasks begun. -/
def PipelineFed (handlers : String → List (Consumer δ ω)) (calls : τ → SharedCall δ)
    (envs : ℕ → TaskEnv) (c : Config (τ ⊕ ℕ) (SharedOutbox τ δ × ConsumerDb ℕ ω) Empty
      (Except OutboxError (Option PublishBatchSummary) ⊕ Except InboxError ConsumeResult))
    (given : ℕ → Option (Consumer δ ω × DomainEvent δ)) : Prop :=
  Fed (sharedCalls calls) ⟨.empty, .empty⟩
    (fun n v => (dispatches handlers v.outbox.broker)[n]?)
    (fun n task => consume (consumeEnv n (task.1.delivery task.2 (envs n)))) c given

/-- A task that has ended has been given its event. -/
theorem PipelineFed.given_of_result (hfed : PipelineFed handlers calls envs c given) {n : ℕ}
    {r : Except Empty
      (Except OutboxError (Option PublishBatchSummary) ⊕ Except InboxError ConsumeResult)}
    (hr : (c.thread (.inr n)).result = some r) : ∃ task, given n = some task := by
  rcases hn : given n with _ | task
  · rw [hfed.waiting n hn] at hr
    cases hr
  · exact ⟨task, rfl⟩

theorem PipelineFed.tasksDone (hfed : PipelineFed handlers calls envs c given) :
    TasksDone handlers envs c := by
  by_cases hbegun : ∃ n task, given n = some task
  · obtain ⟨-, task₀, -⟩ := hbegun
    set g : ℕ → Consumer δ ω × DomainEvent δ := fun n => (given n).getD task₀ with hg
    have hgiven : ∀ n task, given n = some task → g n = task := fun n task hn => by simp [hg, hn]
    obtain ⟨h₂, d₂, hrun₂, hw₂, hwait, hthread⟩ := hfed.second g hgiven
    set deliveries : ℕ → ResilientDelivery ω := fun n => (g n).1.delivery (g n).2 (envs n)
    have hsteady : ∀ n, (deliveries n).Steady := fun n => steady_delivery _ _ _
    have hrun₂' : (consumeCalls deliveries).Run h₂ d₂ := hrun₂
    obtain ⟨φ, hinv, hended, hcommits⟩ := consumerInv_of_run hsteady hrun₂'
    have honce := hinv.consumedOnce hsteady hended
    rw [hw₂] at honce hcommits
    have hbegan : ∀ p ∈ c.world.2.inbox.commits, ∃ task, given p.1 = some task := by
      intro p hp
      obtain ⟨s, hs, hst⟩ := hcommits p hp
      rcases hn : given p.1 with _ | task
      · exact absurd hst ((hwait p.1 hn).2 s hs)
      · exact ⟨task, rfl⟩
    have heffects : ∀ k, effectsFor handlers c.world k
        = commitsFor (firstAttempts deliveries) k c.world.2.inbox := by
      intro k
      refine List.filter_congr fun p hp => ?_
      obtain ⟨task, htask⟩ := hbegan p hp
      have hkey : (firstAttempts deliveries p.1).key = taskKey task := by
        rw [← hgiven p.1 task htask]
        rfl
      rw [hfed.ready p.1 task htask, hkey]
      simp
    refine ⟨fun k => heffects k ▸ honce.at_most_once k, fun p hp => ?_, fun n r hr => ?_⟩
    · obtain ⟨task, htask⟩ := hbegan p hp
      refine ⟨task, hfed.ready p.1 task htask, ?_⟩
      rw [honce.whole p hp, ← hgiven p.1 task htask]
      rfl
    · obtain ⟨task, htask⟩ := hfed.given_of_result hr
      refine ⟨task, hfed.ready n task htask, ?_⟩
      rw [hthread n task htask] at hr
      have hr' : (d₂.thread n).result = some r := by
        unfold Async.downstream at hr
        rw [Async.result_lift] at hr
        obtain ⟨r', hr', he⟩ := Option.map_eq_some_iff.1 hr
        rw [hr', Sum.inr.inj (Except.ok.inj he)]
      have hdelivery : deliveries n = task.1.delivery task.2 (envs n) := by
        rw [← hgiven n task htask]
      rcases r with e | a
      · have hthrown := honce.thrown n e hr'
        rw [hdelivery] at hthrown
        exact hthrown
      · rcases hs : a.status with _ | _
        · have hone := honce.success n a hr' hs
          rw [hdelivery, ← heffects] at hone
          exact .inl ⟨hs, hone⟩
        · obtain ⟨-, hletter⟩ := honce.diverted n a hr' hs
          rw [hdelivery] at hletter
          exact .inr ⟨hs, hletter⟩
  · push Not at hbegun
    have hnone : ∀ n, given n = none := fun n => Option.eq_none_iff_forall_ne_some.2 (hbegun n)
    have hempty := hfed.untouched hnone
    refine ⟨fun k => ?_, fun p hp => ?_, fun n r hr => ?_⟩
    · simp [effectsFor, hempty, InboxDb.empty]
    · simp [hempty, InboxDb.empty] at hp
    · obtain ⟨task, htask⟩ := hfed.given_of_result hr
      rw [hnone n] at htask
      cases htask

/-- Any transactions that insert events, any sweeps, and the consumers that the broker hands their
events to, each of them failing and stopping where it may, interleaved statement by statement in any
way. A consumer's side effect for an event is in effect at most once, and only for an event that a
transaction has committed. For an event that is PUBLISHED each consumer of its topic has a task, and
a task that has ended has the side effect in effect exactly once, or the event in the dead letter
queue, unless the insert there failed. -/
theorem effectively_once_end_to_end
    {h : List (Taken (τ ⊕ ℕ) (SharedOutbox τ δ × ConsumerDb ℕ ω))}
    (hrun : (pipeline handlers calls envs).Run h c) : OnceInEffect handlers calls envs c := by
  obtain ⟨given, hfed⟩ := Config.run_feed (keeps_dispatches calls) hrun
  have hdone : TasksDone handlers envs c := PipelineFed.tasksDone hfed
  obtain ⟨h₁, d₁, hrun₁, hw₁, -⟩ := hfed.first
  obtain ⟨⟨φ, hshared⟩, -⟩ := sharedInv_of_run hrun₁
  rw [hw₁] at hshared
  refine ⟨hdone.at_most_once, fun p hp => ?_, fun id r hrow hpub consumer hconsumer => ?_,
    hdone.ended⟩
  · obtain ⟨⟨consumer, event⟩, hn, hwork⟩ := hdone.whole p hp
    obtain ⟨t, topic, hacc, hh⟩ := mem_dispatches.1 (List.mem_of_getElem? hn)
    obtain ⟨rfl, id, r, hrow, hpay⟩ := hshared.sent t topic event hacc
    exact ⟨consumer, event, hn, hwork, hh, id, r, hrow, hpay, hpay ▸ hshared.committed id r hrow⟩
  · obtain ⟨t, hacc⟩ := hshared.published id r hrow hpub
    exact List.mem_iff_getElem?.1 (mem_dispatches.2 ⟨t, _, hacc, hconsumer⟩)

/-- A transaction that commits an event, one that rolls another back, and two sweeps, of which the
first cannot mark what it has published. -/
def publishedTwice (t : ℕ) : SharedCall Unit :=
  match t with
  | 0 => .transaction ⟨⟨none⟩, .answered, fun _ => .answered, false, .answered, .answered⟩
      [("row", ⟨"evt", "order.confirmed", "order", ()⟩)] 0
  | 1 => .transaction ⟨⟨none⟩, .answered, fun _ => .answered, true, .answered, .answered⟩
      [("ghost", ⟨"evt-ghost", "order.confirmed", "order", ()⟩)] 0
  | n => .publishPending
      { picked := ["row"]
        dbError := ⟨none⟩
        onFetch := .answered
        onPublish := fun _ => .answered
        rejection := fun _ => ⟨none⟩
        onMark := fun _ => if n = 2 then .failed else .answered
        onRecord := fun _ => .answered
        onCount := .answered
        now := fun _ => 7 } 50 none

def emailConsumer : Consumer Unit String := ⟨"email", 3, fun event => ["mail " ++ event.eventId]⟩

def emailHandlers (topic : String) : List (Consumer Unit String) :=
  if topic = "order.confirmed" then [emailConsumer] else []

def faultlessTask (_ : ℕ) : TaskEnv where
  attempt _ := ⟨0, .answered, .answered, .answered, fun _ => some .answered, .answered, .answered,
    .answered, .answered⟩
  thrown _ := .other "thrown"
  deadLetterId := "d"
  onMove := .answered

/-- The event is published twice, so two tasks have it, and both succeed; one mail is sent. -/
theorem effectively_once_published_twice :
    ∃ h c, (pipeline emailHandlers publishedTwice faultlessTask).Run h c
      ∧ OnceInEffect emailHandlers publishedTwice faultlessTask c
      ∧ (∀ n ∈ [0, 1], (c.thread (.inr n)).result
        = some (.ok (.inr (.ok ⟨.success, 1, none⟩))))
      ∧ c.world.2.inbox.commits = [(0, ["mail evt"])] := by
  have hends : ((pipeline emailHandlers publishedTwice faultlessTask).history
      [.inl 1, .inl 0, .inl 1, .inl 0, .inl 0, .inl 2, .inl 2, .inl 2, .inl 2, .inl 2, .inl 1,
        .inr 0, .inr 0, .inl 3, .inl 3, .inr 1, .inr 0, .inr 0, .inr 0, .inr 0, .inr 0, .inl 3,
        .inl 3, .inr 1, .inr 1, .inr 1]).any fun p =>
          (∀ n ∈ [0, 1], (p.2.thread (.inr n)).result
            = some (.ok (.inr (.ok ⟨.success, 1, none⟩))))
          ∧ p.2.world.2.inbox.commits = [(0, ["mail evt"])] := by
    decide +kernel
  obtain ⟨⟨h, c⟩, hc, hends⟩ := (Option.any_eq_true _ _).1 hends
  have hrun := Config.run_of_history _ hc
  exact ⟨h, c, hrun, effectively_once_end_to_end hrun, of_decide_eq_true hends⟩

end Runs

end LaunchPad
