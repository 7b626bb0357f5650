import LaunchPad.Proofs.Sweeps

/-!
# What becomes of a published row

`markPublished` and `recordFailure` look at no status, so a row that is PUBLISHED keeps its status
and its time just as long as neither is made of it again.
-/

namespace LaunchPad

open Interleave Rows

variable {τ δ : Type}

/-- The rows that are PUBLISHED stay so, with the time at which they were. -/
def KeepsPublished (db db' : Outbox τ δ) : Prop :=
  ∀ id r, db.rows.row id = some r → r.status = .published →
    ∃ r', db'.rows.row id = some r' ∧ r'.status = .published ∧ r'.publishedAt = r.publishedAt

/-- The call is not about to write over a PUBLISHED row. -/
def OutboxCall.Spares (call : OutboxCall δ) (phase : SweepPhase δ) (db : Outbox τ δ) : Prop :=
  match call, phase with
  | .publishPending env _ _, .marking n record _ =>
    env.onMark n ≠ .failed → ∀ r, db.rows.row record.id = some r → r.status = .published →
      r.publishedAt = some (env.now n)
  | .publishPending env _ _, .recording n _ record _ =>
    env.onRecord n ≠ .failed → ∀ r, db.rows.row record.id = some r → r.status = .published →
      2147483647 ≤ r.retryCount
  | _, _ => True

theorem KeepsPublished.refl (db : Outbox τ δ) : KeepsPublished db db :=
  fun _ r hrow hr => ⟨r, hrow, hr, rfl⟩

theorem KeepsPublished.trans {db db₁ db₂ : Outbox τ δ} (h : KeepsPublished db db₁)
    (h' : KeepsPublished db₁ db₂) : KeepsPublished db db₂ := by
  intro id r hrow hr
  obtain ⟨r₁, hrow₁, hr₁, he₁⟩ := h id r hrow hr
  obtain ⟨r₂, hrow₂, hr₂, he₂⟩ := h' id r₁ hrow₁ hr₁
  exact ⟨r₂, hrow₂, hr₂, he₂.trans he₁⟩

/-- Where one row is written, only that row matters. -/
theorem keepsPublished_set {db : Outbox τ δ} {id : String} {r' : OutboxRow δ}
    {failures : List (τ × String)} :
    KeepsPublished db { db with rows := db.rows.set id r', failures := failures }
      ↔ ∀ r, db.rows.row id = some r → r.status = .published →
        r'.status = .published ∧ r'.publishedAt = r.publishedAt := by
  constructor
  · intro h r hrow hr
    obtain ⟨r₁, hrow₁, hr₁, he₁⟩ := h id r hrow hr
    rw [Table.set_row_self] at hrow₁
    obtain rfl := Option.some.inj hrow₁
    exact ⟨hr₁, he₁⟩
  · intro h id₁ r hrow hr
    rcases eq_or_ne id₁ id with rfl | hne
    · exact ⟨r', Table.set_row_self .., h r hrow hr⟩
    · exact ⟨r, by rw [Table.set_row, if_neg hne]; exact hrow, hr, rfl⟩

theorem keepsPublished_markRow {db : Outbox τ δ} {id : String} {publishedAt : Time} :
    KeepsPublished db (db.markRow id publishedAt) ↔ ∀ r, db.rows.row id = some r →
      r.status = .published → r.publishedAt = some publishedAt := by
  unfold Outbox.markRow
  cases hrow : db.rows.row id with
  | none => simpa using KeepsPublished.refl db
  | some row => simp [keepsPublished_set, hrow, eq_comm]

theorem keepsPublished_failRow {db : Outbox τ δ} {t : τ} {id error : String} :
    KeepsPublished db (db.failRow t id error) ↔ ∀ r, db.rows.row id = some r →
      r.status = .published → 2147483647 ≤ r.retryCount := by
  unfold Outbox.failRow
  cases hrow : db.rows.row id with
  | none => simpa using KeepsPublished.refl db
  | some row =>
    simp only
    split_ifs with hint
    · simp only [Outbox.failed, keepsPublished_set, hrow, Option.some.injEq, forall_eq']
      constructor
      · intro h hr
        have hstatus := (h hr).1
        split_ifs at hstatus
      · intro h hr
        have hle := h hr
        omega
    · simp only [Option.some.injEq, forall_eq', iff_true_left (KeepsPublished.refl db)]
      omega

theorem SweepMove.keepsPublished_iff {t : τ} {db db' : Outbox τ δ} {call : OutboxCall δ}
    {p p' : SweepPhase δ} (hm : SweepMove t db call p db' p') :
    KeepsPublished db db' ↔ call.Spares p db := by
  cases hm with
  | quit hp => rcases hp with rfl | rfl <;> cases call <;>
      simp [OutboxCall.Spares, KeepsPublished.refl]
  | inserted hfate hevent hid => simp [OutboxCall.Spares, keepsPublished_set, hid]
  | fetched hb => simp [OutboxCall.Spares, KeepsPublished.refl]
  | sent hp => exact iff_of_true (KeepsPublished.refl db) trivial
  | rejected hfate => exact iff_of_true (KeepsPublished.refl db) trivial
  | marked hp =>
    rw [keepsPublished_markRow]
    rcases hp with ⟨hf, -⟩ | ⟨hf, -⟩ <;> simp [OutboxCall.Spares, hf]
  | unmarked hfate => simp [OutboxCall.Spares, hfate, KeepsPublished.refl]
  | recorded hfate hp => rw [keepsPublished_failRow]; simp [OutboxCall.Spares, hfate]
  | unrecorded hfate => simp [OutboxCall.Spares, hfate, KeepsPublished.refl]

variable [DecidableEq τ] {calls : τ → OutboxCall δ} {db₀ : Outbox τ δ}

/-- Any calls on the outbox, interleaved statement by statement in any way, with any faults. Every
row that is PUBLISHED at some moment of the run is PUBLISHED with the same time at all later ones,
just if no sweep ever marks a row as published that is so with another time, nor records a failure
of it. -/
theorem published_kept_iff {h : List (Taken τ (Outbox τ δ))}
    {c : Config τ (Outbox τ δ) OutboxError (Option PublishBatchSummary)}
    (hrun : (outboxFrom db₀ calls).Run h c) :
    (∀ h₁ h₂ c₁ c₂, h₁ <+: h₂ → h₂ <+: h → (outboxFrom db₀ calls).Run h₁ c₁ →
        (outboxFrom db₀ calls).Run h₂ c₂ → KeepsPublished c₁.world c₂.world)
      ↔ ∀ h₁ s, h₁ ++ [s] <+: h →
        (calls s.thread).Spares ((sweeps calls).phases h₁ s.thread) s.before := by
  have hiff := Machine.Trace.iff_good (M := sweeps calls)
    (P := fun h₂ db₂ => ∀ h₁ db₁, h₁ <+: h₂ → (sweeps calls).Trace db₀ h₁ db₁ →
      KeepsPublished db₁ db₂)
    (G := fun h₁ s => (calls s.thread).Spares ((sweeps calls).phases h₁ s.thread) s.before)
    (fun h₁ db₁ hp ht => ?_) (fun h₁ db t db' p ht hP hm => ?_) (trace_of_outbox_run hrun)
  · rw [← hiff]
    constructor
    · intro hkeeps h₂ db₂ hp₂ ht₂ h₁ db₁ hp₁ ht₁
      obtain ⟨c₂, hrun₂⟩ := hrun.initial hp₂
      obtain ⟨c₁, hrun₁⟩ := hrun.initial (hp₁.trans hp₂)
      rw [ht₁.world_unique (trace_of_outbox_run hrun₁), ht₂.world_unique (trace_of_outbox_run hrun₂)]
      exact hkeeps h₁ h₂ c₁ c₂ hp₁ hp₂ hrun₁ hrun₂
    · intro hkeeps h₁ h₂ c₁ c₂ hp₁ hp₂ hrun₁ hrun₂
      exact hkeeps h₂ _ hp₂ (trace_of_outbox_run hrun₂) h₁ _ hp₁ (trace_of_outbox_run hrun₁)
  · obtain rfl := List.prefix_nil.1 hp
    rw [ht.world_unique .nil]
    exact .refl db₀
  · rw [← (sweepMove_of_move hm).keepsPublished_iff]
    constructor
    · exact fun h => h h₁ db (List.prefix_append _ _) ht
    · intro hk h₂ db₂ hp₂ ht₂
      rcases List.prefix_concat_iff.1 hp₂ with rfl | hp₂
      · rw [ht₂.world_unique (ht.snoc hm)]
        exact .refl db'
      · exact (hP h₂ db₂ hp₂ ht₂).trans hk

/-- An outbox with the events of two orders, one after the other. -/
def twoOrders : Outbox Bool Unit where
  rows := (Table.empty.set "first"
      ⟨⟨"evt-1", "order.confirmed", "order-1", ()⟩, .pending, 0, 0, none, none⟩).set "second"
      ⟨⟨"evt-2", "order.confirmed", "order-2", ()⟩, .pending, 0, 1, none, none⟩
  failures := []
  broker := []

/-- Sweeps of two workers, each with room for one row. What the second publishes ends so. -/
def oneEach (onPublish : Fate) (second : Bool) : OutboxCall Unit :=
  .publishPending
    { picked := [if second then "second" else "first"]
      dbError := ⟨none⟩
      onFetch := .answered
      onPublish := fun _ => if second then onPublish else .answered
      rejection := fun _ => ⟨some "Broker offline"⟩
      onMark := fun _ => .answered
      onRecord := fun _ => .answered
      onCount := .answered
      now := fun _ => 7 } 1 none

/-- The sweep's rows are all PENDING still. -/
def handPending (phase : SweepPhase δ) (db : Outbox τ δ) : Bool :=
  phase.held.all fun record => (db.rows.row record.id).all fun r => r.status = .pending

omit [DecidableEq τ] in
/-- Such a sweep writes over no PUBLISHED row. -/
theorem spares_of_handPending {call : OutboxCall δ} {phase : SweepPhase δ} {db : Outbox τ δ}
    (h : handPending phase db = true) : call.Spares phase db := by
  have hpending : ∀ record ∈ phase.held, ∀ r, db.rows.row record.id = some r →
      r.status ≠ .published := by
    intro record hr r hrow
    have hall := List.all_eq_true.1 h record hr
    rw [hrow, Option.all_some, decide_eq_true_eq] at hall
    simp [hall]
  unfold OutboxCall.Spares
  split
  · exact fun _ r hrow hr => absurd hr (hpending _ (by simp) r hrow)
  · exact fun _ r hrow hr => absurd hr (hpending _ (by simp) r hrow)
  · trivial

/-- The second worker's row is rejected after the first one's was published, which stays so. -/
theorem published_kept_iff_alone :
    ∃ h₁ c₁ h₂ c₂, h₁ <+: h₂ ∧ (outboxFrom twoOrders (oneEach .failed)).Run h₁ c₁
      ∧ (outboxFrom twoOrders (oneEach .failed)).Run h₂ c₂
      ∧ (c₁.world.rows.row "first").map OutboxRow.status = some .published
      ∧ (c₂.world.rows.row "second").map OutboxRow.retryCount = some 1
      ∧ KeepsPublished c₁.world c₂.world := by
  have hany : ((outboxFrom twoOrders (oneEach .failed)).history [false, false, false]).any fun p =>
      (p.2.world.rows.row "first").map OutboxRow.status = some .published
      ∧ ((p.2.history [true, false, true, true, true]).any fun q =>
        (q.2.world.rows.row "second").map OutboxRow.retryCount = some 1
        ∧ (((p.1 ++ q.1).zip (p.1 ++ q.1).inits).all fun s =>
          handPending ((sweeps (oneEach .failed)).phases s.2 s.1.thread) s.1.before)) := by
    decide +kernel
  obtain ⟨⟨h₁, c₁⟩, hp₁, hfacts⟩ := (Option.any_eq_true _ _).1 hany
  obtain ⟨hfirst, hrest⟩ := of_decide_eq_true hfacts
  obtain ⟨⟨h, c₂⟩, hp, hfacts⟩ := (Option.any_eq_true _ _).1 hrest
  obtain ⟨hsecond, hpending⟩ := of_decide_eq_true hfacts
  have hrun₁ := Config.run_of_history _ hp₁
  have hrun := hrun₁.trans (Config.run_of_history _ hp)
  have hspares : ∀ h' s, h' ++ [s] <+: h₁ ++ h → (oneEach .failed s.thread).Spares
      ((sweeps (oneEach .failed)).phases h' s.thread) s.before :=
    forall_step_of_zip fun s hs => spares_of_handPending (List.all_eq_true.1 hpending s hs)
  exact ⟨h₁, c₁, _, c₂, List.prefix_append _ _, hrun₁, hrun, hfirst, hsecond,
    (published_kept_iff hrun).2 hspares _ _ _ _ (List.prefix_append _ _) (List.prefix_refl _) hrun₁
      hrun⟩

/-- An outbox with one event. -/
def oneEvent : Outbox ℕ Unit :=
  ⟨Table.empty.set "row" ⟨⟨"evt", "order.confirmed", "order", ()⟩, .pending, 0, 0, none, none⟩, [],
    []⟩

/-- Sweeps of two workers; the broker rejects what the second publishes. -/
def twoWorkers (t : ℕ) : OutboxCall Unit :=
  .publishPending
    { picked := ["row"]
      dbError := ⟨none⟩
      onFetch := .answered
      onPublish := fun _ => if t = 0 then .answered else .failed
      rejection := fun _ => ⟨some "Broker offline"⟩
      onMark := fun _ => .answered
      onRecord := fun _ => .answered
      onCount := .answered
      now := fun _ => 7 } 50 none

theorem twoWorkers_isSome :
    ((outboxFrom oneEvent twoWorkers).history [0, 1, 0, 0, 1, 1]).isSome := by decide

theorem twoWorkers_marked_isSome :
    ((outboxFrom oneEvent twoWorkers).history [0, 1, 0, 0]).isSome := by decide

/-- Both workers fetch the row, one publishes and marks it, and the other records its own failure:
the row is PENDING again. -/
theorem published_not_kept :
    ¬ ∀ (h₁ h₂ : List (Taken ℕ (Outbox ℕ Unit)))
        (c₁ c₂ : Config ℕ (Outbox ℕ Unit) OutboxError (Option PublishBatchSummary)),
      h₁ <+: h₂ → (outboxFrom oneEvent twoWorkers).Run h₁ c₁ →
        (outboxFrom oneEvent twoWorkers).Run h₂ c₂ → KeepsPublished c₁.world c₂.world := by
  intro hkeeps
  have hrun₁ := Config.run_of_history _ (Option.eq_some_of_isSome twoWorkers_marked_isSome)
  have hrun₂ := Config.run_of_history _ (Option.eq_some_of_isSome twoWorkers_isSome)
  obtain ⟨r, hrow, hr, -⟩ := hkeeps _ _ _ _ ⟨_, rfl⟩ hrun₁ hrun₂ "row" _ rfl rfl
  obtain rfl := Option.some.inj hrow
  exact absurd hr (by decide)

end LaunchPad
