import LaunchPad.DeadLetter
import LaunchPad.Lib.Machine
import LaunchPad.Proofs.Inbox

/-!
# Deliveries of the same event at the same time

A delivery that finds no row of its event inserts one. If another delivery has committed one since,
the INSERT fails with the unique key, and the text of that error is none that `consume` tries again:
the event is put aside although it has been processed. Where nothing fails, this is the only way a
delivery does not succeed (`DedupInv`).
-/

namespace LaunchPad

open Interleave Rows

variable {τ ω : Type}

/-- The text of PostgreSQL's error for the losing INSERT. -/
def duplicateKeyText : String :=
  "duplicate key value violates unique constraint \"inbox_messages_pkey\""

def Delivery.Faultless (d : Delivery ω) : Prop :=
  d.onBegin = .answered ∧ d.onSelect = .answered ∧ d.onInsert = .answered
    ∧ (∀ n, d.onEffect n = some .answered) ∧ d.onComplete = .answered ∧ d.onCommit = .answered
    ∧ d.onRollback = .answered ∧ d.onCatch = .answered

/-- Nothing fails, and the side effect does not throw. -/
def ResilientDelivery.Faultless (d : ResilientDelivery ω) : Prop :=
  (∀ n, (d.attempt n).Faultless) ∧ d.onMove = .answered

/-- Where a delivery stands, at its first attempt. -/
inductive DedupPhase (ω : Type)
  | begin
  | select
  | skip
  | insert
  | effect (s : ω) (rest : List ω)
  | complete
  | commit
  | catching
  | diverting
  | succeeded
  | diverted
deriving DecidableEq

/-- The side effect from its next statement on, and then the UPDATE. -/
def DedupPhase.effectFrom : List ω → DedupPhase ω
  | [] => .complete
  | s :: rest => .effect s rest

/-- The delivery holds the lock of its key. -/
def DedupPhase.Holds : DedupPhase ω → Prop
  | .skip => True
  | .effect _ _ => True
  | .complete => True
  | .commit => True
  | _ => False

section Machine

variable [DecidableEq τ]

/-- The next statement of a delivery where nothing fails. -/
def dedupMove (k : InboxKey) (d : ResilientDelivery ω) (t : τ) (p : DedupPhase ω)
    (v : ConsumerDb τ ω) : Option (ConsumerDb τ ω × DedupPhase ω) :=
  match p with
  | .begin => some (v, .select)
  | .select =>
    match (v.inbox.inbox.view t).row k with
    | none => some (v, .insert)
    | some row =>
      if v.inbox.inbox.Free t k then
        some (v.setInbox { v.inbox with inbox := v.inbox.inbox.lock t k },
          if row.status = .completed then .skip else .effectFrom (d.attempt 1).sideEffect)
      else none
  | .skip => some (v.setInbox (v.inbox.rollback t), .succeeded)
  | .insert =>
    match (v.inbox.inbox.view t).row k with
    | some _ => some (v.setInbox (v.inbox.rollback t), .catching)
    | none =>
      if v.inbox.inbox.Free t k then
        some (v.setInbox { v.inbox with
          inbox := v.inbox.inbox.write t k ⟨.processing, (d.attempt 1).now⟩ },
          .effectFrom (d.attempt 1).sideEffect)
      else none
  | .effect s rest =>
    some (v.setInbox { v.inbox with
      work := Function.update v.inbox.work t (v.inbox.work t ++ [s]) }, .effectFrom rest)
  | .complete =>
    match (v.inbox.inbox.view t).row k with
    | none => some (v, .commit)
    | some _ =>
      if v.inbox.inbox.Free t k then
        some (v.setInbox { v.inbox with
          inbox := v.inbox.inbox.write t k ⟨.completed, (d.attempt 1).now⟩ }, .commit)
      else none
  | .commit => some (v.setInbox (v.inbox.commit t), .succeeded)
  | .catching => some (v.setInbox (v.inbox.rollback t), .diverting)
  | .diverting =>
    if (v.deadLetters.row d.deadLetterId).isSome then some (v, .diverted)
    else some (⟨v.inbox, v.deadLetters.set d.deadLetterId
      ⟨d.eventId, d.consumerName, duplicateKeyText, 1, .dead⟩⟩, .diverted)
  | .succeeded => none
  | .diverted => none

/-- The deliveries of one event as a machine. -/
def dedup (k : InboxKey) (deliveries : τ → ResilientDelivery ω) :
    Machine τ (DedupPhase ω) (ConsumerDb τ ω) where
  start _ := .begin
  move t := dedupMove k (deliveries t) t

/-- What a delivery ends with. -/
def DedupEnds (r : Except InboxError ConsumeResult) (p : DedupPhase ω) : Prop :=
  match p with
  | .succeeded => r = .ok ⟨.success, 1, none⟩
  | .diverted => ∀ a, r = .ok a → a.status = .dlqDiverted
  | _ => False

variable {k : InboxKey} {deliveries : τ → ResilientDelivery ω} {t : τ}

theorem runs_sideEffect (hd : (deliveries t).Faultless) : ∀ (rest : List ω) (n : ℕ),
    (dedup k deliveries).Runs t (fun r p => r = .ok () ∧ p = .complete)
      ((runSideEffect t ((deliveries t).attempt 1) n rest).zoom ConsumerDb.inbox
        ConsumerDb.setInbox) (.effectFrom rest)
  | [], n => by
    obtain ⟨-, -, -, heffect, -⟩ := hd.1 1
    simp only [runSideEffect, heffect, reduceCtorEq, if_false, Async.zoom_pure]
    exact Machine.Runs.pure ⟨rfl, rfl⟩
  | s :: rest, n => by
    obtain ⟨-, -, -, heffect, -⟩ := hd.1 1
    simp only [runSideEffect, heffect, Async.zoom_bind, Async.zoom_await]
    refine Machine.Runs.await_bind_ok (o := fun _ => .effectFrom rest) (fun v e v' => ?_)
      (funext fun v => rfl) fun _ => runs_sideEffect hd rest (n + 1)
    simp [Sync.zoom, TxEnds.statement, workStatement]

/-- What the transaction of a delivery leaves: it has succeeded, or its INSERT has failed. -/
def DedupTx (r : Except InboxError ConsumerExecutionResult) (p : DedupPhase ω) : Prop :=
  match r with
  | .ok _ => p = .succeeded
  | .error e => e = .duplicateKey ∧ p = .catching

theorem runs_claimed (hd : (deliveries t).Faultless) (hk : ((deliveries t).attempt 1).key = k)
    {f : ConsumerExecutionResult} :
    (dedup k deliveries).Runs t DedupTx (do
      (runSideEffect t ((deliveries t).attempt 1) 0 ((deliveries t).attempt 1).sideEffect).zoom
        ConsumerDb.inbox ConsumerDb.setInbox
      Async.await (((inboxTx t).statement ((deliveries t).attempt 1).onComplete
        (completeInbox t ((deliveries t).attempt 1).key ((deliveries t).attempt 1).now)).zoom
        ConsumerDb.inbox ConsumerDb.setInbox)
      Async.await (((inboxTx t).commitTx ((deliveries t).attempt 1).onCommit).zoom
        ConsumerDb.inbox ConsumerDb.setInbox)
      pure f) (.effectFrom ((deliveries t).attempt 1).sideEffect) := by
  obtain ⟨-, -, -, -, hcomplete, hcommit, -, -⟩ := hd.1 1
  refine Machine.Runs.bind (runs_sideEffect hd _ 0) ?_ (by simp)
  rintro u p ⟨-, rfl⟩
  refine Machine.Runs.await_bind_ok (o := fun _ => .commit) (fun v e v' => ?_)
    (funext fun v => ?_) fun _ => ?_
  · rw [hcomplete, hk]
    simp only [Sync.zoom, TxEnds.statement, completeInbox]
    cases (v.inbox.inbox.view t).row k <;> simp only
    · simp
    · split_ifs <;> simp
  · rw [hcomplete, hk]
    simp only [dedup, dedupMove, Machine.segment, Sync.zoom, TxEnds.statement, completeInbox]
    cases (v.inbox.inbox.view t).row k <;> simp only
    · rfl
    · split_ifs <;> rfl
  · refine Machine.Runs.await_bind_ok (o := fun _ => .succeeded) (fun v e v' => ?_)
      (funext fun v => ?_) fun _ => Machine.Runs.pure rfl
    · rw [hcommit]
      simp [Sync.zoom, TxEnds.commitTx]
    · rw [hcommit]
      rfl

/-- The INSERT takes the key, or fails with it. -/
theorem runs_insert (hinsert : ((deliveries t).attempt 1).onInsert = .answered)
    (hk : ((deliveries t).attempt 1).key = k) :
    (dedup k deliveries).Runs t (fun r p => match r with
        | .ok _ => p = .effectFrom ((deliveries t).attempt 1).sideEffect
        | .error e => e = .duplicateKey ∧ p = .catching)
      (Async.await (((inboxTx t).statement ((deliveries t).attempt 1).onInsert
        (insertInbox t ((deliveries t).attempt 1).key ((deliveries t).attempt 1).now)).zoom
        ConsumerDb.inbox ConsumerDb.setInbox)) .insert := by
  rw [hinsert, hk]
  refine ⟨fun v h => ?_, fun v r v' h => ?_⟩ <;>
    simp only [dedup, dedupMove, Sync.zoom, TxEnds.statement, insertInbox] at h ⊢ <;>
    cases hrow : (v.inbox.inbox.view t).row k <;> simp only [hrow] at h ⊢
  · split_ifs at h ⊢ <;> simp_all
  · simp at h
  · split_ifs at h ⊢
    · simp only [Option.map_some, Option.some.injEq, Prod.mk.injEq] at h
      obtain ⟨rfl, rfl⟩ := h
      exact ⟨_, rfl, rfl⟩
    · simp at h
  · simp only [Option.map_some, Option.some.injEq, Prod.mk.injEq] at h
    obtain ⟨rfl, rfl⟩ := h
    exact ⟨_, rfl, rfl, rfl⟩

theorem runs_processTransactional (hd : (deliveries t).Faultless)
    (hk : ((deliveries t).attempt 1).key = k) :
    (dedup k deliveries).Runs t (fun r p => match r with
        | .ok _ => p = .succeeded
        | .error e => e = .duplicateKey ∧ p = .diverting)
      ((processTransactional t ((deliveries t).attempt 1)).zoom ConsumerDb.inbox
        ConsumerDb.setInbox) .begin := by
  obtain ⟨hbegin, hselect, hinsert, -, -, -, hrollback, hcatch⟩ := hd.1 1
  simp only [processTransactional, Async.zoom_tryCatch, Async.zoom_bind, Async.zoom_await]
  refine Machine.Runs.tryCatch (K := DedupTx) ?_ (fun _ _ h => h) ?_
  · refine Machine.Runs.await_bind_ok (o := fun _ => .select) (fun v e v' => ?_)
      (funext fun v => ?_) fun _ => ?_
    · rw [hbegin]
      simp [Sync.zoom, TxEnds.beginTx, TxEnds.statement]
    · rw [hbegin]
      rfl
    refine Machine.Runs.await_bind_ok (o := fun existing =>
      if existing = some .completed then .skip
      else if existing = none then .insert
      else .effectFrom ((deliveries t).attempt 1).sideEffect) (fun v e v' => ?_)
      (funext fun v => ?_) fun existing => ?_
    · rw [hselect, hk]
      simp only [Sync.zoom, TxEnds.statement, selectInboxForUpdate]
      cases (v.inbox.inbox.view t).row k <;> simp only
      · simp
      · split_ifs <;> simp
    · rw [hselect, hk]
      simp only [dedup, dedupMove, Machine.segment, Sync.zoom, TxEnds.statement,
        selectInboxForUpdate]
      cases (v.inbox.inbox.view t).row k <;> simp only
      · rfl
      · split_ifs <;> simp_all [ConsumerDb.setInbox]
    · by_cases hcompleted : existing = some .completed
      · simp only [hcompleted, if_true, Async.zoom_bind, Async.zoom_await, Async.zoom_pure]
        refine Machine.Runs.await_bind_ok (o := fun _ => .succeeded) (fun v e v' => ?_)
          (funext fun v => ?_) fun _ => Machine.Runs.pure rfl
        · rw [hrollback]
          simp [Sync.zoom, TxEnds.rollbackTx]
        · rw [hrollback]
          rfl
      · by_cases hnone : existing = none
        · simp only [hnone, reduceCtorEq, if_false, if_true, Async.zoom_bind, Async.zoom_await,
            Async.zoom_pure]
          exact Machine.Runs.bind (runs_insert hinsert hk) (fun _ p hp => hp ▸ runs_claimed hd hk)
            fun _ _ h => h
        · simp only [hcompleted, hnone, if_false, Async.zoom_bind, Async.zoom_await,
            Async.zoom_pure]
          exact runs_claimed hd hk
  · rintro e p ⟨rfl, rfl⟩
    refine Machine.Runs.await_bind_ok (o := fun _ => .diverting) (fun v e v' => ?_)
      (funext fun v => ?_) fun _ => Machine.Runs.throw ⟨rfl, rfl⟩
    · rw [hcatch]
      simp [Sync.zoom, TxEnds.rollbackTx]
    · rw [hcatch]
      rfl

/-- Its text is none of a transient error. -/
theorem not_transient_duplicateKeyText : isTransientError (.error duplicateKeyText) = false := by
  decide +kernel

/-- Every delivery makes the statements of the machine: there is no second attempt. -/
theorem runs_consume (hd : (deliveries t).Faultless) (hk : ((deliveries t).attempt 1).key = k)
    (hmax : 2 ≤ (deliveries t).maxAttempts)
    (hdup : (deliveries t).thrown .duplicateKey = .error duplicateKeyText) :
    (dedup k deliveries).Runs t DedupEnds (consume (consumeEnv t (deliveries t))) .begin := by
  obtain ⟨left, hleft⟩ : ∃ left, (deliveries t).maxAttempts.toNat = left + 1 :=
    ⟨(deliveries t).maxAttempts.toNat - 1, by omega⟩
  unfold consume
  rw [show (consumeEnv t (deliveries t)).maxAttempts = (deliveries t).maxAttempts from rfl, hleft,
    consumeFrom]
  refine Machine.Runs.tryCatch (K := fun r p => match r with
    | .ok a => a = ⟨.success, 1, none⟩ ∧ p = .succeeded
    | .error e => e = .duplicateKey ∧ p = .diverting) ?_ ?_ ?_
  · refine Machine.Runs.bind (K := fun r p => match r with
      | .ok _ => p = .succeeded
      | .error e => e = .duplicateKey ∧ p = .diverting) ?_ (fun _ _ h => ?_) fun _ _ h => h
    · exact Machine.Runs.bind (runs_processTransactional hd hk) (fun _ _ h => Machine.Runs.pure h)
        fun _ _ h => h
    · exact Machine.Runs.pure ⟨rfl, h⟩
  · rintro a p ⟨rfl, rfl⟩
    rfl
  · rintro e p ⟨rfl, rfl⟩
    rw [show (consumeEnv t (deliveries t)).thrown .duplicateKey = .error duplicateKeyText from hdup]
    simp only [not_transient_duplicateKeyText, Bool.false_eq_true, false_and, if_false, divert,
      consumeEnv, moveToDeadLetter]
    refine Machine.Runs.await_bind (o := fun _ => .diverted) (e := fun _ => .diverted)
      (funext fun v => ?_) (fun _ => Machine.Runs.pure ?_) fun _ => ?_
    · rw [hd.2]
      simp only [dedup, dedupMove, Machine.segment, autocommit, insertDeadLetter]
      split_ifs <;> rfl
    · rintro a ⟨⟩
      rfl
    · rintro a ⟨⟩

/-! ## The lock of the key -/

/-- The status of the version of its row that a delivery has written. -/
def DedupPhase.version : DedupPhase ω → Option InboxStatus
  | .effect _ _ => some .processing
  | .complete => some .processing
  | .commit => some .completed
  | _ => none

/-- The lock of the key tells who has written a version, and what is committed is COMPLETED. -/
structure DedupInv (k : InboxKey) (φ : τ → DedupPhase ω) (v : ConsumerDb τ ω) : Prop where
  locked : v.inbox.inbox.Locked
  holder : ∀ t, v.inbox.inbox.lockedBy k = some t ↔ (φ t).Holds
  version : ∀ t, ((v.inbox.inbox.pending t).row k).map InboxRow.status = (φ t).version
  completed : ∀ row, v.inbox.inbox.committed.row k = some row → row.status = .completed
  letters : (∃ id, (v.deadLetters.row id).isSome) ↔ ∃ t, φ t = .diverted

@[simp] theorem effectFrom_holds (rest : List ω) : (DedupPhase.effectFrom rest).Holds := by
  cases rest <;> trivial

@[simp] theorem version_effectFrom (rest : List ω) :
    (DedupPhase.effectFrom rest).version = some .processing := by
  cases rest <;> rfl

theorem effectFrom_ne_diverted (rest : List ω) : DedupPhase.effectFrom rest ≠ .diverted := by
  cases rest <;> simp [DedupPhase.effectFrom]

namespace DedupInv

variable {φ : τ → DedupPhase ω} {v : ConsumerDb τ ω}

/-- It is kept where `t` has done what its phase says, and to its own part of the table. -/
theorem update {p : DedupPhase ω} {inbox : InboxDb τ ω} (hinv : DedupInv k φ v)
    (hframe : TxTable.Frame t v.inbox.inbox inbox.inbox) (hlocked : inbox.inbox.Locked)
    (hholder : inbox.inbox.lockedBy k = some t ↔ p.Holds)
    (hversion : ((inbox.inbox.pending t).row k).map InboxRow.status = p.version)
    (hcompleted : ∀ row, inbox.inbox.committed.row k = some row → row.status = .completed)
    (hbefore : φ t ≠ .diverted) (hafter : p ≠ .diverted) :
    DedupInv k (Function.update φ t p) (v.setInbox inbox) where
  locked := hlocked
  holder t' := by
    rcases eq_or_ne t' t with rfl | ht
    · rw [Function.update_self]
      exact hholder
    · rw [Function.update_of_ne ht, ← hinv.holder t']
      exact hframe.lockedBy k t' ht
  version t' := by
    rcases eq_or_ne t' t with rfl | ht
    · rw [Function.update_self]
      exact hversion
    · rw [Function.update_of_ne ht, ← hinv.version t', ← hframe.pending t' ht]
      rfl
  completed := hcompleted
  letters := by
    refine hinv.letters.trans ⟨?_, ?_⟩
    · rintro ⟨t', ht'⟩
      have hne : t' ≠ t := fun h => hbefore (h ▸ ht')
      exact ⟨t', by rwa [Function.update_of_ne hne]⟩
    · rintro ⟨t', ht'⟩
      rcases eq_or_ne t' t with rfl | hne
      · rw [Function.update_self] at ht'
        exact absurd ht' hafter
      · exact ⟨t', by rwa [Function.update_of_ne hne] at ht'⟩

omit [DecidableEq τ] in
/-- Whoever has written no version sees what is committed. -/
theorem view_eq (hinv : DedupInv k φ v) (ht : (φ t).version = none) :
    (v.inbox.inbox.view t).row k = v.inbox.inbox.committed.row k := by
  have hpending : (v.inbox.inbox.pending t).row k = none := by
    simpa [ht] using hinv.version t
  rw [TxTable.view, Table.overlay_row_of_none hpending]

omit [DecidableEq τ] in
/-- Whoever has written a version sees it, and the lock is its own. -/
theorem view_status (hinv : DedupInv k φ v) {st : InboxStatus} (ht : (φ t).version = some st) :
    ((v.inbox.inbox.view t).row k).map InboxRow.status = some st := by
  have hv := hinv.version t
  rw [ht, Option.map_eq_some_iff] at hv
  obtain ⟨row, hrow, rfl⟩ := hv
  simp [TxTable.view, hrow]

omit [DecidableEq τ] in
theorem free_of_holds (hinv : DedupInv k φ v) (ht : (φ t).Holds) : v.inbox.inbox.Free t k := by
  intro t' ht'
  have hl := (hinv.holder t).2 ht
  rw [ht'] at hl
  exact Option.some.inj hl

/-- A rollback, into a phase without the lock. -/
theorem rollback {p : DedupPhase ω} (hinv : DedupInv k φ v) (hp : ¬ p.Holds)
    (hversion : p.version = none) (hbefore : φ t ≠ .diverted) (hafter : p ≠ .diverted) :
    DedupInv k (Function.update φ t p) (v.setInbox (v.inbox.rollback t)) := by
  refine hinv.update (TxTable.frame_rollback _ t) (TxTable.locked_rollback hinv.locked t)
    (iff_of_false ?_ hp) ?_ hinv.completed hbefore hafter
  · simp only [InboxDb.rollback, TxTable.rollback]
    split_ifs with h <;> simp [h]
  · simp [InboxDb.rollback, hversion]

/-- The event is put aside. -/
theorem divert (hinv : DedupInv k φ v) (ht : φ t = .diverting)
    {letters : Table String DeadLetterRow} (hletters : ∃ id, (letters.row id).isSome) :
    DedupInv k (Function.update φ t .diverted) ⟨v.inbox, letters⟩ where
  locked := hinv.locked
  holder t' := by
    rcases eq_or_ne t' t with rfl | hne
    · rw [Function.update_self, hinv.holder, ht]
      exact Iff.rfl
    · rw [Function.update_of_ne hne, hinv.holder]
  version t' := by
    rcases eq_or_ne t' t with rfl | hne
    · rw [Function.update_self, hinv.version, ht]
      rfl
    · rw [Function.update_of_ne hne, hinv.version]
  completed := hinv.completed
  letters := iff_of_true hletters ⟨t, Function.update_self ..⟩

/-- A version of the row. -/
theorem write {p : DedupPhase ω} {row : InboxRow} (hinv : DedupInv k φ v)
    (hfree : v.inbox.inbox.Free t k) (hp : p.Holds) (hversion : p.version = some row.status)
    (hbefore : φ t ≠ .diverted) (hafter : p ≠ .diverted) :
    DedupInv k (Function.update φ t p)
      (v.setInbox { v.inbox with inbox := v.inbox.inbox.write t k row }) := by
  refine hinv.update (TxTable.frame_write hfree row) (TxTable.locked_write hinv.locked hfree row)
    (iff_of_true ?_ hp) ?_ hinv.completed hbefore hafter
  · rw [TxTable.write_lockedBy, TxTable.lock_lockedBy]
  · simp [hversion]

theorem move (hinv : DedupInv k φ v) {d : ResilientDelivery ω} {v' : ConsumerDb τ ω}
    {p : DedupPhase ω} (hm : dedupMove k d t (φ t) v = some (v', p)) :
    DedupInv k (Function.update φ t p) v' := by
  have hsame : ∀ p, (p.Holds ↔ (φ t).Holds) → p.version = (φ t).version → φ t ≠ .diverted →
      p ≠ .diverted → ∀ work, DedupInv k (Function.update φ t p)
        (v.setInbox { v.inbox with work := work }) := by
    intro p hholds hversion hbefore hafter work
    exact hinv.update (TxTable.Frame.refl t _) hinv.locked ((hinv.holder t).trans hholds.symm)
      ((hinv.version t).trans hversion.symm) hinv.completed hbefore hafter
  rcases hφ : φ t with _ | _ | _ | _ | ⟨s, rest⟩ | _ | _ | _ | _ | _ | _ <;>
    simp only [hφ, dedupMove] at hm
  case begin =>
    simp only [Option.some.injEq, Prod.mk.injEq] at hm
    obtain ⟨rfl, rfl⟩ := hm
    exact hsame .select (by simp [hφ, DedupPhase.Holds]) (by simp [hφ, DedupPhase.version])
      (by simp [hφ]) (by simp) v.inbox.work
  case select =>
    rw [hinv.view_eq (by simp [hφ, DedupPhase.version])] at hm
    rcases hrow : v.inbox.inbox.committed.row k with _ | row <;> rw [hrow] at hm
    · simp only [Option.some.injEq, Prod.mk.injEq] at hm
      obtain ⟨rfl, rfl⟩ := hm
      exact hsame .insert (by simp [hφ, DedupPhase.Holds]) (by simp [hφ, DedupPhase.version])
        (by simp [hφ]) (by simp) v.inbox.work
    · -- what is committed is COMPLETED: the delivery takes the lock, and skips
      simp only [hinv.completed row hrow, if_true] at hm
      split_ifs at hm with hfree
      simp only [Option.some.injEq, Prod.mk.injEq] at hm
      obtain ⟨rfl, rfl⟩ := hm
      refine hinv.update (TxTable.frame_lock hfree) (TxTable.locked_lock hinv.locked hfree)
        (iff_of_true ?_ trivial) ?_ hinv.completed (by simp [hφ]) (by simp)
      · rw [TxTable.lock_lockedBy]
      · rw [TxTable.lock_pending, hinv.version t, hφ]
        rfl
  case skip =>
    simp only [Option.some.injEq, Prod.mk.injEq] at hm
    obtain ⟨rfl, rfl⟩ := hm
    exact hinv.rollback (by simp [DedupPhase.Holds]) rfl (by simp [hφ]) (by simp)
  case insert =>
    rcases hrow : (v.inbox.inbox.view t).row k with _ | row <;> rw [hrow] at hm <;>
      simp only at hm
    · split_ifs at hm with hfree
      simp only [Option.some.injEq, Prod.mk.injEq] at hm
      obtain ⟨rfl, rfl⟩ := hm
      exact hinv.write hfree (effectFrom_holds _) (version_effectFrom _) (by simp [hφ])
        (effectFrom_ne_diverted _)
    · simp only [Option.some.injEq, Prod.mk.injEq] at hm
      obtain ⟨rfl, rfl⟩ := hm
      exact hinv.rollback (by simp [DedupPhase.Holds]) rfl (by simp [hφ]) (by simp)
  case effect =>
    simp only [Option.some.injEq, Prod.mk.injEq] at hm
    obtain ⟨rfl, rfl⟩ := hm
    exact hsame _ (iff_of_true (effectFrom_holds _) (by rw [hφ]; trivial))
      (by rw [version_effectFrom, hφ]; rfl) (by simp [hφ]) (effectFrom_ne_diverted _) _
  case complete =>
    obtain ⟨row, hrow, -⟩ := Option.map_eq_some_iff.1
      (hinv.view_status (t := t) (by rw [hφ]; rfl))
    rw [hrow] at hm
    simp only [hinv.free_of_holds (t := t) (by rw [hφ]; trivial), if_true, Option.some.injEq,
      Prod.mk.injEq] at hm
    obtain ⟨rfl, rfl⟩ := hm
    exact hinv.write (hinv.free_of_holds (by rw [hφ]; trivial)) trivial rfl (by simp [hφ])
      (by simp)
  case commit =>
    simp only [Option.some.injEq, Prod.mk.injEq] at hm
    obtain ⟨rfl, rfl⟩ := hm
    refine hinv.update (TxTable.frame_commit hinv.locked t) (TxTable.locked_commit hinv.locked t)
      (iff_of_false ?_ (by simp [DedupPhase.Holds])) (by simp [InboxDb.commit, DedupPhase.version])
      (fun row hrow => ?_) (by simp [hφ]) (by simp)
    · simp only [InboxDb.commit, TxTable.commit, TxTable.rollback]
      split_ifs with h <;> simp [h]
    · have hview := hinv.view_status (t := t) (by rw [hφ]; rfl)
      rw [InboxDb.commit, TxTable.commit_committed] at hrow
      rw [hrow] at hview
      exact Option.some.inj hview
  case catching =>
    simp only [Option.some.injEq, Prod.mk.injEq] at hm
    obtain ⟨rfl, rfl⟩ := hm
    exact hinv.rollback (by simp [DedupPhase.Holds]) rfl (by simp [hφ]) (by simp)
  case diverting =>
    split_ifs at hm with hletter
    · simp only [Option.some.injEq, Prod.mk.injEq] at hm
      obtain ⟨rfl, rfl⟩ := hm
      exact hinv.divert hφ ⟨_, hletter⟩
    · simp only [Option.some.injEq, Prod.mk.injEq] at hm
      obtain ⟨rfl, rfl⟩ := hm
      exact hinv.divert hφ ⟨d.deadLetterId, by simp⟩
  case succeeded => simp at hm
  case diverted => simp at hm

end DedupInv

/-! ## Overtaken deliveries -/

/-- No row of the event is committed. -/
def Absent (k : InboxKey) (v : ConsumerDb τ ω) : Prop := v.inbox.inbox.committed.row k = none

instance (k : InboxKey) (v : ConsumerDb τ ω) : Decidable (Absent k v) :=
  inferInstanceAs (Decidable (v.inbox.inbox.committed.row k = none))

/-- Between its second statement, the SELECT, and its third, the INSERT, another delivery has
committed the row. -/
def Overtaken (k : InboxKey) (steps : List (Taken τ (ConsumerDb τ ω))) : Prop :=
  ∃ s₁ s₂ s₃ rest, steps = s₁ :: s₂ :: s₃ :: rest ∧ Absent k s₂.before ∧ ¬ Absent k s₃.before

/-- The SELECT has found the row, or the INSERT has found none. -/
def Ahead (k : InboxKey) (steps : List (Taken τ (ConsumerDb τ ω))) : Prop :=
  ∃ s₁ s₂ rest, steps = s₁ :: s₂ :: rest
    ∧ (¬ Absent k s₂.before ∨ ∃ s₃ rest', rest = s₃ :: rest' ∧ Absent k s₃.before)

omit [DecidableEq τ] in
theorem Overtaken.snoc {steps : List (Taken τ (ConsumerDb τ ω))} (h : Overtaken k steps)
    (s : Taken τ (ConsumerDb τ ω)) : Overtaken k (steps ++ [s]) := by
  obtain ⟨s₁, s₂, s₃, rest, rfl, h₂, h₃⟩ := h
  exact ⟨s₁, s₂, s₃, rest ++ [s], by simp, h₂, h₃⟩

omit [DecidableEq τ] in
theorem Ahead.snoc {steps : List (Taken τ (ConsumerDb τ ω))} (h : Ahead k steps)
    (s : Taken τ (ConsumerDb τ ω)) : Ahead k (steps ++ [s]) := by
  obtain ⟨s₁, s₂, rest, rfl, h₂⟩ := h
  refine ⟨s₁, s₂, rest ++ [s], by simp, h₂.imp_right ?_⟩
  rintro ⟨s₃, rest', rfl, h₃⟩
  exact ⟨s₃, rest' ++ [s], by simp, h₃⟩

omit [DecidableEq τ] in
theorem Ahead.not_overtaken {steps : List (Taken τ (ConsumerDb τ ω))} (h : Ahead k steps) :
    ¬ Overtaken k steps := by
  rintro ⟨s₁, s₂, s₃, rest, rfl, h₂, h₃⟩
  obtain ⟨_, _, _, he, h | ⟨_, _, rfl, h⟩⟩ := h <;>
    simp only [List.cons.injEq] at he <;> obtain ⟨rfl, rfl, he⟩ := he
  · exact h h₂
  · obtain ⟨rfl, rfl⟩ := he
    exact h₃ h

/-- What its own steps tell of the phase of a delivery. -/
def DedupPhase.Trail (k : InboxKey) (steps : List (Taken τ (ConsumerDb τ ω))) :
    DedupPhase ω → Prop
  | .begin => steps = []
  | .select => ∃ s₁, steps = [s₁]
  | .insert => ∃ s₁ s₂, steps = [s₁, s₂] ∧ Absent k s₂.before
  | .catching => Overtaken k steps
  | .diverting => Overtaken k steps
  | .diverted => Overtaken k steps
  | _ => Ahead k steps

omit [DecidableEq τ] in
theorem trail_effectFrom {steps : List (Taken τ (ConsumerDb τ ω))} {rest : List ω} :
    (DedupPhase.effectFrom rest).Trail k steps ↔ Ahead k steps := by
  cases rest <;> rfl

theorem DedupInv.trail_move {φ : τ → DedupPhase ω} {v v' : ConsumerDb τ ω}
    {steps : List (Taken τ (ConsumerDb τ ω))} {d : ResilientDelivery ω} {p : DedupPhase ω}
    (hinv : DedupInv k φ v) (htrail : (φ t).Trail k steps)
    (hm : dedupMove k d t (φ t) v = some (v', p)) : p.Trail k (steps ++ [⟨t, v, v'⟩]) := by
  rcases hφ : φ t with _ | _ | _ | _ | ⟨s, rest⟩ | _ | _ | _ | _ | _ | _ <;>
    rw [hφ] at htrail <;> simp only [hφ, dedupMove] at hm
  case begin =>
    simp only [Option.some.injEq, Prod.mk.injEq] at hm
    obtain ⟨rfl, rfl⟩ := hm
    obtain rfl : steps = [] := htrail
    exact ⟨_, rfl⟩
  case select =>
    obtain ⟨s₁, rfl⟩ := htrail
    rw [hinv.view_eq (by simp [hφ, DedupPhase.version])] at hm
    rcases hrow : v.inbox.inbox.committed.row k with _ | row <;> rw [hrow] at hm
    · simp only [Option.some.injEq, Prod.mk.injEq] at hm
      obtain ⟨rfl, rfl⟩ := hm
      exact ⟨_, _, rfl, hrow⟩
    · simp only [hinv.completed row hrow, if_true] at hm
      split_ifs at hm with hfree
      simp only [Option.some.injEq, Prod.mk.injEq] at hm
      obtain ⟨rfl, rfl⟩ := hm
      exact ⟨_, _, [], rfl, .inl (by simp [Absent, hrow])⟩
  case insert =>
    obtain ⟨s₁, s₂, rfl, h₂⟩ := htrail
    rw [hinv.view_eq (by simp [hφ, DedupPhase.version])] at hm
    rcases hrow : v.inbox.inbox.committed.row k with _ | row <;> rw [hrow] at hm <;>
      simp only at hm
    · split_ifs at hm with hfree
      simp only [Option.some.injEq, Prod.mk.injEq] at hm
      obtain ⟨rfl, rfl⟩ := hm
      exact trail_effectFrom.2 ⟨_, _, _, rfl, .inr ⟨_, [], rfl, hrow⟩⟩
    · simp only [Option.some.injEq, Prod.mk.injEq] at hm
      obtain ⟨rfl, rfl⟩ := hm
      exact ⟨_, _, _, [], rfl, h₂, by simp [Absent, hrow]⟩
  case effect =>
    simp only [Option.some.injEq, Prod.mk.injEq] at hm
    obtain ⟨rfl, rfl⟩ := hm
    exact trail_effectFrom.2 (Ahead.snoc htrail _)
  case complete =>
    obtain rfl : p = .commit := by
      split at hm
      · simp_all
      · split_ifs at hm
        simp_all
    exact Ahead.snoc htrail _
  case diverting =>
    obtain rfl : p = .diverted := by
      split_ifs at hm <;> simp_all
    exact Overtaken.snoc htrail _
  case succeeded => simp at hm
  case diverted => simp at hm
  all_goals
    simp only [Option.some.injEq, Prod.mk.injEq] at hm
    obtain ⟨rfl, rfl⟩ := hm
  · exact Ahead.snoc htrail _
  · exact Ahead.snoc htrail _
  · exact Overtaken.snoc htrail _

/-- Along every trace, the lock of the key tells who holds it, and the steps of a delivery tell its
phase. -/
theorem dedupInv_of_trace {h : List (Taken τ (ConsumerDb τ ω))} {v : ConsumerDb τ ω}
    (ht : (dedup k deliveries).Trace ⟨.empty, .empty⟩ h v) :
    DedupInv k ((dedup k deliveries).phases h) v
      ∧ ∀ t, ((dedup k deliveries).phases h t).Trail k (stepsOf t h) := by
  induction ht with
  | nil =>
    refine ⟨⟨TxTable.locked_ofTable _, fun t => ?_, fun t => rfl, fun row h => ?_, ?_⟩, fun t => rfl⟩
    · exact iff_of_false (by simp [InboxDb.empty, TxTable.ofTable]) (by simp [dedup, DedupPhase.Holds])
    · simp [InboxDb.empty, TxTable.ofTable] at h
    · simp [dedup]
  | @snoc h v v' t p ht hm ih =>
    obtain ⟨hinv, htrail⟩ := ih
    rw [Machine.phases_snoc, Machine.advance_of_move hm]
    refine ⟨hinv.move hm, fun t' => ?_⟩
    rcases eq_or_ne t t' with rfl | hne
    · rw [Function.update_self, stepsOf_snoc_self (s := ⟨t, v, v'⟩)]
      exact hinv.trail_move (htrail t) hm
    · rw [Function.update_of_ne hne.symm, stepsOf_snoc_of_ne hne]
      exact htrail t'

/-! ## Every delivery ends -/

/-- How many statements are left, at most, where the side effect has `n`. -/
def DedupPhase.rank (n : ℕ) : DedupPhase ω → ℕ
  | .begin => n + 5
  | .select => n + 4
  | .skip => 1
  | .insert => n + 3
  | .effect _ rest => rest.length + 3
  | .complete => 2
  | .commit => 1
  | .catching => 2
  | .diverting => 1
  | .succeeded => 0
  | .diverted => 0

theorem rank_effectFrom (n : ℕ) (rest : List ω) :
    (DedupPhase.effectFrom rest).rank n = rest.length + 2 := by
  cases rest <;> rfl

theorem rank_lt_of_move {d : ResilientDelivery ω} {p p' : DedupPhase ω} {v v' : ConsumerDb τ ω}
    (hm : dedupMove k d t p v = some (v', p')) :
    p'.rank (d.attempt 1).sideEffect.length < p.rank (d.attempt 1).sideEffect.length := by
  rcases p with _ | _ | _ | _ | ⟨s, rest⟩ | _ | _ | _ | _ | _ | _ <;>
    simp only [dedupMove, reduceCtorEq] at hm
  case select =>
    split at hm
    · simp only [Option.some.injEq, Prod.mk.injEq] at hm
      simp [← hm.2, DedupPhase.rank]
    · split_ifs at hm with hfree hcompleted <;> simp only [Option.some.injEq, Prod.mk.injEq] at hm
      · simp [← hm.2, DedupPhase.rank]
      · rw [← hm.2, rank_effectFrom]
        simp [DedupPhase.rank]
  case insert =>
    split at hm
    · simp only [Option.some.injEq, Prod.mk.injEq] at hm
      simp [← hm.2, DedupPhase.rank]
    · split_ifs at hm
      simp only [Option.some.injEq, Prod.mk.injEq] at hm
      rw [← hm.2, rank_effectFrom]
      simp [DedupPhase.rank]
  case effect =>
    simp only [Option.some.injEq, Prod.mk.injEq] at hm
    rw [← hm.2, rank_effectFrom]
    simp [DedupPhase.rank]
  case complete =>
    obtain rfl : p' = .commit := by
      split at hm
      · simp_all
      · split_ifs at hm
        simp_all
    simp [DedupPhase.rank]
  case diverting =>
    obtain rfl : p' = .diverted := by
      split_ifs at hm <;> simp_all
    simp [DedupPhase.rank]
  all_goals
    simp only [Option.some.injEq, Prod.mk.injEq] at hm
    simp [← hm.2, DedupPhase.rank]

/-- Whoever holds the lock does not wait. -/
theorem DedupInv.move_isSome {φ : τ → DedupPhase ω} {v : ConsumerDb τ ω} (hinv : DedupInv k φ v)
    (d : ResilientDelivery ω) (ht : (φ t).Holds) : (dedupMove k d t (φ t) v).isSome := by
  have hfree := hinv.free_of_holds ht
  rcases hφ : φ t with _ | _ | _ | _ | ⟨s, rest⟩ | _ | _ | _ | _ | _ | _ <;> rw [hφ] at ht <;>
    simp only [DedupPhase.Holds] at ht <;> simp only [dedupMove, Option.isSome_some]
  split <;> simp [hfree]

/-- Whoever waits waits for the holder of the lock. -/
theorem DedupInv.waits {φ : τ → DedupPhase ω} {v : ConsumerDb τ ω} (hinv : DedupInv k φ v)
    {d : ResilientDelivery ω} (hm : dedupMove k d t (φ t) v = none) :
    φ t = .succeeded ∨ φ t = .diverted ∨ ∃ t', (φ t').Holds := by
  by_cases hfree : v.inbox.inbox.Free t k
  · rcases hφ : φ t with _ | _ | _ | _ | ⟨s, rest⟩ | _ | _ | _ | _ | _ | _ <;>
      simp only [hφ, dedupMove, hfree, if_true, reduceCtorEq] at hm
    case diverting => split_ifs at hm
    case succeeded => exact .inl rfl
    case diverted => exact .inr (.inl rfl)
    all_goals split at hm <;> simp at hm
  · simp only [TxTable.Free, not_forall] at hfree
    obtain ⟨t', hl, -⟩ := hfree
    exact .inr (.inr ⟨t', (hinv.holder t').1 hl⟩)

/-- Before an empty inbox, no statement of a delivery waits. -/
theorem each_processTransactional_empty (ds : τ → Delivery ω) (t : τ) :
    (processTransactional t (ds t)).Each fun _ act => (act (.empty : InboxDb τ ω)).isSome := by
  refine each_processTransactional ?_ rfl rfl (fun _ => rfl) (fun _ => rfl) (fun _ => rfl) ?_ ?_
  · intro β fate s hs
    obtain ⟨⟨r, w⟩, hr⟩ := Option.isSome_iff_exists.1 hs
    rcases fate with _ | _ | _
    · simp only [TxEnds.statement, hr]
      cases r <;> rfl
    · rfl
    · rfl
  · rintro (_ | _ | _) <;> rfl
  · rintro (_ | _ | _) <;> rfl

theorem each_consume (t : τ) (d : ResilientDelivery ω) :
    (consume (consumeEnv t d)).Each fun _ act => ∃ v, (act v).isSome := by
  have hdivert : ∀ message attempts, (divert (consumeEnv t d) message attempts).Each fun _ act =>
      ∃ v, (act v).isSome := by
    intro message attempts
    refine Async.each_bind (Async.each_await ⟨⟨.empty, .empty⟩, ?_⟩) fun _ => Async.each_pure _
    simp only [autocommit, insertDeadLetter]
    cases d.onMove <;> rfl
  have haction : ∀ n, ((consumeEnv t d).action n).Each fun _ act => ∃ v, (act v).isSome := by
    intro n
    refine Async.each_bind (Async.each_zoom (each_processTransactional_empty (fun _ => d.attempt n) t)
      fun β act hact => ?_) fun _ => Async.each_pure _
    exact ⟨⟨.empty, .empty⟩, by simpa using hact⟩
  have hloop : ∀ left attempt, (consumeFrom (consumeEnv t d) left attempt).Each fun _ act =>
      ∃ v, (act v).isSome := by
    intro left
    induction left with
    | zero => exact fun attempt => hdivert _ attempt
    | succ left ih =>
      intro attempt
      refine Async.each_tryCatch (Async.each_bind (haction _) fun _ => Async.each_pure _) ?_
      intro err
      split
      · exact hdivert _ _
      · split_ifs
        · exact Async.each_bind (Async.each_await ⟨⟨.empty, .empty⟩, rfl⟩) fun _ => ih _
        · exact hdivert _ _
  exact hloop _ _

/-! ## Runs -/

/-- Deliveries of one event, where nothing fails and PostgreSQL words the losing INSERT's error. -/
structure SameEvent (k : InboxKey) (deliveries : τ → ResilientDelivery ω) : Prop where
  key : ∀ t n, ((deliveries t).attempt n).key = k
  faultless : ∀ t, (deliveries t).Faultless
  attempts : ∀ t, 2 ≤ (deliveries t).maxAttempts
  duplicateKey : ∀ t, (deliveries t).thrown .duplicateKey = .error duplicateKeyText

/-- Every delivery that has ended ended with SUCCESS, and nothing is put aside. -/
structure NotDeadLettered
    (c : Config τ (ConsumerDb τ ω) InboxError ConsumeResult) : Prop where
  success : ∀ t r, (c.thread t).result = some r → ∃ a, r = .ok a ∧ a.status = .success
  letters : ∀ id, c.world.deadLetters.row id = none

section Runs

variable {h : List (Taken τ (ConsumerDb τ ω))}
  {c : Config τ (ConsumerDb τ ω) InboxError ConsumeResult}

theorem SameEvent.trace (hsame : SameEvent k deliveries) (hrun : (consumeCalls deliveries).Run h c) :
    (dedup k deliveries).Trace ⟨.empty, .empty⟩ h c.world
      ∧ ∀ t, (dedup k deliveries).Runs t DedupEnds (c.thread t) ((dedup k deliveries).phases h t) :=
  Machine.trace_of_run (F := fun _ => DedupEnds) (fun t => runs_consume (hsame.faultless t)
    (hsame.key t 1) (hsame.attempts t) (hsame.duplicateKey t)) hrun

/-- Where no delivery can go on, each has ended: the holder of the lock could. -/
theorem SameEvent.ended (hsame : SameEvent k deliveries) (hrun : (consumeCalls deliveries).Run h c)
    (hstep : ∀ t, c.step t = none) (t : τ) :
    ∃ r, (c.thread t).result = some r ∧ DedupEnds r ((dedup k deliveries).phases h t) := by
  obtain ⟨ht, hruns⟩ := hsame.trace hrun
  obtain ⟨hinv, -⟩ := dedupInv_of_trace ht
  have heach := Config.each_reach (c := consumeCalls deliveries)
    (A := fun _ _ act => ∃ v, (act v).isSome) (fun t => each_consume t (deliveries t)) hrun.reach
  rcases Machine.ended_or_waits (hruns t) (hstep t) with hend | hwaits
  · exact hend
  rcases hinv.waits hwaits with hφ | hφ | ⟨t', ht'⟩
  · exact (hruns t).ended (heach t) fun w => by rw [hφ]; rfl
  · exact (hruns t).ended (heach t) fun w => by rw [hφ]; rfl
  · have hmove := hinv.move_isSome (deliveries t') ht'
    rcases Machine.ended_or_waits (hruns t') (hstep t') with ⟨r, -, hends⟩ | hwaits'
    · generalize (dedup k deliveries).phases h t' = p at hends ht'
      cases p <;> simp_all [DedupEnds, DedupPhase.Holds]
    · exact absurd hmove (by rw [show dedupMove k (deliveries t') t' _ c.world = none from hwaits']; simp)

/-- Nothing is put aside in any run without an overtaken delivery. -/
theorem SameEvent.notDeadLettered (hsame : SameEvent k deliveries)
    (hrun : (consumeCalls deliveries).Run h c) (hover : ∀ t, ¬ Overtaken k (stepsOf t h)) :
    NotDeadLettered c := by
  obtain ⟨ht, hruns⟩ := hsame.trace hrun
  obtain ⟨hinv, htrail⟩ := dedupInv_of_trace ht
  have hdiverted : ∀ t, (dedup k deliveries).phases h t ≠ .diverted := by
    intro t hφ
    have htr := htrail t
    rw [hφ] at htr
    exact hover t htr
  refine ⟨fun t r hr => ?_, fun id => ?_⟩
  · have hends := (hruns t).of_result hr
    have hne := hdiverted t
    generalize (dedup k deliveries).phases h t = p at hends hne
    cases p <;> simp_all [DedupEnds]
  · by_contra hrow
    obtain ⟨t, hφ⟩ := hinv.letters.1 ⟨id, Option.isSome_iff_ne_none.2 hrow⟩
    exact hdiverted t hφ

/-- In every run, the deliveries of one event that end do so with SUCCESS and nothing is put aside,
as long as none is overtaken; each makes so many statements at most; and when none can go on, they
have all ended, and have all succeeded just if none has been overtaken. -/
theorem not_dead_lettered_iff (hsame : SameEvent k deliveries)
    (hrun : (consumeCalls deliveries).Run h c) :
    ((∀ t, ¬ Overtaken k (stepsOf t h)) → NotDeadLettered c)
      ∧ (∀ t, (stepsOf t h).length ≤ ((deliveries t).attempt 1).sideEffect.length + 5)
      ∧ ((∀ t, c.step t = none) → (∀ t, (c.thread t).result.isSome)
        ∧ (NotDeadLettered c ↔ ∀ t, ¬ Overtaken k (stepsOf t h))) := by
  obtain ⟨ht, hruns⟩ := hsame.trace hrun
  obtain ⟨hinv, htrail⟩ := dedupInv_of_trace ht
  refine ⟨hsame.notDeadLettered hrun, fun t => ?_, fun hstep => ⟨fun t => ?_, fun hnot t => ?_,
    hsame.notDeadLettered hrun⟩⟩
  · exact le_of_add_le_left (ht.steps_add_rank_le (fun t =>
      DedupPhase.rank ((deliveries t).attempt 1).sideEffect.length)
      (fun _ _ _ _ _ hm => rank_lt_of_move hm) t)
  · obtain ⟨r, hr, -⟩ := hsame.ended hrun hstep t
    simp [hr]
  · obtain ⟨r, hr, hends⟩ := hsame.ended hrun hstep t
    have htr := htrail t
    rcases hφ : (dedup k deliveries).phases h t <;> rw [hφ] at hends htr <;>
      simp only [DedupEnds] at hends
    · exact Ahead.not_overtaken htr
    · -- its letter is in the table
      obtain ⟨id, hid⟩ := hinv.letters.2 ⟨t, hφ⟩
      rw [hnot.letters id] at hid
      simp at hid

end Runs

end Machine

/-- Two deliveries of one event. -/
def redelivered (t : Bool) : ResilientDelivery Unit where
  eventId := "evt"
  consumerName := "ticketing"
  maxAttempts := 3
  attempt _ := ⟨"evt", "ticketing", [()], 0, .answered, .answered, .answered,
    fun _ => some .answered, .answered, .answered, .answered, .answered⟩
  thrown _ := .error duplicateKeyText
  deadLetterId := if t then "dl-1" else "dl-0"
  onMove := .answered

theorem sameEvent_redelivered : SameEvent ⟨"evt", "ticketing"⟩ redelivered :=
  ⟨fun _ _ => rfl, fun _ => ⟨fun _ => ⟨rfl, rfl, rfl, fun _ => rfl, rfl, rfl, rfl, rfl⟩, rfl⟩,
    fun _ => Int.le_of_lt (by decide : (2 : ℤ) < 3), fun _ => rfl⟩

theorem redelivered_later_isSome : ((consumeCalls redelivered).history
    [false, false, false, false, false, false, true, true, true]).isSome := by
  decide +kernel

/-- The second delivery begins when the first has committed. -/
theorem not_dead_lettered_later :
    ∃ h c, (consumeCalls redelivered).Run h c ∧ (∀ t, c.step t = none) ∧ NotDeadLettered c := by
  have hrun := Config.run_of_history _ (Option.eq_some_of_isSome redelivered_later_isSome)
  refine ⟨_, _, hrun, by decide +kernel, ?_⟩
  refine (not_dead_lettered_iff sameEvent_redelivered hrun).1 ?_
  rintro (_ | _)
  · exact Ahead.not_overtaken ⟨_, _, _, rfl, .inr ⟨_, _, rfl, rfl⟩⟩
  · exact Ahead.not_overtaken ⟨_, _, _, rfl, .inl (by decide)⟩

theorem redelivered_at_once_isSome : ((consumeCalls redelivered).history
    [false, false, true, true, false, false, false, false, true, true, true]).isSome := by
  decide +kernel

set_option maxRecDepth 2000 in
/-- Both SELECT before the first commits: the second is put aside. -/
theorem dead_lettered_at_once :
    ¬ ∀ (h : List (Taken Bool (ConsumerDb Bool Unit)))
        (c : Config Bool (ConsumerDb Bool Unit) InboxError ConsumeResult),
      (consumeCalls redelivered).Run h c → (∀ t, c.step t = none) → NotDeadLettered c := by
  intro hall
  have hrun := Config.run_of_history _ (Option.eq_some_of_isSome redelivered_at_once_isSome)
  have hnot := hall _ _ hrun (by decide +kernel)
  exact absurd (hnot.letters "dl-1") (by decide +kernel)

end LaunchPad
