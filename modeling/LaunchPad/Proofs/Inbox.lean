import LaunchPad.Inbox
import LaunchPad.Lib.Noninterference

/-!
# A side effect is committed once

The key of a delivery is free for its INSERT only while no row under it is committed, and the lock
that comes with the INSERT keeps it so until the COMMIT. A row is committed with the side effect of
its delivery, COMPLETED, and nothing else is (`InboxInv`). That is kept by every statement of every
delivery, whatever the others do in between.
-/

namespace LaunchPad

open Interleave Rows

variable {τ ω : Type} (deliveries : τ → Delivery ω)

/-- The rows committed are COMPLETED, each with one COMMIT of its whole side effect. -/
structure InboxInv (db : InboxDb τ ω) : Prop where
  locked : db.inbox.Locked
  completed : ∀ k row, db.inbox.committed.row k = some row → row.status = .completed
  once : ∀ k, (commitsFor deliveries k db).length
    = if (db.inbox.committed.row k).isSome then 1 else 0
  whole : ∀ p ∈ db.commits, p.2 = (deliveries p.1).sideEffect

/-- What a statement of delivery `t` does. -/
structure InboxGuarantee (t : τ) (db db' : InboxDb τ ω) : Prop where
  inbox : TxTable.Frame t db.inbox db'.inbox
  work : ∀ t', t' ≠ t → db'.work t' = db.work t'
  commits : db'.commits = db.commits ∨ db'.commits = db.commits ++ [(t, db.work t)]
  inv : InboxInv deliveries db → InboxInv deliveries db'

def InboxRely (t : τ) (db db' : InboxDb τ ω) : Prop :=
  ∃ t', t ≠ t' ∧ InboxGuarantee deliveries t' db db'

/-- Transaction `t` has changed nothing. -/
structure Unclaimed (t : τ) (db : InboxDb τ ω) : Prop where
  inv : InboxInv deliveries db
  pending : db.inbox.pending t = .empty
  work : db.work t = []
  uncommitted : ¬ HasCommitted t db

/-- Transaction `t` has the key of its delivery, with this row, and has done this work. -/
structure Claimed (t : τ) (row : InboxRow) (work : List ω) (db : InboxDb τ ω) : Prop where
  inv : InboxInv deliveries db
  pending : db.inbox.pending t = Table.empty.set (deliveries t).key row
  absent : db.inbox.committed.row (deliveries t).key = none
  work : db.work t = work
  uncommitted : ¬ HasCommitted t db

/-- Delivery `t` throws: if it has committed, the answer was lost. -/
structure Thrown (t : τ) (db : InboxDb τ ω) : Prop where
  inv : InboxInv deliveries db
  lost : HasCommitted t db → (deliveries t).onCommit = .answerLost

/-- The event has been processed by another delivery. -/
structure Skipped (t : τ) (db : InboxDb τ ω) : Prop where
  inv : InboxInv deliveries db
  before : commitsFor deliveries (deliveries t).key db ≠ []
  uncommitted : ¬ HasCommitted t db

/-- What the SELECT tells: no row, or a COMPLETED one. -/
structure Looked (t : τ) (existing : Option InboxStatus) (db : InboxDb τ ω) : Prop where
  unclaimed : Unclaimed deliveries t db
  found : existing = none
    ∨ existing = some .completed ∧ commitsFor deliveries (deliveries t).key db ≠ []

/-- What a delivery ends with. -/
def Consumed (t : τ) : Except InboxError ConsumerExecutionResult → InboxDb τ ω → Prop
  | .ok a, db => a = (deliveries t).processed ∧ InboxInv deliveries db ∧ HasCommitted t db
      ∨ a = (deliveries t).duplicateSkipped ∧ Skipped deliveries t db
  | .error _, db => Thrown deliveries t db

section Stable

variable {deliveries} {t : τ} {db db' : InboxDb τ ω}

theorem InboxRely.hasCommitted (h : InboxRely deliveries t db db') :
    HasCommitted t db' ↔ HasCommitted t db := by
  obtain ⟨t', ht, hG⟩ := h
  unfold HasCommitted
  rcases hG.commits with hc | hc <;> rw [hc]
  simp [ht]

theorem InboxRely.inv (h : InboxRely deliveries t db db') (hdb : InboxInv deliveries db) :
    InboxInv deliveries db' := by
  obtain ⟨_, _, hG⟩ := h
  exact hG.inv hdb

theorem stable_unclaimed : Stable (InboxRely deliveries t) (Unclaimed deliveries t) := by
  intro db db' h hR
  obtain ⟨t', ht, hG⟩ := id hR
  exact ⟨hR.inv h.inv, (hG.inbox.pending t ht).trans h.pending, (hG.work t ht).trans h.work,
    fun hc => h.uncommitted (hR.hasCommitted.1 hc)⟩

theorem Claimed.lockedBy {row : InboxRow} {work : List ω} (h : Claimed deliveries t row work db) :
    db.inbox.lockedBy (deliveries t).key = some t :=
  h.inv.locked t _ row (by rw [h.pending, Table.set_row_self])

theorem stable_claimed (row : InboxRow) (work : List ω) :
    Stable (InboxRely deliveries t) (Claimed deliveries t row work) := by
  intro db db' h hR
  obtain ⟨t', ht, hG⟩ := id hR
  refine ⟨hR.inv h.inv, (hG.inbox.pending t ht).trans h.pending, ?_, (hG.work t ht).trans h.work,
    fun hc => h.uncommitted (hR.hasCommitted.1 hc)⟩
  rw [hG.inbox.committed _ t ht h.lockedBy, h.absent]

theorem stable_thrown : Stable (InboxRely deliveries t) (Thrown deliveries t) :=
  fun _ _ h hR => ⟨hR.inv h.inv, fun hc => h.lost (hR.hasCommitted.1 hc)⟩

theorem InboxRely.commitsFor (h : InboxRely deliveries t db db') {k : InboxKey}
    (hk : LaunchPad.commitsFor deliveries k db ≠ []) :
    LaunchPad.commitsFor deliveries k db' ≠ [] := by
  obtain ⟨t', -, hG⟩ := h
  unfold LaunchPad.commitsFor at *
  rcases hG.commits with hc | hc <;> rw [hc]
  · exact hk
  · rw [List.filter_append]
    exact List.append_ne_nil_of_left_ne_nil hk _

theorem stable_skipped : Stable (InboxRely deliveries t) (Skipped deliveries t) :=
  fun _ _ h hR => ⟨hR.inv h.inv, hR.commitsFor h.before,
    fun hc => h.uncommitted (hR.hasCommitted.1 hc)⟩

theorem stable_consumed (r : Except InboxError ConsumerExecutionResult) :
    Stable (InboxRely deliveries t) (Consumed deliveries t r) := by
  intro db db' h hR
  rcases r with e | a
  · exact stable_thrown db db' h hR
  · rcases h with ⟨ha, hi, hc⟩ | ⟨ha, hs⟩
    · exact .inl ⟨ha, hR.inv hi, hR.hasCommitted.2 hc⟩
    · exact .inr ⟨ha, stable_skipped db db' hs hR⟩

end Stable

variable [DecidableEq τ]

/-! ## Statements -/

section Rules

variable {deliveries} {t : τ} {db : InboxDb τ ω} {α β : Type}

omit [DecidableEq τ] in
theorem inbox_refl (t : τ) (db : InboxDb τ ω) : InboxGuarantee deliveries t db db :=
  ⟨.refl t _, fun _ _ => rfl, .inl rfl, id⟩

theorem inboxInv_rollback (h : InboxInv deliveries db) (t : τ) :
    InboxInv deliveries (db.rollback t) :=
  ⟨TxTable.locked_rollback h.locked t, h.completed, h.once, h.whole⟩

theorem inbox_rollback (t : τ) (db : InboxDb τ ω) :
    InboxGuarantee deliveries t db (db.rollback t) :=
  ⟨TxTable.frame_rollback _ t, fun _ ht => Function.update_of_ne ht _ _, .inl rfl,
    fun h => inboxInv_rollback h t⟩

omit [DecidableEq τ] in
/-- A new version or lock of a row that no other transaction has. -/
theorem inbox_local {V : TxTable τ InboxKey InboxRow} (hF : TxTable.Frame t db.inbox V)
    (hL : db.inbox.Locked → V.Locked) (hC : V.committed = db.inbox.committed) :
    InboxGuarantee deliveries t db { db with inbox := V } := by
  refine ⟨hF, fun _ _ => rfl, .inl rfl, fun h => ⟨hL h.locked, ?_, ?_, h.whole⟩⟩
  · simpa only [hC] using h.completed
  · intro k
    simp only [hC]
    exact h.once k

omit [DecidableEq τ] in
theorem Unclaimed.thrown (h : Unclaimed deliveries t db) : Thrown deliveries t db :=
  ⟨h.inv, fun hc => absurd hc h.uncommitted⟩

omit [DecidableEq τ] in
theorem Claimed.thrown {row : InboxRow} {work : List ω} (h : Claimed deliveries t row work db) :
    Thrown deliveries t db := ⟨h.inv, fun hc => absurd hc h.uncommitted⟩

/-- A statement that leaves the database alone where it fails. -/
theorem inbox_statement {P : InboxDb τ ω → Prop} {K : β → InboxDb τ ω → Prop} {fate : Fate}
    {s : Sync (InboxDb τ ω) InboxError β} (hP : ∀ db, P db → Thrown deliveries t db)
    (hs : ∀ db, P db → s.wp (post (fun b db' => InboxGuarantee deliveries t db db' ∧ K b db')
      fun _ db' => db' = db) db) :
    Within (InboxGuarantee deliveries t) P ((inboxTx t).statement fate s)
      (post K fun _ => Thrown deliveries t) := by
  intro db h
  have hfail : InboxGuarantee deliveries t db (db.rollback t)
      ∧ Thrown deliveries t (db.rollback t) :=
    ⟨inbox_rollback t db, inboxInv_rollback (hP db h).inv t, (hP db h).lost⟩
  refine TxEnds.wp_statement (x := inboxTx t) (Sync.wp_mono (hs db h) ?_) hfail
  rintro (e | b) db' h'
  · obtain rfl : db' = db := h'
    exact hfail
  · exact h'

theorem inbox_begin {P : InboxDb τ ω → Prop} {fate : Fate}
    (hP : ∀ db, P db → Thrown deliveries t db) :
    Within (InboxGuarantee deliveries t) P ((inboxTx t).beginTx fate)
      (post (fun _ => P) fun _ => Thrown deliveries t) :=
  inbox_statement hP fun db h => by simpa using ⟨inbox_refl t db, h⟩

omit [DecidableEq τ] in
theorem stable_looked (existing : Option InboxStatus) :
    Stable (InboxRely deliveries t) (Looked deliveries t existing) :=
  fun db db' h hR => ⟨stable_unclaimed db db' h.unclaimed hR,
    h.found.imp_right fun h => ⟨h.1, hR.commitsFor h.2⟩⟩

omit [DecidableEq τ] in
theorem Unclaimed.view (h : Unclaimed deliveries t db) :
    db.inbox.view t = db.inbox.committed := by
  rw [TxTable.view, h.pending, Table.overlay_empty]

/-- The SELECT finds no row, or the row that it locks. -/
theorem selectInboxForUpdate_eq_some {k : InboxKey} {r : Except InboxError (Option InboxStatus)} :
    selectInboxForUpdate t k db = some (r, db') ↔
      ((db.inbox.view t).row k = none ∧ r = .ok none ∧ db' = db)
        ∨ ∃ row, (db.inbox.view t).row k = some row ∧ db.inbox.Free t k
          ∧ r = .ok (some row.status) ∧ db' = { db with inbox := db.inbox.lock t k } := by
  unfold selectInboxForUpdate
  rcases (db.inbox.view t).row k with _ | row
  · simp [eq_comm]
  · split_ifs with hfree <;> simp [hfree, eq_comm]

theorem insertInbox_eq_some {k : InboxKey} {now : Time} {r : Except InboxError Unit} :
    insertInbox t k now db = some (r, db') ↔
      (∃ row, (db.inbox.view t).row k = some row ∧ r = .error .duplicateKey ∧ db' = db)
        ∨ (db.inbox.view t).row k = none ∧ db.inbox.Free t k ∧ r = .ok ()
          ∧ db' = { db with inbox := db.inbox.write t k ⟨.processing, now⟩ } := by
  unfold insertInbox
  rcases (db.inbox.view t).row k with _ | row
  · split_ifs with hfree <;> simp [hfree, eq_comm]
  · simp [eq_comm]

theorem completeInbox_eq_some {k : InboxKey} {now : Time} {r : Except InboxError Unit} :
    completeInbox t k now db = some (r, db') ↔
      ((db.inbox.view t).row k = none ∧ r = .ok () ∧ db' = db)
        ∨ (∃ row, (db.inbox.view t).row k = some row) ∧ db.inbox.Free t k ∧ r = .ok ()
          ∧ db' = { db with inbox := db.inbox.write t k ⟨.completed, now⟩ } := by
  unfold completeInbox
  rcases (db.inbox.view t).row k with _ | row
  · simp [eq_comm]
  · split_ifs with hfree <;> simp [hfree, eq_comm]

theorem inbox_select {fate : Fate} :
    Within (InboxGuarantee deliveries t) (Unclaimed deliveries t)
      ((inboxTx t).statement fate (selectInboxForUpdate t (deliveries t).key))
      (post (Looked deliveries t) fun _ => Thrown deliveries t) := by
  refine inbox_statement (fun _ h => h.thrown) fun db h r db' hr => ?_
  rw [selectInboxForUpdate_eq_some, h.view] at hr
  obtain ⟨-, rfl, rfl⟩ | ⟨row, hrow, hfree, rfl, rfl⟩ := hr
  · exact ⟨inbox_refl t _, h, .inl rfl⟩
  · have hG : InboxGuarantee deliveries t db
        { db with inbox := db.inbox.lock t (deliveries t).key } :=
      inbox_local (TxTable.frame_lock hfree) (fun hL => TxTable.locked_lock hL hfree) rfl
    refine ⟨hG, ⟨hG.inv h.inv, h.pending, h.work, h.uncommitted⟩, .inr ⟨?_, ?_⟩⟩
    · rw [h.inv.completed _ row hrow]
    · intro hnil
      have hone := h.inv.once (deliveries t).key
      rw [hrow] at hone
      rw [show commitsFor deliveries (deliveries t).key db = [] from hnil] at hone
      simp at hone

theorem inbox_insert {fate : Fate} (now : Time) :
    Within (InboxGuarantee deliveries t) (Unclaimed deliveries t)
      ((inboxTx t).statement fate (insertInbox t (deliveries t).key now))
      (post (fun _ => Claimed deliveries t ⟨.processing, now⟩ []) fun _ =>
        Thrown deliveries t) := by
  refine inbox_statement (fun _ h => h.thrown) fun db h r db' hr => ?_
  rw [insertInbox_eq_some, h.view] at hr
  obtain ⟨-, -, rfl, rfl⟩ | ⟨hrow, hfree, rfl, rfl⟩ := hr
  · rfl
  · have hG : InboxGuarantee deliveries t db
        { db with inbox := db.inbox.write t (deliveries t).key ⟨.processing, now⟩ } :=
      inbox_local (TxTable.frame_write hfree _) (fun hL => TxTable.locked_write hL hfree _) rfl
    refine ⟨hG, hG.inv h.inv, ?_, hrow, h.work, h.uncommitted⟩
    rw [TxTable.write_pending_self, h.pending]

theorem inbox_work {row : InboxRow} {work : List ω} {fate : Fate} (s : ω) :
    Within (InboxGuarantee deliveries t) (Claimed deliveries t row work)
      ((inboxTx t).statement fate (workStatement t s))
      (post (fun _ => Claimed deliveries t row (work ++ [s])) fun _ => Thrown deliveries t) := by
  refine inbox_statement (fun _ h => h.thrown) fun db h => ?_
  unfold workStatement
  rw [Sync.wp_modify]
  have hI := h.inv
  refine ⟨⟨.refl t _, fun t' ht => Function.update_of_ne ht _ _, .inl rfl, fun h =>
    ⟨h.locked, h.completed, h.once, h.whole⟩⟩, ⟨hI.locked, hI.completed, hI.once, hI.whole⟩,
    h.pending, h.absent, ?_, h.uncommitted⟩
  simp [h.work]

theorem inbox_complete {work : List ω} {row : InboxRow} {fate : Fate} (now : Time) :
    Within (InboxGuarantee deliveries t) (Claimed deliveries t row work)
      ((inboxTx t).statement fate (completeInbox t (deliveries t).key now))
      (post (fun _ => Claimed deliveries t ⟨.completed, now⟩ work) fun _ =>
        Thrown deliveries t) := by
  refine inbox_statement (fun _ h => h.thrown) fun db h r db' hr => ?_
  have hview : (db.inbox.view t).row (deliveries t).key = some row := by
    simp [TxTable.view, h.pending]
  have hfree : db.inbox.Free t (deliveries t).key := by
    intro t' ht'
    rw [h.lockedBy] at ht'
    exact (Option.some.inj ht').symm
  simp only [completeInbox, hview, if_pos hfree, Option.some.injEq, Prod.mk.injEq] at hr
  obtain ⟨rfl, rfl⟩ := hr
  have hG : InboxGuarantee deliveries t db
      { db with inbox := db.inbox.write t (deliveries t).key ⟨.completed, now⟩ } :=
    inbox_local (TxTable.frame_write hfree _) (fun hL => TxTable.locked_write hL hfree _) rfl
  refine ⟨hG, hG.inv h.inv, ?_, h.absent, h.work, h.uncommitted⟩
  rw [TxTable.write_pending_self, h.pending]
  ext1 k
  simp only [Table.set_row]
  split_ifs <;> rfl

/-- The COMMIT of a delivery that is done. -/
theorem inboxInv_commit {now : Time}
    (h : Claimed deliveries t ⟨.completed, now⟩ (deliveries t).sideEffect db) :
    InboxInv deliveries (db.commit t) := by
  have hrow : ∀ k, (db.commit t).inbox.committed.row k = if k = (deliveries t).key
      then some ⟨.completed, now⟩ else db.inbox.committed.row k := by
    intro k
    change (db.inbox.view t).row k = _
    rw [TxTable.view, Table.overlay_row, h.pending, Table.set_row]
    split_ifs <;> rfl
  refine ⟨TxTable.locked_commit h.inv.locked t, fun k row hk => ?_, fun k => ?_, fun p hp => ?_⟩
  · rw [hrow] at hk
    split_ifs at hk
    · rw [← Option.some.inj hk]
    · exact h.inv.completed k row hk
  · have hone := h.inv.once k
    rw [hrow]
    unfold commitsFor InboxDb.commit at *
    rw [List.filter_append, List.length_append, hone]
    by_cases hk : k = (deliveries t).key
    · simp [hk, h.absent]
    · simp [hk, Ne.symm hk]
  · rcases List.mem_append.1 hp with hp | hp
    · exact h.inv.whole p hp
    · rw [List.mem_singleton.1 hp]
      exact h.work

theorem inbox_commit {now : Time} :
    Within (InboxGuarantee deliveries t)
      (Claimed deliveries t ⟨.completed, now⟩ (deliveries t).sideEffect)
      ((inboxTx t).commitTx (deliveries t).onCommit)
      (post (fun _ db => InboxInv deliveries db ∧ HasCommitted t db)
        fun _ => Thrown deliveries t) := by
  intro db h
  have hG : InboxGuarantee deliveries t db (db.commit t) :=
    ⟨TxTable.frame_commit h.inv.locked t, fun t' ht => Function.update_of_ne ht _ _, .inr rfl,
      fun _ => inboxInv_commit h⟩
  have hc : HasCommitted t (db.commit t) := ⟨db.work t, by simp [InboxDb.commit]⟩
  rw [TxEnds.wp_commitTx]
  refine ⟨fun _ => ⟨hG, inboxInv_commit h, hc⟩, fun _ => ⟨inbox_rollback t db, ?_⟩,
    fun hlost => ⟨hG, inboxInv_commit h, fun _ => hlost⟩⟩
  exact ⟨inboxInv_rollback h.inv t, h.thrown.lost⟩

theorem inbox_rollbackTx {P : InboxDb τ ω → Prop} {fate : Fate}
    (hP : ∀ db, P db → P (db.rollback t)) {E : InboxError → InboxDb τ ω → Prop}
    (hE : ∀ e db, P db → E e db) :
    Within (InboxGuarantee deliveries t) P ((inboxTx t).rollbackTx fate) (post (fun _ => P) E) := by
  intro db h
  refine TxEnds.wp_rollbackTx fun r => ⟨inbox_rollback t db, ?_⟩
  rcases r with e | u
  · exact hE e _ (hP db h)
  · exact hP db h

end Rules

/-! ## Deliveries -/

section Deliveries

variable {deliveries} {t : τ} {db : InboxDb τ ω} {α β : Type}

theorem consumes_sideEffect {row : InboxRow} : ∀ (rest work : List ω) (n : ℕ) {db : InboxDb τ ω},
    Claimed deliveries t row work db →
    Safe (InboxRely deliveries t) (InboxGuarantee deliveries t)
      (post (fun _ => Claimed deliveries t row (work ++ rest)) fun _ => Thrown deliveries t)
      (runSideEffect t (deliveries t) n rest) db
  | [], work, n, db, h => by
    unfold runSideEffect
    split_ifs
    · exact Safe.throw stable_thrown h.thrown
    · refine Safe.pure (stable_claimed row _) ?_
      rwa [List.append_nil]
  | s :: rest, work, n, db, h => by
    unfold runSideEffect
    rcases (deliveries t).onEffect n with _ | fate
    · exact Safe.throw stable_thrown h.thrown
    · refine Safe.of_within (stable_claimed row work) (fun _ => stable_claimed row _)
        (fun _ => stable_thrown) (inbox_work s) h (fun _ db' h' => ?_) fun _ _ h => h
      have hrest := consumes_sideEffect rest (work ++ [s]) (n + 1) h'
      rwa [List.append_assoc] at hrest

theorem consumes_processTransactional (h : Unclaimed deliveries t db) :
    Safe (InboxRely deliveries t) (InboxGuarantee deliveries t) (Consumed deliveries t)
      (processTransactional t (deliveries t)) db := by
  unfold processTransactional
  refine Safe.tryCatch (?_ : Safe _ _ (Consumed deliveries t) _ db) (fun _ _ h => h)
    fun e db h => ?_
  · refine Safe.of_within stable_unclaimed (fun _ => stable_unclaimed) (fun _ => stable_thrown)
      (inbox_begin fun _ h => h.thrown) h (fun _ db h => ?_) fun _ _ h => h
    refine Safe.of_within stable_unclaimed stable_looked (fun _ => stable_thrown) inbox_select h
      (fun existing db h => ?_) fun _ _ h => h
    rcases h.found with rfl | ⟨rfl, hbefore⟩
    · -- the key is not there: insert it, work, complete it, commit
      refine Safe.of_within stable_unclaimed (fun _ => stable_claimed _ _) (fun _ => stable_thrown)
        (inbox_insert _) h.unclaimed (fun _ db h => ?_) fun _ _ h => h
      refine Safe.bind (consumes_sideEffect _ [] 0 h) (fun _ db h => ?_) fun _ _ h => h
      refine Safe.of_within (stable_claimed _ _) (fun _ => stable_claimed _ _)
        (fun _ => stable_thrown) (inbox_complete _) h (fun _ db h => ?_) fun _ _ h => h
      refine Safe.of_within (stable_claimed _ _) (fun _ => ?_)
        (fun _ => stable_thrown) inbox_commit h
        (fun _ db h => Safe.pure (stable_consumed _) (.inl ⟨rfl, h.1, h.2⟩)) fun _ _ h => h
      exact fun db db' h hR => ⟨hR.inv h.1, hR.hasCommitted.2 h.2⟩
    · have hskip : Skipped deliveries t db :=
        ⟨h.unclaimed.inv, hbefore, h.unclaimed.uncommitted⟩
      refine Safe.of_within stable_skipped (fun _ => stable_skipped) (fun _ => stable_thrown)
        (inbox_rollbackTx (fun db h => ⟨inboxInv_rollback h.inv t, h.before, h.uncommitted⟩)
          fun _ db h => ⟨h.inv, fun hc => absurd hc h.uncommitted⟩) hskip
        (fun _ db h => Safe.pure (stable_consumed _) (.inr ⟨rfl, h⟩)) fun _ _ h => h
  · exact Safe.of_within stable_thrown (fun _ => stable_thrown) (fun _ => stable_thrown)
      (inbox_rollbackTx (fun db h => ⟨inboxInv_rollback h.inv t, h.lost⟩) fun _ _ h => h) h
      (fun _ db h => Safe.throw (stable_consumed _) h) fun _ _ h => h

end Deliveries

/-! ## Consumers -/

/-- A transaction has locked and written its delivery's key only. -/
structure OwnKeys (db : InboxDb τ ω) : Prop where
  lockedBy : ∀ t k, db.inbox.lockedBy k = some t → k = (deliveries t).key
  pending : ∀ t k row, (db.inbox.pending t).row k = some row → k = (deliveries t).key

/-- The same for the deliveries to one consumer. -/
structure LooksSame (name : String) (db db' : InboxDb τ ω) : Prop where
  own : OwnKeys deliveries db
  own' : OwnKeys deliveries db'
  committed : ∀ k : InboxKey, k.consumerName = name →
    db.inbox.committed.row k = db'.inbox.committed.row k
  lockedBy : ∀ k : InboxKey, k.consumerName = name → db.inbox.lockedBy k = db'.inbox.lockedBy k
  pending : ∀ t, (deliveries t).consumerName = name → db.inbox.pending t = db'.inbox.pending t
  work : ∀ t, (deliveries t).consumerName = name → db.work t = db'.work t
  commits : commitsOf deliveries name db = commitsOf deliveries name db'

section Consumers

variable {deliveries} {t : τ} {name : String} {db db' : InboxDb τ ω}

theorem OwnKeys.rollback (h : OwnKeys deliveries db) (t : τ) :
    OwnKeys deliveries (db.rollback t) where
  lockedBy t' k hk := by
    simp only [InboxDb.rollback, TxTable.rollback] at hk
    split_ifs at hk
    exact h.lockedBy t' k hk
  pending t' k row hk := by
    simp only [InboxDb.rollback, TxTable.rollback] at hk
    rcases eq_or_ne t' t with rfl | ht
    · simp at hk
    · rw [Function.update_of_ne ht] at hk
      exact h.pending t' k row hk

theorem OwnKeys.commit (h : OwnKeys deliveries db) (t : τ) : OwnKeys deliveries (db.commit t) :=
  ⟨(h.rollback t).lockedBy, (h.rollback t).pending⟩

omit [DecidableEq τ] in
theorem OwnKeys.lock (h : OwnKeys deliveries db) (t : τ) :
    OwnKeys deliveries { db with inbox := db.inbox.lock t (deliveries t).key } where
  lockedBy t' k hk := by
    rcases eq_or_ne k (deliveries t).key with rfl | hne
    · rw [TxTable.lock_lockedBy] at hk
      rw [Option.some.inj hk]
    · rw [TxTable.lockedBy_lock_of_ne _ _ hne] at hk
      exact h.lockedBy t' k hk
  pending := h.pending

theorem OwnKeys.write (h : OwnKeys deliveries db) (t : τ) (row : InboxRow) :
    OwnKeys deliveries { db with inbox := db.inbox.write t (deliveries t).key row } where
  lockedBy := (h.lock t).lockedBy
  pending t' k row' hk := by
    rcases eq_or_ne t' t with rfl | ht
    · rw [TxTable.write_pending_self, Table.set_row] at hk
      split_ifs at hk with hkey
      · exact hkey
      · exact h.pending t' k row' hk
    · simp only [TxTable.write, Function.update_of_ne ht] at hk
      exact h.pending t' k row' hk

omit [DecidableEq τ] in
theorem OwnKeys.no_version (h : OwnKeys deliveries db) (ht : (deliveries t).consumerName ≠ name)
    {k : InboxKey} (hk : k.consumerName = name) : (db.inbox.pending t).row k = none := by
  rcases hp : (db.inbox.pending t).row k with _ | row
  · rfl
  · rw [h.pending t k row hp] at hk
    exact absurd hk ht

omit [DecidableEq τ] in
theorem OwnKeys.no_lock (h : OwnKeys deliveries db) (ht : (deliveries t).consumerName ≠ name)
    {k : InboxKey} (hk : k.consumerName = name) : db.inbox.lockedBy k ≠ some t := by
  intro hl
  rw [h.lockedBy t k hl] at hk
  exact ht hk

/-! ### A delivery to the consumer does the same -/

theorem LooksSame.rollback (h : LooksSame deliveries name db db') (t : τ) :
    LooksSame deliveries name (db.rollback t) (db'.rollback t) where
  own := h.own.rollback t
  own' := h.own'.rollback t
  committed := h.committed
  lockedBy k hk := by
    simp only [InboxDb.rollback, TxTable.rollback, h.lockedBy k hk]
  pending t' ht' := by
    simp only [InboxDb.rollback, TxTable.rollback, Function.update_apply]
    split_ifs
    · rfl
    · exact h.pending t' ht'
  work t' ht' := by
    simp only [InboxDb.rollback, Function.update_apply]
    split_ifs
    · rfl
    · exact h.work t' ht'
  commits := h.commits

theorem LooksSame.commit (h : LooksSame deliveries name db db')
    (ht : (deliveries t).consumerName = name) :
    LooksSame deliveries name (db.commit t) (db'.commit t) where
  own := h.own.commit t
  own' := h.own'.commit t
  committed k hk := by
    change (db.inbox.view t).row k = (db'.inbox.view t).row k
    rw [TxTable.view, TxTable.view, Table.overlay_row, Table.overlay_row, h.pending t ht,
      h.committed k hk]
  lockedBy := (h.rollback t).lockedBy
  pending := (h.rollback t).pending
  work := (h.rollback t).work
  commits := by
    have hc := h.commits
    unfold commitsOf InboxDb.commit at *
    rw [List.filter_append, List.filter_append, hc, h.work t ht]

omit [DecidableEq τ] in
theorem LooksSame.lock (h : LooksSame deliveries name db db') (t : τ) :
    LooksSame deliveries name { db with inbox := db.inbox.lock t (deliveries t).key }
      { db' with inbox := db'.inbox.lock t (deliveries t).key } where
  own := h.own.lock t
  own' := h.own'.lock t
  committed := h.committed
  lockedBy k hk := by
    simp only [TxTable.lock, Function.update_apply]
    split_ifs
    · rfl
    · exact h.lockedBy k hk
  pending := h.pending
  work := h.work
  commits := h.commits

theorem LooksSame.write (h : LooksSame deliveries name db db') (t : τ) (row : InboxRow) :
    LooksSame deliveries name { db with inbox := db.inbox.write t (deliveries t).key row }
      { db' with inbox := db'.inbox.write t (deliveries t).key row } where
  own := h.own.write t row
  own' := h.own'.write t row
  committed := h.committed
  lockedBy := (h.lock t).lockedBy
  pending t' ht' := by
    simp only [TxTable.write, Function.update_apply]
    split_ifs with ht
    · rw [h.pending t (ht ▸ ht')]
    · exact h.pending t' ht'
  work := h.work
  commits := h.commits

omit [DecidableEq τ] in
theorem LooksSame.view (h : LooksSame deliveries name db db')
    (ht : (deliveries t).consumerName = name) :
    (db'.inbox.view t).row (deliveries t).key = (db.inbox.view t).row (deliveries t).key := by
  rw [TxTable.view, TxTable.view, Table.overlay_row, Table.overlay_row, h.pending t ht,
    h.committed _ ht]

omit [DecidableEq τ] in
theorem LooksSame.free (h : LooksSame deliveries name db db')
    (ht : (deliveries t).consumerName = name) :
    db'.inbox.Free t (deliveries t).key ↔ db.inbox.Free t (deliveries t).key := by
  unfold TxTable.Free
  rw [h.lockedBy _ ht]

theorem respects_select (ht : (deliveries t).consumerName = name) :
    Respects (LooksSame deliveries name) _
      (selectInboxForUpdate t (deliveries t).key : Sync (InboxDb τ ω) InboxError _) := by
  intro db db' r db₁ h hr
  simp only [selectInboxForUpdate_eq_some, h.view ht, h.free ht] at hr ⊢
  obtain ⟨hrow, rfl, rfl⟩ | ⟨row, hrow, hfree, rfl, rfl⟩ := hr
  · exact ⟨db', .inl ⟨hrow, rfl, rfl⟩, h⟩
  · exact ⟨_, .inr ⟨row, hrow, hfree, rfl, rfl⟩, h.lock t⟩

theorem respects_insert (ht : (deliveries t).consumerName = name) (now : Time) :
    Respects (LooksSame deliveries name) _
      (insertInbox t (deliveries t).key now : Sync (InboxDb τ ω) InboxError _) := by
  intro db db' r db₁ h hr
  simp only [insertInbox_eq_some, h.view ht, h.free ht] at hr ⊢
  obtain ⟨row, hrow, rfl, rfl⟩ | ⟨hrow, hfree, rfl, rfl⟩ := hr
  · exact ⟨db', .inl ⟨row, hrow, rfl, rfl⟩, h⟩
  · exact ⟨_, .inr ⟨hrow, hfree, rfl, rfl⟩, h.write t _⟩

theorem respects_complete (ht : (deliveries t).consumerName = name) (now : Time) :
    Respects (LooksSame deliveries name) _
      (completeInbox t (deliveries t).key now : Sync (InboxDb τ ω) InboxError _) := by
  intro db db' r db₁ h hr
  simp only [completeInbox_eq_some, h.view ht, h.free ht] at hr ⊢
  obtain ⟨hrow, rfl, rfl⟩ | ⟨hrow, hfree, rfl, rfl⟩ := hr
  · exact ⟨db', .inl ⟨hrow, rfl, rfl⟩, h⟩
  · exact ⟨_, .inr ⟨hrow, hfree, rfl, rfl⟩, h.write t _⟩

theorem respects_work (ht : (deliveries t).consumerName = name) (s : ω) :
    Respects (LooksSame deliveries name) _
      (workStatement t s : Sync (InboxDb τ ω) InboxError _) := by
  intro db db' r db₁ h hr
  simp only [workStatement, Sync.modify_apply, Option.some.injEq, Prod.mk.injEq] at hr
  obtain ⟨rfl, rfl⟩ := hr
  refine ⟨_, rfl, ⟨h.own.lockedBy, h.own.pending⟩, ⟨h.own'.lockedBy, h.own'.pending⟩, h.committed,
    h.lockedBy, h.pending, fun t' ht' => ?_, h.commits⟩
  simp only [Function.update_apply, h.work t ht]
  split_ifs
  · rfl
  · exact h.work t' ht'

/-! ### A delivery to another consumer is not seen -/

theorem LooksSame.rollback_other (h : LooksSame deliveries name db db')
    (ht : (deliveries t).consumerName ≠ name) : LooksSame deliveries name (db.rollback t) db' where
  own := h.own.rollback t
  own' := h.own'
  committed := h.committed
  lockedBy k hk := by
    simp only [InboxDb.rollback, TxTable.rollback, if_neg (h.own.no_lock ht hk)]
    exact h.lockedBy k hk
  pending t' ht' := by
    have hne : t' ≠ t := fun he => ht (he ▸ ht')
    simp only [InboxDb.rollback, TxTable.rollback, Function.update_of_ne hne]
    exact h.pending t' ht'
  work t' ht' := by
    have hne : t' ≠ t := fun he => ht (he ▸ ht')
    simp only [InboxDb.rollback, Function.update_of_ne hne]
    exact h.work t' ht'
  commits := h.commits

theorem LooksSame.commit_other (h : LooksSame deliveries name db db')
    (ht : (deliveries t).consumerName ≠ name) : LooksSame deliveries name (db.commit t) db' where
  own := h.own.commit t
  own' := h.own'
  committed k hk := by
    change (db.inbox.view t).row k = _
    rw [TxTable.view, Table.overlay_row_of_none (h.own.no_version ht hk), h.committed k hk]
  lockedBy := (h.rollback_other ht).lockedBy
  pending := (h.rollback_other ht).pending
  work := (h.rollback_other ht).work
  commits := by
    have hc := h.commits
    unfold commitsOf InboxDb.commit at *
    rw [List.filter_append, hc]
    simp [ht]

omit [DecidableEq τ] in
theorem LooksSame.lock_other (h : LooksSame deliveries name db db')
    (ht : (deliveries t).consumerName ≠ name) :
    LooksSame deliveries name { db with inbox := db.inbox.lock t (deliveries t).key } db' where
  own := h.own.lock t
  own' := h.own'
  committed := h.committed
  lockedBy k hk := by
    have hne : k ≠ (deliveries t).key := fun he => ht (by rw [← hk, he]; rfl)
    change (db.inbox.lock t (deliveries t).key).lockedBy k = _
    rw [TxTable.lockedBy_lock_of_ne _ _ hne]
    exact h.lockedBy k hk
  pending := h.pending
  work := h.work
  commits := h.commits

theorem LooksSame.write_other (h : LooksSame deliveries name db db')
    (ht : (deliveries t).consumerName ≠ name) (row : InboxRow) :
    LooksSame deliveries name { db with inbox := db.inbox.write t (deliveries t).key row } db' where
  own := h.own.write t row
  own' := h.own'
  committed := h.committed
  lockedBy := (h.lock_other ht).lockedBy
  pending t' ht' := by
    have hne : t' ≠ t := fun he => ht (he ▸ ht')
    simp only [TxTable.write, Function.update_of_ne hne]
    exact h.pending t' ht'
  work := h.work
  commits := h.commits

theorem unseen_select (ht : (deliveries t).consumerName ≠ name) :
    Unseen (LooksSame deliveries name) _
      (selectInboxForUpdate t (deliveries t).key : Sync (InboxDb τ ω) InboxError _) := by
  intro db db' r db₁ h hr
  obtain ⟨-, -, rfl⟩ | ⟨row, -, -, -, rfl⟩ := selectInboxForUpdate_eq_some.1 hr
  · exact h
  · exact h.lock_other ht

theorem unseen_insert (ht : (deliveries t).consumerName ≠ name) (now : Time) :
    Unseen (LooksSame deliveries name) _
      (insertInbox t (deliveries t).key now : Sync (InboxDb τ ω) InboxError _) := by
  intro db db' r db₁ h hr
  obtain ⟨-, -, -, rfl⟩ | ⟨-, -, -, rfl⟩ := insertInbox_eq_some.1 hr
  · exact h
  · exact h.write_other ht _

theorem unseen_complete (ht : (deliveries t).consumerName ≠ name) (now : Time) :
    Unseen (LooksSame deliveries name) _
      (completeInbox t (deliveries t).key now : Sync (InboxDb τ ω) InboxError _) := by
  intro db db' r db₁ h hr
  obtain ⟨-, -, rfl⟩ | ⟨-, -, -, rfl⟩ := completeInbox_eq_some.1 hr
  · exact h
  · exact h.write_other ht _

theorem unseen_work (ht : (deliveries t).consumerName ≠ name) (s : ω) :
    Unseen (LooksSame deliveries name) _
      (workStatement t s : Sync (InboxDb τ ω) InboxError _) := by
  intro db db' r db₁ h hr
  simp only [workStatement, Sync.modify_apply, Option.some.injEq, Prod.mk.injEq] at hr
  obtain ⟨rfl, rfl⟩ := hr
  refine ⟨⟨h.own.lockedBy, h.own.pending⟩, h.own', h.committed, h.lockedBy, h.pending,
    fun t' ht' => ?_, h.commits⟩
  have hne : t' ≠ t := fun he => ht (he ▸ ht')
  simp only [Function.update_of_ne hne]
  exact h.work t' ht'

/-! ### Whole deliveries -/

/-- What holds of each statement of a delivery holds of the delivery. -/
theorem each_processTransactional {A : ∀ β : Type, (InboxDb τ ω → Option (β × InboxDb τ ω)) → Prop}
    (hstatement : ∀ {β : Type} (fate : Fate) (s : Sync (InboxDb τ ω) InboxError β), A _ s →
      A _ ((inboxTx t).statement fate s))
    (hpure : A _ (pure () : Sync (InboxDb τ ω) InboxError Unit))
    (hselect : A _ (selectInboxForUpdate t (deliveries t).key : Sync (InboxDb τ ω) InboxError _))
    (hinsert : ∀ now, A _ (insertInbox t (deliveries t).key now : Sync _ InboxError _))
    (hwork : ∀ s, A _ (workStatement t s : Sync (InboxDb τ ω) InboxError _))
    (hcomplete : ∀ now, A _ (completeInbox t (deliveries t).key now : Sync _ InboxError _))
    (hcommit : ∀ fate, A _ ((inboxTx t).commitTx fate : Sync (InboxDb τ ω) InboxError _))
    (hrollback : ∀ fate, A _ ((inboxTx t).rollbackTx fate : Sync (InboxDb τ ω) InboxError _)) :
    (processTransactional t (deliveries t)).Each A := by
  have heffect : ∀ (rest : List ω) (n : ℕ), (runSideEffect t (deliveries t) n rest).Each A := by
    intro rest
    induction rest with
    | nil =>
      intro n
      unfold runSideEffect
      split_ifs
      · exact Async.each_throw _
      · exact Async.each_pure _
    | cons s rest ih =>
      intro n
      unfold runSideEffect
      rcases (deliveries t).onEffect n with _ | fate
      · exact Async.each_throw _
      · exact Async.each_bind (Async.each_await (hstatement fate _ (hwork s))) fun _ => ih (n + 1)
  have hrest : ((do
      runSideEffect t (deliveries t) 0 (deliveries t).sideEffect
      Async.await ((inboxTx t).statement (deliveries t).onComplete
        (completeInbox t (deliveries t).key (deliveries t).now))
      Async.await ((inboxTx t).commitTx (deliveries t).onCommit)
      pure (deliveries t).processed) :
        Async (InboxDb τ ω) InboxError ConsumerExecutionResult).Each A := by
    refine Async.each_bind (heffect _ 0) fun _ => ?_
    refine Async.each_bind (Async.each_await (hstatement _ _ (hcomplete _))) fun _ => ?_
    exact Async.each_bind (Async.each_await (hcommit _)) fun _ => Async.each_pure _
  unfold processTransactional
  refine Async.each_tryCatch ?_ fun e =>
    Async.each_bind (Async.each_await (hrollback _)) fun _ => Async.each_throw e
  refine Async.each_bind (Async.each_await (hstatement _ _ hpure)) fun _ => ?_
  refine Async.each_bind (Async.each_await (hstatement _ _ hselect)) fun existing => ?_
  split_ifs
  · exact Async.each_bind (Async.each_await (hrollback _)) fun _ => Async.each_pure _
  · exact Async.each_bind (Async.each_await (hstatement _ _ (hinsert _))) fun _ => hrest
  · exact hrest

omit [DecidableEq τ] in
theorem respects_pure {E : InboxDb τ ω → InboxDb τ ω → Prop} :
    Respects E _ (pure () : Sync (InboxDb τ ω) InboxError Unit) := by
  intro db db' r db₁ h hr
  simp only [Sync.pure_apply, Option.some.injEq, Prod.mk.injEq] at hr
  obtain ⟨rfl, rfl⟩ := hr
  exact ⟨db', rfl, h⟩

omit [DecidableEq τ] in
theorem unseen_pure {E : InboxDb τ ω → InboxDb τ ω → Prop} :
    Unseen E _ (pure () : Sync (InboxDb τ ω) InboxError Unit) := by
  intro db db' r db₁ h hr
  simp only [Sync.pure_apply, Option.some.injEq, Prod.mk.injEq] at hr
  exact hr.2 ▸ h

theorem respects_processTransactional (ht : (deliveries t).consumerName = name) :
    (processTransactional t (deliveries t)).Each (Respects (LooksSame deliveries name)) :=
  each_processTransactional
    (fun _ _ hs => respects_statement hs fun _ _ h => h.rollback t) respects_pure
    (respects_select ht) (respects_insert ht) (respects_work ht) (respects_complete ht)
    (fun _ => respects_commitTx (fun _ _ h => h.commit ht) fun _ _ h => h.rollback t)
    fun _ => respects_rollbackTx fun _ _ h => h.rollback t

theorem unseen_processTransactional (ht : (deliveries t).consumerName ≠ name) :
    (processTransactional t (deliveries t)).Each (Unseen (LooksSame deliveries name)) :=
  each_processTransactional
    (fun _ _ hs => unseen_statement hs fun _ _ h => h.rollback_other ht) unseen_pure
    (unseen_select ht) (unseen_insert ht) (unseen_work ht) (unseen_complete ht)
    (fun _ => unseen_commitTx (fun _ _ h => h.commit_other ht) fun _ _ h => h.rollback_other ht)
    fun _ => unseen_rollbackTx fun _ _ h => h.rollback_other ht

end Consumers

/-! ## Runs -/

section Runs

variable {deliveries}

omit [DecidableEq τ] in
theorem inboxInv_empty : InboxInv deliveries (.empty : InboxDb τ ω) :=
  ⟨TxTable.locked_ofTable _, fun k row h => by simp [InboxDb.empty, TxTable.ofTable] at h,
    fun k => rfl, fun p hp => by simp [InboxDb.empty] at hp⟩

omit [DecidableEq τ] in
theorem unclaimed_empty (t : τ) : Unclaimed deliveries t (.empty : InboxDb τ ω) where
  inv := inboxInv_empty
  pending := rfl
  work := rfl
  uncommitted := by
    rintro ⟨ws, h⟩
    cases h

omit [DecidableEq τ] in
theorem looksSame_empty (name : String) :
    LooksSame deliveries name (.empty : InboxDb τ ω) .empty := by
  have hown : OwnKeys deliveries (.empty : InboxDb τ ω) :=
    ⟨fun t k h => (by cases h), fun t k row h => (by cases h)⟩
  exact ⟨hown, hown, fun _ _ => rfl, fun _ _ => rfl, fun _ _ => rfl, fun _ _ => rfl, rfl⟩

omit [DecidableEq τ] in
theorem commitsFor_length_eq_one {db : InboxDb τ ω} (h : InboxInv deliveries db) {t : τ}
    (hc : HasCommitted t db) : (commitsFor deliveries (deliveries t).key db).length = 1 := by
  obtain ⟨ws, hws⟩ := hc
  have hmem : (t, ws) ∈ commitsFor deliveries (deliveries t).key db := by
    simp [commitsFor, hws]
  have hpos := List.length_pos_of_mem hmem
  have hone := h.once (deliveries t).key
  split_ifs at hone <;> omega

/-- Any deliveries, interleaved statement by statement in any way, each failing where it may. For
every event and consumer the side effect is committed at most once, and it is exactly where some
delivery returned PROCESSED, or had its COMMIT take effect and then crashed or lost the answer; and
the deliveries to one consumer do not disturb another. -/
theorem consumed_effectively_once (deliveries : τ → Delivery ω) {is : List τ}
    {c : Config τ (InboxDb τ ω) InboxError ConsumerExecutionResult}
    (hrun : (inboxCalls deliveries).runSchedule is = some c) :
    (∀ k, EffectivelyOnce deliveries c k) ∧ ∀ name, Undisturbed deliveries is c name := by
  have hreach := Config.reach_of_runSchedule is hrun
  have hRG : ∀ i j : τ, i ≠ j → ∀ db db' : InboxDb τ ω, InboxGuarantee deliveries j db db' →
      InboxRely deliveries i db db' := fun i j hij db db' hG => ⟨j, hij, hG⟩
  have hsafe : ∀ t, Safe (InboxRely deliveries t) (InboxGuarantee deliveries t)
      (Consumed deliveries t) ((inboxCalls deliveries).thread t) (inboxCalls deliveries).world :=
    fun t => consumes_processTransactional (unclaimed_empty t)
  have hinv : InboxInv deliveries c.world := Safe.invariant hRG hsafe hreach
    (fun t db db' h hG => hG.inv h) inboxInv_empty
  have hended : ∀ t r, (c.thread t).result = some r → Consumed deliveries t r c.world :=
    fun t r => Safe.ended hRG hsafe hreach
  refine ⟨fun k => ⟨?_, ⟨fun hone => ?_, ?_⟩, ?_, ?_, ?_⟩, fun name => ?_⟩
  · rw [hinv.once k]
    split_ifs <;> omega
  · have hpos : 0 < (commitsFor deliveries k c.world).length := by omega
    obtain ⟨⟨t, ws⟩, hp⟩ := List.exists_mem_of_length_pos hpos
    simp only [commitsFor, List.mem_filter, decide_eq_true_eq] at hp
    have hc : HasCommitted t c.world := ⟨ws, hp.1⟩
    refine ⟨t, hp.2, ?_⟩
    rcases hres : (c.thread t).result with _ | e | a
    · exact .inr ⟨hc, .inl rfl⟩
    · exact .inr ⟨hc, .inr ((hended t _ hres).lost hc)⟩
    · rcases hended t _ hres with ⟨rfl, -⟩ | ⟨-, hs⟩
      · exact .inl rfl
      · exact absurd hc hs.uncommitted
  · rintro ⟨t, rfl, hres | ⟨hc, -⟩⟩
    · rcases hended t _ hres with ⟨-, -, hc⟩ | ⟨hne, -⟩
      · exact commitsFor_length_eq_one hinv hc
      · simp [Delivery.processed, Delivery.duplicateSkipped] at hne
    · exact commitsFor_length_eq_one hinv hc
  · rintro t rfl hres
    rcases hended t _ hres with ⟨hne, -⟩ | ⟨-, hs⟩
    · simp [Delivery.processed, Delivery.duplicateSkipped] at hne
    · have hpos := List.length_pos_of_ne_nil hs.before
      have hone := hinv.once (deliveries t).key
      split_ifs at hone <;> omega
  · intro p hp
    exact hinv.whole p (List.mem_of_mem_filter hp)
  · exact hinv.completed k
  · have hsame : Config.SameTo (LooksSame deliveries name)
        (fun t => (deliveries t).consumerName = name) (inboxCalls deliveries)
        (inboxCalls deliveries) :=
      ⟨looksSame_empty name, fun _ _ => rfl, fun t ht => respects_processTransactional ht,
        fun t ht => unseen_processTransactional ht⟩
    obtain ⟨c', hc', h'⟩ := Config.runSchedule_filter is hsame hrun
    exact ⟨c', hc', h'.thread, h'.world.commits.symm,
      fun eventId => (h'.world.committed ⟨eventId, name⟩ rfl).symm⟩

end Runs

/-- Two deliveries of one event to a consumer, and one to another consumer. -/
def sampleDeliveries (t : Fin 3) : Delivery String where
  eventId := "evt"
  consumerName := if t.val = 2 then "analytics" else "email"
  sideEffect := ["insert ticket", "insert audit"]
  now := 0
  onBegin := .answered
  onSelect := .answered
  onInsert := .answered
  onEffect _ := some .answered
  onComplete := .answered
  onCommit := if t.val = 0 then .answerLost else .answered
  onRollback := .answered
  onCatch := .answered

/-- Both deliveries find no row, and one of them inserts it. Its COMMIT takes effect, and its answer
is lost; the other one's INSERT has waited, and fails. -/
theorem consumed_effectively_once_sample :
    ∃ c, (inboxCalls sampleDeliveries).runSchedule
        [0, 1, 2, 0, 1, 0, 2, 0, 2, 0, 0, 2, 0, 1, 1, 2, 0, 2, 2] = some c
      ∧ (∀ k, EffectivelyOnce sampleDeliveries c k)
      ∧ (∀ name, Undisturbed sampleDeliveries
        [0, 1, 2, 0, 1, 0, 2, 0, 2, 0, 0, 2, 0, 1, 1, 2, 0, 2, 2] c name)
      ∧ (commitsFor sampleDeliveries ⟨"evt", "email"⟩ c.world).map Prod.fst = [0]
      ∧ (c.thread 1).result = some (.error .duplicateKey) := by
  have hsome : ((inboxCalls sampleDeliveries).runSchedule
    [0, 1, 2, 0, 1, 0, 2, 0, 2, 0, 0, 2, 0, 1, 1, 2, 0, 2, 2]).isSome := by decide
  have hrun := Option.eq_some_of_isSome hsome
  obtain ⟨h1, h2⟩ := consumed_effectively_once sampleDeliveries hrun
  exact ⟨_, hrun, h1, h2, rfl, rfl⟩

end LaunchPad
