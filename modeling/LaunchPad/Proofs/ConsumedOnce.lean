import LaunchPad.DeadLetter
import LaunchPad.Lib.Protocol
import LaunchPad.Proofs.Inbox

/-!
# Retries do not repeat a side effect

An attempt of `consume` may fail with its COMMIT in effect, and the next one then finds the row of
the first COMPLETED. Between two attempts a delivery has no version and no work of its own, and
where it has succeeded the row of its key is committed, by it or by another (`ConsumedInv`).
-/

namespace LaunchPad

open Interleave Rows

variable {τ ω : Type} [DecidableEq τ]

/-- Where a delivery stands: it has changed nothing since its last transaction, it has the key of
its delivery, the key is committed, or the event is put aside. -/
inductive ConsumePhase (ω : Type)
  | idle
  | claimed (row : InboxRow) (work : List ω)
  | settled
  | diverted (errorMessage : String) (attempts : ℕ)

/-- What the inbox has of a transaction in such a phase. -/
def ConsumePhase.Fits (k : InboxKey) (t : τ) : ConsumePhase ω → InboxDb τ ω → Prop
  | .claimed row work, db => db.inbox.pending t = Table.empty.set k row
    ∧ db.inbox.committed.row k = none ∧ db.work t = work
  | .settled, db => db.inbox.pending t = .empty ∧ db.work t = []
    ∧ (db.inbox.committed.row k).isSome
  | _, db => db.inbox.pending t = .empty ∧ db.work t = []

/-- The inbox, and what each delivery knows of it. -/
structure ConsumedInv (ds : τ → Delivery ω) (φ : τ → ConsumePhase ω) (db : InboxDb τ ω) : Prop where
  inbox : InboxInv ds db
  fits : ∀ t, (φ t).Fits (ds t).key t db

section Statements

variable {ds : τ → Delivery ω} {φ : τ → ConsumePhase ω} {t : τ} {db db' : InboxDb τ ω}
  {s s' : ConsumePhase ω}

omit [DecidableEq τ] in
/-- A row is committed just if a side effect has been. -/
theorem InboxInv.isSome_iff (h : InboxInv ds db) (k : InboxKey) :
    (db.inbox.committed.row k).isSome ↔ commitsFor ds k db ≠ [] := by
  have hone := h.once k
  rw [← List.length_pos_iff, hone]
  split_ifs with hk <;> simp [hk]

omit [DecidableEq τ] in
theorem InboxGuarantee.isSome (hG : InboxGuarantee ds t db db') (h : InboxInv ds db) {k : InboxKey}
    (hk : (db.inbox.committed.row k).isSome) : (db'.inbox.committed.row k).isSome := by
  rw [(hG.inv h).isSome_iff]
  rw [h.isSome_iff] at hk
  unfold commitsFor at *
  rcases hG.commits with hc | hc <;> rw [hc]
  · exact hk
  · rw [List.filter_append]
    exact List.append_ne_nil_of_left_ne_nil hk _

/-- A statement of one delivery leaves what the others know. -/
theorem ConsumedInv.update (h : ConsumedInv ds φ db) (hG : InboxGuarantee ds t db db')
    (hfits : s'.Fits (ds t).key t db') : ConsumedInv ds (Function.update φ t s') db' := by
  refine ⟨hG.inv h.inbox, fun t' => ?_⟩
  rcases eq_or_ne t' t with rfl | ht
  · rwa [Function.update_self]
  rw [Function.update_of_ne ht]
  have hpending := hG.inbox.pending t' ht
  have hwork := hG.work t' ht
  have hold := h.fits t'
  rcases hφ : φ t' with _ | ⟨row, work⟩ | _ | ⟨e, n⟩ <;> rw [hφ] at hold
  · exact ⟨hpending.trans hold.1, hwork.trans hold.2⟩
  · have hlock : db.inbox.lockedBy (ds t').key = some t' :=
      h.inbox.locked t' _ row (by rw [hold.1, Table.set_row_self])
    exact ⟨hpending.trans hold.1, (hG.inbox.committed _ t' ht hlock).trans hold.2.1,
      hwork.trans hold.2.2⟩
  · exact ⟨hpending.trans hold.1, hwork.trans hold.2.1, hG.isSome h.inbox hold.2.2⟩
  · exact ⟨hpending.trans hold.1, hwork.trans hold.2⟩

/-- What is committed anew is of `t`. -/
def CommitsOnly (t : τ) (db db' : InboxDb τ ω) : Prop :=
  ∀ p ∈ db'.commits, p ∈ db.commits ∨ p.1 = t

/-- The segment keeps what is known, and takes the delivery from one phase to the other. -/
def KeepsConsumed (ds : τ → Delivery ω) (t : τ) (s : ConsumePhase ω) (db db' : InboxDb τ ω)
    (s' : ConsumePhase ω) : Prop :=
  (∀ e n, s' ≠ .diverted e n)
    ∧ ∀ φ, φ t = s → ConsumedInv ds φ db →
      ConsumedInv ds (Function.update φ t s') db' ∧ CommitsOnly t db db'

theorem keeps_of_fits (hs' : ∀ e n, s' ≠ .diverted e n)
    (h : ∀ φ, φ t = s → ConsumedInv ds φ db →
      InboxGuarantee ds t db db' ∧ s'.Fits (ds t).key t db') :
    KeepsConsumed ds t s db db' s' := by
  refine ⟨hs', fun φ hφ hinv => ?_⟩
  obtain ⟨hG, hfits⟩ := h φ hφ hinv
  refine ⟨hinv.update hG hfits, fun p hp => ?_⟩
  rcases hG.commits with hc | hc <;> rw [hc] at hp
  · exact .inl hp
  · exact (List.mem_append.1 hp).imp_right fun hp => by rw [List.mem_singleton.1 hp]

theorem keeps_inbox_rollback : KeepsConsumed ds t s db (db.rollback t) .idle :=
  keeps_of_fits nofun fun _ _ _ => ⟨inbox_rollback t db, TxTable.rollback_pending_self _ t,
    Function.update_self ..⟩

theorem rollbackTx_world {fate : Fate} {r : Except InboxError Unit}
    (h : (inboxTx t).rollbackTx fate db = some (r, db')) : db' = db.rollback t := by
  have hwp : ((inboxTx t).rollbackTx fate).wp (fun _ db' => db' = db.rollback t) db :=
    TxEnds.wp_rollbackTx fun _ => rfl
  exact hwp r db' h

/-- What is settled stays so when the transaction ends. -/
theorem keeps_settled : KeepsConsumed ds t .settled db (db.rollback t) .settled := by
  refine keeps_of_fits nofun fun φ hφ hinv => ⟨inbox_rollback t db, ?_⟩
  have hfits := hinv.fits t
  rw [hφ] at hfits
  exact ⟨TxTable.rollback_pending_self _ t, Function.update_self .., hfits.2.2⟩

theorem KeepsConsumed.trans {db'' : InboxDb τ ω} {s'' : ConsumePhase ω}
    (h : KeepsConsumed ds t s db db' s') (h' : KeepsConsumed ds t s' db' db'' s'') :
    KeepsConsumed ds t s db db'' s'' := by
  refine ⟨h'.1, fun φ hφ hinv => ?_⟩
  obtain ⟨hinv', hc⟩ := h.2 φ hφ hinv
  obtain ⟨hinv'', hc'⟩ := h'.2 _ (Function.update_self ..) hinv'
  rw [Function.update_idem] at hinv''
  exact ⟨hinv'', fun p hp => (hc' p hp).elim (hc p) .inr⟩

/-- A statement answers, or leaves its transaction rolled back. -/
theorem keeps_inbox_statement {β : Type} {K : β → ConsumePhase ω → Prop} {fate : Fate}
    {x : Sync (InboxDb τ ω) InboxError β}
    (hx : ∀ db r db', x db = some (r, db') → ∃ s', KeepsConsumed ds t s db db' s'
      ∧ ∀ b, r = .ok b → K b s') {db : InboxDb τ ω} {r : Except InboxError β} {db' : InboxDb τ ω}
    (h : (inboxTx t).statement fate x db = some (r, db')) :
    ∃ s', KeepsConsumed ds t s db db' s' ∧ ∀ b, r = .ok b → K b s' := by
  unfold TxEnds.statement at h
  rcases fate with _ | _ | _
  · rcases hxdb : x db with _ | ⟨e | b, db₁⟩ <;> rw [hxdb] at h <;>
      simp only [reduceCtorEq, Option.some.injEq, Prod.mk.injEq] at h <;> obtain ⟨rfl, rfl⟩ := h
    · obtain ⟨s₁, hk, -⟩ := hx db _ _ hxdb
      exact ⟨.idle, hk.trans keeps_inbox_rollback, nofun⟩
    · exact hx db _ _ hxdb
  · simp only [Option.some.injEq, Prod.mk.injEq] at h
    obtain ⟨rfl, rfl⟩ := h
    exact ⟨.idle, keeps_inbox_rollback, nofun⟩
  · simp only [Option.some.injEq, Prod.mk.injEq] at h
    obtain ⟨rfl, rfl⟩ := h
    exact ⟨.idle, keeps_inbox_rollback, by simp⟩

theorem keeps_refl (hs : ∀ e n, s ≠ .diverted e n) : KeepsConsumed ds t s db db s :=
  ⟨hs, fun φ hφ hinv => ⟨by rwa [← hφ, Function.update_eq_self], fun _ => .inl⟩⟩

/-- The SELECT of a transaction that has changed nothing sees the committed row, which is COMPLETED
if there is one. -/
theorem keeps_select (row₀ : InboxRow) {r : Except InboxError (Option InboxStatus)}
    (h : selectInboxForUpdate t (ds t).key db = some (r, db')) :
    ∃ s', KeepsConsumed ds t .idle db db' s' ∧ ∀ existing, r = .ok existing →
      existing = none ∧ s' = .idle ∨ existing = some .completed ∧ s' = .settled
        ∨ existing ≠ none ∧ existing ≠ some .completed ∧ s' = .claimed row₀ [] := by
  rcases selectInboxForUpdate_eq_some.1 h with ⟨-, rfl, rfl⟩ | ⟨row, hrow, hfree, rfl, rfl⟩
  · exact ⟨.idle, keeps_refl (by simp), fun _ he => .inl ⟨(Except.ok.inj he).symm, rfl⟩⟩
  have hcommitted : ∀ φ : τ → ConsumePhase ω, φ t = .idle → ConsumedInv ds φ db →
      db.inbox.committed.row (ds t).key = some row := by
    intro φ hφ hinv
    have hfits := hinv.fits t
    rw [hφ] at hfits
    rwa [TxTable.view, hfits.1, Table.overlay_empty] at hrow
  by_cases hcompleted : row.status = .completed
  · refine ⟨.settled, keeps_of_fits (by simp) fun φ hφ hinv => ⟨?_, ?_⟩,
      fun _ he => .inr (.inl ⟨by rw [← Except.ok.inj he, hcompleted], rfl⟩)⟩
    · exact inbox_local (TxTable.frame_lock hfree) (fun hL => TxTable.locked_lock hL hfree) rfl
    · have hfits := hinv.fits t
      rw [hφ] at hfits
      exact ⟨hfits.1, hfits.2, by rw [TxTable.lock_committed, hcommitted φ hφ hinv]; rfl⟩
  · refine ⟨.claimed row₀ [], ⟨by simp, fun φ hφ hinv => ?_⟩, fun _ he => .inr (.inr ?_)⟩
    · exact absurd (hinv.inbox.completed _ row (hcommitted φ hφ hinv)) hcompleted
    · rw [← Except.ok.inj he]
      exact ⟨by simp, by simpa using hcompleted, rfl⟩

theorem keeps_insert {now : Time} {r : Except InboxError Unit}
    (h : insertInbox t (ds t).key now db = some (r, db')) :
    ∃ s', KeepsConsumed ds t .idle db db' s'
      ∧ ∀ u, r = .ok u → s' = .claimed ⟨.processing, now⟩ [] := by
  rcases insertInbox_eq_some.1 h with ⟨row, -, rfl, rfl⟩ | ⟨hrow, hfree, rfl, rfl⟩
  · exact ⟨.idle, keeps_refl (by simp), by simp⟩
  · refine ⟨.claimed ⟨.processing, now⟩ [], keeps_of_fits (by simp) fun φ hφ hinv => ⟨?_, ?_⟩,
      fun _ _ => rfl⟩
    · exact inbox_local (TxTable.frame_write hfree _) (fun hL => TxTable.locked_write hL hfree _)
        rfl
    · have hfits := hinv.fits t
      rw [hφ] at hfits
      rw [TxTable.view, hfits.1, Table.overlay_empty] at hrow
      exact ⟨by rw [TxTable.write_pending_self, hfits.1], hrow, hfits.2⟩

theorem keeps_work {row : InboxRow} {work : List ω} {s : ω} {r : Except InboxError Unit}
    (h : workStatement t s db = some (r, db')) :
    KeepsConsumed ds t (.claimed row work) db db' (.claimed row (work ++ [s])) := by
  simp only [workStatement, Sync.modify_apply, Option.some.injEq, Prod.mk.injEq] at h
  obtain ⟨-, rfl⟩ := h
  refine keeps_of_fits (by simp) fun φ hφ hinv => ⟨⟨.refl t _, fun t' ht =>
    Function.update_of_ne ht _ _, .inl rfl, fun h => ⟨h.locked, h.completed, h.once, h.whole⟩⟩, ?_⟩
  have hfits := hinv.fits t
  rw [hφ] at hfits
  exact ⟨hfits.1, hfits.2.1, by simp [hfits.2.2]⟩

theorem keeps_complete {row : InboxRow} {work : List ω} {now : Time} {r : Except InboxError Unit}
    (h : completeInbox t (ds t).key now db = some (r, db')) :
    KeepsConsumed ds t (.claimed row work) db db' (.claimed ⟨.completed, now⟩ work) := by
  refine keeps_of_fits (by simp) fun φ hφ hinv => ?_
  have hfits := hinv.fits t
  rw [hφ] at hfits
  obtain ⟨hpending, habsent, hwork⟩ := hfits
  rcases completeInbox_eq_some.1 h with ⟨hrow, -⟩ | ⟨-, hfree, -, rfl⟩
  · rw [TxTable.view, Table.overlay_row, hpending, Table.set_row_self] at hrow
    cases hrow
  · refine ⟨inbox_local (TxTable.frame_write hfree _)
      (fun hL => TxTable.locked_write hL hfree _) rfl, ?_, habsent, hwork⟩
    rw [TxTable.write_pending_self, hpending]
    ext1 k
    simp only [Table.set_row]
    split_ifs <;> rfl

/-- The COMMIT of a delivery whose work is done. -/
theorem keeps_inbox_commit {now : Time} (hs' : s' = .settled ∨ s' = .idle) :
    KeepsConsumed ds t (.claimed ⟨.completed, now⟩ (ds t).sideEffect) db (db.commit t) s' := by
  refine keeps_of_fits (by rcases hs' with rfl | rfl <;> simp) fun φ hφ hinv => ?_
  have hfits := hinv.fits t
  rw [hφ] at hfits
  have hclaimed : Claimed ds t ⟨.completed, now⟩ (ds t).sideEffect db := by
    refine ⟨hinv.inbox, hfits.1, hfits.2.1, hfits.2.2, fun ⟨ws, hws⟩ => ?_⟩
    have hrow := (hinv.inbox.isSome_iff (ds t).key).2 (List.ne_nil_of_mem
      (List.mem_filter.2 ⟨hws, by simp⟩))
    rw [hfits.2.1] at hrow
    cases hrow
  refine ⟨⟨TxTable.frame_commit hinv.inbox.locked t, fun t' ht => Function.update_of_ne ht _ _,
    .inr rfl, fun _ => inboxInv_commit hclaimed⟩, ?_⟩
  have hpending : (db.commit t).inbox.pending t = .empty := TxTable.commit_pending_self _ t
  have hwork : (db.commit t).work t = [] := Function.update_self ..
  rcases hs' with rfl | rfl
  · refine ⟨hpending, hwork, ?_⟩
    change ((db.inbox.view t).row (ds t).key).isSome
    rw [TxTable.view, Table.overlay_row, hfits.1, Table.set_row_self]
    rfl
  · exact ⟨hpending, hwork⟩

end Statements

/-! ## Attempts -/

section Attempts

variable {ds : τ → Delivery ω} {t : τ} {d : Delivery ω}

/-- The program keeps what is known, and what it returns fits its phase. -/
def Consumes (ds : τ → Delivery ω) (t : τ) {α : Type} (K : α → ConsumePhase ω → Prop)
    (p : Async (InboxDb τ ω) InboxError α) (s : ConsumePhase ω) : Prop :=
  Follows (KeepsConsumed ds t) (fun r s => ∀ a, r = .ok a → K a s) p s

theorem consumes_statement {α β : Type} {K : β → ConsumePhase ω → Prop}
    {K' : α → ConsumePhase ω → Prop} {s : ConsumePhase ω} {fate : Fate}
    {x : Sync (InboxDb τ ω) InboxError β} {f : β → Async (InboxDb τ ω) InboxError α}
    (hx : ∀ db r db', x db = some (r, db') → ∃ s', KeepsConsumed ds t s db db' s'
      ∧ ∀ b, r = .ok b → K b s')
    (hf : ∀ b s', K b s' → Consumes ds t K' (f b) s') :
    Consumes ds t K' (Async.await ((inboxTx t).statement fate x) >>= f) s :=
  Follows.await_bind (K := fun r s => ∀ b, r = .ok b → K b s)
    (fun _ _ _ h => keeps_inbox_statement hx h) (fun b s' h => hf b s' (h b rfl))
    fun _ _ _ => by simp

theorem consumes_runSideEffect (row : InboxRow) : ∀ (rest work : List ω) (n : ℕ),
    Consumes ds t (fun _ s => s = .claimed row (work ++ rest)) (runSideEffect t d n rest)
      (.claimed row work)
  | [], work, n => by
    unfold runSideEffect
    split_ifs
    · exact Follows.throw (by simp)
    · exact Follows.pure fun _ _ => by rw [List.append_nil]
  | s :: rest, work, n => by
    unfold runSideEffect
    rcases d.onEffect n with _ | fate
    · exact Follows.throw (by simp)
    · refine consumes_statement (K := fun _ s' => s' = .claimed row (work ++ [s]))
        (fun _ _ _ h => ⟨_, keeps_work h, fun _ _ => rfl⟩) ?_
      rintro u s' rfl
      have hrest := consumes_runSideEffect row rest (work ++ [s]) (n + 1)
      rwa [List.append_assoc] at hrest

/-- The rest of an attempt, once the key is claimed. -/
theorem consumes_claimed (hkey : d.key = (ds t).key) (heffect : d.sideEffect = (ds t).sideEffect)
    (row : InboxRow) : Consumes ds t (fun _ s => s = .settled)
      (do
        runSideEffect t d 0 d.sideEffect
        Async.await ((inboxTx t).statement d.onComplete (completeInbox t d.key d.now))
        Async.await ((inboxTx t).commitTx d.onCommit)
        pure d.processed) (.claimed row []) := by
  refine Follows.bind (consumes_runSideEffect row d.sideEffect [] 0) ?_ fun _ _ _ => nofun
  intro u s hs
  obtain rfl := hs u rfl
  rw [hkey, List.nil_append, heffect]
  refine consumes_statement (K := fun _ s => s = .claimed ⟨.completed, d.now⟩ (ds t).sideEffect)
    (fun _ _ _ h => ⟨_, keeps_complete h, fun _ _ => rfl⟩) ?_
  rintro u s rfl
  refine Follows.await_bind (K := fun r s => ∀ u, r = .ok u → s = .settled) (fun db r db' h => ?_)
    (fun u s hs => Follows.pure fun _ _ => hs u rfl) fun _ _ _ => nofun
  unfold TxEnds.commitTx at h
  rcases hf : d.onCommit with _ | _ | _ <;> rw [hf] at h <;>
    simp only [Option.some.injEq, Prod.mk.injEq] at h <;> obtain ⟨rfl, rfl⟩ := h
  · exact ⟨.settled, keeps_inbox_commit (.inl rfl), fun _ _ => rfl⟩
  · exact ⟨.idle, keeps_inbox_rollback, nofun⟩
  · exact ⟨.idle, keeps_inbox_commit (.inr rfl), nofun⟩

/-- An attempt that returns has the key committed, and one that throws leaves nothing behind. -/
theorem follows_processTransactional (hkey : d.key = (ds t).key)
    (heffect : d.sideEffect = (ds t).sideEffect) :
    Follows (KeepsConsumed ds t) (fun r s => match r with
        | .ok _ => s = .settled
        | .error _ => s = .idle) (processTransactional t d) .idle := by
  unfold processTransactional
  refine Follows.tryCatch (K := fun r s => ∀ a, r = .ok a → s = .settled) ?_
    (fun a s h => h a rfl) fun e s _ => ?_
  · refine consumes_statement (K := fun _ s => s = .idle) (fun db r db' h => ?_) ?_
    · simp only [Sync.pure_apply, Option.some.injEq, Prod.mk.injEq] at h
      exact ⟨.idle, h.2 ▸ keeps_refl nofun, fun _ _ => rfl⟩
    rintro u s rfl
    rw [hkey]
    refine consumes_statement (fun _ _ _ h => keeps_select ⟨.processing, d.now⟩ h) ?_
    rintro existing s (⟨rfl, rfl⟩ | ⟨rfl, rfl⟩ | ⟨hsome, hcompleted, rfl⟩)
    · rw [if_neg (by simp), if_pos rfl]
      refine consumes_statement (fun _ _ _ h => keeps_insert h) ?_
      rintro u s rfl
      have hrest := consumes_claimed hkey heffect ⟨.processing, d.now⟩
      rwa [hkey] at hrest
    · rw [if_pos rfl]
      refine Follows.await_bind (K := fun r s => s = .settled) (fun db r db' h => ?_)
        (fun u s hs => Follows.pure fun _ _ => hs) fun _ _ _ => nofun
      exact ⟨.settled, rollbackTx_world h ▸ keeps_settled, rfl⟩
    · rw [if_neg hcompleted, if_neg hsome]
      have hrest := consumes_claimed hkey heffect ⟨.processing, d.now⟩
      rwa [hkey] at hrest
  · exact Follows.await_bind (K := fun _ s => s = .idle)
      (fun db r db' h => ⟨.idle, rollbackTx_world h ▸ keeps_inbox_rollback, rfl⟩)
      (fun u s hs => Follows.throw hs) fun _ _ hs => hs

end Attempts

/-! ## Deliveries -/

/-- Every attempt at the delivery is at the same side effect, for the same event and consumer. -/
structure ResilientDelivery.Steady (d : ResilientDelivery ω) : Prop where
  key : ∀ n, (d.attempt n).key = ⟨d.eventId, d.consumerName⟩
  sideEffect : ∀ n, (d.attempt n).sideEffect = (d.attempt 1).sideEffect

/-- The dead letter of the delivery. -/
def ResilientDelivery.letter (d : ResilientDelivery ω) (errorMessage : String) (attempts : ℕ) :
    DeadLetterRow := ⟨d.eventId, d.consumerName, errorMessage, attempts, .dead⟩

/-- The deliveries, as their first attempts. -/
def firstAttempts (deliveries : τ → ResilientDelivery ω) (t : τ) : Delivery ω :=
  (deliveries t).attempt 1

/-- The inbox, and the dead letters of those that have put their event aside. -/
structure ConsumerInv (deliveries : τ → ResilientDelivery ω) (φ : τ → ConsumePhase ω)
    (v : ConsumerDb τ ω) : Prop where
  inbox : ConsumedInv (firstAttempts deliveries) φ v.inbox
  letters : ∀ t e n, φ t = .diverted e n →
    v.deadLetters.row (deliveries t).deadLetterId = some ((deliveries t).letter e n)

/-- What `consume` has returned, or thrown. -/
def ConsumeEnds (d : ResilientDelivery ω) : Except InboxError ConsumeResult → ConsumePhase ω → Prop
  | .ok a, s => a.status = .success ∧ s = .settled
    ∨ a.status = .dlqDiverted ∧ a.deadLetterId = some d.deadLetterId
      ∧ ∃ e, s = .diverted e a.attempts
  | .error e, _ => d.onMove ≠ .answered ∨ e = .duplicateKey

section Consume

variable {deliveries : τ → ResilientDelivery ω} {t : τ} {v v' : ConsumerDb τ ω}

def KeepsConsumer (deliveries : τ → ResilientDelivery ω) (t : τ) (s : ConsumePhase ω)
    (v v' : ConsumerDb τ ω) (s' : ConsumePhase ω) : Prop :=
  ∀ φ, φ t = s → ConsumerInv deliveries φ v →
    ConsumerInv deliveries (Function.update φ t s') v' ∧ CommitsOnly t v.inbox v'.inbox

/-- Where the deliveries' dead letters are is known by the phases that are theirs alone. -/
theorem ConsumerInv.letters_update {φ : τ → ConsumePhase ω} {s' : ConsumePhase ω}
    (h : ConsumerInv deliveries φ v) (hs' : ∀ e n, s' ≠ .diverted e n) (t' : τ) (e : String) (n : ℕ)
    (he : Function.update φ t s' t' = .diverted e n) :
    v.deadLetters.row (deliveries t').deadLetterId = some ((deliveries t').letter e n) := by
  rcases eq_or_ne t' t with rfl | ht
  · rw [Function.update_self] at he
    exact absurd he (hs' e n)
  · rw [Function.update_of_ne ht] at he
    exact h.letters t' e n he

theorem follows_action (hsteady : (deliveries t).Steady) (n : ℕ) :
    Follows (KeepsConsumer deliveries t) (fun r s => match r with
        | .ok _ => s = .settled
        | .error _ => s = .idle) ((consumeEnv t (deliveries t)).action n) .idle := by
  have hattempt : Follows (KeepsConsumed (firstAttempts deliveries) t) (fun r s => match r with
      | .ok _ => s = .settled
      | .error _ => s = .idle) (processTransactional t ((deliveries t).attempt n)) .idle :=
    follows_processTransactional ((hsteady.key n).trans (hsteady.key 1).symm)
      (hsteady.sideEffect n)
  have hzoom := Follows.zoom ConsumerDb.inbox ConsumerDb.setInbox hattempt
  refine Follows.bind (hzoom.mono (fun s v v' s' hm => ?_) fun _ _ h => h)
    (fun _ _ hs => Follows.pure hs) fun _ _ hs => hs
  obtain ⟨db, ⟨hs', hm⟩, rfl⟩ := hm
  intro φ hφ hinv
  obtain ⟨hinbox, hc⟩ := hm φ hφ hinv.inbox
  exact ⟨⟨hinbox, hinv.letters_update hs'⟩, hc⟩

/-- A dead letter is inserted under an id that no other one has. -/
theorem keeps_insertDeadLetter {e : String} {n : ℕ} {r : Except InboxError String}
    (h : insertDeadLetter (deliveries t).deadLetterId ((deliveries t).letter e n) v
      = some (r, v')) :
    (r = .error .duplicateKey ∧ v' = v)
      ∨ r = .ok (deliveries t).deadLetterId
        ∧ KeepsConsumer deliveries t .idle v v' (.diverted e n)
        ∧ KeepsConsumer deliveries t .idle v v' .idle := by
  unfold insertDeadLetter at h
  split_ifs at h with hrow <;> simp only [Option.some.injEq, Prod.mk.injEq] at h <;>
    obtain ⟨rfl, rfl⟩ := h
  · exact .inl ⟨rfl, rfl⟩
  have hother : ∀ φ : τ → ConsumePhase ω, φ t = .idle → ConsumerInv deliveries φ v → ∀ t' e' n',
      φ t' = .diverted e' n' → (v.deadLetters.set (deliveries t).deadLetterId
        ((deliveries t).letter e n)).row (deliveries t').deadLetterId
          = some ((deliveries t').letter e' n') := by
    intro φ hφ hinv t' e' n' ht'
    have hl := hinv.letters t' e' n' ht'
    rw [Table.set_row, if_neg, hl]
    intro hid
    rw [hid] at hl
    exact hrow (by rw [hl]; rfl)
  have hidle : ∀ φ : τ → ConsumePhase ω, φ t = .idle → ConsumerInv deliveries φ v →
      v.inbox.inbox.pending t = .empty ∧ v.inbox.work t = [] := by
    intro φ hφ hinv
    have hfits := hinv.inbox.fits t
    rwa [hφ] at hfits
  refine .inr ⟨rfl, fun φ hφ hinv => ⟨⟨?_, fun t' e' n' ht' => ?_⟩, fun _ => .inl⟩,
    fun φ hφ hinv => ⟨⟨?_, ?_⟩, fun _ => .inl⟩⟩
  · exact hinv.inbox.update (inbox_refl t _) (hidle φ hφ hinv)
  · rcases eq_or_ne t' t with rfl | hne
    · rw [Function.update_self, ConsumePhase.diverted.injEq] at ht'
      rw [Table.set_row_self, ht'.1, ht'.2]
    · rw [Function.update_of_ne hne] at ht'
      exact hother φ hφ hinv t' e' n' ht'
  · exact hinv.inbox.update (inbox_refl t _) (hidle φ hφ hinv)
  · rw [← hφ, Function.update_eq_self]
    exact hother φ hφ hinv

theorem keeps_consumer_refl {s : ConsumePhase ω} : KeepsConsumer deliveries t s v v s := by
  rintro φ rfl hinv
  rw [Function.update_eq_self]
  exact ⟨hinv, fun _ => .inl⟩

theorem follows_divert (e : String) (n : ℕ) :
    Follows (KeepsConsumer deliveries t) (ConsumeEnds (deliveries t))
      (divert (consumeEnv t (deliveries t)) e n) .idle := by
  refine Follows.await_bind (K := fun r s => match r with
    | .ok id => id = (deliveries t).deadLetterId ∧ s = .diverted e n
    | .error err => (deliveries t).onMove ≠ .answered ∨ err = .duplicateKey)
    (fun v r v' h => ?_) ?_ fun _ _ h => h
  · rcases autocommit_eq_some.1 h with ⟨-, h⟩ | ⟨hf, rfl, rfl⟩ | ⟨hf, rfl, r', h⟩
    · rcases keeps_insertDeadLetter h with ⟨rfl, rfl⟩ | ⟨rfl, hk, -⟩
      · exact ⟨.idle, keeps_consumer_refl, .inr rfl⟩
      · exact ⟨_, hk, rfl, rfl⟩
    · exact ⟨.idle, keeps_consumer_refl, .inl (by simp [hf])⟩
    · rcases keeps_insertDeadLetter h with ⟨-, rfl⟩ | ⟨-, -, hk⟩
      · exact ⟨.idle, keeps_consumer_refl, .inl (by simp [hf])⟩
      · exact ⟨.idle, hk, .inl (by simp [hf])⟩
  · rintro id s ⟨rfl, rfl⟩
    exact Follows.pure (.inr ⟨rfl, rfl, e, rfl⟩)

theorem follows_consumeFrom (hsteady : (deliveries t).Steady) : ∀ left attempt : ℕ,
    Follows (KeepsConsumer deliveries t) (ConsumeEnds (deliveries t))
      (consumeFrom (consumeEnv t (deliveries t)) left attempt) .idle
  | 0, attempt => follows_divert _ attempt
  | left + 1, attempt => by
    refine Follows.tryCatch (K := fun r s => match r with
      | .ok a => a.status = .success ∧ s = .settled
      | .error _ => s = .idle) ?_ (fun _ _ h => .inl h) ?_
    · exact Follows.bind (follows_action hsteady (attempt + 1))
        (fun _ _ hs => Follows.pure ⟨rfl, hs⟩) fun _ _ hs => hs
    · rintro err s rfl
      split
      · exact follows_divert _ _
      · split_ifs
        · refine Follows.await_bind (K := fun r s => r = .ok () ∧ s = .idle) (fun v r v' h => ?_)
            ?_ nofun
          · simp only [Sync.pure_apply, Option.some.injEq, Prod.mk.injEq] at h
            exact ⟨.idle, h.2 ▸ keeps_consumer_refl, h.1.symm, rfl⟩
          · rintro u s ⟨-, rfl⟩
            exact follows_consumeFrom hsteady left (attempt + 1)
        · exact follows_divert _ _

end Consume

/-! ## Runs -/

section Runs

variable {deliveries : τ → ResilientDelivery ω} {h : List (Taken τ (ConsumerDb τ ω))}
  {c : Config τ (ConsumerDb τ ω) InboxError ConsumeResult}

theorem consumerInv_empty : ConsumerInv deliveries (fun _ => .idle) ⟨.empty, .empty⟩ :=
  ⟨⟨inboxInv_empty, fun _ => ⟨rfl, rfl⟩⟩, fun _ _ _ => nofun⟩

theorem consumerInv_of_run (hsteady : ∀ t, (deliveries t).Steady)
    (hrun : (consumeCalls deliveries).Run h c) :
    ∃ φ, ConsumerInv deliveries φ c.world
      ∧ (∀ t r, (c.thread t).result = some r → ConsumeEnds (deliveries t) r (φ t))
      ∧ ∀ p ∈ c.world.inbox.commits, ∃ s ∈ h, s.thread = p.1 := by
  have hall := Follows.run (T := KeepsConsumer deliveries)
    (F := fun t => ConsumeEnds (deliveries t)) (p := fun _ => .idle)
    (I := fun h φ v => ConsumerInv deliveries φ v
      ∧ ∀ p ∈ v.inbox.commits, ∃ s ∈ h, s.thread = p.1)
    (fun t => follows_consumeFrom (hsteady t) _ 0) ⟨consumerInv_empty, fun p hp => by cases hp⟩
    (fun h φ v t v' s' hI hT => ?_) hrun
  · obtain ⟨φ, hfollows, hinv, hcommits⟩ := hall
    exact ⟨φ, hinv, fun t _ hr => (hfollows t).of_result hr, hcommits⟩
  · obtain ⟨hinv, hcommits⟩ := hI
    obtain ⟨hinv', hc⟩ := hT φ rfl hinv
    refine ⟨hinv', fun p hp => ?_⟩
    rcases hc p hp with hp | rfl
    · obtain ⟨s, hs, hst⟩ := hcommits p hp
      exact ⟨s, List.mem_append_left _ hs, hst⟩
    · exact ⟨_, List.mem_append_right _ (List.mem_singleton_self _), rfl⟩

/-- What has become of the deliveries. -/
structure ConsumedOnce (deliveries : τ → ResilientDelivery ω) (v : ConsumerDb τ ω)
    (ended : τ → Option (Except InboxError ConsumeResult)) : Prop where
  at_most_once : ∀ k, (commitsFor (firstAttempts deliveries) k v.inbox).length ≤ 1
  whole : ∀ p ∈ v.inbox.commits, p.2 = ((deliveries p.1).attempt 1).sideEffect
  isProcessed : ∀ k, isProcessed k v.inbox = some
    (.ok (decide (commitsFor (firstAttempts deliveries) k v.inbox ≠ [])), v.inbox)
  success : ∀ t a, ended t = some (.ok a) → a.status = .success →
    (commitsFor (firstAttempts deliveries) ⟨(deliveries t).eventId, (deliveries t).consumerName⟩
      v.inbox).length = 1
  diverted : ∀ t a, ended t = some (.ok a) → a.status = .dlqDiverted →
    a.deadLetterId = some (deliveries t).deadLetterId ∧ ∃ errorMessage,
      v.deadLetters.row (deliveries t).deadLetterId
        = some ((deliveries t).letter errorMessage a.attempts)
  thrown : ∀ t e, ended t = some (.error e) → (deliveries t).onMove ≠ .answered ∨ e = .duplicateKey

omit [DecidableEq τ] in
theorem ConsumerInv.consumedOnce (hsteady : ∀ t, (deliveries t).Steady) {φ : τ → ConsumePhase ω}
    {v : ConsumerDb τ ω} (hinv : ConsumerInv deliveries φ v)
    {ended : τ → Option (Except InboxError ConsumeResult)}
    (hended : ∀ t r, ended t = some r → ConsumeEnds (deliveries t) r (φ t)) :
    ConsumedOnce deliveries v ended := by
  have hinbox := hinv.inbox.inbox
  have hle : ∀ k, (commitsFor (firstAttempts deliveries) k v.inbox).length ≤ 1 := by
    intro k
    rw [hinbox.once k]
    split_ifs <;> omega
  refine ⟨hle, hinbox.whole, fun k => ?_, fun t a ha hs => ?_, fun t a ha hs => ?_,
    fun t e he => hended t _ he⟩
  · have hiff := hinbox.isSome_iff k
    unfold LaunchPad.isProcessed
    rcases hrow : v.inbox.inbox.committed.row k with _ | row <;> rw [hrow] at hiff
    · simpa [Sync.read, hrow] using hiff
    · simpa [Sync.read, hrow, hinbox.completed k row hrow] using hiff
  · rcases hended t _ ha with ⟨-, hsettled⟩ | ⟨hd, -⟩
    · have hfits := hinv.inbox.fits t
      rw [hsettled] at hfits
      have hpos := List.length_pos_iff.2 ((hinbox.isSome_iff _).1 hfits.2.2)
      have hkey : (firstAttempts deliveries t).key
          = ⟨(deliveries t).eventId, (deliveries t).consumerName⟩ := (hsteady t).key 1
      rw [hkey] at hpos
      have := hle ⟨(deliveries t).eventId, (deliveries t).consumerName⟩
      omega
    · rw [hs] at hd
      cases hd
  · rcases hended t _ ha with ⟨hd, -⟩ | ⟨-, hid, e, he⟩
    · rw [hs] at hd
      cases hd
    · exact ⟨hid, e, hinv.letters t e _ he⟩

/-- Any deliveries through `consume`, each of one side effect for one event and consumer, with
attempts that fail where they may, interleaved statement by statement in any way. For every event
and consumer the whole side effect is committed at most once, and `isProcessed` tells whether it has
been. A delivery that reports SUCCESS has it committed exactly once, and one that reports
DLQ_DIVERTED has its dead letter in the queue. -/
theorem consume_effectively_once (hsteady : ∀ t, (deliveries t).Steady)
    (hrun : (consumeCalls deliveries).Run h c) :
    ConsumedOnce deliveries c.world fun t => (c.thread t).result := by
  obtain ⟨φ, hinv, hended, -⟩ := consumerInv_of_run hsteady hrun
  exact hinv.consumedOnce hsteady hended

end Runs

/-- Two deliveries of one event. The answer to the first one's COMMIT is lost. -/
def lostAnswer (t : Bool) : ResilientDelivery String where
  eventId := "evt"
  consumerName := "email"
  maxAttempts := 3
  attempt n :=
    { eventId := "evt"
      consumerName := "email"
      sideEffect := ["insert ticket"]
      now := 0
      onBegin := .answered
      onSelect := .answered
      onInsert := .answered
      onEffect := fun _ => some .answered
      onComplete := .answered
      onCommit := if n = 1 then .answerLost else .answered
      onRollback := .answered
      onCatch := .answered }
  thrown
    | .statementFailed => .error "Connection terminated due to connection timeout"
    | .duplicateKey => .error "duplicate key value violates unique constraint"
    | .sideEffectThrew => .other "thrown"
  deadLetterId := if t then "d1" else "d2"
  onMove := .answered

theorem steady_lostAnswer (t : Bool) : (lostAnswer t).Steady := ⟨fun _ => rfl, fun _ => rfl⟩

/-- The first delivery commits and finds, at its second attempt, that it has; the second one's
INSERT fails, and its event is put aside. -/
theorem consume_effectively_once_lost_answer :
    ∃ h c, (consumeCalls lostAnswer).Run h c
      ∧ ConsumedOnce lostAnswer c.world (fun t => (c.thread t).result)
      ∧ (c.thread true).result = some (.ok ⟨.success, 2, none⟩)
      ∧ (c.thread false).result = some (.ok ⟨.dlqDiverted, 1, some "d2"⟩)
      ∧ c.world.inbox.commits = [(true, ["insert ticket"])] := by
  have hends : ((consumeCalls lostAnswer).history [true, true, false, false, true, true, true, true,
      false, false, false, true, true, true, true, true]).any fun p =>
        (p.2.thread true).result = some (.ok ⟨.success, 2, none⟩)
          ∧ (p.2.thread false).result = some (.ok ⟨.dlqDiverted, 1, some "d2"⟩)
          ∧ p.2.world.inbox.commits = [(true, ["insert ticket"])] := by
    decide +kernel
  obtain ⟨⟨h, c⟩, hc, hends⟩ := (Option.any_eq_true _ _).1 hends
  have hrun := Config.run_of_history _ hc
  exact ⟨h, c, hrun, consume_effectively_once steady_lostAnswer hrun, of_decide_eq_true hends⟩

end LaunchPad
