import LaunchPad.Lib.Protocol
import LaunchPad.Replay

/-!
# A dead letter may be replayed again

A `replay` reads the record, ends its action and marks the record, and others run in between. The
status stops nothing, so it is the calls that decide whether an action completes twice, or after the
record was discarded, or without its caller being told: each of these happens in some interleaving
of the calls, unless they rule it out.
-/

namespace LaunchPad

open Interleave Rows DeadLetterQueueRepository

variable {δ τ : Type}

/-- The actions that completed for a record. -/
def completions (id : String) (db : DlqDb δ (List (Performed τ))) : List (Performed τ) :=
  db.work.filter fun e => e.deadLetterId = id && e.outcome.isOk

theorem mem_completions {id : String} {db : DlqDb δ (List (Performed τ))} {e : Performed τ} :
    e ∈ completions id db ↔ e ∈ db.work ∧ e.deadLetterId = id ∧ e.outcome = .ok () := by
  rcases e with ⟨t, id', _ | ⟨⟨⟩⟩⟩ <;> simp [completions, Except.isOk, Except.toBool]

def Discarded {ω : Type} (id : String) (db : DlqDb δ ω) : Prop :=
  ∃ record, db.deadLetters.row id = some record ∧ record.status = .discarded

/-- The record is there. -/
def Stored {ω : Type} (id : String) (db : DlqDb δ ω) : Prop := (db.deadLetters.row id).isSome

/-! ## What a call does -/

/-- Where a call stands. -/
inductive DlqPhase (δ : Type)
  | start
  | acting
  | completed
  | ended (r : Except ThrownError (DlqAnswer δ))

/-- The next step of a call. -/
inductive DlqMove (t : τ) : DlqCall → DlqPhase δ → DlqDb δ (List (Performed τ)) →
    DlqDb δ (List (Performed τ)) → DlqPhase δ → Prop
  | found {onFetch onMark id outcome db} (hfetch : onFetch.fate = .answered)
      (hstored : Stored id db) : DlqMove t (.replay onFetch onMark id outcome) .start db db .acting
  | unread {onFetch onMark id outcome db e} (h : onFetch.fate = .answered → ¬ Stored id db) :
      DlqMove t (.replay onFetch onMark id outcome) .start db db (.ended (.error e))
  | completes {onFetch onMark id db} : DlqMove t (.replay onFetch onMark id (.ok ())) .acting db
      { db with work := db.work ++ [⟨t, id, .ok ()⟩] } .completed
  | throws {onFetch onMark id db e} : DlqMove t (.replay onFetch onMark id (.error e)) .acting db
      { db with work := db.work ++ [⟨t, id, .error e⟩] }
      (.ended (.ok (.replayed ⟨false, some e.replayMessage⟩)))
  | marks {onFetch onMark id outcome db} (hmark : onMark.fate = .answered) :
      DlqMove t (.replay onFetch onMark id outcome) .completed db
        (updateWhere id (fun record =>
          { record with status := .replayed, replayedAt := some onMark.now }) db)
        (.ended (.ok (.replayed ⟨true, none⟩)))
  | unmarked {onFetch onMark id outcome db db'} (hmark : onMark.fate ≠ .answered)
      (hdb : db' = db ∨ db' = updateWhere id (fun record =>
        { record with status := .replayed, replayedAt := some onMark.now }) db) :
      DlqMove t (.replay onFetch onMark id outcome) .completed db db'
        (.ended (.ok (.replayed ⟨false, some onMark.dbError.replayMessage⟩)))
  | discards {env id db r} (hfate : env.fate ≠ .failed) (hr : ∀ a, r = .ok a → a = .discarded) :
      DlqMove t (.markDiscarded env id) .start db
        (updateWhere id (fun record => { record with status := .discarded }) db) (.ended r)
  | keeps {env id db} : DlqMove t (.markDiscarded env id) .start db db (.ended (.error env.dbError))
  | fetches {env id db r} (hr : ∀ a, r = .ok a → ∃ record, a = .fetched record) :
      DlqMove t (.fetchById env id) .start db db (.ended r)

/-- A statement of the queue: done and answered, or thrown, done or not. -/
theorem run_update {ω : Type} {env : StatementEnv} {f : DlqDb δ ω → DlqDb δ ω} {db db' : DlqDb δ ω}
    {r : Except ThrownError Unit}
    (h : autocommit env.dbError env.fate (Sync.modify f) db = some (r, db')) :
    (env.fate = .answered ∧ r = .ok () ∧ db' = f db)
      ∨ (env.fate ≠ .answered ∧ r = .error env.dbError
        ∧ ((env.fate = .failed ∧ db' = db) ∨ (env.fate ≠ .failed ∧ db' = f db))) := by
  rcases autocommit_eq_some.1 h with ⟨hfate, hrun⟩ | ⟨hfate, rfl, rfl⟩ | ⟨hfate, rfl, r', hrun⟩
  · obtain ⟨rfl, rfl⟩ := Prod.mk.inj (Option.some.inj hrun)
    exact .inl ⟨hfate, rfl, rfl⟩
  · exact .inr ⟨by simp [hfate], rfl, .inl ⟨hfate, rfl⟩⟩
  · obtain ⟨-, rfl⟩ := Prod.mk.inj (Option.some.inj hrun)
    exact .inr ⟨by simp [hfate], rfl, .inr ⟨by simp [hfate], rfl⟩⟩

theorem run_fetchById {ω : Type} {env : StatementEnv} {id : String} {db db' : DlqDb δ ω}
    {r : Except ThrownError (Option (DeadLetterRecord δ))}
    (h : autocommit env.dbError env.fate (Sync.read fun db : DlqDb δ ω => db.deadLetters.row id) db
      = some (r, db')) :
    db' = db ∧ ((env.fate = .answered ∧ r = .ok (db.deadLetters.row id))
      ∨ (env.fate ≠ .answered ∧ r = .error env.dbError)) := by
  rcases autocommit_eq_some.1 h with ⟨hfate, hrun⟩ | ⟨hfate, rfl, rfl⟩ | ⟨hfate, rfl, r', hrun⟩
  · obtain ⟨rfl, rfl⟩ := Prod.mk.inj (Option.some.inj hrun)
    exact ⟨rfl, .inl ⟨hfate, rfl⟩⟩
  · exact ⟨rfl, .inr ⟨by simp [hfate], rfl⟩⟩
  · obtain ⟨-, rfl⟩ := Prod.mk.inj (Option.some.inj hrun)
    exact ⟨rfl, .inr ⟨by simp [hfate], rfl⟩⟩

/-- From the action on: what ends as an error of the `try` is the result `false`. -/
theorem follows_try (t : τ) (onFetch onMark : StatementEnv) (id : String)
    (outcome : Except ThrownError Unit) :
    Follows (DlqMove (δ := δ) t (.replay onFetch onMark id outcome))
      (fun r p => ∃ result, r = .ok result ∧ p = .ended (.ok (.replayed result)))
      (tryCatch
        (do
          acts ⟨t, id, outcome⟩ outcome
          markReplayed onMark id
          pure ⟨true, none⟩)
        fun err => pure ⟨false, some err.replayMessage⟩) .acting := by
  refine Follows.tryCatch (K := fun r p => p = .ended (.ok (.replayed (match r with
    | .ok result => result
    | .error e => ⟨false, some e.replayMessage⟩)))) ?_ (fun result p hp => ⟨result, rfl, hp⟩)
    fun e p hp => Follows.pure ⟨_, rfl, hp⟩
  refine Follows.await_bind (K := fun r p => match r with
    | .ok () => p = .completed
    | .error e => p = .ended (.ok (.replayed ⟨false, some e.replayMessage⟩)))
    (fun db r db' hrun => ?_) (fun _ p hp => ?_) fun e p hp => hp
  · obtain ⟨rfl, rfl⟩ := Prod.mk.inj (Option.some.inj hrun)
    rcases outcome with e | ⟨⟨⟩⟩
    · exact ⟨_, .throws, rfl⟩
    · exact ⟨_, .completes, rfl⟩
  · subst hp
    refine Follows.await_bind (K := fun r p => p = .ended (.ok (.replayed (match r with
      | .ok () => ⟨true, none⟩
      | .error e => ⟨false, some e.replayMessage⟩))))
      (fun db r db' hrun => ?_) (fun _ p hp => Follows.pure hp) fun e p hp => hp
    rcases run_update hrun with ⟨hfate, rfl, rfl⟩ | ⟨hfate, rfl, hdb⟩
    · exact ⟨_, .marks hfate, rfl⟩
    · exact ⟨_, .unmarked hfate (hdb.imp And.right And.right), rfl⟩

theorem follows_replay (t : τ) (onFetch onMark : StatementEnv) (id : String)
    (outcome : Except ThrownError Unit) :
    Follows (DlqMove (δ := δ) t (.replay onFetch onMark id outcome)) (fun r p => p = .ended r)
      ((DlqCall.replay onFetch onMark id outcome).program t) .start := by
  refine Follows.bind (K := fun r p => p = .ended (r.map .replayed)) ?_ (fun _ p hp => hp)
    fun e p hp => hp
  refine Follows.await_bind (K := fun r p => match r with
    | .ok none => p = .ended (.error (.error ("Dead letter record not found: " ++ id)))
    | .ok (some _) => p = .acting
    | .error e => p = .ended (.error e)) (fun db r db' hrun => ?_) (fun record p hp => ?_)
    fun e p hp => hp
  · obtain ⟨rfl, ⟨hfate, rfl⟩ | ⟨hfate, rfl⟩⟩ := run_fetchById hrun
    · rcases hrow : db'.deadLetters.row id with _ | record
      · exact ⟨_, .unread fun _ => by simp [Stored, hrow], rfl⟩
      · exact ⟨_, .found hfate (by simp [Stored, hrow]), rfl⟩
    · exact ⟨_, .unread fun h => absurd h hfate, rfl⟩
  · rcases record with _ | record <;> obtain rfl := hp
    · exact Follows.throw rfl
    · refine (follows_try t onFetch onMark id outcome).mono (fun _ _ _ _ hm => hm) ?_
      rintro r p ⟨result, rfl, rfl⟩
      rfl

theorem follows_program (t : τ) (call : DlqCall) :
    Follows (DlqMove (δ := δ) t call) (fun r p => p = .ended r) (call.program t) .start := by
  cases call with
  | replay onFetch onMark id outcome => exact follows_replay t onFetch onMark id outcome
  | markDiscarded env id =>
    refine Follows.await_bind (K := fun r p => p = .ended (r.map fun _ => .discarded))
      (fun db r db' hrun => ?_) (fun _ p hp => hp) fun e p hp => hp
    rcases run_update hrun with ⟨hfate, rfl, rfl⟩ | ⟨-, rfl, ⟨-, rfl⟩ | ⟨hfate, rfl⟩⟩
    · exact ⟨_, .discards (by simp [hfate]) (by simp [Except.map]), rfl⟩
    · exact ⟨_, .keeps, rfl⟩
    · exact ⟨_, .discards hfate (by simp [Except.map]), rfl⟩
  | fetchById env id =>
    refine Follows.await_bind (K := fun r p => p = .ended (r.map .fetched))
      (fun db r db' hrun => ?_) (fun _ p hp => hp) fun e p hp => hp
    obtain ⟨rfl, ⟨-, rfl⟩ | ⟨-, rfl⟩⟩ := run_fetchById hrun
    · exact ⟨_, .fetches (by simp [Except.map]), rfl⟩
    · exact ⟨_, .fetches (by simp [Except.map]), rfl⟩

/-! ## What has happened -/

section Invariant

variable (calls : τ → DlqCall) (T₀ : Table String (DeadLetterRecord δ))

/-- A replay that reads its record, so that its action is run. -/
def RunsAction (t : τ) (onMark : StatementEnv) (id : String) (outcome : Except ThrownError Unit) :
    Prop :=
  ∃ onFetch, calls t = .replay onFetch onMark id outcome ∧ onFetch.fate = .answered
    ∧ (T₀.row id).isSome

/-- The call's UPDATE, once its action has completed: the record is set to REPLAYED. -/
def SetsReplayed (t : τ) (id : String) (now : Time)
    (s : Taken τ (DlqDb δ (List (Performed τ)))) : Prop :=
  s.thread = t ∧ ⟨t, id, .ok ()⟩ ∈ s.before.work
    ∧ ∃ record : DeadLetterRecord δ, s.before.deadLetters.row id = some record
      ∧ s.after.deadLetters.row id
        = some { record with status := .replayed, replayedAt := some now }

/-- What the actions noted of a call, where it stands. -/
def PhaseFits (steps : List (Taken τ (DlqDb δ (List (Performed τ))))) (work : List (Performed τ))
    (t : τ) : DlqPhase δ → Prop
  | .acting => (∀ e ∈ work, e.call ≠ t) ∧ ∃ onMark id outcome, RunsAction calls T₀ t onMark id outcome
  | .completed => ∃ onMark id, RunsAction calls T₀ t onMark id (.ok ()) ∧ ⟨t, id, .ok ()⟩ ∈ work
  | .ended (.ok (.replayed result)) => ∃ onMark id outcome, RunsAction calls T₀ t onMark id outcome
      ∧ ⟨t, id, outcome⟩ ∈ work
      ∧ (result.success = true → outcome = .ok () ∧ ∃ s ∈ steps, SetsReplayed t id onMark.now s)
      ∧ (result.success = false → (∃ e, outcome = .error e) ∨ onMark.fate ≠ .answered)
  | _ => ∀ e ∈ work, e.call ≠ t

structure ReplayInv (steps : List (Taken τ (DlqDb δ (List (Performed τ))))) (φ : τ → DlqPhase δ)
    (db : DlqDb δ (List (Performed τ))) : Prop where
  fits : ∀ t, PhaseFits calls T₀ steps db.work t (φ t)
  ran : ∀ e ∈ db.work, ∃ onMark, RunsAction calls T₀ e.call onMark e.deadLetterId e.outcome
  nodup : (db.work.map Performed.call).Nodup
  stored : ∀ id, Stored id db ↔ (T₀.row id).isSome
  discarded : ∀ id, Discarded id db → (∃ record, T₀.row id = some record ∧ record.status = .discarded)
    ∨ ∃ t env, calls t = .markDiscarded env id ∧ env.fate ≠ .failed

variable {calls T₀} {steps steps' : List (Taken τ (DlqDb δ (List (Performed τ))))}
  {work : List (Performed τ)} {t t' : τ}

theorem RunsAction.call_eq {onFetch onMark onMark' : StatementEnv} {id id' : String}
    {outcome outcome' : Except ThrownError Unit} (h : RunsAction calls T₀ t onMark' id' outcome')
    (hcall : calls t = .replay onFetch onMark id outcome) :
    onMark = onMark' ∧ id = id' ∧ outcome = outcome' := by
  obtain ⟨onFetch', hcall', -⟩ := h
  exact (DlqCall.replay.inj (hcall.symm.trans hcall')).2

/-- A call that has run no action and ends without the result of a replay. -/
theorem PhaseFits.of_ended {r : Except ThrownError (DlqAnswer δ)}
    (h : PhaseFits calls T₀ steps work t .start)
    (hr : ∀ a, r = .ok a → ∀ result, a ≠ .replayed result) :
    PhaseFits calls T₀ steps work t (.ended r) := by
  rcases r with e | a
  · exact h
  · cases a with
    | replayed result => exact absurd rfl (hr _ rfl result)
    | discarded => exact h
    | fetched record => exact h

theorem PhaseFits.mono {p : DlqPhase δ} (h : PhaseFits calls T₀ steps work t p)
    (hsteps : steps ⊆ steps') : PhaseFits calls T₀ steps' work t p := by
  unfold PhaseFits at h ⊢
  split at h
  · exact h
  · exact h
  · obtain ⟨onMark, id, outcome, hruns, hmem, htrue, hfalse⟩ := h
    refine ⟨onMark, id, outcome, hruns, hmem, fun hsuccess => ?_, hfalse⟩
    obtain ⟨hok, s, hs, hset⟩ := htrue hsuccess
    exact ⟨hok, s, hsteps hs, hset⟩
  · exact h

theorem PhaseFits.append {p : DlqPhase δ} (h : PhaseFits calls T₀ steps work t' p) {e : Performed τ}
    (he : e.call ≠ t') : PhaseFits calls T₀ steps (work ++ [e]) t' p := by
  have hnone : (∀ e ∈ work, e.call ≠ t') → ∀ e' ∈ work ++ [e], e'.call ≠ t' := by
    intro hwork e' he'
    rcases List.mem_append.1 he' with he' | he'
    · exact hwork e' he'
    · rwa [List.mem_singleton.1 he']
  unfold PhaseFits at h ⊢
  split at h
  · exact ⟨hnone h.1, h.2⟩
  · obtain ⟨onMark, id, hruns, hmem⟩ := h
    exact ⟨onMark, id, hruns, List.mem_append_left _ hmem⟩
  · obtain ⟨onMark, id, outcome, hruns, hmem, hresult⟩ := h
    exact ⟨onMark, id, outcome, hruns, List.mem_append_left _ hmem, hresult⟩
  · exact hnone h

section Update

variable {ω : Type} {id id' : String} {set : DeadLetterRecord δ → DeadLetterRecord δ}
  {db : DlqDb δ ω}

@[simp] theorem updateWhere_work : (updateWhere id set db).work = db.work := by
  unfold updateWhere
  split <;> rfl

theorem updateWhere_row : (updateWhere id set db).deadLetters.row id'
    = if id' = id then (db.deadLetters.row id').map set else db.deadLetters.row id' := by
  unfold updateWhere
  rcases h : db.deadLetters.row id with _ | record
  · split_ifs with hid
    · rw [hid, h]
      rfl
    · rfl
  · rw [Table.set_row]
    split_ifs with hid
    · rw [hid, h]
      rfl
    · rfl

theorem stored_updateWhere : Stored id' (updateWhere id set db) ↔ Stored id' db := by
  rw [Stored, Stored, updateWhere_row]
  split_ifs <;> simp

theorem discarded_updateWhere (h : Discarded id' (updateWhere id set db)) :
    Discarded id' db ∨ id' = id ∧ ∃ record, (set record).status = .discarded := by
  obtain ⟨record, hrow, hstatus⟩ := h
  rw [updateWhere_row] at hrow
  split_ifs at hrow with hid
  · obtain ⟨record', -, rfl⟩ := Option.map_eq_some_iff.1 hrow
    exact .inr ⟨hid, record', hstatus⟩
  · exact .inl ⟨record, hrow, hstatus⟩

end Update

/-- What completed is the action of a replay that found the record. -/
theorem ReplayInv.runsAction {φ : τ → DlqPhase δ} {db : DlqDb δ (List (Performed τ))}
    (h : ReplayInv calls T₀ steps φ db) {id : String} {e : Performed τ}
    (he : e ∈ completions id db) :
    ∃ onMark, RunsAction calls T₀ e.call onMark id (.ok ()) := by
  obtain ⟨hmem, rfl, hok⟩ := mem_completions.1 he
  obtain ⟨onMark, hruns⟩ := h.ran e hmem
  exact ⟨onMark, hok ▸ hruns⟩

variable [DecidableEq τ] {φ : τ → DlqPhase δ} {db db' : DlqDb δ (List (Performed τ))}
  {p : DlqPhase δ}

/-- A step that notes no action. -/
theorem ReplayInv.kept (h : ReplayInv calls T₀ steps φ db) (hwork : db'.work = db.work)
    (hstored : ∀ id, Stored id db' ↔ Stored id db)
    (hdiscarded : ∀ id, Discarded id db' →
      Discarded id db ∨ ∃ env, calls t = .markDiscarded env id ∧ env.fate ≠ .failed)
    (hfits : PhaseFits calls T₀ (steps ++ [⟨t, db, db'⟩]) db.work t p) :
    ReplayInv calls T₀ (steps ++ [⟨t, db, db'⟩]) (Function.update φ t p) db' where
  fits t' := by
    rw [hwork]
    rcases eq_or_ne t' t with rfl | hne
    · rwa [Function.update_self]
    · rw [Function.update_of_ne hne]
      exact (h.fits t').mono (List.subset_append_left _ _)
  ran := by
    rw [hwork]
    exact h.ran
  nodup := by
    rw [hwork]
    exact h.nodup
  stored id := (hstored id).trans (h.stored id)
  discarded id hid := by
    rcases hdiscarded id hid with hid | ⟨env, hcall, hfate⟩
    · exact h.discarded id hid
    · exact .inr ⟨t, env, hcall, hfate⟩

/-- The end of the action of a call. -/
theorem ReplayInv.acted (h : ReplayInv calls T₀ steps φ db) (hphase : φ t = .acting)
    {onMark : StatementEnv} {id : String} {outcome : Except ThrownError Unit}
    (hruns : RunsAction calls T₀ t onMark id outcome)
    (hdb : db' = { db with work := db.work ++ [⟨t, id, outcome⟩] })
    (hfits : PhaseFits calls T₀ (steps ++ [⟨t, db, db'⟩]) db'.work t p) :
    ReplayInv calls T₀ (steps ++ [⟨t, db, db'⟩]) (Function.update φ t p) db' := by
  subst hdb
  refine ⟨fun t' => ?_, fun e he => ?_, ?_, h.stored, h.discarded⟩
  · rcases eq_or_ne t' t with rfl | hne
    · rwa [Function.update_self]
    · rw [Function.update_of_ne hne]
      exact ((h.fits t').mono (List.subset_append_left _ _)).append hne.symm
  · rcases List.mem_append.1 he with he | he
    · exact h.ran e he
    · obtain rfl := List.mem_singleton.1 he
      exact ⟨onMark, hruns⟩
  · have hacting := h.fits t
    rw [hphase] at hacting
    rw [List.map_append, List.map_singleton, List.nodup_append]
    refine ⟨h.nodup, by simp, fun t₁ ht₁ t₂ ht₂ => ?_⟩
    obtain ⟨e, he, rfl⟩ := List.mem_map.1 ht₁
    rw [List.mem_singleton.1 ht₂]
    exact hacting.1 e he

omit [DecidableEq τ] in
/-- The UPDATE finds the record, which is not deleted. -/
theorem ReplayInv.setsReplayed (h : ReplayInv calls T₀ steps φ db) {onMark : StatementEnv}
    {id : String} (hruns : RunsAction calls T₀ t onMark id (.ok ()))
    (hmem : ⟨t, id, .ok ()⟩ ∈ db.work) :
    SetsReplayed t id onMark.now ⟨t, db, updateWhere id (fun record =>
      { record with status := .replayed, replayedAt := some onMark.now }) db⟩ := by
  obtain ⟨-, -, -, hrow⟩ := hruns
  obtain ⟨record, hrecord⟩ := Option.isSome_iff_exists.1 ((h.stored id).2 hrow)
  refine ⟨rfl, hmem, record, hrecord, ?_⟩
  simp only [updateWhere_row, if_pos, hrecord, Option.map_some]

theorem ReplayInv.move (h : ReplayInv calls T₀ steps φ db)
    (hm : DlqMove t (calls t) (φ t) db db' p) :
    ReplayInv calls T₀ (steps ++ [⟨t, db, db'⟩]) (Function.update φ t p) db' := by
  have hfits := h.fits t
  generalize hcall : calls t = call at hm
  generalize hphase : φ t = p₀ at hm
  rw [hphase] at hfits
  cases hm with
  | found hfetch hstored =>
    exact h.kept rfl (fun _ => .rfl) (fun _ => .inl)
      ⟨hfits, _, _, _, _, hcall, hfetch, (h.stored _).1 hstored⟩
  | unread => exact h.kept rfl (fun _ => .rfl) (fun _ => .inl) hfits
  | completes =>
    obtain ⟨-, onMark', id', outcome', hruns⟩ := hfits
    obtain ⟨rfl, rfl, rfl⟩ := hruns.call_eq hcall
    exact h.acted hphase hruns rfl ⟨_, _, hruns, by simp⟩
  | throws =>
    obtain ⟨-, onMark', id', outcome', hruns⟩ := hfits
    obtain ⟨rfl, rfl, rfl⟩ := hruns.call_eq hcall
    exact h.acted hphase hruns rfl ⟨_, _, _, hruns, by simp, by simp, fun _ => .inl ⟨_, rfl⟩⟩
  | marks hmark =>
    obtain ⟨onMark', id', hruns, hmem⟩ := hfits
    obtain ⟨rfl, rfl, rfl⟩ := hruns.call_eq hcall
    refine h.kept updateWhere_work (fun _ => stored_updateWhere) (fun id hid => ?_)
      ⟨_, _, _, hruns, hmem, fun _ => ⟨rfl, _, by simp, h.setsReplayed hruns hmem⟩, by simp⟩
    exact .inl ((discarded_updateWhere hid).resolve_right (by simp))
  | unmarked hmark hdb =>
    obtain ⟨onMark', id', hruns, hmem⟩ := hfits
    obtain ⟨rfl, rfl, rfl⟩ := hruns.call_eq hcall
    have hends (steps) (message : String) : PhaseFits calls T₀ steps db.work t
        (.ended (.ok (.replayed ⟨false, some message⟩))) :=
      ⟨_, _, _, hruns, hmem, by simp, fun _ => .inr hmark⟩
    rcases hdb with rfl | rfl
    · exact h.kept rfl (fun _ => .rfl) (fun _ => .inl) (hends _ _)
    · refine h.kept updateWhere_work (fun _ => stored_updateWhere) (fun id hid => ?_) (hends _ _)
      exact .inl ((discarded_updateWhere hid).resolve_right (by simp))
  | discards hfate hr =>
    refine h.kept updateWhere_work (fun _ => stored_updateWhere) (fun id hid => ?_) ?_
    · rcases discarded_updateWhere hid with hid | ⟨rfl, -⟩
      · exact .inl hid
      · exact .inr ⟨_, hcall, hfate⟩
    · exact PhaseFits.of_ended hfits fun a ha => by simp [hr a ha]
  | keeps => exact h.kept rfl (fun _ => .rfl) (fun _ => .inl) hfits
  | fetches hr =>
    refine h.kept rfl (fun _ => .rfl) (fun _ => .inl) (PhaseFits.of_ended hfits fun a ha => ?_)
    obtain ⟨record, rfl⟩ := hr a ha
    simp

end Invariant

/-! ## When a dead letter is replayed at most once -/

section ReplayedOnce

variable [DecidableEq τ] (calls : τ → DlqCall) (T₀ : Table String (DeadLetterRecord δ))

/-- What holds of each call, whatever the others do: it ends its action at most once, and only if it
read the record; it answers `true` only where the action completed and the record was then set to
REPLAYED, and `false` only where one of the two failed; and where it throws, no action was run. -/
structure EachReplay (h : List (Taken τ (DlqDb δ (List (Performed τ)))))
    (c : Config τ (DlqDb δ (List (Performed τ))) ThrownError (DlqAnswer δ)) : Prop where
  atMostOnce : (c.world.work.map Performed.call).Nodup
  ran : ∀ e ∈ c.world.work, ∃ onMark, RunsAction calls T₀ e.call onMark e.deadLetterId e.outcome
  answered : ∀ t result, (c.thread t).result = some (.ok (.replayed result)) →
    ∃ onMark id outcome, RunsAction calls T₀ t onMark id outcome
      ∧ ⟨t, id, outcome⟩ ∈ c.world.work
      ∧ (result.success = true → outcome = .ok () ∧ ∃ s ∈ h, SetsReplayed t id onMark.now s)
      ∧ (result.success = false → (∃ e, outcome = .error e) ∨ onMark.fate ≠ .answered)
  thrown : ∀ t e, (c.thread t).result = some (.error e) → ∀ entry ∈ c.world.work, entry.call ≠ t

/-- The record has been replayed once at most, not after it was discarded, and no caller was told of
a failure where the action completed. -/
structure ReplayedOnce (id : String) (h : List (Taken τ (DlqDb δ (List (Performed τ)))))
    (c : Config τ (DlqDb δ (List (Performed τ))) ThrownError (DlqAnswer δ)) : Prop where
  once : (completions id c.world).length ≤ 1
  notDiscarded : ∀ h₁ s, h₁ ++ [s] <+: h → completions id s.after ≠ completions id s.before →
    ∀ s' ∈ h₁ ++ [s], ¬ Discarded id s'.before
  told : ∀ t result, (c.thread t).result = some (.ok (.replayed result)) →
    result.success = false → ∀ e ∈ completions id c.world, e.call ≠ t

/-- At most one of the replays of the record has an action that completes, its UPDATE does not fail,
and nobody discards the record. -/
structure Guarded (id : String) : Prop where
  alone : ∀ t t' onMark onMark', RunsAction calls T₀ t onMark id (.ok ()) →
    RunsAction calls T₀ t' onMark' id (.ok ()) → t = t'
  marked : ∀ t onMark, RunsAction calls T₀ t onMark id (.ok ()) → onMark.fate = .answered
  undiscarded : ∀ t onMark, RunsAction calls T₀ t onMark id (.ok ()) →
    (∀ record, T₀.row id = some record → record.status ≠ .discarded)
      ∧ ∀ t' env, calls t' = .markDiscarded env id → env.fate = .failed

variable {calls T₀}

theorem replayInv_run {h : List (Taken τ (DlqDb δ (List (Performed τ))))}
    {c : Config τ (DlqDb δ (List (Performed τ))) ThrownError (DlqAnswer δ)}
    (hrun : (dlqCalls calls T₀).Run h c) :
    ∃ φ, (∀ t, Follows (DlqMove t (calls t)) (fun r p => p = .ended r) (c.thread t) (φ t))
      ∧ ReplayInv calls T₀ h φ c.world := by
  have h₀ : ReplayInv calls T₀ [] (fun _ => .start) ⟨T₀, []⟩ :=
    ⟨fun t e he => by simp at he, by simp, by simp, fun id => .rfl, fun id hid => .inl hid⟩
  exact Follows.run (I := fun h φ db => ReplayInv calls T₀ h φ db)
    (fun t => follows_program t (calls t)) h₀ (fun h φ db t db' p hI hm => hI.move hm) hrun

theorem eachReplay_run {h : List (Taken τ (DlqDb δ (List (Performed τ))))}
    {c : Config τ (DlqDb δ (List (Performed τ))) ThrownError (DlqAnswer δ)}
    (hrun : (dlqCalls calls T₀).Run h c) : EachReplay calls T₀ h c := by
  obtain ⟨φ, hfollows, hinv⟩ := replayInv_run hrun
  refine ⟨hinv.nodup, hinv.ran, fun t result hresult => ?_, fun t e hresult => ?_⟩
  · have hfits := hinv.fits t
    rw [(hfollows t).of_result hresult] at hfits
    exact hfits
  · have hfits := hinv.fits t
    rw [(hfollows t).of_result hresult] at hfits
    exact hfits

/-- What holds of the state before each step of a run holds before each step up to another. -/
theorem not_discarded_before {id : String} (hg : Guarded calls T₀ id) {t : τ}
    {onMark : StatementEnv} (hruns : RunsAction calls T₀ t onMark id (.ok ()))
    {h : List (Taken τ (DlqDb δ (List (Performed τ))))}
    {c : Config τ (DlqDb δ (List (Performed τ))) ThrownError (DlqAnswer δ)}
    (hrun : (dlqCalls calls T₀).Run h c) {s : Taken τ (DlqDb δ (List (Performed τ)))} (hs : s ∈ h) :
    ¬ Discarded id s.before := by
  obtain ⟨h₁, h₂, rfl⟩ := List.append_of_mem hs
  have hp : h₁ ++ [s] <+: h₁ ++ s :: h₂ := ⟨h₂, by simp⟩
  obtain ⟨c₁, -, hrun₁, -, hbefore, -⟩ := hrun.step_of_prefix hp
  obtain ⟨φ, -, hinv⟩ := replayInv_run hrun₁
  intro hdiscarded
  rw [hbefore] at hdiscarded
  obtain ⟨hfirst, hcalls⟩ := hg.undiscarded t onMark hruns
  rcases hinv.discarded id hdiscarded with ⟨record, hrow, hstatus⟩ | ⟨t', env, hcall, hfate⟩
  · exact hfirst record hrow hstatus
  · exact hfate (hcalls t' env hcall)

theorem Guarded.replayedOnce {id : String} (hg : Guarded calls T₀ id)
    {h : List (Taken τ (DlqDb δ (List (Performed τ))))}
    {c : Config τ (DlqDb δ (List (Performed τ))) ThrownError (DlqAnswer δ)}
    (hrun : (dlqCalls calls T₀).Run h c) : ReplayedOnce id h c := by
  obtain ⟨φ, hfollows, hinv⟩ := replayInv_run hrun
  refine ⟨?_, fun h₁ s hp hchange s' hs' => ?_, fun t result hresult hfalse e he heq => ?_⟩
  · have hnodup : ((completions id c.world).map Performed.call).Nodup :=
      hinv.nodup.sublist (List.filter_sublist.map _)
    rcases hcompletions : completions id c.world with _ | ⟨e, _ | ⟨e', rest⟩⟩
    · simp
    · simp
    · obtain ⟨onMark, hruns⟩ := hinv.runsAction (e := e) (by rw [hcompletions]; simp)
      obtain ⟨onMark', hruns'⟩ := hinv.runsAction (e := e') (by rw [hcompletions]; simp)
      rw [hcompletions] at hnodup
      simp [hg.alone _ _ _ _ hruns hruns'] at hnodup
  · obtain ⟨c₁, c₂, hrun₁, hs, hbefore, hafter⟩ := hrun.step_of_prefix hp
    have hruns : ∃ t onMark, RunsAction calls T₀ t onMark id (.ok ()) := by
      by_contra hnone
      have hempty {h c} (hrun : (dlqCalls calls T₀).Run h c) : completions id c.world = [] := by
        obtain ⟨φ, -, hinv⟩ := replayInv_run hrun
        refine List.eq_nil_iff_forall_not_mem.2 fun e he => hnone ?_
        obtain ⟨onMark, hruns⟩ := hinv.runsAction he
        exact ⟨_, onMark, hruns⟩
      rw [hbefore, hafter, hempty hrun₁, hempty (hrun₁.snoc hs)] at hchange
      exact hchange rfl
    obtain ⟨t, onMark, hruns⟩ := hruns
    exact not_discarded_before hg hruns hrun (hp.subset hs')
  · subst heq
    obtain ⟨onMark, hruns⟩ := hinv.runsAction he
    obtain ⟨onMark', id', outcome', ⟨onFetch', hcall', -⟩, -, -, hwhy⟩ :=
      (eachReplay_run hrun).answered e.call result hresult
    obtain ⟨rfl, rfl, rfl⟩ := hruns.call_eq hcall'
    rcases hwhy hfalse with ⟨e', he'⟩ | hmark
    · simp at he'
    · exact hmark (hg.marked e.call _ hruns)

/-! Run alone, such a replay completes. -/

omit [DecidableEq τ] in
theorem run_replay (t : τ) {onFetch : StatementEnv} (onMark : StatementEnv) {id : String}
    {db : DlqDb δ (List (Performed τ))} (hfetch : onFetch.fate = .answered)
    (hstored : Stored id db) :
    ∃ result db', ((DlqCall.replay onFetch onMark id (.ok ())).program t).run db
        = some (.ok (.replayed result), db')
      ∧ db'.work = db.work ++ [⟨t, id, .ok ()⟩]
      ∧ (onMark.fate ≠ .answered → result.success = false) := by
  obtain ⟨record, hrow⟩ := Option.isSome_iff_exists.1 hstored
  have hacts : (acts (⟨t, id, .ok ()⟩ : Performed τ) (.ok ())).run db
      = some (.ok (), { db with work := db.work ++ [⟨t, id, .ok ()⟩] }) := by
    rw [acts, Async.run_await]
    rfl
  have hread : (fetchById onFetch id).run db = some (.ok (some record), db) := by
    rw [fetchById, Async.run_await, hfetch]
    simp [autocommit, hrow]
  simp only [DlqCall.program, ResilientMessageConsumer.replay, Async.run_bind, Sync.bind_apply,
    hread, Async.run_tryCatch, Sync.tryCatch_apply, hacts, markReplayed, Async.run_await]
  rcases hmark : onMark.fate with _ | _ | _ <;> simp [autocommit]

/-- The replay of a call that has not started, run alone. -/
theorem exists_run_replay {h : List (Taken τ (DlqDb δ (List (Performed τ))))}
    {c : Config τ (DlqDb δ (List (Performed τ))) ThrownError (DlqAnswer δ)}
    (hrun : (dlqCalls calls T₀).Run h c) {t : τ} {onMark : StatementEnv} {id : String}
    (hruns : RunsAction calls T₀ t onMark id (.ok ()))
    (hstart : c.thread t = (calls t).program t) :
    ∃ h' c' result, c.Run h' c' ∧ c'.world.work = c.world.work ++ [⟨t, id, .ok ()⟩]
      ∧ (c'.thread t).result = some (.ok (.replayed result))
      ∧ (∀ t', t' ≠ t → c'.thread t' = c.thread t')
      ∧ (onMark.fate ≠ .answered → result.success = false) := by
  obtain ⟨φ, -, hinv⟩ := replayInv_run hrun
  obtain ⟨onFetch, hcall, hfetch, hrow⟩ := hruns
  obtain ⟨result, db', hrun', hwork, hfalse⟩ :=
    run_replay t onMark hfetch ((hinv.stored id).2 hrow)
  rw [hcall] at hstart
  obtain ⟨h', hrun''⟩ := Config.run_alone hstart hrun'
  refine ⟨h', _, result, hrun'', hwork, ?_, fun t' hne => ?_, hfalse⟩
  · simp
  · simp [Function.update_of_ne hne]

/-- Before a replay that will complete, the record must not be discarded. -/
theorem not_discarded_of_replayedOnce {id : String}
    (honce : ∀ h c, (dlqCalls calls T₀).Run h c → ReplayedOnce id h c)
    {h : List (Taken τ (DlqDb δ (List (Performed τ))))}
    {c : Config τ (DlqDb δ (List (Performed τ))) ThrownError (DlqAnswer δ)}
    (hrun : (dlqCalls calls T₀).Run h c) {t : τ} {onMark : StatementEnv}
    (hruns : RunsAction calls T₀ t onMark id (.ok ()))
    (hstart : c.thread t = (calls t).program t) : ¬ Discarded id c.world := by
  obtain ⟨h', c', -, hrun', hwork, -⟩ := exists_run_replay hrun hruns hstart
  have hne : completions id c'.world ≠ completions id c.world := by
    simp [completions, hwork, List.filter_append, Except.isOk, Except.toBool]
  obtain ⟨h₁, s, hp, hchange⟩ := hrun'.exists_change (completions id) hne
  have hbefore := (honce _ _ (hrun.trans hrun')).notDiscarded (h ++ h₁) s
    (by rw [List.append_assoc]; exact List.prefix_append_right_inj h |>.2 hp) hchange
  -- the first of these steps starts where the replay did
  obtain ⟨first, rest, hfirst⟩ := List.exists_cons_of_ne_nil (List.append_ne_nil_of_right_ne_nil h₁
    (List.cons_ne_nil s []))
  obtain ⟨after, rfl⟩ := hp
  rw [hfirst, List.cons_append] at hrun'
  rw [← hrun'.world_of_cons]
  refine hbefore first ?_
  rw [List.append_assoc, hfirst]
  simp

/-- A discard that reaches the database, run alone. -/
theorem exists_run_markDiscarded {c : Config τ (DlqDb δ (List (Performed τ))) ThrownError
    (DlqAnswer δ)} {t : τ} {env : StatementEnv} {id : String} (hfate : env.fate ≠ .failed)
    (hstored : Stored id c.world)
    (hstart : c.thread t = (DlqCall.markDiscarded env id).program t) :
    ∃ h c', c.Run h c' ∧ Discarded id c'.world ∧ ∀ t', t' ≠ t → c'.thread t' = c.thread t' := by
  have hrun : ∃ r, ((DlqCall.markDiscarded env id).program t).run c.world = some (r,
      updateWhere id (fun record => { record with status := .discarded }) c.world) := by
    simp only [DlqCall.program, markDiscarded, Async.run_bind, Sync.bind_apply, Async.run_await]
    rcases h : env.fate with _ | _ | _
    · simp [autocommit]
    · exact absurd h hfate
    · simp [autocommit]
  obtain ⟨r, hrun⟩ := hrun
  obtain ⟨h, hrun'⟩ := Config.run_alone hstart hrun
  refine ⟨h, _, hrun', ?_, fun t' hne => Function.update_of_ne hne _ _⟩
  obtain ⟨record, hrow⟩ := Option.isSome_iff_exists.1 hstored
  exact ⟨{ record with status := .discarded }, by simp [updateWhere_row, hrow], rfl⟩

theorem guarded_of_replayedOnce {id : String}
    (honce : ∀ h c, (dlqCalls calls T₀).Run h c → ReplayedOnce id h c) : Guarded calls T₀ id := by
  refine ⟨fun t t' onMark onMark' hruns hruns' => ?_, fun t onMark hruns => ?_,
    fun t onMark hruns => ⟨fun record hrow hstatus => ?_, fun t' env hcall => ?_⟩⟩
  · by_contra hne
    obtain ⟨h, c, -, hrun, hwork, -, hothers, -⟩ := exists_run_replay .nil hruns rfl
    obtain ⟨h', c', -, hrun', hwork', -⟩ := exists_run_replay hrun hruns' (hothers t' (Ne.symm hne))
    have hle := (honce _ _ (hrun.trans hrun')).once
    simp [completions, hwork', hwork, List.filter_append, Except.isOk, Except.toBool] at hle
  · by_contra hmark
    obtain ⟨h, c, result, hrun, hwork, hresult, -, hfalse⟩ := exists_run_replay .nil hruns rfl
    refine (honce _ _ hrun).told t result hresult (hfalse hmark) ⟨t, id, .ok ()⟩ ?_ rfl
    simp [mem_completions, hwork]
  · exact not_discarded_of_replayedOnce honce .nil hruns rfl ⟨record, hrow, hstatus⟩
  · by_contra hfate
    have hne : t ≠ t' := by
      rintro rfl
      obtain ⟨onFetch, hcall', -⟩ := hruns
      rw [hcall] at hcall'
      cases hcall'
    have hstored : (T₀.row id).isSome := by
      obtain ⟨_, -, -, hrow⟩ := hruns
      exact hrow
    obtain ⟨h, c, hrun, hdiscarded, hothers⟩ :=
      exists_run_markDiscarded (c := dlqCalls calls T₀) hfate hstored (by rw [← hcall]; rfl)
    exact not_discarded_of_replayedOnce honce hrun hruns (hothers t hne) hdiscarded

end ReplayedOnce

/-- Each replay ends its action once at most, and tells its caller what became of it; and whatever
comes between what, a record is replayed at most once, never after it was discarded, and with no
failure told of an action that completed, if and only if the calls see to it. -/
theorem replayed_once_iff [DecidableEq τ] (calls : τ → DlqCall)
    (T₀ : Table String (DeadLetterRecord δ)) :
    (∀ h c, (dlqCalls calls T₀).Run h c → EachReplay calls T₀ h c)
      ∧ ∀ id, (∀ h c, (dlqCalls calls T₀).Run h c → ReplayedOnce id h c)
        ↔ Guarded calls T₀ id :=
  ⟨fun _ _ => eachReplay_run, fun _ =>
    ⟨guarded_of_replayedOnce, fun hg _ _ => hg.replayedOnce⟩⟩

/-- A letter about an order. -/
def deadOrder : Table String (DeadLetterRecord Unit) :=
  Table.empty.set "dead" ⟨"dead", "evt", "fulfillment", ⟨"evt", "order.confirmed", "order", ()⟩,
    "Request timeout", 3, 0, none, .dead⟩

def answeredStatement : StatementEnv := ⟨.answered, 1, .other ""⟩

/-- An operator replays the letter again. -/
def replayedAgain (_ : Bool) : DlqCall :=
  .replay answeredStatement answeredStatement "dead" (.ok ())

/-- The letter is discarded by one, and replayed by another. -/
def discardedAndReplayed (t : Bool) : DlqCall :=
  if t then .replay answeredStatement answeredStatement "dead" (.ok ())
  else .markDiscarded answeredStatement "dead"

/-- The answer to the UPDATE is lost. -/
def replayedUntold (_ : Unit) : DlqCall :=
  .replay answeredStatement { answeredStatement with fate := .answerLost } "dead" (.ok ())

/-- The action completes twice; after the record was discarded; and where the caller is told that
the replay failed. -/
theorem replayed_again :
    (∃ h c, (dlqCalls replayedAgain deadOrder).Run h c ∧ 1 < (completions "dead" c.world).length)
    ∧ (∃ h c, (dlqCalls discardedAndReplayed deadOrder).Run h c ∧ ∃ s ∈ h,
        Discarded "dead" s.before
          ∧ (completions "dead" s.before).length < (completions "dead" s.after).length)
    ∧ ∃ h c, (dlqCalls replayedUntold deadOrder).Run h c ∧ ∃ result,
        (c.thread ()).result = some (.ok (.replayed result)) ∧ result.success = false
          ∧ ∃ e ∈ completions "dead" c.world, e.call = () := by
  refine ⟨?_, ?_, ?_⟩
  · have hany : ((dlqCalls replayedAgain deadOrder).history
        [true, true, true, false, false, false]).any fun p =>
          1 < (completions "dead" p.2.world).length := by
      decide +kernel
    obtain ⟨⟨h, c⟩, hp, htwice⟩ := (Option.any_eq_true _ _).1 hany
    exact ⟨h, c, Config.run_of_history _ hp, of_decide_eq_true htwice⟩
  · have hany : ((dlqCalls discardedAndReplayed deadOrder).history
        [false, true, true, true]).any fun p => p.1.any fun s =>
          (s.before.deadLetters.row "dead").any (fun record => record.status = .discarded)
          && (completions "dead" s.before).length < (completions "dead" s.after).length := by
      decide +kernel
    obtain ⟨⟨h, c⟩, hp, hafter⟩ := (Option.any_eq_true _ _).1 hany
    obtain ⟨s, hs, hafter⟩ := List.any_eq_true.1 hafter
    obtain ⟨hdiscarded, hcompleted⟩ := Bool.and_eq_true_iff.1 hafter
    obtain ⟨record, hrow, hstatus⟩ := (Option.any_eq_true _ _).1 hdiscarded
    exact ⟨h, c, Config.run_of_history _ hp, s, hs, ⟨record, hrow, of_decide_eq_true hstatus⟩,
      of_decide_eq_true hcompleted⟩
  · have hany : ((dlqCalls replayedUntold deadOrder).history [(), (), ()]).any fun p =>
        (p.2.thread ()).result = some (.ok (.replayed ⟨false, some "Replay failed"⟩))
        ∧ (completions "dead" p.2.world).length = 1 := by
      decide +kernel
    obtain ⟨⟨h, c⟩, hp, hfacts⟩ := (Option.any_eq_true _ _).1 hany
    obtain ⟨hresult, hone⟩ := of_decide_eq_true hfacts
    obtain ⟨e, he⟩ := List.length_eq_one_iff.1 hone
    exact ⟨h, c, Config.run_of_history _ hp, _, hresult, rfl, e, by simp [he], rfl⟩

end LaunchPad
