import LaunchPad.Proofs.Fencing

/-!
# Retries

A handler comes to its end before its response is stored: its response is flushed or the connection
closes, and only `finish` leads to `complete`. Up to then nothing but the lock keeps a retry out. So
what keeps it out for good is that the response is stored in time: it is flushed, `complete` is
carried out on the row, and the lock has not expired until then.
-/

namespace LaunchPad

open Interleave Rows

variable {τ β : Type}

/-- The handler of the call comes to its end with a status below 500. -/
def HttpCall.Produces (call : HttpCall β) : Prop :=
  ∃ statusCode, call.outcome.statusCode = some statusCode ∧ statusCode < 500

/-- The handler of `t` has come to its end. `ends t` is when it does, in steps of the run; at the
latest it is where the request is done with its key. -/
def HasEnded (ends : τ → ℕ) (h : List (Taken τ (IdempotencyDb τ β))) (db : IdempotencyDb τ β)
    (t : τ) : Prop :=
  t ∈ db.runs ∧ (ends t ≤ h.length ∨ db.running t = none)

/-- Once a handler has come to its end with a status below 500, no handler begins under its key for
a request with the same body. -/
def NeverRerun (calls : τ → HttpCall β) (ends : τ → ℕ) (h : List (Taken τ (IdempotencyDb τ β))) :
    Prop :=
  ∀ h₁ s, h₁ ++ [s] <+: h → s.after.runs = s.before.runs ++ [s.thread] → ∀ t key,
    (calls t).key = some key → (calls s.thread).key = some key →
    (calls t).canonicalBody = (calls s.thread).canonicalBody → (calls t).Produces →
    ¬ HasEnded ends h₁ s.before t

/-- A response is recorded for the key, whichever it is. -/
def IsCompleted (key : String) (db : IdempotencyDb τ β) : Prop :=
  ∃ row, db.keys.row key = some row ∧ row.status = .completed

/-- The key is done with: its response is recorded, or it will be. The response of the call is
flushed, is one that is stored, and `complete` finds a row and does not fail. -/
def HttpCall.Records (call : HttpCall β) (key : String) (db : IdempotencyDb τ β) : Prop :=
  IsCompleted key db ∨ call.onPersist ≠ .failed ∧ ∃ statusCode body row,
    call.outcome = .finished statusCode body ∧ 200 ≤ statusCode ∧ db.keys.row key = some row

/-- No request may take the key: it has a row, and its lock has not expired. -/
def IsLocked (key : String) (db : IdempotencyDb τ β) : Prop :=
  ∃ row, db.keys.row key = some row ∧ ∀ lockedUntil, row.lockedUntil = some lockedUntil →
    db.now ≤ lockedUntil

/-- The handlers that came to their end with a status below 500, and whose requests are done, have
left a response. -/
def AllRecorded (calls : τ → HttpCall β) (db : IdempotencyDb τ β) : Prop :=
  ∀ t key, (calls t).key = some key → (calls t).Produces → t ∈ db.runs → db.running t = none →
    IsCompleted key db

section Steps

variable {calls : τ → HttpCall β} {t : τ} {db db' : IdempotencyDb τ β} {key : String}

theorem IsCompleted.not_free (h : IsCompleted key db) : ¬ IsFree key db := by
  obtain ⟨row, hrow, hstatus⟩ := h
  rintro (habsent | ⟨row', -, hrow', hstatus', -⟩)
  · rw [hrow] at habsent
    cases habsent
  · obtain rfl := Option.some.inj (hrow.symm.trans hrow')
    rw [hstatus] at hstatus'
    cases hstatus'

theorem IsLocked.not_free (h : IsLocked key db) : ¬ IsFree key db := by
  obtain ⟨row, hrow, hlocked⟩ := h
  rintro (habsent | ⟨row', expired, hrow', -, hlocked', hexpired⟩)
  · rw [hrow] at habsent
    cases habsent
  · obtain rfl := Option.some.inj (hrow.symm.trans hrow')
    exact absurd hexpired (not_lt.2 (hlocked expired hlocked'))

theorem IsCompleted.congr (h : IsCompleted key db) (hrow : db'.keys.row key = db.keys.row key) :
    IsCompleted key db' := by
  unfold IsCompleted
  rw [hrow]
  exact h

theorem IsCompleted.of_set {row : IdempotencyRow τ β} {statusCode : ℕ} {body : Option β}
    {headers : List (String × String)}
    (hkeys : db'.keys = db.keys.set key (row.completedWith statusCode headers body)) :
    IsCompleted key db' :=
  ⟨_, by rw [hkeys, Table.set_row_self], rfl⟩

variable [DecidableEq τ] {sha256 : String → String}

/-- Once a response is recorded for a key, there is one for good. -/
theorem KeyStep.isCompleted (h : KeyStep sha256 calls t db db') (hC : IsCompleted key db) :
    IsCompleted key db' := by
  rcases h.row_cases key with hrow | ⟨hfree, -⟩ | ⟨hkey, hrunning, hdone⟩
  · exact hC.congr hrow
  · exact absurd hfree hC.not_free
  · rcases h.finish_cases hkey hrunning hdone with ⟨_, _, _, _, _, _, _, hkeys⟩ |
      ⟨_, _, row, _, _, hrow, _, hstatus, _⟩ | ⟨-, hkeys⟩
    · exact .of_set hkeys
    · -- `fail` spares a row that is completed
      obtain ⟨row', hrow', hstatus'⟩ := hC
      obtain rfl := Option.some.inj (hrow.symm.trans hrow')
      rw [hstatus] at hstatus'
      cases hstatus'
    · exact hC.congr (by rw [hkeys])

/-- The request is done, and its response or another one is recorded. -/
theorem KeyStep.isCompleted_of_records (h : KeyStep sha256 calls t db db')
    (hkey : (calls t).key = some key) (hproduces : (calls t).Produces)
    (hrunning : (db.running t).isSome) (hdone : db'.running t = none)
    (hrecords : (calls t).Records key db) : IsCompleted key db' := by
  rcases hrecords with hC | ⟨hfate, statusCode, body, row, houtcome, hcode, hrow⟩
  · exact h.isCompleted hC
  obtain ⟨statusCode', hproduced, hlt⟩ := hproduces
  rw [houtcome, HandlerOutcome.statusCode, Option.some.injEq] at hproduced
  subst hproduced
  rcases h.finish_cases hkey hrunning hdone with ⟨_, _, _, _, _, _, _, hkeys⟩ |
    ⟨code, _, _, houtcome', _, _, hcode', _, _⟩ | ⟨hidle, -⟩
  · exact .of_set hkeys
  · rw [houtcome, HandlerOutcome.finished.injEq] at houtcome'
    exact absurd ⟨houtcome'.1 ▸ hcode, houtcome'.1 ▸ hlt⟩ hcode'
  · exact absurd ⟨hfate, statusCode, body, row, houtcome, hrow, .inl ⟨hcode, hlt⟩⟩ hidle

theorem AllRecorded.step (hA : AllRecorded calls db) (hs : KeyStep sha256 calls t db db')
    (hrecords : ∀ key, (calls t).key = some key → (calls t).Produces →
      Finishes ⟨t, db, db'⟩ → (calls t).Records key db) : AllRecorded calls db' := by
  intro t' key hkey hproduces hbegun hdone
  by_cases hrunning : (db.running t').isSome
  · -- it is done with this step
    have ht : t' = t := by
      by_contra hne
      rw [← hs.running_other hne, hdone] at hrunning
      cases hrunning
    subst ht
    exact hs.isCompleted_of_records hkey hproduces hrunning hdone
      (hrecords key hkey hproduces ⟨hrunning, hdone⟩)
  · have hidle : db.running t' = none := Option.not_isSome_iff_eq_none.1 hrunning
    refine hs.isCompleted (hA t' key hkey hproduces ?_ hidle)
    rcases hs.runs_cases with ⟨hruns, -⟩ | ⟨hstarted, hruns, -⟩
    · rwa [hruns] at hbegun
    · rw [hruns, List.mem_append, List.mem_singleton] at hbegun
      refine hbegun.resolve_right ?_
      rintro rfl
      simp [hdone] at hstarted

end Steps

section Runs

variable [DecidableEq τ] {sha256 : String → String} {calls : τ → HttpCall β}
  {h : List (Taken τ (IdempotencyDb τ β))}
  {c : Config τ (IdempotencyDb τ β) IdempotencyError (Option (HttpResponse β))}

theorem allRecorded_of_run (hrun : (httpCalls sha256 calls).Run h c)
    (hrecords : ∀ s ∈ h, ∀ key, (calls s.thread).key = some key → (calls s.thread).Produces →
      Finishes s → (calls s.thread).Records key s.before)
    {h₁ : List (Taken τ (IdempotencyDb τ β))} {s : Taken τ (IdempotencyDb τ β)}
    (hp : h₁ ++ [s] <+: h) :
    AllRecorded calls s.before ∧ KeyStep sha256 calls s.thread s.before s.after := by
  have hstep : ∀ h db t db', ((∀ s ∈ h, ∀ key, (calls s.thread).key = some key →
      (calls s.thread).Produces → Finishes s → (calls s.thread).Records key s.before) →
      AllRecorded calls db) → KeyStep sha256 calls t db db' →
      (∀ s ∈ h ++ [⟨t, db, db'⟩], ∀ key, (calls s.thread).key = some key →
        (calls s.thread).Produces → Finishes s → (calls s.thread).Records key s.before) →
      AllRecorded calls db' := by
    intro h db t db' ih hs hrec
    refine (ih fun s hs' => hrec s (List.mem_append_left _ hs')).step hs ?_
    exact hrec ⟨t, db, db'⟩ (List.mem_append_right _ (List.mem_singleton_self _))
  obtain ⟨hA, hs⟩ := keyStep_of_run (fun _ t key _ _ hbegun => by cases hbegun) hstep hrun hp
  refine ⟨hA fun s' hs' => hrecords s' ?_, hs⟩
  exact ((List.prefix_append _ _).trans hp).subset hs'

/-- Any requests and the clock, interleaved statement by statement in any way, with clients that are
gone whenever they please. A request with the key and the body of a handler that has come to its end
with a status below 500 never runs the handler again, if for every such handler a response is
recorded with the step that ends its request, and the key is locked until then. -/
theorem never_rerun_of_records (sha256 : String → String) (calls : τ → HttpCall β) (ends : τ → ℕ)
    {h : List (Taken τ (IdempotencyDb τ β))}
    {c : Config τ (IdempotencyDb τ β) IdempotencyError (Option (HttpResponse β))}
    (hrun : (httpCalls sha256 calls).Run h c)
    (hrecords : ∀ s ∈ h, ∀ key, (calls s.thread).key = some key → (calls s.thread).Produces →
      Finishes s → (calls s.thread).Records key s.before)
    (hlocked : ∀ h₁ s, h₁ ++ [s] <+: h → ∀ t key, (calls t).key = some key → (calls t).Produces →
      (s.before.running t).isSome → ends t ≤ h₁.length → IsLocked key s.before) :
    NeverRerun calls ends h := by
  intro h₁ s hp hbegins t key hkey hkey' _ hproduces hended
  obtain ⟨hA, hs⟩ := allRecorded_of_run hrun hrecords hp
  -- the handler that begins finds the key free
  have hfree : IsFree key s.before := by
    rcases hs.runs_cases with ⟨hruns, -⟩ | ⟨-, -, key', hk, hfree, -⟩
    · simp [hruns] at hbegins
    · obtain rfl : key' = key := Option.some.inj (hk.symm.trans hkey')
      exact hfree
  by_cases hrunning : (s.before.running t).isSome
  · have hends : ends t ≤ h₁.length := by
      refine hended.2.resolve_right fun hidle => ?_
      simp [hidle] at hrunning
    exact (hlocked h₁ s hp t key hkey hproduces hrunning hends).not_free hfree
  · have hdone : s.before.running t = none := Option.not_isSome_iff_eq_none.1 hrunning
    exact (hA t key hkey hproduces hended.1 hdone).not_free hfree

end Runs

/-- The first request stores its response in time; the second one comes when its lock would have
expired. -/
theorem sampleLate_inTime_isSome :
    ((httpCalls sampleSha256 sampleLate).history [0, 0, 0, 1, 2, 2, 2]).isSome := by decide

theorem sampleLate_key {t : Fin 3} {key : String} (h : (sampleLate t).key = some key) :
    key = "key-1" := by
  have hkeys : ∀ t, ∀ key ∈ (sampleLate t).key, key = "key-1" := by decide
  exact hkeys t key h

theorem never_rerun_of_records_inTime : ∃ h c, (httpCalls sampleSha256 sampleLate).Run h c
    ∧ c.world.runs = [0] ∧ NeverRerun sampleLate (fun _ => 2) h := by
  have hrun := Config.run_of_history _ (Option.eq_some_of_isSome sampleLate_inTime_isSome)
  have hdone : ∀ s ∈ ((((httpCalls sampleSha256 sampleLate).history [0, 0, 0, 1, 2, 2, 2]).get
      sampleLate_inTime_isSome).1), (s.before.running s.thread).isSome → s.thread = 0
        ∧ (s.before.keys.row "key-1").isSome := by decide
  have hlock : ∀ s ∈ ((((httpCalls sampleSha256 sampleLate).history [0, 0, 0, 1, 2, 2, 2]).get
      sampleLate_inTime_isSome).1), ∀ t, (s.before.running t).isSome →
        ((s.before.keys.row "key-1").bind IdempotencyRow.lockedUntil).any (s.before.now ≤ ·) := by
    decide
  refine ⟨_, _, hrun, rfl, never_rerun_of_records sampleSha256 sampleLate _ hrun ?_ ?_⟩
  · intro s hs key hkey hproduces hfin
    obtain ⟨hthread, hsome⟩ := hdone s hs hfin.1
    obtain ⟨row, hrow⟩ := Option.isSome_iff_exists.1 hsome
    rw [sampleLate_key hkey, hthread]
    exact .inr ⟨by decide, 201, some "evt-1", row, rfl, by decide, hrow⟩
  · intro h₁ s hp t key hkey hproduces hrunning hends
    have hlocked := hlock s (hp.subset (by simp)) t hrunning
    simp only [Option.any_eq_true, Option.bind_eq_some_iff, decide_eq_true_eq] at hlocked
    obtain ⟨lockedUntil, ⟨row, hrow, hlockedUntil⟩, hle⟩ := hlocked
    rw [sampleLate_key hkey]
    refine ⟨row, hrow, fun u hu => ?_⟩
    rwa [← Option.some.inj (hlockedUntil.symm.trans hu)]

/-- The connection of the first request closes before its response is flushed. -/
def sampleDropped (t : Fin 3) : HttpCall String :=
  if t.val = 1 then .tick 30001
  else .request ⟨fun _ => .answered, fun _ => .answered, .answered, .answered,
      if t.val = 0 then .closed 201 else .finished 201 (some "evt-2")⟩
    0 ⟨some (.one "key-1"), none, "POST", "/api", "/events", some "\x7b\x7d"⟩

theorem sampleDropped_isSome :
    ((httpCalls sampleSha256 sampleDropped).history [0, 0, 0, 1, 2, 2, 2, 2]).isSome := by decide

/-- The retry reclaims the key when the lock has expired, and the handler runs a second time. -/
theorem never_rerun_fails : ¬ ∀ h c, (httpCalls sampleSha256 sampleDropped).Run h c →
    NeverRerun sampleDropped (fun _ => 2) h := by
  intro hall
  have hrun := Config.run_of_history _ (Option.eq_some_of_isSome sampleDropped_isSome)
  have hrun' := hrun.snoc (i := 2) rfl
  exact hall _ _ hrun' _ _ List.prefix_rfl rfl 0 "key-1" (by decide) (by decide) rfl
    ⟨201, rfl, by decide⟩ ⟨by decide, .inl (by decide)⟩

end LaunchPad
