import LaunchPad.Replay

/-!
# A delivery ends in one place

Each attempt either settles the delivery or is followed by another, which takes one of the attempts
left. So `consume` ends, with the first attempt whose error does not pass: it succeeded and nothing
is put aside, or the event is put aside once, with that error.
-/

namespace LaunchPad

open Interleave Rows

variable {δ : Type}

namespace Delivered

variable (d : Delivered δ)

/-- The attempt fails in a way that is worth another one. -/
def Passes (attempt : ℕ) : Prop :=
  ∃ e, d.outcomes attempt = .error e ∧ isTransientError e = true
    ∧ ∀ message, e ≠ .permanentPoisonError message

/-- The `k`-th attempt is allowed and succeeds, and each before it was worth another one. -/
structure SucceedsAt (k : ℕ) : Prop where
  first : 1 ≤ k
  allowed : (k : ℤ) ≤ d.maxAttempts
  succeeds : d.outcomes k = .ok ()
  before : ∀ j, 1 ≤ j → j < k → d.Passes j

/-- The dead letter of the event. -/
def record (errorMessage : String) (attempts : ℕ) : DeadLetterRecord δ :=
  ⟨d.deadLetterId, d.event.eventId, d.consumerName, d.event, errorMessage, attempts, d.onMove.now,
    none, .dead⟩

/-- What the dead letter says went wrong at the last of the attempts. -/
def LastError (attempts : ℕ) (errorMessage : String) : Prop :=
  if attempts = 0 then errorMessage = "Max retry attempts exhausted"
  else ∃ e, d.outcomes attempts = .error e ∧ errorMessage = e.message

/-- What `consume` ends with: the event has been acted on, or put aside once. -/
structure OnePlace (db : DlqDb δ (List ℕ)) (r : ConsumeResult) (db' : DlqDb δ (List ℕ)) : Prop where
  calls : db'.work = db.work ++ List.range' 1 r.attempts
  bounded : (r.attempts : ℤ) ≤ max 0 d.maxAttempts
  success_iff : ∀ k, (r.status = .success ∧ r.attempts = k) ↔ d.SucceedsAt k
  succeeded : r.status = .success → r.deadLetterId = none ∧ db'.deadLetters = db.deadLetters
  diverted : r.status = .dlqDiverted → r.deadLetterId = some d.deadLetterId
    ∧ ∃ errorMessage, d.LastError r.attempts errorMessage
      ∧ db'.deadLetters
        = db.deadLetters.set d.deadLetterId (d.record errorMessage r.attempts)

end Delivered

section Steps

variable {d : Delivered δ} {db : DlqDb δ (List ℕ)}

/-- The world after one more attempt. -/
def DlqDb.attempted (db : DlqDb δ (List ℕ)) (attempt : ℕ) : DlqDb δ (List ℕ) :=
  { db with work := db.work ++ [attempt] }

theorem run_divert {T : Table String (DeadLetterRecord δ)} {work : List ℕ}
    (hanswered : d.onMove.fate = .answered) (hfresh : T.row d.deadLetterId = none)
    (errorMessage : String) (attempts : ℕ) :
    (divert d.env errorMessage attempts).run ⟨T, work⟩
      = some (.ok ⟨.dlqDiverted, attempts, some d.deadLetterId⟩,
        ⟨T.set d.deadLetterId (d.record errorMessage attempts), work⟩) := by
  simp [divert, Delivered.env, DeadLetterQueueRepository.moveToDeadLetter, Sync.bind_apply,
    autocommit, hanswered, hfresh, Delivered.record]

theorem run_action (attempt : ℕ) :
    (d.env.action attempt).run db = some (d.outcomes attempt, db.attempted attempt) := by
  change (Async.await (ends attempt (d.outcomes attempt))).run db = _
  rw [Async.run_await]
  rfl

theorem run_consumeFrom_of_ok {left attempt : ℕ} (hok : d.outcomes (attempt + 1) = .ok ()) :
    (consumeFrom d.env (left + 1) attempt).run db
      = some (.ok ⟨.success, attempt + 1, none⟩, db.attempted (attempt + 1)) := by
  simp only [consumeFrom, Async.run_tryCatch, Sync.tryCatch_apply, Async.run_bind, Sync.bind_apply,
    run_action, hok, Async.run_pure, Sync.pure_apply]

theorem run_consumeFrom_of_passes {left attempt : ℕ} (hleft : left ≠ 0)
    (hpasses : d.Passes (attempt + 1)) :
    (consumeFrom d.env (left + 1) attempt).run db
      = (consumeFrom d.env left (attempt + 1)).run (db.attempted (attempt + 1)) := by
  obtain ⟨e, he, htransient, hpoison⟩ := hpasses
  have hthrown : d.env.thrown e = e := rfl
  simp only [consumeFrom, Async.run_tryCatch, Sync.tryCatch_apply, Async.run_bind, Sync.bind_apply,
    run_action, he, hthrown]
  rcases e with message | message | message | text
  · simp [htransient, hleft, Sync.bind_apply]
  · exact absurd rfl (hpoison message)
  · simp [htransient, hleft, Sync.bind_apply]
  · simp [htransient, hleft, Sync.bind_apply]

theorem run_consumeFrom_of_fails {left attempt : ℕ} {e : ThrownError}
    (he : d.outcomes (attempt + 1) = .error e) (hfails : left ≠ 0 → ¬ d.Passes (attempt + 1)) :
    (consumeFrom d.env (left + 1) attempt).run db
      = (divert d.env e.message (attempt + 1)).run (db.attempted (attempt + 1)) := by
  have hthrown : d.env.thrown e = e := rfl
  have hsettled : (∀ message, e ≠ .permanentPoisonError message) →
      ¬ (isTransientError e = true ∧ left ≠ 0) :=
    fun hpoison h => hfails h.2 ⟨e, he, h.1, hpoison⟩
  simp only [consumeFrom, Async.run_tryCatch, Sync.tryCatch_apply, Async.run_bind, Sync.bind_apply,
    run_action, he, hthrown]
  rcases e with message | message | message | text
  · simp only [if_neg (hsettled (by simp))]
  · rfl
  · simp only [if_neg (hsettled (by simp))]
  · simp only [if_neg (hsettled (by simp))]

theorem onePlace_success {k : ℕ} (hk : d.SucceedsAt k) :
    d.OnePlace db ⟨.success, k, none⟩ { db with work := db.work ++ List.range' 1 k } where
  calls := rfl
  bounded := hk.allowed.trans (le_max_right _ _)
  success_iff j := by
    refine ⟨fun h => h.2 ▸ hk, fun hj => ⟨rfl, ?_⟩⟩
    rcases lt_trichotomy k j with hlt | rfl | hlt
    · obtain ⟨e, he, -⟩ := hj.before k hk.first hlt
      simp [hk.succeeds] at he
    · rfl
    · obtain ⟨e, he, -⟩ := hk.before j hj.first hlt
      simp [hj.succeeds] at he
  succeeded _ := ⟨rfl, rfl⟩
  diverted h := by simp at h

theorem onePlace_diverted {calls : ℕ} {errorMessage : String} (hno : ∀ k, ¬ d.SucceedsAt k)
    (hbounded : (calls : ℤ) ≤ max 0 d.maxAttempts) (hlast : d.LastError calls errorMessage) :
    d.OnePlace db ⟨.dlqDiverted, calls, some d.deadLetterId⟩
      ⟨db.deadLetters.set d.deadLetterId (d.record errorMessage calls),
        db.work ++ List.range' 1 calls⟩ where
  calls := rfl
  bounded := hbounded
  success_iff k := by simp [hno k]
  succeeded h := by simp at h
  diverted _ := ⟨rfl, errorMessage, hlast, rfl⟩

/-- An attempt that failed and was not followed by another: none succeeds. -/
theorem not_succeedsAt {calls : ℕ} {e : ThrownError} (he : d.outcomes calls = .error e)
    (hlast : (calls : ℤ) < d.maxAttempts → ¬ d.Passes calls) (hcalls : 1 ≤ calls)
    (hbefore : ∀ j, 1 ≤ j → j < calls → d.Passes j) (k : ℕ) : ¬ d.SucceedsAt k := by
  intro hk
  rcases lt_trichotomy k calls with hlt | rfl | hlt
  · obtain ⟨e', he', -⟩ := hbefore k hk.first hlt
    simp [hk.succeeds] at he'
  · simp [hk.succeeds] at he
  · have hallowed := hk.allowed
    exact hlast (by omega) (hk.before calls hcalls hlt)

/-- From any attempt on, with the attempts that are left. -/
theorem run_consumeFrom (hanswered : d.onMove.fate = .answered)
    (hfresh : db.deadLetters.row d.deadLetterId = none) :
    ∀ {left attempt : ℕ}, attempt + left = d.maxAttempts.toNat → (left = 0 → attempt = 0) →
      (∀ j, 1 ≤ j → j ≤ attempt → d.Passes j) →
      ∃ r db', (consumeFrom d.env left attempt).run
          { db with work := db.work ++ List.range' 1 attempt } = some (.ok r, db')
        ∧ d.OnePlace db r db'
  | 0, attempt, hmax, hnone, _ => by
    obtain rfl := hnone rfl
    have hno : ∀ k, ¬ d.SucceedsAt k := by
      intro k hk
      have hfirst := hk.first
      have hallowed := hk.allowed
      omega
    rw [consumeFrom, run_divert hanswered hfresh]
    exact ⟨_, _, rfl, onePlace_diverted hno (by omega) (by simp [Delivered.LastError])⟩
  | left + 1, attempt, hmax, _, hbefore => by
    have hattempted : ({ db with work := db.work ++ List.range' 1 attempt } :
        DlqDb δ (List ℕ)).attempted (attempt + 1)
          = { db with work := db.work ++ List.range' 1 (attempt + 1) } := by
      simp [DlqDb.attempted, List.range'_concat, Nat.add_comm]
    have hpassed : ∀ j, 1 ≤ j → j < attempt + 1 → d.Passes j :=
      fun j hj hlt => hbefore j hj (Nat.lt_succ_iff.1 hlt)
    rcases hout : d.outcomes (attempt + 1) with e | ⟨⟨⟩⟩
    · by_cases hpass : left ≠ 0 ∧ d.Passes (attempt + 1)
      · obtain ⟨hleft, hpasses⟩ := hpass
        rw [run_consumeFrom_of_passes hleft hpasses, hattempted]
        refine run_consumeFrom hanswered hfresh (by omega) (fun h => absurd h hleft)
          fun j hj hle => ?_
        rcases Nat.le_succ_iff.1 hle with hle | rfl
        · exact hbefore j hj hle
        · exact hpasses
      · have hno := not_succeedsAt hout
          (fun hlt hpasses => hpass ⟨by omega, hpasses⟩) (by omega) hpassed
        rw [run_consumeFrom_of_fails hout fun hleft hpasses => hpass ⟨hleft, hpasses⟩, hattempted,
          run_divert hanswered hfresh]
        exact ⟨_, _, rfl, onePlace_diverted hno (by omega) (by simp [Delivered.LastError, hout])⟩
    · rw [run_consumeFrom_of_ok hout, hattempted]
      exact ⟨_, _, rfl, onePlace_success ⟨by omega, by omega, hout, hpassed⟩⟩

end Steps

/-- However the attempts at a delivery go, and with whatever limit, it ends in one place. -/
theorem delivery_ends_in_one_place (d : Delivered δ) (db : DlqDb δ (List ℕ))
    (hanswered : d.onMove.fate = .answered) (hfresh : db.deadLetters.row d.deadLetterId = none) :
    ∃ r db', (consume d.env).run db = some (.ok r, db') ∧ d.OnePlace db r db' := by
  have hmax : 0 + d.maxAttempts.toNat = d.maxAttempts.toNat := Nat.zero_add _
  have hrun := run_consumeFrom hanswered hfresh hmax (fun _ => rfl)
    fun j hj hle => absurd hj (by omega)
  rw [List.range'_zero, List.append_nil] at hrun
  exact hrun

/-- A timeout, and then an error whose text would pass, of the class that does not. -/
def poisonedDelivery : Delivered Unit where
  event := ⟨"evt", "order.confirmed", "order", ()⟩
  consumerName := "fulfillment"
  maxAttempts := 3
  outcomes attempt := .error
    (if attempt = 1 then .error "Request timeout" else .permanentPoisonError "timeout: 503")
  deadLetterId := "dead"
  onMove := ⟨.answered, 0, .other ""⟩

theorem delivery_ends_in_one_place_poisoned :
    ∃ r db', (consume poisonedDelivery.env).run ⟨.empty, []⟩ = some (.ok r, db')
      ∧ poisonedDelivery.OnePlace ⟨.empty, []⟩ r db' :=
  delivery_ends_in_one_place poisonedDelivery ⟨.empty, []⟩ rfl rfl

end LaunchPad
