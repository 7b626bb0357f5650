import LaunchPad.RetryPolicy
import Mathlib.Tactic.Linarith

/-!
# The contract of the retry loop

The attempts before the last are those that go on to a sleep, so a run is the run of its last
attempt behind their calls and sleeps. That attempt ends the loop as agreed, unless its error is
`null` or `undefined`, which `isRetryable` cannot read; the loop runs out only where `maxAttempts`
is no whole number.
-/

namespace LaunchPad

namespace RetryPolicy

variable {α : Type}

/-- The outcome is an error that `isRetryable` accepts. -/
def Retried (o : Except ThrownValue α) : Prop :=
  ∃ err, o = .error err ∧ isRetryable err = .ok true

/-- The outcome is a success, or an error that `isRetryable` rejects. -/
def Ends (o : Except ThrownValue α) : Prop :=
  (∃ value, o = .ok value) ∨ ∃ err, o = .error err ∧ isRetryable err = .ok false

/-- The outcome is an error without properties. -/
def Nullish (o : Except ThrownValue α) : Prop := o = .error .null ∨ o = .error .undefined

/-- The `retryAfterSeconds` of an outcome, if it has a positive one. -/
def positiveRetryAfter : Except ThrownValue α → Option ℚ
  | .ok _ => none
  | .error err => (retryAfterSeconds err).filter (0 < ·)

/-- How long to sleep after this outcome of an attempt. -/
structure SleepAgreed (p : RetryPolicy) (attempt : ℕ) (o : Except ThrownValue α) (ms : ℚ) :
    Prop where
  override : ∀ seconds, positiveRetryAfter o = some seconds → ms = seconds * 1000
  backoff : positiveRetryAfter o = none →
    0 ≤ ms ∧ ms ≤ min p.maxDelayMs (p.baseDelayMs * 2 ^ attempt)

/-- What the loop does when it calls `fn` exactly `k` times. -/
structure Contract (p : RetryPolicy) (fn : ℕ → Except ThrownValue α) (k : ℕ) (run : RetryRun α) :
    Prop where
  one_le : 1 ≤ k
  le_max : (k : ℚ) ≤ p.maxAttempts
  calls_eq : run.calls = List.range k
  first : ∀ i < k - 1, ¬Ends (fn i)
  last : Ends (fn (k - 1)) ∨ (k : ℚ) = p.maxAttempts
  result_eq : run.result = fn (k - 1)
  sleeps_length : run.sleeps.length = k - 1
  sleeps_agreed : ∀ i ms, run.sleeps[i]? = some ms → SleepAgreed p i (fn i) ms
  inside : run.afterLoop = false

/-- No attempt before this one ended the loop. -/
def Reached (p : RetryPolicy) (fn : ℕ → Except ThrownValue α) (i : ℕ) : Prop :=
  (i : ℚ) < p.maxAttempts ∧ ∀ j < i, Retried (fn j)

/-- The errors that are reached can be read, the number of attempts is whole or not needed, and no
backoff that is needed is negative. -/
structure WellPosed (p : RetryPolicy) (fn : ℕ → Except ThrownValue α) : Prop where
  readable : ∀ i, Reached p fn i → ¬Nullish (fn i)
  whole : (∃ n : ℕ, p.maxAttempts = n) ∨
    ∃ i : ℕ, Reached p fn i ∧ Ends (fn i) ∧ (i + 1 : ℚ) ≤ p.maxAttempts
  nonneg : ∀ i, Reached p fn i → Retried (fn i) → (i + 1 : ℚ) < p.maxAttempts →
    positiveRetryAfter (fn i) = none → 0 ≤ min p.maxDelayMs (p.baseDelayMs * 2 ^ i)

section Outcomes

variable {o : Except ThrownValue α}

theorem outcome_cases (o : Except ThrownValue α) : Retried o ∨ Ends o ∨ Nullish o := by
  rcases o with err | value
  · cases err with
    | null => exact .inr (.inr (.inl rfl))
    | undefined => exact .inr (.inr (.inr rfl))
    | error e =>
      cases h : isRetryableError e with
      | true => exact .inl ⟨.error e, rfl, congrArg Except.ok h⟩
      | false => exact .inr (.inl (.inr ⟨.error e, rfl, congrArg Except.ok h⟩))
  · exact .inr (.inl (.inl ⟨value, rfl⟩))

theorem Retried.not_ends (h : Retried o) : ¬Ends o := by
  obtain ⟨err, rfl, herr⟩ := h
  rintro (⟨value, hv⟩ | ⟨err', he, herr'⟩)
  · cases hv
  · cases he
    cases herr.symm.trans herr'

theorem Retried.not_nullish (h : Retried o) : ¬Nullish o := by
  obtain ⟨err, rfl, herr⟩ := h
  rintro (h | h) <;> cases h <;> cases herr

end Outcomes

/-! ## One attempt -/

variable (p : RetryPolicy) (fn : ℕ → Except ThrownValue α) (random : ℕ → RandomDraw)

/-- How long `execute` sleeps after this attempt. -/
def sleepAfter (attempt : ℕ) : ℚ :=
  match fn attempt with
  | .ok _ => 0
  | .error err => p.computeBackoffMs (random attempt) attempt (retryAfterSeconds err)

/-- The loop sleeps after this attempt and goes on. -/
structure Continues (attempt : ℕ) : Prop where
  below : (attempt : ℚ) < p.maxAttempts
  retried : Retried (fn attempt)
  notFinal : (attempt : ℚ) ≠ p.maxAttempts - 1

section Step

variable {p fn} {attempt : ℕ} (lastError : ThrownValue)

theorem executeFrom_after (h : ¬(attempt : ℚ) < p.maxAttempts) :
    executeFrom p fn random attempt lastError = ⟨[], .error lastError, true⟩ := by
  rw [executeFrom, if_neg h]

theorem executeFrom_ends (hbelow : (attempt : ℚ) < p.maxAttempts) (h : Ends (fn attempt)) :
    executeFrom p fn random attempt lastError = ⟨[.call attempt], fn attempt, false⟩ := by
  rw [executeFrom, if_pos hbelow]
  rcases h with ⟨value, hv⟩ | ⟨err, he, herr⟩
  · simp only [hv]
  · simp only [he, herr, Bool.not_false, if_true]

theorem executeFrom_nullish (hbelow : (attempt : ℚ) < p.maxAttempts)
    (h : Nullish (fn attempt)) : ∃ message,
      executeFrom p fn random attempt lastError
        = ⟨[.call attempt], .error (typeError message), false⟩ := by
  rw [executeFrom, if_pos hbelow]
  rcases h with h | h <;> simp only [h, isRetryable] <;> exact ⟨_, rfl⟩

theorem executeFrom_final (hretried : Retried (fn attempt))
    (h : (attempt : ℚ) = p.maxAttempts - 1) :
    executeFrom p fn random attempt lastError = ⟨[.call attempt], fn attempt, false⟩ := by
  have hbelow : (attempt : ℚ) < p.maxAttempts := by linarith
  obtain ⟨err, he, herr⟩ := hretried
  rw [executeFrom, if_pos hbelow]
  simp only [he, herr, Bool.not_true, Bool.false_eq_true, if_false]
  rw [if_pos h]

theorem executeFrom_continues (h : Continues p fn attempt) : ∃ err,
    executeFrom p fn random attempt lastError =
      { executeFrom p fn random (attempt + 1) err with
        log := .call attempt :: .sleep (sleepAfter p fn random attempt)
          :: (executeFrom p fn random (attempt + 1) err).log } := by
  obtain ⟨err, he, herr⟩ := h.retried
  refine ⟨err, ?_⟩
  rw [executeFrom, if_pos h.below]
  simp only [he, herr, Bool.not_true, Bool.false_eq_true, if_false, sleepAfter]
  rw [if_neg h.notFinal]

end Step

/-! ## The run -/

section Run

variable {p fn}

/-- A run is the run of an attempt behind those that go on to a sleep. -/
theorem executeFrom_run (n : ℕ) : ∀ (attempt : ℕ) (lastError : ThrownValue),
    (∀ j < n, Continues p fn (attempt + j)) → ∃ err,
      let run := executeFrom p fn random attempt lastError
      let rest := executeFrom p fn random (attempt + n) err
      run.calls = List.range' attempt n ++ rest.calls
        ∧ run.sleeps = (List.range' attempt n).map (sleepAfter p fn random) ++ rest.sleeps
        ∧ run.result = rest.result ∧ run.afterLoop = rest.afterLoop := by
  -- The number of attempts that go on; the error that is kept changes with each.
  induction n with
  | zero => exact fun attempt lastError _ => ⟨lastError, rfl, rfl, rfl, rfl⟩
  | succ n ih =>
    intro attempt lastError h
    have hgo : Continues p fn attempt := h 0 n.succ_pos
    obtain ⟨err, hstep⟩ := executeFrom_continues random lastError hgo
    obtain ⟨err', hcalls, hsleeps, hresult, hafter⟩ := ih (attempt + 1) err fun j hj => by
      rw [Nat.add_right_comm, Nat.add_assoc]
      exact h (j + 1) (Nat.succ_lt_succ hj)
    rw [Nat.add_right_comm, Nat.add_assoc] at hcalls hsleeps hresult hafter
    refine ⟨err', ?_, ?_, ?_, ?_⟩
    · rw [hstep, List.range'_succ, List.cons_append, ← hcalls]
      rfl
    · rw [hstep, List.range'_succ, List.map_cons, List.cons_append, ← hsleeps]
      rfl
    · rw [hstep, ← hresult]
    · rw [hstep, ← hafter]

/-- The first attempt the loop does not sleep after. -/
structure LastAttempt (p : RetryPolicy) (fn : ℕ → Except ThrownValue α) (n : ℕ) : Prop where
  continues : ∀ j < n, Continues p fn j
  stops : ¬Continues p fn n

theorem exists_lastAttempt (p : RetryPolicy) (fn : ℕ → Except ThrownValue α) :
    ∃ n, LastAttempt p fn n := by
  classical
  have hex : ∃ n, ¬Continues p fn n :=
    ⟨⌈p.maxAttempts⌉₊, fun h => absurd h.below (Nat.le_ceil p.maxAttempts).not_gt⟩
  exact ⟨Nat.find hex, fun j hj => not_not.1 (Nat.find_min hex hj), Nat.find_spec hex⟩

namespace LastAttempt

variable {n : ℕ} (h : LastAttempt p fn n)
include h

theorem reached (hbelow : (n : ℚ) < p.maxAttempts) {i : ℕ} (hi : i ≤ n) : Reached p fn i :=
  ⟨lt_of_le_of_lt (Nat.cast_le.2 hi) hbelow, fun j hj => (h.continues j (by omega)).retried⟩

theorem le_of_reached {i : ℕ} (hi : Reached p fn i) : i ≤ n := by
  by_contra hlt
  push Not at hlt
  have hcast : (n + 1 : ℚ) ≤ i := by exact_mod_cast hlt
  exact h.stops ⟨by linarith [hi.1], hi.2 n hlt, by linarith [hi.1]⟩

/-- An attempt that is worth a retry is the last one only if it has the last number. -/
theorem ends_or_final (hbelow : (n : ℚ) < p.maxAttempts) (hnull : ¬Nullish (fn n)) :
    Ends (fn n) ∨ Retried (fn n) ∧ (n : ℚ) = p.maxAttempts - 1 := by
  rcases outcome_cases (fn n) with ho | ho | ho
  · refine .inr ⟨ho, ?_⟩
    by_contra hne
    exact h.stops ⟨hbelow, ho, hne⟩
  · exact .inl ho
  · exact absurd ho hnull

end LastAttempt

/-- What `execute` does, by its last attempt. -/
theorem execute_run {n : ℕ} (h : LastAttempt p fn n) : ∃ err,
    let run := p.execute fn random
    let rest := executeFrom p fn random n err
    run.calls = List.range n ++ rest.calls
      ∧ run.sleeps = (List.range n).map (sleepAfter p fn random) ++ rest.sleeps
      ∧ run.result = rest.result ∧ run.afterLoop = rest.afterLoop := by
  obtain ⟨err, hrun⟩ := executeFrom_run random n 0 .undefined fun j hj =>
    (Nat.zero_add j).symm ▸ h.continues j hj
  rw [Nat.zero_add, ← List.range_eq_range'] at hrun
  exact ⟨err, hrun⟩

end Run

/-! ## The sleeps -/

theorem computeBackoffMs_of_some {o : Except ThrownValue α} {err : ThrownValue} {seconds : ℚ}
    (ho : o = .error err) (h : positiveRetryAfter o = some seconds) (draw : RandomDraw)
    (attempt : ℕ) :
    p.computeBackoffMs draw attempt (retryAfterSeconds err) = seconds * 1000 := by
  subst ho
  obtain ⟨hseconds, hpos⟩ := Option.filter_eq_some_iff.1 h
  rw [hseconds, computeBackoffMs, if_pos (of_decide_eq_true hpos)]

theorem computeBackoffMs_of_none {o : Except ThrownValue α} {err : ThrownValue}
    (ho : o = .error err) (h : positiveRetryAfter o = none) (draw : RandomDraw) (attempt : ℕ) :
    p.computeBackoffMs draw attempt (retryAfterSeconds err)
      = computeBackoffMs.backoff p draw attempt := by
  subst ho
  unfold computeBackoffMs
  split
  · rename_i seconds hseconds
    refine if_neg fun hpos => ?_
    have := Option.filter_eq_none_iff.1 h seconds hseconds
    exact this (decide_eq_true hpos)
  · rfl

/-- Both ways, the sleep is at most the exponential one. -/
theorem backoff_mem (draw : RandomDraw) {attempt : ℕ} (h : 0 ≤ p.exponential attempt) :
    0 ≤ computeBackoffMs.backoff p draw attempt
      ∧ computeBackoffMs.backoff p draw attempt ≤ p.exponential attempt := by
  unfold computeBackoffMs.backoff
  split
  · refine ⟨by exact_mod_cast Int.floor_nonneg.2 (mul_nonneg draw.2.1 h), ?_⟩
    exact (Int.floor_le _).trans (mul_le_of_le_one_left h draw.2.2.le)
  · exact ⟨h, le_rfl⟩

theorem sleepAgreed_iff {attempt : ℕ} (h : Retried (fn attempt)) :
    SleepAgreed p attempt (fn attempt) (sleepAfter p fn random attempt)
      ↔ (positiveRetryAfter (fn attempt) = none →
          0 ≤ min p.maxDelayMs (p.baseDelayMs * 2 ^ attempt)) := by
  obtain ⟨err, he, -⟩ := h
  have hsleep : sleepAfter p fn random attempt
      = p.computeBackoffMs (random attempt) attempt (retryAfterSeconds err) := by
    simp only [sleepAfter, he]
  refine ⟨fun h hnone => (h.backoff hnone).1.trans (h.backoff hnone).2, fun h => ⟨?_, ?_⟩⟩
  · intro seconds hseconds
    rw [hsleep, computeBackoffMs_of_some p he hseconds]
  · intro hnone
    rw [hsleep, computeBackoffMs_of_none p he hnone]
    exact p.backoff_mem (random attempt) (h hnone)

variable {p fn random}

theorem sleeps_agreed_iff {n : ℕ} (h : ∀ i < n, Retried (fn i)) :
    (∀ i ms, ((List.range n).map (sleepAfter p fn random))[i]? = some ms →
        SleepAgreed p i (fn i) ms)
      ↔ ∀ i < n, positiveRetryAfter (fn i) = none →
          0 ≤ min p.maxDelayMs (p.baseDelayMs * 2 ^ i) := by
  constructor
  · intro hall i hi
    refine (sleepAgreed_iff p fn random (h i hi)).1 (hall i _ ?_)
    rw [List.getElem?_map, List.getElem?_range hi, Option.map_some]
  · intro hall i ms hms
    rw [List.getElem?_map, Option.map_eq_some_iff] at hms
    obtain ⟨j, hj, rfl⟩ := hms
    obtain ⟨hi, rfl⟩ := List.getElem?_eq_some_iff.1 hj
    rw [List.length_range] at hi
    rw [List.getElem_range]
    exact (sleepAgreed_iff p fn random (h i hi)).2 (hall i hi)

/-! ## The contract -/

theorem Contract.count_eq {n k : ℕ} {run : RetryRun α} (h : p.Contract fn k run)
    (hcalls : run.calls = List.range n) : k = n := by
  have := congrArg List.length (h.calls_eq.symm.trans hcalls)
  rwa [List.length_range, List.length_range] at this

/-- Where the loop runs out, nothing ended it and the number of attempts is not whole. -/
theorem LastAttempt.not_wellPosed {n : ℕ} (h : LastAttempt p fn n) (hmax : 1 ≤ p.maxAttempts)
    (habove : ¬(n : ℚ) < p.maxAttempts) : ¬WellPosed p fn := by
  push Not at habove
  rintro ⟨-, ⟨m, hm⟩ | ⟨i, hi, hends, -⟩, -⟩
  · rw [hm] at habove hmax
    have hmn : m ≤ n := Nat.cast_le.1 habove
    have hm1 : 1 ≤ m := by exact_mod_cast hmax
    have hgo := h.continues (m - 1) (by omega)
    refine hgo.notFinal ?_
    rw [hm, Nat.cast_sub hm1, Nat.cast_one]
  · have hin : i < n := by exact_mod_cast hi.1.trans_le habove
    exact (h.continues i hin).retried.not_ends hends

/-- An outcome without properties leaves the loop as something else. -/
theorem LastAttempt.not_contract {n : ℕ} (h : LastAttempt p fn n)
    (hbelow : (n : ℚ) < p.maxAttempts) (hnull : Nullish (fn n)) (k : ℕ) :
    ¬p.Contract fn k (p.execute fn random) := by
  intro hk
  obtain ⟨err, hcalls, -, hresult, -⟩ := execute_run random h
  obtain ⟨message, hrest⟩ := executeFrom_nullish random err hbelow hnull
  rw [hrest] at hcalls hresult
  obtain rfl := hk.count_eq (hcalls.trans List.range_succ.symm)
  have : .error (typeError message) = fn n := hresult.symm.trans hk.result_eq
  rcases hnull with hn | hn <;> rw [hn] at this <;> cases this

/-- The last attempt ended the loop as agreed. -/
theorem LastAttempt.contract_iff {n : ℕ} (h : LastAttempt p fn n)
    (hbelow : (n : ℚ) < p.maxAttempts) (hnull : ¬Nullish (fn n)) :
    (∃ k, p.Contract fn k (p.execute fn random)) ↔ (n + 1 : ℚ) ≤ p.maxAttempts
      ∧ ∀ i < n, positiveRetryAfter (fn i) = none →
          0 ≤ min p.maxDelayMs (p.baseDelayMs * 2 ^ i) := by
  obtain ⟨err, hcalls, hsleeps, hresult, hafter⟩ := execute_run random h
  have hend := h.ends_or_final hbelow hnull
  have hrest : executeFrom p fn random n err = ⟨[.call n], fn n, false⟩ := by
    rcases hend with ho | ⟨ho, hfinal⟩
    · exact executeFrom_ends random err hbelow ho
    · exact executeFrom_final random err ho hfinal
  rw [hrest] at hcalls hsleeps hresult hafter
  replace hcalls := hcalls.trans List.range_succ.symm
  replace hsleeps := hsleeps.trans (List.append_nil _)
  have hagreed : (∀ i ms, (p.execute fn random).sleeps[i]? = some ms →
      SleepAgreed p i (fn i) ms) ↔ ∀ i < n, positiveRetryAfter (fn i) = none →
        0 ≤ min p.maxDelayMs (p.baseDelayMs * 2 ^ i) := by
    rw [hsleeps]
    exact sleeps_agreed_iff fun i hi => (h.continues i hi).retried
  constructor
  · rintro ⟨k, hk⟩
    obtain rfl := hk.count_eq hcalls
    exact ⟨by exact_mod_cast hk.le_max, hagreed.1 hk.sleeps_agreed⟩
  · rintro ⟨hle, hdelays⟩
    refine ⟨n + 1, n.succ_pos, by exact_mod_cast hle, hcalls, ?_, ?_, hresult, ?_,
      hagreed.2 hdelays, hafter⟩
    · exact fun i hi => (h.continues i hi).retried.not_ends
    · exact hend.imp id fun hfinal => by rw [Nat.cast_succ, hfinal.2, sub_add_cancel]
    · rw [hsleeps, List.length_map, List.length_range, Nat.add_sub_cancel]

theorem LastAttempt.wellPosed_iff {n : ℕ} (h : LastAttempt p fn n)
    (hbelow : (n : ℚ) < p.maxAttempts) (hnull : ¬Nullish (fn n)) :
    WellPosed p fn ↔ (n + 1 : ℚ) ≤ p.maxAttempts
      ∧ ∀ i < n, positiveRetryAfter (fn i) = none →
          0 ≤ min p.maxDelayMs (p.baseDelayMs * 2 ^ i) := by
  constructor
  · rintro ⟨-, hwhole, hnonneg⟩
    have hle : (n + 1 : ℚ) ≤ p.maxAttempts := by
      rcases hwhole with ⟨m, hm⟩ | ⟨i, hi, hends, hle⟩
      · rw [hm] at hbelow ⊢
        exact_mod_cast Nat.cast_lt.1 hbelow
      · rcases (h.le_of_reached hi).lt_or_eq with hin | rfl
        · exact absurd hends (h.continues i hin).retried.not_ends
        · exact hle
    refine ⟨hle, fun i hi => hnonneg i (h.reached hbelow hi.le) (h.continues i hi).retried ?_⟩
    have : (i + 1 : ℚ) ≤ n := by exact_mod_cast hi
    linarith
  · rintro ⟨hle, hnonneg⟩
    refine ⟨fun i hi => ?_, ?_, fun i hi hretried hbelow' => ?_⟩
    · rcases (h.le_of_reached hi).lt_or_eq with hin | rfl
      · exact (h.continues i hin).retried.not_nullish
      · exact hnull
    · rcases h.ends_or_final hbelow hnull with ho | ⟨-, hfinal⟩
      · exact .inr ⟨n, h.reached hbelow le_rfl, ho, hle⟩
      · exact .inl ⟨n + 1, by rw [Nat.cast_succ, hfinal, sub_add_cancel]⟩
    · rcases (h.le_of_reached hi).lt_or_eq with hin | rfl
      · exact hnonneg i hin
      · rcases h.ends_or_final hbelow hnull with ho | ⟨-, hfinal⟩
        · exact absurd ho hretried.not_ends
        · linarith

/-- The loop keeps the contract where it is well posed, and only there. -/
theorem retry_contract_iff (p : RetryPolicy) (hmax : 1 ≤ p.maxAttempts)
    (fn : ℕ → Except ThrownValue α) (random : ℕ → RandomDraw) :
    (∃ k, p.Contract fn k (p.execute fn random)) ↔ p.WellPosed fn := by
  obtain ⟨n, h⟩ := exists_lastAttempt p fn
  -- The last attempt is out of range, throws what cannot be read, or ends the loop as it should.
  by_cases hbelow : (n : ℚ) < p.maxAttempts
  · by_cases hnull : Nullish (fn n)
    · refine iff_of_false (fun ⟨k, hk⟩ => h.not_contract hbelow hnull k hk) fun hposed => ?_
      exact hposed.readable n (h.reached hbelow le_rfl) hnull
    · rw [h.contract_iff hbelow hnull, h.wellPosed_iff hbelow hnull]
  · refine iff_of_false (fun ⟨k, hk⟩ => ?_) (h.not_wellPosed hmax hbelow)
    obtain ⟨err, -, -, -, hafter⟩ := execute_run random h
    rw [executeFrom_after random err hbelow, hk.inside] at hafter
    cases hafter

/-- An attempt that is refused, and one that succeeds. -/
def refusedOnce (attempt : ℕ) : Except ThrownValue String :=
  if attempt = 0 then .error (.error ⟨"Overloaded", some 503, none, some 2⟩) else .ok "done"

theorem refusedOnce_eq {attempt : ℕ} (h : attempt ≠ 0) : refusedOnce attempt = .ok "done" :=
  if_neg h

theorem wellPosed_refusedOnce : (new none).WellPosed refusedOnce where
  readable i _ := by
    unfold refusedOnce
    split <;> simp [Nullish]
  whole := .inl ⟨3, rfl⟩
  nonneg i _ hretried _ hnone := by
    rcases eq_or_ne i 0 with rfl | hi
    · have hsome : positiveRetryAfter (refusedOnce 0) = some 2 := by decide +kernel
      rw [hsome] at hnone
      cases hnone
    · obtain ⟨err, herr, -⟩ := hretried
      rw [refusedOnce_eq hi] at herr
      cases herr

theorem retry_contract_refusedOnce :
    ∃ k, (new none).Contract refusedOnce k
      ((new none).execute refusedOnce fun _ => ⟨0, le_rfl, zero_lt_one⟩) :=
  (retry_contract_iff (new none) (by decide +kernel) refusedOnce _).2 wellPosed_refusedOnce

/-- A rejection with `null` comes out as another error. -/
theorem null_not_rethrown :
    ¬∀ (p : RetryPolicy) (fn : ℕ → Except ThrownValue String) (random : ℕ → RandomDraw),
      1 ≤ p.maxAttempts → ∃ k, p.Contract fn k (p.execute fn random) := by
  intro h
  have hmax : 1 ≤ (new none).maxAttempts := by decide +kernel
  obtain ⟨k, hk⟩ := h (new none) (fun _ => .error .null) (fun _ => ⟨0, le_rfl, zero_lt_one⟩) hmax
  have hbelow : ((0 : ℕ) : ℚ) < (new none).maxAttempts := by decide +kernel
  refine LastAttempt.not_contract (n := 0) ⟨by simp, fun hgo => ?_⟩ hbelow (.inl rfl) k hk
  exact hgo.retried.not_nullish (.inl rfl)

end RetryPolicy

end LaunchPad
